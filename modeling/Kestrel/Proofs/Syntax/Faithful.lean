import Kestrel.Proofs.Syntax.Readback
import Kestrel.Syntax.Outline

/-!
# What the S-expression of a program tells

The text of its S-expression tells what a program is, but for its spans, the name of its file and
what the text writes alike: a bound of a slice that is the name `_` and a missing bound, and an
infinite number and the name `inf`.
-/

namespace Kestrel

section Programs

variable {first second : Program}

/-- Programs that can be run are told by their S-expressions. -/
theorem bare_eq_of_sexpr_eq (hruns : (SyntaxNode.program first).Runs)
    (hruns' : (SyntaxNode.program second).Runs) (hsame : first.sexpr = second.sexpr) :
    first.bare true = second.bare true := by
  have hfirst : first.sexpr.read.block.statements = (first.bare true).statements := hruns.readBack 0
  have hsecond : second.sexpr.read.block.statements = (second.bare true).statements :=
    hruns'.readBack 0
  have hstatements : (first.bare true).statements = (second.bare true).statements := by
    rw [← hfirst, hsame, hsecond]
  exact congrArg (Program.mk · none default) hstatements

/-- Programs that can be run have the same text exactly if they are the same without their spans and
with what the text writes alike merged. -/
theorem sexprText_eq_iff (hruns : (SyntaxNode.program first).Runs)
    (hruns' : (SyntaxNode.program second).Runs) :
    first.sexprText = second.sexprText ↔ first.bare true = second.bare true := by
  constructor
  · intro htexts
    have hproper : first.sexpr.Proper := hruns.writtenProperly 0
    have hproper' : second.sexpr.Proper := hruns'.writtenProperly 0
    exact bare_eq_of_sexpr_eq hruns hruns'
      (Sexpr.render_injective hproper hproper' (String.ofList_injective htexts))
  · intro hbare
    rw [← first.sexprText_bare true, hbare, second.sexprText_bare true]

end Programs

section Parsing

variable {source source' : String} {sourceFile sourceFile' : Option String} {first second : Program}

/-- Accepted programs have the same text as S-expressions exactly if they are the same without their
spans and the names of their files, where a bound of a slice that is the name `_` counts as missing
and an infinite number as the name `inf`. -/
theorem parsed_sexprText_eq_iff (hfirst : parseProgram source sourceFile = .ok first)
    (hsecond : parseProgram source' sourceFile' = .ok second) :
    first.sexprText = second.sexprText ↔ first.bare true = second.bare true :=
  sexprText_eq_iff (runs_parseProgram source sourceFile first hfirst)
    (runs_parseProgram source' sourceFile' second hsecond)

/-- The same program twice, laid out differently, and with a missing bound once. -/
theorem parsed_sexprText_eq_iff_of_layout :
    ∃ first second, parseProgram "x[_:y] z = -1" none = .ok first ∧
      parseProgram "x [ :y ]; z = ( -1 )" (some "main.kes") = .ok second ∧
      first.sexprText = second.sexprText ∧ first.bare true = second.bare true := by
  obtain ⟨first, hfirst⟩ : ∃ first, parseProgram "x[_:y] z = -1" none = .ok first :=
    exists_of_isOk (by decide +kernel)
  obtain ⟨second, hsecond⟩ : ∃ second,
      parseProgram "x [ :y ]; z = ( -1 )" (some "main.kes") = .ok second :=
    exists_of_isOk (by decide +kernel)
  have htexts : (parseProgram "x[_:y] z = -1" none).toOption.map Program.sexprText =
      (parseProgram "x [ :y ]; z = ( -1 )" (some "main.kes")).toOption.map Program.sexprText := by
    decide +kernel
  rw [hfirst, hsecond] at htexts
  have htexts := Option.some.inj htexts
  exact ⟨first, second, hfirst, hsecond, htexts,
    (parsed_sexprText_eq_iff hfirst hsecond).mp htexts⟩

/-- Two sources whose programs have the same text as S-expressions, but differ in more than spans,
as their outlines show. -/
theorem exists_written_alike (hfirst : (parseProgram source none).isOk)
    (hsecond : (parseProgram source' none).isOk)
    (htexts : (parseProgram source none).toOption.map Program.sexprText =
      (parseProgram source' none).toOption.map Program.sexprText)
    (houtlines : (parseProgram source none).toOption.map (·.bare false |>.outline.render 0) ≠
      (parseProgram source' none).toOption.map (·.bare false |>.outline.render 0)) :
    ∃ first second, parseProgram source none = .ok first ∧ parseProgram source' none = .ok second ∧
      first.sexprText = second.sexprText ∧ first.bare false ≠ second.bare false := by
  obtain ⟨first, hfirst⟩ := exists_of_isOk hfirst
  obtain ⟨second, hsecond⟩ := exists_of_isOk hsecond
  rw [hfirst, hsecond] at htexts houtlines
  refine ⟨first, second, hfirst, hsecond, Option.some.inj htexts, fun hsame => houtlines ?_⟩
  exact congrArg (fun made => some (made.outline.render 0)) hsame

/-- The S-expressions of programs that differ in more than spans may have the same text. -/
theorem sexprText_merges_bounds_and_infinity :
    (∃ first second, parseProgram "x[_:y]" none = .ok first ∧
      parseProgram "x[:y]" none = .ok second ∧
      first.sexprText = second.sexprText ∧ first.bare false ≠ second.bare false) ∧
    (∃ first second, parseProgram "1e999" none = .ok first ∧
      parseProgram "inf" none = .ok second ∧
      first.sexprText = second.sexprText ∧ first.bare false ≠ second.bare false) :=
  ⟨exists_written_alike (by decide +kernel) (by decide +kernel) (by decide +kernel)
    (by decide +kernel), exists_written_alike (by decide +kernel) (by decide +kernel)
    (by decide +kernel) (by decide +kernel)⟩

end Parsing

end Kestrel
