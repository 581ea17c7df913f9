import Kestrel.Proofs.Gives
import Kestrel.Proofs.Grammar.Blanking
import Kestrel.Syntax.Parse

/-!
# Comments mean blanks

A program is the same with blanks in place of its comments: as many blanks as a comment has bytes,
so that every span and every line stays what it was.
-/

namespace Kestrel

/-- A text without comments is as long, in bytes, and every line of it starts where it started. -/
theorem positions_withoutComments (source : String) :
    (withoutComments source).toList.foldl Position.after .origin =
      source.toList.foldl Position.after .origin := by
  rw [withoutComments, String.toList_ofList]
  exact Zone.code.foldl_after_blanked .origin source.toList

/-- The part that a whole program forms is the same without comments. -/
theorem readPart_withoutComments {source : String} {part : Part}
    (hread : readPart .program source = .ok part) :
    readPart .program (withoutComments source) = .ok part := by
  have hagrees := Rule.agrees_readText_program source
  unfold readPart at hread ⊢
  generalize Rule.program.readText source = reply at hagrees hread
  generalize Rule.program.readText (withoutComments source) = reply' at hagrees
  cases hagrees with
  | @matched next nodes attempts attempts' hkeeps =>
    cases nodes with
    | nil => contradiction
    | cons node others => exact hread
  | failed => contradiction
  | exhausted => contradiction

/-- Comments mean exactly blanks: a program that is accepted is accepted with blanks in place of its
comments, and is the same program, with the same spans. The text with the blanks takes as many bytes
and as many lines. -/
theorem parseProgram_withoutComments {source : String} {sourceFile : Option String}
    {program : Program} (hparsed : parseProgram source sourceFile = .ok program) :
    parseProgram (withoutComments source) sourceFile = .ok program ∧
      (withoutComments source).toList.foldl Position.after .origin =
        source.toList.foldl Position.after .origin := by
  refine ⟨mapError_eq_ok_iff.mpr ?_, positions_withoutComments source⟩
  replace hparsed := mapError_eq_ok_iff.mp hparsed
  cases hread : readPart .program source with
  | error fault =>
    rw [hread] at hparsed
    contradiction
  | ok part =>
    rw [hread] at hparsed
    rw [readPart_withoutComments hread]
    exact hparsed

/-- A comment of either kind, a character of two bytes, a closing mark that takes up the slash of an
opening one, and a string with the marks of comments in it. -/
theorem parseProgram_withoutComments_of_marks :
    let commented := "a = \"//\\\"/*\" // ü (\n/* \" **/+ 4 /*/*/ / 2"
    let bare := "a = \"//\\\"/*\"        \n        + 4       / 2"
    withoutComments commented = bare ∧ ∃ program,
      parseProgram commented none = .ok program ∧ parseProgram bare none = .ok program := by
  intro commented bare
  have hbare : withoutComments commented = bare := by decide +kernel
  obtain ⟨program, hparsed⟩ : ∃ program, parseProgram commented none = .ok program :=
    exists_of_isOk (by decide +kernel)
  refine ⟨hbare, program, hparsed, ?_⟩
  rw [← hbare]
  exact (parseProgram_withoutComments hparsed).1

end Kestrel
