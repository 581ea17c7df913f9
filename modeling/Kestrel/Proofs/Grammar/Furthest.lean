import Kestrel.Grammar.Reading
import Kestrel.Proofs.Source.Cursor

/-!
# The furthest place

What was tried is kept for the furthest place at which a rule failed. Whatever is read in a text,
this is a place of the text.
-/

namespace Kestrel

variable {source : String}

/-- A reply keeps to a text: it goes on there, and the furthest place is in the text. -/
def Reply.Within (source : String) : Reply → Prop
  | .matched next _ attempts => next.In source ∧ attempts.furthest.In source
  | .failed attempts => attempts.furthest.In source
  | .exhausted => True

/-- A reader of rules that keeps to a text. -/
def RuleReader.Within (source : String) (call : RuleReader) : Prop :=
  ∀ name mode (cursor : Cursor) (attempts : Attempts), cursor.In source →
    attempts.furthest.In source → (call name mode cursor attempts).Within source

/-- The first place is a place of every text. -/
theorem Position.origin_in : Position.origin.In source := ⟨"", source, by simp, rfl⟩

/-- What is added to the attempts is added at a place that was reached. -/
theorem Attempts.record_in {before after : Attempts} {position : Position}
    (hfurthest : after.furthest.In source) (hhere : position.In source) (rule : Rule) :
    (before.record after rule position).furthest.In source := by
  unfold record
  split
  · exact hfurthest
  split
  · exact hfurthest
  split
  · exact hhere
  · exact hfurthest

namespace Pattern

variable {call : RuleReader} {cursor : Cursor} {attempts : Attempts}

/-- What comes next after a gap is a place of the same text. -/
theorem between_in (mode : Mode) (hwithin : cursor.In source) :
    (between mode cursor).In source := by
  cases mode with
  | spaced => exact hwithin.leads cursor.skipGap_leads
  | tight | token => exact hwithin

/-- Rounds that stay in a text, as many of them as there may be, stay in it together. -/
theorem within_readMany {step : Cursor → Attempts → Reply}
    (hone : ∀ (cursor : Cursor) (attempts : Attempts), cursor.In source →
      attempts.furthest.In source → (step cursor attempts).Within source)
    (rounds : Nat) (hwithin : cursor.In source) (hfurthest : attempts.furthest.In source)
    (nodes : List Node) : (readMany step rounds cursor attempts nodes).Within source := by
  induction rounds generalizing cursor attempts nodes with
  | zero => trivial
  | succ rounds ih =>
    have hstep := hone cursor attempts hwithin hfurthest
    unfold readMany
    cases h : step cursor attempts with
    | matched next more attempts =>
      rw [h] at hstep
      exact ih hstep.1 hstep.2 _
    | failed attempts =>
      rw [h] at hstep
      exact ⟨hwithin, hstep⟩
    | exhausted => trivial

/-- If the reader of rules keeps to a text, so does the reading of a pattern. -/
theorem within_read (hcall : call.Within source) (limit : Nat) (mode : Mode) (pattern : Pattern)
    (hwithin : cursor.In source) (hfurthest : attempts.furthest.In source) :
    (pattern.read call limit mode cursor attempts).Within source := by
  induction pattern generalizing mode cursor attempts with
  | start | finish =>
    unfold read
    split
    · exact ⟨hwithin, hfurthest⟩
    · exact hfurthest
  | word letters =>
    simp only [read]
    cases h : cursor.word? letters with
    | some next => exact ⟨hwithin.leads (Cursor.leadsTo_of_word? h).1, hfurthest⟩
    | none => exact hfurthest
  | range low high =>
    simp only [read]
    cases h : cursor.take? fun c => low ≤ c && c ≤ high with
    | some next => exact ⟨hwithin.leads (Cursor.leadsTo_of_take? h).1, hfurthest⟩
    | none => exact hfurthest
  | anything =>
    simp only [read]
    cases h : cursor.take? fun _ => true with
    | some next => exact ⟨hwithin.leads (Cursor.leadsTo_of_take? h).1, hfurthest⟩
    | none => exact hfurthest
  | rule name => exact hcall name mode cursor attempts hwithin hfurthest
  | seq first second ihFirst ihSecond =>
    have hfirst := ihFirst mode hwithin hfurthest
    simp only [read]
    cases h : first.read call limit mode cursor attempts with
    | matched next nodes attempts =>
      rw [h] at hfirst
      have hsecond := ihSecond mode (between_in mode hfirst.1) hfirst.2
      dsimp only
      cases h : second.read call limit mode (between mode next) attempts with
      | matched | failed | exhausted =>
        rw [h] at hsecond
        exact hsecond
    | failed attempts =>
      rw [h] at hfirst
      exact hfirst
    | exhausted => trivial
  | alt first second ihFirst ihSecond =>
    have hfirst := ihFirst mode hwithin hfurthest
    simp only [read]
    cases h : first.read call limit mode cursor attempts with
    | matched next nodes attempts =>
      rw [h] at hfirst
      exact hfirst
    | failed attempts =>
      rw [h] at hfirst
      exact ihSecond mode hwithin hfirst
    | exhausted => trivial
  | opt body ih =>
    have hbody := ih mode hwithin hfurthest
    simp only [read]
    cases h : body.read call limit mode cursor attempts with
    | matched next nodes attempts =>
      rw [h] at hbody
      exact hbody
    | failed attempts =>
      rw [h] at hbody
      exact ⟨hwithin, hbody⟩
    | exhausted => trivial
  | many body ih =>
    have hbody := ih mode hwithin hfurthest
    simp only [read]
    cases h : body.read call limit mode cursor attempts with
    | matched next nodes attempts =>
      rw [h] at hbody
      exact within_readMany
        (fun _ _ hwithin hfurthest => ih mode (between_in mode hwithin) hfurthest)
        limit hbody.1 hbody.2 _
    | failed attempts =>
      rw [h] at hbody
      exact ⟨hwithin, hbody⟩
    | exhausted => trivial
  | absent body ih =>
    -- what was tried to see that something is absent is forgotten
    simp only [read]
    cases body.read call limit .token cursor attempts with
    | matched => exact hfurthest
    | failed => exact ⟨hwithin, hfurthest⟩
    | exhausted => trivial

end Pattern

namespace Rule

/-- However deep it may go, a reading of rules keeps to the text. -/
theorem within_read (depth : Nat) : RuleReader.Within source (read depth) := by
  induction depth with
  | zero => exact fun _ _ _ _ _ _ => trivial
  | succ depth ih =>
    intro rule mode cursor attempts hwithin hfurthest
    have hbody := Pattern.within_read ih depth (mode.inside rule.definition.mode)
      rule.definition.body hwithin hfurthest
    cases mode with
    | token =>
      simp only [Mode.inside, read] at hbody ⊢
      exact hbody
    | spaced | tight =>
      simp only [Mode.inside, read] at hbody ⊢
      cases h : rule.definition.body.read (read depth) depth rule.definition.mode cursor
        attempts with
      | matched next children attempts =>
        rw [h] at hbody
        exact hbody
      | failed attempts =>
        rw [h] at hbody
        exact Attempts.record_in hbody hwithin.position rule
      | exhausted => trivial

/-- Where a text is refused by a rule is a place of the text. -/
theorem furthest_in {rule : Rule} {attempts : Attempts}
    (hrefused : rule.readText source = .failed attempts) : attempts.furthest.In source := by
  have hwithin := within_read (depthPerCharacter * (source.length + 2)) rule .spaced
    (.ofText source) .none Cursor.ofText_in Position.origin_in
  change (rule.readText source).Within source at hwithin
  rwa [hrefused] at hwithin

end Rule

end Kestrel
