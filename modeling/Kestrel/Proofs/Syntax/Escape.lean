import Kestrel.Proofs.Grammar.Blanking
import Kestrel.Proofs.Syntax.Operand

/-!
# String literals

The grammar says where a string literal ends, and a loop of its own resolves the escapes in it. Both
go through the same items, a backslash with the character after it or a character that is neither a
backslash nor a quotation mark. So a literal stands for the text that it spells, or an escape that
does not exist is reported where it stands.
-/

namespace Kestrel

/-- The escapes: what stands after the backslash, and what the two stand for. -/
def escapes : List (Char × Char) :=
  [('n', '\n'), ('t', '\t'), ('r', '\r'), ('0', '\x00'), ('\\', '\\'), ('"', '"')]

/-- The inside of a string literal spells a text: the escapes in it are replaced and everything else
stands for itself. -/
inductive Decodes : List Char → List Char → Prop
  | nil : Decodes [] []
  | escape {mark c : Char} {raw text : List Char} (hlisted : (mark, c) ∈ escapes)
      (hothers : Decodes raw text) : Decodes ('\\' :: mark :: raw) (c :: text)
  | plain {c : Char} {raw text : List Char} (hnoQuote : c ≠ '"') (hnoBackslash : c ≠ '\\')
      (hothers : Decodes raw text) : Decodes (c :: raw) (c :: text)

/-- How a character is written in a string literal: escaped if there is an escape for it. -/
def written (c : Char) : List Char :=
  match escapes.find? (·.2 == c) with
  | some (mark, _) => ['\\', mark]
  | none => [c]

/-- The literal for a text. -/
def literal (text : String) : String :=
  "\"" ++ String.ofList (text.toList.flatMap written) ++ "\""

/-- The stretch of a source that a label covers. -/
def SourceLabel.Marks (label : SourceLabel) (source text : String) : Prop :=
  ∃ before after, source = before ++ text ++ after ∧ before.utf8ByteSize = label.offset ∧
    text.utf8ByteSize = label.length

section Decoding

variable {raw text front : List Char} {mark c : Char}

/-- The loop knows the escapes of the list and no others. -/
theorem unescaped?_eq_some_iff : unescaped? mark = some c ↔ (mark, c) ∈ escapes := by
  unfold unescaped?
  split <;> simp_all [escapes, eq_comm]

/-- What spells a text is the inside of a literal. -/
theorem Decodes.contents (hdecodes : Decodes raw text) : Contents raw := by
  induction hdecodes with
  | nil => exact .nil
  | escape _ _ ih => exact .escape _ ih
  | plain hnoQuote hnoBackslash _ ih => exact .plain hnoQuote hnoBackslash ih

/-- A literal's inside spells a text, or spells one up to an escape that does not exist. -/
theorem Contents.decodes_or (hcontents : Contents raw) : (∃ text, Decodes raw text) ∨
    ∃ front mark back text, raw = front ++ '\\' :: mark :: back ∧ Decodes front text ∧
      unescaped? mark = none := by
  induction hcontents with
  | nil => exact .inl ⟨[], .nil⟩
  | @escape raw mark _ ih =>
    cases hmark : unescaped? mark with
    | none => exact .inr ⟨[], mark, raw, [], rfl, .nil, hmark⟩
    | some c =>
      have hlisted := unescaped?_eq_some_iff.mp hmark
      rcases ih with ⟨text, htext⟩ | ⟨front, bad, back, text, rfl, htext, hbad⟩
      · exact .inl ⟨c :: text, .escape hlisted htext⟩
      · exact .inr ⟨'\\' :: mark :: front, bad, back, c :: text, rfl, .escape hlisted htext, hbad⟩
  | @plain c raw hnoQuote hnoBackslash _ ih =>
    rcases ih with ⟨text, htext⟩ | ⟨front, bad, back, text, rfl, htext, hbad⟩
    · exact .inl ⟨c :: text, .plain hnoQuote hnoBackslash htext⟩
    · exact .inr ⟨c :: front, bad, back, c :: text, rfl, .plain hnoQuote hnoBackslash htext, hbad⟩

/-- What spells a text adds the text to what was decoded, and the offset of what comes next is as
many bytes further on. -/
theorem Decodes.resolve_append (hdecodes : Decodes front text) (offset : Nat) (decoded : List Char)
    (rest : List Char) :
    resolveEscapes offset decoded (front ++ rest) =
      resolveEscapes (offset + (String.ofList front).utf8ByteSize) (text.reverse ++ decoded)
        rest := by
  induction hdecodes generalizing offset decoded with
  | nil => simp
  | @escape mark c raw text hlisted _ ih =>
    have hbytes : offset + (String.ofList ('\\' :: mark :: raw)).utf8ByteSize =
        offset + 1 + mark.utf8Size + (String.ofList raw).utf8ByteSize := by
      have hbackslash : '\\'.utf8Size = 1 := rfl
      simp only [String.ofList_cons, String.utf8ByteSize_append, String.utf8ByteSize_singleton,
        hbackslash]
      omega
    rw [List.cons_append, List.cons_append, resolveEscapes,
      unescaped?_eq_some_iff.mpr hlisted, hbytes, List.reverse_cons, List.append_assoc]
    exact ih _ _
  | @plain c raw text hnoQuote hnoBackslash _ ih =>
    have hbytes : offset + (String.ofList (c :: raw)).utf8ByteSize =
        offset + c.utf8Size + (String.ofList raw).utf8ByteSize := by
      simp only [String.ofList_cons, String.utf8ByteSize_append, String.utf8ByteSize_singleton]
      omega
    rw [List.cons_append, resolveEscapes, hbytes, List.reverse_cons, List.append_assoc]
    · exact ih _ _
    · exact fun h _ => hnoBackslash h
    · exact fun _ _ h _ => hnoBackslash h

/-- The loop resolves what spells a text to the text. -/
theorem Decodes.resolve (hdecodes : Decodes raw text) (offset : Nat) :
    resolveEscapes offset [] raw = .ok (String.ofList text) := by
  have happend := hdecodes.resolve_append offset [] []
  rw [List.append_nil] at happend
  rw [happend, resolveEscapes, List.append_nil, List.reverse_reverse]

/-- The loop stops at the first escape that does not exist. -/
theorem Decodes.resolve_bad (hdecodes : Decodes front text) (hbad : unescaped? mark = none)
    (offset : Nat) (back : List Char) :
    resolveEscapes offset [] (front ++ '\\' :: mark :: back) =
      .error (.invalidEscape (offset + (String.ofList front).utf8ByteSize) mark) := by
  rw [hdecodes.resolve_append, resolveEscapes, hbad]

/-- How a character is written spells the character. -/
theorem decodes_written (c : Char) {raw text : List Char} (hothers : Decodes raw text) :
    Decodes (written c ++ raw) (c :: text) := by
  unfold written
  split
  · rename_i mark found hfind
    have hlisted := List.mem_of_find?_eq_some hfind
    have hsame := List.find?_some hfind
    rw [show found = c from eq_of_beq hsame] at hlisted
    exact .escape hlisted hothers
  · rename_i hfind
    have hnone := List.find?_eq_none.mp hfind
    refine .plain ?_ ?_ hothers <;> rintro rfl
    · exact absurd (hnone ('"', '"') (by decide)) (by decide)
    · exact absurd (hnone ('\\', '\\') (by decide)) (by decide)

/-- A text is spelled by its characters as they are written. -/
theorem decodes_flatMap_written (text : List Char) : Decodes (text.flatMap written) text := by
  induction text with
  | nil => exact .nil
  | cons c text ih => exact decodes_written c ih

end Decoding

section Reading

variable {cursor next : Cursor} {nodes : List Node} {raw rest : List Char} {position : Position}

/-- Items are read one by one up to the closing quotation mark. -/
theorem reads_contents (hcontents : Contents raw) (rest : List Char) (position : Position) :
    Reads .token (.many .stringItem) ⟨raw ++ '"' :: rest, position⟩
      (some ([], ⟨'"' :: rest, raw.foldl Position.after position⟩)) := by
  induction hcontents generalizing position with
  | nil => exact .manyNone (.altSecond (.seqRefused (.word rfl)) (.seqRefused (.absent
      (.altFirst (.word rfl)) rfl)))
  | @escape raw mark _ ih =>
    have hround : Reads .token .stringItem ⟨'\\' :: mark :: raw ++ '"' :: rest, position⟩
        (some ([], ⟨raw ++ '"' :: rest, (position.after '\\').after mark⟩)) :=
      .altFirst (.seq (.word rfl) (.anything rfl) rfl)
    obtain ⟨last, hreads, hlast⟩ := hround.many_cons (ih _)
    rw [show last = _ from hlast] at hreads
    exact hreads
  | @plain c raw hnoQuote hnoBackslash _ ih =>
    have hmark {mark : Char} (hdiffers : c ≠ mark) : Reads .token (.word [mark])
        ⟨c :: raw ++ '"' :: rest, position⟩ none :=
      .word (by simp [Cursor.word?, Cursor.take?, hdiffers])
    have hround : Reads .token .stringItem ⟨c :: raw ++ '"' :: rest, position⟩
        (some ([], ⟨raw ++ '"' :: rest, position.after c⟩)) :=
      .altSecond (.seqRefused (hmark hnoBackslash))
        (.seq (.absent (.altSecond (hmark hnoQuote) (hmark hnoBackslash)) rfl) (.anything rfl) rfl)
    obtain ⟨last, hreads, hlast⟩ := hround.many_cons (ih _)
    rw [show last = _ from hlast] at hreads
    exact hreads

/-- The cursor after a literal. -/
def Cursor.afterString (cursor : Cursor) (raw rest : List Char) : Cursor :=
  ⟨rest, (raw.foldl Position.after (cursor.position.after '"')).after '"'⟩

/-- The node of a string literal keeps its inside, which starts after the quotation mark. -/
def Cursor.string (cursor : Cursor) (raw rest : List Char) : Node :=
  let content := cursor.position.after '"'
  Rule.string.nodeOf cursor (cursor.afterString raw rest)
    [⟨.stringContent, content, raw.foldl Position.after content, String.ofList raw, []⟩]

/-- A quotation mark, items and another quotation mark are a literal. -/
theorem reads_string (hcontents : Contents raw)
    (htext : cursor.rest = '"' :: (raw ++ '"' :: rest)) :
    Reads .spaced (.rule .string) cursor
      (some ([cursor.string raw rest], cursor.afterString raw rest)) := by
  obtain ⟨_, position⟩ := cursor
  cases htext
  have hopen : Reads .tight (.text "\"") ⟨'"' :: (raw ++ '"' :: rest), position⟩
      (some ([], ⟨raw ++ '"' :: rest, position.after '"'⟩)) := .word rfl
  have hcontent : Reads .tight (.rule .stringContent) ⟨raw ++ '"' :: rest, position.after '"'⟩
      (some ([Rule.stringContent.nodeOf ⟨raw ++ '"' :: rest, position.after '"'⟩
        ⟨'"' :: rest, raw.foldl Position.after (position.after '"')⟩ []],
        ⟨'"' :: rest, raw.foldl Position.after (position.after '"')⟩)) :=
    .node (by decide) (reads_contents hcontents rest _) rfl
  have hclose : Reads .tight (.text "\"")
      ⟨'"' :: rest, raw.foldl Position.after (position.after '"')⟩
      (some ([], Cursor.afterString ⟨'"' :: (raw ++ '"' :: rest), position⟩ raw rest)) := .word rfl
  have htext' : Cursor.textTo ⟨raw ++ '"' :: rest, position.after '"'⟩
      ⟨'"' :: rest, raw.foldl Position.after (position.after '"')⟩ = String.ofList raw :=
    Cursor.textTo_eq rfl rfl
  have hstring := (hopen.followed (hcontent.followed hclose)).enclosed .string
  rw [Cursor.string, ← htext']
  exact hstring

/-- A literal is a quotation mark, items, and another quotation mark. -/
theorem Matches.string_inv {mode : Mode} (houtside : mode ≠ .token)
    (hfound : Matches mode (.rule .string) cursor nodes next) :
    ∃ raw rest, Contents raw ∧ cursor.rest = '"' :: (raw ++ '"' :: rest) ∧
      next = cursor.afterString raw rest ∧ nodes = [cursor.string raw rest] := by
  cases hfound with
  | token => contradiction
  | node _ hinside =>
    cases hinside with
    | @seq _ _ _ _ first _ front _ hopen hothers =>
      cases hothers with
      | @seq _ _ _ _ last _ _ back hcontent hclose =>
        cases hcontent with
        | @node _ _ _ _ children _ hitems =>
          replace hitems : Matches .token (.many .stringItem) first children last := hitems
          obtain ⟨raw, hraw, hmiddle⟩ := hitems.stringContent_inv rfl rfl
          obtain ⟨taken, htaken, hlast⟩ := hitems.takes.row.leads
          obtain rfl : taken = raw := List.append_cancel_right (htaken.symm.trans hmiddle)
          -- the quotation marks and the items leave no nodes
          obtain rfl : children = [] := List.map_eq_nil_iff.mp hitems.takes.yields.eq_nil
          obtain rfl : front = [] := List.map_eq_nil_iff.mp hopen.takes.yields
          obtain rfl : back = [] := List.map_eq_nil_iff.mp hclose.takes.yields
          have hclosing : last.rest = '"' :: next.rest := Cursor.rest_of_word? hclose.word_inv
          have hopening : cursor.rest = '"' :: first.rest := Cursor.rest_of_word? hopen.word_inv
          rw [hmiddle, hclosing] at hopening
          obtain rfl : first = ⟨taken ++ '"' :: next.rest, cursor.position.after '"'⟩ :=
            Option.some.inj (hopen.word_inv.symm.trans (Cursor.word?_of_rest hopening))
          have hnext : next = ⟨next.rest, last.position.after '"'⟩ :=
            Option.some.inj (hclose.word_inv.symm.trans (Cursor.word?_of_rest hclosing))
          rw [hlast] at hnext
          replace hnext : next = cursor.afterString taken next.rest := hnext
          replace hlast : last.position = taken.foldl Position.after (cursor.position.after '"') :=
            hlast
          refine ⟨taken, next.rest, hraw, hopening, hnext, ?_⟩
          rw [Cursor.string, ← hnext, ← Cursor.textTo_eq hmiddle hlast, ← hlast]
          rfl

/-- A literal that was read has items between quotation marks. -/
theorem Reads.string_inv (hreads : Reads .spaced (.rule .string) cursor (some (nodes, next))) :
    ∃ raw rest, Contents raw ∧ cursor.rest = '"' :: (raw ++ '"' :: rest) ∧
      next = cursor.afterString raw rest ∧ nodes = [cursor.string raw rest] :=
  (Rule.matches_of_reads hreads).string_inv (by decide)

end Reading

/-- What the inside of a literal comes to that starts at an offset of a source: the text that it
spells, or the fault of the first escape in it that does not exist, marked where it stands. -/
inductive Resolved (source : String) (offset : Nat) : List Char → Assembled String → Prop
  | text {raw text : List Char} (hdecodes : Decodes raw text) :
      Resolved source offset raw (.ok (String.ofList text))
  | bad {front text back : List Char} {mark : Char} (hdecodes : Decodes front text)
      (hunknown : mark ∉ escapes.map Prod.fst)
      (hmarks : (SyntaxFault.invalidEscape (offset + (String.ofList front).utf8ByteSize)
        mark).label.Marks source (String.ofList ['\\', mark])) :
      Resolved source offset (front ++ '\\' :: mark :: back)
        (.error (.invalidEscape (offset + (String.ofList front).utf8ByteSize) mark))

section Literals

variable {source text : String} {raw rest : List Char} {cursor : Cursor}

/-- A backslash before a character that it cannot escape is none of the listed pairs. -/
theorem not_mem_escapes {mark : Char} (hunknown : unescaped? mark = none) :
    mark ∉ escapes.map Prod.fst := by
  rintro hmem
  obtain ⟨⟨_, c⟩, hlisted, rfl⟩ := List.mem_map.mp hmem
  rw [unescaped?_eq_some_iff.mpr hlisted] at hunknown
  contradiction

/-- The inside of a literal in a text is resolved, with the fault where it is in the text. -/
theorem Contents.resolved (hcontents : Contents raw) (hwithin : cursor.In source)
    (hplace : cursor.rest = '"' :: (raw ++ '"' :: rest)) :
    Resolved source (cursor.position.offset + 1) raw
      (resolveEscapes (cursor.position.offset + 1) [] raw) := by
  rcases hcontents.decodes_or with ⟨text, htext⟩ | ⟨front, mark, back, text, rfl, htext, hmark⟩
  · rw [htext.resolve]
    exact .text htext
  · rw [htext.resolve_bad hmark]
    refine .bad htext (not_mem_escapes hmark) ?_
    obtain ⟨taken, hsource, hposition⟩ := hwithin
    have hoffset : cursor.position.offset = (String.ofList taken).utf8ByteSize := by
      rw [hposition, Position.foldl_after]
      exact Nat.zero_add _
    have hbytes (c : Char) (hascii : c.utf8Size = 1) (others : List Char) :
        (String.ofList (c :: others)).utf8ByteSize = 1 + (String.ofList others).utf8ByteSize := by
      rw [String.ofList_cons, String.utf8ByteSize_append, String.utf8ByteSize_singleton, hascii]
    refine ⟨String.ofList (taken ++ '"' :: front), String.ofList (back ++ '"' :: rest), ?_, ?_, ?_⟩
    · replace hsource : source.toList = taken ++ cursor.rest := hsource
      rw [← String.ofList_append, ← String.ofList_append, ← String.ofList_toList (s := source),
        hsource, hplace]
      simp
    · change _ = cursor.position.offset + 1 + (String.ofList front).utf8ByteSize
      rw [String.ofList_append, String.utf8ByteSize_append, hbytes '"' rfl, hoffset, Nat.add_assoc]
    · change _ = 1 + mark.utf8Size
      rw [hbytes '\\' rfl, String.ofList_cons, String.utf8ByteSize_append,
        String.utf8ByteSize_singleton]
      rfl

/-- A literal means what its inside is resolved to. -/
theorem meaning_of_literal : (cursor.string raw rest).part.meaning =
    Meaning.string <$> resolveEscapes (cursor.position.offset + 1) [] raw := by
  change Meaning.string <$> resolveEscapes (cursor.position.offset + 1) []
    (String.ofList raw).toList = _
  rw [String.toList_ofList]

/-- A literal means what its items resolve to. -/
theorem string_of_literal : (cursor.string raw rest).part.string =
    resolveEscapes (cursor.position.offset + 1) [] raw := by
  rw [Part.string, meaning_of_literal]
  cases resolveEscapes (cursor.position.offset + 1) [] raw <;> rfl

/-- As a primary expression a literal is a string that covers all of it. -/
theorem primary_of_literal : (cursor.string raw rest).part.primary =
    (resolveEscapes (cursor.position.offset + 1) [] raw).map fun text =>
      ⟨.string text, .between cursor.position (cursor.afterString raw rest).position⟩ := by
  rw [Part.primary, meaning_of_literal]
  cases resolveEscapes (cursor.position.offset + 1) [] raw <;> rfl

/-- No number starts with a quotation mark. -/
theorem primary_of_string (hreads : Reads .spaced (.rule .string) cursor
    (some ([cursor.string raw rest], cursor.afterString raw rest)))
    (hquote : cursor.rest = '"' :: (raw ++ '"' :: rest)) :
    Reads .spaced .primaryExpr cursor
      (some ([cursor.string raw rest], cursor.afterString raw rest)) := by
  have hnumber : Reads .spaced (.rule .number) cursor none := by
    obtain ⟨_, position⟩ := cursor
    cases hquote
    exact .node (by decide) (.seqRefused (.seqRefused (.range rfl))) rfl
  exact hnumber.altSecond hreads.altFirst

/-- A text that is a literal is parsed as what its inside is resolved to. -/
theorem parseExpression_of_literal (hcontents : Contents raw)
    (hfull : source.toList = '"' :: (raw ++ ['"'])) :
    parseExpression source = ((resolveEscapes 1 [] raw).map fun text =>
      ⟨.string text, .whole source⟩).mapError (⟨source, ·⟩) := by
  have hreads : Reads .spaced (.rule .string) (.ofText source) _ := reads_string hcontents hfull
  have hsettled : (Cursor.ofText source).skipGap = .ofText source :=
    Cursor.skipGap_of_head (c := '"') (by rw [Cursor.ofText, hfull]; rfl) (by decide) (by decide)
  have hwhole := (Rule.matches_of_reads hreads).takes.row.leads.whole rfl
  rw [parseExpression_of_primary hsettled (primary_of_string hreads hfull) rfl, primary_of_literal,
    ← hwhole]
  rfl

/-- The literal for a text is a quotation mark, the text character by character, and another
quotation mark. -/
theorem toList_literal (text : String) :
    (literal text).toList = '"' :: (text.toList.flatMap written ++ ['"']) := by
  simp only [literal, String.toList_append, String.toList_ofList]
  rfl

/-- String literals decode what they encode: the literal for a text is parsed as the text, and a
text that is a literal spells what it is parsed as, or is refused for the first escape in it that
does not exist; the same holds of a literal anywhere in a source. -/
theorem literals_decode :
    (∀ text, parseExpression (literal text) = .ok ⟨.string text, .whole (literal text)⟩) ∧
    (∀ source next nodes attempts, Rule.string.readText source = .matched next nodes attempts →
      next.rest = [] → ∃ raw made, source = "\"" ++ String.ofList raw ++ "\"" ∧
        Resolved source 1 raw made ∧
        parseExpression source =
          (made.map fun text => ⟨.string text, .whole source⟩).mapError (⟨source, ·⟩)) ∧
    ∀ source cursor depth attempts next nodes after, cursor.In source →
      Rule.string.read depth .spaced cursor attempts = .matched next nodes after →
        ∃ raw node made, cursor.rest = '"' :: (raw ++ '"' :: next.rest) ∧ nodes = [node] ∧
          Resolved source (cursor.position.offset + 1) raw made ∧ node.part.string = made := by
  refine ⟨fun text => ?_, ?_, ?_⟩
  · have hdecodes := decodes_flatMap_written text.toList
    rw [parseExpression_of_literal hdecodes.contents (toList_literal text), hdecodes.resolve,
      String.ofList_toList]
    rfl
  · intro source next nodes attempts hfound hends
    obtain ⟨raw, rest, hcontents, hplace, rfl, -⟩ := (Rule.reads_of_matched hfound).string_inv
    obtain rfl : rest = [] := hends
    have hplace' : source.toList = '"' :: (raw ++ ['"']) := hplace
    refine ⟨raw, _, ?_, hcontents.resolved Cursor.ofText_in hplace,
      parseExpression_of_literal hcontents hplace'⟩
    rw [← String.ofList_toList (s := source), hplace', ← List.singleton_append,
      String.ofList_append, String.ofList_append, String.append_assoc]
  · intro source cursor depth attempts next nodes after hwithin hfound
    obtain ⟨raw, rest, hcontents, hplace, rfl, rfl⟩ := (Rule.reads_of_matched hfound).string_inv
    exact ⟨raw, _, _, hplace, rfl, hcontents.resolved hwithin hplace, string_of_literal⟩

/-- A literal with a character of two bytes and an escape that does not exist, alone and after the
start of a declaration. -/
theorem literals_decode_of_unknown :
    (∃ raw made, "\"ü\\q\"" = "\"" ++ String.ofList raw ++ "\"" ∧
      Resolved "\"ü\\q\"" 1 raw made ∧ parseExpression "\"ü\\q\"" =
        (made.map fun text => ⟨.string text, ⟨0, 6, 1⟩⟩).mapError (⟨"\"ü\\q\"", ·⟩)) ∧
    (parseExpression "\"ü\\q\"").isOk = false ∧
    ∃ (raw : List Char) (node : Node) (made : Assembled String),
      "\"ü\\q\"".toList = '"' :: (raw ++ ['"']) ∧
      Resolved "var x = \"ü\\q\"" 9 raw made ∧ node.part.string = made := by
  obtain ⟨next, _, _, hfound, hends⟩ : ∃ next node attempts,
      Rule.string.readText "\"ü\\q\"" = .matched next [node] attempts ∧ next.rest = [] :=
    Reply.exists_of_isWhole (by decide +kernel)
  obtain ⟨next', _, _, hfound', hends'⟩ : ∃ next node attempts,
      Rule.string.read 9 .spaced ⟨"\"ü\\q\"".toList, ⟨8, 1⟩⟩ .none = .matched next [node] attempts ∧
        next.rest = [] :=
    Reply.exists_of_isWhole (by decide +kernel)
  have hwithin : Cursor.In "var x = \"ü\\q\"" ⟨"\"ü\\q\"".toList, ⟨8, 1⟩⟩ :=
    ⟨"var x = ".toList, by decide, by decide⟩
  obtain ⟨raw, node, made, hplace, -, hresolved, hmade⟩ :=
    literals_decode.2.2 _ _ _ _ _ _ _ hwithin hfound'
  rw [hends'] at hplace
  exact ⟨literals_decode.2.1 _ _ _ _ hfound hends, by decide +kernel,
    raw, node, made, hplace, hresolved, hmade⟩

end Literals

end Kestrel
