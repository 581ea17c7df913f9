import Kestrel.Text.CaseTable

/-!
# Upper and lower case

A character may become several in another case. A capital sigma becomes the final form of the
small letter at the end of a word: after a letter with case and before none, where characters such
as apostrophes do not count.
-/

namespace Kestrel

/-- What a character becomes by the tables of one case. -/
def changeCase (shifts : List CaseShift) (expansions : List (Nat × List Nat)) (c : Char) :
    List Char :=
  match shifts.find? fun row =>
      row.low ≤ c.toNat && c.toNat ≤ row.high && (c.toNat - row.low) % row.step == 0 with
  | some row => [Char.ofNat ((c.toNat : Int) + row.shift).toNat]
  | none =>
    match expansions.lookup c.toNat with
    | some codes => codes.map Char.ofNat
    | none => [c]

/-- A character in upper case. -/
def upperChar (c : Char) : List Char :=
  if c.toNat < 0x80 then [c.toUpper] else changeCase upperShifts upperExpansions c

/-- A character in lower case, wherever it stands. -/
def lowerChar (c : Char) : List Char :=
  if c.toNat < 0x80 then [c.toLower] else changeCase lowerShifts lowerExpansions c

/-- Whether the first character that counts is a letter with case. -/
def startsCased (text : List Char) : Bool :=
  match text.dropWhile (inRanges caseIgnorableRanges) with
  | [] => false
  | c :: _ => inRanges casedRanges c

/-- A text in lower case, where `before` holds the characters before it, nearest first. -/
def lowerAfter (before : List Char) : List Char → List Char
  | [] => []
  | c :: rest =>
    let lowered :=
      if c = 'Σ' then [if startsCased before && !startsCased rest then 'ς' else 'σ']
      else lowerChar c
    lowered ++ lowerAfter (c :: before) rest

/-- A text in upper case. -/
def upperText (text : String) : String := String.ofList (text.toList.flatMap upperChar)

/-- A text in lower case. -/
def lowerText (text : String) : String := String.ofList (lowerAfter [] text.toList)

end Kestrel
