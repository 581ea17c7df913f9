import Kestrel.Syntax.Fault

/-!
# Escapes in string literals

A backslash and the character after it stand for one character. Six such pairs exist.
-/

namespace Kestrel

/-- What a backslash with this character after it stands for. -/
def unescaped? : Char → Option Char
  | 'n' => some '\n'
  | 't' => some '\t'
  | 'r' => some '\r'
  | '0' => some '\x00'
  | '\\' => some '\\'
  | '"' => some '"'
  | _ => none

/-- Resolves the escapes of a literal's inside, which starts at `offset`; `decoded` holds the
characters found so far, last first. -/
def resolveEscapes (offset : Nat) (decoded : List Char) : List Char → Except SyntaxFault String
  | [] => .ok (String.ofList decoded.reverse)
  | ['\\'] => .ok (String.ofList decoded.reverse)
  | '\\' :: escaped :: rest =>
    match unescaped? escaped with
    | some c => resolveEscapes (offset + 1 + escaped.utf8Size) (c :: decoded) rest
    | none => .error (.invalidEscape offset escaped)
  | c :: rest => resolveEscapes (offset + c.utf8Size) (c :: decoded) rest

end Kestrel
