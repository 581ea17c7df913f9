import Kestrel.Grammar.Pattern

/-!
# The grammar of the language

The definition of every rule. Statements are separated by blanks, and a semicolon after one is
optional.
-/

namespace Kestrel

namespace Pattern

/-- An ASCII digit. -/
def digit : Pattern := .range '0' '9'

/-- An ASCII letter. -/
def letter : Pattern := .alt (.range 'a' 'z') (.range 'A' 'Z')

/-- A character that may continue a name. -/
def nameChar : Pattern := .alt (.alt letter digit) (text "_")

/-- A word that no further name character follows. -/
def keyword (letters : String) : Pattern := .seq (text letters) (.absent nameChar)

/-- The operators of an assignment. -/
def assignOp : Pattern :=
  oneOf [.rule .opAssignAdd, .rule .opAssignSubtract, .rule .opAssignMultiply,
    .rule .opAssignDivide, .rule .opAssign]

/-- The operators in front of an operand. -/
def prefixOp : Pattern := .alt (.rule .opNegate) (.rule .opNot)

/-- The operators between operands. -/
def infixOp : Pattern :=
  oneOf [.rule .opOr, .rule .opAnd, .rule .opEqual, .rule .opNotEqual, .rule .opLessEqual,
    .rule .opGreaterEqual, .rule .opLess, .rule .opGreater, .rule .opAdd, .rule .opSubtract,
    .rule .opMultiply, .rule .opDivide, .rule .opModulo]

/-- What may follow a primary expression. -/
def postfixOp : Pattern :=
  oneOf [.rule .callArguments, .rule .memberAccess, .rule .indexAccess]

/-- The expressions that need no operator. -/
def primaryExpr : Pattern :=
  oneOf [.rule .number, .rule .string, .rule .boolean, .rule .nothing, .rule .functionLiteral,
    .rule .structLiteral, .rule .identifier, .rule .array, .rule .dictionary,
    inOrder [text "(", .rule .expression, text ")"]]

/-- The statements, in the order in which they are tried. -/
def anyStatement : Pattern :=
  oneOf [.rule .varDeclaration, .rule .functionDeclaration, .rule .structDeclaration,
    .rule .methodDeclaration, .rule .ifStatement, .rule .loopStatement, .rule .forStatement,
    .rule .tryStatement, .rule .returnStatement, .rule .breakStatement, .rule .continueStatement,
    .rule .importStatement, .rule .assignment, .rule .expressionStatement]

end Pattern

/-- The words that are no identifiers, a longer word before its own beginnings. -/
def reservedWords : List String :=
  ["var", "fn", "struct", "elseif", "else", "if", "loop", "for", "import", "in", "try", "catch",
    "finally", "return", "break", "continue", "as", "true", "false", "nothing", "not", "and", "or"]

namespace Rule

open Pattern

/-- What each rule consists of. -/
def definition : Rule → Definition
  | endOfInput => ⟨.spaced, .finish⟩
  | reserved => ⟨.token, .seq (oneOf (reservedWords.map text)) (.absent nameChar)⟩
  | kwVar => ⟨.token, keyword "var"⟩
  | kwFn => ⟨.token, keyword "fn"⟩
  | kwStruct => ⟨.token, keyword "struct"⟩
  | kwIf => ⟨.token, keyword "if"⟩
  | kwElseif => ⟨.token, keyword "elseif"⟩
  | kwElse => ⟨.token, keyword "else"⟩
  | kwLoop => ⟨.token, keyword "loop"⟩
  | kwFor => ⟨.token, keyword "for"⟩
  | kwIn => ⟨.token, keyword "in"⟩
  | kwTry => ⟨.token, keyword "try"⟩
  | kwCatch => ⟨.token, keyword "catch"⟩
  | kwFinally => ⟨.token, keyword "finally"⟩
  | kwReturn => ⟨.token, keyword "return"⟩
  | kwBreak => ⟨.token, keyword "break"⟩
  | kwContinue => ⟨.token, keyword "continue"⟩
  | kwImport => ⟨.token, keyword "import"⟩
  | kwAs => ⟨.token, keyword "as"⟩
  | identifier =>
    ⟨.token, inOrder [.absent (.rule reserved), .alt letter (text "_"), .many nameChar]⟩
  | program => ⟨.spaced, inOrder [.start, .many (.rule statement), .rule endOfInput]⟩
  | singleExpression => ⟨.spaced, inOrder [.start, .rule expression, .rule endOfInput]⟩
  | block => ⟨.spaced, inOrder [text "\x7b", .many (.rule statement), text "\x7d"]⟩
  | statement => ⟨.spaced, .seq anyStatement (.opt (text ";"))⟩
  | varDeclaration =>
    ⟨.spaced, inOrder [.rule kwVar, .rule identifier, text "=", .rule expression]⟩
  | functionDeclaration =>
    ⟨.spaced, inOrder [.rule kwFn, .rule identifier, .rule parameterList, .rule block]⟩
  | parameterList =>
    ⟨.spaced, inOrder [text "(", .opt (commaList (.rule identifier)), text ")"]⟩
  | structDeclaration =>
    ⟨.spaced, inOrder [.rule kwStruct, .rule identifier, text "\x7b",
      .many (.seq (.rule identifier) (.opt (text ","))), text "\x7d"]⟩
  | methodDeclaration =>
    ⟨.spaced, inOrder [.rule identifier, text "->", .rule functionDeclaration]⟩
  | ifStatement =>
    ⟨.spaced, inOrder [.rule kwIf, .rule expression, .rule block, .many (.rule elseifClause),
      .opt (.rule elseClause)]⟩
  | elseifClause =>
    ⟨.spaced, inOrder [.alt (.rule kwElseif) (.seq (.rule kwElse) (.rule kwIf)),
      .rule expression, .rule block]⟩
  | elseClause => ⟨.spaced, .seq (.rule kwElse) (.rule block)⟩
  | loopStatement => ⟨.spaced, .seq (.rule kwLoop) (.rule block)⟩
  | forStatement =>
    ⟨.spaced, inOrder [.rule kwFor, .rule identifier, .opt (.seq (text ",") (.rule identifier)),
      .rule kwIn, .rule expression, .rule block]⟩
  | tryStatement =>
    ⟨.spaced, inOrder [.rule kwTry, .rule block, .opt (.rule catchClause),
      .opt (.rule finallyClause)]⟩
  | catchClause => ⟨.spaced, .seq (.rule kwCatch) (.rule block)⟩
  | finallyClause => ⟨.spaced, .seq (.rule kwFinally) (.rule block)⟩
  | returnStatement => ⟨.spaced, .seq (.rule kwReturn) (.opt (.rule expression))⟩
  | breakStatement => ⟨.spaced, .rule kwBreak⟩
  | continueStatement => ⟨.spaced, .rule kwContinue⟩
  | importStatement =>
    ⟨.spaced, inOrder [.rule kwImport, .rule string, .opt (.seq (.rule kwAs) (.rule identifier))]⟩
  | assignment => ⟨.spaced, inOrder [.rule postfixExpr, assignOp, .rule expression]⟩
  | opAssign => ⟨.token, .seq (text "=") (.absent (text "="))⟩
  | opAssignAdd => ⟨.token, text "+="⟩
  | opAssignSubtract => ⟨.token, text "-="⟩
  | opAssignMultiply => ⟨.token, text "*="⟩
  | opAssignDivide => ⟨.token, text "/="⟩
  | expressionStatement => ⟨.spaced, .rule expression⟩
  | expression => ⟨.spaced, .seq (.rule binaryExpr) (.opt (.rule ternaryTail))⟩
  | ternaryTail =>
    ⟨.spaced, inOrder [text "?", .rule expression, text ":", .rule expression]⟩
  | binaryExpr =>
    ⟨.spaced, inOrder [.many prefixOp, .rule postfixExpr,
      .many (inOrder [infixOp, .many prefixOp, .rule postfixExpr])]⟩
  | opNegate => ⟨.token, .seq (text "-") (.absent (.alt (text "=") (text ">")))⟩
  | opNot => ⟨.token, keyword "not"⟩
  | opOr => ⟨.token, keyword "or"⟩
  | opAnd => ⟨.token, keyword "and"⟩
  | opEqual => ⟨.token, text "=="⟩
  | opNotEqual => ⟨.token, text "!="⟩
  | opLessEqual => ⟨.token, text "<="⟩
  | opGreaterEqual => ⟨.token, text ">="⟩
  | opLess => ⟨.token, text "<"⟩
  | opGreater => ⟨.token, text ">"⟩
  | opAdd => ⟨.token, .seq (text "+") (.absent (text "="))⟩
  | opSubtract => ⟨.token, .seq (text "-") (.absent (.alt (text "=") (text ">")))⟩
  | opMultiply => ⟨.token, .seq (text "*") (.absent (text "="))⟩
  | opDivide => ⟨.token, .seq (text "/") (.absent (text "="))⟩
  | opModulo => ⟨.token, text "%"⟩
  | postfixExpr => ⟨.spaced, .seq primaryExpr (.many postfixOp)⟩
  | callArguments =>
    ⟨.spaced, inOrder [text "(", .opt (commaList (.rule expression)), text ")"]⟩
  | memberAccess => ⟨.spaced, .seq (text ".") (.rule identifier)⟩
  | indexAccess =>
    ⟨.spaced, inOrder [text "[", .alt (.rule sliceBounds) (.rule expression), text "]"]⟩
  | sliceBounds =>
    ⟨.spaced, inOrder [.opt (.rule sliceStart), text ":", .opt (.rule sliceEnd)]⟩
  | sliceStart => ⟨.spaced, .rule expression⟩
  | sliceEnd => ⟨.spaced, .rule expression⟩
  | number =>
    ⟨.token, inOrder [oneOrMore digit, .opt (.seq (text ".") (oneOrMore digit)),
      .opt (inOrder [.alt (text "e") (text "E"), .opt (.alt (text "+") (text "-")),
        oneOrMore digit])]⟩
  | string => ⟨.tight, inOrder [text "\"", .rule stringContent, text "\""]⟩
  | stringContent =>
    ⟨.token, .many (.alt (.seq (text "\\") .anything)
      (.seq (.absent (.alt (text "\"") (text "\\"))) .anything))⟩
  | boolean => ⟨.token, .seq (.alt (text "true") (text "false")) (.absent nameChar)⟩
  | nothing => ⟨.token, keyword "nothing"⟩
  | functionLiteral => ⟨.spaced, inOrder [.rule kwFn, .rule parameterList, .rule block]⟩
  | structLiteral =>
    ⟨.spaced, inOrder [.rule structPath, text "\x7b", commaList (.rule structField), text "\x7d"]⟩
  | structPath =>
    ⟨.spaced, .seq (.rule identifier) (.many (.seq (text ".") (.rule identifier)))⟩
  | structField => ⟨.spaced, inOrder [.rule identifier, text ":", .rule expression]⟩
  | array => ⟨.spaced, inOrder [text "[", .opt (commaList (.rule expression)), text "]"]⟩
  | dictionary =>
    ⟨.spaced, inOrder [text "\x7b", .opt (commaList (.rule dictionaryEntry)), text "\x7d"]⟩
  | dictionaryEntry =>
    ⟨.spaced, inOrder [oneOf [.rule string, .rule number, .rule identifier], text ":",
      .rule expression]⟩

end Rule

end Kestrel
