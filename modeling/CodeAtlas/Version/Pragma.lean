import CodeAtlas.Version.Requirement

/-! The versions that a source file asks for in its `pragma solidity` lines. -/
namespace CodeAtlas.Version

/-- The pragmas of a source file. Each directive is a list of alternatives, of which one must hold;
all directives must. -/
structure Pragma where
  directives : List (List Requirement)
  deriving DecidableEq, Repr

namespace Pragma

def holds (p : Pragma) (v : Version) : Bool :=
  p.directives.all fun alternatives => alternatives.any (·.holds v)

/-- The expression of a pragma line: what stands between the keywords and the first semicolon. -/
def expression? (line : List Char) : Option (List Char) := do
  let rest ← Text.afterStart? "pragma".toList (Text.trim line)
  let rest ← Text.afterStart? "solidity".toList (Text.trimStart rest)
  return Text.trim (rest.takeWhile (· != ';'))

/-- The pieces of an expression between double bars. -/
def alternatives : List Char → List (List Char)
  | [] => [[]]
  | '|' :: '|' :: rest => [] :: alternatives rest
  | c :: rest =>
    match alternatives rest with
    | [] => [[c]]
    | piece :: pieces => (c :: piece) :: pieces

def isOperator (word : String) : Bool := word.toList.all fun c => "<>=^~".toList.contains c

/-- A word with the operator words before it. A bare version means exactly that version. -/
def comparatorText (operator word : String) : String :=
  let text := operator ++ word
  if (text.toList.head?.map Char.isDigit).getD false then "=" ++ text else text

/-- The comparators that words make, given the operator words just read. Operators that no version
follows are dropped. -/
def comparatorTexts : (operator : String) → List String → List String
  | _, [] => []
  | operator, word :: words =>
    if isOperator word then comparatorTexts (operator ++ word) words
    else comparatorText operator word :: comparatorTexts "" words

/-- The requirement of one alternative: its comparators are separated by blanks. -/
def alternative? (cs : List Char) : Option Requirement :=
  let texts := comparatorTexts "" (Text.words (String.ofList cs))
  if texts.isEmpty then none else Requirement.parse? (String.intercalate ", " texts)

/-- The alternatives of an expression; one that cannot be read spoils the directive. -/
def directive? (cs : List Char) : Option (List Requirement) := (alternatives cs).mapM alternative?

/-- The pragmas of a source text. Directives that cannot be read are passed over. -/
def ofSource? (source : String) : Option Pragma :=
  let directives := (Text.lines source.toList).filterMap fun line =>
    (expression? line).bind directive?
  if directives.isEmpty then none else some ⟨directives⟩

end Pragma
end CodeAtlas.Version
