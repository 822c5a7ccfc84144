import CodeAtlas.Hex
import CodeAtlas.Json.Basic
import CodeAtlas.Text.Split

/-! Literals of a program: their class and the numbers they denote. -/
namespace CodeAtlas

/-- A literal: its token, the type the compiler gave it, its text and its bytes in hexadecimal. -/
structure Literal where
  token : Option String := none
  subType : Option String := none
  value : Option String := none
  hexValue : Option String := none
  deriving DecidableEq, Repr

/-- What kind of thing a literal denotes. -/
inductive LiteralClass where
  | number
  | string
  | address
  | boolean
  | other
  deriving DecidableEq, Repr

namespace Literal

/-- Two literals are the same if their values and types are. -/
def same (a b : Literal) : Bool := a.value == b.value && a.subType == b.subType

/-- The class of a literal, by the start of its type; without a type a number is one by its token. -/
def classify (l : Literal) : LiteralClass :=
  match l.subType with
  | none => if l.token = some "number" then .number else .other
  | some t =>
    if Text.startsWith t "address" then .address
    else if Text.startsWith t "int" then .number
    else if Text.startsWith t "literal_string" then .string
    else if Text.startsWith t "bool" then .boolean
    else .other

/-- The number in the type of a constant: its second word. -/
def typeNumber? (l : Literal) : Option Nat :=
  (l.subType.bind fun t => (Text.words t)[1]?).bind Hex.decimalWord?

/-- The number that a literal denotes. A hexadecimal text is read as such; otherwise the type's
number counts, then the decimal text. -/
def number? (l : Literal) : Option Nat :=
  l.value.bind fun raw =>
    if Text.startsWith raw "0x" || Text.startsWith raw "0X" then Hex.word? raw
    else l.typeNumber?.or (Hex.decimalWord? raw)

def toJson (l : Literal) : Json :=
  .obj [("token_type", .ofOption Json.str l.token), ("sub_type", .ofOption Json.str l.subType),
    ("value", .ofOption Json.str l.value), ("hex_value", .ofOption Json.str l.hexValue)]

end Literal
end CodeAtlas
