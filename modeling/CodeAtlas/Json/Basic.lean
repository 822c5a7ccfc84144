import CodeAtlas.Double
import CodeAtlas.Text.Numeral

/-! JSON values. -/
namespace CodeAtlas

/-- A JSON value. Whole numbers in the range of machine integers are `int`; all other numbers, minus
zero among them, are `real`, a double with its sign. The members of an object stand in ascending
order of their keys when the object was read from text. -/
inductive Json where
  | null
  | bool (value : Bool)
  | int (value : Int)
  | real (negative : Bool) (size : Double)
  | str (text : String)
  | arr (items : List Json)
  | obj (members : List (String × Json))
  deriving Repr, Inhabited

namespace Json

/-- The value of an object's member. -/
def member? (key : String) : Json → Option Json
  | obj members => members.lookup key
  | _ => none

/-- The value at the end of a path of keys. -/
def path? : List String → Json → Option Json
  | [], v => some v
  | key :: keys, v => (v.member? key).bind (path? keys)

def text? : Json → Option String
  | str s => some s
  | _ => none

def truth? : Json → Option Bool
  | bool b => some b
  | _ => none

/-- The value of a whole number in the signed machine range. -/
def integer? : Json → Option Int
  | int n => if -(Text.signedBound : Int) ≤ n ∧ n < Text.signedBound then some n else none
  | _ => none

/-- The value of a whole number in the unsigned machine range. -/
def natural? : Json → Option Nat
  | int (.ofNat n) => if n < Text.wordBound then some n else none
  | _ => none

def items? : Json → Option (List Json)
  | arr items => some items
  | _ => none

def members? : Json → Option (List (String × Json))
  | obj members => some members
  | _ => none

def isNull : Json → Bool
  | null => true
  | _ => false

/-- An optional value, `null` when there is none. -/
def ofOption {α : Type} (f : α → Json) : Option α → Json
  | none => null
  | some a => f a

def ofList {α : Type} (f : α → Json) (xs : List α) : Json := arr (xs.map f)

def nat (n : Nat) : Json := int n

end Json
end CodeAtlas
