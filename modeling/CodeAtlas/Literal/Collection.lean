import CodeAtlas.Literal.Basic
import Std.Data.ExtTreeSet

/-! Literals grouped by class: the literals themselves, and only their values. -/
namespace CodeAtlas

/-- Distinct literals by class. Booleans are not kept. -/
structure LiteralSet where
  number : List Literal := []
  string : List Literal := []
  address : List Literal := []
  other : List Literal := []
  deriving DecidableEq, Repr

namespace LiteralSet

/-- The literals of a class, the first of those that are the same. -/
def bucket (c : LiteralClass) (ls : List Literal) : List Literal :=
  (ls.filter (·.classify == c)).eraseDupsBy Literal.same

def ofList (ls : List Literal) : LiteralSet where
  number := bucket .number ls
  string := bucket .string ls
  address := bucket .address ls
  other := bucket .other ls

def toList (s : LiteralSet) : List Literal := s.number ++ s.string ++ s.address ++ s.other

def isEmpty (s : LiteralSet) : Bool :=
  s.number.isEmpty && s.string.isEmpty && s.address.isEmpty && s.other.isEmpty

end LiteralSet

/-- The values of literals by class. -/
structure LiteralValues where
  number : Std.ExtTreeSet Nat := ∅
  string : Std.ExtTreeSet String := ∅
  address : Std.ExtTreeSet String := ∅
  other : Std.ExtTreeSet String := ∅

namespace LiteralValues

/-- The texts of the literals that satisfy a test. -/
def texts (p : Literal → Bool) (ls : List Literal) : Std.ExtTreeSet String :=
  Std.ExtTreeSet.ofList ((ls.filter p).filterMap (·.value)) compare

/-- The values of literals. A number that cannot be read is kept as other text. -/
def ofList (ls : List Literal) : LiteralValues where
  number := Std.ExtTreeSet.ofList ((ls.filter (·.classify == .number)).filterMap Literal.number?)
    compare
  string := texts (·.classify == .string) ls
  address := texts (·.classify == .address) ls
  other := texts (fun l =>
    l.classify == .other || (l.classify == .number && l.number?.isNone)) ls

def ofSet (s : LiteralSet) : LiteralValues := ofList s.toList

end LiteralValues
end CodeAtlas
