import CodeAtlas.Text.Numeral

/-! Compiler versions, their text and their order. -/
namespace CodeAtlas

/-- A version `major.minor.patch` with the segments of its pre-release and of its build metadata. -/
structure Version where
  major : Nat
  minor : Nat
  patch : Nat
  pre : List String := []
  build : List String := []
  deriving DecidableEq, Repr, Inhabited

namespace Version

def render (v : Version) : String :=
  Text.decimal v.major ++ "." ++ Text.decimal v.minor ++ "." ++ Text.decimal v.patch ++
    (if v.pre.isEmpty then "" else "-" ++ String.intercalate "." v.pre) ++
    (if v.build.isEmpty then "" else "+" ++ String.intercalate "." v.build)

def isNumeric (segment : String) : Bool := segment.toList.all Char.isDigit

def segmentValue (segment : String) : Nat := (Text.digits? 10 0 segment.toList).getD 0

/-- The order of segments. Numbers come before names; numbers go by value and, with leading zeros,
then by length; names go by their characters. -/
def compareSegments (a b : String) : Ordering :=
  match isNumeric a, isNumeric b with
  | true, true =>
    (compare (segmentValue a) (segmentValue b)).then (compare a.toList.length b.toList.length)
  | true, false => .lt
  | false, true => .gt
  | false, false => compare a b

/-- The order of pre-releases: a version without one is above all that have one; otherwise the
first segment that differs decides, and more segments are above fewer. -/
def comparePre : List String → List String → Ordering
  | [], [] => .eq
  | [], _ :: _ => .gt
  | _ :: _, [] => .lt
  | a, b => List.compareLex compareSegments a b

/-- The order of build metadata: the first segment that differs decides, and more segments, also
some against none, are above fewer. -/
def compareBuild (a b : List String) : Ordering := List.compareLex compareSegments a b

/-- The order of versions: the numbers from left to right, then pre-release, then build. -/
protected def compare (a b : Version) : Ordering :=
  (compare a.major b.major).then <| (compare a.minor b.minor).then <|
    (compare a.patch b.patch).then <| (comparePre a.pre b.pre).then (compareBuild a.build b.build)

instance : Ord Version := ⟨Version.compare⟩

def before (a b : Version) : Bool := Version.compare a b == .lt

/-- Whether a version is the same as another or comes before it. -/
def upTo (a b : Version) : Bool := (Version.compare a b).isLE

end Version
end CodeAtlas
