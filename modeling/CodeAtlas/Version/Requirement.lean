import CodeAtlas.Version.Parser

/-! Requirements on versions: comparators that must all hold. -/
namespace CodeAtlas.Version

/-- How a comparator compares. -/
inductive Relation where
  | exact
  | greater
  | greaterEq
  | less
  | lessEq
  | tilde
  | caret
  deriving DecidableEq, Repr

/-- A comparator: a relation to a version of which the last numbers may be left open. -/
structure Comparator where
  relation : Relation
  major : Nat
  minor : Option Nat := none
  patch : Option Nat := none
  pre : List String := []
  deriving DecidableEq, Repr

/-- A requirement: all of its comparators must hold. Without any, every release fits. -/
structure Requirement where
  comparators : List Comparator
  deriving DecidableEq, Repr

namespace Comparator

/-- The given numbers and the pre-release agree. -/
def exactly (c : Comparator) (v : Version) : Bool :=
  v.major == c.major && c.minor.all (v.minor == ·) && c.patch.all (v.patch == ·) && v.pre == c.pre

/-- The first number that differs decides, then the pre-release; an open number decides for no. -/
def beyond (wanted : Ordering) (c : Comparator) (v : Version) : Bool :=
  if v.major != c.major then compare v.major c.major == wanted
  else match c.minor with
    | none => false
    | some minor =>
      if v.minor != minor then compare v.minor minor == wanted
      else match c.patch with
        | none => false
        | some patch =>
          if v.patch != patch then compare v.patch patch == wanted
          else comparePre v.pre c.pre == wanted

/-- The pre-release is not below the comparator's. -/
def preFrom (c : Comparator) (v : Version) : Bool := (comparePre v.pre c.pre).isGE

/-- The same line up to the given minor number, and at least the given patch. -/
def nearby (c : Comparator) (v : Version) : Bool :=
  if v.major != c.major || !c.minor.all (v.minor == ·) then false
  else match c.patch with
    | none => preFrom c v
    | some patch => if v.patch != patch then patch < v.patch else preFrom c v

/-- At least the given version without a change of its first number that is not zero. -/
def compatible (c : Comparator) (v : Version) : Bool :=
  if v.major != c.major then false
  else match c.minor, c.patch with
    | none, _ => true
    | some minor, none => if 0 < c.major then minor ≤ v.minor else v.minor == minor
    | some minor, some patch =>
      if 0 < c.major then
        if v.minor != minor then minor < v.minor
        else if v.patch != patch then patch < v.patch
        else preFrom c v
      else if 0 < minor then
        if v.minor != minor then false
        else if v.patch != patch then patch < v.patch
        else preFrom c v
      else v.minor == minor && v.patch == patch && preFrom c v

/-- Whether a version satisfies a comparator, its pre-release rule apart. -/
def holds (c : Comparator) (v : Version) : Bool :=
  match c.relation with
  | .exact => c.exactly v
  | .greater => c.beyond .gt v
  | .greaterEq => c.exactly v || c.beyond .gt v
  | .less => c.beyond .lt v
  | .lessEq => c.exactly v || c.beyond .lt v
  | .tilde => c.nearby v
  | .caret => c.compatible v

/-- A comparator that names a pre-release of the version's own numbers admits its pre-releases. -/
def admitsPre (c : Comparator) (v : Version) : Bool :=
  c.major == v.major && c.minor == some v.minor && c.patch == some v.patch && !c.pre.isEmpty

end Comparator

namespace Requirement

/-- Whether a version satisfies a requirement: every comparator holds, and a pre-release must be
admitted by one of them. -/
def holds (r : Requirement) (v : Version) : Bool :=
  r.comparators.all (·.holds v) && (v.pre.isEmpty || r.comparators.any (·.admitsPre v))

def skipSpaces (cs : List Char) : List Char := cs.dropWhile (· == ' ')

/-- The text after a wildcard. -/
def wildcard? : List Char → Option (List Char)
  | '*' :: rest => some rest
  | 'x' :: rest => some rest
  | 'X' :: rest => some rest
  | _ => none

/-- The relation at the start of a text, if one is written. -/
def relation? : List Char → Option Relation × List Char
  | '=' :: rest => (some .exact, rest)
  | '>' :: '=' :: rest => (some .greaterEq, rest)
  | '>' :: rest => (some .greater, rest)
  | '<' :: '=' :: rest => (some .lessEq, rest)
  | '<' :: rest => (some .less, rest)
  | '~' :: rest => (some .tilde, rest)
  | '^' :: rest => (some .caret, rest)
  | cs => (none, cs)

/-- A number after a point: missing, left open by a wildcard, or given. -/
inductive Component where
  | missing
  | anything
  | given (value : Nat)
  deriving DecidableEq

def Component.value? : Component → Option Nat
  | .given n => some n
  | _ => none

def component? (part : Part) : List Char → Option (Component × List Char)
  | '.' :: rest =>
    match wildcard? rest with
    | some rest => some (.anything, rest)
    | none => (number part rest).toOption.map fun (n, rest) => (.given n, rest)
  | cs => some (.missing, cs)

/-- The pre-release after a given patch number. Build metadata may follow it and is dropped. -/
def tail? (patch : Component) (cs : List Char) : Option (List String × List Char) :=
  if patch.value?.isSome then do
    let (pre, _, cs) ← (marked '-' .pre .patch cs).toOption
    let (_, _, cs) ← (marked '+' .build .patch cs).toOption
    return (pre, cs)
  else some ([], cs)

/-- A comparator at the start of a text, and what follows it. Without a relation the text means
compatible versions or, with a wildcard, exactly the numbers given. No number follows a wildcard. -/
def comparator? (cs : List Char) : Option (Comparator × List Char) := do
  let (relation, cs) := relation? cs
  let (major, cs) ← (number .major (skipSpaces cs)).toOption
  let (minor, cs) ← component? .minor cs
  let (patch, cs) ← component? .patch cs
  if minor = .anything ∧ patch.value?.isSome then none
  else
    let (pre, cs) ← tail? patch cs
    let fallback : Relation := if minor = .anything ∨ patch = .anything then .exact else .caret
    return (⟨relation.getD fallback, major, minor.value?, patch.value?, pre⟩, skipSpaces cs)

/-- At most so many comparators make a requirement. -/
def maxComparators : Nat := 32

/-- At least one and at most `count` comparators separated by commas. -/
def comparators? : (count : Nat) → List Char → Option (List Comparator)
  | 0, _ => none
  | count + 1, cs =>
    match comparator? cs with
    | none => none
    | some (c, []) => some [c]
    | some (c, ',' :: rest) => (comparators? count (skipSpaces rest)).map (c :: ·)
    | some _ => none

/-- The requirement that a text denotes. A wildcard on its own admits every release. -/
def parse? (s : String) : Option Requirement :=
  let cs := skipSpaces s.toList
  match wildcard? cs with
  | some rest => if (skipSpaces rest).isEmpty then some ⟨[]⟩ else none
  | none => (comparators? maxComparators cs).map (⟨·⟩)

end Requirement
end CodeAtlas.Version
