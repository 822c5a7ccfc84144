import CodeAtlas.Version.Requirement
import Mathlib.Data.List.Lex
import Mathlib.Data.Nat.Basic

/-! Bounds on the first numbers of a version. What a bound admits is said by comparing lists of
numbers, the first difference deciding; the comparator of a bound admits the same releases. -/
namespace CodeAtlas.Version

/-- The first numbers of a version: one, two or all three. -/
inductive Numbers where
  | one (major : Nat)
  | two (major minor : Nat)
  | three (major minor patch : Nat)
  deriving DecidableEq, Repr

namespace Numbers

def toList : Numbers → List Nat
  | one major => [major]
  | two major minor => [major, minor]
  | three major minor patch => [major, minor, patch]

/-- As many numbers of a version as are given. -/
def seenIn (given : Numbers) (v : Version) : List Nat :=
  [v.major, v.minor, v.patch].take given.toList.length

/-- The comparator that asks for a relation to the given numbers. -/
def comparator (r : Relation) : Numbers → Comparator
  | one major => ⟨r, major, none, none, []⟩
  | two major minor => ⟨r, major, some minor, none, []⟩
  | three major minor patch => ⟨r, major, some minor, some patch, []⟩

end Numbers

/-- How many numbers a compatible version keeps: those up to the first that is not zero. -/
def kept (given : List Nat) : Nat := (given.takeWhile (· = 0)).length + 1

theorem kept_zero_cons (given : List Nat) : kept (0 :: given) = kept given + 1 := by simp [kept]

theorem kept_cons_of_pos {n : Nat} (h : 0 < n) (given : List Nat) : kept (n :: given) = 1 := by
  simp [kept, Nat.ne_of_gt h]

/-- Whether the numbers seen stand in a relation to as many given ones. -/
def Relation.Relates (seen given : List Nat) : Relation → Prop
  | .exact => seen = given
  | .greater => given < seen
  | .greaterEq => given ≤ seen
  | .less => seen < given
  | .lessEq => seen ≤ given
  | .tilde => given ≤ seen ∧ seen.take 2 = given.take 2
  | .caret => given ≤ seen ∧ seen.take (kept given) = given.take (kept given)

/-- A bound of a range: machine numbers, and the relation to them if one is written. -/
structure Bound where
  relation : Option Relation
  numbers : Numbers
  small : ∀ n ∈ numbers.toList, n < Text.wordBound

namespace Bound

/-- The relation asked for. Numbers on their own ask to be equal. -/
def asked (b : Bound) : Relation := b.relation.getD .exact

/-- Whether the first numbers of a version satisfy a bound. -/
def Admits (b : Bound) (v : Version) : Prop :=
  b.asked.Relates (b.numbers.seenIn v) b.numbers.toList

def comparator (b : Bound) : Comparator := b.numbers.comparator b.asked

end Bound

/-! ### Comparators of releases -/

section Release

variable {v : Version} {r : Relation}

theorem relation_comparator (given : Numbers) : (given.comparator r).relation = r := by
  cases given <;> rfl

theorem preFrom_comparator (given : Numbers) (h : v.pre = []) :
    (given.comparator r).preFrom v = true := by
  cases given <;> simp [Numbers.comparator, Comparator.preFrom, h, comparePre]

theorem exactly_iff (given : Numbers) (h : v.pre = []) :
    (given.comparator r).exactly v = true ↔ given.seenIn v = given.toList := by
  cases given <;> simp [Numbers.comparator, Comparator.exactly, Numbers.seenIn, Numbers.toList, h,
    and_assoc]

theorem beyond_gt_iff (given : Numbers) (h : v.pre = []) :
    (given.comparator r).beyond .gt v = true ↔ given.toList < given.seenIn v := by
  cases given <;>
    simp only [Numbers.comparator, Comparator.beyond, Numbers.seenIn, Numbers.toList, h,
      comparePre] <;>
    grind [Nat.compare_eq_gt, List.cons_lt_cons_iff, List.not_lt_nil]

theorem beyond_lt_iff (given : Numbers) (h : v.pre = []) :
    (given.comparator r).beyond .lt v = true ↔ given.seenIn v < given.toList := by
  cases given <;>
    simp only [Numbers.comparator, Comparator.beyond, Numbers.seenIn, Numbers.toList, h,
      comparePre] <;>
    grind [Nat.compare_eq_lt, List.cons_lt_cons_iff, List.not_lt_nil]

theorem nearby_iff (given : Numbers) (h : v.pre = []) :
    (given.comparator r).nearby v = true ↔
      given.toList ≤ given.seenIn v ∧ (given.seenIn v).take 2 = given.toList.take 2 := by
  rw [le_iff_lt_or_eq, Comparator.nearby, preFrom_comparator given h]
  cases given <;>
    simp [Numbers.comparator, Numbers.seenIn, Numbers.toList, List.cons_lt_cons_iff] <;> grind

theorem compatible_iff (given : Numbers) (h : v.pre = []) :
    (given.comparator r).compatible v = true ↔
      given.toList ≤ given.seenIn v ∧
        (given.seenIn v).take (kept given.toList) = given.toList.take (kept given.toList) := by
  rw [le_iff_lt_or_eq, Comparator.compatible, preFrom_comparator given h]
  cases given with
  | one major =>
    simp [Numbers.comparator, Numbers.seenIn, Numbers.toList, kept]
    grind
  | two major minor =>
    rcases major.eq_zero_or_pos with rfl | hmajor
    · simp [Numbers.comparator, Numbers.seenIn, Numbers.toList, kept, List.cons_lt_cons_iff]
      grind
    · simp [Numbers.comparator, Numbers.seenIn, Numbers.toList, kept_cons_of_pos hmajor, hmajor,
        List.cons_lt_cons_iff]
      grind
  | three major minor patch =>
    rcases major.eq_zero_or_pos with rfl | hmajor
    · rcases minor.eq_zero_or_pos with rfl | hminor
      · simp [Numbers.comparator, Numbers.seenIn, Numbers.toList, kept, List.cons_lt_cons_iff]
        grind
      · simp [Numbers.comparator, Numbers.seenIn, Numbers.toList, kept_zero_cons,
          kept_cons_of_pos hminor, hminor, List.cons_lt_cons_iff]
        grind
    · simp [Numbers.comparator, Numbers.seenIn, Numbers.toList, kept_cons_of_pos hmajor, hmajor,
        List.cons_lt_cons_iff]
      grind

/-- The comparator of a bound admits the releases that the bound admits. -/
theorem Bound.holds_comparator (b : Bound) (h : v.pre = []) :
    b.comparator.holds v = true ↔ b.Admits v := by
  rw [Bound.comparator, Bound.Admits, Comparator.holds, relation_comparator]
  cases b.asked with
  | exact => exact exactly_iff b.numbers h
  | greater => exact beyond_gt_iff b.numbers h
  | greaterEq =>
    rw [Bool.or_eq_true, exactly_iff b.numbers h, beyond_gt_iff b.numbers h, Relation.Relates,
      le_iff_eq_or_lt, eq_comm]
  | less => exact beyond_lt_iff b.numbers h
  | lessEq =>
    rw [Bool.or_eq_true, exactly_iff b.numbers h, beyond_lt_iff b.numbers h, Relation.Relates,
      le_iff_eq_or_lt]
  | tilde => exact nearby_iff b.numbers h
  | caret => exact compatible_iff b.numbers h

end Release
end CodeAtlas.Version
