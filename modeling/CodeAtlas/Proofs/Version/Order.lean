import CodeAtlas.Proofs.Text.Numeral
import CodeAtlas.Proofs.Text.Reading
import CodeAtlas.Version.Registry
import Mathlib.Order.Std

/-! Versions are totally ordered, and two versions compare as equal only if they are the same. Each
comparison is made of simpler ones, by parts or by a key, and has its laws from them. -/
namespace CodeAtlas.Version

open Std

variable {a b : String}

/-- A comparison by what a function gives has the laws of the comparison there. -/
theorem transCmp_on {α β : Type} (f : α → β) (cmp : β → β → Ordering) [h : TransCmp cmp] :
    TransCmp fun a b => cmp (f a) (f b) where
  eq_swap := h.eq_swap
  isLE_trans := h.isLE_trans

/-! ### Segments -/

/-- What segments are compared by: names come last, and only numbers have a value and a length. -/
structure SegmentKey where
  isName : Bool
  value : Nat
  length : Nat
  name : String

/-- The key of a segment. -/
def segmentKey (s : String) : SegmentKey :=
  if isNumeric s then ⟨false, segmentValue s, s.toList.length, ""⟩ else ⟨true, 0, 0, s⟩

/-- The order of keys. -/
def SegmentKey.compare : SegmentKey → SegmentKey → Ordering :=
  compareLex (compareOn isName) <| compareLex (compareOn value) <|
    compareLex (compareOn length) (compareOn name)

theorem compareSegments_eq :
    compareSegments = fun a b => (segmentKey a).compare (segmentKey b) := by
  funext a b
  have hlast : compare true false = .gt := rfl
  have hfirst : compare false true = .lt := rfl
  cases ha : isNumeric a <;> cases hb : isNumeric b <;>
    simp [compareSegments, SegmentKey.compare, segmentKey, compareLex, compareOn, ha, hb, hlast,
      hfirst]

theorem map_digitChar_of_isDigit {cs : List Char} {ds : List Nat}
    (h : List.Forall₂ (Text.IsDigit 10) cs ds) :
    cs = ds.map Nat.digitChar ∧ ∀ d ∈ ds, d < 10 := by
  induction h with
  | nil => simp
  | @cons c d cs ds hc _ ih =>
    refine ⟨by rw [List.map_cons, ← ih.1, hc.eq_digitChar], ?_⟩
    simpa [hc.1] using ih.2

/-- A number is given by its digits, from the first on. -/
theorem exists_digits (h : isNumeric a = true) :
    ∃ ds : List Nat, a.toList = ds.map Nat.digitChar ∧ (∀ d ∈ ds, d < 10) ∧
      segmentValue a = Nat.ofDigits 10 ds.reverse := by
  have hread := Text.digits?_of_isDigit (n := 0) (List.all_eq_true.1 h)
  obtain ⟨ds, hds, hvalue⟩ := (Text.digits?_eq_some_iff (by decide)).1 hread
  obtain ⟨hchars, hsmall⟩ := map_digitChar_of_isDigit hds
  refine ⟨ds, hchars, hsmall, ?_⟩
  rw [segmentValue, hread, Option.getD_some, hvalue, Nat.mul_zero, Nat.add_zero]

/-- With leading zeros, the value and the length make a number. -/
theorem eq_of_value_of_length (ha : isNumeric a = true) (hb : isNumeric b = true)
    (hvalue : segmentValue a = segmentValue b) (hlength : a.toList.length = b.toList.length) :
    a = b := by
  obtain ⟨ds, hds, hsmall, hda⟩ := exists_digits ha
  obtain ⟨es, hes, hsmall', heb⟩ := exists_digits hb
  rw [hds, hes, List.length_map, List.length_map] at hlength
  have hsame : ds.reverse = es.reverse := by
    apply Nat.ofDigits_inj_of_len_eq (b := 10) (by decide)
    · simpa using hlength
    · simpa using hsmall
    · simpa using hsmall'
    · rw [← hda, ← heb, hvalue]
  apply String.toList_injective
  rw [hds, hes, List.reverse_injective hsame]

theorem segmentKey_injective : Function.Injective segmentKey := by
  intro a b h
  unfold segmentKey at h
  split_ifs at h with ha hb hb
  · rw [SegmentKey.mk.injEq] at h
    exact eq_of_value_of_length ha hb h.2.1 h.2.2.1
  · simp at h
  · simp at h
  · simpa using h

instance : TransCmp SegmentKey.compare := by
  unfold SegmentKey.compare
  infer_instance

instance : LawfulEqCmp SegmentKey.compare where
  eq_of_compare {a b} h := by
    cases a
    cases b
    simpa [SegmentKey.compare, compareLex, compareOn] using h

instance : TransCmp compareSegments := by
  rw [compareSegments_eq]
  exact transCmp_on segmentKey SegmentKey.compare

instance : LawfulEqCmp compareSegments where
  eq_of_compare {a b} h := by
    rw [compareSegments_eq] at h
    exact segmentKey_injective (LawfulEqCmp.eq_of_compare h)

/-! ### Versions -/

theorem comparePre_eq :
    comparePre = compareLex (compareOn List.isEmpty) (List.compareLex compareSegments) := by
  funext p q
  cases p <;> cases q <;> rfl

instance : TransCmp comparePre := by
  rw [comparePre_eq]
  infer_instance

instance : LawfulEqCmp comparePre where
  eq_of_compare {p q} h := by
    rw [comparePre_eq, compareLex, Ordering.then_eq_eq] at h
    exact LawfulEqCmp.eq_of_compare h.2

instance : TransCmp compareBuild := inferInstanceAs (TransCmp (List.compareLex compareSegments))

instance : LawfulEqCmp compareBuild :=
  inferInstanceAs (LawfulEqCmp (List.compareLex compareSegments))

theorem compare_eq :
    Version.compare = (compareLex (compareOn major) <| compareLex (compareOn minor) <|
      compareLex (compareOn patch) <| compareLex (fun v w => comparePre v.pre w.pre)
        fun v w => compareBuild v.build w.build) :=
  rfl

instance : TransCmp Version.compare := by
  have hpre := transCmp_on pre comparePre
  have hbuild := transCmp_on build compareBuild
  rw [compare_eq]
  infer_instance

instance : TransOrd Version := inferInstanceAs (TransCmp Version.compare)

/-- Versions that compare as equal are the same, build metadata included. -/
instance : LawfulEqOrd Version where
  eq_of_compare {v w} h := by
    change v.compare w = .eq at h
    simp only [Version.compare, Ordering.then_eq_eq, LawfulEqCmp.compare_eq_iff_eq] at h
    obtain ⟨hmajor, hminor, hpatch, hpre, hbuild⟩ := h
    cases v
    cases w
    simp_all

instance : LE Version := ⟨fun v w => v.upTo w = true⟩

instance : LT Version := ⟨fun v w => v.before w = true⟩

instance : LawfulOrderOrd Version where
  isLE_compare _ _ := Iff.rfl
  isGE_compare _ _ := OrientedCmp.isGE_iff_isLE

instance : LawfulOrderLT Version where
  lt_iff v w := by
    have hback : w ≤ v ↔ (v.compare w).isGE = true := OrientedCmp.isGE_iff_isLE.symm
    rw [hback]
    change (v.compare w == .lt) = true ↔ (v.compare w).isLE = true ∧ _
    cases v.compare w <;> decide

/-- The order of versions is total. -/
instance : LinearOrder Version := .ofStd Version

end CodeAtlas.Version
