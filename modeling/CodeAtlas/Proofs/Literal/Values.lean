import CodeAtlas.Literal.Collection

/-! Grouping literals loses none of their values. A group keeps one literal for all that have its text
and its type, and these two decide the number. They do not decide the class, so the same text and type
may stand in two groups. -/
namespace CodeAtlas

/-- Of the elements that a relation takes for one, the first is kept. -/
theorem exists_mem_eraseDupsBy {α : Type} {r : α → α → Bool} (hr : ∀ a, r a a = true) (xs : List α)
    {a : α} (ha : a ∈ xs) : ∃ b ∈ xs.eraseDupsBy r, r a b = true := by
  match xs with
  | [] => cases ha
  | x :: xs =>
    rw [List.eraseDupsBy_cons]
    by_cases hx : r a x = true
    · exact ⟨x, by simp, hx⟩
    · have hne : a ≠ x := by
        rintro rfl
        exact hx (hr a)
      have hrest : a ∈ xs.filter fun b => r b x = false := by
        simpa [hx] using List.mem_of_ne_of_mem hne ha
      obtain ⟨b, hb, hab⟩ := exists_mem_eraseDupsBy hr _ hrest
      exact ⟨b, List.mem_cons_of_mem x hb, hab⟩
termination_by xs.length
decreasing_by exact Nat.lt_succ_of_le (List.length_filter_le _ _)

theorem mem_of_mem_eraseDupsBy {α : Type} {r : α → α → Bool} (xs : List α) {a : α}
    (ha : a ∈ xs.eraseDupsBy r) : a ∈ xs := by
  match xs with
  | [] => simp at ha
  | x :: xs =>
    rw [List.eraseDupsBy_cons] at ha
    rcases List.mem_cons.1 ha with rfl | ha
    · exact List.mem_cons_self
    · exact List.mem_cons_of_mem x (List.mem_filter.1 (mem_of_mem_eraseDupsBy _ ha)).1
termination_by xs.length
decreasing_by exact Nat.lt_succ_of_le (List.length_filter_le _ _)

namespace Literal

variable {a b l : Literal}

theorem same_iff : a.same b = true ↔ a.value = b.value ∧ a.subType = b.subType := by
  simp [same]

/-- The number does not depend on the token. -/
theorem number?_of_same (h : a.same b = true) : a.number? = b.number? := by
  obtain ⟨hvalue, htype⟩ := same_iff.1 h
  simp only [number?, typeNumber?, hvalue, htype]

/-- Two literals of one class with the same text and type. -/
structure Alike (a b : Literal) : Prop where
  same : a.same b = true
  classify : a.classify = b.classify

theorem Alike.rfl : a.Alike a := ⟨same_iff.2 ⟨by rfl, by rfl⟩, by rfl⟩

theorem Alike.value (h : a.Alike b) : a.value = b.value := (same_iff.1 h.same).1

/-- Each literal among the first, Booleans apart, has one like it among the second. -/
def Covered (ls ms : List Literal) : Prop :=
  ∀ l ∈ ls, l.classify ≠ .boolean → ∃ m ∈ ms, l.Alike m

theorem Covered.of_subset {ls ms : List Literal} (h : ls ⊆ ms) : Covered ls ms :=
  fun l hl _ => ⟨l, h hl, .rfl⟩

end Literal

open Literal (Covered)

namespace LiteralSet

variable {ls : List Literal} {l : Literal} {c : LiteralClass} {s t : LiteralSet}

theorem mem_of_mem_bucket (h : l ∈ bucket c ls) : l ∈ ls ∧ l.classify = c := by
  have hmem := List.mem_filter.1 (mem_of_mem_eraseDupsBy _ h)
  exact ⟨hmem.1, by simpa using hmem.2⟩

theorem exists_mem_bucket (h : l ∈ ls) : ∃ m ∈ bucket l.classify ls, l.Alike m := by
  have hclass : l ∈ ls.filter (·.classify == l.classify) := List.mem_filter.2 ⟨h, by simp⟩
  obtain ⟨m, hm, hsame⟩ := exists_mem_eraseDupsBy (fun _ => Literal.same_iff.2 ⟨rfl, rfl⟩) _ hclass
  exact ⟨m, hm, hsame, (mem_of_mem_bucket hm).2.symm⟩

theorem mem_toList :
    l ∈ s.toList ↔ l ∈ s.number ∨ l ∈ s.string ∨ l ∈ s.address ∨ l ∈ s.other := by
  simp [toList]

theorem toList_ofList_subset (ls : List Literal) : (ofList ls).toList ⊆ ls := by
  intro l hl
  rcases mem_toList.1 hl with hl | hl | hl | hl <;> exact (mem_of_mem_bucket hl).1

/-- Of every literal that is grouped at all, one like it is kept. -/
theorem covered_toList_ofList (ls : List Literal) : Covered ls (ofList ls).toList := by
  intro l hl hboolean
  obtain ⟨m, hm, halike⟩ := exists_mem_bucket hl
  refine ⟨m, mem_toList.2 ?_, halike⟩
  cases hclass : l.classify with
  | boolean => exact absurd hclass hboolean
  | _ =>
    rw [hclass] at hm
    simp [ofList, hm]

/-- Two sets have the same groups, each in an order of its own. -/
structure Arranges (s t : LiteralSet) : Prop where
  number : s.number.Perm t.number
  string : s.string.Perm t.string
  address : s.address.Perm t.address
  other : s.other.Perm t.other

theorem Arranges.mem_toList_iff (h : s.Arranges t) : l ∈ s.toList ↔ l ∈ t.toList := by
  rw [mem_toList, mem_toList, h.number.mem_iff, h.string.mem_iff, h.address.mem_iff,
    h.other.mem_iff]

end LiteralSet

namespace LiteralValues

variable {ls ms : List Literal} {n : Nat} {text : String}

theorem mem_number :
    n ∈ (ofList ls).number ↔ ∃ l ∈ ls, l.classify = .number ∧ l.number? = some n := by
  simp [ofList, Std.ExtTreeSet.mem_ofList, and_assoc]

theorem mem_texts {p : Literal → Bool} :
    text ∈ texts p ls ↔ ∃ l ∈ ls, p l = true ∧ l.value = some text := by
  simp [texts, Std.ExtTreeSet.mem_ofList, and_assoc]

section Covered

variable (h : Covered ls ms) (h' : Covered ms ls)
include h h'

theorem exists_mem_iff_of_covered {p : Literal → Prop} (halike : ∀ a b, a.Alike b → p a → p b)
    (hclass : ∀ a, p a → a.classify ≠ .boolean) : (∃ l ∈ ls, p l) ↔ ∃ m ∈ ms, p m := by
  constructor
  · rintro ⟨l, hl, hp⟩
    obtain ⟨m, hm, hlm⟩ := h l hl (hclass l hp)
    exact ⟨m, hm, halike l m hlm hp⟩
  · rintro ⟨m, hm, hp⟩
    obtain ⟨l, hl, hml⟩ := h' m hm (hclass m hp)
    exact ⟨l, hl, halike m l hml hp⟩

theorem texts_eq_of_covered {p : Literal → Bool} (halike : ∀ a b, a.Alike b → p a = p b)
    (hclass : ∀ a, p a = true → a.classify ≠ .boolean) : texts p ls = texts p ms := by
  apply Std.ExtTreeSet.ext_mem
  intro text
  rw [mem_texts, mem_texts]
  refine exists_mem_iff_of_covered h h' ?_ fun a ha => hclass a ha.1
  rintro a b hab ⟨hp, hvalue⟩
  exact ⟨halike a b hab ▸ hp, hab.value ▸ hvalue⟩

/-- Lists have the same values if each literal of one has one like it in the other. -/
theorem ofList_eq_of_covered : ofList ls = ofList ms := by
  have hnumber : (ofList ls).number = (ofList ms).number := by
    apply Std.ExtTreeSet.ext_mem
    intro n
    rw [mem_number, mem_number]
    apply exists_mem_iff_of_covered h h'
    · rintro a b hab ⟨hclass, hn⟩
      exact ⟨hab.classify ▸ hclass, Literal.number?_of_same hab.same ▸ hn⟩
    · rintro a ⟨hclass, _⟩
      simp [hclass]
  have hclass (c : LiteralClass) (hc : c ≠ .boolean) :
      texts (·.classify == c) ls = texts (·.classify == c) ms := by
    apply texts_eq_of_covered h h'
    · intro a b hab
      rw [hab.classify]
    · intro a ha
      rwa [eq_of_beq ha]
  have hother : (ofList ls).other = (ofList ms).other := by
    apply texts_eq_of_covered h h'
    · intro a b hab
      rw [hab.classify, Literal.number?_of_same hab.same]
    · intro a ha hboolean
      simp [hboolean] at ha
  unfold ofList
  rw [LiteralValues.mk.injEq]
  exact ⟨hnumber, hclass .string (by decide), hclass .address (by decide), hother⟩

end Covered

/-- The values of literals are those of the groups that they are put in. Neither the order of the
literals and of the groups nor how often a literal is given matters. -/
theorem ofSet_eq_ofList (ls : List Literal) :
    ofSet (LiteralSet.ofList ls) = ofList ls ∧
      ∀ ms : List Literal, (∀ l, l ∈ ms ↔ l ∈ ls) →
        ofList ms = ofList ls ∧
          ∀ s : LiteralSet, s.Arranges (LiteralSet.ofList ms) →
            ofSet s = ofSet (LiteralSet.ofList ls) := by
  have hset (ls : List Literal) : ofSet (LiteralSet.ofList ls) = ofList ls :=
    ofList_eq_of_covered (.of_subset (LiteralSet.toList_ofList_subset ls))
      (LiteralSet.covered_toList_ofList ls)
  refine ⟨hset ls, fun ms hms => ?_⟩
  have hlists : ofList ms = ofList ls :=
    ofList_eq_of_covered (.of_subset fun l => (hms l).1) (.of_subset fun l => (hms l).2)
  refine ⟨hlists, fun s hs => ?_⟩
  calc ofSet s = ofSet (LiteralSet.ofList ms) :=
        ofList_eq_of_covered (.of_subset fun l => hs.mem_toList_iff.1)
          (.of_subset fun l => hs.mem_toList_iff.2)
    _ = ofList ms := hset ms
    _ = ofList ls := hlists
    _ = ofSet (LiteralSet.ofList ls) := (hset ls).symm

/-- A number and a string with the same text and no type, a number that cannot be read, one number
with two tokens, and a Boolean. -/
def mixedLiterals : List Literal :=
  [{ token := some "number", value := some "5" },
    { token := some "string", value := some "5", hexValue := some "35" },
    { token := some "number", value := some "1e3" },
    { token := some "number", subType := some "int_const 7", value := some "0x07" },
    { token := some "hexString", subType := some "int_const 7", value := some "0x07" },
    { token := some "bool", subType := some "bool", value := some "true" }]

theorem ofSet_eq_ofList_mixed :
    (∀ l, l ∈ mixedLiterals.reverse ++ mixedLiterals ↔ l ∈ mixedLiterals) ∧
      ofSet (LiteralSet.ofList (mixedLiterals.reverse ++ mixedLiterals)) = ofList mixedLiterals ∧
      (ofSet (LiteralSet.ofList mixedLiterals)).number.toList = [5, 7] ∧
      (ofSet (LiteralSet.ofList mixedLiterals)).other.toList = ["1e3", "5"] := by
  have hmem : ∀ l, l ∈ mixedLiterals.reverse ++ mixedLiterals ↔ l ∈ mixedLiterals := by simp
  obtain ⟨hset, hgiven⟩ := ofSet_eq_ofList mixedLiterals
  have hsame := (hgiven _ hmem).2 _ ⟨.refl _, .refl _, .refl _, .refl _⟩
  refine ⟨hmem, hsame.trans hset, ?_, ?_⟩
  · rw [hset]
    decide +kernel
  · rw [hset]
    decide +kernel

end LiteralValues
end CodeAtlas
