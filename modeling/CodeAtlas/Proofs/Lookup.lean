import Mathlib.Data.List.Nodup
import Mathlib.Order.Basic
import Std.Data.ExtTreeMap

/-! What a search in a list of entries finds, and what a map made of them holds. -/
namespace CodeAtlas

/-! ### Searches that can find one thing only -/

section Searches

variable {α β : Type} {f : α → Option β} {xs ys : List α}

/-- All that a search can find in a list is the same. -/
def Agree (f : α → Option β) (xs : List α) : Prop :=
  ∀ a ∈ xs, ∀ b ∈ xs, ∀ x y, f a = some x → f b = some y → x = y

theorem Agree.reverse (h : Agree f xs) : Agree f xs.reverse :=
  fun a ha b hb => h a (List.mem_reverse.1 ha) b (List.mem_reverse.1 hb)

theorem Agree.findSome?_iff (h : Agree f xs) {x : β} :
    xs.findSome? f = some x ↔ ∃ a ∈ xs, f a = some x := by
  constructor
  · exact List.exists_of_findSome?_eq_some
  · rintro ⟨a, ha, hx⟩
    have hsome : (xs.findSome? f).isSome = true :=
      List.findSome?_isSome_iff.2 ⟨a, ha, by simp [hx]⟩
    obtain ⟨y, hy⟩ := Option.isSome_iff_exists.1 hsome
    obtain ⟨b, hb, hby⟩ := List.exists_of_findSome?_eq_some hy
    rw [hy, h b hb a ha y x hby hx]

/-- A search from the end finds the last element that it looks for. -/
theorem find?_reverse_eq_some_iff {p : α → Bool} {x : α} :
    xs.reverse.find? p = some x ↔
      ∃ j : Nat, xs[j]? = some x ∧ p x = true ∧
        ∀ (k : Nat) y, j < k → xs[k]? = some y → p y = false := by
  rw [List.find?_eq_some_iff_append]
  constructor
  · rintro ⟨hx, after, before, hsplit, hafter⟩
    have hxs : xs = before.reverse ++ x :: after.reverse := by
      rw [← List.reverse_reverse xs, hsplit]
      simp
    refine ⟨before.length, by simp [hxs], hx, fun k y hk hy => ?_⟩
    obtain ⟨n, rfl⟩ := Nat.exists_eq_add_of_lt hk
    rw [hxs, List.getElem?_append_right (by simp; omega)] at hy
    have hmem : y ∈ after.reverse := by
      rw [show before.length + n + 1 - before.reverse.length = n + 1 by simp; omega] at hy
      exact List.mem_of_getElem? hy
    simpa using hafter y (List.mem_reverse.1 hmem)
  · rintro ⟨j, hj, hx, hlast⟩
    obtain ⟨hlt, rfl⟩ := List.getElem?_eq_some_iff.1 hj
    refine ⟨hx, (xs.drop (j + 1)).reverse, (xs.take j).reverse, ?_, fun y hy => ?_⟩
    · conv => lhs; rw [← List.take_append_drop j xs, List.drop_eq_getElem_cons hlt]
      simp
    · obtain ⟨n, hn⟩ := List.mem_iff_getElem?.1 (List.mem_reverse.1 hy)
      rw [List.getElem?_drop] at hn
      simp [hlast (j + 1 + n) y (by omega) hn]

theorem unique_of_nodup {entries : List (α × β)} {key : α} (h : (entries.map (·.1)).Nodup)
    (v w : β) (hv : (key, v) ∈ entries) (hw : (key, w) ∈ entries) : v = w := by
  have heq : (key, v) = (key, w) := List.inj_on_of_nodup_map h hv hw rfl
  exact congrArg Prod.snd heq

variable [DecidableEq α] {entries : List (α × β)} {key : α} {v : β}

theorem mem_of_lookup (h : entries.lookup key = some v) : (key, v) ∈ entries := by
  obtain ⟨before, after, hsplit, _⟩ := List.lookup_eq_some_iff.1 h
  simp [hsplit]

/-- If a key has one value only, looking it up finds any entry that it has. -/
theorem lookup_eq_some_iff_mem
    (h : ∀ v w, (key, v) ∈ entries → (key, w) ∈ entries → v = w) :
    entries.lookup key = some v ↔ (key, v) ∈ entries := by
  refine ⟨mem_of_lookup, fun hmem => ?_⟩
  cases hlookup : entries.lookup key with
  | none =>
    have hne := List.lookup_eq_none_iff.1 hlookup (key, v) hmem
    simp at hne
  | some w => rw [h w v (mem_of_lookup hlookup) hmem]

theorem lookup_reverse (h : (entries.map (·.1)).Nodup) (key : α) :
    entries.reverse.lookup key = entries.lookup key := by
  have hreverse : (entries.reverse.map (·.1)).Nodup := by
    rw [List.map_reverse]
    exact List.nodup_reverse.2 h
  ext v
  rw [lookup_eq_some_iff_mem (unique_of_nodup hreverse), List.mem_reverse,
    lookup_eq_some_iff_mem (unique_of_nodup h)]

/-- Entries that are left out by their key do not matter for other keys. -/
theorem lookup_filter {p : α → Bool} (h : p key = true) (entries : List (α × β)) :
    (entries.filter fun e => p e.1).lookup key = entries.lookup key := by
  induction entries with
  | nil => rfl
  | cons e entries ih =>
    obtain ⟨k, v⟩ := e
    by_cases hkey : key = k
    · subst hkey
      simp [h]
    · have hne : (key == k) = false := by simpa using hkey
      cases hk : p k <;> simpa [hk, List.lookup_cons, hne] using ih

theorem filter_key_of_nodup (h : (entries.map (·.1)).Nodup) (key : α) :
    (entries.filter fun e => e.1 == key) = ((entries.lookup key).map (key, ·)).toList := by
  induction entries with
  | nil => rfl
  | cons e entries ih =>
    obtain ⟨k, v⟩ := e
    obtain ⟨hk, hrest⟩ := List.nodup_cons.1 h
    by_cases hkey : key = k
    · subst hkey
      have hnone : entries.filter (fun e => e.1 == key) = [] := by
        rw [List.filter_eq_nil_iff]
        intro e he heq
        exact hk (List.mem_map.2 ⟨e, he, by simpa using heq⟩)
      simp [hnone]
    · have hne : (key == k) = false := by simpa using hkey
      have hne' : (k == key) = false := by simpa using Ne.symm hkey
      simpa [List.lookup_cons, hne, hne'] using ih hrest

theorem lookup_map {γ : Type} (φ : α → β → γ) (entries : List (α × β)) (key : α) :
    (entries.map fun e => (e.1, φ e.1 e.2)).lookup key = (entries.lookup key).map (φ key) := by
  induction entries with
  | nil => rfl
  | cons e entries ih =>
    obtain ⟨k, v⟩ := e
    by_cases h : key = k
    · subst h
      simp
    · have hne : (key == k) = false := by simpa using h
      simpa [List.lookup_cons, hne] using ih

end Searches

/-! ### Sorted lists -/

section Sorted

variable {α β κ : Type} [Preorder κ] {g : α → κ} {f : α → Option β} {l : List α} {a : α} {x : β}

/-- In a sorted list an element that none of a kind stands before is the least of the kind. -/
theorem le_of_none_before {p : α → Prop} {before after : List α}
    (hl : (before ++ a :: after).Pairwise fun b c => g b ≤ g c)
    (hbefore : ∀ b ∈ before, ¬ p b) : ∀ b ∈ before ++ a :: after, p b → g a ≤ g b := by
  intro b hb hp
  rcases List.mem_append.1 hb with hb | hb
  · exact absurd hp (hbefore b hb)
  · rcases List.mem_cons.1 hb with rfl | hb
    · exact le_rfl
    · exact List.rel_of_pairwise_cons (List.pairwise_append.1 hl).2.1 hb

theorem le_of_find? {p : α → Bool} (hl : l.Pairwise fun b c => g b < g c)
    (h : l.find? p = some a) : ∀ b ∈ l, p b = true → g a ≤ g b := by
  obtain ⟨_, before, after, rfl, hbefore⟩ := List.find?_eq_some_iff_append.1 h
  exact le_of_none_before (hl.imp le_of_lt) fun b hb => by simpa using hbefore b hb

theorem least_of_findSome? (hl : l.Pairwise fun b c => g b ≤ g c)
    (h : l.findSome? f = some x) :
    ∃ a ∈ l, f a = some x ∧ ∀ b ∈ l, (f b).isSome = true → g a ≤ g b := by
  obtain ⟨before, a, after, rfl, ha, hbefore⟩ := List.findSome?_eq_some_iff.1 h
  refine ⟨a, by simp, ha, ?_⟩
  exact le_of_none_before hl fun b hb => by simp [hbefore b hb]

theorem exists_of_findSome? (hl : l.Pairwise fun b c => g b < g c)
    (h : l.findSome? f = some x) :
    ∃ a ∈ l, f a = some x ∧ ∀ b ∈ l, (f b).isSome = true → g a ≤ g b :=
  least_of_findSome? (hl.imp le_of_lt) h

end Sorted

/-! ### Maps -/

section Maps

variable {α β : Type} [Ord α] [Std.TransOrd α]

/-- Of several entries with one key the last counts. -/
theorem getElem?_ofList [Std.LawfulEqOrd α] [DecidableEq α] (entries : List (α × β)) (key : α) :
    (Std.ExtTreeMap.ofList entries compare)[key]? = entries.reverse.lookup key := by
  rw [Std.ExtTreeMap.ofList_eq_insertMany_empty, Std.ExtTreeMap.getElem?_insertMany_list,
    List.findSomeRev?_eq_findSome?_reverse]
  induction entries.reverse with
  | nil => simp
  | cons e rest ih =>
    obtain ⟨k, v⟩ := e
    by_cases h : k = key
    · subst h
      simp
    · have hne : (key == k) = false := by simpa using Ne.symm h
      simpa [h, hne, List.lookup_cons] using ih

theorem values_eq_map_toList (t : Std.ExtTreeMap α β) : t.values = t.toList.map (·.2) := by
  obtain ⟨t⟩ := t
  induction t using Std.ExtDTreeMap.inductionOn with
  | mk t =>
    change t.inner.values = (Std.DTreeMap.Internal.Impl.Const.toList t.inner).map (·.2)
    rw [Std.DTreeMap.Internal.Impl.values_eq_map_snd,
      Std.DTreeMap.Internal.Impl.Const.toList_eq_toListModel_map, List.map_map]
    rfl

theorem mem_values [Std.LawfulEqOrd α] {t : Std.ExtTreeMap α β} {v : β} :
    v ∈ t.values ↔ ∃ k : α, t[k]? = some v := by
  simp [values_eq_map_toList, Std.ExtTreeMap.mem_toList_iff_getElem?_eq_some]

end Maps
end CodeAtlas
