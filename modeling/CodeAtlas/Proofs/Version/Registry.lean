import CodeAtlas.Proofs.Version.Order
import CodeAtlas.Version.Registry
import Mathlib.Data.List.Destutter
import Mathlib.Data.List.Sort
import Mathlib.Logic.Relation
import Mathlib.Order.Bounds.Defs

/-! What a registry answers depends only on which versions its feed gave: not on their order, not on
how often each was given, and not on what was asked before. -/
namespace CodeAtlas.Registry

open Version (Requirement Pragma)

/-! ### Ascending lists -/

section Repetitions

variable {α : Type} [BEq α] [LawfulBEq α] [DecidableEq α]

theorem eraseReps_loop_eq (a : α) (xs acc : List α) :
    List.eraseRepsBy.loop (· == ·) a xs acc = acc.reverse ++ xs.destutter' (· ≠ ·) a := by
  induction xs generalizing a acc with
  | nil => simp [List.eraseRepsBy.loop]
  | cons b xs ih =>
    rw [List.eraseRepsBy.loop]
    by_cases h : a = b
    · rw [List.destutter'_cons_neg _ (not_not.2 h), beq_iff_eq.2 h]
      exact ih a acc
    · rw [List.destutter'_cons_pos _ h, beq_eq_false_iff_ne.2 h]
      simpa using ih b (a :: acc)

theorem eraseReps_eq_destutter (xs : List α) : xs.eraseReps = xs.destutter (· ≠ ·) := by
  cases xs with
  | nil => rfl
  | cons a xs => exact eraseReps_loop_eq a xs []

end Repetitions

section Ascending

variable {found given given' : List Version} {v : Version} {fits : Version → Bool}

theorem sortedLE_mergeSort (vs : List Version) : (vs.mergeSort Version.upTo).SortedLE := by
  apply List.Pairwise.sortedLE
  apply List.pairwise_mergeSort
  · intro a b c hab hbc
    exact le_trans (α := Version) hab hbc
  · intro a b
    rw [Bool.or_eq_true]
    exact le_total (α := Version) a b

/-- In ascending order all repetitions are next to each other. -/
theorem ordered_eq_dedup (vs : List Version) :
    ordered vs = (vs.mergeSort Version.upTo).dedup := by
  rw [ordered, eraseReps_eq_destutter]
  exact (sortedLE_mergeSort vs).pairwise.destutter_eq_dedup

theorem mem_ordered : v ∈ ordered given ↔ v ∈ given := by
  rw [ordered_eq_dedup, List.mem_dedup, List.mem_mergeSort]

theorem sortedLT_ordered (vs : List Version) : (ordered vs).SortedLT := by
  rw [ordered_eq_dedup, List.sortedLT_iff_nodup_and_sortedLE]
  refine ⟨List.nodup_dedup _, ?_⟩
  exact ((sortedLE_mergeSort vs).pairwise.sublist (List.dedup_sublist _)).sortedLE

/-- Ascending lists of the same versions are the same. -/
theorem ordered_eq_of_mem_iff (h : ∀ v, v ∈ given ↔ v ∈ given') :
    ordered given = ordered given' := by
  apply (sortedLT_ordered given).eq_of_mem_iff (sortedLT_ordered given')
  intro v
  rw [mem_ordered, mem_ordered]
  exact h v

/-- The versions given that fit, each once and in ascending order. -/
structure IsAscending (given : List Version) (fits : Version → Bool) (found : List Version) :
    Prop where
  sorted : found.SortedLT
  mem_iff : ∀ v, v ∈ found ↔ v ∈ given ∧ fits v = true

/-- The greatest of the versions given that fit, and nothing just when none fits. -/
structure IsLatest (given : List Version) (fits : Version → Bool) (answer : Option Version) :
    Prop where
  greatest : ∀ v, answer = some v ↔ IsGreatest {w | w ∈ given ∧ fits w = true} v
  none_iff : answer = none ↔ ∀ v ∈ given, fits v = false

theorem isAscending_filter (given : List Version) (fits : Version → Bool) :
    IsAscending given fits ((ordered given).filter fits) := by
  constructor
  · exact ((sortedLT_ordered given).pairwise.filter fits).sortedLT
  · intro v
    rw [List.mem_filter, mem_ordered]

theorem le_getLast (h : found.SortedLT) (hlast : found.getLast? = some v) {w : Version}
    (hw : w ∈ found) : w ≤ v := by
  obtain ⟨before, rfl⟩ := List.getLast?_eq_some_iff.1 hlast
  rcases List.mem_append.1 hw with hw | hw
  · exact ((List.pairwise_append.1 h.pairwise).2.2 w hw v (by simp)).le
  · rw [List.mem_singleton.1 hw]

/-- The last of the versions in ascending order is the greatest. -/
theorem IsAscending.isLatest (h : IsAscending given fits found) :
    IsLatest given fits found.getLast? := by
  have hgreatest {v : Version} (hv : found.getLast? = some v) :
      IsGreatest {w | w ∈ given ∧ fits w = true} v := by
    refine ⟨(h.mem_iff v).1 (List.mem_of_getLast? hv), ?_⟩
    intro w hw
    exact le_getLast h.sorted hv ((h.mem_iff w).2 hw)
  constructor
  · intro v
    refine ⟨hgreatest, fun hv => ?_⟩
    cases hlast : found.getLast? with
    | none =>
      have hmem := (h.mem_iff v).2 hv.1
      rw [List.getLast?_eq_none_iff.1 hlast] at hmem
      cases hmem
    | some w => rw [(hgreatest hlast).unique hv]
  · rw [List.getLast?_eq_none_iff, List.eq_nil_iff_forall_not_mem]
    simp [h.mem_iff]

end Ascending

/-! ### Questions -/

section Questions

variable {σ τ : Type} [VersionFeed σ] [VersionFeed τ] {r r' : Registry σ} {s : Registry τ}
  {fetched fetched' : List Version}

/-- One question to a registry, and the registry after it. -/
inductive Asked : Registry σ → Registry σ → Prop where
  | versions (r : Registry σ) : Asked r r.versions.2
  | latest (r : Registry σ) (requirement : Requirement) : Asked r (r.latest requirement).2
  | candidates (r : Registry σ) (source : String) : Asked r (r.candidates source).2
  | detect (r : Registry σ) (source : String) : Asked r (r.detect source).2

/-- The feed gives these versions when it is first asked, and the registry is what any questions
have made of it since. -/
def Fetches (r : Registry σ) (fetched : List Version) : Prop :=
  ∃ start : Registry σ, start.known = none ∧ (VersionFeed.fetch start.feed).1 = .ok fetched ∧
    Relation.ReflTransGen Asked start r

/-- What a registry keeps: the versions in order, or a feed that will give them. -/
def Holds (r : Registry σ) (fetched : List Version) : Prop :=
  r.known = some (ordered fetched) ∨
    r.known = none ∧ (VersionFeed.fetch r.feed).1 = .ok fetched

theorem Holds.versions (h : r.Holds fetched) :
    r.versions.1 = .ok (ordered fetched) ∧ r.versions.2.known = some (ordered fetched) := by
  rcases h with hknown | ⟨hknown, hfetch⟩
  · simp [Registry.versions, hknown]
  · unfold Registry.versions
    rw [hknown]
    rcases hfeed : VersionFeed.fetch r.feed with ⟨answer, feed⟩
    rw [hfeed] at hfetch
    simp_all

theorem Holds.candidates (h : r.Holds fetched) {source : String} {pragma : Pragma}
    (hpragma : Pragma.ofSource? source = some pragma) :
    (r.candidates source).1 = .ok ((ordered fetched).filter pragma.holds) := by
  simp [Registry.candidates, hpragma, h.versions.1, Except.map]

theorem Holds.detect (h : r.Holds fetched) {source : String} {pragma : Pragma}
    (hpragma : Pragma.ofSource? source = some pragma) :
    (r.detect source).1 = .ok ((ordered fetched).filter pragma.holds).getLast? := by
  simp [Registry.detect, h.candidates hpragma, Except.map]

/-- Without a pragma the feed is not asked. -/
theorem candidates_of_none {source : String} (hpragma : Pragma.ofSource? source = none) :
    r.candidates source = (.ok [], r) := by
  simp [Registry.candidates, hpragma]

theorem Holds.latest (h : r.Holds fetched) (requirement : Requirement) :
    (r.latest requirement).1 = .ok ((ordered fetched).filter requirement.holds).getLast? := by
  simp [Registry.latest, h.versions.1, Except.map, List.getLast?_filter]

/-- Whatever is asked, the registry keeps what it has or learns it. -/
theorem Holds.asked (h : r.Holds fetched) (hasked : Asked r r') : r'.Holds fetched := by
  have hversions : r.versions.2.Holds fetched := .inl h.versions.2
  have hcandidates (source : String) : (r.candidates source).2.Holds fetched := by
    cases hpragma : Pragma.ofSource? source with
    | none =>
      rw [candidates_of_none hpragma]
      exact h
    | some pragma => simpa [Registry.candidates, hpragma] using hversions
  cases hasked with
  | versions => exact hversions
  | latest requirement => exact hversions
  | candidates source => exact hcandidates source
  | detect source => exact hcandidates source

theorem Fetches.holds (h : r.Fetches fetched) : r.Holds fetched := by
  obtain ⟨start, hknown, hfetch, hrun⟩ := h
  induction hrun with
  | refl => exact .inr ⟨hknown, hfetch⟩
  | tail _ hasked ih => exact ih.asked hasked

end Questions

/-- The versions that a feed gives, in any order and with repetitions, determine all answers. The
installable versions are those given, ascending; a requirement gets the greatest that meets it; a
source with pragmas gets those that meet them, ascending, and the greatest of them. -/
theorem answers_determined {σ τ : Type} [VersionFeed σ] [VersionFeed τ] (r : Registry σ)
    (fetched : List Version) (h : r.Fetches fetched) :
    (∃ all, r.versions.1 = .ok all ∧ all.SortedLT ∧ ∀ v, v ∈ all ↔ v ∈ fetched) ∧
    (∀ requirement, ∃ answer, (r.latest requirement).1 = .ok answer ∧
      IsLatest fetched requirement.holds answer) ∧
    (∀ source pragma, Pragma.ofSource? source = some pragma →
      ∃ found answer, (r.candidates source).1 = .ok found ∧ (r.detect source).1 = .ok answer ∧
        IsAscending fetched pragma.holds found ∧ IsLatest fetched pragma.holds answer) ∧
    ∀ (s : Registry τ) (fetched' : List Version), s.Fetches fetched' →
      (∀ v, v ∈ fetched' ↔ v ∈ fetched) →
      s.versions.1 = r.versions.1 ∧
      (∀ requirement, (s.latest requirement).1 = (r.latest requirement).1) ∧
      ∀ source, (s.candidates source).1 = (r.candidates source).1 ∧
        (s.detect source).1 = (r.detect source).1 := by
  have hholds := h.holds
  refine ⟨?_, ?_, ?_, ?_⟩
  · exact ⟨_, hholds.versions.1, sortedLT_ordered fetched, fun v => mem_ordered⟩
  · intro requirement
    exact ⟨_, hholds.latest requirement, (isAscending_filter fetched requirement.holds).isLatest⟩
  · intro source pragma hpragma
    have hfound := isAscending_filter fetched pragma.holds
    exact ⟨_, _, hholds.candidates hpragma, hholds.detect hpragma, hfound, hfound.isLatest⟩
  · intro s fetched' h' hsame
    have hholds' := h'.holds
    have hordered := ordered_eq_of_mem_iff hsame
    refine ⟨?_, ?_, ?_⟩
    · rw [hholds.versions.1, hholds'.versions.1, hordered]
    · intro requirement
      rw [hholds.latest, hholds'.latest, hordered]
    · intro source
      cases hpragma : Pragma.ofSource? source with
      | none => simp [Registry.detect, candidates_of_none hpragma]
      | some pragma =>
        rw [hholds.candidates hpragma, hholds'.candidates hpragma, hholds.detect hpragma,
          hholds'.detect hpragma, hordered]
        exact ⟨rfl, rfl⟩

/-- Versions out of order, with a repetition, two pre-releases and a build. -/
def shuffled : List Version :=
  [⟨0, 8, 0, [], ["b"]⟩, ⟨0, 7, 6, [], []⟩, ⟨0, 8, 0, [], []⟩, ⟨0, 8, 0, ["rc", "10"], []⟩,
    ⟨0, 7, 6, [], []⟩, ⟨0, 8, 0, ["rc", "9"], []⟩]

/-- The same versions in order. -/
def arranged : List Version :=
  [⟨0, 7, 6, [], []⟩, ⟨0, 8, 0, ["rc", "9"], []⟩, ⟨0, 8, 0, ["rc", "10"], []⟩,
    ⟨0, 8, 0, [], []⟩, ⟨0, 8, 0, [], ["b"]⟩]

theorem answers_determined_shuffled :
    ∃ r : Registry (List Version), r.Fetches shuffled ∧ r.known ≠ none ∧
      r.versions.1 = .ok arranged ∧
      (∃ pragma, Pragma.ofSource? "pragma solidity ^0.8.0;" = some pragma ∧
        (r.detect "pragma solidity ^0.8.0;").1 = .ok (some ⟨0, 8, 0, [], ["b"]⟩) ∧
        IsLatest shuffled pragma.holds (some ⟨0, 8, 0, [], ["b"]⟩)) ∧
      ∀ source, (detect source ⟨arranged, none⟩).1 = (r.detect source).1 := by
  let start : Registry (List Version) := ⟨shuffled, none⟩
  have hfetches : start.versions.2.Fetches shuffled :=
    ⟨start, rfl, rfl, .single (.versions start)⟩
  have harranged : Fetches (⟨arranged, none⟩ : Registry (List Version)) arranged :=
    ⟨_, rfl, rfl, .refl⟩
  have hsame : ∀ v, v ∈ arranged ↔ v ∈ shuffled := by
    simp [arranged, shuffled]
    grind
  obtain ⟨⟨all, hall, hsorted, hmem⟩, _, hpragma, hfeeds⟩ :=
    answers_determined (τ := List Version) start.versions.2 shuffled hfetches
  obtain rfl : all = arranged := hsorted.eq_of_mem_iff (by decide) fun v => by rw [hmem, hsame]
  refine ⟨start.versions.2, hfetches, by decide, hall, ?_, fun source => ?_⟩
  · have hread : Pragma.ofSource? "pragma solidity ^0.8.0;" =
        some ⟨[[⟨[⟨.caret, 0, some 8, some 0, []⟩]⟩]]⟩ := by decide +kernel
    have hbelow : ∀ w ∈ shuffled, w ≤ ⟨0, 8, 0, [], ["b"]⟩ := by decide
    obtain ⟨_, answer, _, hanswer, _, hlatest⟩ := hpragma _ _ hread
    obtain rfl : answer = some ⟨0, 8, 0, [], ["b"]⟩ :=
      (hlatest.greatest _).2 ⟨by decide, fun w hw => hbelow w hw.1⟩
    exact ⟨_, hread, hanswer, hlatest⟩
  · exact ((hfeeds _ _ harranged hsame).2.2 source).2

end CodeAtlas.Registry
