import CodeAtlas.Proofs.Version.Order
import CodeAtlas.Version.Registry
import Mathlib.Data.List.Sort

/-! Falling back from version to version. Each step leaves only versions below the one that it
tries, so the versions tried descend and the steps come to an end. -/
namespace CodeAtlas.Version

variable {current next : Version} {candidates rest : List Version} {e : Error}
  {steps : List (Version × List Version)}

/-! ### One step -/

/-- The version tried is a candidate, and what remains are candidates below it. -/
theorem fallback_eq_ok (hsorted : candidates.SortedLT)
    (h : fallback current candidates = .ok (next, rest)) :
    next ∈ candidates ∧ rest.Sublist candidates ∧ ∀ v ∈ rest, v < next := by
  unfold fallback at h
  dsimp only at h
  split_ifs at h with hline
  · cases h
    refine ⟨hline.2, List.filter_sublist, ?_⟩
    intro v hv
    exact (List.mem_filter.1 hv).2
  · cases hlast : candidates.getLast? with
    | none => simp [hlast] at h
    | some last =>
      simp only [hlast] at h
      cases h
      refine ⟨List.mem_of_getLast? hlast, List.dropLast_sublist _, ?_⟩
      intro v hv
      obtain ⟨before, rfl⟩ := List.getLast?_eq_some_iff.1 hlast
      rw [List.dropLast_concat] at hv
      exact (List.pairwise_append.1 hsorted.pairwise).2.2 v hv next (by simp)

theorem fallback_shorter (hsorted : candidates.SortedLT)
    (h : fallback current candidates = .ok (next, rest)) : rest.length < candidates.length := by
  obtain ⟨hmem, hsublist, hbelow⟩ := fallback_eq_ok hsorted h
  by_contra hlong
  have heq : rest = candidates := hsublist.eq_of_length_le (by omega)
  rw [← heq] at hmem
  exact lt_irrefl next (hbelow next hmem)

/-- A step fails only when no candidate is left. -/
theorem fallback_eq_error :
    fallback current candidates = .error e ↔
      candidates = [] ∧ e = .notFound (.versionBefore current) := by
  unfold fallback
  dsimp only
  split_ifs with hline
  · simp [List.ne_nil_of_mem hline.2]
  · cases hlast : candidates.getLast? with
    | none => simp [List.getLast?_eq_none_iff.1 hlast, eq_comm]
    | some last =>
      have hne : candidates ≠ [] := by
        rintro rfl
        simp at hlast
      simp [hne]

/-! ### Runs -/

/-- Each step starts from the version and the candidates that the step before it gave. -/
def Falls (start : Version × List Version) (steps : List (Version × List Version)) : Prop :=
  (start :: steps).IsChain fun s t => fallback s.1 s.2 = .ok t

/-- The versions tried are candidates and descend. What remains gets strictly shorter from step to
step, and is below the version just tried. -/
structure Descends (candidates : List Version) (steps : List (Version × List Version)) : Prop where
  tried : ∀ s ∈ steps, s.1 ∈ candidates
  descending : (steps.map (·.1)).SortedGT
  shrinking : (candidates :: steps.map (·.2)).IsChain fun left rest =>
    rest.Sublist left ∧ rest.length < left.length
  below : ∀ s ∈ steps, ∀ v ∈ s.2, v < s.1

theorem Descends.length_le (h : Descends candidates steps) : steps.length ≤ candidates.length := by
  have hshrinking := h.shrinking
  clear h
  induction steps generalizing candidates with
  | nil => simp
  | cons s steps ih =>
    rw [List.map_cons, List.isChain_cons_cons] at hshrinking
    have := ih hshrinking.2
    rw [List.length_cons]
    omega

theorem descends_nil (candidates : List Version) : Descends candidates [] where
  tried := by simp
  descending := List.Pairwise.nil.sortedGT
  shrinking := by simp
  below := by simp

/-- A step in front of a run: all that the run tries remains after that step. -/
theorem Descends.cons (h : Descends rest steps) (hmem : next ∈ candidates)
    (hsublist : rest.Sublist candidates) (hshorter : rest.length < candidates.length)
    (hbelow : ∀ v ∈ rest, v < next) : Descends candidates ((next, rest) :: steps) := by
  constructor
  · intro s hs
    rcases List.mem_cons.1 hs with rfl | hs
    · exact hmem
    · exact hsublist.subset (h.tried s hs)
  · rw [List.map_cons, List.sortedGT_iff_pairwise, List.pairwise_cons]
    refine ⟨?_, h.descending.pairwise⟩
    intro v hv
    obtain ⟨s, hs, rfl⟩ := List.mem_map.1 hv
    exact hbelow s.1 (h.tried s hs)
  · rw [List.map_cons, List.isChain_cons_cons]
    exact ⟨⟨hsublist, hshorter⟩, h.shrinking⟩
  · intro s hs
    rcases List.mem_cons.1 hs with rfl | hs
    · exact hbelow
    · exact h.below s hs

theorem Falls.descends (hsorted : candidates.SortedLT) (h : Falls (current, candidates) steps) :
    Descends candidates steps := by
  induction steps generalizing current candidates with
  | nil => exact descends_nil candidates
  | cons s steps ih =>
    obtain ⟨hstep, hrun⟩ := List.isChain_cons_cons.1 h
    obtain ⟨hmem, hsublist, hbelow⟩ := fallback_eq_ok hsorted hstep
    have hrest := ih (hsorted.pairwise.sublist hsublist).sortedLT hrun
    exact hrest.cons hmem hsublist (fallback_shorter hsorted hstep) hbelow

/-- Some run goes on until no candidate is left. -/
theorem exists_falls_to_nil (current : Version) (hsorted : candidates.SortedLT) :
    ∃ steps v, Falls (current, candidates) steps ∧
      ((current, candidates) :: steps).getLast? = some (v, []) := by
  induction hn : candidates.length using Nat.strongRecOn generalizing current candidates with
  | ind n ih =>
    cases hstep : fallback current candidates with
    | error e =>
      obtain ⟨rfl, _⟩ := fallback_eq_error.1 hstep
      exact ⟨[], current, .singleton _, rfl⟩
    | ok s =>
      obtain ⟨next, rest⟩ := s
      have hsublist := (fallback_eq_ok hsorted hstep).2.1
      have hshorter := fallback_shorter hsorted hstep
      obtain ⟨steps, v, hrun, hlast⟩ :=
        ih rest.length (by omega) next (hsorted.pairwise.sublist hsublist).sortedLT rfl
      refine ⟨(next, rest) :: steps, v, List.isChain_cons_cons.2 ⟨hstep, hrun⟩, ?_⟩
      rw [List.getLast?_cons_cons, hlast]

/-- However often a fallback is made, it descends among the candidates. After at most as many steps
as there are candidates it fails, because it finds none below the version that it tried last. -/
theorem fallback_descends (current : Version) (candidates : List Version)
    (hsorted : candidates.SortedLT) :
    (∀ steps, Falls (current, candidates) steps →
      Descends candidates steps ∧ steps.length ≤ candidates.length) ∧
    ∃ steps v rest, Falls (current, candidates) steps ∧ steps.length ≤ candidates.length ∧
      ((current, candidates) :: steps).getLast? = some (v, rest) ∧
      fallback v rest = .error (.notFound (.versionBefore v)) := by
  have hevery : ∀ steps, Falls (current, candidates) steps →
      Descends candidates steps ∧ steps.length ≤ candidates.length := by
    intro steps hrun
    have hdescends := hrun.descends hsorted
    exact ⟨hdescends, hdescends.length_le⟩
  refine ⟨hevery, ?_⟩
  obtain ⟨steps, v, hrun, hlast⟩ := exists_falls_to_nil current hsorted
  exact ⟨steps, v, [], hrun, (hevery steps hrun).2, hlast, fallback_eq_error.2 ⟨rfl, rfl⟩⟩

/-- Candidates of three minor lines, of which one has its first version. -/
def minorLines : List Version :=
  [⟨0, 5, 17, [], []⟩, ⟨0, 6, 0, [], []⟩, ⟨0, 6, 12, [], []⟩, ⟨0, 7, 6, [], []⟩]

/-- The last candidate, the first version of the line before it, and the last one again. -/
def descent : List (Version × List Version) :=
  [(⟨0, 7, 6, [], []⟩, [⟨0, 5, 17, [], []⟩, ⟨0, 6, 0, [], []⟩, ⟨0, 6, 12, [], []⟩]),
    (⟨0, 6, 0, [], []⟩, [⟨0, 5, 17, [], []⟩]), (⟨0, 5, 17, [], []⟩, [])]

theorem fallback_descends_mixed :
    minorLines.SortedLT ∧ Falls (⟨0, 8, 4, [], []⟩, minorLines) descent ∧
      Descends minorLines descent ∧
      ∃ steps v rest, Falls (⟨0, 8, 4, [], []⟩, minorLines) steps ∧
        steps.length ≤ minorLines.length ∧
        ((⟨0, 8, 4, [], []⟩, minorLines) :: steps).getLast? = some (v, rest) ∧
        fallback v rest = .error (.notFound (.versionBefore v)) := by
  have hsorted : minorLines.SortedLT := by decide
  have hrun : Falls (⟨0, 8, 4, [], []⟩, minorLines) descent := by
    unfold Falls
    decide
  obtain ⟨hevery, hends⟩ := fallback_descends ⟨0, 8, 4, [], []⟩ minorLines hsorted
  exact ⟨hsorted, hrun, (hevery descent hrun).1, hends⟩

end CodeAtlas.Version
