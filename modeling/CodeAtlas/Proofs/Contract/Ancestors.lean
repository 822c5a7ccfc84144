import CodeAtlas.Contract.Inheritance
import Mathlib.Order.Lattice.Nat

/-! The ancestors of a contract are what its bases lead to, nearest first. The graph of bases may
have diamonds, cycles, repeated bases and bases that are not there. -/
namespace CodeAtlas.Contracts

variable {contracts : Contracts} {root a b x id : Int} {m n d : Nat} {c : Contract}
  {seen queue near far : List Int}

/-- A contract that is there names another one that is there as its base. -/
def Extends (contracts : Contracts) (a b : Int) : Prop := b ∈ contracts.bases a ∧ b ∈ contracts

/-- So many steps from a contract to a base lead from one to the other. -/
inductive Path (contracts : Contracts) : Nat → Int → Int → Prop where
  | refl (a : Int) : Path contracts 0 a a
  | step {n : Nat} {a b x : Int} (path : Path contracts n a b) (base : contracts.Extends b x) :
      Path contracts (n + 1) a x

/-- Some number of steps leads from one contract to the other. -/
def Reaches (contracts : Contracts) (a b : Int) : Prop := ∃ n, contracts.Path n a b

/-- The least number of steps from one contract to the other, if there is any. -/
noncomputable def distance (contracts : Contracts) (a b : Int) : Nat :=
  sInf {n | contracts.Path n a b}

theorem distance_le (h : contracts.Path n a b) : contracts.distance a b ≤ n := Nat.sInf_le h

theorem path_distance (h : contracts.Reaches a b) : contracts.Path (contracts.distance a b) a b :=
  Nat.sInf_mem h

theorem bases_of_some (h : contracts[id]? = some c) : contracts.bases id = c.bases := by
  simp [bases, h]

theorem bases_of_none (h : contracts[id]? = none) : contracts.bases id = [] := by
  simp [bases, h]

theorem mem_of_mem_bases (h : b ∈ contracts.bases a) : a ∈ contracts := by
  by_contra hmissing
  rw [bases_of_none (Std.ExtTreeMap.getElem?_eq_none hmissing)] at h
  simp at h

theorem mem_of_some (h : contracts[id]? = some c) : id ∈ contracts := by
  simp [Std.ExtTreeMap.mem_iff_isSome_getElem?, h]

theorem notMem_of_none (h : contracts[id]? = none) : id ∉ contracts := by
  simp [Std.ExtTreeMap.mem_iff_isSome_getElem?, h]

/-- What the search gives is new, is there, and comes once. -/
theorem reach_fresh (contracts : Contracts) (seen queue : List Int) :
    (contracts.reach seen queue).Nodup ∧
      ∀ x ∈ contracts.reach seen queue, x ∉ seen ∧ x ∈ contracts := by
  fun_induction reach contracts seen queue with
  | case1 => simp
  | case2 seen id queue hseen ih => exact ih
  | case3 seen id queue hseen hfound ih =>
    refine ⟨ih.1, fun x hx => ?_⟩
    obtain ⟨hnew, hthere⟩ := ih.2 x hx
    exact ⟨fun h => hnew (List.mem_cons_of_mem id h), hthere⟩
  | case4 seen id queue hseen c hfound ih =>
    refine ⟨List.nodup_cons.2 ⟨fun h => (ih.2 id h).1 (List.mem_cons_self ..), ih.1⟩, ?_⟩
    intro x hx
    obtain rfl | hx := List.mem_cons.1 hx
    · exact ⟨hseen, mem_of_some hfound⟩
    · obtain ⟨hnew, hthere⟩ := ih.2 x hx
      exact ⟨fun h => hnew (List.mem_cons_of_mem id h), hthere⟩

/-- The search stays within what the queue leads to. -/
theorem reach_reaches (hqueue : ∀ x ∈ queue, x ∈ contracts → contracts.Reaches root x)
    (hx : x ∈ contracts.reach seen queue) : contracts.Reaches root x := by
  fun_induction reach contracts seen queue with
  | case1 => simp at hx
  | case2 seen id queue hseen ih => exact ih (fun y hy => hqueue y (by simp [hy])) hx
  | case3 seen id queue hseen hfound ih => exact ih (fun y hy => hqueue y (by simp [hy])) hx
  | case4 seen id queue hseen c hfound ih =>
    obtain ⟨n, hn⟩ := hqueue id (by simp) (mem_of_some hfound)
    obtain rfl | hx := List.mem_cons.1 hx
    · exact ⟨n, hn⟩
    · refine ih (fun y hy hthere => ?_) hx
      obtain hy | hy := List.mem_append.1 hy
      · exact hqueue y (by simp [hy]) hthere
      · exact ⟨n + 1, .step hn ⟨by rwa [bases_of_some hfound], hthere⟩⟩

/-- If the bases of all that was seen are seen or in the queue, the search leaves no base out. -/
theorem reach_closed
    (hclosed : ∀ x ∈ seen, ∀ y, contracts.Extends x y → y ∈ seen ∨ y ∈ queue)
    (hx : x ∈ seen ∨ x ∈ contracts.reach seen queue) (hbase : contracts.Extends x b) :
    b ∈ seen ∨ b ∈ contracts.reach seen queue := by
  fun_induction reach contracts seen queue with
  | case1 => simpa using hclosed x (by simpa using hx) b hbase
  | case2 seen id queue hseen ih =>
    refine ih (fun y hy z hz => ?_) hx
    obtain hz | hz := hclosed y hy z hz
    · exact Or.inl hz
    · obtain rfl | hz := List.mem_cons.1 hz
      · exact Or.inl hseen
      · exact Or.inr hz
  | case3 seen id queue hseen hfound ih =>
    -- The missing identity is marked as seen, but it neither has bases nor is one.
    have hne : b ≠ id := by
      rintro rfl
      exact notMem_of_none hfound hbase.2
    have hb := ih (fun y hy z hz => ?_) (hx.imp (List.mem_cons_of_mem id) fun h => h)
    · obtain hb | hb := hb
      · exact Or.inl ((List.mem_cons.1 hb).resolve_left hne)
      · exact Or.inr hb
    · obtain rfl | hy := List.mem_cons.1 hy
      · exact absurd (mem_of_mem_bases hz.1) (notMem_of_none hfound)
      · have := hclosed y hy z hz
        simp only [List.mem_cons] at this ⊢
        tauto
  | case4 seen id queue hseen c hfound ih =>
    have hb := ih (fun y hy z hz => ?_) (by simp only [List.mem_cons] at hx ⊢; tauto)
    · simp only [List.mem_cons] at hb ⊢
      tauto
    · obtain rfl | hy := List.mem_cons.1 hy
      · have := hz.1
        rw [bases_of_some hfound] at this
        simp [this]
      · have := hclosed y hy z hz
        simp only [List.mem_cons, List.mem_append] at this ⊢
        tauto

/-- The state of the search at distance `d` from a root. The queue holds first what is still to be
looked at there, then what was found one step farther; all that is nearer has been seen. -/
structure Frontier (contracts : Contracts) (root : Int) (d : Nat) (seen near far : List Int) :
    Prop where
  near_path : ∀ x ∈ near, x ∈ contracts → contracts.Path d root x
  far_path : ∀ x ∈ far, x ∈ contracts → contracts.Path (d + 1) root x
  seen_of_lt : ∀ n x, n < d → contracts.Path n root x → x ∈ seen
  seen_or_near : ∀ x, contracts.Path d root x → x ∈ seen ∨ x ∈ near
  closed : ∀ x ∈ seen, ∀ y, contracts.Extends x y → y ∈ seen ∨ y ∈ near ∨ y ∈ far

theorem frontier_bases (contracts : Contracts) (root : Int) :
    Frontier contracts root 1 [root] (contracts.bases root) [] where
  near_path x hx hthere := .step (.refl root) ⟨hx, hthere⟩
  far_path := by simp
  seen_of_lt n x hn hpath := by
    obtain rfl : n = 0 := by omega
    cases hpath
    simp
  seen_or_near x hpath := by
    cases hpath with
    | step hpath hbase =>
      cases hpath
      exact Or.inr hbase.1
  closed x hx y hy := by
    obtain rfl : x = root := by simpa using hx
    exact Or.inr (Or.inl hy.1)

/-- When nothing is left at a distance, the search goes on one step farther. -/
theorem Frontier.advance (h : Frontier contracts root d seen [] far) :
    Frontier contracts root (d + 1) seen far [] where
  near_path := h.far_path
  far_path := by simp
  seen_of_lt n x hn hpath := by
    obtain hlt | rfl := Nat.lt_succ_iff_lt_or_eq.1 hn
    · exact h.seen_of_lt n x hlt hpath
    · simpa using h.seen_or_near x hpath
  seen_or_near x hpath := by
    cases hpath with
    | step hpath hbase =>
      have hseen := by simpa using h.seen_or_near _ hpath
      simpa using h.closed _ hseen x hbase
  closed x hx y hy := by simpa using h.closed x hx y hy

theorem Frontier.skip (h : Frontier contracts root d seen (id :: near) far) (hid : id ∈ seen) :
    Frontier contracts root d seen near far where
  near_path x hx := h.near_path x (by simp [hx])
  far_path := h.far_path
  seen_of_lt := h.seen_of_lt
  seen_or_near x hpath := by
    obtain hx | hx := h.seen_or_near x hpath
    · exact Or.inl hx
    · obtain rfl | hx := List.mem_cons.1 hx
      · exact Or.inl hid
      · exact Or.inr hx
  closed x hx y hy := by
    obtain hy | hy | hy := h.closed x hx y hy
    · exact Or.inl hy
    · obtain rfl | hy := List.mem_cons.1 hy
      · exact Or.inl hid
      · exact Or.inr (Or.inl hy)
    · exact Or.inr (Or.inr hy)

/-- Looking at one identity adds its bases, if it is there, one step farther. -/
theorem Frontier.visit (h : Frontier contracts root d seen (id :: near) far) :
    Frontier contracts root d (id :: seen) near (far ++ contracts.bases id) where
  near_path x hx := h.near_path x (by simp [hx])
  far_path x hx hthere := by
    obtain hx | hx := List.mem_append.1 hx
    · exact h.far_path x hx hthere
    · exact .step (h.near_path id (by simp) (mem_of_mem_bases hx)) ⟨hx, hthere⟩
  seen_of_lt n x hn hpath := List.mem_cons_of_mem id (h.seen_of_lt n x hn hpath)
  seen_or_near x hpath := by
    have := h.seen_or_near x hpath
    simp only [List.mem_cons] at this ⊢
    tauto
  closed x hx y hy := by
    obtain rfl | hx := List.mem_cons.1 hx
    · simp [hy.1]
    · have := h.closed x hx y hy
      simp only [List.mem_cons, List.mem_append] at this ⊢
      tauto

/-- The head of the queue can always be taken to lie at the distance of the frontier. -/
theorem Frontier.focus (h : Frontier contracts root d seen near far)
    (hqueue : near ++ far = id :: queue) :
    ∃ d near far, Frontier contracts root d seen (id :: near) far ∧ near ++ far = queue := by
  cases near with
  | nil =>
    obtain rfl : far = id :: queue := hqueue
    exact ⟨d + 1, queue, [], h.advance, by simp⟩
  | cons a near =>
    obtain ⟨rfl, rfl⟩ := List.cons.inj hqueue
    exact ⟨d, near, far, h, rfl⟩

theorem Frontier.reaches (h : Frontier contracts root d seen near far)
    (hx : x ∈ contracts.reach seen (near ++ far)) : contracts.Reaches root x := by
  refine reach_reaches (fun y hy hthere => ?_) hx
  obtain hy | hy := List.mem_append.1 hy
  · exact ⟨d, h.near_path y hy hthere⟩
  · exact ⟨d + 1, h.far_path y hy hthere⟩

/-- What was not seen is at least as far as the frontier. -/
theorem Frontier.le_distance (h : Frontier contracts root d seen near far)
    (hx : contracts.Reaches root x) (hnew : x ∉ seen) : d ≤ contracts.distance root x := by
  by_contra hlt
  exact hnew (h.seen_of_lt _ x (by omega) (path_distance hx))

/-- The search goes outwards. -/
theorem Frontier.reach_sorted (h : Frontier contracts root d seen near far) :
    (contracts.reach seen (near ++ far)).Pairwise
      fun a b => contracts.distance root a ≤ contracts.distance root b := by
  generalize hqueue : near ++ far = queue
  fun_induction reach contracts seen queue generalizing d near far with
  | case1 => exact .nil
  | case2 seen id queue hseen ih =>
    obtain ⟨d, near, far, h, hrest⟩ := h.focus hqueue
    exact ih (h.skip hseen) hrest
  | case3 seen id queue hseen hfound ih =>
    obtain ⟨d, near, far, h, hrest⟩ := h.focus hqueue
    have hvisit := h.visit
    rw [bases_of_none hfound, List.append_nil] at hvisit
    exact ih hvisit hrest
  | case4 seen id queue hseen c hfound ih =>
    obtain ⟨d, near, far, h, rfl⟩ := h.focus hqueue
    have hvisit := h.visit
    rw [bases_of_some hfound] at hvisit
    refine List.pairwise_cons.2 ⟨fun x hx => ?_, ih hvisit (by simp)⟩
    have hnew := ((reach_fresh _ _ _).2 x hx).1
    rw [List.append_assoc] at hx
    calc contracts.distance root id
        ≤ d := distance_le (h.near_path id (by simp) (mem_of_some hfound))
      _ ≤ contracts.distance root x := hvisit.le_distance (hvisit.reaches hx) hnew

theorem ancestors_nodup (contracts : Contracts) (id : Int) : (contracts.ancestors id).Nodup :=
  (reach_fresh _ _ _).1

/-- The ancestors of a contract are all the others that it reaches, and nothing else. -/
theorem mem_ancestors : a ∈ contracts.ancestors id ↔ a ≠ id ∧ contracts.Reaches id a := by
  have hstart := frontier_bases contracts id
  constructor
  · intro ha
    refine ⟨by simpa using ((reach_fresh _ _ _).2 a ha).1, hstart.reaches ?_⟩
    rwa [List.append_nil]
  · rintro ⟨hne, n, hpath⟩
    have hseen : a ∈ [id] ∨ a ∈ contracts.ancestors id := by
      clear hne
      induction hpath with
      | refl => simp
      | step _ hbase ih =>
        refine reach_closed (fun x hx y hy => ?_) (ih hstart) hbase
        simpa using hstart.closed x hx y hy
    exact hseen.resolve_left (by simpa using hne)

theorem ancestors_sorted (contracts : Contracts) (id : Int) :
    (contracts.ancestors id).Pairwise
      fun a b => contracts.distance id a ≤ contracts.distance id b := by
  simpa [ancestors] using (frontier_bases contracts id).reach_sorted

end CodeAtlas.Contracts
