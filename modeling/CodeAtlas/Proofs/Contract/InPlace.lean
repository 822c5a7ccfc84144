import CodeAtlas.Proofs.Contract.Inheritance

/-! Contracts served one by one, in place and in any order. A contract that was served before has
more members, but what it leaves to its heirs has not changed. -/
namespace CodeAtlas

/-! ### What others see of a contract -/

theorem filter_flatMap_eq_nil {α β : Type} {p : β → Bool} {f : α → List β}
    (h : ∀ a, ∀ b ∈ f a, p b = false) (xs : List α) : (xs.flatMap f).filter p = [] := by
  rw [List.filter_eq_nil_iff]
  intro b hb
  obtain ⟨a, _, hb⟩ := List.mem_flatMap.1 hb
  simp [h a b hb]

namespace Contract

/-- What others see of a contract: its bases, and the members that it leaves to its heirs. -/
def estate (c : Contract) : List Int × List StateVar × List Method :=
  (c.bases, c.bequestFields, c.bequestMethods)

theorem isNone_of_mem_bequestFields (c : Contract) (v : StateVar) (h : v ∈ c.bequestFields) :
    v.inheritedFrom.isNone = false := by
  obtain ⟨w, _, rfl⟩ := List.mem_map.1 h
  rfl

theorem isNone_of_mem_bequestMethods (c : Contract) (m : Method) (h : m ∈ c.bequestMethods) :
    m.inheritedFrom.isNone = false := by
  obtain ⟨w, _, rfl⟩ := List.mem_map.1 h
  rfl

/-- Inherited members are not left to heirs a second time. -/
theorem estate_inheriting (c : Contract) (ancestors : List Contract) :
    (c.inheriting ancestors).estate = c.estate := by
  have hfields : (c.inheriting ancestors).bequestFields = c.bequestFields := by
    rw [bequestFields, inheriting, List.filter_append,
      filter_flatMap_eq_nil isNone_of_mem_bequestFields, List.append_nil]
    rfl
  have hmethods : (c.inheriting ancestors).bequestMethods = c.bequestMethods := by
    rw [bequestMethods, inheriting, List.filter_append,
      filter_flatMap_eq_nil isNone_of_mem_bequestMethods, List.append_nil]
    rfl
  rw [estate, hfields, hmethods]
  rfl

end Contract

namespace Contracts

variable {contracts current : Contracts} {id : Int} {c d : Contract} {seen queue ids : List Int}

/-- Others see the same of all contracts in two maps. -/
def SameEstates (contracts current : Contracts) : Prop :=
  ∀ id : Int, contracts[id]?.map Contract.estate = current[id]?.map Contract.estate

theorem SameEstates.of_none (h : contracts.SameEstates current) (hid : contracts[id]? = none) :
    current[id]? = none := by
  have hestate := h id
  rw [hid] at hestate
  exact Option.map_eq_none_iff.1 hestate.symm

theorem SameEstates.of_some (h : contracts.SameEstates current) (hid : contracts[id]? = some c) :
    ∃ d, current[id]? = some d ∧ d.estate = c.estate := by
  have hestate := h id
  rw [hid] at hestate
  exact Option.map_eq_some_iff.1 hestate.symm

theorem reach_cons_of_none (hseen : id ∉ seen) (hid : contracts[id]? = none) :
    contracts.reach seen (id :: queue) = contracts.reach (id :: seen) queue := by
  rw [reach, if_neg hseen]
  split
  · rfl
  · simp_all

theorem reach_cons_of_some (hseen : id ∉ seen) (hid : contracts[id]? = some c) :
    contracts.reach seen (id :: queue) =
      id :: contracts.reach (id :: seen) (queue ++ c.bases) := by
  rw [reach, if_neg hseen]
  split
  · simp_all
  · simp_all

/-- The search for ancestors looks at bases only. -/
theorem SameEstates.reach_eq (h : contracts.SameEstates current) (seen queue : List Int) :
    contracts.reach seen queue = current.reach seen queue := by
  fun_induction reach contracts seen queue with
  | case1 => rw [reach]
  | case2 seen id queue hseen ih => rw [reach, if_pos hseen, ih]
  | case3 seen id queue hseen hfound ih => rw [reach_cons_of_none hseen (h.of_none hfound), ih]
  | case4 seen id queue hseen c hfound ih =>
    obtain ⟨d, hd, hestate⟩ := h.of_some hfound
    have hbases : d.bases = c.bases := congrArg Prod.fst hestate
    rw [reach_cons_of_some hseen hd, hbases, ih]

theorem SameEstates.ancestors_eq (h : contracts.SameEstates current) (id : Int) :
    contracts.ancestors id = current.ancestors id := by
  have hbases : contracts.bases id = current.bases id := by
    cases hid : contracts[id]? with
    | none => rw [bases_of_none hid, bases_of_none (h.of_none hid)]
    | some c =>
      obtain ⟨d, hd, hestate⟩ := h.of_some hid
      rw [bases_of_some hid, bases_of_some hd]
      exact (congrArg Prod.fst hestate).symm
  rw [ancestors, ancestors, hbases, h.reach_eq]

theorem SameEstates.flatMap_select {α : Type} {f : Contract → List α}
    (h : contracts.SameEstates current) (hf : ∀ c d : Contract, c.estate = d.estate → f c = f d)
    (ids : List Int) : (contracts.select ids).flatMap f = (current.select ids).flatMap f := by
  induction ids with
  | nil => rfl
  | cons id ids ih =>
    unfold select at ih ⊢
    cases hid : contracts[id]? with
    | none => rw [List.filterMap_cons_none hid, List.filterMap_cons_none (h.of_none hid), ih]
    | some c =>
      obtain ⟨d, hd, hestate⟩ := h.of_some hid
      rw [List.filterMap_cons_some hid, List.filterMap_cons_some hd, List.flatMap_cons,
        List.flatMap_cons, ih, hf c d hestate.symm]

/-- What a contract takes from its ancestors is the same in both maps. -/
theorem SameEstates.inheriting_eq (h : contracts.SameEstates current) (c : Contract) (id : Int) :
    c.inheriting (contracts.select (contracts.ancestors id)) =
      c.inheriting (current.select (current.ancestors id)) := by
  have hfields := h.flatMap_select (f := Contract.bequestFields)
    (fun _ _ he => congrArg (·.2.1) he) (contracts.ancestors id)
  have hmethods := h.flatMap_select (f := Contract.bequestMethods)
    (fun _ _ he => congrArg (·.2.2) he) (contracts.ancestors id)
  rw [Contract.inheriting, hfields, hmethods, h.ancestors_eq]
  rfl

/-! ### Serving -/

/-- Gives one contract, in place, the members that its ancestors declare as the map has them now. -/
def serve (contracts : Contracts) (id : Int) : Contracts :=
  contracts.modify id (·.inheriting (contracts.select (contracts.ancestors id)))

theorem getElem?_serve (contracts : Contracts) (id other : Int) :
    (contracts.serve id)[other]? =
      if id = other then
        contracts[other]?.map (·.inheriting (contracts.select (contracts.ancestors other)))
      else contracts[other]? := by
  by_cases hid : id = other
  · subst hid
    simp [serve]
  · simp [serve, Std.ExtTreeMap.getElem?_modify, hid]

/-- One step: others see the same of the contract that was served. -/
theorem SameEstates.serve (h : contracts.SameEstates current) (id : Int) :
    contracts.SameEstates (current.serve id) := by
  intro other
  rw [h other, getElem?_serve]
  split
  · rw [Option.map_map]
    exact congrArg (Option.map · _) (funext fun c => (c.estate_inheriting _).symm)
  · rfl

/-- A run: each contract that was served has what it takes in the map of the start, and the others
are as they were. -/
theorem getElem?_foldl_serve (hids : ids.Nodup) (h : contracts.SameEstates current) (id : Int) :
    (ids.foldl serve current)[id]? =
      if id ∈ ids then
        current[id]?.map (·.inheriting (contracts.select (contracts.ancestors id)))
      else current[id]? := by
  induction ids generalizing current with
  | nil => rfl
  | cons first ids ih =>
    obtain ⟨hfirst, hids⟩ := List.nodup_cons.1 hids
    rw [List.foldl_cons, ih hids (h.serve first), getElem?_serve]
    by_cases hid : first = id
    · subst hid
      have hsame : (fun c : Contract => c.inheriting (current.select (current.ancestors first))) =
          fun c => c.inheriting (contracts.select (contracts.ancestors first)) :=
        funext fun c => (h.inheriting_eq c first).symm
      simp [hfirst, hsame]
    · simp [hid, Ne.symm hid]

/-- Serving all contracts in place gives the same in whatever order it is done: the map in which
every contract has what its ancestors declared at the start. -/
theorem foldl_serve_eq_resolve (contracts : Contracts) (ids : List Int)
    (hids : ids.Perm contracts.keys) : ids.foldl serve contracts = contracts.resolve := by
  have hnodup : ids.Nodup := hids.nodup_iff.2 Std.ExtTreeMap.nodup_keys
  apply Std.ExtTreeMap.ext_getElem?
  intro id
  rw [getElem?_foldl_serve hnodup (fun _ => rfl) id, getElem?_resolve]
  split
  · rfl
  next hid =>
    have hmissing : contracts[id]? = none := by
      apply Std.ExtTreeMap.getElem?_eq_none
      intro hmem
      exact hid (hids.mem_iff.2 (Std.ExtTreeMap.mem_keys.2 hmem))
    rw [hmissing]
    rfl

/-- A grandparent, a parent and a child. The parent has a variable that was inherited before. -/
def threeGenerations : Contracts :=
  let member (name : String) (inheritedFrom : Option String) : StateVar :=
    ⟨name, .pub, ⟨⟨0, 0, 0⟩, none, ""⟩, inheritedFrom⟩
  let contract (id : Int) (name : String) (bases : List Int) (fields : List StateVar) : Contract :=
    { id, name, kind := .contract, isAbstract := false, bases, unit := "a.sol", span := ⟨0, 0, 0⟩,
      lines := none, fields }
  .ofList [(1, contract 1 "A" [] [member "a" none]),
    (2, contract 2 "B" [1] [member "b" none, member "z" (some "Z")]),
    (3, contract 3 "C" [2] [member "c" none])] compare

/-- The parent is served before its child, which still has one copy of the grandparent's variable
and none of the variable inherited before. -/
theorem foldl_serve_eq_resolve_generations :
    [2, 3, 1].Perm threeGenerations.keys ∧
      [2, 3, 1].foldl serve threeGenerations = threeGenerations.resolve ∧
      (threeGenerations.resolve[(3 : Int)]?).map (·.fields.map fun v => (v.name, v.inheritedFrom)) =
        some [("c", none), ("b", some "B"), ("a", some "A")] := by
  have hkeys : [2, 3, 1].Perm threeGenerations.keys := by decide +kernel
  have hancestors : threeGenerations.ancestors 3 = [2, 1] := by
    obtain ⟨a, ha, hnone⟩ : ∃ a, threeGenerations[(1 : Int)]? = some a ∧ a.bases = [] :=
      ⟨_, rfl, rfl⟩
    obtain ⟨b, hb, hparent⟩ : ∃ b, threeGenerations[(2 : Int)]? = some b ∧ b.bases = [1] :=
      ⟨_, rfl, rfl⟩
    have hchild : threeGenerations.bases 3 = [2] := by decide +kernel
    rw [ancestors, hchild, reach_cons_of_some (by decide) hb, hparent, List.nil_append,
      reach_cons_of_some (by decide) ha, hnone, List.nil_append, reach]
  refine ⟨hkeys, foldl_serve_eq_resolve threeGenerations [2, 3, 1] hkeys, ?_⟩
  rw [getElem?_resolve, hancestors]
  decide +kernel

end Contracts
end CodeAtlas
