import CodeAtlas.Proofs.Contract.Ancestors

/-! What a contract has after inheritance: its own members, then those of its ancestors. -/
namespace CodeAtlas

/-- What is filtered out by its origin is nothing when nothing has an origin yet. -/
theorem Contract.bequestFields_of_own {c : Contract} (h : ∀ v ∈ c.fields, v.inheritedFrom = none) :
    c.bequestFields = c.fields.map fun v => { v with inheritedFrom := some c.name } := by
  rw [bequestFields, List.filter_eq_self.2 fun v hv => by simp [h v hv]]
  rfl

theorem Contract.bequestMethods_of_own {c : Contract}
    (h : ∀ m ∈ c.methods, m.inheritedFrom = none) :
    c.bequestMethods = c.methods.map fun m => { m with inheritedFrom := some c.name } := by
  rw [bequestMethods, List.filter_eq_self.2 fun m hm => by simp [h m hm]]
  rfl

namespace Contracts

/-- No contract has inherited a member yet. -/
def Own (contracts : Contracts) : Prop :=
  ∀ (id : Int) (c : Contract), contracts[id]? = some c →
    (∀ v ∈ c.fields, v.inheritedFrom = none) ∧ ∀ m ∈ c.methods, m.inheritedFrom = none

theorem getElem?_resolve (contracts : Contracts) (id : Int) :
    contracts.resolve[id]? =
      contracts[id]?.map (·.inheriting (contracts.select (contracts.ancestors id))) := by
  simp [resolve]

/-- What is taken from selected contracts depends on the contracts that are there only. -/
theorem flatMap_select_congr {contracts : Contracts} {α : Type} {f g : Contract → List α}
    (h : ∀ (id : Int) (c : Contract), contracts[id]? = some c → f c = g c) (ids : List Int) :
    (contracts.select ids).flatMap f = (contracts.select ids).flatMap g := by
  refine List.flatMap_congr fun c hc => ?_
  obtain ⟨id, _, hid⟩ := List.mem_filterMap.1 hc
  exact h id c hid

/-- Resolving keeps every contract as it is but for what it takes from its ancestors: all others
that it reaches through bases, each once, nearest first. -/
theorem resolve_of_own (contracts : Contracts) (hown : contracts.Own) :
    contracts.resolve.keys = contracts.keys ∧
    ∀ (id : Int) (c : Contract), contracts[id]? = some c →
      ∃ ancestors : List Int, ancestors.Nodup ∧
        (∀ a, a ∈ ancestors ↔ a ≠ id ∧ contracts.Reaches id a) ∧
        ancestors.Pairwise (fun a b => contracts.distance id a ≤ contracts.distance id b) ∧
        contracts.resolve[id]? = some { c with
          fields := c.fields ++ (contracts.select ancestors).flatMap fun a =>
            a.fields.map fun v => { v with inheritedFrom := some a.name }
          methods := c.methods ++ (contracts.select ancestors).flatMap fun a =>
            a.methods.map fun m => { m with inheritedFrom := some a.name } } := by
  refine ⟨by simp [resolve], fun id c hc => ?_⟩
  refine ⟨contracts.ancestors id, ancestors_nodup contracts id, fun a => mem_ancestors,
    ancestors_sorted contracts id, ?_⟩
  have hfields := flatMap_select_congr
    (fun i a hi => Contract.bequestFields_of_own (hown i a hi).1) (contracts.ancestors id)
  have hmethods := flatMap_select_congr
    (fun i a hi => Contract.bequestMethods_of_own (hown i a hi).2) (contracts.ancestors id)
  rw [getElem?_resolve, hc, Option.map_some, Contract.inheriting, hfields, hmethods]

/-- Two contracts that are each other's bases, one of them twice and beside a missing one. -/
theorem resolve_of_own_loop :
    let a : Contract :=
      { id := 1, name := "A", kind := .contract, isAbstract := false, bases := [2, 9, 2, 1],
        unit := "a.sol", span := ⟨0, 0, 0⟩, lines := none,
        fields := [⟨"x", .pub, ⟨⟨0, 0, 0⟩, none, ""⟩, none⟩] }
    let b : Contract :=
      { id := 2, name := "B", kind := .contract, isAbstract := false, bases := [1],
        unit := "b.sol", span := ⟨0, 0, 0⟩, lines := none,
        fields := [⟨"y", .pub, ⟨⟨0, 0, 0⟩, none, ""⟩, none⟩] }
    let contracts : Contracts := ((∅ : Contracts).insert 1 a).insert 2 b
    contracts.Own ∧ ∃ ancestors : List Int, 2 ∈ ancestors ∧ ancestors.Nodup ∧
      contracts.resolve[(1 : Int)]? = some { a with
        fields := a.fields ++ (contracts.select ancestors).flatMap fun c =>
          c.fields.map fun v => { v with inheritedFrom := some c.name }
        methods := a.methods ++ (contracts.select ancestors).flatMap fun c =>
          c.methods.map fun m => { m with inheritedFrom := some c.name } } := by
  intro a b contracts
  have hget : ∀ id : Int,
      contracts[id]? = if 2 = id then some b else if 1 = id then some a else none := by
    intro id
    simp [contracts, Std.ExtTreeMap.getElem?_insert]
  have hown : contracts.Own := by
    intro id c hc
    rw [hget] at hc
    split at hc
    · cases hc
      simp [b]
    · split at hc
      · cases hc
        simp [a]
      · cases hc
  obtain ⟨ancestors, hnodup, hmem, _, hresolve⟩ :=
    (resolve_of_own contracts hown).2 1 a (by simp [hget])
  refine ⟨hown, ancestors, (hmem 2).2 ⟨by decide, 1, .step (.refl 1) ⟨?_, ?_⟩⟩, hnodup, hresolve⟩
  · simp [bases, hget, a]
  · simp [contracts]

end Contracts
end CodeAtlas
