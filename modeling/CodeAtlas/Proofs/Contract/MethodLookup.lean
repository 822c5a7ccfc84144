import CodeAtlas.Proofs.Ast.Outline
import CodeAtlas.Proofs.Contract.Index

/-! What a contract has under the name of a function: what it declares itself, or else what the
nearest of its ancestors declares. Farther ancestors are shadowed, also where paths to them meet or
the bases run in a circle. -/
namespace CodeAtlas

/-! ### Declarations -/

theorem Method.inheritedFrom_of_ofNode {catalog : Catalog} {n : Ast.Node} {m : Method}
    (h : Method.ofNode catalog n = .ok m) : m.inheritedFrom = none := by
  unfold Method.ofNode at h
  obtain ⟨types, _, h⟩ := bind_eq_ok.1 h
  obtain ⟨kind, _, h⟩ := bind_eq_ok.1 h
  obtain ⟨name, _, h⟩ := bind_eq_ok.1 h
  obtain ⟨anchor, _, h⟩ := bind_eq_ok.1 h
  cases h
  rfl

namespace Contract

variable {catalog : Catalog} {unit : String} {n : Ast.Node} {c d : Contract}

/-- All functions of the contract are declared by itself. -/
def OwnMethods (c : Contract) : Prop := ∀ m ∈ c.methods, m.inheritedFrom = none

/-- The first function with a name among those that the contract declares. -/
def declaration? (c : Contract) (name : String) : Option Method :=
  c.methods.find? (·.name == name)

theorem OwnMethods.addMember (hc : c.OwnMethods) (h : c.addMember catalog n = .ok d) :
    d.OwnMethods := by
  unfold Contract.addMember at h
  split at h
  · obtain ⟨m, hm, h⟩ := bind_eq_ok.1 h
    cases h
    intro m' hm'
    rcases List.mem_append.1 hm' with hm' | hm'
    · exact hc m' hm'
    · rw [List.mem_singleton.1 hm']
      exact Method.inheritedFrom_of_ofNode hm
  · obtain ⟨v, _, h⟩ := bind_eq_ok.1 h
    cases h
    exact hc
  · obtain ⟨m, _, h⟩ := bind_eq_ok.1 h
    cases h
    exact hc
  · obtain ⟨e, _, h⟩ := bind_eq_ok.1 h
    cases h
    exact hc
  · cases h
    exact hc

theorem OwnMethods.foldlM_addMember {parts : List Ast.Node} (hc : c.OwnMethods)
    (h : parts.foldlM (Contract.addMember catalog) c = .ok d) : d.OwnMethods := by
  induction parts generalizing c with
  | nil =>
    cases h
    exact hc
  | cons part parts ih =>
    rw [List.foldlM_cons] at h
    obtain ⟨next, hnext, h⟩ := bind_eq_ok.1 h
    exact ih (hc.addMember hnext) h

/-- A contract that was just read has inherited nothing yet. -/
theorem ownMethods_of_ofNode (h : ofNode catalog unit n = .ok c) : c.OwnMethods := by
  unfold ofNode at h
  obtain ⟨id, _, h⟩ := bind_eq_ok.1 h
  obtain ⟨name, _, h⟩ := bind_eq_ok.1 h
  obtain ⟨isAbstract, _, h⟩ := bind_eq_ok.1 h
  dsimp only at h
  split at h
  · obtain ⟨kind, _, h⟩ := bind_eq_ok.1 h
    obtain ⟨anchor, _, h⟩ := bind_eq_ok.1 h
    exact OwnMethods.foldlM_addMember (by simp [OwnMethods]) h
  · obtain ⟨kind, _, h⟩ := bind_eq_ok.1 h
    obtain ⟨anchor, _, h⟩ := bind_eq_ok.1 h
    exact OwnMethods.foldlM_addMember (by simp [OwnMethods]) h

end Contract

namespace Contracts

variable {contracts : Contracts} {id a : Int} {c : Contract} {name : String} {found : Method}

/-- The contract with an identity declares a function with a name. -/
def Declares (contracts : Contracts) (id : Int) (name : String) : Prop :=
  ∃ c, contracts[id]? = some c ∧ ∃ m ∈ c.methods, m.name = name

/-- What a contract has under the name of a function: its own first declaration, or a copy of the
first one in an ancestor that no declaring ancestor is nearer than. -/
inductive NearestMethod (contracts : Contracts) (id : Int) (name : String) (found : Method) :
    Prop where
  | own (c : Contract) (hc : contracts[id]? = some c) (hfound : c.declaration? name = some found)
      (hown : found.inheritedFrom = none)
  | inherited (hnone : ¬ contracts.Declares id name) (a : Int) (hreach : contracts.Reaches id a)
      (c : Contract) (hc : contracts[a]? = some c) (m : Method)
      (hm : c.declaration? name = some m) (hcopy : found = { m with inheritedFrom := some c.name })
      (hleast : ∀ b, contracts.Reaches id b → contracts.Declares b name →
        contracts.distance id a ≤ contracts.distance id b)

theorem declares_iff_isSome (hc : contracts[id]? = some c) :
    contracts.Declares id name ↔ (c.declaration? name).isSome = true := by
  simp [Declares, hc, Contract.declaration?]

theorem declares_of_declaration? (hc : contracts[id]? = some c)
    (h : c.declaration? name = some found) : contracts.Declares id name := by
  rw [declares_iff_isSome hc, h]
  rfl

/-- What is at most one step away is the contract itself or one of its bases. -/
theorem eq_or_extends_of_distance (hreach : contracts.Reaches id a)
    (h : contracts.distance id a ≤ 1) : a = id ∨ contracts.Extends id a := by
  have hpath := path_distance hreach
  generalize contracts.distance id a = n at h hpath
  cases hpath with
  | refl => exact Or.inl rfl
  | step hstart hextends =>
    obtain rfl := Nat.le_zero.1 (Nat.le_of_succ_le_succ h)
    cases hstart
    exact Or.inr hextends

/-- The function with a name as the contract with an identity leaves it to its heirs. -/
def bequest? (contracts : Contracts) (name : String) (id : Int) : Option Method :=
  contracts[id]?.bind fun c => (c.declaration? name).map (Method.inherited c.name)

theorem isSome_bequest? :
    (contracts.bequest? name id).isSome = true ↔ contracts.Declares id name := by
  cases hc : contracts[id]? with
  | none => simp [bequest?, Declares, hc]
  | some c => simp [bequest?, declares_iff_isSome hc, hc]

theorem findSome?_select {α : Type} (f : Contract → Option α) (ids : List Int) :
    (contracts.select ids).findSome? f = ids.findSome? fun id => contracts[id]?.bind f := by
  induction ids with
  | nil => rfl
  | cons id ids ih =>
    unfold select at ih ⊢
    cases hid : contracts[id]? with
    | none => simpa [hid] using ih
    | some c => cases hf : f c <;> simp [hid, hf, ih]

/-- In what a contract inherits, the functions of each ancestor come after those of nearer ones. -/
theorem find?_inheriting
    (hown : ∀ (id : Int) (c : Contract), contracts[id]? = some c → c.OwnMethods)
    (c : Contract) (ids : List Int) (name : String) :
    (c.inheriting (contracts.select ids)).methods.find? (·.name == name) =
      (c.declaration? name).or (ids.findSome? (contracts.bequest? name)) := by
  have hmethods := flatMap_select_congr
    (fun id a ha => Contract.bequestMethods_of_own (hown id a ha)) ids
  rw [Contract.inheriting, hmethods, List.find?_append, List.find?_flatMap, findSome?_select]
  congr 1
  apply congrArg (List.findSome? · ids)
  funext id
  apply congrArg (Option.bind _)
  funext a
  rw [List.find?_map]
  rfl

theorem exists_declares_iff (hc : contracts[id]? = some c) :
    ((c.declaration? name).or ((contracts.ancestors id).findSome? (contracts.bequest? name))).isSome
        = true ↔
      ∃ a, contracts.Reaches id a ∧ contracts.Declares a name := by
  rw [Option.isSome_or, Bool.or_eq_true, ← declares_iff_isSome hc, List.findSome?_isSome_iff]
  constructor
  · rintro (hown | ⟨a, ha, hbequest⟩)
    · exact ⟨id, ⟨0, .refl id⟩, hown⟩
    · exact ⟨a, (mem_ancestors.1 ha).2, isSome_bequest?.1 hbequest⟩
  · rintro ⟨a, hreach, hdeclares⟩
    by_cases hid : a = id
    · exact Or.inl (hid ▸ hdeclares)
    · exact Or.inr ⟨a, mem_ancestors.2 ⟨hid, hreach⟩, isSome_bequest?.2 hdeclares⟩

/-- The first ancestor in the search that declares the function is one of the nearest. -/
theorem nearestMethod_of_first (hown : c.OwnMethods) (hc : contracts[id]? = some c)
    (h : (c.declaration? name).or ((contracts.ancestors id).findSome? (contracts.bequest? name)) =
      some found) : contracts.NearestMethod id name found := by
  rcases Option.or_eq_some_iff.1 h with hfound | ⟨hnone, hfound⟩
  · exact .own c hc hfound (hown found (List.mem_of_find?_eq_some hfound))
  · have hself : ¬ contracts.Declares id name := by
      rw [declares_iff_isSome hc, hnone]
      simp
    obtain ⟨a, ha, hbequest, hleast⟩ := least_of_findSome? (contracts.ancestors_sorted id) hfound
    obtain ⟨b, hb, hcopy⟩ := Option.bind_eq_some_iff.1 hbequest
    obtain ⟨m, hm, rfl⟩ := Option.map_eq_some_iff.1 hcopy
    refine .inherited hself a (mem_ancestors.1 ha).2 b hb m hm rfl ?_
    intro x hreach hdeclares
    have hne : x ≠ id := by
      rintro rfl
      exact hself hdeclares
    exact hleast x (mem_ancestors.2 ⟨hne, hreach⟩) (isSome_bequest?.2 hdeclares)

end Contracts

/-! ### The model -/

namespace Model

variable {order : Traversal} {catalog : Catalog} {units : List KeyedUnit} {m : Model} {c : Contract}
  {name : String} {declared : Contracts}

/-- The contracts that units declare, before any of them inherits. -/
def declarations (catalog : Catalog) (units : List KeyedUnit) : Except Error Contracts := do
  let contracts ← (distinct units).mapM (Model.declared catalog)
  return byId contracts.flatten

theorem exists_declarations (h : build order catalog units = .ok m) :
    ∃ declared, declarations catalog units = .ok declared ∧ m.contracts = declared.resolve := by
  obtain ⟨contracts, hcontracts, rfl⟩ := build_eq_ok.1 h
  exact ⟨byId contracts.flatten, bind_eq_ok.2 ⟨contracts, hcontracts, rfl⟩, rfl⟩

theorem ownMethods_of_declarations (h : declarations catalog units = .ok declared) (id : Int)
    (c : Contract) (hc : declared[id]? = some c) : c.OwnMethods := by
  obtain ⟨contracts, hcontracts, h⟩ := bind_eq_ok.1 h
  cases h
  rw [byId_getElem?] at hc
  have hmem : c ∈ contracts.flatten := List.mem_reverse.1 (List.mem_of_find?_eq_some hc)
  obtain ⟨cs, hcs, hmem⟩ := List.mem_flatten.1 hmem
  obtain ⟨u, _, hu⟩ := exists_of_mem_mapM hcontracts hcs
  obtain ⟨n, _, hn⟩ := exists_of_mem_mapM hu hmem
  exact Contract.ownMethods_of_ofNode hn

theorem contractById?_of_contractByName (h : build order catalog units = .ok m)
    (hc : m.contractByName name = .ok c) : m.contractById? c.id = some c := by
  rcases Option.or_eq_some_iff.1 (orError_eq_ok.1 hc) with hexport | ⟨_, hfound⟩
  · obtain ⟨id, _, hid⟩ := Option.bind_eq_some_iff.1 hexport
    rwa [id_of_contractById? h hid]
  · exact (mem_all h).1 (List.mem_of_find?_eq_some hfound)

/-- Nothing is filtered out when a function is looked up by its name. -/
theorem methodByName_eq (hc : m.contractByName name = .ok c) (method : String) :
    m.methodByName name method =
      orError (.missingFunction name method) (c.methods.find? (·.name == method)) := by
  have hall : c.methods.filter (MethodFilter.accepts {}) = c.methods := by
    rw [List.filter_eq_self]
    intro m _
    rfl
  rw [methodByName, methodsOf, hc, ← hall]
  rfl

/-- A function is not found by its name just when neither the contract nor one of its ancestors
declares one of that name. Otherwise it is the contract's own or that of a nearest ancestor. -/
theorem methodByName_nearest (order : Traversal) (catalog : Catalog) (units : List KeyedUnit)
    (m : Model) (name method : String) (c : Contract) (h : build order catalog units = .ok m)
    (hc : m.contractByName name = .ok c) :
    ∃ declared, declarations catalog units = .ok declared ∧
      (m.methodByName name method = .error (.missingFunction name method) ↔
        ¬ ∃ a, declared.Reaches c.id a ∧ declared.Declares a method) ∧
      ((∃ a, declared.Reaches c.id a ∧ declared.Declares a method) →
        ∃ found, m.methodByName name method = .ok found ∧
          declared.NearestMethod c.id method found) := by
  obtain ⟨declared, hdeclared, hresolve⟩ := exists_declarations h
  have hown := ownMethods_of_declarations hdeclared
  have hid := contractById?_of_contractByName h hc
  rw [contractById?, hresolve, Contracts.getElem?_resolve] at hid
  obtain ⟨own, hself, hinherits⟩ := Option.map_eq_some_iff.1 hid
  have hlookup := methodByName_eq hc method
  rw [← hinherits, Contracts.find?_inheriting hown] at hlookup
  have hsome : _ ↔ ∃ a, declared.Reaches c.id a ∧ declared.Declares a method :=
    Contracts.exists_declares_iff hself
  refine ⟨declared, hdeclared, ?_, ?_⟩
  · rw [hlookup, ← hsome, orError_eq_error, Bool.not_eq_true, Option.isSome_eq_false_iff,
      Option.isNone_iff_eq_none]
  · intro hdeclares
    obtain ⟨found, hfound⟩ := Option.isSome_iff_exists.1 (hsome.2 hdeclares)
    refine ⟨found, ?_, Contracts.nearestMethod_of_first (hown _ _ hself) hself hfound⟩
    rw [hlookup, hfound]
    rfl

/-! ### Three generations in a circle -/

/-- The node of a function without parameters. -/
def bareMethod (name : String) : Ast.Node where
  form := .flat
  kind := "FunctionDefinition"
  id := none
  src := some "0:1:0"
  properties := some [("kind", .str "function"), ("name", .str name),
    ("parameters", Outline.flatList []), ("returnParameters", Outline.flatList [])]
  children := some []

/-- A contract, its base and the base of that, which declares the same function and has the first
contract as its own base. One more base is not there. -/
def shadowedMethod : List KeyedUnit :=
  [("a.sol", bareUnit [("A", 1), ("B", 2), ("C", 3)]
    [{ bareContract 1 "A" [3] with children := some [bareMethod "f", bareMethod "g"] },
      { bareContract 2 "B" [1] with children := some [bareMethod "f"] },
      bareContract 3 "C" [9, 2]])]

theorem declarations_shadowedMethod :
    ∃ declared, declarations (.ofFiles []) shadowedMethod = .ok declared ∧
      declared.bases 3 = [9, 2] ∧ 9 ∉ declared ∧
      declared[(3 : Int)]?.map (·.methods) = some [] ∧
      declared[(2 : Int)]?.map (fun c => (c.name, c.methods.map (·.name))) = some ("B", ["f"]) ∧
      ∀ c ∈ declared.values, ∀ m ∈ c.methods, m.name ≠ "h" :=
  exists_of_any_ok (by decide +kernel)

/-- The nearer function is found, and one that nobody declares is not. -/
theorem methodByName_nearest_shadowed :
    ∃ m c, build .ascending (.ofFiles []) shadowedMethod = .ok m ∧ m.contractByName "C" = .ok c ∧
      (∃ found, m.methodByName "C" "f" = .ok found ∧ found.inheritedFrom = some "B") ∧
      m.methodByName "C" "h" = .error (.missingFunction "C" "h") := by
  obtain ⟨m, hm, hany⟩ : ∃ m, build .ascending (.ofFiles []) shadowedMethod = .ok m ∧
      ((m.contractByName "C").toOption.any fun c => c.id = 3) = true :=
    exists_of_any_ok (by decide +kernel)
  obtain ⟨c, hc, hid⟩ := exists_of_any_ok hany
  obtain ⟨declared, hdeclared, hbases, hmissing, hnone, hparent, hvalues⟩ :=
    declarations_shadowedMethod
  obtain ⟨b, hb, hnames⟩ := Option.map_eq_some_iff.1 hparent
  have hstep : declared.Path 1 3 2 :=
    .step (.refl 3) ⟨by simp [hbases], Contracts.mem_of_some hb⟩
  refine ⟨m, c, hm, hc, ?_, ?_⟩
  · obtain ⟨_, hsame, _, hfound⟩ := methodByName_nearest _ _ _ m "C" "f" c hm hc
    cases hdeclared.symm.trans hsame
    have hdeclares : declared.Declares 2 "f" := by
      have hmem : "f" ∈ b.methods.map (·.name) := by simp [(Prod.mk.inj hnames).2]
      obtain ⟨method, hmethod, hname⟩ := List.mem_map.1 hmem
      exact ⟨b, hb, method, hmethod, hname⟩
    rw [hid] at hfound
    obtain ⟨found, hok, hnearest⟩ := hfound ⟨2, ⟨1, hstep⟩, hdeclares⟩
    refine ⟨found, hok, ?_⟩
    have hself : ¬ declared.Declares 3 "f" := by
      rintro ⟨own, hown, method, hmethod, _⟩
      simp [hown] at hnone
      simp [hnone] at hmethod
    cases hnearest with
    | own own hown hfirst _ => exact absurd (Contracts.declares_of_declaration? hown hfirst) hself
    | inherited _ a hreach base hbase method hmethod hcopy hleast =>
      have hle := (hleast 2 ⟨1, hstep⟩ hdeclares).trans (Contracts.distance_le hstep)
      obtain rfl : a = 2 := by
        rcases Contracts.eq_or_extends_of_distance hreach hle with rfl | hextends
        · exact absurd (Contracts.declares_of_declaration? hbase hmethod) hself
        · -- only the parent is a base: the other one is no contract
          rw [Contracts.Extends, hbases] at hextends
          rcases List.mem_pair.1 hextends.1 with rfl | rfl
          · exact absurd hextends.2 hmissing
          · rfl
      cases hb.symm.trans hbase
      rw [hcopy]
      exact congrArg some (Prod.mk.inj hnames).1
  · obtain ⟨_, hsame, herror, _⟩ := methodByName_nearest _ _ _ m "C" "h" c hm hc
    cases hdeclared.symm.trans hsame
    rw [herror]
    rintro ⟨a, _, own, hown, method, hmethod, hname⟩
    exact hvalues own (mem_values.2 ⟨a, hown⟩) method hmethod hname

end Model
end CodeAtlas
