import CodeAtlas.Contract.Query
import CodeAtlas.Proofs.Contract.Inheritance
import CodeAtlas.Proofs.Lookup
import CodeAtlas.Proofs.Outcome

/-! What a built model has under an identity. Every definition of a contract in the units has a
title, and the last one with an identity is that of the contract in the model. -/
namespace CodeAtlas

/-- What names a definition: the key of its unit, its identity and its name. -/
structure Title where
  unit : String
  id : Int
  name : String
  deriving DecidableEq

/-- The title of a contract. -/
def Contract.title (c : Contract) : Title := ⟨c.unit, c.id, c.name⟩

/-- The title of the definition at a node. -/
def Ast.Node.title? (unit : String) (n : Ast.Node) : Option Title := do
  return ⟨unit, ← n.id, ← n.name?⟩

theorem Ast.Node.title?_eq_some {n : Ast.Node} {unit : String} {t : Title} :
    n.title? unit = some t ↔ t.unit = unit ∧ n.id = some t.id ∧ n.name? = some t.name := by
  obtain ⟨key, id, name⟩ := t
  unfold Ast.Node.title?
  cases n.id with
  | none => simp
  | some _ =>
    cases n.name? with
    | none => simp
    | some _ =>
      simp
      tauto

namespace Contract

variable {catalog : Catalog} {unit : String} {n : Ast.Node} {c d : Contract}

theorem addMember_title (h : c.addMember catalog n = .ok d) : d.title = c.title := by
  unfold addMember at h
  split at h
  · obtain ⟨m, _, h⟩ := bind_eq_ok.1 h
    cases h
    rfl
  · obtain ⟨v, _, h⟩ := bind_eq_ok.1 h
    cases h
    rfl
  · obtain ⟨m, _, h⟩ := bind_eq_ok.1 h
    cases h
    rfl
  · obtain ⟨e, _, h⟩ := bind_eq_ok.1 h
    cases h
    rfl
  · cases h
    rfl

theorem foldlM_addMember_title {parts : List Ast.Node}
    (h : parts.foldlM (addMember catalog) c = .ok d) : d.title = c.title := by
  induction parts generalizing c with
  | nil =>
    cases h
    rfl
  | cons part parts ih =>
    rw [List.foldlM_cons] at h
    obtain ⟨next, hnext, h⟩ := bind_eq_ok.1 h
    rw [ih h, addMember_title hnext]

/-- The members of a contract have no part in its title. -/
theorem ofNode_title (h : ofNode catalog unit n = .ok c) : n.title? unit = some c.title := by
  unfold ofNode at h
  obtain ⟨id, hid, h⟩ := bind_eq_ok.1 h
  obtain ⟨name, hname, h⟩ := bind_eq_ok.1 h
  obtain ⟨isAbstract, _, h⟩ := bind_eq_ok.1 h
  obtain ⟨hid, _⟩ := Option.filter_eq_some_iff.1 (orError_eq_ok.1 hid)
  have htitle : c.title = ⟨unit, id, name⟩ := by
    dsimp only at h
    split at h
    · obtain ⟨kind, _, h⟩ := bind_eq_ok.1 h
      obtain ⟨anchor, _, h⟩ := bind_eq_ok.1 h
      exact foldlM_addMember_title h
    · obtain ⟨kind, _, h⟩ := bind_eq_ok.1 h
      obtain ⟨anchor, _, h⟩ := bind_eq_ok.1 h
      exact foldlM_addMember_title h
  rw [htitle, Ast.Node.title?, hid, orError_eq_ok.1 hname]
  rfl

end Contract

/-- The identity under which a unit exports a name. -/
def Units.exportIn? (name : String) (u : Model.KeyedUnit) : Option Int :=
  u.2.root.exportedSymbols.reverse.lookup name

namespace Model

variable {order : Traversal} {catalog : Catalog} {units : List KeyedUnit} {m : Model}
  {id : Int} {name : String} {symbols : Std.ExtTreeMap String Int} {c : Contract}

/-- Units under different keys are all taken. -/
theorem distinct_of_pairwise (h : units.Pairwise fun u v => u.1 ≠ v.1) :
    distinct units = units := by
  induction units with
  | nil => rfl
  | cons u units ih =>
    obtain ⟨hu, hrest⟩ := List.pairwise_cons.1 h
    have hkeep : units.filter (fun v => decide ((v.1 == u.1) = false)) = units := by
      rw [List.filter_eq_self]
      intro v hv
      simpa using (hu v hv).symm
    rw [distinct, List.eraseDupsBy_cons, hkeep]
    exact congrArg (u :: ·) (ih hrest)

/-- Of several units that export a name the last counts. -/
theorem getElem?_symbolsOf (units : List KeyedUnit) (name : String) :
    (symbolsOf units)[name]? = units.reverse.findSome? (Units.exportIn? name) := by
  rw [symbolsOf, getElem?_ofList, List.reverse_flatMap]
  induction units.reverse with
  | nil => rfl
  | cons u rest ih =>
    rw [List.flatMap_cons, List.lookup_append, ih, List.findSome?_cons]
    cases h : Units.exportIn? name u with
    | none =>
      have hnone : List.lookup name u.2.root.exportedSymbols.reverse = none := h
      simp [hnone]
    | some id =>
      have hsome : List.lookup name u.2.root.exportedSymbols.reverse = some id := h
      simp [hsome]

/-- The titles of a unit in order. -/
def titlesIn (u : KeyedUnit) : List Title := u.2.contracts.filterMap (Ast.Node.title? u.1)

/-- The title that units give an identity: the last one with it. -/
def title? (units : List KeyedUnit) (id : Int) : Option Title :=
  (units.flatMap titlesIn).reverse.find? (·.id == id)

/-! ### Names -/

/-- No identity has two names. -/
def Unaliased (symbols : Std.ExtTreeMap String Int) : Prop :=
  ∀ (a b : String) (id : Int), symbols[a]? = some id → symbols[b]? = some id → a = b

theorem mem_entries : (name, id) ∈ order.entries symbols ↔ symbols[name]? = some id := by
  rw [(order.perm symbols).mem_iff, Std.ExtTreeMap.mem_toList_iff_getElem?_eq_some]

/-- Where no identity has two names, the names under identities are the symbols read backwards,
whatever the traversal. -/
theorem getElem?_namesOf (h : Unaliased symbols) :
    (namesOf order symbols)[id]? = some name ↔ symbols[name]? = some id := by
  have hentry : ∀ a, (id, a) ∈ ((order.entries symbols).map Prod.swap).reverse ↔
      symbols[a]? = some id := by simp [mem_entries]
  rw [namesOf, getElem?_ofList, lookup_eq_some_iff_mem]
  · exact hentry name
  · intro a b ha hb
    exact h a b id ((hentry a).1 ha) ((hentry b).1 hb)

theorem namesOf_eq (h : Unaliased symbols) (order order' : Traversal) :
    namesOf order symbols = namesOf order' symbols := by
  apply Std.ExtTreeMap.ext_getElem?
  intro id
  apply Option.ext
  intro name
  rw [getElem?_namesOf h, getElem?_namesOf h]

/-- A model with the names that another traversal gives. -/
def reindexed (order : Traversal) (m : Model) : Model := { m with names := namesOf order m.symbols }

/-! ### Contracts -/

theorem build_eq_ok :
    build order catalog units = .ok m ↔
      ∃ contracts, (distinct units).mapM (declared catalog) = .ok contracts ∧
        m = ⟨(byId contracts.flatten).resolve, symbolsOf (distinct units),
          namesOf order (symbolsOf (distinct units))⟩ := by
  unfold build
  rw [bind_eq_ok]
  constructor
  · rintro ⟨contracts, hcontracts, hm⟩
    cases hm
    exact ⟨contracts, hcontracts, rfl⟩
  · rintro ⟨contracts, hcontracts, rfl⟩
    exact ⟨contracts, hcontracts, rfl⟩

/-- The traversal has no part in a model but its names. -/
theorem build_reindexed (order order' : Traversal) (catalog : Catalog) (units : List KeyedUnit) :
    build order' catalog units = (build order catalog units).map (reindexed order') := by
  unfold build
  rw [map_bind_eq]
  rfl

theorem reindexed_eq_self (hm : build order catalog units = .ok m) (h : Unaliased m.symbols)
    (order' : Traversal) : m.reindexed order' = m := by
  obtain ⟨contracts, _, rfl⟩ := build_eq_ok.1 hm
  simp only [reindexed, namesOf_eq h order' order]

theorem titles_of_declared {units : List KeyedUnit} {contracts : List (List Contract)}
    (h : units.mapM (declared catalog) = .ok contracts) :
    contracts.flatten.map Contract.title = units.flatMap titlesIn := by
  have heach : ∀ u cs, declared catalog u = .ok cs →
      some (titlesIn u) = some (cs.map Contract.title) := by
    intro u cs hcs
    rw [titlesIn, map_of_mapM (fun n c hc => Contract.ofNode_title hc) hcs]
  have hall := map_of_mapM heach h
  rw [List.map_flatten, hall, List.filterMap_eq_map', List.flatMap_def]

theorem byId_getElem? (contracts : List Contract) (id : Int) :
    (byId contracts)[id]? = contracts.reverse.find? (·.id == id) := by
  rw [byId, getElem?_ofList, ← List.map_reverse]
  induction contracts.reverse with
  | nil => rfl
  | cons c rest ih =>
    by_cases h : c.id = id
    · simp [h]
    · have hne : (id == c.id) = false := by simpa using Ne.symm h
      simpa [List.lookup_cons, hne, h] using ih

/-- The contract under an identity has the last title with it. -/
theorem map_title_contractById? (h : build order catalog units = .ok m) (id : Int) :
    (m.contractById? id).map Contract.title = title? (distinct units) id := by
  obtain ⟨contracts, hcontracts, rfl⟩ := build_eq_ok.1 h
  have htitle : ∀ ancestors, Contract.title ∘ (fun c => c.inheriting ancestors) = Contract.title :=
    fun _ => rfl
  rw [contractById?, Contracts.getElem?_resolve, Option.map_map, htitle, byId_getElem?, title?,
    ← titles_of_declared hcontracts, ← List.map_reverse, List.find?_map]
  rfl

theorem id_of_contractById? (h : build order catalog units = .ok m)
    (hc : m.contractById? id = some c) : c.id = id := by
  have htitle := map_title_contractById? h id
  rw [hc, Option.map_some, eq_comm] at htitle
  have hid : c.title.id = id := by simpa using List.find?_some htitle
  exact hid

theorem mem_all (h : build order catalog units = .ok m) :
    c ∈ m.all ↔ m.contractById? c.id = some c := by
  rw [all, mem_values]
  constructor
  · rintro ⟨id, hid⟩
    rwa [id_of_contractById? h hid]
  · intro hc
    exact ⟨c.id, hc⟩

theorem all_sorted (h : build order catalog units = .ok m) :
    m.all.Pairwise fun c d => c.id < d.id := by
  rw [all, values_eq_map_toList, List.pairwise_map]
  refine Std.ExtTreeMap.ordered_keys_toList.imp_of_mem ?_
  rintro ⟨id, c⟩ ⟨id', d⟩ hc hd hlt
  rw [id_of_contractById? h (Std.ExtTreeMap.mem_toList_iff_getElem?_eq_some.1 hc),
    id_of_contractById? h (Std.ExtTreeMap.mem_toList_iff_getElem?_eq_some.1 hd)]
  exact compare_lt_iff_lt.1 hlt

/-! ### Units without members -/

/-- The node of a contract without members. -/
def bareContract (id : Int) (name : String) (bases : List Int) : Ast.Node where
  form := .flat
  kind := "ContractDefinition"
  id := some id
  src := some "0:13:0"
  properties := some [("abstract", .bool false), ("name", .str name),
    ("baseContracts", .ofList (fun b => .obj [("baseName", .obj [("referencedDeclaration",
      .int b)])]) bases)]
  children := some []

/-- A unit with contracts and exported symbols. -/
def bareUnit (symbols : List (String × Int)) (contracts : List Ast.Node) : Ast.SourceUnit where
  root :=
    { form := .flat
      kind := "SourceUnit"
      id := none
      src := none
      properties := some [("exportedSymbols",
        .obj (symbols.map fun (name, id) => (name, .arr [.int id])))]
      children := some contracts }

end Model
end CodeAtlas
