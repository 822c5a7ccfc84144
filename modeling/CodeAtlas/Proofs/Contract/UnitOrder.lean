import CodeAtlas.Proofs.Contract.Index
import Mathlib.Data.List.Nodup

/-! The order of units does not matter to their model, as long as no two of them contradict each
other. What a unit adds to the model then stays there, whatever units come before or after it. -/
namespace CodeAtlas.Model

variable {order order' : Traversal} {catalog : Catalog} {units units' : List KeyedUnit}
  {u v : KeyedUnit} {m : Model} {id : Int} {name : String} {c : Contract} {contracts : List (List Contract)}

/-- A unit declares a contract with an identity. -/
def Declares (u : KeyedUnit) (id : Int) : Prop := ∃ n ∈ u.2.contracts, n.id = some id

/-- Units that do not contradict each other: each has a key of its own, no identity is declared in
two of them, no name is exported with two identities, and no identity under two names. -/
structure Consistent (units : List KeyedUnit) : Prop where
  keys : (units.map (·.1)).Nodup
  ids : ∀ u ∈ units, ∀ v ∈ units, ∀ id, Declares u id → Declares v id → u.1 = v.1
  symbols : ∀ u ∈ units, ∀ v ∈ units, ∀ name a b,
    Units.exportIn? name u = some a → Units.exportIn? name v = some b → a = b
  names : ∀ u ∈ units, ∀ v ∈ units, ∀ id a b,
    Units.exportIn? a u = some id → Units.exportIn? b v = some id → a = b

theorem Consistent.perm (h : Consistent units) (hperm : units.Perm units') : Consistent units' where
  keys := (hperm.map _).nodup_iff.1 h.keys
  ids u hu v hv := h.ids u (hperm.mem_iff.2 hu) v (hperm.mem_iff.2 hv)
  symbols u hu v hv := h.symbols u (hperm.mem_iff.2 hu) v (hperm.mem_iff.2 hv)
  names u hu v hv := h.names u (hperm.mem_iff.2 hu) v (hperm.mem_iff.2 hv)

theorem Consistent.eq_of_key (h : Consistent units) (hu : u ∈ units) (hv : v ∈ units)
    (hkey : u.1 = v.1) : u = v :=
  List.inj_on_of_nodup_map h.keys hu hv hkey

theorem Consistent.distinct_eq (h : Consistent units) : distinct units = units :=
  distinct_of_pairwise (List.pairwise_map.1 h.keys)

/-! ### What a unit adds -/

theorem mem_of_exportIn? (h : Units.exportIn? name u = some id) :
    (name, id) ∈ u.2.root.exportedSymbols :=
  List.mem_reverse.1 (mem_of_lookup h)

/-- The contract that a unit has under an identity: the last one that it declares with it. -/
def declaredIn? (catalog : Catalog) (id : Int) (u : KeyedUnit) : Option Contract :=
  (declared catalog u).toOption.bind fun contracts => contracts.reverse.find? (·.id == id)

theorem declares_of_declaredIn? (h : declaredIn? catalog id u = some c) : Declares u id := by
  obtain ⟨contracts, hcontracts, hfind⟩ := Option.bind_eq_some_iff.1 h
  have hdeclared : declared catalog u = .ok contracts := by
    cases hu : declared catalog u with
    | error e => simp [hu, Except.toOption] at hcontracts
    | ok found =>
      rw [hu] at hcontracts
      cases hcontracts
      rfl
  have hid : c.id = id := by simpa using List.find?_some hfind
  have hmem : c ∈ contracts := List.mem_reverse.1 (List.mem_of_find?_eq_some hfind)
  have htitle : c.title ∈ titlesIn u := by
    rw [titlesIn, ← map_of_mapM (fun n c hc => Contract.ofNode_title hc) hdeclared]
    exact List.mem_map_of_mem hmem
  obtain ⟨n, hn, hnode⟩ := List.mem_filterMap.1 htitle
  refine ⟨n, hn, ?_⟩
  rw [(Ast.Node.title?_eq_some.1 hnode).2.1, ← hid]
  rfl

/-- Of several units that declare an identity the last counts. -/
theorem getElem?_byId_flatten (h : units.mapM (declared catalog) = .ok contracts) (id : Int) :
    (byId contracts.flatten)[id]? = units.reverse.findSome? (declaredIn? catalog id) := by
  have heach : ∀ u cs, declared catalog u = .ok cs →
      some (declaredIn? catalog id u) = some (cs.reverse.find? (·.id == id)) := by
    intro u cs hcs
    simp [declaredIn?, hcs, Except.toOption]
  have hblocks := map_of_mapM heach h
  rw [List.filterMap_eq_map'] at hblocks
  calc (byId contracts.flatten)[id]?
      = ((contracts.map fun cs => cs.reverse.find? (·.id == id)).reverse).findSome? fun c => c := by
        rw [byId_getElem?, List.reverse_flatten, List.find?_flatten, ← List.map_reverse,
          ← List.map_reverse, List.findSome?_map, List.findSome?_map]
        rfl
    _ = units.reverse.findSome? (declaredIn? catalog id) := by
        rw [hblocks, ← List.map_reverse, List.findSome?_map]
        rfl

/-! ### What the model has -/

theorem Consistent.agree_declaredIn? (h : Consistent units) (id : Int) :
    Agree (declaredIn? catalog id) units := by
  intro u hu v hv c d hc hd
  have hkey := h.ids u hu v hv id (declares_of_declaredIn? hc) (declares_of_declaredIn? hd)
  rw [h.eq_of_key hu hv hkey, hd] at hc
  exact Option.some.inj hc.symm

/-- A contract is in the map just when some unit has it. -/
theorem Consistent.byId_iff (h : Consistent units)
    (hcontracts : units.mapM (declared catalog) = .ok contracts) :
    (byId contracts.flatten)[id]? = some c ↔ ∃ u ∈ units, declaredIn? catalog id u = some c := by
  rw [getElem?_byId_flatten hcontracts, (h.agree_declaredIn? id).reverse.findSome?_iff]
  simp

/-- A symbol is in the table just when some unit exports it. -/
theorem Consistent.symbols_iff (h : Consistent units) :
    (symbolsOf units)[name]? = some id ↔ ∃ u ∈ units, Units.exportIn? name u = some id := by
  have hagree : Agree (Units.exportIn? name) units :=
    fun u hu v hv a b => h.symbols u hu v hv name a b
  rw [getElem?_symbolsOf, hagree.reverse.findSome?_iff]
  simp

theorem Consistent.unaliased (h : Consistent units) : Unaliased (symbolsOf units) := by
  intro a b id ha hb
  obtain ⟨u, hu, ha⟩ := h.symbols_iff.1 ha
  obtain ⟨v, hv, hb⟩ := h.symbols_iff.1 hb
  exact h.names u hu v hv id a b ha hb

/-! ### Two orders -/

theorem Consistent.symbolsOf_perm (h : Consistent units) (hperm : units.Perm units') :
    symbolsOf units = symbolsOf units' := by
  apply Std.ExtTreeMap.ext_getElem?
  intro name
  apply Option.ext
  intro id
  rw [h.symbols_iff, (h.perm hperm).symbols_iff]
  simp only [hperm.mem_iff]

theorem Consistent.byId_perm (h : Consistent units) (hperm : units.Perm units')
    {contracts' : List (List Contract)} (hcontracts : units.mapM (declared catalog) = .ok contracts)
    (hcontracts' : units'.mapM (declared catalog) = .ok contracts') :
    byId contracts.flatten = byId contracts'.flatten := by
  apply Std.ExtTreeMap.ext_getElem?
  intro id
  apply Option.ext
  intro c
  rw [h.byId_iff hcontracts, (h.perm hperm).byId_iff hcontracts']
  simp only [hperm.mem_iff]

/-- What is built from units is built from them in any other order, by any traversal. -/
theorem Consistent.build_perm (h : Consistent units) (hperm : units.Perm units')
    (hm : build order catalog units = .ok m) : build order' catalog units' = .ok m := by
  obtain ⟨contracts, hcontracts, rfl⟩ := build_eq_ok.1 hm
  rw [h.distinct_eq] at hcontracts ⊢
  have hok : (units'.mapM (declared catalog)).isOk = true := by
    rw [isOk_mapM, ← hperm.all_eq, ← isOk_mapM, hcontracts]
    rfl
  obtain ⟨contracts', hcontracts'⟩ := exists_ok_of_isOk hok
  rw [build_eq_ok, (h.perm hperm).distinct_eq]
  refine ⟨contracts', hcontracts', ?_⟩
  rw [h.byId_perm hperm hcontracts hcontracts', namesOf_eq h.unaliased order order',
    h.symbolsOf_perm hperm]

/-- Units that do not contradict each other have the same model in every order and by every traversal,
or none in any. Its symbols are all that the units export, and the names under identities are those
symbols read backwards. -/
theorem build_iff_of_perm (order order' : Traversal) (catalog : Catalog)
    (units units' : List KeyedUnit) (hconsistent : Consistent units) (hperm : units.Perm units') (m : Model) :
    (build order catalog units = .ok m ↔ build order' catalog units' = .ok m) ∧
      (build order catalog units = .ok m →
        (∀ (name : String) (id : Int), m.symbols[name]? = some id ↔
          ∃ u ∈ units, Units.exportIn? name u = some id) ∧
        ∀ (name : String) (id : Int), m.names[id]? = some name ↔ m.symbols[name]? = some id) := by
  refine ⟨⟨hconsistent.build_perm hperm, (hconsistent.perm hperm).build_perm hperm.symm⟩, ?_⟩
  intro hm
  obtain ⟨contracts, _, rfl⟩ := build_eq_ok.1 hm
  rw [hconsistent.distinct_eq]
  exact ⟨fun name id => hconsistent.symbols_iff,
    fun name id => getElem?_namesOf hconsistent.unaliased⟩

/-- Consistency can be seen from what units list, entry by entry. -/
theorem consistent_of_lists (hkeys : (units.map (·.1)).Nodup)
    (hids : ∀ u ∈ units, ∀ v ∈ units, ∀ n ∈ u.2.contracts, ∀ k ∈ v.2.contracts,
      n.id = k.id → n.id = none ∨ u.1 = v.1)
    (hexports : ∀ u ∈ units, ∀ v ∈ units, ∀ p ∈ u.2.root.exportedSymbols,
      ∀ q ∈ v.2.root.exportedSymbols, p.1 = q.1 ↔ p.2 = q.2) : Consistent units where
  keys := hkeys
  ids := by
    rintro u hu v hv id ⟨n, hn, hnid⟩ ⟨k, hk, hkid⟩
    have hsame := hids u hu v hv n hn k hk (hnid.trans hkid.symm)
    simpa [hnid] using hsame
  symbols u hu v hv name a b ha hb :=
    (hexports u hu v hv (name, a) (mem_of_exportIn? ha) (name, b) (mem_of_exportIn? hb)).1 rfl
  names u hu v hv id a b ha hb :=
    (hexports u hu v hv (a, id) (mem_of_exportIn? ha) (b, id) (mem_of_exportIn? hb)).2 rfl

/-- A file with an heir, before the file with its base. Both export the base. -/
def heirFirst : List KeyedUnit :=
  [("b.sol", bareUnit [("A", 1), ("B", 2)] [bareContract 2 "B" [1]]),
    ("a.sol", bareUnit [("A", 1)] [bareContract 1 "A" []])]

theorem build_iff_of_perm_heir :
    Consistent heirFirst ∧ heirFirst.Perm heirFirst.reverse ∧
      ∃ m, build .ascending (.ofFiles []) heirFirst = .ok m ∧ build .ascending (.ofFiles []) heirFirst.reverse = .ok m ∧
        m.names[(1 : Int)]? = some "A" := by
  have hconsistent : Consistent heirFirst :=
    consistent_of_lists (by decide +kernel) (by decide +kernel) (by decide +kernel)
  have hperm : heirFirst.Perm heirFirst.reverse := heirFirst.reverse_perm.symm
  obtain ⟨m, hm, hsymbol⟩ : ∃ m, build .ascending (.ofFiles []) heirFirst = .ok m ∧
      m.symbols["A"]? = some 1 := exists_of_any_ok (by decide +kernel)
  obtain ⟨hsame, hnames⟩ := build_iff_of_perm .ascending .ascending (.ofFiles []) _ _
    hconsistent hperm m
  exact ⟨hconsistent, hperm, m, hm, hsame.1 hm, ((hnames hm).2 "A" 1).2 hsymbol⟩

end CodeAtlas.Model
