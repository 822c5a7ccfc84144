import CodeAtlas.Proofs.Contract.Index

/-! Which contracts are left after pruning. A base is known by its identity, but it is crossed out by
the name under which it is called, and so is every contract of that name. -/
namespace CodeAtlas

/-- A contract that can be deployed. -/
def Contract.IsConcrete (c : Contract) : Prop := c.kind = .contract ∧ c.isAbstract = false

instance (c : Contract) : Decidable c.IsConcrete :=
  inferInstanceAs (Decidable (c.kind = .contract ∧ c.isAbstract = false))

theorem ContractKind.isInterfaceOrLibrary_eq_false {kind : ContractKind} :
    kind.isInterfaceOrLibrary = false ↔ kind = .contract := by
  cases kind with
  | contract => simp [isInterfaceOrLibrary]
  | interface => simp [isInterfaceOrLibrary]
  | library => simp [isInterfaceOrLibrary]

namespace Model

variable {order : Traversal} {catalog : Catalog} {units : List KeyedUnit} {m : Model} {c : Contract}

/-- The identities that some contract lists among its bases. -/
def baseIds (m : Model) : List Int := m.all.flatMap (·.bases)

/-- What a base is called: the symbol that names it, else the name of the contract there. -/
def called? (m : Model) (id : Int) : Option String :=
  (m.symbol? id).or ((m.contractById? id).map (·.name))

/-- No base, but crossed out for one that is called by the contract's name. -/
def Hidden (m : Model) (c : Contract) : Prop :=
  c.id ∉ m.baseIds ∧ ∃ b ∈ m.baseIds, m.called? b = some c.name

/-- A base, but not crossed out, since it is exported under another name and no other base is called
by its own. -/
def LetThrough (m : Model) (c : Contract) : Prop :=
  c.id ∈ m.baseIds ∧ m.exportName c ≠ c.name ∧
    ∀ b ∈ m.baseIds, b ≠ c.id → m.called? b ≠ some c.name

instance (m : Model) (c : Contract) : Decidable (m.Hidden c) :=
  inferInstanceAs (Decidable (_ ∧ _))

instance (m : Model) (c : Contract) : Decidable (m.LetThrough c) :=
  inferInstanceAs (Decidable (_ ∧ _))

theorem mem_baseNames {name : String} :
    name ∈ m.baseNames ↔ ∃ b ∈ m.baseIds, m.called? b = some name := by
  rw [baseNames, Std.ExtTreeSet.mem_ofList, List.contains_iff_mem, List.mem_filterMap]
  rfl

theorem mem_pruned :
    c ∈ m.pruned ↔
      c ∈ m.all ∧ c.IsConcrete ∧ ∀ b ∈ m.baseIds, m.called? b ≠ some c.name := by
  have hname : m.baseNames.contains c.name = false ↔
      ∀ b ∈ m.baseIds, m.called? b ≠ some c.name := by
    rw [← Bool.not_eq_true, ← Std.ExtTreeSet.mem_iff_contains, mem_baseNames]
    simp
  simp only [pruned, List.mem_filter, Bool.and_eq_true, Bool.not_eq_true', hname,
    ContractKind.isInterfaceOrLibrary_eq_false, Contract.IsConcrete]
  tauto

theorem called?_id (h : build order catalog units = .ok m) (hc : c ∈ m.all) :
    m.called? c.id = some (m.exportName c) := by
  rw [called?, exportName, (mem_all h).1 hc]
  cases m.symbol? c.id with
  | none => rfl
  | some name => rfl

/-- A contract of the model is called by the names of bases just when it is a base, unless it is
hidden or let through. -/
theorem called_iff_base (h : build order catalog units = .ok m) (hc : c ∈ m.all) :
    ((∃ b ∈ m.baseIds, m.called? b = some c.name) ↔ c.id ∈ m.baseIds) ↔
      ¬ m.Hidden c ∧ ¬ m.LetThrough c := by
  have hcalled := called?_id h hc
  constructor
  · intro hiff
    refine ⟨fun hhidden => hhidden.1 (hiff.1 hhidden.2), ?_⟩
    rintro ⟨hbase, hexport, hothers⟩
    obtain ⟨b, hb, hname⟩ := hiff.2 hbase
    by_cases hid : b = c.id
    · rw [hid, hcalled] at hname
      exact hexport (Option.some.inj hname)
    · exact hothers b hb hid hname
  · rintro ⟨hhidden, hthrough⟩
    constructor
    · intro hname
      by_contra hbase
      exact hhidden ⟨hbase, hname⟩
    · intro hbase
      by_contra hname
      refine hthrough ⟨hbase, ?_, fun b hb _ hb' => hname ⟨b, hb, hb'⟩⟩
      intro hexport
      exact hname ⟨c.id, hbase, by rw [hcalled, hexport]⟩

/-- What is left are the concrete contracts whose names no base is called by. For a contract this is
the same as being concrete and no base just when, if it is concrete, it is neither hidden nor let
through. -/
theorem mem_pruned_iff_not_base (order : Traversal) (catalog : Catalog) (units : List KeyedUnit)
    (m : Model) (h : build order catalog units = .ok m) :
    (∀ c, c ∈ m.pruned ↔
      c ∈ m.all ∧ c.IsConcrete ∧ ∀ b ∈ m.baseIds, m.called? b ≠ some c.name) ∧
    ∀ c ∈ m.all,
      ((c ∈ m.pruned ↔
        (∀ d ∈ m.all, c.id ∉ d.bases) ∧ c.kind = .contract ∧ c.isAbstract = false) ↔
      (c.IsConcrete → ¬ m.Hidden c ∧ ¬ m.LetThrough c)) := by
  refine ⟨fun c => mem_pruned, fun c hc => ?_⟩
  have hbase : (∀ d ∈ m.all, c.id ∉ d.bases) ↔ c.id ∉ m.baseIds := by simp [baseIds]
  have hcalled := called_iff_base h hc
  have hname : (∀ b ∈ m.baseIds, m.called? b ≠ some c.name) ↔
      ¬ ∃ b ∈ m.baseIds, m.called? b = some c.name := by simp
  rw [mem_pruned, hbase, hname, ← hcalled]
  by_cases hconcrete : c.IsConcrete
  · have hparts : c.kind = .contract ∧ c.isAbstract = false := hconcrete
    simp only [hc, hconcrete, hparts, true_and, and_true, true_imp_iff]
    exact not_iff_not
  · have hparts : ¬ (c.kind = .contract ∧ c.isAbstract = false) := hconcrete
    simp only [hconcrete, hparts, false_and, and_false, false_imp_iff]

/-! ### Two files -/

/-- A file with a base and its heir, and one that exports the base under another name and gives its
own name to another contract. No identity has two names, so every traversal gives the same model. -/
def renamedBase : List KeyedUnit :=
  [("a.sol", bareUnit [("A", 1), ("B", 2)] [bareContract 1 "A" [], bareContract 2 "B" [1]]),
    ("b.sol", bareUnit [("A", 3), ("Z", 1)] [bareContract 3 "A" []])]

/-- A file with a base and its heir, and one with another contract of the base's name. -/
def repeatedName : List KeyedUnit :=
  [("a.sol", bareUnit [("A", 1), ("B", 2)] [bareContract 1 "A" [], bareContract 2 "B" [1]]),
    ("b.sol", bareUnit [("A", 3)] [bareContract 3 "A" []])]

/-- The base is let through. -/
theorem mem_pruned_iff_not_base_renamed :
    ∃ m, build .ascending (.ofFiles []) renamedBase = .ok m ∧ ∃ c ∈ m.all, c.IsConcrete ∧ m.LetThrough c ∧
      ¬ (c ∈ m.pruned ↔
        (∀ d ∈ m.all, c.id ∉ d.bases) ∧ c.kind = .contract ∧ c.isAbstract = false) := by
  obtain ⟨m, hm, c, hc, hconcrete, hthrough⟩ : ∃ m, build .ascending (.ofFiles []) renamedBase = .ok m ∧
      ∃ c ∈ m.all, c.IsConcrete ∧ m.LetThrough c := exists_of_any_ok (by decide +kernel)
  refine ⟨m, hm, c, hc, hconcrete, hthrough, fun hiff => ?_⟩
  have hsame := ((mem_pruned_iff_not_base _ _ _ m hm).2 c hc).1 hiff
  exact (hsame hconcrete).2 hthrough

/-- The other contract is hidden, although it is concrete and no base. -/
theorem leaf_pruned :
    ∃ m, build .ascending (.ofFiles []) repeatedName = .ok m ∧
      ∃ c ∈ m.all, (∀ d ∈ m.all, c.id ∉ d.bases) ∧ c.kind = .contract ∧ c.isAbstract = false ∧
        c ∉ m.pruned := by
  obtain ⟨m, hm, c, hc, ⟨hkind, hconcrete⟩, hbase, b, hb, hname⟩ :
      ∃ m, build .ascending (.ofFiles []) repeatedName = .ok m ∧ ∃ c ∈ m.all, c.IsConcrete ∧ m.Hidden c :=
    exists_of_any_ok (by decide +kernel)
  refine ⟨m, hm, c, hc, by simpa [baseIds] using hbase, hkind, hconcrete, ?_⟩
  intro hpruned
  exact (mem_pruned.1 hpruned).2.2 b hb hname

end Model
end CodeAtlas
