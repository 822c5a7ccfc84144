import CodeAtlas.Proofs.Artifact.Loading
import CodeAtlas.Proofs.Artifact.Record
import CodeAtlas.Proofs.Lookup
import Mathlib.Data.Option.Basic

/-! The two shapes of combined output say the same: it does not matter whether each contract carries
the tree of its file, or the trees are set apart by file. -/
namespace CodeAtlas

/-! ### Tables -/

namespace Json

variable {α : Type} {f : Json → Option α} {members : List (String × Json)}
  {entries : List (String × α)} {m : Std.ExtTreeMap String α}

theorem table?_of_forall {k : String → α} (h : ∀ e ∈ members, f e.2 = some (k e.1)) :
    table? f (.obj members) = some (members.map fun e => (e.1, k e.1)) := by
  show members.mapM _ = _
  induction members with
  | nil => rfl
  | cons e members ih =>
    obtain ⟨he, hmembers⟩ := List.forall_mem_cons.1 h
    simp [he, ih hmembers]

theorem exists_table?_of_forall (h : ∀ e ∈ members, ∃ a, f e.2 = some a) :
    ∃ entries, table? f (.obj members) = some entries := by
  show ∃ entries, members.mapM _ = _
  induction members with
  | nil => exact ⟨[], rfl⟩
  | cons e members ih =>
    obtain ⟨⟨a, ha⟩, hmembers⟩ := List.forall_mem_cons.1 h
    obtain ⟨entries, hentries⟩ := ih hmembers
    exact ⟨(e.1, a) :: entries, by simp [ha, hentries]⟩

/-- A table keeps the keys and decodes what is under them. -/
theorem table?_lookup (h : table? f (.obj members) = some entries) :
    entries.map (·.1) = members.map (·.1) ∧
      ∀ key, (members.lookup key).map f = (entries.lookup key).map some := by
  change members.mapM _ = some entries at h
  induction members generalizing entries with
  | nil =>
    cases h
    simp
  | cons e members ih =>
    obtain ⟨name, v⟩ := e
    simp only [List.mapM_cons, Option.bind_eq_bind, Option.bind_eq_some_iff,
      Option.map_eq_some_iff] at h
    obtain ⟨_, ⟨a, ha, rfl⟩, rest, hrest, hentries⟩ := h
    cases hentries
    obtain ⟨hkeys, hlookup⟩ := ih hrest
    refine ⟨by simp [hkeys], fun key => ?_⟩
    by_cases hkey : key = name
    · subst hkey
      simp [ha]
    · simpa [List.lookup_cons, beq_false_of_ne hkey] using hlookup key

/-- Where no key stands twice, an object decodes to the one map that has under each key what the
object's value decodes to. The order of the members does not matter. -/
theorem table?_map_ofList_eq_some_iff (hkeys : (members.map (·.1)).Nodup) :
    (table? f (.obj members)).map (Std.ExtTreeMap.ofList · compare) = some m ↔
      ∀ key, (members.lookup key).map f = m[key]?.map some := by
  have hholds : ∀ entries, table? f (.obj members) = some entries → ∀ key,
      (members.lookup key).map f = (Std.ExtTreeMap.ofList entries compare)[key]?.map some := by
    intro entries hentries key
    obtain ⟨hsame, hlookup⟩ := table?_lookup hentries
    rw [hlookup, getElem?_ofList, lookup_reverse (hsame ▸ hkeys)]
  constructor
  · intro h
    obtain ⟨entries, hentries, rfl⟩ := Option.map_eq_some_iff.1 h
    exact hholds entries hentries
  · intro h
    obtain ⟨entries, hentries⟩ : ∃ entries, table? f (.obj members) = some entries := by
      apply exists_table?_of_forall
      intro e he
      have hkey := h e.1
      rw [(lookup_eq_some_iff_mem (unique_of_nodup hkeys)).2 he] at hkey
      obtain ⟨a, _, ha⟩ := Option.map_eq_some_iff.1 hkey.symm
      exact ⟨a, ha.symm⟩
    rw [hentries, Option.map_some]
    congr 1
    apply Std.ExtTreeMap.ext_getElem?
    intro key
    have hsame := (hholds entries hentries key).symm.trans (h key)
    exact Option.map_injective (Option.some_injective α) hsame

end Json

namespace Combined

variable {trees : String → Option Json} {tree : Option Json} {bare carrying entry : Json}
  {flat contracts sources top : List (String × Json)} {o : ContractOutput}

/-- The tree that a member states: none if it is missing or `null`. -/
def stated : Option Json → Option Json
  | some .null => none
  | tree => tree

/-- A contract without a tree, and the same contract with the tree of its file. -/
inductive Carries (tree : Option Json) : Json → Json → Prop
  | obj {bare carrying : List (String × Json)} (hbare : stated (bare.lookup "ast") = none)
      (htree : stated (carrying.lookup "ast") = stated tree)
      (hrest : ∀ key, key ≠ "ast" → carrying.lookup key = bare.lookup key) :
      Carries tree (.obj bare) (.obj carrying)

/-- The entry of a file states a tree under one of its two names. -/
inductive States (tree : Option Json) : Json → Prop
  | lower {members : List (String × Json)} (hupper : members.lookup "AST" = none)
      (htree : stated (members.lookup "ast") = stated tree) : States tree (.obj members)
  | upper {members : List (String × Json)} (hlower : members.lookup "ast" = none)
      (htree : stated (members.lookup "AST") = stated tree) : States tree (.obj members)

/-- Output in both shapes, given the tree of each path: the contracts that carry their trees, and
the contracts without them beside the entries of the files. -/
structure SetApart (trees : String → Option Json) (flat contracts sources : List (String × Json)) :
    Prop where
  names : (contracts.map (·.1)).Nodup
  flatNames : (flat.map (·.1)).Nodup
  carried : ∀ name, Option.Rel (Carries (trees (pathOf name))) (contracts.lookup name)
    (flat.lookup name)
  unreserved : ∀ c ∈ flat, c.1 ≠ "contracts"
  entries : ∀ e ∈ sources, States (trees e.1) e.2
  covered : ∀ c ∈ contracts, stated (trees (pathOf c.1)) ≠ none →
    pathOf c.1 ∈ sources.map (·.1)

/-! ### One contract, one file -/

theorem nullable?_any (v : Json) : Json.nullable? Json.any? v = some (stated (some v)) := by
  cases v <;> rfl

theorem optional?_any (key : String) (fields : List (String × Json)) :
    Json.optional? key Json.any? fields = some (stated (fields.lookup key)) := by
  unfold Json.optional? Json.defaulting?
  cases fields.lookup key with
  | none => rfl
  | some v => exact nullable?_any v

theorem Carries.ast_eq_none (h : Carries tree bare carrying)
    (ho : ContractOutput.ofJson? bare = some o) : o.ast = none := by
  cases h with
  | obj hbare _ _ =>
    obtain ⟨_, hfields, hast, _⟩ := ContractOutput.ofJson?_eq_some.1 ho
    cases hfields
    rw [optional?_any, hbare] at hast
    exact (Option.some.inj hast).symm

/-- A contract with its tree decodes as the one without, but for the tree. -/
theorem Carries.ofJson? (h : Carries tree bare carrying) :
    ContractOutput.ofJson? carrying =
      (ContractOutput.ofJson? bare).map fun o => { o with ast := stated tree } := by
  cases h with
  | @obj bare carrying hbare htree hrest =>
    have hfield : ∀ {α : Type} (key : String) (f : Json → Option α), key ≠ "ast" →
        Json.optional? key f carrying = Json.optional? key f bare := by
      intro α key f hkey
      rw [Json.optional?, Json.defaulting?, hrest key hkey]
      rfl
    ext o
    rw [Option.map_eq_some_iff, ContractOutput.ofJson?_eq_some]
    constructor
    · rintro ⟨_, hfields, hast, hothers⟩
      cases hfields
      simp (disch := decide) only [hfield] at hothers
      rw [optional?_any, htree] at hast
      refine ⟨{ o with ast := none }, ContractOutput.ofJson?_eq_some.2
        ⟨bare, rfl, by rw [optional?_any, hbare], hothers⟩, ?_⟩
      rw [Option.some.inj hast]
    · rintro ⟨plain, hplain, rfl⟩
      obtain ⟨_, hfields, _, hothers⟩ := ContractOutput.ofJson?_eq_some.1 hplain
      cases hfields
      refine ⟨carrying, rfl, by rw [optional?_any, htree], ?_⟩
      simp (disch := decide) only [hfield]
      exact hothers

theorem States.tree? (h : States tree entry) : tree? entry = some (stated tree) := by
  cases h with
  | @lower members hupper htree =>
    rw [Combined.tree?, hupper, ← htree]
    cases members.lookup "ast" with
    | none => rfl
    | some v => exact nullable?_any v
  | @upper members hlower htree =>
    rw [Combined.tree?, hlower, ← htree]
    cases members.lookup "AST" with
    | none => rfl
    | some v => exact nullable?_any v

/-! ### All contracts -/

/-- An output with the tree of its file. -/
def attached (trees : String → Option Json) (name : String) (o : ContractOutput) : ContractOutput :=
  { o with ast := stated (trees (pathOf name)) }

namespace SetApart

variable (h : SetApart trees flat contracts sources)
include h

/-- Under a name the shapes have the same contract, but for its tree, or none. -/
theorem decoded_eq (name : String) :
    (flat.lookup name).map ContractOutput.ofJson? =
      (contracts.lookup name).map fun v =>
        (ContractOutput.ofJson? v).map (attached trees name) := by
  have hrel := h.carried name
  generalize contracts.lookup name = bare, flat.lookup name = carrying at hrel ⊢
  cases hrel with
  | none => rfl
  | some hcarries => exact congrArg some hcarries.ofJson?

theorem outputs?_flat :
    outputs? (.obj flat) = (outputs? (.obj contracts)).map (·.map (attached trees)) := by
  cases hbare : outputs? (.obj contracts) with
  | some outputs =>
    have hnames := (Json.table?_map_ofList_eq_some_iff h.names).1 hbare
    refine (Json.table?_map_ofList_eq_some_iff h.flatNames).2 fun name => ?_
    have hname := congrArg (Option.map (Option.map (attached trees name))) (hnames name)
    rw [h.decoded_eq, Std.ExtTreeMap.getElem?_map, Option.map_map]
    simpa [Function.comp_def] using hname
  | none =>
    by_contra hsome
    obtain ⟨outputs, houtputs⟩ := Option.ne_none_iff_exists'.1 hsome
    have hnames := (Json.table?_map_ofList_eq_some_iff h.flatNames).1 houtputs
    -- What decodes with its tree decodes without it, so the other shape cannot fail alone.
    obtain ⟨entries, hentries⟩ : ∃ entries,
        Json.table? ContractOutput.ofJson? (.obj contracts) = some entries := by
      apply Json.exists_table?_of_forall
      intro c hc
      have hname := (h.decoded_eq c.1).symm.trans (hnames c.1)
      rw [(lookup_eq_some_iff_mem (unique_of_nodup h.names)).2 hc] at hname
      obtain ⟨_, _, ho⟩ := Option.map_eq_some_iff.1 hname.symm
      obtain ⟨o, ho, _⟩ := Option.map_eq_some_iff.1 ho.symm
      exact ⟨o, ho⟩
    simp [outputs?, hentries] at hbare

theorem table?_sources :
    Json.table? tree? (.obj sources) = some (sources.map fun e => (e.1, stated (trees e.1))) :=
  Json.table?_of_forall (k := fun path => stated (trees path)) fun e he => (h.entries e he).tree?

/-- The entries of the files give every contract its tree. -/
theorem join_lookup {c : String × Json} (hc : c ∈ contracts) :
    ((sources.map fun e => (e.1, stated (trees e.1))).lookup (pathOf c.1)).join =
      stated (trees (pathOf c.1)) := by
  rw [lookup_map fun path _ => stated (trees path)]
  cases hlookup : sources.lookup (pathOf c.1) with
  | some entry => rfl
  | none =>
    by_contra hne
    obtain ⟨e, he, hpath⟩ := List.mem_map.1 (h.covered c hc (Ne.symm hne))
    have hnot := List.lookup_eq_none_iff.1 hlookup e he
    simp [hpath] at hnot

/-- No contract has a tree of its own, so it gets the one of its file. -/
theorem map_withTree {outputs : Outputs} (houtputs : outputs? (.obj contracts) = some outputs) :
    (outputs.map fun name o => o.withTree
      ((sources.map fun e => (e.1, stated (trees e.1))).lookup (pathOf name)).join) =
      outputs.map (attached trees) := by
  apply Std.ExtTreeMap.ext_getElem?
  intro name
  rw [Std.ExtTreeMap.getElem?_map, Std.ExtTreeMap.getElem?_map]
  have hname := (Json.table?_map_ofList_eq_some_iff h.names).1 houtputs name
  cases ho : outputs[name]? with
  | none => rfl
  | some o =>
    rw [ho, Option.map_some] at hname
    obtain ⟨bare, hbare, hdecoded⟩ := Option.map_eq_some_iff.1 hname
    have hrel := h.carried name
    rw [hbare] at hrel
    generalize flat.lookup name = carrying at hrel
    cases hrel with
    | some hcarries =>
      simp only [Option.map_some, ContractOutput.withTree, attached,
        h.join_lookup (mem_of_lookup hbare), hcarries.ast_eq_none hdecoded, Option.none_or]

/-- Contracts that carry their trees decode as the ones without, each with the tree of its file. -/
theorem decode_flat :
    decode (.obj flat) =
      decoded ((outputs? (.obj contracts)).map fun outputs =>
        (outputs.map (attached trees), none)) := by
  have hlookup : flat.lookup "contracts" = none := by
    rw [List.lookup_eq_none_iff]
    intro c hc
    simpa using Ne.symm (h.unreserved c hc)
  simp only [decode, hlookup]
  rw [h.outputs?_flat, Option.map_map]
  rfl

theorem decode_grouped (hcontracts : top.lookup "contracts" = some (.obj contracts))
    (hsources : top.lookup "sources" = some (.obj sources))
    (hlist : top.lookup "sourceList" = none) :
    decode (.obj top) =
      decoded ((outputs? (.obj contracts)).map fun outputs =>
        (outputs.map (attached trees), none)) := by
  simp only [decode, hcontracts]
  congr 1
  simp only [grouped?, Json.required?, Json.optional?, Json.defaulting?, hcontracts, hsources,
    hlist, h.table?_sources, Option.bind_some, Option.bind_eq_bind]
  cases houtputs : outputs? (.obj contracts) with
  | none => rfl
  | some outputs =>
    simp only [Option.bind_some, Option.map_some, h.map_withTree houtputs]
    rfl

end SetApart

/-- The tree of a file with two contracts. -/
def sharedTree : Json := .obj [("name", .str "SourceUnit")]

/-- The trees of the files in the sample. -/
def sampleTrees (path : String) : Option Json :=
  if path = "lib:a.sol" then some sharedTree else none

/-- The contracts of the sample without their trees. -/
def bareContracts : List (String × Json) :=
  [("lib:a.sol:A", .obj [("bin", .str "00")]),
    ("lib:a.sol:B", .obj [("bin", .str "01"), ("ast", .null)]), ("b.sol:C", .obj [])]

/-- The contracts of the sample with their trees. -/
def carryingContracts : List (String × Json) :=
  [("b.sol:C", .obj [("ast", .null)]),
    ("lib:a.sol:B", .obj [("ast", sharedTree), ("bin", .str "01")]),
    ("lib:a.sol:A", .obj [("bin", .str "00"), ("ast", sharedTree)])]

/-- The entries of the files in the sample. -/
def fileEntries : List (String × Json) :=
  [("lib:a.sol", .obj [("AST", sharedTree)]), ("b.sol", .obj [("id", .int 1), ("ast", .null)])]

theorem setApart_sample : SetApart sampleTrees carryingContracts bareContracts fileEntries where
  names := by decide
  flatNames := by decide
  carried := by
    intro name
    by_cases hA : name = "lib:a.sol:A"
    · subst hA
      have htree : sampleTrees (pathOf "lib:a.sol:A") = some sharedTree := if_pos (by decide)
      rw [htree]
      exact .some (.obj rfl rfl fun key hkey => by
        simp [List.lookup_cons, beq_false_of_ne hkey])
    by_cases hB : name = "lib:a.sol:B"
    · subst hB
      have htree : sampleTrees (pathOf "lib:a.sol:B") = some sharedTree := if_pos (by decide)
      rw [htree]
      exact .some (.obj rfl rfl fun key hkey => by
        simp [List.lookup_cons, beq_false_of_ne hkey])
    by_cases hC : name = "b.sol:C"
    · subst hC
      have htree : sampleTrees (pathOf "b.sol:C") = none := if_neg (by decide)
      rw [htree]
      exact .some (.obj rfl rfl fun key hkey => by
        simp [List.lookup_cons, beq_false_of_ne hkey])
    simp only [bareContracts, carryingContracts, List.lookup_cons, beq_false_of_ne hA,
      beq_false_of_ne hB, beq_false_of_ne hC, List.lookup_nil]
    exact .none
  unreserved := by simp [carryingContracts]
  entries := by
    simp only [fileEntries, List.forall_mem_cons]
    exact ⟨.upper rfl rfl, .lower rfl rfl, by simp⟩
  covered := by
    have hall : ∀ c ∈ bareContracts.map (·.1), pathOf c ∈ fileEntries.map (·.1) := by decide
    exact fun c hc _ => hall c.1 (List.mem_map_of_mem hc)

end Combined
end CodeAtlas
