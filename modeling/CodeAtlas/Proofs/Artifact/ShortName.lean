import CodeAtlas.Proofs.Artifact.Loading
import CodeAtlas.Proofs.Contract.Index
import Mathlib.Data.String.Basic

/-! Which contract a short name stands for. The outputs are searched from the first file on, but in
the model the last file that exports the name decides. -/
namespace CodeAtlas

theorem keys_sorted {β : Type} (t : Std.ExtTreeMap String β) : t.keys.Pairwise (· < ·) :=
  Std.ExtTreeMap.ordered_keys.imp compare_lt_iff_lt.1

open Model (KeyedUnit titlesIn)

/-! ### What trees say -/

namespace Units

variable {β : Type} {units : Units} {f : KeyedUnit → Option β} {file : String} {x : β}

/-- The last file whose tree has something, and what it has. -/
def Last (units : Units) (f : KeyedUnit → Option β) (file : String) (x : β) : Prop :=
  (∃ u, units[file]? = some u ∧ f (file, u) = some x) ∧
    ∀ other v, units[other]? = some v → (f (other, v)).isSome = true → other ≤ file

theorem toList_sorted (units : Units) : units.toList.Pairwise fun u v => u.1 < v.1 :=
  Std.ExtTreeMap.ordered_keys_toList.imp compare_lt_iff_lt.1

theorem Last.unique {other : String} {y : β} (h : units.Last f file x)
    (h' : units.Last f other y) : x = y := by
  obtain ⟨⟨u, hu, hx⟩, hlast⟩ := h
  obtain ⟨⟨v, hv, hy⟩, hlast'⟩ := h'
  have hfile : file = other :=
    le_antisymm (hlast' file u hu (by simp [hx])) (hlast other v hv (by simp [hy]))
  subst hfile
  rw [hu] at hv
  cases hv
  rw [hx] at hy
  exact Option.some.inj hy

theorem exists_last (h : units.toList.reverse.findSome? f = some x) :
    ∃ file, units.Last f file x := by
  have hsorted : units.toList.reverse.Pairwise
      fun u v => OrderDual.toDual u.1 < OrderDual.toDual v.1 :=
    List.pairwise_reverse.2 units.toList_sorted
  obtain ⟨⟨file, u⟩, hu, hx, hlast⟩ := exists_of_findSome? hsorted h
  have hu := Std.ExtTreeMap.mem_toList_iff_getElem?_eq_some.1 (List.mem_reverse.1 hu)
  refine ⟨file, ⟨u, hu, hx⟩, fun other v hv hsome => ?_⟩
  have hv := Std.ExtTreeMap.mem_toList_iff_getElem?_eq_some.2 hv
  exact hlast (other, v) (List.mem_reverse.2 hv) hsome

/-- A search from the end finds what the last file has. -/
theorem findSome?_reverse_toList :
    units.toList.reverse.findSome? f = some x ↔ ∃ file, units.Last f file x := by
  refine ⟨exists_last, ?_⟩
  rintro ⟨file, hlast⟩
  obtain ⟨u, hu, hx⟩ := hlast.1
  have hmem : (file, u) ∈ units.toList.reverse :=
    List.mem_reverse.2 (Std.ExtTreeMap.mem_toList_iff_getElem?_eq_some.2 hu)
  have hsome : (units.toList.reverse.findSome? f).isSome = true :=
    List.findSome?_isSome_iff.2 ⟨(file, u), hmem, by simp [hx]⟩
  obtain ⟨y, hy⟩ := Option.isSome_iff_exists.1 hsome
  obtain ⟨other, hlast'⟩ := exists_last hy
  rw [hy, hlast.unique hlast']

/-- The title that a unit gives an identity: the last one with it. -/
def titleIn? (id : Int) (u : KeyedUnit) : Option Title := (titlesIn u).reverse.find? (·.id == id)

theorem unit_of_titleIn? {id : Int} {u : KeyedUnit} {t : Title} (h : titleIn? id u = some t) :
    t.unit = u.1 := by
  have hmem : t ∈ titlesIn u := List.mem_reverse.1 (List.mem_of_find?_eq_some h)
  obtain ⟨n, _, hn⟩ := List.mem_filterMap.1 hmem
  exact (Ast.Node.title?_eq_some.1 hn).1

/-- No later file defines the identity again. -/
def Holds (units : Units) (t : Title) : Prop := units.Last (titleIn? t.id) t.unit t

/-- The contract that a name means: the one that the last file to export the name exports under it.
If there is none, it is the first by identity that bears the name. -/
def Means (units : Units) (name : String) (t : Title) : Prop :=
  units.Holds t ∧
    ((∃ file, units.Last (exportIn? name) file t.id) ∨
      (∀ file id, units.Last (exportIn? name) file id → ∀ s, units.Holds s → s.id ≠ id) ∧
        t.name = name ∧ ∀ s, units.Holds s → s.name = name → t.id ≤ s.id)

theorem Holds.eq_of_id {s t : Title} (hs : units.Holds s) (ht : units.Holds t) (hid : s.id = t.id) :
    s = t := by
  unfold Holds at hs
  rw [hid] at hs
  exact hs.unique ht

theorem Means.unique {name : String} {s t : Title} (hs : units.Means name s)
    (ht : units.Means name t) : s = t := by
  obtain ⟨hholds, hs⟩ := hs
  obtain ⟨hholds', ht⟩ := ht
  apply hholds.eq_of_id hholds'
  rcases hs with ⟨file, hs⟩ | ⟨hnone, hname, hleast⟩
  · rcases ht with ⟨file', ht⟩ | ⟨hnone', _⟩
    · exact hs.unique ht
    · exact absurd rfl (hnone' file s.id hs s hholds)
  · rcases ht with ⟨file', ht⟩ | ⟨_, hname', hleast'⟩
    · exact absurd rfl (hnone file' t.id ht t hholds')
    · exact le_antisymm (hleast t hholds' hname') (hleast' s hholds hname)

end Units

/-! ### What the model takes from them -/

namespace Model

variable {order : Traversal} {catalog : Catalog} {units : Units} {m : Model} {name : String}
  {id : Int} {c : Contract} {t : Title}

theorem distinct_of_sorted {units : List KeyedUnit} (h : units.Pairwise fun u v => u.1 < v.1) :
    distinct units = units :=
  distinct_of_pairwise (h.imp ne_of_lt)

theorem title?_eq (units : List KeyedUnit) (id : Int) :
    title? units id = units.reverse.findSome? (Units.titleIn? id) := by
  rw [title?, List.reverse_flatMap, List.find?_flatMap]
  rfl

variable (h : build order catalog units.toList = .ok m)
include h

theorem getElem?_symbols :
    m.symbols[name]? = some id ↔ ∃ file, units.Last (Units.exportIn? name) file id := by
  obtain ⟨contracts, _, rfl⟩ := build_eq_ok.1 h
  rw [getElem?_symbolsOf, distinct_of_sorted units.toList_sorted, Units.findSome?_reverse_toList]

/-- The contracts of a model have the titles that no later file gives again. -/
theorem holds_iff : units.Holds t ↔ ∃ c, m.contractById? t.id = some c ∧ c.title = t := by
  have htitle := map_title_contractById? h t.id
  rw [distinct_of_sorted units.toList_sorted, title?_eq] at htitle
  constructor
  · intro ht
    rw [Units.findSome?_reverse_toList.2 ⟨t.unit, ht⟩] at htitle
    exact Option.map_eq_some_iff.1 htitle
  · rintro ⟨c, hc, rfl⟩
    rw [hc, Option.map_some, eq_comm, Units.findSome?_reverse_toList] at htitle
    obtain ⟨file, hlast⟩ := htitle
    obtain ⟨u, _, hu⟩ := hlast.1
    rw [Units.Holds, Units.unit_of_titleIn? hu]
    exact hlast

/-- A contract is found by its name through the exported symbols, or else by a search. -/
theorem means_of_contractByName (hc : m.contractByName name = .ok c) :
    units.Means name c.title := by
  rcases Option.or_eq_some_iff.1 (orError_eq_ok.1 hc) with hexport | ⟨hnone, hfound⟩
  · obtain ⟨id, hid, hcontract⟩ := Option.bind_eq_some_iff.1 hexport
    have heq : c.id = id := id_of_contractById? h hcontract
    subst heq
    exact ⟨(holds_iff h).2 ⟨c, hcontract, rfl⟩, Or.inl ((getElem?_symbols h).1 hid)⟩
  · have hmem : c ∈ m.all := List.mem_of_find?_eq_some hfound
    have hname : c.name = name := by simpa using List.find?_some hfound
    refine ⟨(holds_iff h).2 ⟨c, (mem_all h).1 hmem, rfl⟩, Or.inr ⟨?_, hname, ?_⟩⟩
    · intro file id hlast s hs hid
      obtain ⟨d, hd, _⟩ := (holds_iff h).1 hs
      rw [hid] at hd
      simp [(getElem?_symbols h).2 ⟨file, hlast⟩, hd] at hnone
    · intro s hs hsname
      obtain ⟨d, hd, rfl⟩ := (holds_iff h).1 hs
      exact le_of_find? (all_sorted h) hfound d ((mem_all h).2 hd) (beq_iff_eq.2 hsname)

theorem means_iff (hc : m.contractByName name = .ok c) : units.Means name t ↔ t = c.title := by
  have hmeans := means_of_contractByName h hc
  constructor
  · intro ht
    exact ht.unique hmeans
  · rintro rfl
    exact hmeans

end Model

/-! ### What is loaded -/

namespace Combined.Artifact

variable {a : Artifact} {name : String}

theorem model_of_load {order : Model.Traversal} {config : Config} {store : SourceStore}
    {version : String} {input : Option String} {output : Json}
    (h : load order config store version input output = .ok a) :
    ∃ catalog, Model.build order catalog a.compilation.units.toList = .ok a.compilation.model := by
  obtain ⟨_, hfrom⟩ := exists_loadedFrom h
  exact ⟨_, hfrom.model⟩

/-- A short name selects the first output of that name. -/
theorem entry_of_mem (h : name ∈ a.contractNames) :
    ∃ q o, a.entry name = .ok (q, o) ∧ shortName q = name ∧
      ∀ q' ∈ a.outputs, shortName q' = name → q ≤ q' := by
  have hsome : (a.outputs.keys.find? (shortName · == name)).isSome = true := by
    simpa [contractNames, Std.ExtTreeSet.mem_ofList] using h
  obtain ⟨q, hq⟩ := Option.isSome_iff_exists.1 hsome
  have hmem : q ∈ a.outputs := Std.ExtTreeMap.mem_keys.1 (List.mem_of_find?_eq_some hq)
  obtain ⟨o, ho⟩ : ∃ o, a.outputs[q]? = some o :=
    Option.isSome_iff_exists.1 (Std.ExtTreeMap.mem_iff_isSome_getElem?.1 hmem)
  have hname : a.qualifiedName name = q := by simp [qualifiedName, hq]
  refine ⟨q, o, ?_, by simpa using List.find?_some hq, ?_⟩
  · simp [entry, hname, ho, orError, Except.map]
  · intro q' hq' hshort
    exact le_of_find? (g := id) (keys_sorted _) hq q' (Std.ExtTreeMap.mem_keys.2 hq')
      (by simp [hshort])

end Combined.Artifact

namespace Standard.Artifact

variable {a : Artifact} {name : String}

theorem model_of_load {order : Model.Traversal} {store : SourceStore} {version : String}
    {input output : Json} (h : load order store version input output = .ok a) :
    ∃ catalog, Model.build order catalog a.compilation.units.toList = .ok a.compilation.model := by
  obtain ⟨_, hfrom⟩ := exists_loadedFrom h
  exact ⟨_, hfrom.model⟩

/-- A file has an output of a name. -/
def Has (a : Artifact) (file name : String) : Prop :=
  ∃ contracts, a.output.contracts[file]? = some contracts ∧ name ∈ contracts

/-- The output has a contract in its file under its name. -/
def Holds (a : Artifact) (o : Occurrence) : Prop :=
  ∃ contracts, a.output.contracts[o.file]? = some contracts ∧ contracts[o.name]? = some o.output

theorem occurrence?_iff {file : String} {o : Occurrence} :
    a.occurrence? file name = some o ↔ a.Holds o ∧ o.file = file ∧ o.name = name := by
  simp only [occurrence?, Holds, Option.bind_eq_bind, Option.bind_eq_some_iff, Option.pure_def,
    Option.some.injEq]
  constructor
  · rintro ⟨contracts, hfile, output, hname, rfl⟩
    exact ⟨⟨contracts, hfile, hname⟩, rfl, rfl⟩
  · rintro ⟨⟨contracts, hfile, hname⟩, rfl, rfl⟩
    exact ⟨contracts, hfile, o.output, hname, rfl⟩

theorem mem_files {file : String} {contracts : Std.ExtTreeMap String ContractOutput}
    (h : a.output.contracts[file]? = some contracts) : file ∈ a.output.contracts.keys := by
  rw [Std.ExtTreeMap.mem_keys, Std.ExtTreeMap.mem_iff_isSome_getElem?, h]
  rfl

theorem isSome_occurrence? {file : String} :
    (a.occurrence? file name).isSome = true ↔ a.Has file name := by
  unfold occurrence? Has
  cases a.output.contracts[file]? with
  | none => simp
  | some contracts =>
    simp only [Option.bind_eq_bind, Option.bind_some, Option.some.injEq, exists_eq_left',
      Std.ExtTreeMap.mem_iff_isSome_getElem?]
    cases contracts[name]? with
    | none => rfl
    | some output => rfl

/-- A name without a colon selects the output in the first file that has one of that name. -/
theorem first_of_has (hshort : splitQualified? name = none) {file : String}
    (h : a.Has file name) :
    ∃ o, a.first name = .ok o ∧ o.name = name ∧ ∀ file, a.Has file name → o.file ≤ file := by
  have hkey : ∀ {file}, a.Has file name → file ∈ a.output.contracts.keys := by
    rintro file ⟨contracts, hcontracts, _⟩
    exact mem_files hcontracts
  have hsome : (a.output.contracts.keys.findSome? (a.occurrence? · name)).isSome = true :=
    List.findSome?_isSome_iff.2 ⟨file, hkey h, isSome_occurrence?.2 h⟩
  obtain ⟨o, ho⟩ := Option.isSome_iff_exists.1 hsome
  obtain ⟨found, _, hfound, hleast⟩ := exists_of_findSome? (g := id) (keys_sorted _) ho
  obtain ⟨_, rfl, hname⟩ := occurrence?_iff.1 hfound
  refine ⟨o, ?_, hname, ?_⟩
  · simp [first, occurrences, hshort, List.head?_filterMap, ho, orError]
  · intro file hfile
    exact hleast file (hkey hfile) (isSome_occurrence?.2 hfile)

end Standard.Artifact

/-- The contract of a short name that both sides know. Its output is the first one of the name, and
its record is the one that the trees mean. Both are of one file just when the trees mean a definition
in the file of the first output. -/
theorem contractByName_unit_iff (order : Model.Traversal) (store : SourceStore)
    (version name : String) (output : Json) (c : Contract) :
    (∀ (config : Config) (input : Option String) (a : Combined.Artifact),
      Combined.Artifact.load order config store version input output = .ok a →
      name ∈ a.contractNames → a.compilation.model.contractByName name = .ok c →
      ∃ q o, a.entry name = .ok (q, o) ∧ shortName q = name ∧
        (∀ q' ∈ a.outputs, shortName q' = name → q ≤ q') ∧
        (∀ t, a.compilation.units.Means name t ↔ t = c.title) ∧
        (c.unit = pathOf q ↔ ∃ t, a.compilation.units.Means name t ∧ t.unit = pathOf q)) ∧
    ∀ (input : Json) (a : Standard.Artifact) (file : String),
      Standard.Artifact.load order store version input output = .ok a →
      splitQualified? name = none → a.Has file name →
      a.compilation.model.contractByName name = .ok c →
      ∃ o, a.first name = .ok o ∧ o.name = name ∧ (∀ file, a.Has file name → o.file ≤ file) ∧
        (∀ t, a.compilation.units.Means name t ↔ t = c.title) ∧
        (c.unit = o.file ↔ ∃ t, a.compilation.units.Means name t ∧ t.unit = o.file) := by
  constructor
  · intro config input a hload hname hc
    obtain ⟨catalog, hbuild⟩ := Combined.Artifact.model_of_load hload
    obtain ⟨q, o, hentry, hshort, hfirst⟩ := Combined.Artifact.entry_of_mem hname
    refine ⟨q, o, hentry, hshort, hfirst, fun t => Model.means_iff hbuild hc, ?_⟩
    simp only [Model.means_iff hbuild hc, exists_eq_left]
    rfl
  · intro input a file hload hshort hfile hc
    obtain ⟨catalog, hbuild⟩ := Standard.Artifact.model_of_load hload
    obtain ⟨o, ho, hname, hfirst⟩ := Standard.Artifact.first_of_has hshort hfile
    refine ⟨o, ho, hname, hfirst, fun t => Model.means_iff hbuild hc, ?_⟩
    simp only [Model.means_iff hbuild hc, exists_eq_left]
    rfl

/-! ### Two files with one name -/

/-- A tree with exported symbols and contracts. -/
def bareTree (symbols : List (String × Int)) (contracts : List (Int × String)) : Json :=
  .obj [("exportedSymbols", .obj (symbols.map fun (name, id) => (name, .arr [.int id]))),
    ("nodeType", .str "SourceUnit"),
    ("nodes", .ofList (fun (id, name) => .obj [("abstract", .bool false), ("id", .int id),
      ("name", .str name), ("nodeType", .str "ContractDefinition"), ("src", .str "0:13:0")])
      contracts)]

/-- A contract, and a second file that imports it and exports it too. -/
def importedOutput : Json :=
  .obj [("a.sol:A", .obj [("ast", bareTree [("A", 1)] [(1, "A")])]),
    ("b.sol:B", .obj [("ast", bareTree [("A", 1), ("B", 2)] [(2, "B")])])]

/-- Two files, each with a contract of the same name, in combined output. -/
def repeatedOutput : Json :=
  .obj [("a.sol:A", .obj [("ast", bareTree [("A", 1)] [(1, "A")])]),
    ("b.sol:A", .obj [("ast", bareTree [("A", 3)] [(3, "A")])])]

/-- The same two files in standard output. -/
def repeatedFiles : Json :=
  .obj [("sources", .obj [
      ("a.sol", .obj [("ast", bareTree [("A", 1)] [(1, "A")]), ("id", .int 0)]),
      ("b.sol", .obj [("ast", bareTree [("A", 3)] [(3, "A")]), ("id", .int 1)])]),
    ("contracts", .obj [("a.sol", .obj [("A", .obj [])]), ("b.sol", .obj [("A", .obj [])])])]

/-- An import does no harm. Where the name is repeated, the trees mean a contract of another file than
that of the first output. -/
theorem contractByName_unit_iff_two_files :
    (∃ a c q o,
      Combined.Artifact.load .ascending {} (.memory []) "0.8.0" none importedOutput = .ok a ∧
      "A" ∈ a.contractNames ∧ a.compilation.model.contractByName "A" = .ok c ∧
      a.entry "A" = .ok (q, o) ∧ c.unit = pathOf q ∧ a.compilation.units.Means "A" c.title) ∧
    ∃ a c o,
      Standard.Artifact.load .ascending (.memory []) "0.8.0" (.obj []) repeatedFiles = .ok a ∧
      splitQualified? "A" = none ∧ a.Has "b.sol" "A" ∧
      a.compilation.model.contractByName "A" = .ok c ∧ a.first "A" = .ok o ∧
      ∀ t, a.compilation.units.Means "A" t → t.unit ≠ o.file := by
  constructor
  · obtain ⟨a, ha, hname, hany⟩ : ∃ a,
        Combined.Artifact.load .ascending {} (.memory []) "0.8.0" none importedOutput = .ok a ∧
        "A" ∈ a.contractNames ∧ ((a.compilation.model.contractByName "A").toOption.any fun c =>
          ((a.entry "A").toOption.any fun e => c.unit = pathOf e.1) = true) = true :=
      exists_of_any_ok (by decide +kernel)
    obtain ⟨c, hc, hany⟩ := exists_of_any_ok hany
    obtain ⟨⟨q, o⟩, ho, hunit⟩ := exists_of_any_ok hany
    obtain ⟨_, _, _, _, _, hmeans, _⟩ :=
      (contractByName_unit_iff _ _ _ "A" _ c).1 _ _ a ha hname hc
    exact ⟨a, c, q, o, ha, hname, hc, ho, hunit, (hmeans c.title).2 rfl⟩
  · obtain ⟨a, ha, hhas, hany⟩ : ∃ a,
        Standard.Artifact.load .ascending (.memory []) "0.8.0" (.obj []) repeatedFiles = .ok a ∧
        (a.occurrence? "b.sol" "A").isSome = true ∧
        ((a.compilation.model.contractByName "A").toOption.any fun c =>
          ((a.first "A").toOption.any fun o => c.unit ≠ o.file) = true) = true :=
      exists_of_any_ok (by decide +kernel)
    obtain ⟨c, hc, hany⟩ := exists_of_any_ok hany
    obtain ⟨o, ho, hunit⟩ := exists_of_any_ok hany
    have hhas := Standard.Artifact.isSome_occurrence?.1 hhas
    obtain ⟨o', ho', _, _, _, hiff⟩ :=
      (contractByName_unit_iff _ _ _ "A" _ c).2 _ a "b.sol" ha (by decide) hhas hc
    rw [ho] at ho'
    cases ho'
    refine ⟨a, c, o, ha, by decide, hhas, hc, ho, fun t ht hfile => ?_⟩
    exact hunit (hiff.2 ⟨t, ht, hfile⟩)

/-- Every file has its tree, and yet the output of the name is of one file and its record of
another. -/
theorem unit_ne_output_file :
    ∃ a c q o,
      Combined.Artifact.load .ascending {} (.memory []) "0.8.0" none repeatedOutput = .ok a ∧
      (∀ q ∈ a.outputs, pathOf q ∈ a.compilation.units) ∧ "A" ∈ a.contractNames ∧
      a.compilation.model.contractByName "A" = .ok c ∧ a.entry "A" = .ok (q, o) ∧
      c.unit ≠ pathOf q := by
  obtain ⟨a, ha, htrees, hname, hany⟩ : ∃ a,
      Combined.Artifact.load .ascending {} (.memory []) "0.8.0" none repeatedOutput = .ok a ∧
      (∀ q ∈ a.outputs.keys, pathOf q ∈ a.compilation.units) ∧ "A" ∈ a.contractNames ∧
      ((a.compilation.model.contractByName "A").toOption.any fun c =>
        ((a.entry "A").toOption.any fun e => c.unit ≠ pathOf e.1) = true) = true :=
    exists_of_any_ok (by decide +kernel)
  obtain ⟨c, hc, hany⟩ := exists_of_any_ok hany
  obtain ⟨⟨q, o⟩, ho, hunit⟩ := exists_of_any_ok hany
  refine ⟨a, c, q, o, ha, fun q hq => ?_, hname, hc, ho, hunit⟩
  exact htrees q (Std.ExtTreeMap.mem_keys.2 hq)

end CodeAtlas
