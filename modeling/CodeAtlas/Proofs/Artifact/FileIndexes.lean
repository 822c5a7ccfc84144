import CodeAtlas.Proofs.Artifact.Loading
import CodeAtlas.Proofs.Artifact.YulEntry
import CodeAtlas.Proofs.Lookup
import Mathlib.Order.Bounds.Defs

/-! The files of a compilation stand at the indexes that the compiler gave them, with gaps where it
gave none, and generated code stands behind them. -/
namespace CodeAtlas

/-! ### Tables by index -/

section Tables

variable {α : Type} {filler entry x : α} {indexed : List (Nat × α)} {At : Nat → α → Prop}

/-- A list that follows indexes, where `At i x` says that `x` has the index `i`. Its first places are
as many as the largest index demands, and those that no index means are filled. One more entry stands
behind them just if something is generated. -/
structure FollowsIndexes (At : Nat → α → Prop) (filler entry : α) (generated : Prop)
    (list : List α) (places : Nat) : Prop where
  largest : (∃ last, IsGreatest {i | ∃ x, At i x} last ∧ places = last + 1) ∨
    (∀ i x, ¬At i x) ∧ places = 0
  place : ∀ i x, At i x → list[i]? = some x
  gap : ∀ i < places, (∀ x, ¬At i x) → list[i]? = some filler
  behind : generated → list.length = places + 1 ∧ list[places]? = some entry
  nothingBehind : ¬generated → list.length = places

theorem lt_foldl_max {xs : List Nat} {b i : Nat} :
    i < xs.foldl max b ↔ i < b ∨ ∃ x ∈ xs, i < x := by
  induction xs generalizing b with
  | nil => simp
  | cons x xs ih =>
    rw [List.foldl_cons, ih, lt_max_iff]
    simp [or_assoc]

theorem lt_length_tabulateIndexed {i : Nat} :
    i < (tabulateIndexed filler indexed).length ↔ ∃ e ∈ indexed, i ≤ e.1 := by
  simp only [tabulateIndexed, List.length_map, List.length_range, lt_foldl_max, Nat.not_lt_zero,
    false_or, List.mem_map, exists_exists_and_eq_and, Nat.lt_add_one_iff]

theorem getElem?_tabulateIndexed {i : Nat} (h : i < (tabulateIndexed filler indexed).length) :
    (tabulateIndexed filler indexed)[i]? = some ((indexed.reverse.lookup i).getD filler) := by
  rw [List.getElem?_eq_getElem h]
  simp [tabulateIndexed]

theorem mem_tabulateIndexed (h : x ∈ tabulateIndexed filler indexed) :
    x = filler ∨ ∃ i, (i, x) ∈ indexed := by
  obtain ⟨i, hi⟩ := List.mem_iff_getElem?.1 h
  rw [getElem?_tabulateIndexed (List.getElem?_eq_some_iff.1 hi).1] at hi
  cases hlookup : indexed.reverse.lookup i with
  | none =>
    left
    simpa [hlookup] using hi.symm
  | some y =>
    right
    obtain rfl : y = x := by simpa [hlookup] using hi
    exact ⟨i, List.mem_reverse.1 (mem_of_lookup hlookup)⟩

/-- If no index is given twice, the order in which entries are put in their places does not matter. -/
theorem followsIndexes_tabulateIndexed (hAt : ∀ i x, (i, x) ∈ indexed ↔ At i x)
    (hunique : ∀ i x y, At i x → At i y → x = y) {hasEntry : Bool} {generated : Prop}
    (hgenerated : hasEntry = true ↔ generated) :
    FollowsIndexes At filler entry generated
      (tabulateIndexed filler indexed ++ if hasEntry then [entry] else [])
      (tabulateIndexed filler indexed).length := by
  have hlookup (i : Nat) (x : α) : indexed.reverse.lookup i = some x ↔ At i x := by
    rw [lookup_eq_some_iff_mem, List.mem_reverse, hAt]
    intro v w hv hw
    exact hunique i v w ((hAt i v).1 (List.mem_reverse.1 hv)) ((hAt i w).1 (List.mem_reverse.1 hw))
  have hbound {i : Nat} {x : α} (hx : At i x) : i < (tabulateIndexed filler indexed).length :=
    lt_length_tabulateIndexed.2 ⟨(i, x), (hAt i x).2 hx, le_rfl⟩
  constructor
  case largest =>
    rcases Nat.eq_zero_or_pos (tabulateIndexed filler indexed).length with hzero | hpos
    · right
      refine ⟨fun i x hx => ?_, hzero⟩
      have := hbound hx
      omega
    · left
      -- the last place is there because of an index, and no index lies behind it
      obtain ⟨⟨last, x⟩, hmem, hle⟩ := lt_length_tabulateIndexed.1 (Nat.sub_one_lt_of_lt hpos)
      have hx := (hAt last x).1 hmem
      have hlast : last + 1 = (tabulateIndexed filler indexed).length := by
        have := hbound hx
        simp only at hle
        omega
      refine ⟨last, ⟨⟨x, hx⟩, ?_⟩, hlast.symm⟩
      rintro i ⟨y, hy⟩
      have := hbound hy
      omega
  case place =>
    intro i x hx
    rw [List.getElem?_append_left (hbound hx), getElem?_tabulateIndexed (hbound hx),
      (hlookup i x).2 hx]
    rfl
  case gap =>
    intro i hi hnone
    have hlookup : indexed.reverse.lookup i = none :=
      Option.eq_none_iff_forall_ne_some.2 fun x hx => hnone x ((hlookup i x).1 hx)
    rw [List.getElem?_append_left hi, getElem?_tabulateIndexed hi, hlookup]
    rfl
  case behind =>
    intro hyes
    simp [hgenerated.2 hyes]
  case nothingBehind =>
    intro hno
    simp [mt hgenerated.1 hno]

end Tables

/-! ### Catalogs -/

namespace Catalog

/-- Without a file under the path of generated code, an entry for it is added. -/
theorem files_ofFiles_withYul {files : List SourceFile} (h : ∀ f ∈ files, f.path ≠ yulPath)
    (hasYul : Bool) :
    (if hasYul then (ofFiles files).withYul else ofFiles files).files =
      files ++ if hasYul then [⟨yulPath, none⟩] else [] := by
  have hnone : (ofFiles files).hasYul = false := by
    rw [← Bool.not_eq_true]
    intro hyul
    obtain ⟨last, hlast, hpath⟩ := (Option.any_eq_true _ _).1 hyul
    exact h last (List.mem_of_getLast? hlast) (eq_of_beq hpath)
  cases hasYul with
  | false => simp [ofFiles]
  | true =>
    rw [if_pos rfl, if_pos rfl, withYul_eq hnone]
    rfl

end Catalog

/-! ### Standard output -/

namespace Standard

variable {store : SourceStore} {texts : InputTexts} {path : String} {content : Option String}

/-- The text of a file: the one that the input gives, else the one that can be read. -/
inductive Supplies (store : SourceStore) (texts : InputTexts) (path : String) :
    Option String → Prop where
  | given {text : String} (h : texts[path]? = some (some text)) : Supplies store texts path (some text)
  | read {text : String} (h : ∀ given, texts[path]? ≠ some (some given))
      (hread : store.read path = .ok text) : Supplies store texts path (some text)
  | unknown {e : Error} (h : ∀ given, texts[path]? ≠ some (some given))
      (hread : store.read path = .error e) : Supplies store texts path none

theorem supplies_iff : Supplies store texts path content ↔ textOf? store texts path = content := by
  have hjoin (h : ∀ given, texts[path]? ≠ some (some given)) : texts[path]?.join = none :=
    Option.eq_none_iff_forall_ne_some.2 fun given hgiven => h given (Option.join_eq_some_iff.1 hgiven)
  constructor
  · rintro (⟨h⟩ | ⟨h, hread⟩ | ⟨h, hread⟩)
    · simp [textOf?, h]
    · rw [textOf?, hjoin h, hread]
      rfl
    · rw [textOf?, hjoin h, hread]
      rfl
  · rintro rfl
    unfold textOf?
    by_cases h : ∃ given, texts[path]? = some (some given)
    · obtain ⟨given, hgiven⟩ := h
      rw [hgiven]
      exact .given hgiven
    · have h : ∀ given, texts[path]? ≠ some (some given) := not_exists.1 h
      rw [hjoin h]
      cases hread : store.read path with
      | ok text => exact .read h hread
      | error e => exact .unknown h hread

namespace Output

variable {o : Output}

/-- The file at an index: a path that the output has with that index, and the text of it. -/
def FileAt (o : Output) (store : SourceStore) (texts : InputTexts) (i : Nat) (file : SourceFile) :
    Prop :=
  ∃ f, o.files[file.path]? = some f ∧ f.index = i ∧ Supplies store texts file.path file.content

/-- No two files have one index. -/
def DistinctIndexes (o : Output) : Prop :=
  ∀ (p q : String) (f g : FileOutput),
    o.files[p]? = some f → o.files[q]? = some g → f.index = g.index → p = q

theorem distinctIndexes_iff : o.DistinctIndexes ↔ ∀ e ∈ o.files.toList, ∀ e' ∈ o.files.toList,
    e.2.index = e'.2.index → e.1 = e'.1 := by
  simp only [DistinctIndexes, Prod.forall, Std.ExtTreeMap.mem_toList_iff_getElem?_eq_some]
  constructor
  · intro h p f hp q g hq
    exact h p q f g hp hq
  · intro h p q f g hp hq
    exact h p f hp q g hq

instance : Decidable o.DistinctIndexes := decidable_of_iff' _ distinctIndexes_iff

/-- Some contract has generated sources, of either code. -/
def Generates (o : Output) : Prop :=
  ∃ (file name : String) (contracts : Std.ExtTreeMap String ContractOutput) (c : ContractOutput)
    (deploy : Bool), o.contracts[file]? = some contracts ∧ contracts[name]? = some c ∧
      c.generatedFor deploy ≠ []

theorem hasYul_iff : o.hasYul = true ↔ o.Generates := by
  simp only [hasYul, ContractOutput.hasYul, List.any_eq_true, mem_values, Bool.or_eq_true,
    Bool.not_eq_true', List.isEmpty_eq_false_iff]
  constructor
  · rintro ⟨contracts, ⟨file, hfile⟩, c, ⟨name, hname⟩, hdeployment | hdeployed⟩
    · exact ⟨file, name, contracts, c, true, hfile, hname, hdeployment⟩
    · exact ⟨file, name, contracts, c, false, hfile, hname, hdeployed⟩
  · rintro ⟨file, name, contracts, c, deploy, hfile, hname, hsources⟩
    refine ⟨contracts, ⟨file, hfile⟩, c, ⟨name, hname⟩, ?_⟩
    cases deploy with
    | true => exact .inl hsources
    | false => exact .inr hsources

theorem FileAt.unique (h : o.DistinctIndexes) {i : Nat} {x y : SourceFile}
    (hx : o.FileAt store texts i x) (hy : o.FileAt store texts i y) : x = y := by
  obtain ⟨f, hf, hi, hcontent⟩ := hx
  obtain ⟨g, hg, hj, hcontent'⟩ := hy
  have hpath : x.path = y.path := h x.path y.path f g hf hg (hi.trans hj.symm)
  rw [supplies_iff] at hcontent hcontent'
  rw [hpath, hcontent'] at hcontent
  cases x
  cases y
  cases hpath
  cases hcontent
  rfl

end Output

namespace Artifact

variable {order : Model.Traversal} {version : String} {input output : Json} {a : Artifact}

theorem LoadedFrom.followsIndexes (h : LoadedFrom order store version input output texts a)
    (hdistinct : a.output.DistinctIndexes) (hyul : yulPath ∉ a.output.files) :
    FollowsIndexes (a.output.FileAt store texts) ⟨"", none⟩ ⟨yulPath, none⟩ a.output.Generates
      a.compilation.catalog.files (filesOf store texts a.output.files).length := by
  have hmem (i : Nat) (file : SourceFile) :
      (i, file) ∈ a.output.files.toList.filterMap (fun e =>
          (index? e.2.index).map fun i => (i, SourceFile.mk e.1 (textOf? store texts e.1))) ↔
        a.output.FileAt store texts i file := by
    simp only [List.mem_filterMap, Prod.exists, Std.ExtTreeMap.mem_toList_iff_getElem?_eq_some,
      Option.map_eq_some_iff, Assembly.Item.index?_eq_some_iff, Prod.mk.injEq, Output.FileAt,
      supplies_iff]
    constructor
    · rintro ⟨path, f, hf, _, hi, rfl, rfl⟩
      exact ⟨f, hf, hi, rfl⟩
    · rintro ⟨f, hf, hi, hcontent⟩
      exact ⟨file.path, f, hf, i, hi, rfl, by rw [hcontent]⟩
  have hpath : ∀ file ∈ filesOf store texts a.output.files, file.path ≠ yulPath := by
    intro file hfile hyul'
    rcases mem_tabulateIndexed hfile with rfl | ⟨i, hi⟩
    · exact absurd hyul' (by decide)
    · obtain ⟨f, hf, _⟩ := (hmem i file).1 hi
      rw [hyul'] at hf
      exact hyul (Std.ExtTreeMap.mem_iff_isSome_getElem?.2 (by simp [hf]))
  rw [h.catalog, Catalog.files_ofFiles_withYul hpath]
  exact followsIndexes_tabulateIndexed hmem (fun _ _ _ => Output.FileAt.unique hdistinct)
    Output.hasYul_iff

end Artifact
end Standard

/-! ### Combined output -/

/-- The path at an index: that of a unit with this index in its root, or the unit's key if it tells
none. -/
def Units.PathAt (units : Units) (i : Nat) (path : String) : Prop :=
  ∃ (key : String) (u : Ast.SourceUnit), units[key]? = some u ∧ u.fileIndex? = some (i : Int) ∧
    u.path?.getD key = path

/-- No two units have one index. -/
def Units.DistinctIndexes (units : Units) : Prop :=
  ∀ (k l : String) (u v : Ast.SourceUnit) (i : Int), units[k]? = some u → units[l]? = some v →
    u.fileIndex? = some i → v.fileIndex? = some i → k = l

theorem Units.distinctIndexes_iff {units : Units} :
    units.DistinctIndexes ↔ ∀ e ∈ units.toList, ∀ e' ∈ units.toList,
      e.2.fileIndex?.isSome = true → e.2.fileIndex? = e'.2.fileIndex? → e.1 = e'.1 := by
  simp only [DistinctIndexes, Prod.forall, Std.ExtTreeMap.mem_toList_iff_getElem?_eq_some,
    Option.isSome_iff_exists]
  constructor
  · rintro h k u hu l v hv ⟨i, hi⟩ hsame
    exact h k l u v i hu hv hi (hsame ▸ hi)
  · intro h k l u v i hu hv hi hj
    exact h k u hu l v hv ⟨i, hi⟩ (hi.trans hj.symm)

instance {units : Units} : Decidable units.DistinctIndexes :=
  decidable_of_iff' _ Units.distinctIndexes_iff

theorem Units.PathAt.unique {units : Units} (h : units.DistinctIndexes) {i : Nat} {p q : String}
    (hp : units.PathAt i p) (hq : units.PathAt i q) : p = q := by
  obtain ⟨k, u, hu, hi, rfl⟩ := hp
  obtain ⟨l, v, hv, hj, rfl⟩ := hq
  obtain rfl := h k l u v i hu hv hi hj
  rw [hu] at hv
  cases hv
  rfl

namespace Combined

/-- Some contract has generated sources of both codes. -/
def Generates (outputs : Outputs) : Prop :=
  ∃ (name : String) (o : ContractOutput), outputs[name]? = some o ∧
    ∀ deploy, o.generatedFor deploy ≠ []

theorem any_hasYul_iff {outputs : Outputs} :
    outputs.values.any ContractOutput.hasYul = true ↔ Generates outputs := by
  simp only [ContractOutput.hasYul, List.any_eq_true, mem_values, Bool.and_eq_true,
    Bool.not_eq_true', List.isEmpty_eq_false_iff]
  constructor
  · rintro ⟨o, ⟨name, hname⟩, hdeployment, hdeployed⟩
    exact ⟨name, o, hname, Bool.rec hdeployed hdeployment⟩
  · rintro ⟨name, o, hname, hsources⟩
    exact ⟨o, ⟨name, hname⟩, hsources true, hsources false⟩

theorem paths_catalogOf {paths : List String} (h : yulPath ∉ paths) (store : SourceStore)
    (hasYul : Bool) (input : Option String) :
    (catalogOf store paths hasYul input).paths = paths ++ if hasYul then [yulPath] else [] := by
  have hfiles : ∀ file ∈ paths.map (fun path => SourceFile.mk path (textOf? store path)),
      file.path ≠ yulPath := by
    intro file hfile hyul
    obtain ⟨path, hpath, rfl⟩ := List.mem_map.1 hfile
    exact h (hyul ▸ hpath)
  have hpaths : (catalogOf store paths hasYul input).paths =
      (if hasYul then (Catalog.ofFiles (paths.map fun path => ⟨path, textOf? store path⟩)).withYul
        else .ofFiles (paths.map fun path => ⟨path, textOf? store path⟩)).files.map (·.path) := by
    cases input <;> rfl
  rw [hpaths, Catalog.files_ofFiles_withYul hfiles, List.map_append, List.map_map]
  cases hasYul <;> simp [Function.comp_def]

namespace Artifact

variable {order : Model.Traversal} {config : Config} {store : SourceStore} {version : String}
  {input : Option String} {output : Json} {listed : Option (List String)} {a : Artifact}

theorem LoadedFrom.followsIndexes
    (h : LoadedFrom order config store version input output listed a)
    (hconfig : config.preferListedSources = false)
    (hdistinct : a.compilation.units.DistinctIndexes)
    (hyul : ∀ (key : String) (u : Ast.SourceUnit), a.compilation.units[key]? = some u →
      u.path?.getD key ≠ yulPath) :
    FollowsIndexes a.compilation.units.PathAt "" yulPath (Generates a.outputs)
      a.compilation.catalog.paths (unitSources a.compilation.units).length := by
  have hmem (i : Nat) (path : String) :
      (i, path) ∈ a.compilation.units.toList.filterMap (fun e =>
          (e.2.fileIndex?.bind index?).map fun i => (i, e.2.path?.getD e.1)) ↔
        a.compilation.units.PathAt i path := by
    simp only [List.mem_filterMap, Prod.exists, Std.ExtTreeMap.mem_toList_iff_getElem?_eq_some,
      Option.map_eq_some_iff, Option.bind_eq_some_iff, Assembly.Item.index?_eq_some_iff,
      Prod.mk.injEq, Units.PathAt]
    constructor
    · rintro ⟨key, u, hu, _, ⟨_, hindex, rfl⟩, rfl, rfl⟩
      exact ⟨key, u, hu, hindex, rfl⟩
    · rintro ⟨key, u, hu, hindex, rfl⟩
      exact ⟨key, u, hu, i, ⟨i, hindex, rfl⟩, rfl, rfl⟩
  have hpath : yulPath ∉ unitSources a.compilation.units := by
    intro hmem'
    rcases mem_tabulateIndexed hmem' with hfiller | ⟨i, hi⟩
    · exact absurd hfiller (by decide)
    · obtain ⟨key, u, hu, _, hlisted⟩ := (hmem i _).1 hi
      exact hyul key u hu hlisted
  have hlisted : filePaths config listed a.outputs a.compilation.units =
      unitSources a.compilation.units := by
    simp [filePaths, hconfig]
  rw [h.catalog, hlisted, paths_catalogOf hpath]
  exact followsIndexes_tabulateIndexed hmem (fun _ _ _ => Units.PathAt.unique hdistinct)
    any_hasYul_iff

end Artifact
end Combined

/-- The catalog of loaded output lists its files by the indexes that the compiler gave them. Standard
output gives them itself and combined output in the roots of its trees, if no other list of files is
preferred. -/
theorem catalog_followsIndexes (order : Model.Traversal) (store : SourceStore) (version : String)
    (output : Json) :
    (∀ (input : Json) (a : Standard.Artifact),
      Standard.Artifact.load order store version input output = .ok a →
      a.output.DistinctIndexes → yulPath ∉ a.output.files →
      ∃ texts places, Standard.inputTexts? input = some texts ∧
        Standard.Output.ofJson? output = some a.output ∧
        FollowsIndexes (a.output.FileAt store texts) ⟨"", none⟩ ⟨yulPath, none⟩ a.output.Generates
          a.compilation.catalog.files places ∧
        ∀ (path : String) (f : Standard.FileOutput), a.output.files[path]? = some f →
          0 ≤ f.index → a.compilation.catalog.path? f.index = some path) ∧
    ∀ (config : Config) (input : Option String) (a : Combined.Artifact),
      config.preferListedSources = false →
      Combined.Artifact.load order config store version input output = .ok a →
      a.compilation.units.DistinctIndexes →
      (∀ (key : String) (u : Ast.SourceUnit), a.compilation.units[key]? = some u →
        u.path?.getD key ≠ yulPath) →
      ∃ places, FollowsIndexes a.compilation.units.PathAt "" yulPath
        (Combined.Generates a.outputs) a.compilation.catalog.paths places := by
  constructor
  · intro input a hload hdistinct hyul
    obtain ⟨texts, hfrom⟩ := Standard.Artifact.exists_loadedFrom hload
    have hfollows := hfrom.followsIndexes hdistinct hyul
    refine ⟨texts, _, hfrom.input, hfrom.output, hfollows, fun path f hf hindex => ?_⟩
    obtain ⟨i, hi⟩ := Int.eq_ofNat_of_zero_le hindex
    have hplace := hfollows.place i ⟨path, Standard.textOf? store texts path⟩
      ⟨f, hf, hi, Standard.supplies_iff.2 rfl⟩
    simp [Catalog.path?, Catalog.file?, Assembly.Item.index?_eq_some_iff.2 hi, hplace]
  · intro config input a hconfig hload hdistinct hyul
    obtain ⟨listed, hfrom⟩ := Combined.Artifact.exists_loadedFrom hload
    exact ⟨_, hfrom.followsIndexes hconfig hdistinct hyul⟩

/-! ### Files with a gap between them -/

/-- The tree of a file without definitions. -/
def emptyTree (path : Option String) (src : String) : Json :=
  .obj ((path.map fun path => ("absolutePath", .str path)).toList ++
    [("nodeType", .str "SourceUnit"), ("nodes", .arr []), ("src", .str src)])

/-- Three files, one without an index, in another order than that of their paths, and a contract with
generated code. -/
def gappedFiles : Json :=
  .obj [("contracts", .obj [("a.sol", .obj [("A", .obj [("evm", .obj [("bytecode", .obj [
      ("generatedSources", .arr [.obj [("id", .int 3)]])])])])])]),
    ("sources", .obj [("a.sol", .obj [("id", .int 2)]), ("b.sol", .obj [("id", .int 0)]),
      ("c.sol", .obj [("id", .int (-1))])])]

/-- An input with the text of one of them. -/
def gappedInput : Json := .obj [("sources", .obj [("a.sol", .obj [("content", .str "A")])])]

/-- Two files, one of which has its path in its tree. -/
def gappedTrees : Json :=
  .obj [("a.sol:A", .obj [("ast", emptyTree (some "lib/a.sol") "0:1:2")]),
    ("b.sol:B", .obj [("ast", emptyTree none "0:1:0")])]

theorem catalog_followsIndexes_gap :
    (∃ a texts, Standard.Artifact.load .ascending (.memory [("b.sol", "B")]) "0.8.0" gappedInput
        gappedFiles = .ok a ∧ a.output.DistinctIndexes ∧ yulPath ∉ a.output.files ∧
      FollowsIndexes (a.output.FileAt (.memory [("b.sol", "B")]) texts) ⟨"", none⟩ ⟨yulPath, none⟩
        a.output.Generates a.compilation.catalog.files 3 ∧
      a.compilation.catalog.files =
        [⟨"b.sol", some "B"⟩, ⟨"", none⟩, ⟨"a.sol", some "A"⟩, ⟨yulPath, none⟩]) ∧
    ∃ a, Combined.Artifact.load .ascending { preferListedSources := false } (.memory []) "0.8.0" none
        gappedTrees = .ok a ∧ a.compilation.units.DistinctIndexes ∧
      FollowsIndexes a.compilation.units.PathAt "" yulPath (Combined.Generates a.outputs)
        a.compilation.catalog.paths 3 ∧
      a.compilation.catalog.paths = ["b.sol", "", "lib/a.sol"] := by
  constructor
  · obtain ⟨a, ha, hdistinct, hyul, hgenerated, hfiles⟩ : ∃ a,
        Standard.Artifact.load .ascending (.memory [("b.sol", "B")]) "0.8.0" gappedInput
          gappedFiles = .ok a ∧
        a.output.DistinctIndexes ∧ yulPath ∉ a.output.files ∧ a.output.hasYul = true ∧
        a.compilation.catalog.files =
          [⟨"b.sol", some "B"⟩, ⟨"", none⟩, ⟨"a.sol", some "A"⟩, ⟨yulPath, none⟩] :=
      exists_of_any_ok (by decide +kernel)
    obtain ⟨texts, places, _, _, hfollows, _⟩ :=
      (catalog_followsIndexes _ _ _ _).1 _ a ha hdistinct hyul
    have hlength := (hfollows.behind (Standard.Output.hasYul_iff.1 hgenerated)).1
    obtain rfl : places = 3 := by
      simp only [hfiles, List.length_cons, List.length_nil] at hlength
      omega
    exact ⟨a, texts, ha, hdistinct, hyul, hfollows, hfiles⟩
  · obtain ⟨a, ha, hdistinct, hyul, hplain, hpaths⟩ : ∃ a,
        Combined.Artifact.load .ascending { preferListedSources := false } (.memory []) "0.8.0" none
          gappedTrees = .ok a ∧ a.compilation.units.DistinctIndexes ∧
        (∀ e ∈ a.compilation.units.toList, e.2.path?.getD e.1 ≠ yulPath) ∧
        a.outputs.values.any Combined.ContractOutput.hasYul = false ∧
        a.compilation.catalog.paths = ["b.sol", "", "lib/a.sol"] :=
      exists_of_any_ok (by decide +kernel)
    obtain ⟨places, hfollows⟩ := (catalog_followsIndexes _ _ _ _).2 _ _ a rfl ha hdistinct
      fun key u hu => hyul (key, u) (Std.ExtTreeMap.mem_toList_iff_getElem?_eq_some.2 hu)
    have hlength := hfollows.nothingBehind (mt Combined.any_hasYul_iff.2 (by simp [hplain]))
    obtain rfl : places = 3 := by
      simp only [hpaths, List.length_cons, List.length_nil] at hlength
      omega
    exact ⟨a, ha, hdistinct, hfollows, hpaths⟩

end CodeAtlas
