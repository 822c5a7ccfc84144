import CodeAtlas.Combined.Artifact
import CodeAtlas.Proofs.Contract.Index
import CodeAtlas.Standard.Artifact

/-! What loaded output is made of. -/
namespace CodeAtlas

theorem decoded_eq_ok {α : Type} {x : Option α} {a : α} : decoded x = .ok a ↔ x = some a :=
  orError_eq_ok

variable {order : Model.Traversal}

theorem Compilation.of_load {catalog : Catalog} {units : Units} {c : Compilation}
    (h : Compilation.load order catalog units = .ok c) :
    c.catalog = catalog ∧ c.units = units ∧ Model.build order catalog units.toList = .ok c.model := by
  unfold load at h
  cases hm : Model.build order catalog units.toList with
  | error e => simp [hm, Except.map] at h
  | ok m =>
    rw [hm] at h
    cases h
    exact ⟨rfl, rfl, rfl⟩

/-- A compilation with the names that another traversal gives. -/
def Compilation.reindexed (order : Model.Traversal) (c : Compilation) : Compilation :=
  { c with model := c.model.reindexed order }

theorem Compilation.load_reindexed (order order' : Model.Traversal) (catalog : Catalog)
    (units : Units) :
    Compilation.load order' catalog units =
      (Compilation.load order catalog units).map (reindexed order') := by
  unfold load
  rw [Model.build_reindexed order]
  cases Model.build order catalog units.toList with
  | error e => rfl
  | ok m => rfl

namespace Combined.Artifact

/-- The files of combined output, in the order of their indexes: those that it lists if they are
preferred, else those that its trees tell. -/
def filePaths (config : Config) (listed : Option (List String)) (outputs : Outputs)
    (units : Units) : List String :=
  (if config.preferListedSources then listed.or (assemblySources? outputs) else none).getD
    (unitSources units)

/-- Combined output and what was made of it. -/
structure LoadedFrom (order : Model.Traversal) (config : Config) (store : SourceStore)
    (version : String) (input : Option String) (output : Json) (listed : Option (List String))
    (a : Artifact) : Prop where
  dialect : Dialect.parse version = .ok a.dialect
  outputs : decode output = .ok (a.outputs, listed)
  units : unitsOf a.dialect.form a.outputs = .ok a.compilation.units
  catalog : a.compilation.catalog =
    catalogOf store (filePaths config listed a.outputs a.compilation.units)
      (a.outputs.values.any ContractOutput.hasYul) input
  model : Model.build order a.compilation.catalog a.compilation.units.toList =
    .ok a.compilation.model

/-- Loaded output with the names that another traversal gives. -/
def reindexed (order : Model.Traversal) (a : Artifact) : Artifact :=
  { a with compilation := a.compilation.reindexed order }

theorem exists_loadedFrom {config : Config} {store : SourceStore} {version : String}
    {input : Option String} {output : Json} {a : Artifact}
    (h : load order config store version input output = .ok a) :
    ∃ listed, LoadedFrom order config store version input output listed a := by
  unfold load at h
  obtain ⟨dialect, hdialect, h⟩ := bind_eq_ok.1 h
  obtain ⟨⟨outputs, listed⟩, houtputs, h⟩ := bind_eq_ok.1 h
  obtain ⟨units, hunits, h⟩ := bind_eq_ok.1 h
  obtain ⟨compilation, hcompilation, h⟩ := bind_eq_ok.1 h
  cases h
  obtain ⟨hcatalog, rfl, hmodel⟩ := Compilation.of_load hcompilation
  rw [← hcatalog] at hmodel
  exact ⟨listed, hdialect, houtputs, hunits, hcatalog, hmodel⟩

/-- The traversal has no part in what is loaded but the names in the model. -/
theorem load_reindexed (order order' : Model.Traversal) (config : Config) (store : SourceStore)
    (version : String) (input : Option String) (output : Json) :
    load order' config store version input output =
      (load order config store version input output).map (reindexed order') := by
  unfold load
  simp only [map_bind_eq]
  refine bind_congr fun dialect => bind_congr fun decoded => bind_congr fun units => ?_
  rw [Compilation.load_reindexed order]
  cases Compilation.load order _ units with
  | error e => rfl
  | ok c => rfl

theorem load_eq_of_unaliased {config : Config} {store : SourceStore} {version : String}
    {input : Option String} {output : Json} {a : Artifact}
    (ha : load order config store version input output = .ok a)
    (h : Model.Unaliased a.compilation.model.symbols) (order' : Model.Traversal) :
    load order' config store version input output = .ok a := by
  obtain ⟨_, hfrom⟩ := exists_loadedFrom ha
  have hsame : a.reindexed order' = a := by
    rw [reindexed, Compilation.reindexed, Model.reindexed_eq_self hfrom.model h]
  rw [load_reindexed order, ha, Except.map, hsame]

end Combined.Artifact

namespace Standard.Artifact

/-- Standard output and what was made of it. -/
structure LoadedFrom (order : Model.Traversal) (store : SourceStore) (version : String)
    (input output : Json) (texts : InputTexts) (a : Artifact) : Prop where
  dialect : ∃ dialect, Dialect.parse version = .ok dialect
  output : Output.ofJson? output = some a.output
  faultless : Diagnostic.errors a.output.diagnostics = []
  input : inputTexts? input = some texts
  units : unitsOf a.output.files = .ok a.compilation.units
  catalog : a.compilation.catalog =
    (if a.output.hasYul then (Catalog.ofFiles (filesOf store texts a.output.files)).withYul
      else Catalog.ofFiles (filesOf store texts a.output.files))
  model : Model.build order a.compilation.catalog a.compilation.units.toList =
    .ok a.compilation.model

theorem exists_loadedFrom {store : SourceStore} {version : String} {input output : Json}
    {a : Artifact} (h : load order store version input output = .ok a) :
    ∃ texts, LoadedFrom order store version input output texts a := by
  unfold load at h
  obtain ⟨dialect, hdialect, h⟩ := bind_eq_ok.1 h
  obtain ⟨read, hread, h⟩ := bind_eq_ok.1 h
  dsimp only at h
  split at h
  next herrors =>
    obtain ⟨texts, htexts, h⟩ := bind_eq_ok.1 h
    obtain ⟨units, hunits, h⟩ := bind_eq_ok.1 h
    obtain ⟨compilation, hcompilation, h⟩ := bind_eq_ok.1 h
    cases h
    obtain ⟨hcatalog, rfl, hmodel⟩ := Compilation.of_load hcompilation
    rw [← hcatalog] at hmodel
    exact ⟨texts, ⟨dialect, hdialect⟩, decoded_eq_ok.1 hread, by simpa using herrors,
      decoded_eq_ok.1 htexts, hunits, hcatalog, hmodel⟩
  · cases h

end Standard.Artifact
end CodeAtlas
