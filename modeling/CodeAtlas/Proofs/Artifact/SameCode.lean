import CodeAtlas.Combined.Artifact
import CodeAtlas.Proofs.Assembly.Listing
import CodeAtlas.Standard.Artifact

/-! Combined and standard output of the same code give the same tables, though one has a single
listing in which the deployed code must be found and the other has a listing for each code. -/
namespace CodeAtlas
open Assembly (Block Item PcTable Seam listingTokens)

variable {assembly : Block} {deploy : Bool} {code : List Item} {tokens : List String}

/-- Combined output has the assembly of a contract, and one listing for both of its codes. -/
def Combined.ContractOutput.Lists (o : Combined.ContractOutput) (assembly : Block)
    (tokens : List String) : Prop :=
  o.assembly = some assembly ∧ ∃ listing, o.opcodes = some listing ∧ listingTokens listing = tokens

/-- Standard output has the assembly of a contract, and a listing for one of its codes. -/
def Standard.ContractOutput.Lists (o : Standard.ContractOutput) (assembly : Block) (deploy : Bool)
    (tokens : List String) : Prop :=
  ∃ machine, o.machine = some machine ∧ machine.assembly = some assembly ∧
    ∃ code listing, machine.codeFor? deploy = some code ∧ code.opcodes = some listing ∧
      listingTokens listing = tokens

/-- The contract whose code is looked at for a name: the first of that name, found once more by its
qualified name. -/
def Standard.Artifact.consulted (a : Standard.Artifact) (name : String) :
    Except Error Standard.Occurrence := do
  let o ← a.first name
  a.first o.qualified

namespace Combined.Artifact

variable {a : Combined.Artifact} {name : String} {o : Combined.ContractOutput}

theorem entry_of_contract (h : a.contract name = .ok o) :
    ∃ qualified, a.entry name = .ok (qualified, o) := by
  unfold contract at h
  cases hentry : a.entry name with
  | error e => simp [hentry, Except.map] at h
  | ok found =>
    obtain ⟨qualified, o'⟩ := found
    rw [hentry] at h
    cases h
    exact ⟨qualified, rfl⟩

theorem pcTable_deployment (ho : a.contract name = .ok o) (h : o.Lists assembly tokens) :
    a.pcTable name true = PcTable.build assembly.code tokens := by
  obtain ⟨qualified, hentry⟩ := entry_of_contract ho
  obtain ⟨hassembly, listing, hlisting, rfl⟩ := h
  simp [pcTable, hentry, tableOf, hassembly, hlisting, orError, Block.codeFor?, bind, Except.bind,
    pure, Except.pure]

theorem pcTable_deployed (ho : a.contract name = .ok o) (h : o.Lists assembly tokens)
    {runtime : Block} (hruntime : assembly.runtime? = some runtime) :
    a.pcTable name false =
      (Assembly.deployedTokens tokens).bind (PcTable.build runtime.code) := by
  obtain ⟨qualified, hentry⟩ := entry_of_contract ho
  obtain ⟨hassembly, listing, hlisting, rfl⟩ := h
  simp [pcTable, hentry, tableOf, hassembly, hlisting, orError, Block.codeFor?, hruntime, bind,
    Except.bind]

end Combined.Artifact

namespace Standard.Artifact

variable {a : Standard.Artifact} {name : String} {o : Standard.Occurrence}

theorem pcTable_of_lists (ho : a.consulted name = .ok o)
    (h : o.output.Lists assembly deploy tokens) (hcode : assembly.codeFor? deploy = some code) :
    a.pcTable name deploy = PcTable.build code tokens := by
  obtain ⟨machine, hmachine, hassembly, output, listing, houtput, hlisting, rfl⟩ := h
  unfold consulted at ho
  cases hfirst : a.first name with
  | error e => simp [hfirst, bind, Except.bind] at ho
  | ok found =>
    have hfound : a.first (qualify found.file found.name) = .ok o := by
      simpa [hfirst, bind, Except.bind, Occurrence.qualified] using ho
    simp [pcTable, pcTableIn, hfirst, hfound, tableOf, hmachine, hassembly, hcode, houtput,
      hlisting, orError, bind, Except.bind]

end Standard.Artifact

/-- Where one listing holds the deployment code and then the deployed code, both kinds of output
have the same table of the deployed code, or the same error. Of the deployment code, combined output
has every table that standard output has; it cannot fail where that succeeds. -/
theorem pcTable_of_same_code (a : Combined.Artifact) (b : Standard.Artifact) (name name' : String)
    (o : Combined.ContractOutput) (s : Standard.Occurrence) (assembly : Block)
    (deployment deployed guard preamble : List String) (ho : a.contract name = .ok o)
    (hs : b.consulted name' = .ok s) (hlists : o.Lists assembly (deployment ++ deployed))
    (hruntime : assembly.runtime?.isSome) (hseam : Seam deployment deployed guard preamble) :
    (s.output.Lists assembly false deployed → a.pcTable name false = b.pcTable name' false) ∧
      (s.output.Lists assembly true deployment →
        ∀ t, b.pcTable name' true = .ok t → a.pcTable name true = .ok t) := by
  obtain ⟨runtime, hruntime⟩ := Option.isSome_iff_exists.1 hruntime
  constructor
  · intro hdeployed
    have hcode : assembly.codeFor? false = some runtime.code := by simp [Block.codeFor?, hruntime]
    rw [Combined.Artifact.pcTable_deployed ho hlists hruntime, hseam.deployedTokens,
      Standard.Artifact.pcTable_of_lists hs hdeployed hcode]
    rfl
  · intro hdeployment t ht
    rw [Standard.Artifact.pcTable_of_lists hs hdeployment rfl] at ht
    rw [Combined.Artifact.pcTable_deployment ho hlists]
    exact PcTable.build_append ht deployed

/-! ### A library, whose deployed code has its guard before the preamble -/

/-- The assembly of the library. -/
def libraryAssembly : Block where
  code := [{ name := "PUSH" }, { name := "PUSH" }, { name := "MSTORE" }]
  data := [("0", .block
    { code := [{ name := "PUSHDEPLOYADDRESS" }, { name := "ADDRESS" }, { name := "EQ" },
        { name := "PUSH" }, { name := "PUSH" }, { name := "MSTORE" }]
      data := [], auxdata := none, sources := none })]
  auxdata := none
  sources := none

/-- The listing of the deployment code. -/
def libraryDeployment : List String := ["PUSH1", "0x80", "PUSH1", "0x40", "MSTORE", "INVALID"]

/-- The listing of the deployed code. -/
def libraryDeployed : List String :=
  ["PUSH20", "0x00", "ADDRESS", "EQ", "PUSH1", "0x80", "PUSH1", "0x40", "MSTORE", "STOP"]

/-- The library in combined output. -/
def libraryCombined : Combined.Artifact where
  version := "0.8.0"
  dialect := .v8
  outputs := Std.ExtTreeMap.ofList [("l.sol:L",
    { assembly := some libraryAssembly
      opcodes := some (" ".intercalate (libraryDeployment ++ libraryDeployed)) })] compare
  compilation := ⟨.ofFiles [], ∅, ⟨∅, ∅, ∅⟩⟩

/-- The library in standard output. -/
def libraryStandard : Standard.Artifact where
  version := "0.8.0"
  output := ⟨[], ∅, Std.ExtTreeMap.ofList [("l.sol", Std.ExtTreeMap.ofList [("L",
    { machine := some
        { assembly := some libraryAssembly
          deployment := some { opcodes := some (" ".intercalate libraryDeployment) }
          deployed := some { opcodes := some (" ".intercalate libraryDeployed) } } })] compare)]
    compare⟩
  compilation := ⟨.ofFiles [], ∅, ⟨∅, ∅, ∅⟩⟩

theorem library_seam :
    Seam libraryDeployment libraryDeployed (Assembly.guardOf "0x00") Assembly.newPreamble where
  nonempty := by decide
  known := Or.inl rfl
  guarded := Or.inr ⟨"0x00", rfl⟩
  starts := by decide
  first := by
    have hfirst : ∀ i < libraryDeployment.length + 4, 1 ≤ i →
        ¬ Assembly.OccursAt Assembly.newPreamble (libraryDeployment ++ libraryDeployed) i := by
      decide
    exact fun i hi hlt => hfirst i hlt hi
  newer_absent h := absurd h (by decide)
  unguarded h := absurd h (by decide)

/-- The library has a table of its deployment code, and both outputs give the same tables. -/
theorem pcTable_of_same_code_library :
    libraryCombined.pcTable "L" false = libraryStandard.pcTable "L" false ∧
      ∃ t, libraryStandard.pcTable "L" true = .ok t ∧ libraryCombined.pcTable "L" true = .ok t := by
  have hagree := pcTable_of_same_code libraryCombined libraryStandard "L" "L" _ _ libraryAssembly
    _ _ _ _ rfl rfl ⟨rfl, _, rfl, by decide⟩ rfl library_seam
  refine ⟨hagree.1 ⟨_, rfl, rfl, _, _, rfl, rfl, rfl⟩, ?_⟩
  obtain ⟨t, ht⟩ : ∃ t, libraryStandard.pcTable "L" true = .ok t := ⟨_, rfl⟩
  exact ⟨t, ht, hagree.2 ⟨_, rfl, rfl, _, _, rfl, rfl, rfl⟩ t ht⟩

end CodeAtlas
