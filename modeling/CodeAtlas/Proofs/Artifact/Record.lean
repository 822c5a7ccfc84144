import CodeAtlas.Combined.Output
import CodeAtlas.Proofs.Assembly.Record

/-! Combined output written as a record and read again. -/
namespace CodeAtlas

variable {v : Json}

namespace GeneratedSource

/-- What the fields of a generated source are read from. -/
theorem ofJson?_eq_some {g : GeneratedSource} :
    ofJson? v = some g ↔
      ∃ fields, v.fields? ["id", "name", "contents", "language"] = some fields ∧
        Json.optional? "id" Json.integer? fields = some g.id ∧
        Json.optional? "name" Json.text? fields = some g.name ∧
        Json.defaulting? "contents" "" Json.text? fields = some g.contents ∧
        Json.optional? "language" Json.text? fields = some g.language := by
  simp only [ofJson?, Option.bind_eq_bind, Option.bind_eq_some_iff]
  constructor
  · rintro ⟨fields, hfields, id, hid, name, hname, contents, hcontents, language, hlanguage, hg⟩
    cases hg
    exact ⟨fields, hfields, hid, hname, hcontents, hlanguage⟩
  · rintro ⟨fields, hfields, hid, hname, hcontents, hlanguage⟩
    exact ⟨fields, hfields, _, hid, _, hname, _, hcontents, _, hlanguage, rfl⟩

theorem faithful_generated : Json.Faithful ofJson? toJson := by
  intro v g h
  obtain ⟨fields, _, hid, _, _, _⟩ := ofJson?_eq_some.1 h
  exact ofJson?_eq_some.2 ⟨_, rfl, Json.nullable?_integer (Json.isSigned_of_optional? hid),
    Json.nullable?_text g.name, rfl, Json.nullable?_text g.language⟩

end GeneratedSource

namespace Combined.ContractOutput

/-- What the fields of an output are read from. -/
theorem ofJson?_eq_some {o : ContractOutput} :
    ofJson? v = some o ↔
      ∃ fields, v.fields? keys = some fields ∧
        Json.optional? "ast" Json.any? fields = some o.ast ∧
        Json.optional? "abi" Json.any? fields = some o.abi ∧
        Json.optional? "bin" Json.text? fields = some o.bin ∧
        Json.optional? "bin-runtime" Json.text? fields = some o.runtimeBin ∧
        Json.optional? "srcmap" Json.text? fields = some o.map ∧
        Json.optional? "srcmap-runtime" Json.text? fields = some o.runtimeMap ∧
        Json.optional? "asm" Assembly.Block.ofJson? fields = some o.assembly ∧
        Json.optional? "opcodes" Json.text? fields = some o.opcodes ∧
        Json.optional? "generated-sources" (Json.list? GeneratedSource.ofJson?) fields =
          some o.generated ∧
        Json.optional? "generated-sources-runtime" (Json.list? GeneratedSource.ofJson?) fields =
          some o.runtimeGenerated := by
  simp only [ofJson?, Option.bind_eq_bind, Option.bind_eq_some_iff]
  constructor
  · rintro ⟨fields, hfields, ast, hast, abi, habi, bin, hbin, runtimeBin, hruntimeBin, map, hmap,
      runtimeMap, hruntimeMap, assembly, hassembly, opcodes, hopcodes, generated, hgenerated,
      runtimeGenerated, hruntimeGenerated, ho⟩
    cases ho
    exact ⟨fields, hfields, hast, habi, hbin, hruntimeBin, hmap, hruntimeMap, hassembly, hopcodes,
      hgenerated, hruntimeGenerated⟩
  · rintro ⟨fields, hfields, hast, habi, hbin, hruntimeBin, hmap, hruntimeMap, hassembly, hopcodes,
      hgenerated, hruntimeGenerated⟩
    exact ⟨fields, hfields, _, hast, _, habi, _, hbin, _, hruntimeBin, _, hmap, _, hruntimeMap, _,
      hassembly, _, hopcodes, _, hgenerated, _, hruntimeGenerated, rfl⟩

/-- Generated sources are read back whether there is a list of them or not. -/
theorem nullable?_generated {key : String} {fields : List (String × Json)}
    {o : Option (List GeneratedSource)}
    (h : Json.optional? key (Json.list? GeneratedSource.ofJson?) fields = some o) :
    Json.nullable? (Json.list? GeneratedSource.ofJson?)
      (.ofOption (.ofList GeneratedSource.toJson) o) = some o :=
  GeneratedSource.faithful_generated.list.optional nofun h

/-- An assembly is read back whether there is one or not. -/
theorem nullable?_assembly {key : String} {fields : List (String × Json)}
    {o : Option Assembly.Block}
    (h : Json.optional? key Assembly.Block.ofJson? fields = some o) :
    Json.nullable? Assembly.Block.ofJson? (.ofOption Assembly.Block.toJson o) = some o := by
  apply Assembly.Block.faithful_block.optional _ h
  intro b hnull
  rw [Assembly.Block.toJson_eq] at hnull
  cases hnull

theorem faithful_output : Json.Faithful ofJson? toJson := by
  intro v o h
  obtain ⟨fields, _, hast, habi, _, _, _, _, hassembly, _, hgenerated, hruntimeGenerated⟩ :=
    ofJson?_eq_some.1 h
  exact ofJson?_eq_some.2 ⟨_, rfl, Json.nullable?_any_of_optional? hast,
    Json.nullable?_any_of_optional? habi, Json.nullable?_text o.bin, Json.nullable?_text o.runtimeBin,
    Json.nullable?_text o.map, Json.nullable?_text o.runtimeMap, nullable?_assembly hassembly,
    Json.nullable?_text o.opcodes, nullable?_generated hgenerated,
    nullable?_generated hruntimeGenerated⟩

end Combined.ContractOutput

/-- A block of assembly is read back from its record just when its numbers are those that machines
have, whatever blocks and texts are nested in it. An output that was read from any value, with arrays
for records or fields missing at any depth, is read back from the record that is written of it. -/
theorem records_read_back :
    (∀ b : Assembly.Block, Assembly.Block.ofJson? b.toJson = some b ↔ b.InRange) ∧
      ∀ (v : Json) (o : Combined.ContractOutput), Combined.ContractOutput.ofJson? v = some o →
        Combined.ContractOutput.ofJson? o.toJson = some o :=
  ⟨fun _ => ⟨Assembly.Block.inRange_of_ofJson?, Assembly.Block.ofJson?_toJson⟩,
    Combined.ContractOutput.faithful_output⟩

/-- Assembly with a block nested in it, and texts beside and inside that. -/
def nestedAssembly : Assembly.Block where
  code := [{ name := "PUSH [tag]", start := some (-1), stop := some 7, value := some "1" }]
  data := [("0", .block
      { code := [{ name := "STOP" }], data := [("ac", .raw "00")], auxdata := some "a264",
        sources := none }),
    ("1", .raw "ff")]
  auxdata := none
  sources := some ["a.sol"]

theorem nestedAssembly_inRange : nestedAssembly.InRange := by
  refine .intro (fun i hi => ?_) (fun key nested hmem => ?_)
  · obtain rfl := List.mem_singleton.1 hi
    constructor <;> rintro n ⟨⟩ <;> decide
  · simp only [nestedAssembly, List.mem_cons, Prod.mk.injEq, Assembly.Entry.block.injEq] at hmem
    obtain ⟨_, rfl⟩ | ⟨_, hraw⟩ | hnil := hmem
    · refine .intro (fun i hi => ?_) (fun key nested hmem => ?_)
      · obtain rfl := List.mem_singleton.1 hi
        constructor <;> rintro n ⟨⟩
      · cases List.mem_singleton.1 hmem
    · cases hraw
    · cases hnil

/-- Output with arrays for all of its records but the nested block. Its tree is `null`, and of the
output, the assembly and the item the last fields are missing. -/
def arrayOutput : Json :=
  .arr [.null, .arr [], .str "6080", .null, .null, .str "0:1:0",
    .arr [.arr [.arr [.str "PUSH", .int (-1), .int 7]],
      .obj [("0", .obj [(".code", .arr [.obj [("name", .str "STOP")]]),
        (".data", .obj [("ac", .str "00")]), (".auxdata", .str "a264")]), ("1", .str "ff")]]]

theorem records_read_back_nested :
    nestedAssembly.InRange ∧
      Assembly.Block.ofJson? nestedAssembly.toJson = some nestedAssembly ∧
      ∃ o, Combined.ContractOutput.ofJson? arrayOutput = some o ∧ o.assembly.isSome ∧
        Combined.ContractOutput.ofJson? o.toJson = some o := by
  have hread : (Combined.ContractOutput.ofJson? arrayOutput).any (·.assembly.isSome) = true := by
    decide +kernel
  obtain ⟨o, ho, hassembly⟩ := (Option.any_eq_true _ _).1 hread
  exact ⟨nestedAssembly_inRange, (records_read_back.1 _).2 nestedAssembly_inRange, o, ho, hassembly,
    records_read_back.2 arrayOutput o ho⟩

end CodeAtlas
