import CodeAtlas.Json.Decode
import CodeAtlas.Span
import CodeAtlas.Text.Alphabetic
import CodeAtlas.Text.Lowercase
import CodeAtlas.Text.Split

/-! The assembly that the compiler emits: items of code, and blocks with nested data. -/
namespace CodeAtlas.Assembly

/-- An instruction or pseudo-instruction, with its place in the source. -/
structure Item where
  name : String
  start : Option Int := none
  stop : Option Int := none
  source : Option Int := none
  value : Option String := none
  jump : Option String := none
  deriving DecidableEq, Repr, Inhabited

namespace Item

def opcode (i : Item) : String := (Text.firstWord? i.name).getD ""

/-- The range of bytes in the source, when both ends are known and in order. -/
def range? (i : Item) : Option (Nat × Nat) := do
  let start ← i.start.bind index?
  let stop ← i.stop.bind index?
  if start ≤ stop then some (start, stop) else none

/-- Whether a word names an instruction: it has letters, and none of them is lowercase. -/
def isCapital (word : String) : Bool :=
  word.toList.any Text.isAlphabetic && !word.toList.any Text.isLowercase

def isInstruction (i : Item) : Bool := isCapital i.opcode

def isPush (i : Item) : Bool := Text.startsWith i.opcode "PUSH"

def toJson (i : Item) : Json :=
  .obj [("name", .str i.name), ("begin", .ofOption Json.int i.start),
    ("end", .ofOption Json.int i.stop), ("source", .ofOption Json.int i.source),
    ("value", .ofOption Json.str i.value), ("jumpType", .ofOption Json.str i.jump)]

def ofJson? (v : Json) : Option Item := do
  let fields ← v.fields? ["name", "begin", "end", "source", "value", "jumpType"]
  let name ← Json.required? "name" Json.text? fields
  let start ← Json.optional? "begin" Json.integer? fields
  let stop ← Json.optional? "end" Json.integer? fields
  let source ← Json.optional? "source" Json.integer? fields
  let value ← Json.optional? "value" Json.text? fields
  let jump ← Json.optional? "jumpType" Json.text? fields
  return { name, start, stop, source, value, jump }

end Item

/-- Something kept beside code: a nested block or plain digits. -/
inductive Entry (β : Type) where
  | block (block : β)
  | raw (digits : String)
  deriving Repr

/-- A block of code with its nested data. The list of sources stands at the top only. -/
structure Block where
  code : List Item
  data : List (String × Entry Block)
  auxdata : Option String
  sources : Option (List String)

namespace Block

/-- The block nested under the first data key, which is the deployed code. -/
def runtime? (b : Block) : Option Block :=
  match b.data.lookup "0" with
  | some (.block block) => some block
  | _ => none

def codeFor? (b : Block) (deploy : Bool) : Option (List Item) :=
  if deploy then some b.code else b.runtime?.map (·.code)

def keys : List String := [".code", ".data", ".auxdata", "sourceList"]

/-- The block that a record holds. A data entry is a text or a block of its own. -/
def ofJson? (v : Json) : Option Block :=
  match _hv : v.fields? keys with
  | none => none
  | some fields => do
    let code ← Json.defaulting? ".code" [] (Json.list? Item.ofJson?) fields
    let data ← match _hd : fields.lookup ".data" with
      | none => some []
      | some (.obj members) =>
        members.attach.mapM fun entry =>
          match entry.val.2.text? with
          | some digits => some (entry.val.1, .raw digits)
          | none => (ofJson? entry.val.2).map fun block => (entry.val.1, .block block)
      | some _ => none
    let auxdata ← Json.optional? ".auxdata" Json.text? fields
    let sources ← Json.optional? "sourceList" (Json.list? Json.text?) fields
    return { code, data, auxdata, sources }
termination_by sizeOf v
decreasing_by
  have hmember := Json.sizeOf_snd_lt entry.property
  have hfield := Json.sizeOf_field_lt _hv _hd
  simp at hfield
  omega

mutual

/-- The block as a record. Auxiliary data and sources are left out when there are none. -/
def toJson : Block → Json
  | ⟨code, data, auxdata, sources⟩ =>
    .obj <| [(".code", .ofList Item.toJson code), (".data", .obj (entriesToJson data))] ++
      (auxdata.map fun digits => (".auxdata", Json.str digits)).toList ++
      (sources.map fun paths => ("sourceList", Json.ofList Json.str paths)).toList

def entriesToJson : List (String × Entry Block) → List (String × Json)
  | [] => []
  | (key, .raw digits) :: rest => (key, .str digits) :: entriesToJson rest
  | (key, .block block) :: rest => (key, block.toJson) :: entriesToJson rest

end

end Block
end CodeAtlas.Assembly
