import CodeAtlas.Assembly.Block
import CodeAtlas.Bytecode.Opcode
import Std.Data.ExtTreeMap
import Std.Data.ExtTreeSet

/-! The program counters of assembly items. The assembly lists every instruction but not the widths
of its operands; those stand in the flat listing of opcodes. Walking both in step places each item
at its byte offset. -/
namespace CodeAtlas.Assembly

/-- Where the walk stands: the byte offset, the number of tokens and of instructions passed, and
the tokens that remain. -/
structure Cursor where
  offset : Nat := 0
  position : Nat := 0
  ordinal : Nat := 0
  tokens : List String
  deriving DecidableEq, Repr

def Cursor.pass (c : Cursor) (size tokens : Nat) : Cursor :=
  ⟨c.offset + size, c.position + tokens, c.ordinal + 1, c.tokens.drop tokens⟩

/-- The instruction that pushes the address of its own code. -/
def deployAddress : String := "PUSHDEPLOYADDRESS"

/-- Passes one item. An instruction gives the token that stands for it; the push of the deploy
address takes its tokens but gives none, and a pseudo-instruction takes none. -/
def Cursor.place (c : Cursor) (index : Nat) (item : Item) :
    Except Error (Option String × Cursor) :=
  if item.opcode = deployAddress then
    if c.tokens.head? = some "PUSH20" then .ok (none, c.pass 21 2)
    else .error (.undecodable (.notDeployAddress c.position c.tokens.head?))
  else if !item.isInstruction then .ok (none, c)
  else
    match c.tokens with
    | [] => .error (.undecodable (.listingEnded index item.name))
    | token :: _ =>
      if item.isPush then
        match Opcode.widthOfName? token with
        | none => .error (.undecodable (.notPush c.position token))
        | some width => .ok (some token, c.pass (1 + width) (if 0 < width then 2 else 1))
      else .ok (some token, c.pass 1 1)

/-- An item with its index, its byte offset, the number of instructions before it and its token. -/
structure Placed where
  index : Nat
  item : Item
  offset : Nat
  ordinal : Nat
  token : Option String
  deriving DecidableEq, Repr

/-- Places items one after the other from an index and a cursor on. -/
def layoutFrom : (index : Nat) → Cursor → List Item → Except Error (List Placed)
  | _, _, [] => .ok []
  | index, c, item :: items => do
    let (token, next) ← c.place index item
    let rest ← layoutFrom (index + 1) next items
    return ⟨index, item, c.offset, c.ordinal, token⟩ :: rest

def layout (code : List Item) (tokens : List String) : Except Error (List Placed) :=
  layoutFrom 0 { tokens } code

/-- What stands at a program counter: an item's index, its number among the instructions and the
name of its opcode. -/
structure PcRecord where
  index : Nat
  ordinal : Nat
  opcode : String
  deriving DecidableEq, Repr

namespace PcRecord

def toJson (r : PcRecord) : Json :=
  .obj [("index", .nat r.index), ("ordinal", .nat r.ordinal), ("opcode", .str r.opcode)]

def ofJson? (v : Json) : Option PcRecord := do
  let fields ← v.fields? ["index", "ordinal", "opcode"]
  let index ← Json.required? "index" Json.natural? fields
  let ordinal ← Json.required? "ordinal" Json.natural? fields
  let opcode ← Json.required? "opcode" Json.text? fields
  return { index, ordinal, opcode }

end PcRecord

def Placed.record? (p : Placed) : Option (Nat × PcRecord) :=
  p.token.map fun token => (p.offset, ⟨p.index, p.ordinal, token⟩)

/-- The offset of the last tag with a value. -/
def tagOffset? (placed : List Placed) (value : String) : Option Nat :=
  (placed.reverse.find? fun p => p.item.opcode == "tag" && p.item.value == some value).map
    (·.offset)

/-- A text without hexadecimal marks at its start, however many. -/
def dropMarks : List Char → List Char
  | '0' :: 'x' :: rest => dropMarks rest
  | cs => cs

/-- Where the push right before a jump leads to: the offset of a tag, or a number as it stands. -/
def destination? (placed : List Placed) (push : Item) : Option Nat :=
  if push.isPush then
    push.value.bind fun value =>
      if push.name = "PUSH [tag]" then tagOffset? placed value
      else Text.unsigned? 16 (dropMarks value.toList)
  else none

/-- The targets of the conditional jumps among items, given the item before them: the program
counter after each jump, and its destination where it is known. -/
def jumpsAfter (placed : List Placed) : (previous : Option Item) → List Placed → List Nat
  | _, [] => []
  | previous, p :: rest =>
    (if p.item.opcode = "JUMPI" then
      (p.offset + 1) :: (previous.bind (destination? placed)).toList
    else []) ++ jumpsAfter placed (some p.item) rest

/-- The program counters of a block of code: its items, the record at each program counter in
ascending order, and the targets of conditional jumps. -/
structure PcTable where
  code : List Item
  records : List (Nat × PcRecord)
  jumps : Std.ExtTreeSet Nat

namespace PcTable

def ofPlaced (code : List Item) (placed : List Placed) : PcTable where
  code := code
  records := placed.filterMap Placed.record?
  jumps := Std.ExtTreeSet.ofList (jumpsAfter placed none placed) compare

def build (code : List Item) (tokens : List String) : Except Error PcTable :=
  (layout code tokens).map (ofPlaced code)

def record? (t : PcTable) (pc : Nat) : Option PcRecord := t.records.lookup pc

def index? (t : PcTable) (pc : Nat) : Option Nat := (t.record? pc).map (·.index)

def item? (t : PcTable) (pc : Nat) : Option Item := (t.index? pc).bind fun i => t.code[i]?

def pcs (t : PcTable) : List Nat := t.records.map (·.1)

def indexes (t : PcTable) : List (Nat × Nat) := t.records.map fun (pc, r) => (pc, r.index)

def opcodes (t : PcTable) : List (Nat × String) := t.records.map fun (pc, r) => (pc, r.opcode)

/-- The program counters of each opcode, in ascending order. -/
def pcsByOpcode (t : PcTable) : Std.ExtTreeMap String (List Nat) :=
  t.records.foldl (fun m (pc, r) => m.insert r.opcode (m.getD r.opcode [] ++ [pc])) ∅

/-- The records at or below a program counter, the highest first. -/
def upTo (t : PcTable) (pc : Nat) : List (Nat × PcRecord) :=
  (t.records.filter (·.1 ≤ pc)).reverse

/-- How many of a table's program counters are among given ones. -/
def reached (t : PcTable) (pcs : List Nat) : Nat := t.pcs.countP pcs.contains

/-- The same in percent; nothing is reached in an empty table. -/
def coverage (t : PcTable) (pcs : List Nat) : Float :=
  if t.pcs.isEmpty then 0.0
  else (t.reached pcs).toFloat / t.pcs.length.toFloat * 100.0

end PcTable
end CodeAtlas.Assembly
