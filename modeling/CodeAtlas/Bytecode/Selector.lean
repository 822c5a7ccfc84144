import CodeAtlas.Bytecode.Instruction
import CodeAtlas.Json.Decode
import Std.Data.ExtTreeSet

/-! Recovery of function selectors from byte code. A dispatcher compares the called selector with
each known one: it pushes four bytes, compares, and jumps if they are equal. A push of four bytes
opens a window; a comparison inside confirms it; a conditional jump closes it. -/
namespace CodeAtlas.Selector

/-- A step of the scan: an assigned opcode, or none, and the digits of its operand. -/
structure Step where
  opcode : Option UInt8
  operand : List UInt8
  deriving DecidableEq, Repr

/-- The byte that two characters denote: two digits, or one digit after a plus sign. -/
def pair? (a b : UInt8) : Option UInt8 :=
  match Hex.nibble? b with
  | none => none
  | some lo => if a = 43 then some (Hex.byteOf 0 lo) else (Hex.nibble? a).map (Hex.byteOf · lo)

/-- The steps of a text of digits. A pair that is no byte or no assigned opcode is a step of its
own. -/
def steps : List UInt8 → List Step
  | a :: b :: rest =>
    match (pair? a b).filter Opcode.isAssigned with
    | none => ⟨none, []⟩ :: steps rest
    | some opcode =>
      let width := 2 * Opcode.pushWidth opcode
      ⟨some opcode, rest.take width⟩ :: steps (rest.drop width)
  | _ => []
termination_by digits => digits.length

/-- An open window: how many digits were read since the operand began, a count of the comparisons
that starts at one, and the candidate. -/
structure Window where
  age : Nat
  confidence : UInt32
  candidate : String
  deriving DecidableEq, Repr

def Window.later (n : Nat) (w : Window) : Window := { w with age := w.age + n }

def Window.confirmed (w : Window) : Window := { w with confidence := w.confidence + 1 }

/-- A window lives while its age, in digits, is at most twice the size given in bytes. Twice the size
is a machine word and wraps: a size with the top bit set counts without it. -/
def expire (size : UInt64) (window : Option Window) : Option Window :=
  window.filter (·.age ≤ (2 * size).toNat)

/-- The window that a push of four bytes opens. Its operand must be complete. -/
def opened? (opcode : UInt8) (operand : List UInt8) : Option Window :=
  if opcode = Opcode.push4 ∧ operand.length = 8 ∧ operand.all (Hex.nibble? · |>.isSome) then
    some ⟨8, 1, String.ofList (operand.map fun b => (Char.ofNat b.toNat).toLower)⟩
  else none

/-- Takes a step: the window after it and the selector it found. Only assigned opcodes let a window
expire, and a conditional jump closes it before it can. -/
def advance (size : UInt64) (window : Option Window) (step : Step) : Option Window × Option String :=
  let window := window.map (·.later 2)
  match step.opcode with
  | none => (window, none)
  | some opcode =>
    if 0 < Opcode.pushWidth opcode then
      (expire size ((opened? opcode step.operand).or (window.map (·.later step.operand.length))),
        none)
    else if opcode = Opcode.eq then (expire size (window.map Window.confirmed), none)
    else if opcode = Opcode.jumpi then
      (none, (window.filter (1 < ·.confidence)).map (·.candidate))
    else (expire size window, none)

/-- The selectors found from a window on, in order. -/
def scan (size : UInt64) : Option Window → List Step → List String
  | _, [] => []
  | window, step :: rest =>
    match advance size window step with
    | (window, none) => scan size window rest
    | (window, some found) => found :: scan size window rest

/-- The mask that old dispatchers push before the comparison; it is no selector. -/
def mask : String := "ffffffff"

/-- The size of a window in bytes when none is given. -/
def defaultSize : UInt64 := 10

/-- The selectors of a code given in hexadecimal. -/
def recover (s : String) (size : UInt64) : Std.ExtTreeSet String :=
  (Std.ExtTreeSet.ofList (scan size none (steps (Text.encode (Instruction.codeDigits s)))) compare).erase
    mask

def sizeOfJson? (v : Json) : Option UInt64 := do
  let fields ← v.fields? ["window_size"]
  let size ← Json.required? "window_size" Json.natural? fields
  return .ofNat size

end CodeAtlas.Selector
