import CodeAtlas.Bytecode.Opcode
import CodeAtlas.Error
import CodeAtlas.Text.Split
import CodeAtlas.Text.Utf8

/-! Disassembly: byte code as a list of instructions. -/
namespace CodeAtlas

/-- An instruction at a byte position. The operand of a push at the end of the code may be cut. -/
structure Instruction where
  position : Nat
  opcode : UInt8
  data : List UInt8
  deriving DecidableEq, Repr

namespace Instruction

def name (i : Instruction) : String := Opcode.name i.opcode

/-- Whether the code ends before the operand does. -/
def isTruncated (i : Instruction) : Bool := i.data.length < Opcode.pushWidth i.opcode

def decodeFrom (position : Nat) : List UInt8 → List Instruction
  | [] => []
  | opcode :: rest =>
    let width := Opcode.pushWidth opcode
    ⟨position, opcode, rest.take width⟩ :: decodeFrom (position + 1 + width) (rest.drop width)
termination_by code => code.length

def decode (code : List UInt8) : List Instruction := decodeFrom 0 code

/-- The digits of a code given as text: blanks around it and one hexadecimal mark are dropped. -/
def codeDigits (s : String) : List Char := Hex.dropMark (Text.trim s.toList)

def disassemble (s : String) : Except Error (List Instruction) :=
  match Hex.decode (Text.encode (codeDigits s)) with
  | .ok code => .ok (decode code)
  | .error fault => .error (.undecodable (.hex fault))

/-- An instruction as a line: position, opcode, name and operand. -/
def line (i : Instruction) : String :=
  Text.hexadecimal 4 i.position ++ "    " ++ Text.hexadecimal 2 i.opcode.toNat ++ "  " ++ i.name ++
    (if i.data.isEmpty then "" else " 0x" ++ Hex.encode i.data)

def listing (is : List Instruction) : String := String.join (is.map fun i => i.line ++ "\n")

end Instruction
end CodeAtlas
