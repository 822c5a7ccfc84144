import CodeAtlas.Text.Numeral
import CodeAtlas.Text.Split

/-! The vocabulary of EVM code: names of opcodes and the widths of push operands. -/
namespace CodeAtlas.Opcode

/-- The opcodes that belong to no numbered family. -/
def singles : List (UInt8 × String) :=
  [(0x00, "STOP"), (0x01, "ADD"), (0x02, "MUL"), (0x03, "SUB"), (0x04, "DIV"), (0x05, "SDIV"),
   (0x06, "MOD"), (0x07, "SMOD"), (0x08, "ADDMOD"), (0x09, "MULMOD"), (0x0a, "EXP"),
   (0x0b, "SIGNEXTEND"), (0x10, "LT"), (0x11, "GT"), (0x12, "SLT"), (0x13, "SGT"), (0x14, "EQ"),
   (0x15, "ISZERO"), (0x16, "AND"), (0x17, "OR"), (0x18, "XOR"), (0x19, "NOT"), (0x1a, "BYTE"),
   (0x1b, "SHL"), (0x1c, "SHR"), (0x1d, "SAR"), (0x20, "SHA3"), (0x30, "ADDRESS"),
   (0x31, "BALANCE"), (0x32, "ORIGIN"), (0x33, "CALLER"), (0x34, "CALLVALUE"),
   (0x35, "CALLDATALOAD"), (0x36, "CALLDATASIZE"), (0x37, "CALLDATACOPY"), (0x38, "CODESIZE"),
   (0x39, "CODECOPY"), (0x3a, "GASPRICE"), (0x3b, "EXTCODESIZE"), (0x3c, "EXTCODECOPY"),
   (0x3d, "RETURNDATASIZE"), (0x3e, "RETURNDATACOPY"), (0x3f, "EXTCODEHASH"), (0x40, "BLOCKHASH"),
   (0x41, "COINBASE"), (0x42, "TIMESTAMP"), (0x43, "NUMBER"), (0x44, "DIFFICULTY"),
   (0x45, "GASLIMIT"), (0x46, "CHAINID"), (0x47, "SELFBALANCE"), (0x48, "BASEFEE"),
   (0x49, "BLOBHASH"), (0x4a, "BLOBBASEFEE"), (0x50, "POP"), (0x51, "MLOAD"), (0x52, "MSTORE"),
   (0x53, "MSTORE8"), (0x54, "SLOAD"), (0x55, "SSTORE"), (0x56, "JUMP"), (0x57, "JUMPI"),
   (0x58, "PC"), (0x59, "MSIZE"), (0x5a, "GAS"), (0x5b, "JUMPDEST"), (0x5c, "TLOAD"),
   (0x5d, "TSTORE"), (0x5e, "MCOPY"), (0xf0, "CREATE"), (0xf1, "CALL"), (0xf2, "CALLCODE"),
   (0xf3, "RETURN"), (0xf4, "DELEGATECALL"), (0xf5, "CREATE2"), (0xfa, "STATICCALL"),
   (0xfd, "REVERT"), (0xfe, "INVALID"), (0xff, "SELFDESTRUCT")]

/-- A member of a numbered family, counted from its first opcode. -/
def numbered (family : String) (first opcode : UInt8) (start : Nat) : String :=
  family ++ Text.decimal (opcode.toNat - first.toNat + start)

def name? (opcode : UInt8) : Option String :=
  if 0x5f ≤ opcode ∧ opcode ≤ 0x7f then some (numbered "PUSH" 0x5f opcode 0)
  else if 0x80 ≤ opcode ∧ opcode ≤ 0x8f then some (numbered "DUP" 0x80 opcode 1)
  else if 0x90 ≤ opcode ∧ opcode ≤ 0x9f then some (numbered "SWAP" 0x90 opcode 1)
  else if 0xa0 ≤ opcode ∧ opcode ≤ 0xa4 then some (numbered "LOG" 0xa0 opcode 0)
  else singles.lookup opcode

/-- The name of an opcode, with a stand-in for unassigned ones. -/
def name (opcode : UInt8) : String := (name? opcode).getD "UNKNOWN"

def isAssigned (opcode : UInt8) : Bool := (name? opcode).isSome

def push4 : UInt8 := 0x63

def eq : UInt8 := 0x14

def jumpi : UInt8 := 0x57

/-- How many operand bytes follow an opcode; only pushes have any. -/
def pushWidth (opcode : UInt8) : Nat :=
  if 0x60 ≤ opcode ∧ opcode ≤ 0x7f then opcode.toNat - 0x5f else 0

/-- The operand width in the name of a push, at most 32. -/
def widthOfName? (name : String) : Option Nat :=
  (Text.afterStart? "PUSH".toList name.toList).bind fun digits =>
    (Text.unsigned? 10 digits).filter (· ≤ 32)

end CodeAtlas.Opcode
