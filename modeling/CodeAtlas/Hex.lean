import CodeAtlas.Text.Numeral
import CodeAtlas.Text.Printable

/-! Bytes and 256-bit words written in hexadecimal. -/
namespace CodeAtlas.Hex

/-- Drops the mark `0x` or `0X` at the start, once. -/
def dropMark : List Char → List Char
  | '0' :: 'x' :: rest => rest
  | '0' :: 'X' :: rest => rest
  | cs => cs

/-- The value of a byte that is an ASCII hexadecimal digit. -/
def nibble? (b : UInt8) : Option Nat :=
  if b < 0x80 then Text.digit? (Char.ofNat b.toNat) else none

def byteOf (hi lo : Nat) : UInt8 := UInt8.ofNat (16 * hi + lo)

/-- Why a text is not a sequence of bytes. -/
inductive Fault where
  | oddLength
  /-- A byte of the text is no digit. -/
  | invalidDigit (byte : UInt8) (position : Nat)
  deriving DecidableEq, Repr

/-- The wording of a fault. A byte is shown as the character with its number. -/
def Fault.message : Fault → String
  | .oddLength => "Odd number of digits"
  | .invalidDigit byte position =>
    "Invalid character " ++ Text.quoted (Char.ofNat byte.toNat) ++ " at position " ++
      Text.decimal position

/-- The value of the digit at a position, or the fault that it is none. -/
def nibbleAt (position : Nat) (b : UInt8) : Except Fault Nat :=
  match nibble? b with
  | some n => .ok n
  | none => .error (.invalidDigit b position)

/-- Reads digits two by two from a position on; the first wrong digit is the fault. A digit without
a partner is passed over. -/
def decodeFrom : (position : Nat) → List UInt8 → Except Fault (List UInt8)
  | position, a :: b :: rest => do
    let hi ← nibbleAt position a
    let lo ← nibbleAt (position + 1) b
    let more ← decodeFrom (position + 2) rest
    return byteOf hi lo :: more
  | _, _ => .ok []

/-- The bytes that a text of hexadecimal digits denotes. -/
def decode (text : List UInt8) : Except Fault (List UInt8) :=
  if text.length % 2 = 1 then .error .oddLength else decodeFrom 0 text

/-- Bytes as lower-case digits, two each. -/
def encode (bytes : List UInt8) : String :=
  String.join (bytes.map fun b => Text.hexadecimal 2 b.toNat)

def wordBound : Nat := 1 <<< 256

/-- Drops the mark `0x` of a word's digits. -/
def dropWordMark : List Char → List Char
  | '0' :: 'x' :: rest => rest
  | cs => cs

/-- The word that a hexadecimal text denotes. Underscores only separate digits, and the mark may
stand twice. At most 64 digits are taken; nothing at all is no word, nothing after a second mark
is zero. -/
def word? (s : String) : Option Nat :=
  let digits := (dropMark s.toList).filter (· ≠ '_')
  if digits.isEmpty then none
  else
    let body := dropWordMark digits
    if body.length ≤ 64 then Text.digits? 16 0 body else none

/-- The word that a decimal text denotes, if it is small enough. Underscores separate digits. -/
def decimalWord? (s : String) : Option Nat :=
  (Text.numeral? 10 (s.toList.filter (· ≠ '_'))).filter (· < wordBound)

end CodeAtlas.Hex
