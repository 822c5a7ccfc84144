/-! Numerals: reading digits in a base, with a sign and a range, and writing them back. -/
namespace CodeAtlas.Text

/-- One more than the largest unsigned machine integer. -/
def wordBound : Nat := 1 <<< 64

/-- One more than the largest signed machine integer. -/
def signedBound : Nat := 1 <<< 63

/-- The value of a decimal or hexadecimal digit. -/
def digit? (c : Char) : Option Nat :=
  if '0' ≤ c ∧ c ≤ '9' then some (c.toNat - 48)
  else if 'a' ≤ c ∧ c ≤ 'f' then some (c.toNat - 87)
  else if 'A' ≤ c ∧ c ≤ 'F' then some (c.toNat - 55)
  else none

def digitIn? (base : Nat) (c : Char) : Option Nat :=
  (digit? c).filter (· < base)

/-- The value of a digit string continued from `value`; nothing if some character is no digit. -/
def digits? (base : Nat) : (value : Nat) → List Char → Option Nat
  | value, [] => some value
  | value, c :: cs => (digitIn? base c).bind fun d => digits? base (value * base + d) cs

/-- The value of a numeral: at least one digit, and digits only. -/
def numeral? (base : Nat) (cs : List Char) : Option Nat :=
  if cs.isEmpty then none else digits? base 0 cs

/-- An unsigned machine integer: a numeral that may follow a plus sign. -/
def unsigned? (base : Nat) (cs : List Char) : Option Nat :=
  (numeral? base (if cs.head? = some '+' then cs.tail else cs)).filter (· < wordBound)

/-- A signed machine integer: a decimal numeral that may follow a sign. -/
def signed? (cs : List Char) : Option Int :=
  match cs with
  | '-' :: rest => ((numeral? 10 rest).filter (· ≤ signedBound)).map fun n => -(n : Int)
  | _ => ((numeral? 10 (if cs.head? = some '+' then cs.tail else cs)).filter (· < signedBound)).map
      Int.ofNat

def decimal (n : Nat) : String := String.ofList (Nat.toDigits 10 n)

def signedDecimal : Int → String
  | .ofNat n => decimal n
  | .negSucc n => "-" ++ decimal (n + 1)

/-- A natural number in lower-case hexadecimal, with zeros in front up to a width. -/
def hexadecimal (width n : Nat) : String :=
  let digits := Nat.toDigits 16 n
  String.ofList (List.replicate (width - digits.length) '0' ++ digits)

end CodeAtlas.Text
