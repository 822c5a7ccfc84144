/-! Doubles without sign, in exact arithmetic. -/
namespace CodeAtlas

/-- The magnitude `mantissa * 2 ^ exponent`. A rounded one has a mantissa of at most `2 ^ 53`, and its
exponent is not below that of the smallest double; above, the exponent has no bound. -/
structure Double where
  mantissa : Nat
  exponent : Int
  deriving DecidableEq, Repr, Inhabited

namespace Double

/-- The natural number nearest to a quotient. Of two that are equally near it is the even one. -/
def nearest (num den : Nat) : Nat :=
  let below := num / den
  let twice := 2 * (num % den)
  if den < twice ∨ (den = twice ∧ below % 2 = 1) then below + 1 else below

/-- The exponent of the largest power of two that a positive quotient reaches. -/
def leading (num den : Nat) : Int :=
  let guess : Int := (num.log2 : Int) - den.log2
  if den <<< guess.toNat ≤ num <<< (-guess).toNat then guess else guess - 1

/-- The double nearest to a quotient: 53 binary places from its leading one on, or fewer where the
last of them would lie below the smallest double. -/
def ofQuotient (num den : Nat) : Double :=
  if num = 0 then ⟨0, 0⟩
  else
    let exponent := max (leading num den - 52) (-1074)
    ⟨nearest (num <<< (-exponent).toNat) (den <<< exponent.toNat), exponent⟩

def ofNat (n : Nat) : Double := ofQuotient n 1

def mul (a b : Double) : Double :=
  let exponent := a.exponent + b.exponent
  ofQuotient ((a.mantissa * b.mantissa) <<< exponent.toNat) (1 <<< (-exponent).toNat)

def div (a b : Double) : Double :=
  let exponent := a.exponent - b.exponent
  ofQuotient (a.mantissa <<< exponent.toNat) (b.mantissa <<< (-exponent).toNat)

/-- Whether a double lies in the finite range. -/
def isFinite (a : Double) : Bool := a.mantissa <<< a.exponent.toNat < 1 <<< 1024

/-- The largest power of ten in the finite range. -/
def lastPlace : Nat := 308

def tenTo (places : Nat) : Double := ofNat (Nat.pow 10 places)

/-- Moves the decimal point to the left, at most `lastPlace` places at a time, each time rounded. -/
def scaleDown (a : Double) (places : Nat) : Double :=
  if a.mantissa = 0 then a
  else if places ≤ lastPlace then a.div (tenTo places)
  else (a.div (tenTo lastPlace)).scaleDown (places - lastPlace)
termination_by places
decreasing_by simp only [lastPlace] at *; omega

/-- The double for `significand * 10 ^ exponent`: the significand is rounded, then multiplied or
divided by a rounded power of ten. A result beyond the finite range is refused, and so is any
multiple of a power of ten beyond it. -/
def ofDecimal? (significand : Nat) (exponent : Int) : Option Double :=
  let rounded := ofNat significand
  if exponent < 0 then some (rounded.scaleDown (-exponent).toNat)
  else if significand = 0 then some rounded
  else if (lastPlace : Int) < exponent then none
  else
    let product := rounded.mul (tenTo exponent.toNat)
    if product.isFinite then some product else none

end Double
end CodeAtlas
