import CodeAtlas.Text.Numeral
import Mathlib.Data.List.Forall2
import Mathlib.Data.Nat.Digits.Defs
import Mathlib.Tactic.Ring

/-! Which texts are read as numbers, and as which. -/
namespace CodeAtlas.Text

variable {base value n d : Nat} {c : Char} {cs : List Char}

/-- A character is the digit with a value, in either case of its letter. -/
def IsDigit (base : Nat) (c : Char) (d : Nat) : Prop :=
  d < base ∧ (c = Nat.digitChar d ∨ c = (Nat.digitChar d).toUpper)

instance (base : Nat) (c : Char) (d : Nat) : Decidable (IsDigit base c d) :=
  inferInstanceAs (Decidable (d < base ∧ (c = Nat.digitChar d ∨ c = (Nat.digitChar d).toUpper)))

/-- A text is a numeral: digits, at least one, of which the first counts most. -/
def IsNumeral (base : Nat) (cs : List Char) (n : Nat) : Prop :=
  cs ≠ [] ∧ ∃ ds, List.Forall₂ (IsDigit base) cs ds ∧ n = Nat.ofDigits base ds.reverse

/-- A text is an unsigned machine integer: a numeral in range that may follow a plus sign. -/
def IsUnsigned (base : Nat) (cs : List Char) (n : Nat) : Prop :=
  n < wordBound ∧ ∃ digits, (cs = digits ∨ cs = '+' :: digits) ∧ IsNumeral base digits n

theorem digit?_eq_some_iff : digit? c = some d ↔ IsDigit 16 c d := by
  constructor
  · intro h
    -- All digits are ASCII characters, so there are finitely many to look at.
    have hall : ∀ k < 128, ∀ d ∈ digit? (Char.ofNat k),
        d < 16 ∧ (Char.ofNat k = Nat.digitChar d ∨ Char.ofNat k = (Nat.digitChar d).toUpper) := by
      decide +kernel
    have hascii : c.toNat < 128 := by
      unfold digit? at h
      split at h
      next hc => exact Nat.lt_of_le_of_lt hc.2 (by decide)
      · split at h
        next hc => exact Nat.lt_of_le_of_lt hc.2 (by decide)
        · split at h
          next hc => exact Nat.lt_of_le_of_lt hc.2 (by decide)
          · cases h
    have hc := hall c.toNat hascii d
    rw [Char.ofNat_toNat] at hc
    exact hc h
  · rintro ⟨hlt, hc⟩
    have hall : ∀ d < 16, digit? (Nat.digitChar d) = some d ∧
        digit? (Nat.digitChar d).toUpper = some d := by decide
    rcases hc with rfl | rfl
    · exact (hall d hlt).1
    · exact (hall d hlt).2

theorem digitIn?_eq_some_iff (hbase : base ≤ 16) :
    digitIn? base c = some d ↔ IsDigit base c d := by
  rw [digitIn?, Option.filter_eq_some_iff, digit?_eq_some_iff]
  unfold IsDigit
  constructor
  · rintro ⟨⟨_, hc⟩, hlt⟩
    exact ⟨by simpa using hlt, hc⟩
  · rintro ⟨hlt, hc⟩
    exact ⟨⟨by omega, hc⟩, by simpa using hlt⟩

/-- A digit in front counts as part of what was read before it. -/
theorem ofDigits_reverse_cons (base value d : Nat) (ds : List Nat) :
    Nat.ofDigits base (d :: ds).reverse + base ^ (ds.length + 1) * value =
      Nat.ofDigits base ds.reverse + base ^ ds.length * (value * base + d) := by
  rw [List.reverse_cons, Nat.ofDigits_append, List.length_reverse, Nat.ofDigits_singleton,
    Nat.pow_succ]
  ring

/-- Digits are read from the first on, each counting less than what was read before it. -/
theorem digits?_eq_some_iff (hbase : base ≤ 16) :
    digits? base value cs = some n ↔
      ∃ ds, List.Forall₂ (IsDigit base) cs ds ∧
        n = Nat.ofDigits base ds.reverse + base ^ cs.length * value := by
  induction cs generalizing value with
  | nil => simp [digits?, eq_comm]
  | cons c cs ih =>
    simp only [digits?, Option.bind_eq_some_iff, digitIn?_eq_some_iff hbase, ih]
    constructor
    · rintro ⟨d, hd, ds, hds, rfl⟩
      refine ⟨d :: ds, .cons hd hds, ?_⟩
      rw [List.length_cons, hds.length_eq, ofDigits_reverse_cons]
    · rintro ⟨_, hall, rfl⟩
      cases hall with
      | @cons _ d _ ds hd hds =>
        refine ⟨d, hd, ds, hds, ?_⟩
        rw [List.length_cons, hds.length_eq, ofDigits_reverse_cons]

theorem IsDigit.eq_digitChar (h : IsDigit 10 c d) : c = Nat.digitChar d := by
  have hupper : ∀ d < 10, (Nat.digitChar d).toUpper = Nat.digitChar d := by decide
  obtain ⟨hlt, hc⟩ := h
  rwa [hupper d hlt, or_self] at hc

theorem numeral?_eq_some_iff (hbase : base ≤ 16) :
    numeral? base cs = some n ↔ IsNumeral base cs n := by
  unfold numeral? IsNumeral
  cases cs with
  | nil => simp
  | cons c cs => simp [digits?_eq_some_iff hbase]

theorem not_isNumeral_plus (hbase : base ≤ 16) : ¬ IsNumeral base ('+' :: cs) n := by
  rintro ⟨_, _, hall, _⟩
  cases hall with
  | cons hd _ => cases (digitIn?_eq_some_iff hbase).2 hd

/-- An unsigned number is read from just the texts that are one. -/
theorem unsigned?_eq_some_iff (hbase : base ≤ 16) :
    unsigned? base cs = some n ↔ IsUnsigned base cs n := by
  rw [unsigned?, Option.filter_eq_some_iff, numeral?_eq_some_iff hbase, decide_eq_true_iff,
    and_comm]
  refine and_congr_right fun _ => ?_
  split
  next hplus =>
    obtain ⟨digits, rfl⟩ := List.head?_eq_some_iff.1 hplus
    constructor
    · exact fun h => ⟨digits, .inr rfl, h⟩
    · rintro ⟨_, rfl | heq, h⟩
      · exact absurd h (not_isNumeral_plus hbase)
      · cases heq
        exact h
  next hplus =>
    constructor
    · exact fun h => ⟨cs, .inl rfl, h⟩
    · rintro ⟨_, rfl | rfl, h⟩
      · exact h
      · exact absurd rfl hplus

/-! ### Decimals -/

/-- Digits read after a number that is not zero go on in its decimal. -/
theorem toDigits_append_of_digits? (hvalue : 0 < value) (h : digits? 10 value cs = some n) :
    Nat.toDigits 10 value ++ cs = Nat.toDigits 10 n := by
  induction cs generalizing value with
  | nil =>
    cases h
    exact List.append_nil _
  | cons c cs ih =>
    obtain ⟨d, hd, hrest⟩ := Option.bind_eq_some_iff.1 h
    have hdigit := (digitIn?_eq_some_iff (by decide)).1 hd
    have hnext : Nat.toDigits 10 (value * 10 + d) = Nat.toDigits 10 value ++ [c] := by
      rw [Nat.mul_comm, ← Nat.toDigits_append_toDigits (by decide) hvalue hdigit.1,
        Nat.toDigits_of_lt_base hdigit.1, hdigit.eq_digitChar]
    rw [← ih (by omega) hrest, hnext]
    simp

/-- A numeral in which no zero stands before another digit is the decimal of its number. -/
theorem decimal_of_numeral? (h : numeral? 10 cs = some n)
    (hzero : ¬(cs.head? = some '0' ∧ 1 < cs.length)) : (decimal n).toList = cs := by
  rw [decimal, String.toList_ofList]
  cases cs with
  | nil => cases h
  | cons c cs =>
    obtain ⟨d, hd, hrest⟩ := Option.bind_eq_some_iff.1 h
    have hdigit := (digitIn?_eq_some_iff (by decide)).1 hd
    rw [Nat.zero_mul, Nat.zero_add] at hrest
    rcases Nat.eq_zero_or_pos d with rfl | hpos
    · have hc : c = '0' := hdigit.eq_digitChar
      have hcs : cs = [] := by
        by_contra hne
        exact hzero ⟨congrArg some hc, Nat.succ_lt_succ (List.length_pos_iff.2 hne)⟩
      subst hc hcs
      cases hrest
      rfl
    · rw [← toDigits_append_of_digits? hpos hrest, Nat.toDigits_of_lt_base hdigit.1,
        ← hdigit.eq_digitChar]
      rfl

/-! ### Hexadecimal texts -/

theorem digits?_append (base value : Nat) (cs ds : List Char) :
    digits? base value (cs ++ ds) =
      (digits? base value cs).bind fun value => digits? base value ds := by
  induction cs generalizing value with
  | nil => rfl
  | cons c cs ih => simp [digits?, ih, Option.bind_assoc]

/-- The digits of a number are read back as that number. -/
theorem digits?_toDigits (hlow : 1 < base) (hbase : base ≤ 16) (n : Nat) :
    digits? base 0 (Nat.toDigits base n) = some n := by
  have hdigit : ∀ d < base, digitIn? base (Nat.digitChar d) = some d := by
    intro d hd
    exact (digitIn?_eq_some_iff hbase).2 ⟨hd, .inl rfl⟩
  induction n using Nat.strongRecOn with
  | ind n ih =>
    rw [Nat.toDigits_eq_if hlow]
    split
    next hlt => simp [digits?, hdigit n hlt]
    next hge =>
      have hsmaller : n / base < n := Nat.div_lt_self (by omega) hlow
      have hlast : n % base < base := Nat.mod_lt n (by omega)
      rw [digits?_append, ih _ hsmaller]
      simp [digits?, hdigit _ hlast, Nat.div_add_mod']

theorem digits?_zeros (width : Nat) (cs : List Char) :
    digits? 16 0 (List.replicate width '0' ++ cs) = digits? 16 0 cs := by
  induction width with
  | zero => rfl
  | succ width ih =>
    have hzero : digitIn? 16 '0' = some 0 := by decide
    simpa [List.replicate_succ, digits?, hzero] using ih

/-- Zeros in front do not change the number that is read. -/
theorem digits?_hexadecimal (width n : Nat) :
    digits? 16 0 (hexadecimal width n).toList = some n := by
  simpa [hexadecimal, digits?_zeros] using digits?_toDigits (by decide) (Nat.le_refl 16) n

theorem hexadecimal_injective (width : Nat) : Function.Injective (hexadecimal width) := by
  intro m n h
  have hread := digits?_hexadecimal width m
  rw [h, digits?_hexadecimal] at hread
  exact (Option.some.inj hread).symm

theorem isSome_digit?_of_digits? (h : digits? base value cs = some n) (hc : c ∈ cs) :
    (digit? c).isSome = true := by
  induction cs generalizing value with
  | nil => simp at hc
  | cons x cs ih =>
    obtain ⟨d, hd, hrest⟩ := Option.bind_eq_some_iff.1 h
    obtain rfl | hc := List.mem_cons.1 hc
    · rw [(Option.filter_eq_some_iff.1 hd).1]
      rfl
    · exact ih hrest hc

/-- Hexadecimal texts are made of digits. -/
theorem notMem_hexadecimal (h : digit? c = none) (width n : Nat) :
    c ∉ (hexadecimal width n).toList := by
  intro hmem
  have hsome := isSome_digit?_of_digits? (digits?_hexadecimal width n) hmem
  simp [h] at hsome

/-- A number that fits is as long as the text is meant to be. -/
theorem length_hexadecimal {width : Nat} (hwidth : 0 < width) (h : n < 16 ^ width) :
    (hexadecimal width n).toList.length = width := by
  have hle : (Nat.toDigits 16 n).length ≤ width :=
    (Nat.length_toDigits_le_iff (by decide) hwidth).2 h
  simp only [hexadecimal, String.toList_ofList, List.length_append, List.length_replicate]
  omega

end CodeAtlas.Text
