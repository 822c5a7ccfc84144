import CodeAtlas.Proofs.Text.Utf8
import Mathlib.Data.String.Basic
import Mathlib.Tactic.IntervalCases

/-! Texts are ordered as their UTF-8 bytes are. The first byte of a sequence tells its length, and
the bytes after it are the digits of the character's number in base 64. -/
namespace CodeAtlas.Text

variable {c d : Char} {cs ds : List Char} {s t : String} {xs ys : List UInt8} {j k v w q r : Nat}

/-! ### Characters -/

/-- The first number that does not fit in a sequence with so many bytes after the first. -/
def codeLimit : Nat → Nat
  | 0 => 0x80
  | 1 => 0x800
  | 2 => 0x10000
  | _ => 0x110000

/-- The first byte of a sequence with so many bytes after it. -/
def leadByte : Nat → Nat → UInt8
  | 0, q => UInt8.ofNat q
  | 1, q => UInt8.ofNat (q % 32 + 192)
  | 2, q => UInt8.ofNat (q % 16 + 224)
  | _, q => UInt8.ofNat (q % 8 + 240)

/-- The bytes after the first: the last digits of a number in base 64. -/
def tailBytes : Nat → Nat → List UInt8
  | 0, _ => []
  | k + 1, v => tailBytes k (v / 64) ++ [UInt8.ofNat (v % 64 + 128)]

theorem codeLimit_le (h : j ≤ k) : codeLimit j ≤ codeLimit k := by
  match j, k with
  | 0, 0 | 0, 1 | 0, 2 | 0, _ + 3 | 1, 1 | 1, 2 | 1, _ + 3 | 2, 2 | 2, _ + 3 | _ + 3, _ + 3 =>
    simp [codeLimit]
  | _ + 1, 0 | _ + 2, 1 | _ + 3, 2 => omega

/-- A sequence is as short as the number allows. -/
theorem exists_encodeChar (c : Char) :
    ∃ k ≤ 3, c.toNat < codeLimit k ∧ (∀ j, k = j + 1 → codeLimit j ≤ c.toNat) ∧
      String.utf8EncodeChar c = leadByte k (c.toNat / 64 ^ k) :: tailBytes k c.toNat := by
  have hvalid : c.val.toNat < 0xd800 ∨ 0xdfff < c.val.toNat ∧ c.val.toNat < 0x110000 := c.valid
  unfold String.utf8EncodeChar
  change ∃ k ≤ 3, c.val.toNat < codeLimit k ∧ (∀ j, k = j + 1 → codeLimit j ≤ c.val.toNat) ∧
    _ = leadByte k (c.val.toNat / 64 ^ k) :: tailBytes k c.val.toNat
  generalize c.val.toNat = v at *
  dsimp only
  split_ifs with h0 h1 h2
  · exact ⟨0, by decide, Nat.lt_succ_of_le h0, by simp, by simp [leadByte, tailBytes]⟩
  · refine ⟨1, by decide, Nat.lt_succ_of_le h1, ?_, by simp [leadByte, tailBytes]⟩
    rintro j ⟨⟩
    exact Nat.lt_of_not_le h0
  · refine ⟨2, by decide, Nat.lt_succ_of_le h2, ?_, ?_⟩
    · rintro j ⟨⟩
      exact Nat.lt_of_not_le h1
    · simp [leadByte, tailBytes]
  · refine ⟨3, by decide, by simp only [codeLimit]; omega, ?_, ?_⟩
    · rintro j ⟨⟩
      exact Nat.lt_of_not_le h2
    · simp [leadByte, tailBytes, Nat.div_div_eq_div_mul]

/-- A longer sequence starts with a greater byte. -/
theorem leadByte_lt_of_length (hj : j < k) (hk : k ≤ 3) (hv : v < codeLimit j) :
    leadByte j (v / 64 ^ j) < leadByte k r := by
  interval_cases k <;> interval_cases j <;>
    simp only [leadByte, codeLimit, UInt8.lt_iff_toNat_lt, UInt8.toNat_ofNat'] at hv ⊢ <;> omega

/-- Among sequences of one length the first byte grows with the number. -/
theorem leadByte_lt (hk : k ≤ 3) (hw : w < codeLimit k) (h : q < w / 64 ^ k) :
    leadByte k q < leadByte k (w / 64 ^ k) := by
  interval_cases k <;>
    simp only [leadByte, codeLimit, UInt8.lt_iff_toNat_lt, UInt8.toNat_ofNat'] at hw h ⊢ <;> omega

/-- Of two numbers the first digit that differs decides. -/
theorem tailBytes_lt {f : Nat → UInt8} (hf : ∀ q < w / 64 ^ k, f q < f (w / 64 ^ k)) (h : v < w)
    (xs ys : List UInt8) :
    f (v / 64 ^ k) :: (tailBytes k v ++ xs) < f (w / 64 ^ k) :: (tailBytes k w ++ ys) := by
  induction k generalizing v w xs ys with
  | zero => exact List.cons_lt_cons_iff.2 (.inl (hf _ (by simpa using h)))
  | succ k ih =>
    have hdiv (n : Nat) : n / 64 ^ (k + 1) = n / 64 / 64 ^ k := by
      rw [Nat.div_div_eq_div_mul, Nat.pow_succ, Nat.mul_comm]
    rw [hdiv] at hf
    rw [hdiv, hdiv, tailBytes, tailBytes, List.append_assoc, List.append_assoc]
    rcases Nat.lt_or_ge (v / 64) (w / 64) with hlt | hge
    · exact ih hf hlt _ _
    · have heq : v / 64 = w / 64 := by omega
      have hlast : UInt8.ofNat (v % 64 + 128) < UInt8.ofNat (w % 64 + 128) := by
        rw [UInt8.lt_iff_toNat_lt, toNat_tail, toNat_tail]
        omega
      rw [heq]
      exact List.cons_lt_cons_iff.2
        (.inr ⟨rfl, List.append_left_lt (List.cons_lt_cons_iff.2 (.inl hlast))⟩)

/-- The lesser of two characters has the lesser bytes, whatever follows them. -/
theorem encodeChar_append_lt (h : c < d) (xs ys : List UInt8) :
    String.utf8EncodeChar c ++ xs < String.utf8EncodeChar d ++ ys := by
  have hlt : c.toNat < d.toNat := h
  obtain ⟨j, hj, hc, hbelow, hbytes⟩ := exists_encodeChar c
  obtain ⟨k, hk, hd, _, hbytes'⟩ := exists_encodeChar d
  rw [hbytes, hbytes', List.cons_append, List.cons_append]
  rcases Nat.lt_trichotomy j k with hjk | rfl | hkj
  · exact List.cons_lt_cons_iff.2 (.inl (leadByte_lt_of_length hjk hk hc))
  · exact tailBytes_lt (f := leadByte j) (fun q hq => leadByte_lt hj hd hq) hlt xs ys
  · cases j with
    | zero => omega
    | succ i =>
      have hlower := hbelow i rfl
      have hle : codeLimit k ≤ codeLimit i := codeLimit_le (Nat.le_of_lt_succ hkj)
      omega

/-! ### Texts -/

theorem encode_lt_of_lt (h : cs < ds) : encode cs < encode ds := by
  induction cs generalizing ds with
  | nil =>
    cases ds with
    | nil => exact absurd h (List.lt_irrefl [])
    | cons d ds =>
      obtain ⟨k, _, _, _, hbytes⟩ := exists_encodeChar d
      rw [encode, encode, List.flatMap_cons, hbytes]
      exact List.nil_lt_cons _ _
  | cons c cs ih =>
    cases ds with
    | nil => exact absurd h (List.not_lt_nil _)
    | cons d ds =>
      rw [encode, encode, List.flatMap_cons, List.flatMap_cons]
      rcases List.cons_lt_cons_iff.1 h with hchar | ⟨rfl, hrest⟩
      · exact encodeChar_append_lt hchar _ _
      · exact List.append_left_lt (ih hrest)

theorem bytes_lt_iff : bytes s < bytes t ↔ s < t := by
  constructor
  · intro h
    rcases lt_trichotomy s t with hlt | rfl | hgt
    · exact hlt
    · exact absurd h (List.lt_irrefl _)
    · exact absurd h (List.lt_asymm (encode_lt_of_lt hgt))
  · exact encode_lt_of_lt

theorem bytes_le_iff : bytes s ≤ bytes t ↔ s ≤ t := by
  rw [← not_lt, ← bytes_lt_iff]
  exact List.not_lt.symm

end CodeAtlas.Text
