import CodeAtlas.Hex

/-! Hexadecimal digits and the bytes that they denote. -/
namespace CodeAtlas.Hex

variable {digits bytes : List UInt8} {b : UInt8} {n hi lo : Nat}

/-- The digits of a text denote bytes, two digits for each. -/
inductive Denotes : List UInt8 → List UInt8 → Prop where
  | nil : Denotes [] []
  | cons {a b : UInt8} {hi lo : Nat} {digits bytes : List UInt8} (high : nibble? a = some hi)
      (low : nibble? b = some lo) (rest : Denotes digits bytes) :
      Denotes (a :: b :: digits) (byteOf hi lo :: bytes)

theorem nibbleAt_eq_ok {position : Nat} : nibbleAt position b = .ok n ↔ nibble? b = some n := by
  unfold nibbleAt
  cases nibble? b <;> simp

theorem denotes_of_decodeFrom {position : Nat} (h : decodeFrom position digits = .ok bytes)
    (heven : digits.length % 2 = 0) : Denotes digits bytes := by
  fun_induction decodeFrom position digits generalizing bytes with
  | case1 position a b rest ih =>
    cases hhi : nibbleAt position a with
    | error e => simp [hhi, bind, Except.bind] at h
    | ok hi =>
      cases hlo : nibbleAt (position + 1) b with
      | error e => simp [hhi, hlo, bind, Except.bind] at h
      | ok lo =>
        cases hmore : decodeFrom (position + 2) rest with
        | error e => simp [hhi, hlo, hmore, bind, Except.bind] at h
        | ok more =>
          simp only [hhi, hlo, hmore, bind, Except.bind, pure, Except.pure] at h
          cases h
          have hrest : rest.length % 2 = 0 := by
            simp only [List.length_cons] at heven
            omega
          exact .cons (nibbleAt_eq_ok.1 hhi) (nibbleAt_eq_ok.1 hlo) (ih hmore hrest)
  | case2 digits position hshort =>
    cases h
    match digits with
    | [] => exact .nil
    | [_] => simp at heven
    | a :: b :: rest => exact (hshort a b rest rfl).elim

theorem denotes_of_decode (h : decode digits = .ok bytes) : Denotes digits bytes := by
  unfold decode at h
  split at h
  · cases h
  · exact denotes_of_decodeFrom h (by omega)

theorem Denotes.length_eq (h : Denotes digits bytes) : digits.length = 2 * bytes.length := by
  induction h with
  | nil => rfl
  | cons _ _ _ ih =>
    simp only [List.length_cons, ih]
    omega

theorem Denotes.take (h : Denotes digits bytes) (n : Nat) :
    Denotes (digits.take (2 * n)) (bytes.take n) := by
  induction h generalizing n with
  | nil => simpa using .nil
  | cons high low _ ih =>
    cases n with
    | zero => exact .nil
    | succ n => exact .cons high low (ih n)

theorem Denotes.drop (h : Denotes digits bytes) (n : Nat) :
    Denotes (digits.drop (2 * n)) (bytes.drop n) := by
  induction h generalizing n with
  | nil => simpa using .nil
  | cons high low rest ih =>
    cases n with
    | zero => exact .cons high low rest
    | succ n => exact ih n

/-- A digit has a value below sixteen, and its lower-case form is the one written for that value. -/
theorem lower_of_nibble? (h : nibble? b = some n) :
    n < 16 ∧ (Char.ofNat b.toNat).toLower = Nat.digitChar n := by
  have hall : ∀ k < 256, ∀ m ∈ nibble? (UInt8.ofNat k),
      m < 16 ∧ (Char.ofNat (UInt8.ofNat k).toNat).toLower = Nat.digitChar m := by decide +kernel
  have := hall b.toNat (UInt8.toNat_lt b) n
  simp only [UInt8.ofNat_toNat] at this
  exact this h

theorem hexadecimal_byteOf (hhi : hi < 16) (hlo : lo < 16) :
    Text.hexadecimal 2 (byteOf hi lo).toNat =
      String.ofList [Nat.digitChar hi, Nat.digitChar lo] := by
  have hbyte : (byteOf hi lo).toNat = 16 * hi + lo := by
    have hbound : 16 * hi + lo < UInt8.size := by
      simp only [UInt8.size]
      omega
    rw [byteOf, UInt8.toNat_ofNat_of_lt' hbound]
  have hall : ∀ hi < 16, ∀ lo < 16,
      List.replicate (2 - (Nat.toDigits 16 (16 * hi + lo)).length) '0' ++
        Nat.toDigits 16 (16 * hi + lo) = [Nat.digitChar hi, Nat.digitChar lo] := by decide
  rw [hbyte, Text.hexadecimal, hall hi hhi lo hlo]

theorem encode_cons (b : UInt8) (bytes : List UInt8) :
    encode (b :: bytes) = Text.hexadecimal 2 b.toNat ++ encode bytes := by
  simp [encode]

/-- The lower-case form of digits is what is written for the bytes that they denote. -/
theorem Denotes.lower (h : Denotes digits bytes) :
    String.ofList (digits.map fun b => (Char.ofNat b.toNat).toLower) = encode bytes := by
  induction h with
  | nil => rfl
  | cons high low _ ih =>
    obtain ⟨hhi, hhigh⟩ := lower_of_nibble? high
    obtain ⟨hlo, hlow⟩ := lower_of_nibble? low
    rw [encode_cons, hexadecimal_byteOf hhi hlo, ← ih, ← String.ofList_append]
    simp [hhigh, hlow]

theorem Denotes.all_digits (h : Denotes digits bytes) :
    digits.all (nibble? · |>.isSome) = true := by
  induction h with
  | nil => rfl
  | cons high low _ ih => simp [high, low, ih]

end CodeAtlas.Hex
