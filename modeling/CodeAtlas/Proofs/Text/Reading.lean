import CodeAtlas.Text.Numeral
import CodeAtlas.Text.Split
import Mathlib.Data.List.Basic

/-! Reading undoes writing: the pieces of a joined text, and the numbers in decimal texts. -/
namespace CodeAtlas.Text

variable {sep c : Char} {s t mark : String} {cs : List Char} {n : Nat}

/-! ### Pieces -/

theorem splitWhere_eq_splitOnP (p : Char → Bool) (cs : List Char) :
    splitWhere p cs = cs.splitOnP p := by
  induction cs with
  | nil => rfl
  | cons c cs ih =>
    obtain ⟨piece, pieces, hpieces⟩ := List.exists_cons_of_ne_nil (List.splitOnP_ne_nil p cs)
    rw [splitWhere, ih, List.splitOnP_cons_eq_if_modifyHead, hpieces]
    rfl

theorem splitOn_eq (sep : Char) (s : String) :
    splitOn sep s = (s.toList.splitOn sep).map String.ofList := by
  rw [splitOn, splitWhere_eq_splitOnP, List.splitOn_eq_splitOnP]

theorem splitOn_of_notMem (h : sep ∉ s.toList) : splitOn sep s = [s] := by
  simp [splitOn_eq, List.splitOn_eq_singleton h]

theorem splitOn_append (hmark : mark.toList = [sep]) :
    splitOn sep (s ++ mark ++ t) = splitOn sep s ++ splitOn sep t := by
  simp [splitOn_eq, hmark, List.splitOn_append_cons_self]

/-- Joined texts fall apart into their own pieces. -/
theorem splitOn_intercalate (hmark : mark.toList = [sep]) {texts : List String}
    (hne : texts ≠ []) : splitOn sep (mark.intercalate texts) = texts.flatMap (splitOn sep) := by
  induction texts with
  | nil => exact absurd rfl hne
  | cons text texts ih =>
    cases texts with
    | nil => simp
    | cons next texts =>
      rw [String.intercalate_cons_cons, splitOn_append hmark, ih (by simp)]
      rfl

/-- Texts without the separator are read back as they are. -/
theorem splitOn_intercalate_of_notMem (hmark : mark.toList = [sep]) {texts : List String}
    (hne : texts ≠ []) (h : ∀ text ∈ texts, sep ∉ text.toList) :
    splitOn sep (mark.intercalate texts) = texts := by
  rw [splitOn_intercalate hmark hne]
  calc texts.flatMap (splitOn sep)
      = texts.flatMap fun text => [text] :=
        List.flatMap_congr fun text htext => splitOn_of_notMem (h text htext)
    _ = texts := by simp

/-- The first pieces keep their places when none of them holds the separator. -/
theorem getElem?_flatMap_splitOn {texts : List String} {i : Nat}
    (h : ∀ text ∈ texts.take n, sep ∉ text.toList) (hi : i < n) :
    (texts.flatMap (splitOn sep))[i]? = texts[i]? := by
  induction n generalizing texts i with
  | zero => omega
  | succ n ih =>
    cases texts with
    | nil => rfl
    | cons text texts =>
      rw [List.flatMap_cons, splitOn_of_notMem (h text (by simp)), List.singleton_append]
      cases i with
      | zero => rfl
      | succ i =>
        simp only [List.getElem?_cons_succ]
        exact ih (fun text htext => h text (by simp [htext])) (by omega)

/-- A joined text is made of the characters of the mark and of the pieces. -/
theorem mem_intercalate {texts : List String} (h : c ∈ (mark.intercalate texts).toList) :
    c ∈ mark.toList ∨ ∃ text ∈ texts, c ∈ text.toList := by
  induction texts with
  | nil => simp at h
  | cons text texts ih =>
    cases texts with
    | nil => exact Or.inr ⟨text, by simp, by simpa using h⟩
    | cons next texts =>
      rw [String.intercalate_cons_cons, String.toList_append, String.toList_append,
        List.mem_append, List.mem_append] at h
      obtain (h | h) | h := h
      · exact Or.inr ⟨text, by simp, h⟩
      · exact Or.inl h
      · obtain h | ⟨piece, hpiece, h⟩ := ih h
        · exact Or.inl h
        · exact Or.inr ⟨piece, List.mem_cons_of_mem text hpiece, h⟩

/-! ### Numbers -/

theorem digitIn?_of_isDigit (h : c.isDigit = true) : digitIn? 10 c = some (c.toNat - 48) := by
  have hrange : '0' ≤ c ∧ c ≤ '9' := by
    rw [Char.isDigit, Bool.and_eq_true] at h
    exact ⟨of_decide_eq_true h.1, of_decide_eq_true h.2⟩
  have hlt : c.toNat - 48 < 10 := by
    have : c.toNat ≤ 57 := hrange.2
    omega
  simp [digitIn?, digit?, hrange, hlt]

theorem digits?_of_isDigit (h : ∀ c ∈ cs, c.isDigit = true) :
    digits? 10 n cs = some (Nat.ofDigitChars 10 cs n) := by
  induction cs generalizing n with
  | nil => rfl
  | cons c cs ih =>
    rw [digits?, digitIn?_of_isDigit (h c (by simp)), Option.bind_some,
      ih fun d hd => h d (by simp [hd]), Nat.ofDigitChars_cons, Nat.mul_comm n]
    rfl

theorem isDigit_of_mem_decimal (h : c ∈ (decimal n).toList) : c.isDigit = true :=
  Nat.isDigit_of_mem_toDigits (b := 10) (by decide) (by decide) (by simpa [decimal] using h)

theorem numeral?_decimal (n : Nat) : numeral? 10 (decimal n).toList = some n := by
  have hdigits := digits?_of_isDigit (n := 0) fun c (hc : c ∈ (decimal n).toList) =>
    isDigit_of_mem_decimal hc
  simp_all [numeral?, decimal, Nat.toDigits_ne_nil]

theorem exists_decimal (n : Nat) : ∃ d ds, (decimal n).toList = d :: ds ∧ d.isDigit = true := by
  have hne : (decimal n).toList ≠ [] := by simp [decimal, Nat.toDigits_ne_nil]
  obtain ⟨d, ds, hds⟩ := List.exists_cons_of_ne_nil hne
  exact ⟨d, ds, hds, isDigit_of_mem_decimal (n := n) (by simp [hds])⟩

theorem head?_toDigits_ne_zero (h : 0 < n) : (Nat.toDigits 10 n).head? ≠ some '0' := by
  induction n using Nat.strongRecOn with
  | ind n ih =>
    rcases Nat.lt_or_ge n 10 with hlt | hge
    · rw [Nat.toDigits_of_lt_base hlt]
      have hdigit : ∀ m < 10, 0 < m → m.digitChar ≠ '0' := by decide
      simpa using hdigit n hlt h
    · rw [Nat.toDigits_of_base_le (by decide) hge,
        List.head?_append_of_ne_nil _ Nat.toDigits_ne_nil]
      exact ih (n / 10) (by omega) (by omega)

/-- No zero stands before another digit. -/
theorem length_decimal_of_zero (h : (decimal n).toList.head? = some '0') :
    (decimal n).toList.length = 1 := by
  rcases n.eq_zero_or_pos with rfl | hn
  · rfl
  · exact absurd (by simpa [decimal] using h) (head?_toDigits_ne_zero hn)

theorem head?_decimal_ne (h : c.isDigit = false) : (decimal n).toList.head? ≠ some c := by
  intro hhead
  have := isDigit_of_mem_decimal (List.mem_of_mem_head? hhead)
  simp [h] at this

theorem unsigned?_decimal (h : n < wordBound) : unsigned? 10 (decimal n).toList = some n := by
  rw [unsigned?, if_neg (head?_decimal_ne (by decide)), numeral?_decimal]
  simpa using h

theorem signed?_of_head (h : cs.head? ≠ some '-') (hplus : cs.head? ≠ some '+') :
    signed? cs = ((numeral? 10 cs).filter (· < signedBound)).map Int.ofNat := by
  unfold signed?
  split
  · simp at h
  · rw [if_neg hplus]

/-- A signed number in range is read back. -/
theorem signed?_signedDecimal {n : Int} (hlow : -(signedBound : Int) ≤ n)
    (hhigh : n < signedBound) : signed? (signedDecimal n).toList = some n := by
  cases n with
  | ofNat n =>
    have hn : n < signedBound := by simpa using hhigh
    rw [signedDecimal, signed?_of_head (head?_decimal_ne (by decide))
      (head?_decimal_ne (by decide)), numeral?_decimal]
    rw [Option.filter_some, if_pos (by simpa using hn)]
    rfl
  | negSucc n =>
    have hn : n + 1 ≤ signedBound := by omega
    have hminus : (signedDecimal (.negSucc n)).toList = '-' :: (decimal (n + 1)).toList := by
      simp [signedDecimal]
    rw [hminus, signed?, numeral?_decimal, Option.filter_some, if_pos (by simpa using hn)]
    rfl

theorem lt_of_unsigned? {base : Nat} (h : unsigned? base cs = some n) : n < wordBound := by
  rw [unsigned?, Option.filter_eq_some_iff] at h
  exact of_decide_eq_true h.2

/-- What is read as a signed number is in range. -/
theorem signed?_range {n : Int} (h : signed? cs = some n) :
    -(signedBound : Int) ≤ n ∧ n < signedBound := by
  unfold signed? at h
  split at h
  · obtain ⟨_, hmagnitude, rfl⟩ := Option.map_eq_some_iff.1 h
    obtain ⟨k, hk, hcast⟩ := Option.bind_eq_some_iff.1 hmagnitude
    cases hcast
    have hle : k ≤ signedBound := of_decide_eq_true (Option.filter_eq_some_iff.1 hk).2
    have hpos : 0 < signedBound := by decide
    omega
  · obtain ⟨k, hk, rfl⟩ := Option.map_eq_some_iff.1 h
    have hlt : k < signedBound := of_decide_eq_true (Option.filter_eq_some_iff.1 hk).2
    simp only [Int.ofNat_eq_natCast]
    omega

end CodeAtlas.Text
