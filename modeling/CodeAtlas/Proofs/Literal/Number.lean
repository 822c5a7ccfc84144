import CodeAtlas.Literal.Basic
import CodeAtlas.Proofs.Text.Numeral
import Mathlib.Algebra.Group.Nat.Defs

/-! Number literals are read exactly: a text of digits with underscores anywhere in it gives the
number that it denotes, as long as that fits a word of 256 bits. -/
namespace CodeAtlas

namespace Text

variable {base n : Nat} {c : Char} {digits text : List Char}

/-- Underscores are put into a text, anywhere and as many as one likes. -/
inductive Separated : List Char → List Char → Prop where
  | nil : Separated [] []
  | keep (c : Char) {digits text : List Char} (rest : Separated digits text) :
      Separated (c :: digits) (c :: text)
  | mark {digits text : List Char} (rest : Separated digits text) :
      Separated digits ('_' :: text)

theorem Separated.mem (h : Separated digits text) (hc : c ∈ text) : c = '_' ∨ c ∈ digits := by
  induction h with
  | nil => cases hc
  | keep d _ ih =>
    rcases List.mem_cons.1 hc with rfl | hc
    · exact Or.inr List.mem_cons_self
    · rcases ih hc with rfl | hc
      · exact Or.inl rfl
      · exact Or.inr (List.mem_cons_of_mem d hc)
  | mark _ ih =>
    rcases List.mem_cons.1 hc with rfl | hc
    · exact Or.inl rfl
    · exact ih hc

theorem Separated.filter_eq (h : Separated digits text) (hdigits : '_' ∉ digits) :
    text.filter (· ≠ '_') = digits := by
  induction h with
  | nil => rfl
  | keep c _ ih =>
    have hc : c ≠ '_' := by
      rintro rfl
      exact hdigits List.mem_cons_self
    have hrest := ih fun hmem => hdigits (List.mem_cons_of_mem c hmem)
    simpa [hc] using hrest
  | mark _ ih => simpa using ih hdigits

theorem separated_filter (text : List Char) : Separated (text.filter (· ≠ '_')) text := by
  induction text with
  | nil => exact .nil
  | cons c text ih =>
    by_cases hc : c = '_'
    · subst hc
      simpa using Separated.mark ih
    · simpa [hc] using Separated.keep c ih

theorem IsNumeral.notMem (hbase : base ≤ 16) (h : IsNumeral base digits n)
    (hc : digit? c = none) : c ∉ digits := by
  intro hmem
  have hread := (numeral?_eq_some_iff hbase).2 h
  unfold numeral? at hread
  split at hread
  · cases hread
  · have hsome := isSome_digit?_of_digits? hread hmem
    simp [hc] at hsome

/-- What is neither a digit nor an underscore does not stand in the text of a numeral. -/
theorem Separated.notMem (h : Separated digits text) (hbase : base ≤ 16)
    (hnumeral : IsNumeral base digits n) (hdigit : digit? c = none) (hc : c ≠ '_') :
    c ∉ text := by
  intro hmem
  rcases h.mem hmem with hmark | hmem
  · exact hc hmark
  · exact hnumeral.notMem hbase hdigit hmem

/-- Without the underscores the digits are left. -/
theorem Separated.filter_numeral (h : Separated digits text) (hbase : base ≤ 16)
    (hnumeral : IsNumeral base digits n) : text.filter (· ≠ '_') = digits :=
  h.filter_eq (hnumeral.notMem hbase (by decide))

/-- A decimal text of a number: its digits with underscores among them. -/
def IsDecimal (text : String) (n : Nat) : Prop :=
  ∃ digits, Separated digits text.toList ∧ IsNumeral 10 digits n

/-- A hexadecimal text of a number: a mark, and at most 64 digits of either case with underscores
among them. -/
def IsHexadecimal (mark text : String) (n : Nat) : Prop :=
  ∃ digits body, text.toList = mark.toList ++ body ∧ Separated digits body ∧
    digits.length ≤ 64 ∧ IsNumeral 16 digits n

end Text

open Text (Separated IsNumeral IsDecimal IsHexadecimal)

variable {n : Nat} {text mark : String} {cs digits : List Char} {l : Literal}

/-! ### Words -/

namespace Hex

theorem wordBound_eq : wordBound = 2 ^ 256 := Nat.one_shiftLeft 256

theorem isDecimal_of_decimalWord? (h : decimalWord? text = some n) :
    IsDecimal text n ∧ n < 2 ^ 256 := by
  rw [decimalWord?, Option.filter_eq_some_iff, Text.numeral?_eq_some_iff (by decide),
    decide_eq_true_iff, wordBound_eq] at h
  exact ⟨⟨_, Text.separated_filter _, h.1⟩, h.2⟩

theorem decimalWord?_of_isDecimal (h : IsDecimal text n) :
    decimalWord? text = if n < 2 ^ 256 then some n else none := by
  obtain ⟨digits, hseparated, hnumeral⟩ := h
  have hread := (Text.numeral?_eq_some_iff (by decide)).2 hnumeral
  rw [decimalWord?, hseparated.filter_numeral (by decide) hnumeral, hread, wordBound_eq]
  simp only [Option.filter_some, decide_eq_true_eq]

theorem dropMark_of_notMem (hlower : 'x' ∉ cs) (hupper : 'X' ∉ cs) : dropMark cs = cs := by
  unfold dropMark
  split <;> simp_all

theorem dropWordMark_of_notMem (h : 'x' ∉ cs) : dropWordMark cs = cs := by
  unfold dropWordMark
  split <;> simp_all

theorem word?_of_isHexadecimal (hmark : mark ∈ ["", "0x", "0X"]) (h : IsHexadecimal mark text n) :
    word? text = some n := by
  obtain ⟨digits, body, htext, hseparated, hlength, hnumeral⟩ := h
  have hdrop : dropMark text.toList = body := by
    simp only [List.mem_cons, List.not_mem_nil, or_false] at hmark
    rw [htext]
    rcases hmark with rfl | rfl | rfl
    · -- Without a mark nothing is dropped, as its letter is no digit.
      exact dropMark_of_notMem
        (hseparated.notMem (Nat.le_refl 16) hnumeral (by decide) (by decide))
        (hseparated.notMem (Nat.le_refl 16) hnumeral (by decide) (by decide))
    · rfl
    · rfl
  have hdigits := hseparated.filter_numeral (Nat.le_refl 16) hnumeral
  have hword := dropWordMark_of_notMem (hnumeral.notMem (Nat.le_refl 16) (c := 'x') (by decide))
  have hread := (Text.numeral?_eq_some_iff (Nat.le_refl 16)).2 hnumeral
  have hne : digits.isEmpty = false := by simpa using hnumeral.1
  simp only [word?, hdrop, hdigits, hword, hne, hlength, if_true, Bool.false_eq_true, if_false]
  simpa only [Text.numeral?, hne, Bool.false_eq_true, if_false] using hread

end Hex

/-! ### Literals -/

namespace Literal

/-- The second word of the type. -/
def typeWord? (l : Literal) : Option String := l.subType.bind fun t => (Text.words t)[1]?

theorem startsWith_of_isHexadecimal (h : IsHexadecimal mark text n) :
    Text.startsWith text mark = true := by
  obtain ⟨digits, body, htext, _⟩ := h
  simp [Text.startsWith, htext]

theorem number?_of_isHexadecimal (hvalue : l.value = some text)
    (hmark : mark ∈ ["0x", "0X"]) (h : IsHexadecimal mark text n) : l.number? = some n := by
  have hword := Hex.word?_of_isHexadecimal (List.mem_cons_of_mem "" hmark) h
  have hstart := startsWith_of_isHexadecimal h
  simp only [List.mem_cons, List.not_mem_nil, or_false] at hmark
  rcases hmark with rfl | rfl <;> simp [number?, hvalue, hstart, hword]

theorem not_startsWith_of_isDecimal (h : IsDecimal text n) {c : Char} (hc : c ∈ mark.toList)
    (hdigit : Text.digit? c = none) (hseparator : c ≠ '_') : Text.startsWith text mark = false := by
  obtain ⟨digits, hseparated, hnumeral⟩ := h
  have hnotMem := hseparated.notMem (by decide) hnumeral hdigit hseparator
  rw [Text.startsWith, Bool.eq_false_iff]
  intro hstart
  exact hnotMem ((List.isPrefixOf_iff_prefix.1 hstart).subset hc)

/-- A decimal text has no mark, so the type is asked first. -/
theorem number?_of_isDecimal (hvalue : l.value = some text) (h : IsDecimal text n)
    (hn : n < 2 ^ 256) : l.number? = (l.typeWord?.bind Hex.decimalWord?).or (some n) := by
  have hlower : Text.startsWith text "0x" = false :=
    not_startsWith_of_isDecimal h (c := 'x') (by decide) (by decide) (by decide)
  have hupper : Text.startsWith text "0X" = false :=
    not_startsWith_of_isDecimal h (c := 'X') (by decide) (by decide) (by decide)
  have hword : Hex.decimalWord? text = some n := by
    rw [Hex.decimalWord?_of_isDecimal h, if_pos hn]
  simp [number?, hvalue, hlower, hupper, hword, typeNumber?, typeWord?]

/-- The type leaves the number of a decimal text alone just if its second word is no number up to
the limit, or the same number. -/
theorem number?_of_isDecimal_iff (hvalue : l.value = some text) (h : IsDecimal text n)
    (hn : n < 2 ^ 256) :
    l.number? = some n ↔ ∀ word, l.typeWord? = some word →
      (∀ k, IsDecimal word k → 2 ^ 256 ≤ k) ∨ IsDecimal word n := by
  rw [number?_of_isDecimal hvalue h hn]
  cases hword : l.typeWord? with
  | none => simp
  | some word =>
    cases hk : Hex.decimalWord? word with
    | none =>
      have hlarge : ∀ k, IsDecimal word k → 2 ^ 256 ≤ k := by
        intro k hdecimal
        rw [Hex.decimalWord?_of_isDecimal hdecimal] at hk
        by_contra hlt
        rw [if_pos (by omega)] at hk
        cases hk
      refine iff_of_true ?_ ?_
      · rw [Option.bind_some, hk]
        rfl
      · intro other hother
        cases hother
        exact Or.inl hlarge
    | some k =>
      obtain ⟨hdecimal, hlt⟩ := Hex.isDecimal_of_decimalWord? hk
      constructor
      · intro hnumber
        have heq : k = n := by simpa [hk] using hnumber
        subst heq
        intro other hother
        cases hother
        exact Or.inr hdecimal
      · intro hallowed
        rcases hallowed word rfl with hlarge | hsame
        · exact absurd (hlarge k hdecimal) (by omega)
        · rw [Option.bind_some, Hex.decimalWord?_of_isDecimal hsame, if_pos hn]
          rfl

end Literal

/-- Decimal texts give their number up to the limit and nothing beyond it, and hexadecimal texts
give theirs with either mark or none. So does a literal: with a mark whatever its type says, and
without one unless the second word of its type is another number up to the limit. -/
theorem numbers_read_exactly (text : String) (n : Nat) :
    (IsDecimal text n → Hex.decimalWord? text = if n < 2 ^ 256 then some n else none) ∧
      (∀ mark ∈ ["", "0x", "0X"], IsHexadecimal mark text n → Hex.word? text = some n) ∧
      ∀ l : Literal, l.value = some text →
        (∀ mark ∈ ["0x", "0X"], IsHexadecimal mark text n → l.number? = some n) ∧
        (IsDecimal text n → n < 2 ^ 256 →
          (l.number? = some n ↔ ∀ word, l.typeWord? = some word →
            (∀ k, IsDecimal word k → 2 ^ 256 ≤ k) ∨ IsDecimal word n)) := by
  refine ⟨Hex.decimalWord?_of_isDecimal, fun mark hmark h => Hex.word?_of_isHexadecimal hmark h,
    fun l hvalue => ⟨?_, ?_⟩⟩
  · intro mark hmark h
    exact Literal.number?_of_isHexadecimal hvalue hmark h
  · intro h hn
    exact Literal.number?_of_isDecimal_iff hvalue h hn

/-- The first number beyond the limit, digits of both cases beside a type that names another number,
and a decimal text beside a type that writes the same number in another way. -/
theorem numbers_read_exactly_mixed :
    Hex.decimalWord?
        "115792089237316195423570985008687907853269984665640564039457584007913129639936" = none ∧
      Hex.word? "f_F" = some 255 ∧
      ({ value := some "0Xf_F", subType := some "int_const 7" } : Literal).number? = some 255 ∧
      ({ value := some "_0042", subType := some "int_const 4_2" } : Literal).number? = some 42 := by
  have hdecimal : ∀ (text : String) (n : Nat),
      Text.numeral? 10 (text.toList.filter (· ≠ '_')) = some n → IsDecimal text n := by
    intro text n h
    exact ⟨_, Text.separated_filter _, (Text.numeral?_eq_some_iff (by decide)).1 h⟩
  have hdigits : Separated ['f', 'F'] ['f', '_', 'F'] := .keep 'f' (.mark (.keep 'F' .nil))
  have hnumeral : IsNumeral 16 ['f', 'F'] 255 :=
    (Text.numeral?_eq_some_iff (Nat.le_refl 16)).1 (by decide)
  obtain ⟨hlimit, _, _⟩ := numbers_read_exactly
    "115792089237316195423570985008687907853269984665640564039457584007913129639936" (2 ^ 256)
  obtain ⟨_, hplain, _⟩ := numbers_read_exactly "f_F" 255
  obtain ⟨_, _, hmarked⟩ := numbers_read_exactly "0Xf_F" 255
  obtain ⟨_, _, htyped⟩ := numbers_read_exactly "_0042" 42
  refine ⟨?_, ?_, ?_, ?_⟩
  · exact hlimit (hdecimal _ _ (by decide +kernel))
  · exact hplain "" (by decide) ⟨_, _, rfl, hdigits, by decide, hnumeral⟩
  · exact (hmarked _ rfl).1 "0X" (by decide) ⟨_, _, rfl, hdigits, by decide, hnumeral⟩
  · refine ((htyped _ rfl).2 (hdecimal _ _ (by decide)) (by decide)).2 ?_
    intro word hword
    have hsame : word = "4_2" := by
      cases hword
      rfl
    subst hsame
    exact Or.inr (hdecimal _ _ (by decide))

end CodeAtlas
