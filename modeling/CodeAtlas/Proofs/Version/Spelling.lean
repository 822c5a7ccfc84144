import CodeAtlas.Proofs.Text.Words
import CodeAtlas.Proofs.Version.Bound
import CodeAtlas.Version.Pragma

/-! The texts of bounds: a requirement that lists bounds reads back as their comparators. -/
namespace CodeAtlas.Version

variable {n : Nat} {cs rest : List Char} {part : Part}

/-- The sign of a relation. -/
def Relation.sign : Relation → List Char
  | .exact => ['=']
  | .greater => ['>']
  | .greaterEq => ['>', '=']
  | .less => ['<']
  | .lessEq => ['<', '=']
  | .tilde => ['~']
  | .caret => ['^']

/-- The numbers in decimal, with points between them. -/
def Numbers.text (given : Numbers) : List Char :=
  ['.'].intercalate (given.toList.map fun n => (Text.decimal n).toList)

/-- A bound with its relation written. -/
def Bound.text (b : Bound) : List Char := b.asked.sign ++ b.numbers.text

/-! ### Numbers -/

/-- A machine number is read in front of what no digit starts. -/
theorem number_decimal (hn : n < Text.wordBound) (h : ∀ c ∈ rest.head?, c.isDigit = false) :
    number part ((Text.decimal n).toList ++ rest) = .ok (n, rest) := by
  have hdigits : ∀ c ∈ (Text.decimal n).toList, c.isDigit = true := fun c hc =>
    Text.isDigit_of_mem_decimal hc
  have htake :
      ((Text.decimal n).toList ++ rest).takeWhile Char.isDigit = (Text.decimal n).toList := by
    rw [List.takeWhile_append_of_pos hdigits]
    cases rest <;> simp_all
  have hdrop : ((Text.decimal n).toList ++ rest).dropWhile Char.isDigit = rest := by
    rw [List.dropWhile_append_of_pos hdigits]
    cases rest <;> simp_all
  have hvalue : (Text.digits? 10 0 (Text.decimal n).toList).getD 0 = n := by
    have := Text.numeral?_decimal n
    simp_all [Text.numeral?]
  have hne : (Text.decimal n).toList ≠ [] := by
    obtain ⟨d, ds, hds, _⟩ := Text.exists_decimal n
    rw [hds]
    exact List.cons_ne_nil d ds
  have hzero :
      ¬((Text.decimal n).toList.head? = some '0' ∧ 1 < (Text.decimal n).toList.length) := by
    rintro ⟨hhead, hlong⟩
    rw [Text.length_decimal_of_zero hhead] at hlong
    omega
  rw [number, htake, hdrop]
  simp only [List.isEmpty_iff, hne, if_false, hzero, hvalue, hn, if_true]

theorem text_one (major : Nat) : (Numbers.one major).text = (Text.decimal major).toList := by
  simp [Numbers.text, Numbers.toList]

theorem text_two (major minor : Nat) :
    (Numbers.two major minor).text =
      (Text.decimal major).toList ++ '.' :: (Text.decimal minor).toList := by
  simp [Numbers.text, Numbers.toList]

theorem text_three (major minor patch : Nat) :
    (Numbers.three major minor patch).text =
      (Text.decimal major).toList ++ '.' :: ((Text.decimal minor).toList ++
        '.' :: (Text.decimal patch).toList) := by
  simp [Numbers.text, Numbers.toList]

/-- The text of numbers starts with a digit. -/
theorem exists_text (given : Numbers) : ∃ d ds, given.text = d :: ds ∧ d.isDigit = true := by
  have hfirst : ∃ n more, given.text = (Text.decimal n).toList ++ more := by
    cases given with
    | one major => exact ⟨major, [], by rw [text_one, List.append_nil]⟩
    | two major minor => exact ⟨major, _, text_two major minor⟩
    | three major minor patch => exact ⟨major, _, text_three major minor patch⟩
  obtain ⟨n, more, hmore⟩ := hfirst
  obtain ⟨d, ds, hds, hd⟩ := Text.exists_decimal n
  exact ⟨d, ds ++ more, by rw [hmore, hds, List.cons_append], hd⟩

/-! ### Comparators -/

/-- What may follow a comparator: nothing, or a comma. -/
def Ends (rest : List Char) : Prop := ∀ c ∈ rest.head?, c = ','

theorem ends_nil : Ends [] := by simp [Ends]

theorem ends_comma (cs : List Char) : Ends (',' :: cs) := by simp [Ends]

theorem Ends.head?_ne (h : Ends rest) {c : Char} (hc : c ≠ ',') : rest.head? ≠ some c := by
  intro hhead
  exact hc (h c hhead)

theorem Ends.isDigit (h : Ends rest) : ∀ c ∈ rest.head?, c.isDigit = false := by
  intro c hc
  rw [h c hc]
  rfl

theorem skipSpaces_of_head (h : cs.head? ≠ some ' ') : Requirement.skipSpaces cs = cs := by
  cases cs with
  | nil => rfl
  | cons c cs =>
    have hc : c ≠ ' ' := by simpa using h
    simp [Requirement.skipSpaces, hc]

theorem wildcard?_cons {c : Char} (h : c ∉ ['*', 'x', 'X']) :
    Requirement.wildcard? (c :: cs) = none := by
  unfold Requirement.wildcard?
  split <;> simp_all

theorem relation?_sign (r : Relation) (h : cs.head? ≠ some '=') :
    Requirement.relation? (r.sign ++ cs) = (some r, cs) := by
  -- The signs of two characters start with one of a single character.
  have hcs : ∀ rest, cs ≠ '=' :: rest := by
    rintro rest rfl
    exact h rfl
  cases r <;> simp [Relation.sign, Requirement.relation?]

theorem component?_missing (h : rest.head? ≠ some '.') :
    Requirement.component? part rest = some (.missing, rest) := by
  unfold Requirement.component?
  split
  · simp at h
  · rfl

theorem component?_given (hn : n < Text.wordBound) (h : ∀ c ∈ rest.head?, c.isDigit = false) :
    Requirement.component? part ('.' :: ((Text.decimal n).toList ++ rest)) =
      some (.given n, rest) := by
  have hwildcard : Requirement.wildcard? ((Text.decimal n).toList ++ rest) = none := by
    obtain ⟨d, ds, hds, hd⟩ := Text.exists_decimal n
    rw [hds]
    apply wildcard?_cons
    intro hmem
    simp at hmem
    rcases hmem with rfl | rfl | rfl <;> simp at hd
  rw [Requirement.component?, hwildcard, number_decimal hn h]
  rfl

theorem tail?_of_ends (patch : Requirement.Component) (h : Ends rest) :
    Requirement.tail? patch rest = some ([], rest) := by
  have hmarked : ∀ mark part last, mark ≠ ',' →
      marked mark part last rest = .ok ([], last, rest) := by
    intro mark part last hmark
    cases rest with
    | nil => rfl
    | cons c rest =>
      have hc : c = ',' := h c rfl
      rw [marked, if_neg (by rw [hc]; exact hmark.symm)]
  unfold Requirement.tail?
  split
  · rw [hmarked '-' .pre .patch (by decide)]
    simp [Except.toOption, hmarked '+' .build .patch (by decide)]
  · rfl

/-- A comparator is read part by part: the relation, then each number, none of them left open by a
wildcard, and no pre-release. -/
theorem comparator?_of_parts {r : Relation} {major : Nat} {minor patch : Requirement.Component}
    {cs₁ cs₂ cs₃ : List Char} (hrelation : Requirement.relation? cs = (some r, cs₁))
    (hskip : Requirement.skipSpaces cs₁ = cs₁) (hmajor : number .major cs₁ = .ok (major, cs₂))
    (hminor : Requirement.component? .minor cs₂ = some (minor, cs₃))
    (hpatch : Requirement.component? .patch cs₃ = some (patch, rest)) (hgiven : minor ≠ .anything)
    (h : Ends rest) :
    Requirement.comparator? cs = some (⟨r, major, minor.value?, patch.value?, []⟩, rest) := by
  have hrest : Requirement.skipSpaces rest = rest := skipSpaces_of_head (h.head?_ne (by decide))
  simp [Requirement.comparator?, hrelation, hskip, hmajor, Except.toOption, hminor, hpatch, hgiven,
    tail?_of_ends patch h, hrest]

/-- A bound is read in front of the end of a comparator. -/
theorem comparator?_text (b : Bound) (h : Ends rest) :
    Requirement.comparator? (b.text ++ rest) = some (b.comparator, rest) := by
  have hpoint : rest.head? ≠ some '.' := h.head?_ne (by decide)
  obtain ⟨d, ds, hds, hd⟩ := exists_text b.numbers
  have hstart : ∀ c : Char, c.isDigit = false → (b.numbers.text ++ rest).head? ≠ some c := by
    intro c hc hhead
    rw [hds] at hhead
    cases hhead
    simp [hd] at hc
  have hrelation := relation?_sign b.asked (hstart '=' (by decide))
  have hskip := skipSpaces_of_head (hstart ' ' (by decide))
  rw [Bound.text, List.append_assoc]
  obtain ⟨relation, numbers, small⟩ := b
  cases numbers with
  | one major =>
    have hmajor : number .major ((Numbers.one major).text ++ rest) = .ok (major, rest) := by
      rw [text_one]
      exact number_decimal (small major (by simp [Numbers.toList])) h.isDigit
    exact comparator?_of_parts hrelation hskip hmajor (component?_missing hpoint)
      (component?_missing hpoint) (by simp) h
  | two major minor =>
    have hmajor : number .major ((Numbers.two major minor).text ++ rest) =
        .ok (major, '.' :: ((Text.decimal minor).toList ++ rest)) := by
      rw [text_two, List.append_assoc]
      exact number_decimal (small major (by simp [Numbers.toList])) (by simp)
    exact comparator?_of_parts hrelation hskip hmajor
      (component?_given (small minor (by simp [Numbers.toList])) h.isDigit)
      (component?_missing hpoint) (by simp) h
  | three major minor patch =>
    have hmajor : number .major ((Numbers.three major minor patch).text ++ rest) =
        .ok (major, '.' :: ((Text.decimal minor).toList ++
          '.' :: ((Text.decimal patch).toList ++ rest))) := by
      rw [text_three, List.append_assoc, List.cons_append, List.append_assoc, List.cons_append]
      exact number_decimal (small major (by simp [Numbers.toList])) (by simp)
    exact comparator?_of_parts hrelation hskip hmajor
      (component?_given (small minor (by simp [Numbers.toList])) (by simp))
      (component?_given (small patch (by simp [Numbers.toList])) h.isDigit) (by simp) h

/-! ### Requirements -/

/-- The characters that a sign starts with. -/
def signStarts : List Char := ['=', '>', '<', '~', '^']

theorem mem_signStarts {c : Char} :
    c ∈ signStarts ↔ c = '=' ∨ c = '>' ∨ c = '<' ∨ c = '~' ∨ c = '^' := by simp [signStarts]

theorem exists_sign (r : Relation) : ∃ c cs, r.sign = c :: cs ∧ c ∈ signStarts := by
  cases r <;> exact ⟨_, _, rfl, by decide⟩

theorem head?_texts {bounds : List Bound} (hne : bounds ≠ []) :
    ∃ c ∈ signStarts, ([',', ' '].intercalate (bounds.map Bound.text)).head? = some c := by
  obtain ⟨b, bounds, rfl⟩ := List.exists_cons_of_ne_nil hne
  obtain ⟨c, cs, hcs, hc⟩ := exists_sign b.asked
  refine ⟨c, hc, ?_⟩
  cases bounds <;> simp [Bound.text, hcs]

/-- Bounds joined by commas are read back as their comparators. -/
theorem comparators?_texts {count : Nat} {bounds : List Bound} (hne : bounds ≠ [])
    (hcount : bounds.length ≤ count) :
    Requirement.comparators? count ([',', ' '].intercalate (bounds.map Bound.text)) =
      some (bounds.map Bound.comparator) := by
  induction bounds generalizing count with
  | nil => exact absurd rfl hne
  | cons b bounds ih =>
    cases count with
    | zero => simp at hcount
    | succ count =>
      cases bounds with
      | nil =>
        have hb := comparator?_text b ends_nil
        rw [List.append_nil] at hb
        simp [Requirement.comparators?, hb]
      | cons next bounds =>
        have hnext := ih (List.cons_ne_nil next bounds) (Nat.le_of_succ_le_succ hcount)
        obtain ⟨c, hc, hhead⟩ := head?_texts (List.cons_ne_nil next bounds)
        generalize htail : [',', ' '].intercalate ((next :: bounds).map Bound.text) = tail
          at hnext hhead
        have hjoin : [',', ' '].intercalate ((b :: next :: bounds).map Bound.text) =
            b.text ++ ',' :: ' ' :: tail := by
          rw [← htail, List.map_cons, List.map_cons, List.intercalate_cons_cons, List.append_assoc]
          rfl
        -- The next bound starts with its sign, so one space is all that is skipped.
        have hskip : Requirement.skipSpaces (' ' :: tail) = tail := by
          have hspace : tail.head? ≠ some ' ' := by
            rw [hhead]
            rintro ⟨⟩
            exact absurd hc (by decide)
          exact skipSpaces_of_head hspace
        rw [hjoin, Requirement.comparators?, comparator?_text b (ends_comma _)]
        simp only [hskip, hnext, Option.map_some, List.map_cons]

/-- A requirement that lists up to so many bounds is read back as their comparators. -/
theorem parse?_texts {bounds : List Bound} (hne : bounds ≠ [])
    (hcount : bounds.length ≤ Requirement.maxComparators) :
    Requirement.parse? (", ".intercalate (bounds.map fun b => String.ofList b.text)) =
      some ⟨bounds.map Bound.comparator⟩ := by
  have hlist : (", ".intercalate (bounds.map fun b => String.ofList b.text)).toList =
      [',', ' '].intercalate (bounds.map Bound.text) := by
    rw [String.toList_intercalate, List.map_map]
    congr 1
    exact List.map_congr_left fun b _ => String.toList_ofList
  obtain ⟨c, hc, hhead⟩ := head?_texts hne
  obtain ⟨cs, hcs⟩ := List.head?_eq_some_iff.1 hhead
  obtain ⟨hspace, hwildcard⟩ : c ≠ ' ' ∧ c ∉ ['*', 'x', 'X'] := by
    rcases mem_signStarts.1 hc with rfl | rfl | rfl | rfl | rfl <;> decide
  rw [Requirement.parse?, hlist, hcs, skipSpaces_of_head (by simpa using hspace)]
  simp only [wildcard?_cons hwildcard]
  rw [← hcs, comparators?_texts hne hcount]
  rfl

end CodeAtlas.Version
