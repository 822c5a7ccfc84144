import CodeAtlas.Proofs.Text.Reading
import Mathlib.Data.List.TakeWhile

/-! Blanks around and between the words of a text. -/
namespace CodeAtlas.Text

variable {c : Char} {cs ds ws start rest : List Char}

/-- Nothing but blanks. -/
def Blanks (cs : List Char) : Prop := ∀ c ∈ cs, isBlank c = true

instance (cs : List Char) : Decidable (Blanks cs) :=
  decidable_of_iff (cs.all isBlank = true) List.all_eq_true

theorem Blanks.notMem (h : Blanks ws) (hc : isBlank c = false) : c ∉ ws := by
  intro hmem
  simp [h c hmem] at hc

theorem isBlank_of_isDigit (h : c.isDigit = true) : isBlank c = false := by
  rw [Char.isDigit, Bool.and_eq_true] at h
  have hlow : 48 ≤ c.toNat := of_decide_eq_true h.1
  have hhigh : c.toNat ≤ 57 := of_decide_eq_true h.2
  simp [isBlank, whiteSpace, CharClass.has]
  omega

theorem isDigit_of_isBlank (h : isBlank c = true) : c.isDigit = false := by
  by_contra hdigit
  rw [isBlank_of_isDigit (by simpa using hdigit)] at h
  cases h

/-! ### Trimming -/

theorem trimStart_append (h : Blanks ws) (cs : List Char) :
    trimStart (ws ++ cs) = trimStart cs := List.dropWhile_append_of_pos h

theorem trimStart_cons (h : isBlank c = false) : trimStart (c :: cs) = c :: cs :=
  List.dropWhile_cons_of_neg (by simp [h])

theorem exists_trimStart (cs : List Char) :
    ∃ before, Blanks before ∧ cs = before ++ trimStart cs := by
  refine ⟨cs.takeWhile isBlank, ?_, List.takeWhile_append_dropWhile.symm⟩
  intro c hc
  exact List.mem_takeWhile_imp hc

theorem exists_trimEnd (cs : List Char) : ∃ after, Blanks after ∧ cs = trimEnd cs ++ after := by
  obtain ⟨after, hafter, hcs⟩ := exists_trimStart cs.reverse
  refine ⟨after.reverse, by simpa [Blanks] using hafter, ?_⟩
  rw [← List.reverse_inj, hcs, trimEnd, trimStart]
  simp

/-- Trimming takes away nothing but blanks. -/
theorem exists_trim (cs : List Char) :
    ∃ before after, Blanks before ∧ Blanks after ∧ cs = before ++ trim cs ++ after := by
  obtain ⟨before, hbefore, hstart⟩ := exists_trimStart cs
  obtain ⟨after, hafter, hend⟩ := exists_trimEnd (trimStart cs)
  refine ⟨before, after, hbefore, hafter, ?_⟩
  rw [trim, List.append_assoc, ← hend, ← hstart]

/-- Nothing is taken off the end if what stands there is to stay. -/
theorem reverse_dropWhile_reverse {p : Char → Bool} (hne : ds ≠ [])
    (h : ∀ c ∈ ds, p c = false) (cs : List Char) :
    ((cs ++ ds).reverse.dropWhile p).reverse = cs ++ ds := by
  obtain ⟨c, rest, hc⟩ := List.exists_cons_of_ne_nil (List.reverse_ne_nil_iff.2 hne)
  have hlast : p c = false := h c (List.mem_reverse.1 (by simp [hc]))
  rw [List.reverse_append, hc, List.cons_append, List.dropWhile_cons_of_neg (by simp [hlast]),
    ← List.cons_append, ← hc]
  simp

theorem trim_eq_self (hne : cs ≠ []) (h : ∀ c ∈ cs, isBlank c = false) : trim cs = cs := by
  obtain ⟨c, rest, rfl⟩ := List.exists_cons_of_ne_nil hne
  rw [trim, trimStart_cons (h c (by simp)), trimEnd]
  exact reverse_dropWhile_reverse hne h []

/-! ### Words -/

/-- The words of a text as lists of characters. -/
def wordsIn (cs : List Char) : List (List Char) := (splitWhere isBlank cs).filter (· ≠ [])

theorem words_ofList (cs : List Char) :
    words (String.ofList cs) = (wordsIn cs).map String.ofList := by
  simp [words, wordsIn]

theorem wordsIn_append_cons (h : isBlank c = true) (cs ds : List Char) :
    wordsIn (cs ++ c :: ds) = wordsIn cs ++ wordsIn ds := by
  simp only [wordsIn, splitWhere_eq_splitOnP, List.splitOnP_append_cons cs ds h, List.filter_append]

theorem wordsIn_append_blanks (h : Blanks ws) (cs : List Char) :
    wordsIn (cs ++ ws) = wordsIn cs := by
  induction ws generalizing cs with
  | nil => rw [List.append_nil]
  | cons c ws ih =>
    have hrest : Blanks ws := fun d hd => h d (by simp [hd])
    rw [wordsIn_append_cons (h c (by simp))]
    simpa [wordsIn, splitWhere] using ih hrest []

theorem wordsIn_blanks_append (h : Blanks ws) (cs : List Char) :
    wordsIn (ws ++ cs) = wordsIn cs := by
  induction ws with
  | nil => rfl
  | cons c ws ih =>
    have hrest : Blanks ws := fun d hd => h d (by simp [hd])
    rw [List.cons_append, ← List.nil_append (c :: (ws ++ cs)),
      wordsIn_append_cons (h c (by simp)), ih hrest]
    rfl

/-- Blanks part two texts into their own words. -/
theorem wordsIn_append (h : Blanks ws) (hne : ws ≠ []) (cs ds : List Char) :
    wordsIn (cs ++ (ws ++ ds)) = wordsIn cs ++ wordsIn ds := by
  obtain ⟨c, ws, rfl⟩ := List.exists_cons_of_ne_nil hne
  rw [List.cons_append, wordsIn_append_cons (h c (by simp)),
    wordsIn_blanks_append fun d hd => h d (by simp [hd])]

theorem wordsIn_of_word (hne : cs ≠ []) (h : ∀ c ∈ cs, isBlank c = false) : wordsIn cs = [cs] := by
  simp [wordsIn, splitWhere_eq_splitOnP, List.splitOnP_eq_singleton h, hne]

/-! ### Starts -/

theorem afterStart?_eq_some_iff : afterStart? start cs = some rest ↔ cs = start ++ rest := by
  induction start generalizing cs with
  | nil => simp [afterStart?]
  | cons a start ih =>
    cases cs with
    | nil => simp [afterStart?]
    | cons c cs =>
      rw [afterStart?, List.cons_append, List.cons.injEq, eq_comm (a := c)]
      split_ifs with hc
      · simp [ih, hc]
      · simp [hc]

end CodeAtlas.Text
