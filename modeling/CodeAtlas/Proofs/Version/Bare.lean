import CodeAtlas.Ast.Dialect
import CodeAtlas.Proofs.Outcome
import CodeAtlas.Proofs.Text.Numeral
import CodeAtlas.Proofs.Version.Pragma

/-! Two readers of a version: one reads it whole, after the blanks and letters around it, the other
looks for the first digits and points. They cut the same three numbers out of a text. -/
namespace CodeAtlas

namespace Version

variable {cs rest before : List Char} {n : Nat} {part : Part} {v : Version}

/-! ### What was read -/

/-- Where a number was read its decimal stands, and no digit follows. -/
theorem number_eq_ok (h : number part cs = .ok (n, rest)) :
    n < Text.wordBound ∧ cs = (Text.decimal n).toList ++ rest ∧
      ∀ c ∈ rest.head?, c.isDigit = false := by
  have hsplit : cs.takeWhile Char.isDigit ++ cs.dropWhile Char.isDigit = cs :=
    List.takeWhile_append_dropWhile
  have hdigits : ∀ c ∈ cs.takeWhile Char.isDigit, c.isDigit = true := by
    intro c hc
    exact List.mem_takeWhile_imp hc
  have hrest : ∀ c ∈ (cs.dropWhile Char.isDigit).head?, c.isDigit = false := by
    have hhead := List.head?_dropWhile_not Char.isDigit cs
    intro c hc
    rw [Option.mem_def.1 hc] at hhead
    exact hhead
  unfold number at h
  generalize cs.takeWhile Char.isDigit = digits at h hsplit hdigits
  generalize cs.dropWhile Char.isDigit = after at h hsplit hrest
  simp only at h
  split at h
  · split at h <;> cases h
  next hne =>
    split at h
    · cases h
    next hzero =>
      split at h
      next hlt =>
        have hread : Text.numeral? 10 digits = some (Nat.ofDigitChars 10 digits 0) := by
          rw [Text.numeral?, if_neg hne, Text.digits?_of_isDigit hdigits]
        cases h
        refine ⟨hlt, ?_, hrest⟩
        rw [Text.digits?_of_isDigit hdigits, Option.getD_some,
          Text.decimal_of_numeral? hread hzero, hsplit]
      · cases h

theorem point_eq_ok (h : point part cs = .ok rest) : cs = '.' :: rest := by
  unfold point at h
  split at h <;> cases h
  rfl

theorem marked_eq_ok {mark : Char} {last last' : Part} {found : List String}
    (h : marked mark part last cs = .ok (found, last', rest)) :
    cs.head? = some mark ∨ cs = rest := by
  cases cs with
  | nil =>
    cases h
    exact Or.inr rfl
  | cons c cs =>
    by_cases hc : c = mark
    · exact Or.inl (congrArg some hc)
    · rw [marked, if_neg hc] at h
      cases h
      exact Or.inr rfl

/-- The three numbers of a version. -/
def numbers (v : Version) : Numbers := .three v.major v.minor v.patch

/-- What may follow the numbers of a version: nothing, or the mark of a further part. -/
def Continues (rest : List Char) : Prop := ∀ c ∈ rest.head?, c = '-' ∨ c = '+'

/-- Where a version was read its three numbers stand, each of machine size. -/
theorem parseChars_eq_ok (h : parseChars cs = .ok v) :
    (∀ n ∈ v.numbers.toList, n < Text.wordBound) ∧
      ∃ rest, cs = v.numbers.text ++ rest ∧ Continues rest := by
  unfold parseChars at h
  simp only at h
  split at h
  · cases h
  · simp only [bind_eq_ok] at h
    obtain ⟨⟨major, cs₁⟩, hmajor, cs₂, hpoint, ⟨minor, cs₃⟩, hminor, cs₄, hpoint', ⟨patch, cs₅⟩,
      hpatch, ⟨pre, last, cs₆⟩, hpre, ⟨build, last', cs₇⟩, hbuild, h⟩ := h
    obtain ⟨hmajor, hcs, _⟩ := number_eq_ok hmajor
    obtain ⟨hminor, hcs₂, _⟩ := number_eq_ok hminor
    obtain ⟨hpatch, hcs₄, _⟩ := number_eq_ok hpatch
    have hcs₁ : cs₁ = '.' :: cs₂ := point_eq_ok hpoint
    have hcs₃ : cs₃ = '.' :: cs₄ := point_eq_ok hpoint'
    cases cs₇ with
    | cons c cs₇ => cases h
    | nil =>
      cases h
      refine ⟨?_, cs₅, ?_, ?_⟩
      · simp [numbers, Numbers.toList, hmajor, hminor, hpatch]
      · rw [hcs, hcs₁, hcs₂, hcs₃, hcs₄, numbers, text_three]
        simp
      · intro c hc
        rcases marked_eq_ok hpre with hhead | rfl
        · cases hc.symm.trans hhead
          exact Or.inl rfl
        · rcases marked_eq_ok hbuild with hhead | rfl
          · cases hc.symm.trans hhead
            exact Or.inr rfl
          · cases hc

/-- Three numbers of machine size are read as a version without further parts. -/
theorem parseChars_numbers (h : ∀ n ∈ v.numbers.toList, n < Text.wordBound) :
    parseChars v.numbers.text = .ok { major := v.major, minor := v.minor, patch := v.patch } := by
  simp only [numbers, Numbers.toList, List.mem_cons, List.not_mem_nil, or_false, forall_eq_or_imp,
    forall_eq] at h
  obtain ⟨hmajor, hminor, hpatch⟩ := h
  have hfirst : number .major v.numbers.text = .ok (v.major,
      '.' :: ((Text.decimal v.minor).toList ++ '.' :: (Text.decimal v.patch).toList)) := by
    rw [numbers, text_three]
    exact number_decimal hmajor (by simp)
  have hsecond :
      number .minor ((Text.decimal v.minor).toList ++ '.' :: (Text.decimal v.patch).toList) =
        .ok (v.minor, '.' :: (Text.decimal v.patch).toList) :=
    number_decimal hminor (by simp)
  have hthird : number .patch (Text.decimal v.patch).toList = .ok (v.patch, []) := by
    have hread : number .patch ((Text.decimal v.patch).toList ++ []) = .ok (v.patch, []) :=
      number_decimal hpatch (by simp)
    rwa [List.append_nil] at hread
  obtain ⟨d, ds, hds, _⟩ := exists_text v.numbers
  have hne : v.numbers.text.isEmpty = false := by simp [hds]
  simp [parseChars, hne, hfirst, point, hsecond, hthird, marked, bind, Except.bind, pure,
    Except.pure]

/-! ### The first digits and points of a text -/

theorem ne_point_of_mem_decimal {c : Char} (h : c ∈ (Text.decimal n).toList) : c ≠ '.' := by
  rintro rfl
  cases Text.isDigit_of_mem_decimal h

theorem length_splitWhere_numbers (v : Version) :
    (Text.splitWhere (· == '.') v.numbers.text).length = 3 := by
  have hdecimal : ∀ n, (Text.decimal n).toList.splitOnP (· == '.') = [(Text.decimal n).toList] := by
    intro n
    apply List.splitOnP_eq_singleton
    intro c hc
    simpa using ne_point_of_mem_decimal hc
  rw [Text.splitWhere_eq_splitOnP, numbers, text_three, List.splitOnP_append_cons _ _ (by rfl),
    List.splitOnP_append_cons _ _ (by rfl), hdecimal, hdecimal, hdecimal]
  rfl

theorem exists_patch_last (v : Version) :
    ∃ front, v.numbers.text = front ++ (Text.decimal v.patch).toList := by
  refine ⟨(Text.decimal v.major).toList ++ '.' :: ((Text.decimal v.minor).toList ++ ['.']), ?_⟩
  rw [numbers, text_three]
  simp

theorem ofList_numbers (v : Version) :
    String.ofList v.numbers.text =
      Text.decimal v.major ++ "." ++ Text.decimal v.minor ++ "." ++ Text.decimal v.patch := by
  apply String.toList_injective
  rw [numbers, text_three]
  simp

/-- What follows the numbers of a version, also with blanks after it, does not lengthen them. -/
theorem Continues.append_blanks {after : List Char} (h : Continues rest)
    (hafter : Text.Blanks after) : ∀ c ∈ (rest ++ after).head?, c.isDigit = false ∧ c ≠ '.' := by
  intro c hc
  cases rest with
  | nil =>
    have hblank := hafter c (List.mem_of_mem_head? hc)
    refine ⟨Text.isDigit_of_isBlank hblank, ?_⟩
    rintro rfl
    cases hblank
  | cons x rest => rcases h c hc with rfl | rfl <;> decide

/-- The numbers of a version are found between a text without digits and one that no digit and no
point starts. -/
theorem bare?_around (hsmall : ∀ n ∈ v.numbers.toList, n < Text.wordBound)
    (hbefore : ∀ c ∈ before, c.isDigit = false)
    (hrest : ∀ c ∈ rest.head?, c.isDigit = false ∧ c ≠ '.') {s : String}
    (hs : s.toList = before ++ (v.numbers.text ++ rest)) :
    bare? s = some (String.ofList v.numbers.text) := by
  obtain ⟨d, ds, hds, hd⟩ := exists_text v.numbers
  have hstart : s.toList.dropWhile (!·.isDigit) = v.numbers.text ++ rest := by
    rw [hs, List.dropWhile_append_of_pos (by simpa using hbefore), hds, List.cons_append,
      List.dropWhile_cons_of_neg (by simp [hd])]
  have hrun : (v.numbers.text ++ rest).takeWhile (fun c => c.isDigit || c == '.') =
      v.numbers.text := by
    have hall : ∀ c ∈ v.numbers.text, (c.isDigit || c == '.') = true := by
      intro c hc
      simpa using mem_numbers_text hc
    rw [List.takeWhile_append_of_pos hall]
    cases rest with
    | nil => simp
    | cons c rest =>
      obtain ⟨hdigit, hpoint⟩ := hrest c rfl
      simp [hdigit, hpoint]
  have hend : (v.numbers.text.reverse.dropWhile (· == '.')).reverse = v.numbers.text := by
    obtain ⟨front, hfront⟩ := exists_patch_last v
    obtain ⟨e, es, hes, _⟩ := Text.exists_decimal v.patch
    rw [hfront]
    apply Text.reverse_dropWhile_reverse (by simp [hes])
    intro c hc
    simpa using ne_point_of_mem_decimal hc
  simp only [bare?, hstart, hrun, hend, length_splitWhere_numbers, parseChars_numbers hsmall]
  rfl

end Version

/-! ### Dialects -/

namespace Dialect

/-- The part of a text that is read as a version: blanks around it and letters `v` before it are
left out. -/
def core (text : String) : List Char := (Text.trim text.toList).dropWhile (· == 'v')

theorem parse_eq_ok_iff {text : String} {d : Dialect} :
    parse text = .ok d ↔ ∃ v, Version.parseChars (core text) = .ok v ∧ ofVersion v = d := by
  unfold parse core
  split
  next v hv => simp [hv]
  next fault hfault => simp [hfault]

/-- No digit stands before what is read, and after it there are only blanks. -/
theorem exists_core (text : String) :
    ∃ before after, (∀ c ∈ before, c.isDigit = false) ∧ Text.Blanks after ∧
      text.toList = before ++ (core text ++ after) := by
  obtain ⟨lead, after, hlead, hafter, htext⟩ := Text.exists_trim text.toList
  have hsplit : (Text.trim text.toList).takeWhile (· == 'v') ++ core text =
      Text.trim text.toList := List.takeWhile_append_dropWhile
  refine ⟨lead ++ (Text.trim text.toList).takeWhile (· == 'v'), after, ?_, hafter, ?_⟩
  · intro c hc
    rcases List.mem_append.1 hc with hc | hc
    · exact Text.isDigit_of_isBlank (hlead c hc)
    · have hmark : c = 'v' := by simpa using List.mem_takeWhile_imp hc
      rw [hmark]
      rfl
  · calc text.toList
        = lead ++ Text.trim text.toList ++ after := htext
      _ = lead ++ ((Text.trim text.toList).takeWhile (· == 'v') ++ core text) ++ after := by
          rw [hsplit]
      _ = _ := by simp only [List.append_assoc]

theorem core_numbers (v : Version) : core (String.ofList v.numbers.text) = v.numbers.text := by
  obtain ⟨d, ds, hds, hd⟩ := Version.exists_text v.numbers
  have hmark : d ≠ 'v' := by
    rintro rfl
    cases hd
  have htrim : Text.trim v.numbers.text = v.numbers.text :=
    Text.trim_eq_self (by simp [hds]) fun c hc => Version.isBlank_numbers hc
  rw [core, String.toList_ofList, htrim, hds, List.dropWhile_cons_of_neg (by simpa using hmark)]

end Dialect

namespace Version

/-- Every text that names a dialect holds three numbers, which are found in it as they stand. Read
on their own they name the same dialect, and nothing more is found in them. -/
theorem bare?_of_dialect (s : String) (d : Dialect) (h : Dialect.parse s = .ok d) :
    ∃ (v : Version) (t : String), parseChars (Dialect.core s) = .ok v ∧
      t = Text.decimal v.major ++ "." ++ Text.decimal v.minor ++ "." ++ Text.decimal v.patch ∧
      parse t = .ok { major := v.major, minor := v.minor, patch := v.patch } ∧
      bare? s = some t ∧ Dialect.parse t = .ok d ∧ bare? t = some t := by
  obtain ⟨v, hv, rfl⟩ := Dialect.parse_eq_ok_iff.1 h
  obtain ⟨hsmall, rest, hcore, hrest⟩ := parseChars_eq_ok hv
  obtain ⟨before, after, hbefore, hafter, hs⟩ := Dialect.exists_core s
  have hparse := parseChars_numbers hsmall
  refine ⟨v, String.ofList v.numbers.text, hv, ofList_numbers v, ?_, ?_, ?_, ?_⟩
  · rw [parse, String.toList_ofList, hparse]
  · apply bare?_around hsmall hbefore (hrest.append_blanks hafter)
    rw [hs, hcore, List.append_assoc]
  · rw [Dialect.parse_eq_ok_iff, Dialect.core_numbers]
    exact ⟨_, hparse, rfl⟩
  · have halone : (String.ofList v.numbers.text).toList = [] ++ (v.numbers.text ++ []) := by simp
    exact bare?_around hsmall (by simp) (by simp) halone

/-- A tag with blanks around it, letters before it, a numeric pre-release and build metadata. -/
theorem bare?_of_dialect_tagged :
    ∃ t, bare? "\u3000vv0.8.13-1.0+commit.7 \n" = some t ∧ t = "0.8.13" ∧
      Dialect.parse t = .ok .v8 ∧ bare? t = some t := by
  have hdialect : Dialect.parse "\u3000vv0.8.13-1.0+commit.7 \n" = .ok .v8 := by decide +kernel
  obtain ⟨v, t, hv, ht, _, hbare, hparse, hagain⟩ := bare?_of_dialect _ _ hdialect
  exact ⟨t, hbare, Option.some.inj (hbare.symm.trans (by decide +kernel)), hparse, hagain⟩

end Version
end CodeAtlas
