import CodeAtlas.Proofs.Version.Spelling
import Mathlib.Data.List.Forall2

/-! What pragmas ask for. Bounds may be laid out with blanks in many ways, in alternatives and over
several lines; the versions that a pragma admits depend on the bounds alone. -/
namespace CodeAtlas.Version

open Text (Blanks wordsIn)

variable {b : Bound} {bounds : List Bound} {c : Char} {cs text ws : List Char}

/-! ### Layout -/

/-- A bound in a text: its numbers, after the sign of its relation and any blanks if it has one. -/
inductive Bound.Spelled : Bound → List Char → Prop
  | bare {numbers small} : Spelled ⟨none, numbers, small⟩ numbers.text
  | signed {r numbers small gap} : Blanks gap →
      Spelled ⟨some r, numbers, small⟩ (r.sign ++ (gap ++ numbers.text))

/-- Bounds one after the other, with blanks between them. -/
inductive Listed : List Char → List Bound → Prop
  | last {b text trail} : b.Spelled text → Blanks trail → Listed (text ++ trail) [b]
  | next {b text gap rest bounds} : b.Spelled text → Blanks gap → gap ≠ [] → Listed rest bounds →
      Listed (text ++ (gap ++ rest)) (b :: bounds)

/-- A list of at most 32 bounds, with any blanks around it. -/
def Spells (text : List Char) (bounds : List Bound) : Prop :=
  bounds.length ≤ 32 ∧ ∃ lead body, Blanks lead ∧ text = lead ++ body ∧ Listed body bounds

theorem Listed.ne_nil (h : Listed text bounds) : bounds ≠ [] := by
  cases h <;> simp

/-- The characters of bounds. -/
def InBounds (c : Char) : Prop := Text.isBlank c = true ∨ c.isDigit = true ∨ c ∈ '.' :: signStarts

instance (c : Char) : Decidable (InBounds c) := inferInstanceAs (Decidable (_ ∨ _ ∨ _))

theorem mem_sign {r : Relation} (h : c ∈ r.sign) : c ∈ signStarts := by
  rw [mem_signStarts]
  cases r <;> grind [Relation.sign]

theorem mem_numbers_text {given : Numbers} (h : c ∈ given.text) : c.isDigit = true ∨ c = '.' := by
  have hdecimal : ∀ n, c ∈ (Text.decimal n).toList → c.isDigit = true := fun n hn =>
    Text.isDigit_of_mem_decimal hn
  cases given <;>
    simp only [text_one, text_two, text_three, List.mem_append, List.mem_cons] at h <;> grind

theorem inBounds_of_mem_numbers {given : Numbers} (h : c ∈ given.text) : InBounds c := by
  rcases mem_numbers_text h with hdigit | rfl
  · exact Or.inr (Or.inl hdigit)
  · decide

theorem Bound.Spelled.inBounds (h : b.Spelled text) (hc : c ∈ text) : InBounds c := by
  cases h with
  | bare => exact inBounds_of_mem_numbers hc
  | signed hgap =>
    rw [List.mem_append, List.mem_append] at hc
    rcases hc with hc | hc | hc
    · exact Or.inr (Or.inr (List.mem_cons_of_mem _ (mem_sign hc)))
    · exact Or.inl (hgap c hc)
    · exact inBounds_of_mem_numbers hc

theorem Listed.inBounds (h : Listed text bounds) (hc : c ∈ text) : InBounds c := by
  induction h with
  | last hspelled htrail =>
    rcases List.mem_append.1 hc with hc | hc
    · exact hspelled.inBounds hc
    · exact Or.inl (htrail c hc)
  | next hspelled hgap _ _ ih =>
    rw [List.mem_append, List.mem_append] at hc
    rcases hc with hc | hc | hc
    · exact hspelled.inBounds hc
    · exact Or.inl (hgap c hc)
    · exact ih hc

theorem Spells.inBounds (h : Spells text bounds) (hc : c ∈ text) : InBounds c := by
  obtain ⟨_, lead, body, hlead, rfl, hlisted⟩ := h
  rcases List.mem_append.1 hc with hc | hc
  · exact Or.inl (hlead c hc)
  · exact hlisted.inBounds hc

/-! ### Words -/

theorem isBlank_numbers {given : Numbers} (h : c ∈ given.text) : Text.isBlank c = false := by
  rcases mem_numbers_text h with hdigit | rfl
  · exact Text.isBlank_of_isDigit hdigit
  · rfl

theorem isBlank_sign {r : Relation} (h : c ∈ r.sign) : Text.isBlank c = false := by
  rcases mem_signStarts.1 (mem_sign h) with rfl | rfl | rfl | rfl | rfl <;> rfl

theorem isOperator_sign (r : Relation) : Pragma.isOperator (String.ofList r.sign) = true := by
  cases r <;> simp [Pragma.isOperator, Relation.sign]

/-- A word that ends in numbers is no operator. -/
theorem isOperator_append (start : List Char) (given : Numbers) :
    Pragma.isOperator (String.ofList (start ++ given.text)) = false := by
  obtain ⟨d, ds, hds, hd⟩ := exists_text given
  have hsign : d ∉ "<>=^~".toList := by
    have hlist : "<>=^~".toList = ['<', '>', '=', '^', '~'] := rfl
    intro hmem
    simp only [hlist, List.mem_cons, List.not_mem_nil, or_false] at hmem
    rcases hmem with rfl | rfl | rfl | rfl | rfl <;> simp at hd
  rw [Pragma.isOperator, String.toList_ofList, hds, List.all_eq_false]
  exact ⟨d, by simp, by simpa using hsign⟩

theorem comparatorText_numbers (given : Numbers) :
    Pragma.comparatorText "" (String.ofList given.text) = String.ofList ('=' :: given.text) := by
  obtain ⟨d, ds, hds, hd⟩ := exists_text given
  simp [Pragma.comparatorText, hds, hd]

theorem comparatorText_sign {operator word : String} (r : Relation)
    (h : operator ++ word = String.ofList (r.sign ++ cs)) :
    Pragma.comparatorText operator word = String.ofList (r.sign ++ cs) := by
  obtain ⟨c, sign, hsign, hc⟩ := exists_sign r
  have hdigit : c.isDigit = false := by
    rcases mem_signStarts.1 hc with rfl | rfl | rfl | rfl | rfl <;> rfl
  simp [Pragma.comparatorText, h, hsign, hdigit]

theorem comparatorTexts_word {operator word : String} (h : Pragma.isOperator word = false)
    (more : List String) :
    Pragma.comparatorTexts operator (word :: more) =
      Pragma.comparatorText operator word :: Pragma.comparatorTexts "" more := by
  simp [Pragma.comparatorTexts, h]

theorem wordsIn_numbers (given : Numbers) : wordsIn given.text = [given.text] := by
  obtain ⟨d, ds, hds, _⟩ := exists_text given
  exact Text.wordsIn_of_word (by simp [hds]) fun c hc => isBlank_numbers hc

theorem wordsIn_sign (r : Relation) : wordsIn r.sign = [r.sign] := by
  obtain ⟨c, sign, hsign, _⟩ := exists_sign r
  exact Text.wordsIn_of_word (by simp [hsign]) fun c hc => isBlank_sign hc

theorem wordsIn_sign_append (r : Relation) (given : Numbers) :
    wordsIn (r.sign ++ given.text) = [r.sign ++ given.text] := by
  obtain ⟨c, sign, hsign, _⟩ := exists_sign r
  apply Text.wordsIn_of_word
  · simp [hsign]
  · intro c hc
    rcases List.mem_append.1 hc with hc | hc
    · exact isBlank_sign hc
    · exact isBlank_numbers hc

/-- The words of a bound make its text, whether its sign is a word of its own or not. -/
theorem comparatorTexts_spelled (h : b.Spelled text) (more : List String) :
    Pragma.comparatorTexts "" ((wordsIn text).map String.ofList ++ more) =
      String.ofList b.text :: Pragma.comparatorTexts "" more := by
  cases h with
  | @bare numbers small =>
    rw [wordsIn_numbers]
    exact (comparatorTexts_word (isOperator_append [] numbers) more).trans
      (congrArg (· :: _) (comparatorText_numbers numbers))
  | @signed r numbers small gap hgap =>
    cases gap with
    | nil =>
      rw [List.nil_append, wordsIn_sign_append]
      exact (comparatorTexts_word (isOperator_append r.sign numbers) more).trans
        (congrArg (· :: _) (comparatorText_sign r String.empty_append))
    | cons d gap =>
      rw [Text.wordsIn_append hgap (by simp), wordsIn_sign, wordsIn_numbers]
      -- The sign waits for the next word, which is not an operator.
      have hwait :
          Pragma.comparatorTexts "" (String.ofList r.sign :: String.ofList numbers.text :: more) =
            Pragma.comparatorTexts (String.ofList r.sign) (String.ofList numbers.text :: more) := by
        simp [Pragma.comparatorTexts, isOperator_sign]
      exact hwait.trans ((comparatorTexts_word (isOperator_append [] numbers) more).trans
        (congrArg (· :: _) (comparatorText_sign r String.ofList_append.symm)))

theorem comparatorTexts_listed (h : Listed text bounds) :
    Pragma.comparatorTexts "" ((wordsIn text).map String.ofList) =
      bounds.map fun b => String.ofList b.text := by
  induction h with
  | @last b text trail hspelled htrail =>
    rw [Text.wordsIn_append_blanks htrail, ← List.append_nil ((wordsIn text).map _),
      comparatorTexts_spelled hspelled]
    rfl
  | @next b text gap rest bounds hspelled hgap hne _ ih =>
    rw [Text.wordsIn_append hgap hne, List.map_append, comparatorTexts_spelled hspelled, ih]
    rfl

theorem alternative?_congr {ds : List Char} (h : wordsIn cs = wordsIn ds) :
    Pragma.alternative? cs = Pragma.alternative? ds := by
  rw [Pragma.alternative?, Pragma.alternative?, Text.words_ofList, Text.words_ofList, h]

/-- The requirement that all of some bounds make. -/
def requirement (bounds : List Bound) : Requirement := ⟨bounds.map Bound.comparator⟩

theorem alternative?_spells (h : Spells text bounds) :
    Pragma.alternative? text = some (requirement bounds) := by
  obtain ⟨hcount, lead, body, hlead, rfl, hlisted⟩ := h
  rw [alternative?_congr (Text.wordsIn_blanks_append hlead body), Pragma.alternative?,
    Text.words_ofList, comparatorTexts_listed hlisted]
  simp only [List.isEmpty_iff, List.map_eq_nil_iff, hlisted.ne_nil, if_false]
  exact parse?_texts hlisted.ne_nil hcount

theorem requirement_holds {v : Version} (h : v.pre = []) :
    (requirement bounds).holds v = true ↔ ∀ b ∈ bounds, b.Admits v := by
  simp [requirement, Requirement.holds, h, Bound.holds_comparator]

namespace Pragma

/-! ### Alternatives -/

theorem alternatives_ne_nil (cs : List Char) : alternatives cs ≠ [] := by
  fun_cases alternatives cs <;> simp

/-- A character goes in front of the first piece, unless it starts a double bar. -/
theorem alternatives_cons (h : ∀ rest, c = '|' → cs ≠ '|' :: rest) :
    alternatives (c :: cs) = (alternatives cs).modifyHead (c :: ·) := by
  obtain ⟨piece, pieces, hpieces⟩ := List.exists_cons_of_ne_nil (alternatives_ne_nil cs)
  rw [alternatives]
  · simp [hpieces]
  · exact h

theorem alternatives_append (h : '|' ∉ text) (cs : List Char) :
    alternatives (text ++ cs) = (alternatives cs).modifyHead (text ++ ·) := by
  induction text with
  | nil => exact (congrFun List.modifyHead_id (alternatives cs)).symm
  | cons c text ih =>
    rw [List.mem_cons, not_or] at h
    rw [List.cons_append, alternatives_cons fun _ hc => absurd hc.symm h.1, ih h.2,
      List.modifyHead_modifyHead]
    rfl

/-- Alternatives joined by double bars fall apart again. -/
theorem alternatives_intercalate {texts : List (List Char)} (hne : texts ≠ [])
    (h : ∀ text ∈ texts, '|' ∉ text) : alternatives (['|', '|'].intercalate texts) = texts := by
  induction texts with
  | nil => exact absurd rfl hne
  | cons text texts ih =>
    have htext := alternatives_append (h text (by simp))
    cases texts with
    | nil => simpa [alternatives] using htext []
    | cons next texts =>
      rw [List.intercalate_cons_cons, List.append_assoc, htext]
      have hnext := ih (by simp) fun text hmem => h text (List.mem_cons_of_mem _ hmem)
      simp [alternatives, hnext]

/-- Blanks at the end go to the last piece. -/
theorem forall₂_alternatives_append (h : Blanks ws) (cs : List Char) :
    List.Forall₂ (fun piece padded => ∃ after, Blanks after ∧ padded = piece ++ after)
      (alternatives cs) (alternatives (cs ++ ws)) := by
  have hbar : '|' ∉ ws := h.notMem rfl
  fun_induction alternatives cs with
  | case1 =>
    have hws := alternatives_append hbar []
    rw [List.append_nil] at hws
    rw [List.nil_append, hws]
    exact .cons ⟨ws, h, by simp⟩ .nil
  | case2 rest ih => exact .cons ⟨[], by simp [Blanks], rfl⟩ ih
  | case3 c rest _ hrest => exact absurd hrest (alternatives_ne_nil rest)
  | case4 c rest hbars piece pieces hrest ih =>
    -- No blank is a bar, so no double bar comes to be where the blanks begin.
    have hcons : alternatives (c :: (rest ++ ws)) =
        (alternatives (rest ++ ws)).modifyHead (c :: ·) := by
      apply alternatives_cons
      rintro more rfl heq
      cases rest with
      | nil => exact hbar (by simp [show ws = '|' :: more from heq])
      | cons d rest =>
        cases heq
        exact hbars rest rfl rfl
    rw [hrest] at ih
    rw [List.cons_append, hcons]
    cases hpadded : alternatives (rest ++ ws) with
    | nil => exact absurd hpadded (alternatives_ne_nil _)
    | cons padded others =>
      rw [hpadded] at ih
      obtain ⟨⟨after, hafter, rfl⟩, hothers⟩ := List.forall₂_cons.1 ih
      exact .cons ⟨after, hafter, rfl⟩ hothers

theorem directive?_blanks_append (h : Blanks ws) (cs : List Char) :
    directive? (ws ++ cs) = directive? cs := by
  obtain ⟨piece, pieces, hpieces⟩ := List.exists_cons_of_ne_nil (alternatives_ne_nil cs)
  rw [directive?, directive?, alternatives_append (h.notMem rfl), hpieces]
  simp [alternative?_congr (Text.wordsIn_blanks_append h piece)]

theorem mapM_congr_of_forall₂ {α β : Type} {f : α → Option β} {xs ys : List α}
    (h : List.Forall₂ (fun x y => f x = f y) xs ys) : xs.mapM f = ys.mapM f := by
  induction h with
  | nil => rfl
  | cons hxy _ ih => rw [List.mapM_cons, List.mapM_cons, hxy, ih]

theorem directive?_append_blanks (h : Blanks ws) (cs : List Char) :
    directive? (cs ++ ws) = directive? cs := by
  symm
  apply mapM_congr_of_forall₂
  apply (forall₂_alternatives_append h cs).imp
  rintro piece _ ⟨after, hafter, rfl⟩
  exact (alternative?_congr (Text.wordsIn_append_blanks hafter piece)).symm

/-- Blanks around an expression do not matter. -/
theorem directive?_trim (cs : List Char) : directive? (Text.trim cs) = directive? cs := by
  obtain ⟨before, after, hbefore, hafter, hcs⟩ := Text.exists_trim cs
  conv_rhs => rw [hcs, directive?_append_blanks hafter, directive?_blanks_append hbefore]

/-! ### Lines -/

/-- A pragma line: it starts with the two keywords, the blanks around it apart. -/
def IsDirective (line : List Char) : Prop :=
  ∃ gap rest, Blanks gap ∧
    Text.trim line = "pragma".toList ++ (gap ++ ("solidity".toList ++ rest))

/-- A pragma line whose expression lists alternatives. Anything may follow the semicolon. -/
def Asks (line : List Char) (asked : List (List Bound)) : Prop :=
  ∃ gap texts rest, Blanks gap ∧
    Text.trim line = "pragma".toList ++
      (gap ++ ("solidity".toList ++ (['|', '|'].intercalate texts ++ ';' :: rest))) ∧
    texts ≠ [] ∧ List.Forall₂ Spells texts asked

theorem expression?_eq_some_iff {line expression : List Char} :
    expression? line = some expression ↔
      ∃ gap rest, Blanks gap ∧
        Text.trim line = "pragma".toList ++ (gap ++ ("solidity".toList ++ rest)) ∧
        expression = Text.trim (rest.takeWhile (· != ';')) := by
  simp only [expression?, Option.bind_eq_bind, Option.bind_eq_some_iff,
    Text.afterStart?_eq_some_iff, Option.pure_def, Option.some.injEq]
  constructor
  · rintro ⟨after, hline, rest, hafter, rfl⟩
    obtain ⟨gap, hgap, hgaps⟩ := Text.exists_trimStart after
    exact ⟨gap, rest, hgap, by rw [hline, hgaps, hafter], rfl⟩
  · rintro ⟨gap, rest, hgap, hline, rfl⟩
    refine ⟨_, hline, rest, ?_, rfl⟩
    rw [Text.trimStart_append hgap]
    exact Text.trimStart_cons rfl

theorem isDirective_iff {line : List Char} :
    IsDirective line ↔ (expression? line).isSome = true := by
  rw [Option.isSome_iff_exists]
  constructor
  · rintro ⟨gap, rest, hgap, hline⟩
    exact ⟨_, expression?_eq_some_iff.2 ⟨gap, rest, hgap, hline, rfl⟩⟩
  · rintro ⟨expression, h⟩
    obtain ⟨gap, rest, hgap, hline, _⟩ := expression?_eq_some_iff.1 h
    exact ⟨gap, rest, hgap, hline⟩

instance (line : List Char) : Decidable (IsDirective line) :=
  decidable_of_iff _ isDirective_iff.symm

/-- The characters of an expression: bars and those of bounds. -/
theorem mem_intercalate_spells {texts : List (List Char)} {asked : List (List Bound)}
    (h : List.Forall₂ Spells texts asked) (hc : c ∈ ['|', '|'].intercalate texts) :
    c = '|' ∨ InBounds c := by
  induction h with
  | nil => simp at hc
  | @cons text bounds texts asked hspells _ ih =>
    cases texts with
    | nil => exact Or.inr (hspells.inBounds (by simpa using hc))
    | cons next texts =>
      rw [List.intercalate_cons_cons, List.mem_append, List.mem_append] at hc
      rcases hc with (hc | hc) | hc
      · exact Or.inr (hspells.inBounds hc)
      · exact Or.inl (by simpa using hc)
      · exact ih hc

theorem notMem_of_spells {texts : List (List Char)} {asked : List (List Bound)}
    (h : List.Forall₂ Spells texts asked) (hc : ¬InBounds c) : ∀ text ∈ texts, c ∉ text := by
  induction h with
  | nil => simp
  | cons hspells _ ih =>
    rintro text (_ | ⟨_, htext⟩) hmem
    · exact hc (hspells.inBounds hmem)
    · exact ih text htext hmem

theorem mapM_alternative?_spells {texts : List (List Char)} {asked : List (List Bound)}
    (h : List.Forall₂ Spells texts asked) :
    texts.mapM alternative? = some (asked.map requirement) := by
  induction h with
  | nil => rfl
  | cons hspells _ ih => simp [alternative?_spells hspells, ih]

/-- A pragma line is read as the requirements of its alternatives. -/
theorem bind_directive?_of_asks {line : List Char} {asked : List (List Bound)}
    (h : Asks line asked) :
    (expression? line).bind directive? = some (asked.map requirement) := by
  obtain ⟨gap, texts, rest, hgap, hline, hne, hspells⟩ := h
  have hexpression : expression? line = some (Text.trim (['|', '|'].intercalate texts)) := by
    refine expression?_eq_some_iff.2 ⟨gap, _, hgap, hline, ?_⟩
    rw [List.takeWhile_append_of_pos]
    · simp
    · intro c hc
      rw [bne_iff_ne]
      rintro rfl
      exact absurd (mem_intercalate_spells hspells hc) (by decide)
  rw [hexpression, Option.bind_some, directive?_trim, directive?,
    alternatives_intercalate hne (notMem_of_spells hspells (by decide))]
  exact mapM_alternative?_spells hspells

theorem bind_directive?_eq_some_iff {line : List Char} {asked : List (List Bound)}
    {directive : List Requirement} (h : IsDirective line → Asks line asked) :
    (expression? line).bind directive? = some directive ↔
      IsDirective line ∧ directive = asked.map requirement := by
  constructor
  · intro hread
    obtain ⟨expression, hexpression, _⟩ := Option.bind_eq_some_iff.1 hread
    have hdirective : IsDirective line := isDirective_iff.2 (by rw [hexpression]; rfl)
    rw [bind_directive?_of_asks (h hdirective)] at hread
    exact ⟨hdirective, (Option.some.inj hread).symm⟩
  · rintro ⟨hdirective, rfl⟩
    exact bind_directive?_of_asks (h hdirective)

/-! ### Sources -/

theorem any_requirement {v : Version} (h : v.pre = []) (asked : List (List Bound)) :
    (asked.map requirement).any (·.holds v) = true ↔
      ∃ bounds ∈ asked, ∀ b ∈ bounds, b.Admits v := by
  simp [requirement_holds h]

/-- A source whose pragma lines ask for bounds is read, and a release fits it if in every such line
all bounds of one alternative admit the release. -/
theorem ofSource?_admits (source : String) (reading : List Char → List (List Bound))
    (hsome : ∃ line ∈ Text.lines source.toList, IsDirective line)
    (hread : ∀ line ∈ Text.lines source.toList, IsDirective line → Asks line (reading line)) :
    ∃ p, ofSource? source = some p ∧ ∀ v : Version, v.pre = [] →
      (p.holds v = true ↔
        ∀ line ∈ Text.lines source.toList, IsDirective line →
          ∃ bounds ∈ reading line, ∀ b ∈ bounds, b.Admits v) := by
  generalize hdirectives : (Text.lines source.toList).filterMap (fun line =>
    (expression? line).bind directive?) = directives
  have hmem : ∀ directive, directive ∈ directives ↔
      ∃ line ∈ Text.lines source.toList, IsDirective line ∧
        directive = (reading line).map requirement := by
    intro directive
    rw [← hdirectives, List.mem_filterMap]
    apply exists_congr
    intro line
    exact and_congr_right fun hline => bind_directive?_eq_some_iff (hread line hline)
  have hne : directives ≠ [] := by
    obtain ⟨line, hline, hdirective⟩ := hsome
    exact List.ne_nil_of_mem ((hmem _).2 ⟨line, hline, hdirective, rfl⟩)
  refine ⟨⟨directives⟩, ?_, ?_⟩
  · simp only [ofSource?, hdirectives, List.isEmpty_iff, hne, if_false]
  · intro v hv
    rw [holds, List.all_eq_true]
    constructor
    · intro h line hline hdirective
      exact (any_requirement hv _).1 (h _ ((hmem _).2 ⟨line, hline, hdirective, rfl⟩))
    · intro h directive hdirective
      obtain ⟨line, hline, hpragma, rfl⟩ := (hmem directive).1 hdirective
      exact (any_requirement hv _).2 (h line hline hpragma)

/-- A pragma line with signs apart from their versions and next to them. -/
def rangeLine : String := "\tpragma  solidity >= 0.4.22 <0.6||^0.8.1 ; // two ranges"

/-- A pragma line whose first alternative has no sign. -/
def choiceLine : String := "pragma solidity0.5.17 || ~\t0.8||=1;"

/-- A source with two pragma lines. -/
def pinned : String := "// pinned\n" ++ rangeLine ++ "\r\ncontract C \x7b\x7d\n" ++ choiceLine

/-- The bounds of the two lines. -/
def pinnedBounds (line : List Char) : List (List Bound) :=
  if line = rangeLine.toList then
    [[⟨some .greaterEq, .three 0 4 22, by decide⟩, ⟨some .less, .two 0 6, by decide⟩],
      [⟨some .caret, .three 0 8 1, by decide⟩]]
  else
    [[⟨none, .three 0 5 17, by decide⟩], [⟨some .tilde, .two 0 8, by decide⟩],
      [⟨some .exact, .one 1, by decide⟩]]

theorem lines_pinned : Text.lines pinned.toList =
    ["// pinned".toList, rangeLine.toList, "contract C \x7b\x7d".toList, choiceLine.toList] := by
  decide +kernel

theorem rangeLine_asks : Asks rangeLine.toList (pinnedBounds rangeLine.toList) := by
  rw [pinnedBounds, if_pos rfl]
  refine ⟨"  ".toList, _, " // two ranges".toList, by decide, ?_, List.cons_ne_nil _ _,
    .cons ⟨by decide, [' '], _, by decide, rfl,
      .next (.signed (by decide : Blanks [' '])) (by decide : Blanks [' ']) (by decide)
        (.last (.signed (by decide : Blanks [])) (by decide : Blanks []))⟩
    (.cons ⟨by decide, [], _, by decide, rfl,
      .last (.signed (by decide : Blanks [])) (by decide : Blanks [' '])⟩ .nil)⟩
  decide +kernel

theorem choiceLine_asks : Asks choiceLine.toList (pinnedBounds choiceLine.toList) := by
  rw [pinnedBounds, if_neg (by decide +kernel)]
  refine ⟨" ".toList, _, [], by decide, ?_, List.cons_ne_nil _ _,
    .cons ⟨by decide, [], _, by decide, rfl, .last .bare (by decide : Blanks [' '])⟩
    (.cons ⟨by decide, [' '], _, by decide, rfl,
      .last (.signed (by decide : Blanks ['\t'])) (by decide : Blanks [])⟩
    (.cons ⟨by decide, [], _, by decide, rfl,
      .last (.signed (by decide : Blanks [])) (by decide : Blanks [])⟩ .nil))⟩
  decide +kernel

theorem ofSource?_admits_pinned :
    (∃ line ∈ Text.lines pinned.toList, IsDirective line) ∧
      (∀ line ∈ Text.lines pinned.toList, IsDirective line → Asks line (pinnedBounds line)) ∧
      ∃ p, ofSource? pinned = some p ∧ ∀ v : Version, v.pre = [] →
        (p.holds v = true ↔
          ∀ line ∈ Text.lines pinned.toList, IsDirective line →
            ∃ bounds ∈ pinnedBounds line, ∀ b ∈ bounds, b.Admits v) := by
  have hsome : ∃ line ∈ Text.lines pinned.toList, IsDirective line := by
    rw [lines_pinned]
    exact ⟨choiceLine.toList, by simp, by decide +kernel⟩
  have hread : ∀ line ∈ Text.lines pinned.toList, IsDirective line →
      Asks line (pinnedBounds line) := by
    rw [lines_pinned]
    intro line hline hdirective
    simp only [List.mem_cons, List.not_mem_nil, or_false] at hline
    rcases hline with rfl | rfl | rfl | rfl
    · exact absurd hdirective (by decide +kernel)
    · exact rangeLine_asks
    · exact absurd hdirective (by decide +kernel)
    · exact choiceLine_asks
  exact ⟨hsome, hread, ofSource?_admits pinned pinnedBounds hsome hread⟩

end Pragma

end CodeAtlas.Version
