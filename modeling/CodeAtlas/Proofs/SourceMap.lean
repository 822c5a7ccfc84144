import CodeAtlas.Proofs.Text.Reading
import CodeAtlas.Span

/-! Decoding undoes every way of writing a source map. An entry may leave out what it has in common
with the one before it, so what its text stands for depends on all the entries before. -/
namespace CodeAtlas

/-- The offsets fit a machine word, and the file's index a signed one. -/
structure Span.InRange (s : Span) : Prop where
  start_lt : s.start < Text.wordBound
  length_lt : s.length < Text.wordBound
  le_file : -(Text.signedBound : Int) ≤ s.file
  file_lt : s.file < Text.signedBound

namespace SourceMap

variable {last e : Span} {spans : List Span} {text : String} {texts fields : List String}
  {c : Char} {i : Nat}

/-- The text of a field: its value written out, or nothing where it repeats the value before. -/
def FieldText {α : Type} (write : α → String) (last value : α) (text : String) : Prop :=
  text = write value ∨ text = "" ∧ value = last

/-- The fields of an entry after another: three for its range, then any others. -/
inductive Fields (last e : Span) : List String → Prop where
  | intro {start length file : String} {others : List String}
      (hstart : FieldText Text.decimal last.start e.start start)
      (hlength : FieldText Text.decimal last.length e.length length)
      (hfile : FieldText Text.signedDecimal last.file e.file file)
      (hothers : ∀ text ∈ others, ';' ∉ text.toList) :
      Fields last e (start :: length :: file :: others)

/-- The text of an entry after another: its fields with colons between them, where any number of
empty ones at the end may be left out. -/
def EntryText (last e : Span) (text : String) : Prop :=
  ∃ kept dropped, Fields last e (kept ++ List.replicate dropped "") ∧
    text = String.intercalate ":" kept

/-- Texts of entries, each one written after the entry before it. -/
inductive Encodes : Span → List Span → List String → Prop where
  | nil (last : Span) : Encodes last [] []
  | cons {last e : Span} {spans : List Span} {text : String} {texts : List String}
      (entry : EntryText last e text) (rest : Encodes e spans texts) :
      Encodes last (e :: spans) (text :: texts)

/-! ### Separators do not occur in fields -/

theorem FieldText.notMem {α : Type} {write : α → String} {last value : α}
    (h : FieldText write last value text) (hc : c ∉ (write value).toList) : c ∉ text.toList := by
  obtain rfl | ⟨rfl, _⟩ := h
  · exact hc
  · simp

theorem notMem_decimal (n : Nat) (hc : c.isDigit = false) : c ∉ (Text.decimal n).toList := by
  intro hmem
  simp [Text.isDigit_of_mem_decimal hmem] at hc

theorem notMem_signedDecimal (n : Int) (hc : c.isDigit = false) (hminus : c ≠ '-') :
    c ∉ (Text.signedDecimal n).toList := by
  cases n with
  | ofNat n => exact notMem_decimal n hc
  | negSucc n => simpa [Text.signedDecimal, hminus] using notMem_decimal (n + 1) hc

theorem Fields.notMem_of_mem_take (h : Fields last e fields) (hc : c.isDigit = false)
    (hminus : c ≠ '-') : ∀ text ∈ fields.take 3, c ∉ text.toList := by
  obtain ⟨hstart, hlength, hfile, _⟩ := h
  intro text htext
  simp only [List.take_succ_cons, List.take_zero, List.mem_cons, List.not_mem_nil, or_false]
    at htext
  obtain rfl | rfl | rfl := htext
  · exact hstart.notMem (notMem_decimal _ hc)
  · exact hlength.notMem (notMem_decimal _ hc)
  · exact hfile.notMem (notMem_signedDecimal _ hc hminus)

theorem Fields.semicolon_notMem (h : Fields last e fields) :
    ∀ text ∈ fields, ';' ∉ text.toList := by
  intro text htext
  have hfirst := h.notMem_of_mem_take (c := ';') (by decide) (by decide)
  obtain ⟨_, _, _, hothers⟩ := h
  rw [← List.take_append_drop 3 (_ :: _), List.mem_append] at htext
  obtain htext | htext := htext
  · exact hfirst text htext
  · exact hothers text htext

theorem EntryText.semicolon_notMem (h : EntryText last e text) : ';' ∉ text.toList := by
  obtain ⟨kept, dropped, hfields, rfl⟩ := h
  intro hmem
  obtain hmem | ⟨field, hfield, hmem⟩ := Text.mem_intercalate hmem
  · simp at hmem
  · exact hfields.semicolon_notMem field (by simp [hfield]) hmem

/-! ### Reading the fields of an entry -/

/-- An empty field at the end is read alike whether it is there or not. -/
theorem getD_kept (kept : List String) (dropped i : Nat) :
    kept[i]?.getD "" = (kept ++ List.replicate dropped "")[i]?.getD "" := by
  by_cases hi : i < kept.length
  · rw [List.getElem?_append_left hi]
  · rw [List.getElem?_append_right (by omega), List.getElem?_replicate,
      List.getElem?_eq_none (by omega)]
    split <;> rfl

theorem getD_splitOn_intercalate (kept : List String)
    (h : ∀ text ∈ kept.take 3, ':' ∉ text.toList) (hi : i < 3) :
    (Text.splitOn ':' (String.intercalate ":" kept))[i]?.getD "" = kept[i]?.getD "" := by
  by_cases hkept : kept = []
  · subst hkept
    cases i <;> rfl
  · rw [Text.splitOn_intercalate rfl hkept, Text.getElem?_flatMap_splitOn h hi]

/-- What is read at the place of a field is the field, whatever was left out at the end. -/
theorem getD_entryText {kept : List String} {dropped : Nat}
    (h : Fields last e (kept ++ List.replicate dropped "")) (hi : i < 3) :
    (Text.splitOn ':' (String.intercalate ":" kept))[i]?.getD "" =
      (kept ++ List.replicate dropped "")[i]?.getD "" := by
  have hcolon := h.notMem_of_mem_take (c := ':') (by decide) (by decide)
  rw [List.take_append] at hcolon
  rw [getD_splitOn_intercalate kept (fun text htext => hcolon text (by simp [htext])) hi,
    getD_kept kept dropped]

/-- A field gives its value: by its text, or by the value before if it has none. -/
theorem FieldText.getD_read {α : Type} {write : α → String} {last value : α}
    {read : String → Option α} {field : Option String} (hempty : read "" = none)
    (hread : read (write value) = some value)
    (h : FieldText write last value (field.getD "")) : (field.bind read).getD last = value := by
  cases field with
  | none =>
    obtain hwrite | ⟨_, rfl⟩ := h
    · rw [← hwrite, Option.getD_none, hempty] at hread
      cases hread
    · rfl
  | some text =>
    obtain hwrite | ⟨htext, rfl⟩ := h
    · rw [Option.getD_some] at hwrite
      simp [hwrite, hread]
    · rw [Option.getD_some] at htext
      simp [htext, hempty]

/-- The text of an entry is read as that entry. -/
theorem entry_of_entryText (hrange : e.InRange) (h : EntryText last e text) :
    entry last text = e := by
  obtain ⟨kept, dropped, hfields, rfl⟩ := h
  have hget := fun (i : Nat) (hi : i < 3) => getD_entryText hfields hi
  unfold entry
  generalize kept ++ List.replicate dropped "" = fields at hfields hget
  generalize Text.splitOn ':' (String.intercalate ":" kept) = pieces at hget
  obtain ⟨hstart, hlength, hfile, _⟩ := hfields
  have start_eq : (pieces[0]?.bind (Text.unsigned? 10 ·.toList)).getD last.start = e.start :=
    FieldText.getD_read (by decide) (Text.unsigned?_decimal hrange.start_lt)
      (by rwa [hget 0 (by omega)])
  have length_eq : (pieces[1]?.bind (Text.unsigned? 10 ·.toList)).getD last.length = e.length :=
    FieldText.getD_read (by decide) (Text.unsigned?_decimal hrange.length_lt)
      (by rwa [hget 1 (by omega)])
  have file_eq : (pieces[2]?.bind (Text.signed? ·.toList)).getD last.file = e.file :=
    FieldText.getD_read (by decide) (Text.signed?_signedDecimal hrange.le_file hrange.file_lt)
      (by rwa [hget 2 (by omega)])
  simp only [start_eq, length_eq, file_eq]

/-! ### Whole maps -/

theorem entries_of_encodes (hrange : ∀ e ∈ spans, e.InRange) (h : Encodes last spans texts) :
    entries last texts = spans := by
  induction h with
  | nil => rfl
  | cons hentry _ ih =>
    rw [entries, entry_of_entryText (hrange _ (by simp)) hentry,
      ih fun e he => hrange e (by simp [he])]

theorem Encodes.semicolon_notMem (h : Encodes last spans texts) :
    ∀ text ∈ texts, ';' ∉ text.toList := by
  induction h with
  | nil => simp
  | cons hentry _ ih =>
    intro text htext
    obtain rfl | htext := List.mem_cons.1 htext
    · exact hentry.semicolon_notMem
    · exact ih text htext

/-- However a source map was written, decoding gives back its entries. The one text that does not
tell them is the empty one. -/
theorem decode_intercalate_iff (spans : List Span) (texts : List String) (hne : spans ≠ [])
    (hrange : ∀ e ∈ spans, e.InRange) (h : Encodes initial spans texts) :
    decode (String.intercalate ";" texts) = spans ↔ String.intercalate ";" texts ≠ "" := by
  have htexts : texts ≠ [] := by
    cases h with
    | nil => exact absurd rfl hne
    | cons => simp
  unfold decode
  constructor
  · intro hdecode hempty
    rw [hempty] at hdecode
    exact hne hdecode.symm
  · intro hnonempty
    rw [if_neg (by simpa using hnonempty),
      Text.splitOn_intercalate_of_notMem rfl htexts h.semicolon_notMem,
      entries_of_encodes hrange h]

/-- Four entries: one with a field for jumps, one that repeats all, one with a new length and no
file, and one with a file only and a field of surplus colons. -/
theorem decode_intercalate_iff_mixed :
    decode "5:2:0:i;;:7:-1;::3:o:" = [⟨5, 2, 0⟩, ⟨5, 2, 0⟩, ⟨5, 7, -1⟩, ⟨5, 7, 3⟩] := by
  have hencodes : Encodes initial [⟨5, 2, 0⟩, ⟨5, 2, 0⟩, ⟨5, 7, -1⟩, ⟨5, 7, 3⟩]
      ["5:2:0:i", "", ":7:-1", "::3:o:"] := by
    refine .cons ⟨["5", "2", "0", "i"], 0, ?_, by decide⟩ (.cons ⟨[], 3, ?_, by decide⟩
      (.cons ⟨["", "7", "-1"], 0, ?_, by decide⟩ (.cons ⟨["", "", "3", "o:"], 0, ?_, by decide⟩
        (.nil _))))
    · exact .intro (.inl (by decide)) (.inl (by decide)) (.inl (by decide)) (by decide)
    · exact .intro (.inr (by decide)) (.inr (by decide)) (.inr (by decide)) (by decide)
    · exact .intro (.inr (by decide)) (.inl (by decide)) (.inl (by decide)) (by decide)
    · exact .intro (.inr (by decide)) (.inr (by decide)) (.inl (by decide)) (by decide)
  have hrange : ∀ e ∈ ([⟨5, 2, 0⟩, ⟨5, 2, 0⟩, ⟨5, 7, -1⟩, ⟨5, 7, 3⟩] : List Span), e.InRange := by
    intro e he
    simp only [List.mem_cons, List.not_mem_nil, or_false] at he
    obtain rfl | rfl | rfl | rfl := he <;>
      exact ⟨by decide, by decide, by decide, by decide⟩
  exact (decode_intercalate_iff _ ["5:2:0:i", "", ":7:-1", "::3:o:"] (by simp) hrange
    hencodes).2 (by decide)

end SourceMap
end CodeAtlas
