import CodeAtlas.Proofs.Outcome
import CodeAtlas.Proofs.SourceMap

/-! Ranges survive being written. A text that is read as a range means the same range as the only
entry of a source map, although a source map's reader takes over values where this one refuses. -/
namespace CodeAtlas.Span

variable {s : Span} {text : String}

/-- A text is a range just if its first three fields are machine numbers, the last of them signed. -/
theorem parse_eq_ok_iff : parse text = .ok s ↔
    ∃ start length file others, Text.splitOn ':' text = start :: length :: file :: others ∧
      Text.unsigned? 10 start.toList = some s.start ∧
      Text.unsigned? 10 length.toList = some s.length ∧
      Text.signed? file.toList = some s.file := by
  unfold parse
  split
  next start length file others hfields =>
    simp only [bind_eq_ok, orError_eq_ok, hfields, List.cons.injEq]
    constructor
    · rintro ⟨a, ha, b, hb, c, hc, hs⟩
      cases hs
      exact ⟨start, length, file, others, ⟨rfl, rfl, rfl, rfl⟩, ha, hb, hc⟩
    · rintro ⟨_, _, _, _, ⟨rfl, rfl, rfl, rfl⟩, ha, hb, hc⟩
      exact ⟨s.start, ha, s.length, hb, s.file, hc, rfl⟩
  next hfew =>
    constructor
    · intro h
      cases h
    · rintro ⟨start, length, file, others, hfields, _⟩
      exact (hfew start length file others hfields).elim

theorem inRange_of_parse (h : parse text = .ok s) : s.InRange := by
  obtain ⟨start, length, file, others, _, hstart, hlength, hfile⟩ := parse_eq_ok_iff.1 h
  obtain ⟨hlow, hhigh⟩ := Text.signed?_range hfile
  exact ⟨Text.lt_of_unsigned? hstart, Text.lt_of_unsigned? hlength, hlow, hhigh⟩

theorem splitOn_render (s : Span) :
    Text.splitOn ':' s.render =
      [Text.decimal s.start, Text.decimal s.length, Text.signedDecimal s.file] := by
  have hdecimal : ∀ n, Text.splitOn ':' (Text.decimal n) = [Text.decimal n] := by
    intro n
    exact Text.splitOn_of_notMem (SourceMap.notMem_decimal n (by decide))
  have hfile : Text.splitOn ':' (Text.signedDecimal s.file) = [Text.signedDecimal s.file] :=
    Text.splitOn_of_notMem (SourceMap.notMem_signedDecimal s.file (by decide) (by decide))
  rw [render, Text.splitOn_append rfl, Text.splitOn_append rfl, hdecimal, hdecimal, hfile]
  rfl

theorem parse_render (h : s.InRange) : parse s.render = .ok s := by
  rw [parse_eq_ok_iff]
  exact ⟨_, _, _, _, splitOn_render s, Text.unsigned?_decimal h.start_lt,
    Text.unsigned?_decimal h.length_lt, Text.signed?_signedDecimal h.le_file h.file_lt⟩

/-- An entry that is a range takes over nothing from the one before it. -/
theorem entry_of_parse (h : parse text = .ok s) (last : Span) : SourceMap.entry last text = s := by
  obtain ⟨start, length, file, others, hfields, hstart, hlength, hfile⟩ := parse_eq_ok_iff.1 h
  simp [SourceMap.entry, hfields, hstart, hlength, hfile]

theorem decode_of_parse (hsingle : ';' ∉ text.toList) (h : parse text = .ok s) :
    SourceMap.decode text = [s] := by
  have hne : text ≠ "" := by
    rintro rfl
    cases h
  simp [SourceMap.decode, hne, Text.splitOn_of_notMem hsingle, SourceMap.entries, entry_of_parse h]

/-- Just the ranges of machine numbers are read back from their text, and whatever text is read as a
range is, without a separator of entries, the source map with that one entry. -/
theorem readers_agree (s : Span) :
    (parse s.render = .ok s ↔ s.InRange) ∧
      ∀ text : String, ';' ∉ text.toList → parse text = .ok s →
        s.InRange ∧ SourceMap.decode text = [s] := by
  refine ⟨⟨inRange_of_parse, parse_render⟩, ?_⟩
  intro text hsingle h
  exact ⟨inRange_of_parse h, decode_of_parse hsingle h⟩

/-- The outermost numbers, written with a sign, with zeros in front and with fields to spare. -/
theorem readers_agree_outermost :
    parse "18446744073709551615:0:-9223372036854775808" =
        .ok ⟨18446744073709551615, 0, -9223372036854775808⟩ ∧
      SourceMap.decode "+18446744073709551615:00:-9223372036854775808:i:1" =
        [⟨18446744073709551615, 0, -9223372036854775808⟩] := by
  obtain ⟨hrender, hdecode⟩ :=
    readers_agree ⟨18446744073709551615, 0, -9223372036854775808⟩
  refine ⟨?_, (hdecode "+18446744073709551615:00:-9223372036854775808:i:1" ?_ ?_).2⟩
  · exact hrender.2 ⟨by decide, by decide, by decide, by decide⟩
  · decide
  · decide +kernel

end CodeAtlas.Span
