import CodeAtlas.Proofs.Text.Utf8
import CodeAtlas.Source.Excerpt
import Mathlib.Algebra.Group.Nat.Defs

/-! A range of bytes in a text: when there is an excerpt, and what it tells of the range. Offsets count
bytes while texts are made of characters, so a range may begin or end inside of a character. -/
namespace CodeAtlas.Excerpt

open Text

variable {source : String} {start length : Nat} {e : Excerpt}

/-- The bytes of a range. -/
def slice (source : String) (start length : Nat) : List UInt8 :=
  ((bytes source).drop start).take length

/-- The lines of a range: one more than the line feeds before each of its ends. -/
def linesOf (source : String) (start length : Nat) : Lines :=
  (1 + lineFeeds ((bytes source).take start), 1 + lineFeeds ((bytes source).take (start + length)))

theorem lineFeeds_take_add (source : String) (start length : Nat) :
    lineFeeds ((bytes source).take (start + length)) =
      lineFeeds ((bytes source).take start) + lineFeeds (slice source start length) := by
  rw [List.take_add, lineFeeds_append, slice]

theorem locate?_eq (source : String) (start length : Nat) :
    locate? source start length =
      if start + length < wordBound ∧ start + length ≤ source.utf8ByteSize then
        some ⟨linesOf source start length, String.ofList (decodeLossy (slice source start length))⟩
      else none := by
  rw [linesOf, lineFeeds_take_add, ← length_bytes, Nat.add_comm 1, ← Nat.add_assoc, Nat.add_comm 1]
  rfl

theorem locate?_eq_some : locate? source start length = some e ↔
    (start + length < wordBound ∧ start + length ≤ source.utf8ByteSize) ∧
      e.lines = linesOf source start length ∧
      e.text = String.ofList (decodeLossy (slice source start length)) := by
  rw [locate?_eq]
  obtain ⟨lines, text⟩ := e
  split_ifs with h
  · simp only [h, true_and, Option.some.injEq, Excerpt.mk.injEq, and_self, eq_comm]
  · simp [h]

/-- An excerpt between two boundaries is the part of the text that lies there. -/
theorem exists_cut (h : locate? source start length = some e) (hstart : IsBoundary source start)
    (hstop : IsBoundary source (start + length)) :
    ∃ before after, source.toList = before ++ e.text.toList ++ after ∧
      slice source start length = bytes e.text ∧
      e.lines = (1 + before.count '\n', 1 + (before ++ e.text.toList).count '\n') := by
  obtain ⟨before, inside, after, hsource, hbefore, hinside⟩ := hstart.exists_cut hstop
  obtain ⟨_, hlines, htext⟩ := locate?_eq_some.1 h
  have hbytes : bytes source = encode before ++ (encode inside ++ encode after) := by
    rw [bytes, hsource, encode_append, encode_append, List.append_assoc]
  have hslice : slice source start length = encode inside := by
    rw [slice, hbytes, List.drop_left' hbefore, List.take_left' hinside]
  have hinside : e.text.toList = inside := by
    rw [htext, hslice, decodeLossy_encode, String.toList_ofList]
  refine ⟨before, after, by rw [hinside, hsource], by rw [hslice, bytes, hinside], ?_⟩
  rw [hlines, linesOf, lineFeeds_take_add, hslice, hbytes, List.take_left' hbefore, lineFeeds_encode,
    lineFeeds_encode, hinside, List.count_append]

/-- What the excerpt of a range tells of it. No line feed is lost where a character is cut, and where
none is cut the text is that of the range. -/
structure Accurate (source : String) (start length : Nat) (e : Excerpt) : Prop where
  lines : e.lines = linesOf source start length
  lineFeeds : e.lines.1 + e.text.toList.count '\n' = e.lines.2
  text : IsBoundary source start → IsBoundary source (start + length) →
    bytes e.text = slice source start length ∧ (bytes e.text).length = length

theorem accurate_of_located (h : locate? source start length = some e) :
    Accurate source start length e := by
  obtain ⟨⟨_, hlength⟩, hlines, htext⟩ := locate?_eq_some.1 h
  refine ⟨hlines, ?_, fun hstart hstop => ?_⟩
  · rw [htext, String.toList_ofList, count_decodeLossy, hlines, linesOf, lineFeeds_take_add,
      Nat.add_assoc]
  · obtain ⟨before, after, _, hslice, _⟩ := exists_cut h hstart hstop
    refine ⟨hslice.symm, ?_⟩
    rw [← hslice, slice, List.length_take, List.length_drop, length_bytes]
    omega

/-- A range has an excerpt just when it ends in the text, at an offset that fits a word. The excerpt
is accurate wherever its ends lie. -/
theorem locate?_accurate (source : String) (start length : Nat) :
    ((∃ e, locate? source start length = some e) ↔
      start + length ≤ 2 ^ 64 - 1 ∧ start + length ≤ source.utf8ByteSize) ∧
      ∀ e, locate? source start length = some e → Accurate source start length e := by
  refine ⟨?_, fun e h => accurate_of_located h⟩
  have hword : start + length < wordBound ↔ start + length ≤ 2 ^ 64 - 1 := by
    unfold wordBound
    omega
  rw [← hword]
  constructor
  · rintro ⟨e, h⟩
    exact (locate?_eq_some.1 h).1
  · intro h
    exact ⟨_, (locate?_eq ..).trans (if_pos h)⟩

/-- Two letters of two bytes each around a line feed, cut through both letters and beside them. -/
theorem locate?_accurate_letters :
    locate? "é\nß" 1 3 = some ⟨(1, 2), "�\n�"⟩ ∧ Accurate "é\nß" 1 3 ⟨(1, 2), "�\n�"⟩ ∧
      locate? "é\nß" 2 3 = some ⟨(1, 2), "\nß"⟩ ∧ Accurate "é\nß" 2 3 ⟨(1, 2), "\nß"⟩ ∧
      IsBoundary "é\nß" 2 ∧ IsBoundary "é\nß" 5 ∧ bytes "\nß" = [0x0a, 0xc3, 0x9f] := by
  have hcut : locate? "é\nß" 1 3 = some ⟨(1, 2), "�\n�"⟩ := by decide
  have hwhole : locate? "é\nß" 2 3 = some ⟨(1, 2), "\nß"⟩ := by decide
  exact ⟨hcut, (locate?_accurate _ _ _).2 _ hcut, hwhole, (locate?_accurate _ _ _).2 _ hwhole,
    by decide, by decide, by decide⟩

end CodeAtlas.Excerpt
