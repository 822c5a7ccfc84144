import CodeAtlas.Combined.Artifact
import CodeAtlas.Proofs.Outcome
import CodeAtlas.Proofs.Source.Excerpt
import CodeAtlas.Proofs.Text.Reading
import CodeAtlas.Standard.Artifact

/-! The lines of a file around an excerpt. An excerpt counts its lines from one and includes the last,
while lines are asked for from zero on and up to one that is left out. -/
namespace CodeAtlas

open Text

variable {sep : Char} {cs : List Char} {text : String} {start length : Nat} {e : Excerpt}

/-! ### Pieces before and after a place -/

theorem length_splitOn (sep : Char) (cs : List Char) :
    (cs.splitOn sep).length = cs.count sep + 1 := by
  induction cs with
  | nil => rfl
  | cons c cs ih =>
    rw [List.splitOn_cons_eq_if_modifyHead, List.count_cons]
    split_ifs <;> simp [ih]

/-- The pieces of what stands before a place, but for the last one, which may go on after it. -/
theorem exists_splitOn_append (sep : Char) (cs : List Char) :
    ∃ whole last, sep ∉ last ∧ whole.length = cs.count sep ∧
      ∀ rest, (cs ++ rest).splitOn sep = whole ++ (last ++ rest).splitOn sep := by
  by_cases h : sep ∈ cs
  · obtain ⟨last, before, hcs, hlast⟩ := List.eq_append_cons_of_mem (List.mem_reverse.2 h)
    obtain rfl : cs = before.reverse ++ sep :: last.reverse := by
      rw [← List.reverse_reverse cs, hcs]
      simp
    have hlast : sep ∉ last.reverse := by simpa using hlast
    refine ⟨before.reverse.splitOn sep, last.reverse, hlast, ?_, fun rest => ?_⟩
    · rw [length_splitOn, List.count_append, List.count_cons_self,
        List.count_eq_zero_of_not_mem hlast]
    · rw [List.append_assoc, List.cons_append, List.splitOn_append_cons_self]
  · exact ⟨[], cs, h, (List.count_eq_zero_of_not_mem h).symm, fun rest => rfl⟩

/-- The pieces of what stands after a place, but for the first one, which may begin before it. -/
theorem exists_append_splitOn (sep : Char) (cs : List Char) :
    ∃ first whole, sep ∉ first ∧
      ∀ before, (before ++ cs).splitOn sep = (before ++ first).splitOn sep ++ whole := by
  by_cases h : sep ∈ cs
  · obtain ⟨first, after, rfl, hfirst⟩ := List.eq_append_cons_of_mem h
    refine ⟨first, after.splitOn sep, hfirst, fun before => ?_⟩
    rw [← List.append_assoc, List.splitOn_append_cons_self]
  · exact ⟨cs, [], h, fun before => (List.append_nil _).symm⟩

/-- Pieces of lines around a part of a text add no line to those of the part. -/
theorem length_splitOn_between {p q : List Char} (hp : sep ∉ p) (hq : sep ∉ q) (inside : List Char) :
    ((p ++ inside ++ q).splitOn sep).length = inside.count sep + 1 := by
  rw [length_splitOn, List.count_append, List.count_append, List.count_eq_zero_of_not_mem hp,
    List.count_eq_zero_of_not_mem hq, Nat.zero_add, Nat.add_zero]

/-- The lines that a part of a text touches, which begin before it and end after it. -/
theorem exists_lineSlice {before inside after : List Char}
    (htext : text.toList = before ++ inside ++ after) :
    ∃ p q, '\n' ∉ p ∧ '\n' ∉ q ∧
      lineSlice text (before.count '\n') ((before ++ inside).count '\n' + 1) =
        ((p ++ inside ++ q).splitOn '\n').map String.ofList := by
  obtain ⟨above, p, hp, habove, hsplit⟩ := exists_splitOn_append '\n' before
  obtain ⟨q, below, hq, hsplit'⟩ := exists_append_splitOn '\n' after
  refine ⟨p, q, hp, hq, ?_⟩
  have hlines : text.toList.splitOn '\n' = above ++ ((p ++ inside ++ q).splitOn '\n' ++ below) := by
    rw [htext, List.append_assoc, hsplit, ← List.append_assoc, hsplit']
  rw [lineSlice, splitOn_eq, ← List.map_take, ← List.map_drop, hlines, List.count_append,
    Nat.add_assoc, ← habove, List.take_length_add_append, List.drop_left,
    ← length_splitOn_between hp hq, List.take_left]

theorem intercalate_splitOn (cs : List Char) :
    "\n".intercalate ((cs.splitOn '\n').map String.ofList) = String.ofList cs := by
  apply String.toList_injective
  have hid : String.toList ∘ String.ofList = id := funext fun _ => String.toList_ofList
  rw [String.toList_intercalate, List.map_map, hid, List.map_id]
  exact (List.intercalate_splitOn '\n').trans String.toList_ofList.symm

/-! ### Excerpts and lines -/

/-- Lines that an excerpt stands in: as many as it spans, and nothing but it and parts of lines. -/
structure Excerpt.StandsIn (e : Excerpt) (lines : List String) : Prop where
  length : lines.length = e.lines.2 - e.lines.1 + 1
  joined : ∃ p q : String, '\n' ∉ p.toList ∧ '\n' ∉ q.toList ∧
    "\n".intercalate lines = p ++ e.text ++ q

theorem Excerpt.standsIn_lineSlice (h : locate? text start length = some e)
    (hstart : IsBoundary text start) (hstop : IsBoundary text (start + length)) :
    e.StandsIn (lineSlice text (e.lines.1 - 1) e.lines.2) := by
  obtain ⟨before, after, htext, _, hlines⟩ := exists_cut h hstart hstop
  obtain ⟨p, q, hp, hq, hslice⟩ := exists_lineSlice htext
  have hslice : lineSlice text (e.lines.1 - 1) e.lines.2 =
      ((p ++ e.text.toList ++ q).splitOn '\n').map String.ofList := by
    rw [← hslice, hlines]
    simp only [Nat.add_comm 1, Nat.add_sub_cancel]
  rw [hslice]
  refine ⟨?_, String.ofList p, String.ofList q, by simpa using hp, by simpa using hq, ?_⟩
  · rw [List.length_map, length_splitOn_between hp hq, hlines, List.count_append]
    omega
  · rw [intercalate_splitOn, String.ofList_append, String.ofList_append, String.ofList_toList]

/-- The text that lines of a contract's file are taken from. -/
def Combined.Artifact.fileText? (a : Artifact) (qualified : String) : Option String :=
  ((a.fileIndex? qualified).bind a.compilation.catalog.text?).or a.compilation.catalog.fallback

theorem Combined.Artifact.sourceLines_eq {a : Artifact} {name qualified : String}
    {o : ContractOutput} (hentry : a.entry name = .ok (qualified, o))
    (htext : a.fileText? qualified = some text) (start stop : Nat) :
    a.sourceLines name start stop = .ok (lineSlice text start stop) := by
  refine bind_eq_ok.2 ⟨_, hentry, bind_eq_ok.2 ⟨text, ?_, rfl⟩⟩
  exact orError_eq_ok.2 htext

/-- The text that lines of a file are taken from. -/
def Standard.Artifact.fileText? (a : Artifact) (file : String) : Option String :=
  (a.fileIndex? file).bind a.compilation.catalog.text?

theorem Standard.Artifact.sourceLines_eq {a : Artifact} {name : String} {o : Occurrence}
    (hfirst : a.first name = .ok o) (htext : a.fileText? o.file = some text) (start stop : Nat) :
    a.sourceLines name start stop = .ok (lineSlice text start stop) := by
  refine bind_eq_ok.2 ⟨o, hfirst, bind_eq_ok.2 ⟨text, ?_, rfl⟩⟩
  exact orError_eq_ok.2 htext

/-- The lines of an excerpt, asked for of a contract in the file that it was cut from, are those that
the excerpt stands in. Both kinds of output answer so, whatever the file. -/
theorem sourceLines_of_excerpt (text : String) (start length : Nat) (e : Excerpt)
    (h : Excerpt.locate? text start length = some e) (hstart : IsBoundary text start)
    (hstop : IsBoundary text (start + length)) :
    (∀ (a : Combined.Artifact) (name qualified : String) (o : Combined.ContractOutput),
      a.entry name = .ok (qualified, o) → a.fileText? qualified = some text →
      ∃ lines, a.sourceLines name (e.lines.1 - 1) e.lines.2 = .ok lines ∧ e.StandsIn lines) ∧
    ∀ (a : Standard.Artifact) (name : String) (o : Standard.Occurrence),
      a.first name = .ok o → a.fileText? o.file = some text →
      ∃ lines, a.sourceLines name (e.lines.1 - 1) e.lines.2 = .ok lines ∧ e.StandsIn lines := by
  have hstands := Excerpt.standsIn_lineSlice h hstart hstop
  constructor
  · intro a name qualified o hentry htext
    exact ⟨_, a.sourceLines_eq hentry htext _ _, hstands⟩
  · intro a name o hfirst htext
    exact ⟨_, a.sourceLines_eq hfirst htext _ _, hstands⟩

/-- A file of two lines, the first with a letter of two bytes. -/
def twoLines : String := "é\nab"

/-- The end of its first line with the start of the second. -/
def lineBreak : Excerpt := ⟨(1, 2), "\na"⟩

/-- The tree of the file. -/
def twoLinesTree : Json :=
  .obj [("absolutePath", .str "a.sol"), ("nodeType", .str "SourceUnit"), ("nodes", .arr []),
    ("src", .str "0:5:0")]

/-- A contract of the file in combined output. -/
def twoLinesCombined : Json := .obj [("a.sol:A", .obj [("ast", twoLinesTree)])]

/-- A contract of the file in standard output. -/
def twoLinesStandard : Json :=
  .obj [("sources", .obj [("a.sol", .obj [("ast", twoLinesTree), ("id", .int 0)])]),
    ("contracts", .obj [("a.sol", .obj [("A", .obj [])])])]

theorem sourceLines_of_excerpt_two_lines :
    Excerpt.locate? twoLines 2 2 = some lineBreak ∧ IsBoundary twoLines 2 ∧ IsBoundary twoLines 4 ∧
      lineBreak.StandsIn ["é", "ab"] ∧
      (∃ a q o, Combined.Artifact.load .ascending {} (.memory [("a.sol", twoLines)]) "0.8.0" none
          twoLinesCombined = .ok a ∧
        a.entry "A" = .ok (q, o) ∧ a.fileText? q = some twoLines ∧
        a.sourceLines "A" 0 2 = .ok ["é", "ab"]) ∧
      ∃ a o, Standard.Artifact.load .ascending (.memory [("a.sol", twoLines)]) "0.8.0" (.obj [])
          twoLinesStandard = .ok a ∧
        a.first "A" = .ok o ∧ a.fileText? o.file = some twoLines ∧
        a.sourceLines "A" 0 2 = .ok ["é", "ab"] := by
  have hlocated : Excerpt.locate? twoLines 2 2 = some lineBreak := by decide
  have hstart : IsBoundary twoLines 2 := by decide
  have hstop : IsBoundary twoLines 4 := by decide
  obtain ⟨hcombined, hstandard⟩ := sourceLines_of_excerpt twoLines 2 2 _ hlocated hstart hstop
  have hslice : lineSlice twoLines 0 2 = ["é", "ab"] := by decide
  obtain ⟨a, ha, hany⟩ : ∃ a, Combined.Artifact.load .ascending {} (.memory [("a.sol", twoLines)])
        "0.8.0" none twoLinesCombined = .ok a ∧
      ((a.entry "A").toOption.any fun e => a.fileText? e.1 = some twoLines) = true :=
    exists_of_any_ok (by decide +kernel)
  obtain ⟨⟨q, o⟩, ho, htext⟩ := exists_of_any_ok hany
  obtain ⟨b, hb, hany⟩ : ∃ b, Standard.Artifact.load .ascending (.memory [("a.sol", twoLines)])
        "0.8.0" (.obj []) twoLinesStandard = .ok b ∧
      ((b.first "A").toOption.any fun o => b.fileText? o.file = some twoLines) = true :=
    exists_of_any_ok (by decide +kernel)
  obtain ⟨p, hp, htext'⟩ := exists_of_any_ok hany
  have hlines := a.sourceLines_eq ho htext 0 2
  have hlines' := b.sourceLines_eq hp htext' 0 2
  rw [hslice] at hlines hlines'
  obtain ⟨lines, hsource, hstands⟩ := hcombined a "A" q o ho htext
  cases hlines.symm.trans hsource
  obtain ⟨lines, hsource, _⟩ := hstandard b "A" p hp htext'
  cases hlines'.symm.trans hsource
  exact ⟨hlocated, hstart, hstop, hstands, ⟨a, q, o, ha, ho, htext, hlines⟩, b, p, hb, hp, htext',
    hlines'⟩

end CodeAtlas
