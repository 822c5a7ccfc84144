import CodeAtlas.Proofs.Artifact.Nearest
import CodeAtlas.Proofs.Assembly.Record
import CodeAtlas.Proofs.Source.Excerpt

/-! Pieces of source as excerpts. A fragment is cut and its lines are counted apart from excerpts, yet
both tell the same of every range. -/
namespace CodeAtlas

open Assembly Text

/-! ### Ranges of items -/

/-- The item says that it stems from a range of bytes. -/
structure Assembly.Item.Covers (i : Item) (start stop : Nat) : Prop where
  starts : i.start = some (start : Int)
  stops : i.stop = some (stop : Int)
  le : start ≤ stop

namespace Assembly.Item

variable {i : Item} {start stop : Nat}

theorem index?_eq_some_iff {n : Int} : index? n = some start ↔ n = start := by
  simp only [index?, Option.ite_none_right_eq_some, Option.some.injEq]
  omega

theorem range?_eq_some_iff : i.range? = some (start, stop) ↔ i.Covers start stop := by
  simp only [range?, Option.bind_eq_bind, Option.bind_eq_some_iff, index?_eq_some_iff,
    exists_eq_right, Option.ite_none_right_eq_some, Option.some.injEq, Prod.mk.injEq]
  constructor
  · rintro ⟨_, hstart, _, hstop, hle, rfl, rfl⟩
    exact ⟨hstart, hstop, hle⟩
  · rintro ⟨hstart, hstop, hle⟩
    exact ⟨start, hstart, stop, hstop, hle, rfl, rfl⟩

theorem Covers.stop_lt (h : i.Covers start stop) (hi : i.InRange) : stop < wordBound := by
  have hlt : (stop : Int) < signedBound := (hi.stop _ h.stops).2
  have hbound : signedBound ≤ wordBound := by decide
  omega

end Assembly.Item

namespace Section

variable {s : Section} {catalog : Catalog} {pc start stop : Nat} {item : Item} {file : Int}
  {text : String} {f : Fragment} {found : Option Fragment}
  {selected : Item → Int → Prop}

/-! ### Cutting -/

/-- The text that fragments in a file are cut from: that of the chosen generated source if the file
counts as generated, else the one in the catalog. -/
inductive CutFrom (s : Section) (catalog : Catalog) (file : Int) (text : String) : Prop where
  | generated (hfile : s.isGenerated catalog file = true) (g : GeneratedSource)
      (hg : GeneratedSource.select? s.generated file = some g) (htext : g.contents = text)
  | listed (hfile : s.isGenerated catalog file = false) (htext : catalog.text? file = some text)

theorem cutFrom_iff : s.CutFrom catalog file text ↔
    ∃ path, s.textOf? catalog file = some (text, path) := by
  unfold textOf?
  constructor
  · rintro (⟨hfile, g, hg, rfl⟩ | ⟨hfile, htext⟩)
    · simp [hfile, hg]
    · simp [hfile, htext]
  · rintro ⟨path, h⟩
    split at h
    next hfile =>
      obtain ⟨g, hg, heq⟩ := Option.map_eq_some_iff.1 h
      exact .generated hfile g hg (congrArg Prod.fst heq)
    next hfile =>
      obtain ⟨t, ht, heq⟩ := Option.map_eq_some_iff.1 h
      cases heq
      exact .listed (by simpa using hfile) ht

/-- Lines counted from the head of a text at both ends of a range are those of its excerpt. -/
theorem locate?_eq_cut (hle : start ≤ stop) (hstop : stop < wordBound) (text : String) :
    Excerpt.locate? text start (stop - start) =
      if stop ≤ (bytes text).length then
        some ⟨(lineAt (bytes text) start, lineAt (bytes text) stop),
          String.ofList (decodeLossy (((bytes text).take stop).drop start))⟩
      else none := by
  rw [Excerpt.locate?_eq, Excerpt.linesOf, Excerpt.slice, Nat.add_sub_cancel' hle, ← length_bytes,
    List.drop_take, lineAt, lineAt, Nat.add_comm 1, Nat.add_comm 1]
  simp only [hstop, true_and]

/-- The fragment of an item is the excerpt of its range. -/
theorem fragment?_eq_excerpt (hi : item.InRange) (hrange : item.Covers start stop)
    {path : Option String} (htext : s.textOf? catalog file = some (text, path)) :
    s.fragment? catalog pc item file =
      (Excerpt.locate? text start (stop - start)).map fun e =>
        ⟨pc, e.text, start, stop, e.lines, file, path⟩ := by
  rw [locate?_eq_cut hrange.le (hrange.stop_lt hi)]
  unfold fragment?
  rw [Item.range?_eq_some_iff.2 hrange, htext]
  by_cases hstop : stop ≤ (bytes text).length <;> simp [hstop]

theorem exists_of_fragment? (h : s.fragment? catalog pc item file = some f) :
    ∃ start stop text path, item.Covers start stop ∧
      s.textOf? catalog file = some (text, path) := by
  obtain ⟨⟨start, stop⟩, hrange, h⟩ := Option.bind_eq_some_iff.1 h
  obtain ⟨⟨text, path⟩, htext, _⟩ := Option.bind_eq_some_iff.1 h
  exact ⟨start, stop, text, path, Item.range?_eq_some_iff.1 hrange, htext⟩

/-! ### Agreement -/

/-- What is found for a selected item is what an excerpt of its range tells. -/
structure Agrees (s : Section) (catalog : Catalog) (selected : Item → Int → Prop)
    (found : Option Fragment) : Prop where
  sound : ∀ f, found = some f → f.start ≤ f.stop ∧
    (∃ item, selected item f.file ∧ item.Covers f.start f.stop) ∧
    ∃ text, s.CutFrom catalog f.file text ∧
      Excerpt.locate? text f.start (f.stop - f.start) = some ⟨f.lines, f.text⟩
  complete : ∀ item file start stop text, selected item file → item.Covers start stop →
    s.CutFrom catalog file text →
    (found = none ↔ Excerpt.locate? text start (stop - start) = none)

/-- Whatever way an item is selected, its fragment agrees with the excerpt of its range. -/
theorem agrees_of_selected (pc : Nat)
    (hsome : ∀ f, found = some f → ∃ item file, selected item file)
    (hselected : ∀ item file, selected item file →
      item.InRange ∧ found = s.fragment? catalog pc item file) :
    s.Agrees catalog selected found where
  sound f hf := by
    obtain ⟨item, file, hitem⟩ := hsome f hf
    obtain ⟨hi, hfound⟩ := hselected item file hitem
    rw [hfound] at hf
    obtain ⟨start, stop, text, path, hrange, htext⟩ := exists_of_fragment? hf
    rw [fragment?_eq_excerpt hi hrange htext] at hf
    obtain ⟨e, he, rfl⟩ := Option.map_eq_some_iff.1 hf
    exact ⟨hrange.le, ⟨item, hitem, hrange⟩, text, cutFrom_iff.2 ⟨path, htext⟩, he⟩
  complete item file start stop text hitem hrange hcut := by
    obtain ⟨hi, hfound⟩ := hselected item file hitem
    obtain ⟨path, htext⟩ := cutFrom_iff.1 hcut
    rw [hfound, fragment?_eq_excerpt hi hrange htext, Option.map_eq_none_iff]

/-- Exact and nearest fragments agree with excerpts, on files and on generated code alike. The table
has each program counter once, and its items have numbers that machines have. -/
theorem fragments_agree (s : Section) (catalog : Catalog) (pc : Nat)
    (h : s.table.pcs.Pairwise (· < ·)) (hcode : ∀ item ∈ s.table.code, item.InRange) :
    s.Agrees catalog (s.Exact pc) (s.resolve? catalog pc) ∧
      s.Agrees catalog (fun item file => pc ∈ s.table.pcs ∧ ∃ q, s.Nearest catalog pc q item file)
        (s.nearest? catalog pc) := by
  constructor
  · refine agrees_of_selected pc (fun f hf => exists_exact h hf) fun item file hitem => ?_
    exact ⟨hcode item hitem.mem_code, resolve?_of_exact h hitem⟩
  · refine agrees_of_selected pc (fun f hf => exists_nearest_of_nearest? h hf) ?_
    rintro item file ⟨hpc, q, hq⟩
    exact ⟨hcode item hq.usable.exact.mem_code, nearest?_of_nearest h hpc hq⟩

/-- An instruction of generated code whose range begins inside of a letter, and one of a file whose
range ends behind it. -/
def mixed : Section where
  table :=
    { code :=
        [{ name := "ADD", start := some 1, stop := some 4, source := some 1 },
          { name := "STOP", start := some 6, stop := some 90, source := some 0 }]
      records := [(0, ⟨0, 0, "ADD"⟩), (1, ⟨1, 1, "STOP"⟩)]
      jumps := ∅ }
  map := []
  generated := [{ id := some 1, contents := "é\nlet" }]
  defaultFile := none

theorem fragments_agree_mixed :
    PcTable.build mixed.table.code ["ADD", "STOP"] = .ok mixed.table ∧
      mixed.resolve? walkedFiles.withYul 0 =
        some ⟨0, "�\nl", 1, 4, (1, 2), 1, some "#utility.yul"⟩ ∧
      (∃ text, mixed.CutFrom walkedFiles.withYul 1 text ∧
        Excerpt.locate? text 1 3 = some ⟨(1, 2), "�\nl"⟩) ∧
      mixed.CutFrom walkedFiles.withYul 0 "line1\nline2" ∧
      Excerpt.locate? "line1\nline2" 6 84 = none ∧
      mixed.resolve? walkedFiles.withYul 1 = none ∧ mixed.nearest? walkedFiles.withYul 1 = none := by
  have hbuild : PcTable.build mixed.table.code ["ADD", "STOP"] = .ok mixed.table := rfl
  have hread : ∀ item ∈ mixed.table.code, Item.ofJson? item.toJson = some item := by decide
  have hagree (pc : Nat) := fragments_agree mixed walkedFiles.withYul pc (PcTable.pcs_ascend hbuild)
    fun item hitem => Item.inRange_of_ofJson? (hread item hitem)
  have hfound : mixed.resolve? walkedFiles.withYul 0 =
      some ⟨0, "�\nl", 1, 4, (1, 2), 1, some "#utility.yul"⟩ := by decide
  have hcut : mixed.CutFrom walkedFiles.withYul 0 "line1\nline2" := .listed (by decide) (by decide)
  have hnone : Excerpt.locate? "line1\nline2" 6 84 = none := by decide
  have hstop : mixed.Usable walkedFiles.withYul 1
      { name := "STOP", start := some 6, stop := some 90, source := some 0 } 0 :=
    usable_iff.2 ⟨⟨1, 1, "STOP"⟩, by decide, by decide⟩
  have hrange : Item.Covers
      { name := "STOP", start := some 6, stop := some 90, source := some 0 } 6 90 :=
    ⟨rfl, rfl, by decide⟩
  refine ⟨hbuild, hfound, ((hagree 0).1.sound _ hfound).2.2, hcut, hnone, ?_, ?_⟩
  · exact ((hagree 1).1.complete _ _ 6 90 _ hstop.exact hrange hcut).2 hnone
  · refine ((hagree 1).2.complete _ _ 6 90 _ ⟨by decide, 1, hstop, by decide, ?_⟩ hrange hcut).2 hnone
    exact fun _ _ _ _ hle => hle

end Section
end CodeAtlas
