import CodeAtlas.Artifact.Fragment
import CodeAtlas.Proofs.Assembly.Table

/-! The instruction whose piece of source is given for a program counter: the one that stands there,
or the nearest one before it with a file that is known. -/
namespace CodeAtlas.Section

open Assembly

variable {s : Section} {catalog : Catalog} {pc q : Nat} {item : Item} {file : Int}
  {record : PcRecord} {found : Item × Int} {f : Fragment}

/-! ### Files of instructions -/

/-- The file of an instruction: the one that its item names, or where that is missing or negative, the
one in the source map at the instruction's number. -/
inductive Annotated (s : Section) (record : PcRecord) (item : Item) (file : Int) : Prop where
  | own (hsource : item.source = some file) (hfile : 0 ≤ file)
  | mapped (hsource : ∀ own, item.source = some own → own < 0)
      (hmap : ∃ span, s.map[record.ordinal]? = some span ∧ span.file = file) (hfile : 0 ≤ file)

theorem file?_eq_some_iff : s.file? record item = some file ↔ s.Annotated record item file := by
  unfold file?
  constructor
  · intro h
    rcases Option.or_eq_some_iff.1 h with hown | ⟨hnone, hmapped⟩
    · obtain ⟨hsource, hfile⟩ := Option.filter_eq_some_iff.1 hown
      exact .own hsource (by simpa using hfile)
    · obtain ⟨hmap, hfile⟩ := Option.filter_eq_some_iff.1 hmapped
      refine .mapped ?_ (Option.map_eq_some_iff.1 hmap) (by simpa using hfile)
      intro own hsource
      simpa [hsource] using hnone
  · rintro (⟨hsource, hfile⟩ | ⟨hsource, ⟨span, hspan, rfl⟩, hfile⟩)
    · simp [hsource, hfile]
    · have hnone : item.source.filter (0 ≤ ·) = none := by
        cases h : item.source with
        | none => rfl
        | some own => simp [hsource own h]
      simp [hnone, hspan, hfile]

/-- The instruction at a program counter. Its file may be the one to assume where it has none. -/
def Exact (s : Section) (pc : Nat) (item : Item) (file : Int) : Prop :=
  ∃ record, (pc, record) ∈ s.table.records ∧ s.table.code[record.index]? = some item ∧
    (s.Annotated record item file ∨
      (∀ other, ¬s.Annotated record item other) ∧ s.defaultFile = some file)

theorem Exact.mem_code (h : s.Exact pc item file) : item ∈ s.table.code := by
  obtain ⟨record, _, hitem, _⟩ := h
  exact List.mem_of_getElem? hitem

/-- An instruction whose file is known: the catalog lists it, or it counts as generated. -/
structure Usable (s : Section) (catalog : Catalog) (pc : Nat) (item : Item) (file : Int) : Prop where
  annotated : ∃ record, (pc, record) ∈ s.table.records ∧
    s.table.code[record.index]? = some item ∧ s.Annotated record item file
  known : file < catalog.files.length ∨ s.isGenerated catalog file = true

theorem Usable.exact (h : s.Usable catalog pc item file) : s.Exact pc item file := by
  obtain ⟨record, hrecord, hitem, hfile⟩ := h.annotated
  exact ⟨record, hrecord, hitem, .inl hfile⟩

/-- The last instruction at or before a program counter whose file is known. -/
structure Nearest (s : Section) (catalog : Catalog) (pc q : Nat) (item : Item) (file : Int) :
    Prop where
  usable : s.Usable catalog q item file
  le : q ≤ pc
  last : ∀ r item file, s.Usable catalog r item file → r ≤ pc → r ≤ q

/-! ### The instruction itself -/

theorem file?_or_default_iff :
    (s.file? record item).or s.defaultFile = some file ↔
      s.Annotated record item file ∨
        (∀ other, ¬s.Annotated record item other) ∧ s.defaultFile = some file := by
  simp only [Option.or_eq_some_iff, Option.eq_none_iff_forall_ne_some, ne_eq, file?_eq_some_iff]

theorem exact_iff (h : s.table.pcs.Pairwise (· < ·)) :
    s.Exact pc item file ↔
      ∃ record, s.table.record? pc = some record ∧ s.table.code[record.index]? = some item ∧
        (s.file? record item).or s.defaultFile = some file := by
  simp only [Exact, PcTable.record?_eq_some_iff h, file?_or_default_iff]

theorem resolve?_of_exact (h : s.table.pcs.Pairwise (· < ·)) (hexact : s.Exact pc item file) :
    s.resolve? catalog pc = s.fragment? catalog pc item file := by
  obtain ⟨record, hrecord, hitem, hfile⟩ := (exact_iff h).1 hexact
  simp [resolve?, hrecord, hitem, hfile]

theorem exists_exact (h : s.table.pcs.Pairwise (· < ·)) (hf : s.resolve? catalog pc = some f) :
    ∃ item file, s.Exact pc item file := by
  obtain ⟨record, hrecord, hf⟩ := Option.bind_eq_some_iff.1 hf
  obtain ⟨item, hitem, hf⟩ := Option.bind_eq_some_iff.1 hf
  obtain ⟨file, hfile, _⟩ := Option.bind_eq_some_iff.1 hf
  exact ⟨item, file, (exact_iff h).2 ⟨record, hrecord, hitem, hfile⟩⟩

/-! ### The walk back -/

/-- What the walk looks for at a record. -/
def usable? (s : Section) (catalog : Catalog) (e : Nat × PcRecord) : Option (Item × Int) :=
  (s.annotated? e.2).filter fun (_, file) => s.isKnown catalog file

theorem usable?_eq_some_iff {e : Nat × PcRecord} :
    s.usable? catalog e = some (item, file) ↔
      s.table.code[e.2.index]? = some item ∧ s.Annotated e.2 item file ∧
        (file < catalog.files.length ∨ s.isGenerated catalog file = true) := by
  simp only [usable?, annotated?, isKnown, Option.filter_eq_some_iff, Option.bind_eq_bind,
    Option.bind_eq_some_iff, file?_eq_some_iff, Option.pure_def, Option.some.injEq, Prod.mk.injEq,
    Bool.or_eq_true, decide_eq_true_eq]
  constructor
  · rintro ⟨⟨_, hitem, _, hfile, rfl, rfl⟩, hknown⟩
    exact ⟨hitem, hfile, hknown⟩
  · rintro ⟨hitem, hfile, hknown⟩
    exact ⟨⟨item, hitem, file, hfile, rfl, rfl⟩, hknown⟩

theorem usable_iff :
    s.Usable catalog q item file ↔
      ∃ record, (q, record) ∈ s.table.records ∧ s.usable? catalog (q, record) = some (item, file) := by
  simp only [usable?_eq_some_iff]
  constructor
  · rintro ⟨⟨record, hrecord, hitem, hfile⟩, hknown⟩
    exact ⟨record, hrecord, hitem, hfile, hknown⟩
  · rintro ⟨record, hrecord, hitem, hfile, hknown⟩
    exact ⟨⟨record, hrecord, hitem, hfile⟩, hknown⟩

theorem nearest?_eq (s : Section) (catalog : Catalog) (pc : Nat) :
    s.nearest? catalog pc = (s.table.record? pc).bind fun _ =>
      ((s.table.upTo pc).findSome? (s.usable? catalog)).bind fun (item, file) =>
        s.fragment? catalog pc item file := rfl

section Ascending

variable (h : s.table.pcs.Pairwise (· < ·))
include h

/-- An instruction has one item and one file. -/
theorem Usable.unique {item' : Item} {file' : Int} (hu : s.Usable catalog q item file)
    (hu' : s.Usable catalog q item' file') : item = item' ∧ file = file' := by
  obtain ⟨record, hrecord, hfound⟩ := usable_iff.1 hu
  obtain ⟨record', hrecord', hfound'⟩ := usable_iff.1 hu'
  cases unique_of_nodup (h.imp Nat.ne_of_lt) _ _ hrecord hrecord'
  cases hfound.symm.trans hfound'
  exact ⟨rfl, rfl⟩

theorem exists_nearest (hfound : (s.table.upTo pc).findSome? (s.usable? catalog) = some found) :
    ∃ q, s.Nearest catalog pc q found.1 found.2 := by
  have hviews := PcTable.viewsAgree h
  have hsorted : (s.table.upTo pc).Pairwise
      fun a b => OrderDual.toDual a.1 < OrderDual.toDual b.1 := hviews.upTo_descends pc
  obtain ⟨⟨q, record⟩, hmem, hq, hlast⟩ := exists_of_findSome? hsorted hfound
  obtain ⟨hrecord, hle⟩ := (hviews.mem_upTo pc _).1 hmem
  refine ⟨q, usable_iff.2 ⟨record, hrecord, hq⟩, hle, fun r item file hr hrle => ?_⟩
  obtain ⟨record', hrecord', hr⟩ := usable_iff.1 hr
  exact hlast (r, record') ((hviews.mem_upTo pc _).2 ⟨hrecord', hrle⟩) (by simp [hr])

/-- The walk back ends at the nearest instruction whose file is known. -/
theorem findSome?_upTo_iff :
    (s.table.upTo pc).findSome? (s.usable? catalog) = some (item, file) ↔
      ∃ q, s.Nearest catalog pc q item file := by
  refine ⟨exists_nearest h, ?_⟩
  rintro ⟨q, hnearest⟩
  obtain ⟨record, hrecord, hq⟩ := usable_iff.1 hnearest.usable
  have hmem : (q, record) ∈ s.table.upTo pc :=
    ((PcTable.viewsAgree h).mem_upTo pc _).2 ⟨hrecord, hnearest.le⟩
  have hsome : ((s.table.upTo pc).findSome? (s.usable? catalog)).isSome = true :=
    List.findSome?_isSome_iff.2 ⟨_, hmem, by simp [hq]⟩
  obtain ⟨found, hfound⟩ := Option.isSome_iff_exists.1 hsome
  obtain ⟨q', hnearest'⟩ := exists_nearest h hfound
  obtain rfl : q = q' := Nat.le_antisymm
    (hnearest'.last q item file hnearest.usable hnearest.le)
    (hnearest.last q' _ _ hnearest'.usable hnearest'.le)
  obtain ⟨rfl, rfl⟩ := hnearest.usable.unique h hnearest'.usable
  exact hfound

theorem nearest?_of_nearest (hpc : pc ∈ s.table.pcs) (hq : s.Nearest catalog pc q item file) :
    s.nearest? catalog pc = s.fragment? catalog pc item file := by
  obtain ⟨record, hrecord⟩ := PcTable.mem_pcs_iff.1 hpc
  rw [nearest?_eq, hrecord, (findSome?_upTo_iff h).2 ⟨q, hq⟩]
  rfl

theorem exists_nearest_of_nearest? (hf : s.nearest? catalog pc = some f) :
    ∃ item file, pc ∈ s.table.pcs ∧ ∃ q, s.Nearest catalog pc q item file := by
  obtain ⟨record, hrecord, hf⟩ := Option.bind_eq_some_iff.1 hf
  obtain ⟨⟨item, file⟩, hwalk, _⟩ := Option.bind_eq_some_iff.1 hf
  exact ⟨item, file, PcTable.mem_pcs_iff.2 ⟨record, hrecord⟩, (findSome?_upTo_iff h).1 hwalk⟩

end Ascending

/-! ### Nearest fragments -/

/-- A fragment depends on its program counter only in that it reports it. -/
theorem fragment?_report (s : Section) (catalog : Catalog) (pc q : Nat) (item : Item) (file : Int) :
    s.fragment? catalog pc item file =
      (s.fragment? catalog q item file).map fun f => { f with pc } := by
  unfold fragment?
  cases item.range? with
  | none => rfl
  | some range =>
    cases s.textOf? catalog file with
    | none => rfl
    | some found =>
      by_cases hstop : range.2 ≤ (Text.bytes found.1).length <;> simp [hstop]

/-- The nearest fragment of a program counter of the section is that of the last instruction up to
there whose file is known. No other is tried where that one has no fragment. -/
theorem nearest?_extends_resolve? (s : Section) (catalog : Catalog) (pc : Nat)
    (h : s.table.pcs.Pairwise (· < ·)) :
    (pc ∉ s.table.pcs → s.nearest? catalog pc = none) ∧
      (pc ∈ s.table.pcs →
        ((¬∃ q item file, s.Nearest catalog pc q item file) → s.nearest? catalog pc = none) ∧
        ∀ q item file, s.Nearest catalog pc q item file →
          s.nearest? catalog pc =
            (s.fragment? catalog q item file).map (fun f => { f with pc }) ∧
          (q = pc → s.nearest? catalog pc = s.resolve? catalog pc)) := by
  refine ⟨fun hpc => ?_, fun hpc => ⟨fun hnone => ?_, fun q item file hq => ⟨?_, ?_⟩⟩⟩
  · refine Option.eq_none_iff_forall_ne_some.2 fun f hf => ?_
    obtain ⟨_, _, hmem, _⟩ := exists_nearest_of_nearest? h hf
    exact hpc hmem
  · refine Option.eq_none_iff_forall_ne_some.2 fun f hf => ?_
    obtain ⟨item, file, _, q, hq⟩ := exists_nearest_of_nearest? h hf
    exact hnone ⟨q, item, file, hq⟩
  · rw [nearest?_of_nearest h hpc hq, ← fragment?_report]
  · rintro rfl
    rw [nearest?_of_nearest h hpc hq, resolve?_of_exact h hq.usable.exact]

/-- A push with a file, an instruction that denies having one, one whose file nobody knows, and one
whose range ends behind its file. -/
def walked : Section where
  table :=
    { code :=
        [{ name := "PUSH1", start := some 0, stop := some 5, source := some 0 },
          { name := "POP", start := some 0, stop := some 5, source := some (-1) },
          { name := "ADD", start := some 0, stop := some 5, source := some 7 },
          { name := "STOP", start := some 6, stop := some 90, source := some 0 }]
      records :=
        [(0, ⟨0, 0, "PUSH1"⟩), (2, ⟨1, 1, "POP"⟩), (3, ⟨2, 2, "ADD"⟩), (4, ⟨3, 3, "STOP"⟩)]
      jumps := ∅ }
  map := []
  generated := []
  defaultFile := some 0

/-- Its files. -/
def walkedFiles : Catalog := .ofFiles [⟨"A.sol", some "line1\nline2"⟩]

/-- The walk from the third instruction ends at the first. -/
theorem nearest_walked : walked.Nearest walkedFiles 3 0
    { name := "PUSH1", start := some 0, stop := some 5, source := some 0 } 0 := by
  refine ⟨usable_iff.2 ⟨⟨0, 0, "PUSH1"⟩, by decide, by decide⟩, by decide, ?_⟩
  intro r item file hr hle
  obtain ⟨record, hrecord, hfound⟩ := usable_iff.1 hr
  have hnone : ∀ e ∈ walked.table.records, 0 < e.1 → e.1 ≤ 3 →
      walked.usable? walkedFiles e = none := by decide
  by_contra hlt
  rw [hnone _ hrecord (Nat.lt_of_not_le hlt) hle] at hfound
  cases hfound

theorem nearest?_extends_resolve?_walked :
    PcTable.build walked.table.code ["PUSH1", "0x01", "POP", "ADD", "STOP"] = .ok walked.table ∧
      walked.nearest? walkedFiles 1 = none ∧
      walked.nearest? walkedFiles 3 = some ⟨3, "line1", 0, 5, (1, 1), 0, some "A.sol"⟩ ∧
      walked.nearest? walkedFiles 4 = walked.resolve? walkedFiles 4 ∧
      walked.resolve? walkedFiles 4 = none := by
  have hbuild : PcTable.build walked.table.code ["PUSH1", "0x01", "POP", "ADD", "STOP"] =
      .ok walked.table := by
    rfl
  have h := PcTable.pcs_ascend hbuild
  refine ⟨hbuild, ?_, ?_, ?_, by decide⟩
  · exact (nearest?_extends_resolve? walked walkedFiles 1 h).1 (by decide)
  · have hfound := ((nearest?_extends_resolve? walked walkedFiles 3 h).2 (by decide)).2 _ _ _
      nearest_walked
    exact hfound.1.trans (by decide)
  · refine (((nearest?_extends_resolve? walked walkedFiles 4 h).2 (by decide)).2 4 _ _
      ⟨usable_iff.2 ⟨⟨3, 3, "STOP"⟩, by decide, rfl⟩, by decide, fun _ _ _ _ hle => hle⟩).2 rfl

end CodeAtlas.Section
