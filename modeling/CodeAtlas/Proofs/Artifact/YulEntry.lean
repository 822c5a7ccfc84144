import CodeAtlas.Proofs.Artifact.Fragment

/-! The entry for generated code at the end of a catalog. The index of that entry, the number of
real files and the number of all entries decide together which files count as generated. Adding the
entry moves them, but where there are generated sources only the path of generated code changes. -/
namespace CodeAtlas

open Assembly

namespace Catalog

variable {c : Catalog} {file : Int}

theorem realCount_le (c : Catalog) : c.realCount ≤ c.files.length := Nat.sub_le ..

/-- The entry is not counted as a file. -/
theorem realCount_withYul (c : Catalog) : c.withYul.realCount = c.realCount := by
  unfold withYul
  split
  · rfl
  next h => simp [realCount, h]

section NoEntry

variable (h : c.hasYul = false)
include h

theorem withYul_eq :
    c.withYul = { c with files := c.files ++ [⟨yulPath, none⟩], hasYul := true } := by
  simp [withYul, h]

theorem realCount_eq : c.realCount = c.files.length := by
  simp [realCount, h]

theorem isYul_eq_false (file : Int) : c.isYul file = false := by
  simp [isYul, yulIndex?, h]

theorem isYul_withYul_iff : c.withYul.isYul file = true ↔ file = c.realCount := by
  have hindex : c.withYul.yulIndex? = some c.realCount := by
    rw [yulIndex?, realCount_withYul, withYul_eq h]
    rfl
  simp only [isYul, hindex, Option.any_eq_true, beq_iff_eq, Option.some.injEq,
    Item.index?_eq_some_iff]
  constructor
  · rintro ⟨i, hi, rfl⟩
    exact hi
  · intro hfile
    exact ⟨c.realCount, hfile, rfl⟩

/-- The files keep their indexes. -/
theorem file?_withYul (hfile : file ≠ c.realCount) : c.withYul.file? file = c.file? file := by
  unfold file?
  cases hi : index? file with
  | none => rfl
  | some i =>
    have hne : i ≠ c.files.length := by
      rintro rfl
      rw [Item.index?_eq_some_iff] at hi
      exact hfile (by rw [hi, realCount_eq h])
    rw [withYul_eq h]
    show (c.files ++ [_])[i]? = c.files[i]?
    rcases Nat.lt_or_gt_of_ne hne with hlt | hgt
    · exact List.getElem?_append_left hlt
    · rw [List.getElem?_eq_none (by simp; omega), List.getElem?_eq_none (by omega)]

theorem path?_withYul (hfile : file ≠ c.realCount) : c.withYul.path? file = c.path? file := by
  rw [path?, file?_withYul h hfile, path?]

theorem path?_withYul_realCount : c.withYul.path? c.realCount = some yulPath := by
  have hindex : index? c.realCount = some c.files.length := by
    rw [Item.index?_eq_some_iff, realCount_eq h]
  rw [path?, file?, hindex, withYul_eq h]
  simp

theorem text?_withYul (hfile : file ≠ c.realCount) : c.withYul.text? file = c.text? file := by
  have hyul : c.withYul.isYul file = false := by
    rw [← Bool.not_eq_true, isYul_withYul_iff h]
    exact hfile
  have hfallback : c.withYul.fallback = c.fallback := by rw [withYul_eq h]
  rw [text?, text?, hyul, isYul_eq_false h, file?_withYul h hfile, hfallback]

end NoEntry

end Catalog

theorem rel_bind {α β : Type} {R : β → β → Prop} {x : Option α} {f g : α → Option β}
    (h : ∀ a, Option.Rel R (f a) (g a)) : Option.Rel R (x.bind f) (x.bind g) := by
  cases x with
  | none => exact .none
  | some a => exact h a

/-- The fragments tell the same, but one at an index is listed under the path of generated code. -/
structure Fragment.SameBut (index : Int) (f g : Fragment) : Prop where
  same : g = { f with path := g.path }
  path : f.file ≠ index → g.path = f.path
  listed : f.file = index → g.path = some yulPath

namespace Section

variable {s : Section} {c : Catalog} {file : Int}

/-- With generated sources every file is known: what no catalog lists counts as generated. -/
theorem isKnown_of_generated (hgenerated : s.generated ≠ []) (c : Catalog) (file : Int) :
    s.isKnown c file = true := by
  have hle := c.realCount_le
  have hcount : file < c.files.length ∨ (c.realCount : Int) ≤ file := by omega
  rcases hcount with hlisted | hbeyond
  · simp [isKnown, hlisted]
  · simp [isKnown, isGenerated, hgenerated, hbeyond]

/-- The entry itself counted as generated before it was there, by its index. -/
theorem isGenerated_withYul (h : c.hasYul = false) (file : Int) :
    s.isGenerated c.withYul file = s.isGenerated c file := by
  unfold isGenerated
  rw [c.realCount_withYul, c.isYul_eq_false h]
  by_cases hfile : file = c.realCount
  · simp [hfile]
  · have hyul : c.withYul.isYul file = false := by
      rw [← Bool.not_eq_true, Catalog.isYul_withYul_iff h]
      exact hfile
    rw [hyul]

theorem listedPath?_withYul (h : c.hasYul = false) (file : Int) :
    listedPath? c.withYul file =
      if file = c.realCount then some yulPath else listedPath? c file := by
  unfold listedPath?
  split
  next hfile =>
    rw [hfile, Catalog.path?_withYul_realCount h]
    rfl
  next hfile => rw [Catalog.path?_withYul h hfile]

/-- The same text is read, and only at the entry under another path. -/
theorem textOf?_withYul (h : c.hasYul = false) (hgenerated : s.generated ≠ []) (file : Int) :
    s.textOf? c.withYul file = (s.textOf? c file).map fun (text, path) =>
      (text, if file = c.realCount then some yulPath else path) := by
  unfold textOf?
  rw [isGenerated_withYul h, listedPath?_withYul h]
  by_cases hfile : file = c.realCount
  · have hcounts : s.isGenerated c file = true := by
      simp [isGenerated, hgenerated, hfile]
    rw [if_pos hcounts, if_pos hcounts, if_pos hfile, Option.map_map]
    simp only [hfile, if_true, Option.some_or]
    rfl
  · simp only [hfile, if_false, Catalog.text?_withYul h hfile]
    exact Option.map_id'.symm

theorem fragment?_withYul (h : c.hasYul = false) (hgenerated : s.generated ≠ []) (pc : Nat)
    (item : Item) (file : Int) :
    Option.Rel (Fragment.SameBut c.realCount) (s.fragment? c pc item file)
      (s.fragment? c.withYul pc item file) := by
  unfold fragment?
  rw [textOf?_withYul h hgenerated]
  cases item.range? with
  | none => exact .none
  | some range =>
    cases s.textOf? c file with
    | none => exact .none
    | some found =>
      simp only [Option.bind_eq_bind, Option.bind_some, Option.map_some]
      split
      · refine .some ⟨rfl, fun hfile => ?_, fun hfile => ?_⟩
        · exact if_neg hfile
        · exact if_pos hfile
      · exact .none

/-- Exact and nearest fragments are found with the entry for generated code just when they are found
without it, and they differ at most in the path of the code at that entry. -/
theorem fragments_withYul (s : Section) (c : Catalog) (pc : Nat) (h : c.hasYul = false)
    (hgenerated : s.generated ≠ []) :
    Option.Rel (Fragment.SameBut c.realCount) (s.resolve? c pc) (s.resolve? c.withYul pc) ∧
      Option.Rel (Fragment.SameBut c.realCount) (s.nearest? c pc) (s.nearest? c.withYul pc) := by
  constructor
  · apply rel_bind
    intro record
    apply rel_bind
    intro item
    apply rel_bind
    intro file
    exact fragment?_withYul h hgenerated pc item file
  · -- The walk stops at the same instruction, since every file is known in both catalogs.
    have hwalk : s.usable? c.withYul = s.usable? c := by
      funext e
      simp only [usable?, isKnown_of_generated hgenerated]
    rw [nearest?_eq, nearest?_eq, hwalk]
    apply rel_bind
    intro _
    apply rel_bind
    rintro ⟨item, file⟩
    exact fragment?_withYul h hgenerated pc item file

/-- A fragment of generated code gets a path, and one that is not there stays away. -/
theorem fragments_withYul_mixed :
    walkedFiles.hasYul = false ∧ mixed.generated ≠ [] ∧
      mixed.resolve? walkedFiles 0 = some ⟨0, "�\nl", 1, 4, (1, 2), 1, none⟩ ∧
      mixed.resolve? walkedFiles.withYul 0 =
        some ⟨0, "�\nl", 1, 4, (1, 2), 1, some "#utility.yul"⟩ ∧
      mixed.nearest? walkedFiles.withYul 1 = none := by
  have hsame (pc : Nat) := fragments_withYul mixed walkedFiles pc (by decide) (by decide)
  have hfound : mixed.resolve? walkedFiles 0 = some ⟨0, "�\nl", 1, 4, (1, 2), 1, none⟩ := by decide
  have hnone : mixed.nearest? walkedFiles 1 = none := by decide
  refine ⟨by decide, by decide, hfound, ?_, ?_⟩
  · have hresolve := (hsame 0).1
    rw [hfound] at hresolve
    generalize mixed.resolve? walkedFiles.withYul 0 = found at hresolve
    cases hresolve with
    | some hentry =>
      have hpath := hentry.listed (by decide)
      rw [hentry.same, hpath]
      rfl
  · have hnearest := (hsame 1).2
    rw [hnone] at hnearest
    generalize mixed.nearest? walkedFiles.withYul 1 = found at hnearest
    cases hnearest
    rfl

end Section
end CodeAtlas
