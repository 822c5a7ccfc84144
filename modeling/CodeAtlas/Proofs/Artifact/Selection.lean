import CodeAtlas.Proofs.Artifact.Recall
import CodeAtlas.Proofs.Artifact.ShortName
import CodeAtlas.Proofs.Text.Order
import Mathlib.Data.List.TakeWhile

/-! Which contracts a name selects. A qualified name is split at its last colon, so that a path may
hold colons and a short name may not. -/
namespace CodeAtlas

variable {q name path : String}

/-! ### Names -/

section Split

variable {sep : Char} {s t mark : String}

theorem Text.splitLast?_of_notMem (h : sep ∉ s.toList) : splitLast? sep s = none := by
  have hdrop : s.toList.reverse.dropWhile (· != sep) = [] := by
    rw [List.dropWhile_eq_nil_iff]
    intro c hc
    simpa using ne_of_mem_of_not_mem (List.mem_reverse.1 hc) h
  simp [splitLast?, hdrop]

theorem Text.splitLast?_append (hmark : mark.toList = [sep]) (h : sep ∉ t.toList) :
    splitLast? sep (s ++ mark ++ t) = some (s, t) := by
  have hall : ∀ c ∈ t.toList.reverse, (c != sep) = true := by
    intro c hc
    simpa using ne_of_mem_of_not_mem (List.mem_reverse.1 hc) h
  have hreverse : (s ++ mark ++ t).toList.reverse = t.toList.reverse ++ sep :: s.toList.reverse := by
    simp [hmark]
  unfold splitLast?
  rw [hreverse, List.takeWhile_append_of_pos hall, List.dropWhile_append_of_pos hall]
  simp

end Split

theorem splitQualified?_qualify (h : ':' ∉ name.toList) :
    splitQualified? (qualify path name) = some (path, name) :=
  Text.splitLast?_append rfl h

theorem splitQualified?_of_notMem (h : ':' ∉ name.toList) : splitQualified? name = none :=
  Text.splitLast?_of_notMem h

/-- A text with colons is a qualified name in one way. -/
theorem exists_qualify (h : ':' ∈ q.toList) :
    ∃ path name, q = qualify path name ∧ ':' ∉ name.toList := by
  obtain ⟨after, before, hsplit, hafter⟩ :=
    List.eq_append_cons_of_mem (List.mem_reverse.2 h)
  refine ⟨String.ofList before.reverse, String.ofList after.reverse, ?_, by simpa using hafter⟩
  apply String.toList_injective
  rw [← List.reverse_reverse q.toList, hsplit]
  simp [qualify]

/-- A name that a key bears: the part after its last colon, or the whole key if it has none. -/
def Bears (q name : String) : Prop := q = name ∨ ∃ path, q = qualify path name

theorem notMem_shortName (q : String) : ':' ∉ (shortName q).toList := by
  by_cases h : ':' ∈ q.toList
  · obtain ⟨path, name, rfl, hname⟩ := exists_qualify h
    simpa [shortName, splitQualified?_qualify hname] using hname
  · simpa [shortName, splitQualified?_of_notMem h] using h

theorem shortName_eq_iff (h : ':' ∉ name.toList) : shortName q = name ↔ Bears q name := by
  constructor
  · rintro rfl
    by_cases hq : ':' ∈ q.toList
    · obtain ⟨path, name, rfl, hname⟩ := exists_qualify hq
      exact .inr ⟨path, by simp [shortName, splitQualified?_qualify hname]⟩
    · exact .inl (by simp [shortName, splitQualified?_of_notMem hq])
  · rintro (rfl | ⟨path, rfl⟩)
    · simp [shortName, splitQualified?_of_notMem h]
    · simp [shortName, splitQualified?_qualify h]

/-! ### Standard output -/

namespace Standard.Artifact

variable {a : Artifact} {file : String} {o : Occurrence}

theorem occurrences_qualified (h : a.Holds o) (hname : ':' ∉ o.name.toList) :
    a.occurrences o.qualified = [o] := by
  have hfound : a.occurrence? o.file o.name = some o := occurrence?_iff.2 ⟨h, rfl, rfl⟩
  simp [occurrences, Occurrence.qualified, splitQualified?_qualify hname, hfound]

section Short

variable (hname : ':' ∉ name.toList)
include hname

theorem occurrences_short (a : Artifact) :
    a.occurrences name = a.output.contracts.keys.filterMap (a.occurrence? · name) := by
  simp [occurrences, splitQualified?_of_notMem hname]

theorem mem_occurrences_short : o ∈ a.occurrences name ↔ a.Holds o ∧ o.name = name := by
  rw [occurrences_short hname, List.mem_filterMap]
  constructor
  · rintro ⟨file, _, ho⟩
    obtain ⟨hholds, _, hname⟩ := occurrence?_iff.1 ho
    exact ⟨hholds, hname⟩
  · rintro ⟨hholds, hname⟩
    have ⟨contracts, hfile, _⟩ := hholds
    exact ⟨o.file, mem_files hfile, occurrence?_iff.2 ⟨hholds, rfl, hname⟩⟩

theorem occurrences_short_sorted (a : Artifact) :
    (a.occurrences name).Pairwise fun o p => o.file < p.file := by
  rw [occurrences_short hname, List.pairwise_filterMap]
  refine (keys_sorted _).imp fun hlt o ho p hp => ?_
  rwa [(occurrence?_iff.1 ho).2.1, (occurrence?_iff.1 hp).2.1]

end Short
end Standard.Artifact

/-! ### Combined output -/

namespace Combined.Artifact

variable {a : Artifact} {o : ContractOutput}

/-- No contract's own name has a colon, so a key with one only stands for itself. -/
theorem entry_of_key (hq : ':' ∈ q.toList) (ho : a.outputs[q]? = some o) :
    a.entry q = .ok (q, o) := by
  have hnone : a.outputs.keys.find? (shortName · == q) = none := by
    rw [List.find?_eq_none]
    intro key _ hkey
    exact notMem_shortName key (eq_of_beq hkey ▸ hq)
  simp [entry, qualifiedName, hnone, ho, orError, Except.map]

/-- A name without a colon stands for the first key that bears it. -/
theorem entry_of_bears (hname : ':' ∉ name.toList) (h : ∃ q ∈ a.outputs, Bears q name) :
    ∃ q o, a.entry name = .ok (q, o) ∧ a.outputs[q]? = some o ∧ Bears q name ∧
      ∀ q' ∈ a.outputs, Bears q' name → q ≤ q' := by
  have hmem : name ∈ a.contractNames := by
    obtain ⟨q, hq, hbears⟩ := h
    simpa [contractNames, Std.ExtTreeSet.mem_ofList] using
      ⟨q, hq, (shortName_eq_iff hname).2 hbears⟩
  obtain ⟨q, o, hentry, hshort, hleast⟩ := entry_of_mem hmem
  refine ⟨q, o, hentry, orError_eq_ok.1 (held_of_entry hentry), (shortName_eq_iff hname).1 hshort, ?_⟩
  intro q' hq' hbears
  exact hleast q' hq' ((shortName_eq_iff hname).2 hbears)

end Combined.Artifact

/-- The contracts that names select. In standard output a qualified name selects its own contract
and a short one all contracts of the name, by file. In combined output a key with a colon selects
itself, and a short name the first key that bears it. Files and keys are in the order of their
bytes. -/
theorem names_select (a : Standard.Artifact) (b : Combined.Artifact) :
    (∀ o, a.Holds o → ':' ∉ o.name.toList → a.occurrences o.qualified = [o]) ∧
    (∀ name, ':' ∉ name.toList →
      (a.occurrences name).Pairwise (fun o p => Text.bytes o.file < Text.bytes p.file) ∧
        ∀ o, o ∈ a.occurrences name ↔ a.Holds o ∧ o.name = name) ∧
    (∀ (q : String) (o : Combined.ContractOutput), ':' ∈ q.toList → b.outputs[q]? = some o →
      b.entry q = .ok (q, o)) ∧
    ∀ name, ':' ∉ name.toList → (∃ q ∈ b.outputs, Bears q name) →
      ∃ q o, b.entry name = .ok (q, o) ∧ b.outputs[q]? = some o ∧ Bears q name ∧
        ∀ q' ∈ b.outputs, Bears q' name → Text.bytes q ≤ Text.bytes q' := by
  simp only [Text.bytes_lt_iff, Text.bytes_le_iff]
  refine ⟨fun o => Standard.Artifact.occurrences_qualified, fun name hname => ⟨?_, ?_⟩,
    fun q o => Combined.Artifact.entry_of_key, fun name => Combined.Artifact.entry_of_bears⟩
  · exact Standard.Artifact.occurrences_short_sorted hname a
  · intro o
    exact Standard.Artifact.mem_occurrences_short hname

/-! ### Names that nearly collide -/

/-- Two files, the name of one with a colon, and a contract's name that goes on where the other file's
name ends. -/
def colonFiles : Standard.Artifact where
  version := "0.8.0"
  output := ⟨[], ∅, Std.ExtTreeMap.ofList
    [("a", Std.ExtTreeMap.ofList [("C", { abi := some (.int 1) }), ("b:C", { abi := some (.int 2) })]
        compare),
      ("a:b", Std.ExtTreeMap.ofList [("C", { abi := some (.int 3) })] compare)] compare⟩
  compilation := ⟨.ofFiles [], ∅, ⟨∅, ∅, ∅⟩⟩

/-- Three keys that bear one name. -/
def colonKeys : Combined.Artifact where
  version := "0.8.0"
  dialect := .v8
  outputs := Std.ExtTreeMap.ofList
    [("A", { abi := some (.int 1) }), ("a.sol:A", { abi := some (.int 2) }),
      ("0:A", { abi := some (.int 3) })] compare
  compilation := ⟨.ofFiles [], ∅, ⟨∅, ∅, ∅⟩⟩

theorem names_select_colons :
    colonFiles.occurrences "a:b:C" = [⟨"a:b", "C", { abi := some (.int 3) }⟩] ∧
      (∀ o, o ∈ colonFiles.occurrences "C" ↔ colonFiles.Holds o ∧ o.name = "C") ∧
      colonFiles.Holds ⟨"a", "C", { abi := some (.int 1) }⟩ ∧
      colonKeys.entry "a.sol:A" = .ok ("a.sol:A", { abi := some (.int 2) }) ∧
      ∃ q o, colonKeys.entry "A" = .ok (q, o) ∧ Bears q "A" ∧ Text.bytes q ≤ Text.bytes "0:A" := by
  obtain ⟨hqualified, hshort, hkey, hfirst⟩ := names_select colonFiles colonKeys
  refine ⟨?_, (hshort "C" (by decide)).2, ⟨_, rfl, rfl⟩, ?_, ?_⟩
  · exact hqualified ⟨"a:b", "C", { abi := some (.int 3) }⟩ ⟨_, rfl, rfl⟩ (by decide)
  · exact hkey "a.sol:A" _ (by decide) rfl
  · obtain ⟨q, o, hentry, _, hbears, hleast⟩ :=
      hfirst "A" (by decide) ⟨"A", by decide, .inl rfl⟩
    exact ⟨q, o, hentry, hbears, hleast "0:A" (by decide) (.inr ⟨"0", rfl⟩)⟩

end CodeAtlas
