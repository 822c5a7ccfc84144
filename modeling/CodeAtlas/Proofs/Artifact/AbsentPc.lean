import CodeAtlas.Proofs.Artifact.Recall
import CodeAtlas.Proofs.Artifact.SameCode
import CodeAtlas.Proofs.Assembly.Jumps

/-! A program counter that a contract's code does not have is no failure: there is just no piece of
source for it. The question for a piece of source fails where the question for the table does, in the
same way, and nowhere else. -/
namespace CodeAtlas

open Assembly (PcTable)

theorem Assembly.PcTable.record?_eq_none {t : PcTable} {pc : Nat} (h : pc ∉ t.pcs) :
    t.record? pc = none := by
  rw [Option.eq_none_iff_forall_ne_some]
  intro record hrecord
  exact h (mem_pcs_iff.2 ⟨record, hrecord⟩)

namespace Section

variable {s : Section} {catalog : Catalog} {pc : Nat}

theorem resolve?_eq_none (h : pc ∉ s.table.pcs) : s.resolve? catalog pc = none := by
  simp [resolve?, PcTable.record?_eq_none h]

theorem nearest?_eq_none (h : pc ∉ s.table.pcs) : s.nearest? catalog pc = none := by
  simp [nearest?, PcTable.record?_eq_none h]

end Section

/-- What is said of a program counter's piece of source where the table is known or fails. A known
table gives an answer, which is no piece if the table lacks the program counter; a failure is passed
on. -/
inductive FollowsTable (pc : Nat) :
    Except Error PcTable → Except Error (Option Fragment) → Prop where
  | known {t : PcTable} {found : Option Fragment} (absent : pc ∉ t.pcs → found = none) :
    FollowsTable pc (.ok t) (.ok found)
  | failed (e : Error) : FollowsTable pc (.error e) (.error e)

namespace FollowsTable

variable {pc : Nat} {table : Except Error PcTable} {answer : Except Error (Option Fragment)}

theorem eq_ok_none {t : PcTable} (h : FollowsTable pc table answer) (ht : table = .ok t)
    (habsent : pc ∉ t.pcs) : answer = .ok none := by
  cases h with
  | known absent =>
    cases ht
    rw [absent habsent]
  | failed e => cases ht

theorem eq_error {e : Error} (h : FollowsTable pc table answer) (he : table = .error e) :
    answer = .error e := by
  cases h with
  | known absent => cases he
  | failed e' =>
    cases he
    rfl

end FollowsTable

namespace Combined.Artifact

theorem fragment_followsTable (a : Artifact) (name : String) (pc : Nat) (deploy : Bool) :
    FollowsTable pc (a.pcTable name deploy) (a.fragment name pc deploy) := by
  unfold fragment sourceMap
  cases hentry : a.entry name with
  | error e =>
    rw [pcTable, hentry]
    exact .failed e
  | ok found =>
    cases htable : a.pcTable name deploy with
    | error e => exact .failed e
    | ok t => exact .known fun habsent => Section.resolve?_eq_none habsent

end Combined.Artifact

namespace Standard.Artifact

variable {a : Artifact} {name : String}

theorem fragmentIn_followsTable (a : Artifact) (file name : String) (pc : Nat) (deploy : Bool) :
    FollowsTable pc (a.pcTableIn file name deploy) (a.fragmentIn file name pc deploy) := by
  unfold fragmentIn
  cases hfirst : a.first (qualify file name) with
  | error e =>
    rw [pcTableIn, hfirst]
    exact .failed e
  | ok o =>
    cases htable : a.pcTableIn file name deploy with
    | error e => exact .failed e
    | ok t => exact .known fun habsent => Section.nearest?_eq_none habsent

/-- With one contract there is nothing to pass over. -/
theorem search_singleton (ask : Occurrence → Except Error (Option Fragment)) (o : Occurrence) :
    Id.run (search false (fun o => pure (ask o)) [o]) = ask o := by
  unfold search
  cases hask : ask o with
  | error e => rfl
  | ok found =>
    cases found with
    | none => rfl
    | some fragment => rfl

theorem fragment_followsTable (h : (a.occurrences name).length ≤ 1) (pc : Nat) (deploy : Bool) :
    FollowsTable pc (a.pcTable name deploy) (a.fragment name pc deploy) := by
  unfold pcTable fragment first
  cases hfound : a.occurrences name with
  | nil => exact .failed _
  | cons o rest =>
    obtain rfl : rest = [] := by simpa [hfound] using h
    have hsearch := search_singleton (fun o => a.fragmentIn o.file o.name pc deploy) o
    simp only [List.length_singleton, Nat.lt_irrefl, decide_false, hsearch]
    exact fragmentIn_followsTable a o.file o.name pc deploy

end Standard.Artifact

/-- Whatever was asked before and however much is remembered, the question for a piece of source
follows the question for the table. In combined output this holds for all names, and in standard
output for those that select no more than one contract. -/
theorem recallFragment_followsTable (capacity : Nat) (name : String) (pc : Nat) (deploy : Bool) :
    (∀ (a : Combined.Artifact) (calls calls' : List Combined.Call),
      FollowsTable pc
        (a.recallTable name deploy (Session.after a.ask calls (.empty capacity))).1
        (a.recallFragment name pc deploy (Session.after a.ask calls' (.empty capacity))).1) ∧
    ∀ (a : Standard.Artifact) (calls calls' : List Standard.Call),
      (a.occurrences name).length ≤ 1 →
      FollowsTable pc
        (a.recallTable name deploy (Session.after a.ask calls (.empty capacity))).1
        (a.recallFragment name pc deploy (Session.after a.ask calls' (.empty capacity))).1 := by
  constructor
  · intro a calls calls'
    rw [Session.answer_after a.ask_sound (a.gives_recallTable name deploy),
      Session.answer_after a.ask_sound (a.gives_recallFragment name pc deploy)]
    exact a.fragment_followsTable name pc deploy
  · intro a calls calls' hone
    rw [Session.answer_after a.ask_sound (a.gives_recallTable name deploy),
      Session.answer_after a.ask_sound (a.gives_recallFragment name pc deploy)]
    exact Standard.Artifact.fragment_followsTable hone pc deploy

/-- No instruction of the library starts inside its first push. A name that nothing bears fails,
also after questions that went well. -/
theorem recallFragment_followsTable_library :
    (libraryStandard.occurrences "L").length ≤ 1 ∧
    (∃ t, (libraryStandard.recallTable "L" true
      (Session.after libraryStandard.ask [.fragment "L" 2 true] (.empty 2))).1 = .ok t ∧
        1 ∉ t.pcs) ∧
    (libraryStandard.recallFragment "L" 1 true
      (Session.after libraryStandard.ask [.table "L" true] (.empty 2))).1 = .ok none ∧
    (libraryCombined.recallFragment "M" 1 true
      (Session.after libraryCombined.ask [.table "L" true] (.empty 2))).1 =
        .error (.missingContract "M") := by
  have hone : (libraryStandard.occurrences "L").length ≤ 1 := by decide +kernel
  have htable : ∃ t, (libraryStandard.recallTable "L" true
      (Session.after libraryStandard.ask [.fragment "L" 2 true] (.empty 2))).1 = .ok t ∧
        1 ∉ t.pcs :=
    exists_of_any_ok (by decide +kernel)
  have hfails : (libraryCombined.recallTable "M" true
      (Session.after libraryCombined.ask [] (.empty 2))).1 = .error (.missingContract "M") := rfl
  refine ⟨hone, htable, ?_, ?_⟩
  · obtain ⟨t, ht, habsent⟩ := htable
    have hfollows := (recallFragment_followsTable 2 "L" 1 true).2 libraryStandard
      [.fragment "L" 2 true] [.table "L" true] hone
    exact hfollows.eq_ok_none ht habsent
  · have hfollows := (recallFragment_followsTable 2 "M" 1 true).1 libraryCombined []
      [.table "L" true]
    exact hfollows.eq_error hfails

end CodeAtlas
