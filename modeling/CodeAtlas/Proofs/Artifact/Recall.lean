import CodeAtlas.Artifact.Recall
import CodeAtlas.Proofs.Memo

/-! What is remembered never shows. Each question gets the answer that it would get if nothing had
been asked before, since a session only remembers plain answers under the keys they belong to. -/
namespace CodeAtlas

/-- The plain answers for the keys under which a session remembers. -/
structure Plain where
  table : String × Bool → Except Error Assembly.PcTable
  map : String × Bool → Except Error (List Span)
  fragment : String × Nat × Bool → Except Error (Option Fragment)

/-- All that a session remembers are plain answers. -/
structure Session.Sound (plain : Plain) (s : Session) : Prop where
  tables : s.tables.Sound plain.table
  maps : s.maps.Sound plain.map
  fragments : s.fragments.Sound plain.fragment

theorem Session.sound_empty (plain : Plain) (capacity : Nat) : (empty capacity).Sound plain :=
  ⟨Memo.sound_empty capacity, Memo.sound_empty capacity, Memo.sound_empty capacity⟩

namespace Remembering

variable {α β : Type} {plain : Plain} {q : Remembering α} {answer : Except Error α}

/-- In every sound session a question gets the answer given, and the session stays sound. -/
def Gives (plain : Plain) (q : Remembering α) (answer : Except Error α) : Prop :=
  ∀ s : Session, s.Sound plain → (q s).1 = answer ∧ (q s).2.Sound plain

theorem gives_ofExcept (plain : Plain) (answer : Except Error α) :
    Gives plain (.ofExcept answer) answer :=
  fun _ hs => ⟨rfl, hs⟩

theorem Gives.bind (hq : Gives plain q answer) {f : α → Remembering β} {g : α → Except Error β}
    (hf : ∀ a, answer = .ok a → Gives plain (f a) (g a)) :
    Gives plain (q >>= f) (answer >>= g) := by
  intro s hs
  obtain ⟨hanswer, hsound⟩ := hq s hs
  have hrun : (q >>= f) s = ExceptT.bindCont f (q s).1 (q s).2 := rfl
  rw [hrun, hanswer]
  cases answer with
  | error e => exact ⟨rfl, hsound⟩
  | ok a => exact hf a rfl _ hsound

theorem gives_table {key : String × Bool} {q : Remembering Assembly.PcTable}
    {answer : Except Error Assembly.PcTable} (hkey : plain.table key = answer)
    (h : Gives plain q answer) : Gives plain (.table key q) answer := by
  subst hkey
  exact Memo.through_plain (fun _ hs => hs.tables) (fun _ _ hs hm => { hs with tables := hm }) h

theorem gives_map {key : String × Bool} {q : Remembering (List Span)}
    {answer : Except Error (List Span)} (hkey : plain.map key = answer)
    (h : Gives plain q answer) : Gives plain (.map key q) answer := by
  subst hkey
  exact Memo.through_plain (fun _ hs => hs.maps) (fun _ _ hs hm => { hs with maps := hm }) h

theorem gives_fragment {key : String × Nat × Bool} {q : Remembering (Option Fragment)}
    {answer : Except Error (Option Fragment)} (hkey : plain.fragment key = answer)
    (h : Gives plain q answer) : Gives plain (.fragment key q) answer := by
  subst hkey
  exact Memo.through_plain (fun _ hs => hs.fragments)
    (fun _ _ hs hm => { hs with fragments := hm }) h

end Remembering

open Remembering

/-! ### Combined output -/

namespace Combined.Artifact

variable {a : Artifact} {name qualified : String} {o : ContractOutput}

/-- The contract under a qualified name. -/
def held (a : Artifact) (qualified : String) : Except Error ContractOutput :=
  orError (.missingContract qualified) a.outputs[qualified]?

/-- The plain answers about the contracts of combined output. -/
def plain (a : Artifact) : Plain where
  table := fun (qualified, deploy) => do tableOf qualified (← a.held qualified) deploy
  map := fun (qualified, deploy) => do return SourceMap.decode ((← a.held qualified).mapFor deploy)
  fragment := fun (qualified, pc, deploy) => do
    let o ← a.held qualified
    let table ← tableOf qualified o deploy
    let map := SourceMap.decode (o.mapFor deploy)
    return (a.sectionOf qualified o deploy table map).resolve? a.compilation.catalog pc

/-- However a contract was named, its key selects it again. -/
theorem held_of_entry (h : a.entry name = .ok (qualified, o)) : a.held qualified = .ok o := by
  unfold entry at h
  unfold held
  cases hfound : a.outputs[a.qualifiedName name]? with
  | none => simp [hfound, orError, Except.map] at h
  | some found =>
    simp only [hfound, orError, Except.map, Except.ok.injEq, Prod.mk.injEq] at h
    obtain ⟨rfl, rfl⟩ := h
    rw [hfound]
    rfl

theorem gives_recallTable (a : Artifact) (name : String) (deploy : Bool) :
    Gives a.plain (a.recallTable name deploy) (a.pcTable name deploy) := by
  refine (gives_ofExcept _ _).bind fun (qualified, o) hentry => ?_
  refine gives_table ?_ (gives_ofExcept _ _)
  simp only [plain, held_of_entry hentry]
  rfl

theorem gives_recallMap (a : Artifact) (name : String) (deploy : Bool) :
    Gives a.plain (a.recallMap name deploy) (a.sourceMap name deploy) := by
  refine (gives_ofExcept _ _).bind fun (qualified, o) hentry => ?_
  refine gives_map ?_ (gives_ofExcept _ _)
  simp only [plain, held_of_entry hentry]
  rfl

/-- The table and the map of a fragment are found by the contract's name, under the same key. -/
theorem gives_recallFragment (a : Artifact) (name : String) (pc : Nat) (deploy : Bool) :
    Gives a.plain (a.recallFragment name pc deploy) (a.fragment name pc deploy) := by
  refine (gives_ofExcept _ _).bind fun (qualified, o) hentry => ?_
  refine gives_fragment ?_ ((gives_recallTable a name deploy).bind fun table _ =>
    (gives_recallMap a name deploy).bind fun map _ => gives_ofExcept _ (.ok _))
  simp only [plain, held_of_entry hentry, pcTable, sourceMap, hentry]
  rfl

end Combined.Artifact

/-! ### Standard output -/

namespace Standard.Artifact

variable {a : Artifact} {o : Occurrence}

/-- The plain answers about the contracts of standard output. -/
def plain (a : Artifact) : Plain where
  table := fun (qualified, deploy) => do tableOf qualified (← a.first qualified).output deploy
  map := fun (qualified, deploy) => do
    return SourceMap.decode ((← a.first qualified).output.mapFor deploy)
  fragment := fun (qualified, pc, deploy) => do
    let o ← a.first qualified
    let table ← tableOf qualified o.output deploy
    let map := SourceMap.decode (o.output.mapFor deploy)
    return (a.sectionOf o.file o.output deploy table map).nearest? a.compilation.catalog pc

/-- The nearest fragment does not depend on the file to assume where no other is known, so paths
that are different parts of one qualified name have the same fragments. -/
theorem nearest?_sectionOf (a : Artifact) (file file' : String) (o : ContractOutput)
    (deploy : Bool) (table : Assembly.PcTable) (map : List Span) (pc : Nat) :
    (a.sectionOf file o deploy table map).nearest? a.compilation.catalog pc =
      (a.sectionOf file' o deploy table map).nearest? a.compilation.catalog pc := rfl

theorem gives_recallTableIn (a : Artifact) (file name : String) (deploy : Bool) :
    Gives a.plain (a.recallTableIn file name deploy) (a.pcTableIn file name deploy) := by
  refine (gives_ofExcept _ _).bind fun o ho => gives_table ?_ (gives_ofExcept _ _)
  simp only [plain, ho]
  rfl

theorem gives_recallTable (a : Artifact) (name : String) (deploy : Bool) :
    Gives a.plain (a.recallTable name deploy) (a.pcTable name deploy) :=
  (gives_ofExcept _ _).bind fun o _ => gives_recallTableIn a o.file o.name deploy

theorem gives_recallMap {qualified : String} (ho : a.first qualified = .ok o) (deploy : Bool) :
    Gives a.plain (recallMap qualified o.output deploy)
      (.ok (SourceMap.decode (o.output.mapFor deploy))) := by
  refine gives_map ?_ (gives_ofExcept _ _)
  simp only [plain, ho]
  rfl

theorem gives_recallFragmentIn (a : Artifact) (file name : String) (pc : Nat) (deploy : Bool) :
    Gives a.plain (a.recallFragmentIn file name pc deploy) (a.fragmentIn file name pc deploy) := by
  refine (gives_ofExcept _ _).bind fun o ho => ?_
  refine gives_fragment ?_ ((gives_recallTableIn a file name deploy).bind fun table _ =>
    (gives_recallMap ho deploy).bind fun map _ => gives_ofExcept _ (.ok _))
  have hkey : a.plain.fragment (qualify file name, pc, deploy) = do
      let table ← tableOf (qualify file name) o.output deploy
      let map := SourceMap.decode (o.output.mapFor deploy)
      return (a.sectionOf o.file o.output deploy table map).nearest? a.compilation.catalog pc := by
    simp only [plain, ho]
    rfl
  simp only [hkey, nearest?_sectionOf a o.file file, pcTableIn, ho]
  rfl

/-- A search stops where it would stop over the answers that its questions give. -/
theorem gives_search {plain : Plain} {ask : Occurrence → Remembering (Option Fragment)}
    {answer : Occurrence → Except Error (Option Fragment)}
    (hask : ∀ o, Gives plain (ask o) (answer o)) (several : Bool) (found : List Occurrence) :
    Gives plain (search (m := StateM Session) several ask found)
      (Id.run (search several (fun o => pure (answer o)) found)) := by
  induction found with
  | nil => exact gives_ofExcept _ _
  | cons o found ih =>
    intro s hs
    obtain ⟨hanswer, hsound⟩ := hask o s hs
    obtain ⟨result, s', hrun⟩ : ∃ result s', ask o s = (result, s') := ⟨_, _, rfl⟩
    rw [hrun] at hanswer hsound
    simp only [search, bind, StateT.bind, hrun, ← hanswer]
    -- the rest is searched in the session that the first question leaves
    match result with
    | .ok (some fragment) => exact ⟨rfl, hsound⟩
    | .ok none => exact ih s' hsound
    | .error e =>
      cases hpass : several && e.isMissing with
      | true =>
        simp only [pure, hpass, if_true]
        exact ih s' hsound
      | false =>
        simp only [pure, hpass]
        exact ⟨rfl, hsound⟩

theorem gives_recallFragment (a : Artifact) (name : String) (pc : Nat) (deploy : Bool) :
    Gives a.plain (a.recallFragment name pc deploy) (a.fragment name pc deploy) := by
  unfold recallFragment fragment
  cases a.occurrences name with
  | nil => exact gives_ofExcept _ _
  | cons o found =>
    exact gives_search (fun o => gives_recallFragmentIn a o.file o.name pc deploy) _ (o :: found)

end Standard.Artifact

/-! ### Series of questions -/

/-- The answer to one question, of any kind. -/
inductive Reply where
  | table (answer : Except Error Assembly.PcTable)
  | map (answer : Except Error (List Span))
  | fragment (answer : Except Error (Option Fragment))

/-- Questions that may be asked of combined output. -/
inductive Combined.Call where
  | table (name : String) (deploy : Bool)
  | map (name : String) (deploy : Bool)
  | fragment (name : String) (pc : Nat) (deploy : Bool)

/-- Questions that may be asked of standard output. -/
inductive Standard.Call where
  | table (name : String) (deploy : Bool)
  | fragment (name : String) (pc : Nat) (deploy : Bool)
  | tableIn (file name : String) (deploy : Bool)
  | fragmentIn (file name : String) (pc : Nat) (deploy : Bool)

/-- A reply and the session after it. -/
def Session.reply {α : Type} (wrap : Except Error α → Reply) (q : Remembering α) (s : Session) :
    Reply × Session :=
  (wrap (q s).1, (q s).2)

/-- Asks a question in a session. -/
def Combined.Artifact.ask (a : Combined.Artifact) : Combined.Call → Session → Reply × Session
  | .table name deploy => Session.reply .table (a.recallTable name deploy)
  | .map name deploy => Session.reply .map (a.recallMap name deploy)
  | .fragment name pc deploy => Session.reply .fragment (a.recallFragment name pc deploy)

@[inherit_doc Combined.Artifact.ask]
def Standard.Artifact.ask (a : Standard.Artifact) : Standard.Call → Session → Reply × Session
  | .table name deploy => Session.reply .table (a.recallTable name deploy)
  | .fragment name pc deploy => Session.reply .fragment (a.recallFragment name pc deploy)
  | .tableIn file name deploy => Session.reply .table (a.recallTableIn file name deploy)
  | .fragmentIn file name pc deploy =>
    Session.reply .fragment (a.recallFragmentIn file name pc deploy)

/-- The answer to a question without a session. -/
def Combined.Artifact.answer (a : Combined.Artifact) : Combined.Call → Reply
  | .table name deploy => .table (a.pcTable name deploy)
  | .map name deploy => .map (a.sourceMap name deploy)
  | .fragment name pc deploy => .fragment (a.fragment name pc deploy)

@[inherit_doc Combined.Artifact.answer]
def Standard.Artifact.answer (a : Standard.Artifact) : Standard.Call → Reply
  | .table name deploy => .table (a.pcTable name deploy)
  | .fragment name pc deploy => .fragment (a.fragment name pc deploy)
  | .tableIn file name deploy => .table (a.pcTableIn file name deploy)
  | .fragmentIn file name pc deploy => .fragment (a.fragmentIn file name pc deploy)

namespace Session

variable {κ : Type} {plain : Plain} {ask : κ → Session → Reply × Session} {answer : κ → Reply}

/-- The replies to questions asked one after the other. -/
def replies (ask : κ → Session → Reply × Session) : List κ → Session → List Reply
  | [], _ => []
  | call :: calls, s => (ask call s).1 :: replies ask calls (ask call s).2

theorem reply_sound {α : Type} {q : Remembering α} {value : Except Error α}
    (wrap : Except Error α → Reply) (h : Gives plain q value) {s : Session} (hs : s.Sound plain) :
    (reply wrap q s).1 = wrap value ∧ (reply wrap q s).2.Sound plain :=
  ⟨congrArg wrap (h s hs).1, (h s hs).2⟩

/-- Where each question gets its answer and keeps the session sound, a whole series does. -/
theorem replies_eq_map
    (hask : ∀ call s, s.Sound plain → (ask call s).1 = answer call ∧ (ask call s).2.Sound plain)
    (calls : List κ) {s : Session} (hs : s.Sound plain) :
    replies ask calls s = calls.map answer := by
  induction calls generalizing s with
  | nil => rfl
  | cons call calls ih =>
    obtain ⟨hanswer, hsound⟩ := hask call s hs
    rw [replies, List.map_cons, hanswer, ih hsound]

/-- The session after questions asked one after the other. -/
def after (ask : κ → Session → Reply × Session) (calls : List κ) (s : Session) : Session :=
  calls.foldl (fun s call => (ask call s).2) s

theorem after_sound
    (hask : ∀ call s, s.Sound plain → (ask call s).1 = answer call ∧ (ask call s).2.Sound plain)
    (calls : List κ) {s : Session} (hs : s.Sound plain) : (after ask calls s).Sound plain := by
  induction calls generalizing s with
  | nil => exact hs
  | cons call calls ih => exact ih (hask call s hs).2

theorem answer_after
    (hask : ∀ call s, s.Sound plain → (ask call s).1 = answer call ∧ (ask call s).2.Sound plain)
    {α : Type} {q : Remembering α} {value : Except Error α} (h : Gives plain q value)
    (calls : List κ) (capacity : Nat) : (q (after ask calls (.empty capacity))).1 = value :=
  (h _ (after_sound hask calls (sound_empty plain capacity))).1

end Session

theorem Combined.Artifact.ask_sound (a : Combined.Artifact) (call : Combined.Call) (s : Session)
    (hs : s.Sound a.plain) :
    (a.ask call s).1 = a.answer call ∧ (a.ask call s).2.Sound a.plain := by
  cases call with
  | table name deploy => exact Session.reply_sound _ (a.gives_recallTable name deploy) hs
  | map name deploy => exact Session.reply_sound _ (a.gives_recallMap name deploy) hs
  | fragment name pc deploy =>
    exact Session.reply_sound _ (a.gives_recallFragment name pc deploy) hs

theorem Standard.Artifact.ask_sound (a : Standard.Artifact) (call : Standard.Call) (s : Session)
    (hs : s.Sound a.plain) :
    (a.ask call s).1 = a.answer call ∧ (a.ask call s).2.Sound a.plain := by
  cases call with
  | table name deploy => exact Session.reply_sound _ (a.gives_recallTable name deploy) hs
  | fragment name pc deploy =>
    exact Session.reply_sound _ (a.gives_recallFragment name pc deploy) hs
  | tableIn file name deploy =>
    exact Session.reply_sound _ (a.gives_recallTableIn file name deploy) hs
  | fragmentIn file name pc deploy =>
    exact Session.reply_sound _ (a.gives_recallFragmentIn file name pc deploy) hs

/-- Whatever the room to remember and whatever was asked before, a question gets the reply that it
would get as the first one of a new session, with the same room or another: the answer that is
computed without remembering. -/
theorem replies_eq_fresh (a : Combined.Artifact) (b : Standard.Artifact) (capacity fresh : Nat) :
    (∀ calls : List Combined.Call,
      Session.replies a.ask calls (.empty capacity) =
          calls.map (fun call => (a.ask call (.empty fresh)).1) ∧
        Session.replies a.ask calls (.empty capacity) = calls.map a.answer) ∧
    (∀ calls : List Standard.Call,
      Session.replies b.ask calls (.empty capacity) =
          calls.map (fun call => (b.ask call (.empty fresh)).1) ∧
        Session.replies b.ask calls (.empty capacity) = calls.map b.answer) := by
  refine ⟨fun calls => ?_, fun calls => ?_⟩
  · have hall := Session.replies_eq_map a.ask_sound calls (Session.sound_empty a.plain capacity)
    have hfirst (call) := (a.ask_sound call _ (Session.sound_empty a.plain fresh)).1
    simp only [hall, hfirst, and_self]
  · have hall := Session.replies_eq_map b.ask_sound calls (Session.sound_empty b.plain capacity)
    have hfirst (call) := (b.ask_sound call _ (Session.sound_empty b.plain fresh)).1
    simp only [hall, hfirst, and_self]

end CodeAtlas
