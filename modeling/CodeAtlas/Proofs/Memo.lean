import CodeAtlas.Memo
import CodeAtlas.Proofs.Lookup

/-! A memory only holds what would be computed again. Looking up and remembering keep it so,
whichever entries are dropped on the way. -/
namespace CodeAtlas.Memo

variable {κ α σ ε : Type} {m : Memo κ α} {plain : κ → Except ε α} {key : κ} {value : α}

/-- Every remembered value is the plain answer for its key. -/
def Sound (m : Memo κ α) (plain : κ → Except ε α) : Prop :=
  ∀ entry ∈ m.entries, plain entry.1 = .ok entry.2

theorem sound_empty (capacity : Nat) : (empty capacity : Memo κ α).Sound plain := by
  intro entry hentry
  simp [empty] at hentry

variable [DecidableEq κ]

theorem Sound.of_lookup (h : m.Sound plain) (hlookup : m.entries.lookup key = some value) :
    plain key = .ok value :=
  h (key, value) (mem_of_lookup hlookup)

theorem Sound.others (h : m.Sound plain) (key : κ) :
    ∀ entry ∈ m.others key, plain entry.1 = .ok entry.2 :=
  fun entry hentry => h entry (List.mem_filter.1 hentry).1

/-- What is found is the plain answer, and nothing wrong is remembered after. -/
theorem Sound.get (h : m.Sound plain) (key : κ) :
    (∀ value, (m.get key).1 = some value → plain key = .ok value) ∧ (m.get key).2.Sound plain := by
  unfold Memo.get
  cases hlookup : m.entries.lookup key with
  | none => exact ⟨by simp, h⟩
  | some found =>
    have hfound := h.of_lookup hlookup
    refine ⟨fun value hvalue => ?_, List.forall_mem_cons.2 ⟨hfound, h.others key⟩⟩
    cases hvalue
    exact hfound

theorem Sound.insert (h : m.Sound plain) (hvalue : plain key = .ok value) :
    (m.insert key value).Sound plain := by
  unfold Memo.insert
  split
  · exact List.forall_mem_cons.2 ⟨hvalue, h.others key⟩
  · split
    · exact List.forall_mem_cons.2 ⟨hvalue, h⟩
    · refine List.forall_mem_cons.2 ⟨hvalue, fun entry hentry => ?_⟩
      exact h entry (List.dropLast_subset _ hentry)

/-- A question through a memory gets the plain answer, if the question asked on a miss does. That
one may itself use the state that the memory is part of: all that counts is an invariant under which
the memory is sound, and which allows any sound memory in its place. -/
theorem through_plain {view : σ → Memo κ α} {put : Memo κ α → σ → σ}
    {compute : σ → Except ε α × σ} {Inv : σ → Prop}
    (hview : ∀ s, Inv s → (view s).Sound plain)
    (hput : ∀ s m, Inv s → m.Sound plain → Inv (put m s))
    (hcompute : ∀ s, Inv s → (compute s).1 = plain key ∧ Inv (compute s).2) (s : σ) (hs : Inv s) :
    (through view put key compute s).1 = plain key ∧ Inv (through view put key compute s).2 := by
  obtain ⟨hfound, hsound⟩ := (hview s hs).get key
  unfold through
  generalize (view s).get key = found at hfound hsound
  obtain ⟨_ | value, m⟩ := found
  · obtain ⟨hanswer, hinv⟩ := hcompute _ (hput s m hs hsound)
    simp only
    generalize compute (put m s) = computed at hanswer hinv
    obtain ⟨e | value, s'⟩ := computed
    · exact ⟨hanswer, hinv⟩
    · exact ⟨hanswer, hput s' _ hinv ((hview s' hinv).insert hanswer.symm)⟩
  · exact ⟨(hfound value rfl).symm, hput s m hs hsound⟩

end CodeAtlas.Memo
