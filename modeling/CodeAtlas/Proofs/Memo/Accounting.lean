import CodeAtlas.Proofs.Memo

/-! A memory keeps its books. Its counters are compared with what a run of it did, told from the
keys that were held at each moment: no value appears or goes without an entry in the books. -/
namespace CodeAtlas.Memo

variable {κ α ε : Type}

/-- The keys that are held. -/
def keys (m : Memo κ α) : List κ := m.entries.map (·.1)

/-- What is done with a memory. -/
inductive Action (κ α ε : Type) where
  | get (key : κ)
  | insert (key : κ) (value : α)
  | fetch (key : κ) (compute : Unit → Except ε α)

namespace Action

/-- The key that an action is about. -/
@[simp] def key : Action κ α ε → κ
  | .get key | .insert key _ | .fetch key _ => key

/-- Whether an action looks its key up. -/
@[simp] def looksUp : Action κ α ε → Bool
  | .get _ | .fetch _ _ => true
  | .insert _ _ => false

variable [DecidableEq κ]

/-- Whether an action finds its key. -/
@[simp] def finds (m : Memo κ α) (a : Action κ α ε) : Bool := a.looksUp && a.key ∈ m.keys

/-- Whether an action puts in a value: a computed one only if its key is not held yet and the
computation succeeds. -/
@[simp] def puts (m : Memo κ α) : Action κ α ε → Bool
  | .get _ => false
  | .insert _ _ => true
  | .fetch key compute => key ∉ m.keys && (compute ()).isOk

/-- Whether an action puts in a value under a key that is held at that moment. -/
@[simp] def replaces (m : Memo κ α) (a : Action κ α ε) : Bool := a.puts m && a.key ∈ m.keys

end Action

/-- The memory with one more miss counted. -/
def missed (m : Memo κ α) : Memo κ α :=
  { m with stats := { m.stats with misses := m.stats.misses + 1 } }

variable [DecidableEq κ]

/-- The memory after an action. -/
def act (m : Memo κ α) : Action κ α ε → Memo κ α
  | .get key => (m.get key).2
  | .insert key value => m.insert key value
  | .fetch key compute => (m.fetch key compute).2

/-- The memory after a run of actions. -/
def run (m : Memo κ α) (actions : List (Action κ α ε)) : Memo κ α := actions.foldl act m

/-- How many actions of a run satisfy a condition, each with the memory that it meets. -/
def tally (p : Memo κ α → Action κ α ε → Bool) : Memo κ α → List (Action κ α ε) → Nat
  | _, [] => 0
  | m, a :: actions => (if p m a then 1 else 0) + tally p (m.act a) actions

/-- Puts an entry in front, in a map that holds so many at most. What goes for it is handed back:
the entry under the same key or, if there is none and no room, the one used least recently. -/
def push (m : Memo κ α) (key : κ) (value : α) : Option (κ × α) × List (κ × α) :=
  match m.entries.lookup key with
  | some old => (some (key, old), (key, value) :: m.others key)
  | none =>
    if m.entries.length < m.capacity then (none, (key, value) :: m.entries)
    else (m.entries.getLast?, (key, value) :: m.entries.dropLast)

variable {m : Memo κ α} {key : κ} {value : α}

/-! ### Keys -/

theorem exists_lookup (h : key ∈ m.keys) : ∃ value, m.entries.lookup key = some value := by
  cases hlookup : m.entries.lookup key with
  | some value => exact ⟨value, rfl⟩
  | none =>
    obtain ⟨entry, hentry, rfl⟩ := List.mem_map.1 h
    have hne := List.lookup_eq_none_iff.1 hlookup entry hentry
    simp at hne

theorem lookup_eq_none (h : key ∉ m.keys) : m.entries.lookup key = none := by
  cases hlookup : m.entries.lookup key with
  | none => rfl
  | some value => exact (h (List.mem_map.2 ⟨(key, value), mem_of_lookup hlookup, rfl⟩)).elim

theorem map_others (m : Memo κ α) (key : κ) :
    (m.others key).map (·.1) = m.keys.filter (· ≠ key) := by
  simp only [others, keys, List.filter_map]
  rfl

/-- Of distinct keys, one that is held leaves one entry less to the others. -/
theorem length_others (hnodup : m.keys.Nodup) (h : key ∈ m.keys) :
    (m.others key).length + 1 = m.entries.length := by
  obtain ⟨value, hvalue⟩ := exists_lookup h
  have hown := filter_key_of_nodup hnodup key
  have hsplit := List.length_eq_length_filter_add (l := m.entries) fun e => e.1 == key
  rw [hown, hvalue] at hsplit
  have hothers : (m.entries.filter fun e => !(e.1 == key)) = m.others key := by
    apply List.filter_congr
    intro e _
    rw [Bool.eq_iff_iff]
    simp
  rw [hothers] at hsplit
  simp only [Option.map_some, Option.toList_some, List.length_singleton] at hsplit
  omega

theorem nodup_front (hnodup : m.keys.Nodup) (key : κ) (value : α) :
    (((key, value) :: m.others key).map (·.1)).Nodup := by
  rw [List.map_cons, map_others, List.nodup_cons]
  exact ⟨by simp, hnodup.filter _⟩

/-! ### Putting in an entry -/

/-- There are three ways to put in an entry: in place of the one under its key, where there is room,
or in place of the last one, whose key is another. -/
theorem push_cases (hroom : 0 < m.capacity) (key : κ) (value : α) :
    (key ∈ m.keys ∧ ∃ old, m.push key value = (some (key, old), (key, value) :: m.others key)) ∨
    (key ∉ m.keys ∧ m.entries.length < m.capacity ∧
      m.push key value = (none, (key, value) :: m.entries)) ∨
    (key ∉ m.keys ∧ m.capacity ≤ m.entries.length ∧ ∃ last : κ × α, last.1 ≠ key ∧
      m.push key value = (some last, (key, value) :: m.entries.dropLast)) := by
  by_cases hkey : key ∈ m.keys
  · obtain ⟨old, hold⟩ := exists_lookup hkey
    exact .inl ⟨hkey, old, by simp [push, hold]⟩
  · have hnone := lookup_eq_none hkey
    by_cases hlt : m.entries.length < m.capacity
    · exact .inr (.inl ⟨hkey, hlt, by simp [push, hnone, hlt]⟩)
    · have hne : m.entries ≠ [] := by
        intro hempty
        simp [hempty, hroom] at hlt
      refine .inr (.inr ⟨hkey, by omega, m.entries.getLast hne, ?_, ?_⟩)
      · rintro rfl
        exact hkey (List.mem_map_of_mem (List.getLast_mem hne))
      · simp [push, hnone, hlt, List.getLast?_eq_some_getLast hne]

/-- For the entry that comes at most one goes: one under another key, or the one under its own. -/
theorem length_push (hnodup : m.keys.Nodup) (hroom : 0 < m.capacity) (key : κ) (value : α) :
    (m.push key value).2.length + (if (m.push key value).1.any (·.1 ≠ key) then 1 else 0) +
      (if key ∈ m.keys then 1 else 0) = m.entries.length + 1 := by
  obtain ⟨hkey, old, hpush⟩ | ⟨hkey, hlt, hpush⟩ | ⟨hkey, hge, last, hlast, hpush⟩ :=
    push_cases hroom key value
  · have hlength := length_others hnodup hkey
    simpa [hpush, hkey] using hlength
  · simp [hpush, hkey]
  · simp [hpush, hkey, hlast]
    omega

theorem length_push_le (hnodup : m.keys.Nodup) (hroom : 0 < m.capacity)
    (hle : m.entries.length ≤ m.capacity) (key : κ) (value : α) :
    (m.push key value).2.length ≤ m.capacity := by
  obtain ⟨hkey, old, hpush⟩ | ⟨_, hlt, hpush⟩ | ⟨_, _, last, _, hpush⟩ :=
    push_cases hroom key value
  · have hlength := length_others hnodup hkey
    simp only [hpush, List.length_cons]
    omega
  · rw [hpush]
    exact hlt
  · simp only [hpush, List.length_cons, List.length_dropLast]
    omega

theorem nodup_push (hnodup : m.keys.Nodup) (hroom : 0 < m.capacity) (key : κ) (value : α) :
    ((m.push key value).2.map (·.1)).Nodup := by
  obtain ⟨_, old, hpush⟩ | ⟨hkey, _, hpush⟩ | ⟨hkey, _, last, _, hpush⟩ :=
    push_cases hroom key value
  · rw [hpush]
    exact nodup_front hnodup key value
  · rw [hpush]
    exact List.nodup_cons.2 ⟨hkey, hnodup⟩
  · have hsub := (List.dropLast_sublist m.entries).map (·.1)
    rw [hpush, List.map_cons, List.nodup_cons]
    exact ⟨fun h => hkey (hsub.subset h), hnodup.sublist hsub⟩

/-- An insertion counts as an eviction just when what is handed back has another key. -/
theorem insert_eq_push (hroom : 0 < m.capacity) (key : κ) (value : α) :
    m.insert key value =
      { m with
        entries := (m.push key value).2
        stats :=
          { m.stats with
            inserts := m.stats.inserts + 1
            evictions := m.stats.evictions +
              if (m.push key value).1.any (·.1 ≠ key) then 1 else 0 } } := by
  obtain ⟨hkey, old, hpush⟩ | ⟨hkey, hlt, hpush⟩ | ⟨hkey, hge, last, hlast, hpush⟩ :=
    push_cases hroom key value
  · obtain ⟨found, hfound⟩ := exists_lookup hkey
    simp [insert, hfound, hpush]
  · simp [insert, lookup_eq_none hkey, hlt, hpush]
  · simp [insert, lookup_eq_none hkey, Nat.not_lt.2 hge, hpush, hlast]

/-! ### Books -/

/-- The books of a memory agree with what was done with it: how often keys were looked up and
found, and how often values were put in, some of them under a key that was held. -/
structure Books (m : Memo κ α) (capacity lookups found puts replaced : Nat) : Prop where
  capacity_eq : m.capacity = max capacity 1
  length_le : m.entries.length ≤ m.capacity
  nodup : m.keys.Nodup
  hits_eq : m.stats.hits = found
  lookups_eq : m.stats.hits + m.stats.misses = lookups
  inserts_eq : m.stats.inserts = puts
  balance : m.stats.inserts = m.entries.length + m.stats.evictions + replaced

section Steps

variable {capacity lookups found puts replaced : Nat}

omit [DecidableEq κ] in
theorem books_empty (capacity : Nat) : (empty capacity : Memo κ α).Books capacity 0 0 0 0 where
  capacity_eq := rfl
  length_le := Nat.zero_le _
  nodup := List.nodup_nil
  hits_eq := rfl
  lookups_eq := rfl
  inserts_eq := rfl
  balance := rfl

omit [DecidableEq κ] in
theorem Books.room (h : m.Books capacity lookups found puts replaced) : 0 < m.capacity := by
  rw [h.capacity_eq]
  omega

omit [DecidableEq κ] in
theorem Books.missed (h : m.Books capacity lookups found puts replaced) :
    m.missed.Books capacity (lookups + 1) found puts replaced :=
  { h with lookups_eq := by rw [← h.lookups_eq]; rfl }

theorem Books.get_found (h : m.Books capacity lookups found puts replaced) (hkey : key ∈ m.keys) :
    (m.get key).2.Books capacity (lookups + 1) (found + 1) puts replaced := by
  obtain ⟨value, hvalue⟩ := exists_lookup hkey
  have hlength : ((key, value) :: m.others key).length = m.entries.length :=
    length_others h.nodup hkey
  simp only [Memo.get, hvalue]
  refine ⟨h.capacity_eq, ?_, nodup_front h.nodup key value, ?_, ?_, h.inserts_eq, ?_⟩
  · rw [hlength]
    exact h.length_le
  · rw [h.hits_eq]
  · have hlookups := h.lookups_eq
    simp only
    omega
  · rw [hlength]
    exact h.balance

theorem Books.insert (h : m.Books capacity lookups found puts replaced) (key : κ) (value : α) :
    (m.insert key value).Books capacity lookups found (puts + 1)
      (replaced + if key ∈ m.keys then 1 else 0) := by
  rw [insert_eq_push h.room]
  refine ⟨h.capacity_eq, length_push_le h.nodup h.room h.length_le key value,
    nodup_push h.nodup h.room key value, h.hits_eq, h.lookups_eq, ?_, ?_⟩
  · rw [h.inserts_eq]
  · have hlength := length_push h.nodup h.room key value
    have hbalance := h.balance
    simp only
    omega

/-! ### Runs -/

theorem get_missed (hkey : key ∉ m.keys) : m.get key = (none, m.missed) := by
  simp [Memo.get, lookup_eq_none hkey, missed]

theorem fetch_found (hkey : key ∈ m.keys) (compute : Unit → Except ε α) :
    (m.fetch key compute).2 = (m.get key).2 := by
  obtain ⟨value, hvalue⟩ := exists_lookup hkey
  simp [fetch, through, Memo.get, hvalue]

/-- Where the key is not held the computation decides. A failure leaves no more than a miss. -/
theorem fetch_missed (hkey : key ∉ m.keys) (compute : Unit → Except ε α) :
    m.fetch key compute =
      (compute (), match compute () with
        | .ok value => m.missed.insert key value
        | .error _ => m.missed) := by
  simp only [fetch, through, id, get_missed hkey]
  cases compute () <;> rfl

/-- What an action does is entered in the books. -/
theorem Books.act (h : m.Books capacity lookups found puts replaced) (a : Action κ α ε) :
    (m.act a).Books capacity (lookups + if a.looksUp then 1 else 0)
      (found + if a.finds m then 1 else 0) (puts + if a.puts m then 1 else 0)
      (replaced + if a.replaces m then 1 else 0) := by
  cases a with
  | get key =>
    by_cases hkey : key ∈ m.keys
    · simpa [Memo.act, hkey] using h.get_found hkey
    · simpa [Memo.act, hkey, get_missed hkey] using h.missed
  | insert key value =>
    have hinsert := h.insert key value
    by_cases hkey : key ∈ m.keys <;> simpa [Memo.act, hkey] using hinsert
  | fetch key compute =>
    by_cases hkey : key ∈ m.keys
    · simpa [Memo.act, hkey, fetch_found hkey] using h.get_found hkey
    · cases hcompute : compute () with
      | error e =>
        simpa [Memo.act, hkey, fetch_missed hkey, hcompute, Except.isOk, Except.toBool]
          using h.missed
      | ok value =>
        -- A miss and then an insertion, into a memory that holds the same keys.
        have hinsert := h.missed.insert key value
        rw [if_neg (show key ∉ m.missed.keys from hkey)] at hinsert
        simpa [Memo.act, hkey, fetch_missed hkey, hcompute, Except.isOk, Except.toBool]
          using hinsert

theorem Books.run (h : m.Books capacity lookups found puts replaced)
    (actions : List (Action κ α ε)) :
    (m.run actions).Books capacity (lookups + actions.countP Action.looksUp)
      (found + tally Action.finds m actions) (puts + tally Action.puts m actions)
      (replaced + tally Action.replaces m actions) := by
  induction actions generalizing m lookups found puts replaced with
  | nil => exact h
  | cons a actions ih =>
    have hrest := ih (h.act a)
    simp only [Nat.add_assoc] at hrest
    rw [List.countP_cons, Nat.add_comm (actions.countP _)]
    exact hrest

end Steps

/-- After any run from an empty memory the books are right. There are no more entries than there is
room for, each under a key of its own; a lookup is a hit just if its key was held; every value put
in is still there, was evicted, or came in place of one under its key. A computation that fails is
counted as a miss and leaves no other trace. -/
theorem run_balanced (capacity : Nat) (actions : List (Action κ α ε)) :
    let start : Memo κ α := empty capacity
    let m := start.run actions
    m.entries.length ≤ max capacity 1 ∧ m.keys.Nodup ∧
      m.stats.hits = tally Action.finds start actions ∧
      m.stats.hits + m.stats.misses = actions.countP Action.looksUp ∧
      m.stats.inserts = tally Action.puts start actions ∧
      m.stats.inserts =
        m.entries.length + m.stats.evictions + tally Action.replaces start actions ∧
      ∀ (key : κ) (compute : Unit → Except ε α) (e : ε), key ∉ m.keys → compute () = .error e →
        m.fetch key compute = (.error e, m.missed) := by
  intro start m
  have hbooks := (books_empty (κ := κ) (α := α) capacity).run actions
  simp only [Nat.zero_add] at hbooks
  refine ⟨?_, hbooks.nodup, hbooks.hits_eq, hbooks.lookups_eq, hbooks.inserts_eq, hbooks.balance,
    ?_⟩
  · rw [← hbooks.capacity_eq]
    exact hbooks.length_le
  · intro key compute e hkey hcompute
    rw [fetch_missed hkey, hcompute]

/-- A run with a replacement, a computed value, a hit, a failed computation and an eviction. -/
def mixedActions : List (Action Nat Nat String) :=
  [.insert 1 10, .insert 1 11, .fetch 2 fun _ => .ok 20, .get 1, .fetch 3 fun _ => .error "down",
    .insert 3 30]

theorem run_balanced_mixed :
    let m : Memo Nat Nat := (empty 2).run mixedActions
    m.stats = ⟨1, 2, 4, 1⟩ ∧ m.keys = [3, 1] ∧
      m.stats.inserts = m.entries.length + m.stats.evictions + 1 ∧
      2 ∉ m.keys ∧ m.fetch 2 (fun _ => .error "down") = (.error "down", m.missed) := by
  obtain ⟨_, _, _, _, _, hbalance, hfailed⟩ := run_balanced 2 mixedActions
  exact ⟨by decide, by decide, hbalance.trans (by decide), by decide,
    hfailed 2 _ "down" (by decide) rfl⟩

end CodeAtlas.Memo
