/-! Memory of bounded size for computed values: the entries used least recently make room. -/
namespace CodeAtlas

/-- What a memory has been through. -/
structure MemoStats where
  hits : Nat := 0
  misses : Nat := 0
  inserts : Nat := 0
  evictions : Nat := 0
  deriving DecidableEq, Repr

/-- Remembered values by key, the most recently used first. -/
structure Memo (κ α : Type) where
  capacity : Nat
  entries : List (κ × α) := []
  stats : MemoStats := {}
  deriving Repr

namespace Memo

variable {κ α σ ε : Type} [DecidableEq κ]

/-- An empty memory, with room for at least one entry. -/
def empty (capacity : Nat) : Memo κ α := { capacity := max capacity 1 }

def others (m : Memo κ α) (key : κ) : List (κ × α) := m.entries.filter (·.1 ≠ key)

/-- Looks a key up; a value that is found counts as used. -/
def get (m : Memo κ α) (key : κ) : Option α × Memo κ α :=
  match m.entries.lookup key with
  | some value =>
    (some value,
      { m with
        entries := (key, value) :: m.others key
        stats := { m.stats with hits := m.stats.hits + 1 } })
  | none => (none, { m with stats := { m.stats with misses := m.stats.misses + 1 } })

/-- Remembers a value. It replaces one under the same key; otherwise, when there is no room, the
entry used least recently is dropped. -/
def insert (m : Memo κ α) (key : κ) (value : α) : Memo κ α :=
  let stats := { m.stats with inserts := m.stats.inserts + 1 }
  if (m.entries.lookup key).isSome then
    { m with entries := (key, value) :: m.others key, stats }
  else if m.entries.length < m.capacity then
    { m with entries := (key, value) :: m.entries, stats }
  else
    { m with
      entries := (key, value) :: m.entries.dropLast
      stats := { stats with evictions := stats.evictions + 1 } }

/-- The value under a key in a memory that is part of a state: remembered, or computed and then
remembered. A failure is not remembered. -/
def through (view : σ → Memo κ α) (put : Memo κ α → σ → σ) (key : κ)
    (compute : σ → Except ε α × σ) (s : σ) : Except ε α × σ :=
  match (view s).get key with
  | (some value, m) => (.ok value, put m s)
  | (none, m) =>
    match compute (put m s) with
    | (.ok value, s) => (.ok value, put ((view s).insert key value) s)
    | (.error e, s) => (.error e, s)

/-- The value under a key: remembered, or computed and then remembered. -/
def fetch (m : Memo κ α) (key : κ) (compute : Unit → Except ε α) : Except ε α × Memo κ α :=
  through id (fun m _ => m) key (fun m => (compute (), m)) m

end Memo
end CodeAtlas
