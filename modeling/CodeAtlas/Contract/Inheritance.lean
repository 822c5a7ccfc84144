import CodeAtlas.Contract.Basic
import Std.Data.ExtTreeMap

/-! Inheritance: the ancestors of a contract, and the members that it takes from them. -/
namespace CodeAtlas

/-- Contracts by identity. -/
abbrev Contracts := Std.ExtTreeMap Int Contract

theorem countP_notMem_cons_le (ids seen : List Int) (id : Int) :
    ids.countP (· ∉ id :: seen) ≤ ids.countP (· ∉ seen) := by
  apply List.countP_mono_left
  intro a _ h
  simp_all

/-- Seeing one more of the identities leaves fewer of them unseen. -/
theorem countP_notMem_cons_lt {ids seen : List Int} {id : Int} (hid : id ∈ ids)
    (hseen : id ∉ seen) : ids.countP (· ∉ id :: seen) < ids.countP (· ∉ seen) := by
  induction ids with
  | nil => simp at hid
  | cons a ids ih =>
    have hle := countP_notMem_cons_le ids seen id
    simp only [List.countP_cons]
    by_cases ha : a = id
    · subst ha
      simp [hseen] at hle ⊢
      omega
    · have hlt := ih (by simp_all [eq_comm])
      by_cases hs : a ∈ seen <;> simp_all

namespace Contracts

/-- The contracts reached from the identities in a queue, breadth first and each once. Identities
seen before and identities without a contract are passed over. -/
def reach (contracts : Contracts) (seen : List Int) : (queue : List Int) → List Int
  | [] => []
  | id :: queue =>
    if id ∈ seen then reach contracts seen queue
    else
      match _found : contracts[id]? with
      | none => reach contracts (id :: seen) queue
      | some c => id :: reach contracts (id :: seen) (queue ++ c.bases)
termination_by queue => (contracts.keys.countP (· ∉ seen), queue.length)
decreasing_by
  · exact Prod.Lex.right _ (by simp)
  · exact Prod.Lex.right' _ (countP_notMem_cons_le _ _ _) (by simp)
  · have hmem : id ∈ contracts := by
      rw [Std.ExtTreeMap.mem_iff_isSome_getElem?, _found]
      rfl
    exact Prod.Lex.left _ _ (countP_notMem_cons_lt (Std.ExtTreeMap.mem_keys.2 hmem) ‹_›)

def bases (contracts : Contracts) (id : Int) : List Int := contracts[id]?.elim [] (·.bases)

/-- The ancestors of a contract: its bases, their bases and so on, nearest first and each once. -/
def ancestors (contracts : Contracts) (id : Int) : List Int :=
  contracts.reach [id] (contracts.bases id)

end Contracts

/-- A variable as inherited from a contract. -/
def StateVar.inherited (origin : String) (v : StateVar) : StateVar :=
  { v with inheritedFrom := some origin }

def Method.inherited (origin : String) (m : Method) : Method := { m with inheritedFrom := some origin }

/-- The variables that a contract declares itself, as an heir has them. -/
def Contract.bequestFields (c : Contract) : List StateVar :=
  (c.fields.filter (·.inheritedFrom.isNone)).map (StateVar.inherited c.name)

def Contract.bequestMethods (c : Contract) : List Method :=
  (c.methods.filter (·.inheritedFrom.isNone)).map (Method.inherited c.name)

/-- The contract with the members that some others leave it. -/
def Contract.inheriting (c : Contract) (ancestors : List Contract) : Contract :=
  { c with
    fields := c.fields ++ ancestors.flatMap Contract.bequestFields
    methods := c.methods ++ ancestors.flatMap Contract.bequestMethods }

namespace Contracts

def select (contracts : Contracts) (ids : List Int) : List Contract :=
  ids.filterMap fun id => contracts[id]?

/-- Gives every contract the members that its ancestors declare. What a contract leaves to its heirs
is what it declares itself, so the order in which contracts are served does not matter. -/
def resolve (contracts : Contracts) : Contracts :=
  contracts.map fun id c => c.inheriting (contracts.select (contracts.ancestors id))

end Contracts
end CodeAtlas
