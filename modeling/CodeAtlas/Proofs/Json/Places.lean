import CodeAtlas.Json.Decode
import CodeAtlas.Proofs.Lookup
import Mathlib.Data.List.Nodup

/-! Places in a value. A value is a tree: each step leads to an element of an array or to a member
of an object, and a place is the steps that lead there. Where no object repeats a key, no two parts
of a value stand at one place. -/
namespace CodeAtlas.Json

/-- One step into a value. -/
inductive Step where
  | item (index : Nat)
  | member (key : String)
  deriving DecidableEq

/-- The steps to a part of a value. -/
abbrev Place := List Step

/-- The parts one step away. -/
def children : Json → List (Step × Json)
  | arr items => items.zipIdx.map fun e => (.item e.2, e.1)
  | obj members => members.map fun m => (.member m.1, m.2)
  | _ => []

/-- The part at a place. -/
def at? : Place → Json → Option Json
  | [], v => some v
  | step :: place, v => (v.children.lookup step).bind (at? place)

/-- All objects in a value have a property. -/
def Everywhere (P : List (String × Json) → Prop) (v : Json) : Prop :=
  ∀ place members, v.at? place = some (obj members) → P members

/-- No key is repeated. -/
def DistinctKeys (members : List (String × Json)) : Prop := (members.map (·.1)).Nodup

variable {v w : Json} {step : Step} {place : Place} {key : String}
  {members : List (String × Json)} {items : List Json} {c : Step × Json}
  {P : List (String × Json) → Prop}

theorem sizeOf_child_lt (h : c ∈ v.children) : sizeOf c.2 < sizeOf v := by
  cases v with
  | arr items =>
    obtain ⟨⟨w, i⟩, hw, rfl⟩ := List.mem_map.1 h
    have hlt : sizeOf w < sizeOf items := List.sizeOf_lt_of_mem (List.fst_mem_of_mem_zipIdx hw)
    simp only [arr.sizeOf_spec]
    omega
  | obj members =>
    obtain ⟨m, hm, rfl⟩ := List.mem_map.1 h
    have hlt := sizeOf_snd_lt hm
    simp only [obj.sizeOf_spec]
    omega
  | _ => simp [children] at h

/-- What holds of a value whenever it holds of its parts holds of every value. -/
@[elab_as_elim]
theorem induction_on_parts {motive : Json → Prop}
    (parts : ∀ v, (∀ c ∈ v.children, motive c.2) → motive v) (v : Json) : motive v :=
  parts v fun c _ => induction_on_parts parts c.2
termination_by sizeOf v
decreasing_by exact sizeOf_child_lt ‹_›

theorem lookup_children_member (v : Json) (key : String) :
    v.children.lookup (.member key) = v.member? key := by
  cases v with
  | arr items =>
    show _ = none
    rw [List.lookup_eq_none_iff]
    intro c hc
    obtain ⟨e, _, rfl⟩ := List.mem_map.1 hc
    rfl
  | obj members =>
    rw [children, member?]
    induction members with
    | nil => rfl
    | cons m members ih =>
      obtain ⟨k, w⟩ := m
      by_cases hkey : key = k
      · simp [hkey]
      · have hne : (key == k) = false := by simpa using hkey
        have hstep : (Step.member key == Step.member k) = false := by simpa using hkey
        simpa only [List.map_cons, List.lookup_cons, hne, hstep] using ih
  | _ => rfl

theorem nodup_children (h : v.Everywhere DistinctKeys) : (v.children.map (·.1)).Nodup := by
  cases v with
  | arr items =>
    have hsteps : (arr items).children.map (·.1) = (items.zipIdx.map (·.2)).map Step.item := by
      rw [children, List.map_map, List.map_map]
      rfl
    rw [hsteps, List.zipIdx_map_snd]
    exact List.Nodup.map (fun _ _ => Step.item.inj) List.nodup_range'
  | obj members =>
    have hsteps : (obj members).children.map (·.1) = (members.map (·.1)).map Step.member := by
      rw [children, List.map_map, List.map_map]
      rfl
    rw [hsteps]
    exact List.Nodup.map (fun _ _ => Step.member.inj) (h [] members rfl)
  | _ => simp [children]

/-- A step leads to a part just when that is what stands there. -/
theorem lookup_children_iff (h : v.Everywhere DistinctKeys) :
    v.children.lookup step = some w ↔ (step, w) ∈ v.children :=
  lookup_eq_some_iff_mem (unique_of_nodup (nodup_children h))

theorem exists_item {item : Json} (h : item ∈ items) :
    ∃ i, (.item i, item) ∈ (arr items).children := by
  obtain ⟨i, hi, rfl⟩ := List.getElem_of_mem h
  refine ⟨i, List.mem_map.2 ⟨(items[i], i), ?_, rfl⟩⟩
  rw [List.mk_mem_zipIdx_iff_getElem?, List.getElem?_eq_getElem hi]

theorem mem_children_of_lookup (h : members.lookup key = some w) :
    (.member key, w) ∈ (obj members).children :=
  List.mem_map.2 ⟨(key, w), mem_of_lookup h, rfl⟩

theorem Everywhere.child (h : v.Everywhere P) (hkeys : v.Everywhere DistinctKeys)
    (hc : c ∈ v.children) : c.2.Everywhere P := by
  intro place members hplace
  apply h (c.1 :: place) members
  rw [at?, (lookup_children_iff hkeys).2 hc]
  exact hplace

/-- What holds of a value itself and everywhere in its parts holds everywhere in it. -/
theorem everywhere_of_children (hself : ∀ members, v = obj members → P members)
    (hparts : ∀ c ∈ v.children, c.2.Everywhere P) : v.Everywhere P := by
  intro place members hplace
  cases place with
  | nil => exact hself members (Option.some.inj hplace)
  | cons step place =>
    obtain ⟨w, hw, hplace⟩ := Option.bind_eq_some_iff.1 hplace
    exact hparts (step, w) (mem_of_lookup hw) place members hplace

theorem everywhere_null : Everywhere P null :=
  everywhere_of_children (fun _ h => by cases h) (fun _ h => by cases h)

theorem everywhere_str (s : String) : Everywhere P (str s) :=
  everywhere_of_children (fun _ h => by cases h) (fun _ h => by cases h)

theorem everywhere_obj (h : P members)
    (hparts : ∀ m ∈ members, Everywhere P m.2) : Everywhere P (obj members) := by
  refine everywhere_of_children (fun _ heq => by cases heq; exact h) fun c hc => ?_
  obtain ⟨m, hm, rfl⟩ := List.mem_map.1 hc
  exact hparts m hm

end CodeAtlas.Json
