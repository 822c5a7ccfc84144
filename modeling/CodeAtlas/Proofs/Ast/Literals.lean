import CodeAtlas.Ast.Literals
import CodeAtlas.Proofs.Ast.Rendering
import CodeAtlas.Proofs.Json.Places
import Mathlib.Data.List.Forall2
import Mathlib.Data.List.Perm.Basic

/-! Two walks for literals. A flat node is searched by its properties and then by its parts, a value
by its members as they come; both stop at a literal. They find the same literals, one for each
object that is a literal and not inside of another one. -/
namespace CodeAtlas.Ast

open Json

/-! ### Literals in a value -/

/-- Whether a value is a node of the kind of literals. -/
def isLiteral (v : Json) : Bool := (v.member? "nodeType").bind Json.text? = some "Literal"

/-- An object that is a literal has a description of its type. -/
def TypedLiteral (members : List (String × Json)) : Prop :=
  isLiteral (.obj members) = true → (members.lookup "typeDescriptions").isSome = true

/-- The text at a place. -/
def textAt? (v : Json) (place : Json.Place) : Option String := (v.at? place).bind Json.text?

/-- A literal stands at a place, and it is not inside of another one. -/
structure OutermostLiteral (v : Json) (place : Json.Place) : Prop where
  literal : ∃ w, v.at? place = some w ∧ isLiteral w = true
  outermost : ∀ outer w, outer <+: place → outer ≠ place → v.at? outer = some w →
    isLiteral w = false

/-- A literal has the texts that stand at a place. -/
structure StatesLiteral (v : Json) (place : Json.Place) (l : Literal) : Prop where
  token : l.token = textAt? v (place ++ [.member "kind"])
  subType : l.subType = textAt? v (place ++ [.member "typeDescriptions", .member "typeString"])
  value : l.value = textAt? v (place ++ [.member "value"])
  hexValue : l.hexValue = textAt? v (place ++ [.member "hexValue"])

/-- Literals are those at some places, and the places are those of the outermost literals. -/
structure LiteralsAt (v : Json) (places : List Json.Place) (literals : List Literal) : Prop where
  nodup : places.Nodup
  mem_iff : ∀ place, place ∈ places ↔ OutermostLiteral v place
  states : List.Forall₂ (StatesLiteral v) places literals

variable {v w : Json} {step : Json.Step} {place : Json.Place} {l : Literal}
  {members : List (String × Json)} {items : List Json} {nodes : List Node} {n : Node} {kind : String}

theorem outermostLiteral_nil : OutermostLiteral v [] ↔ isLiteral v = true := by
  constructor
  · rintro ⟨⟨w, hw, hliteral⟩, _⟩
    cases hw
    exact hliteral
  · intro h
    refine ⟨⟨v, rfl, h⟩, fun outer w houter hne _ => ?_⟩
    exact absurd (List.prefix_nil.1 houter) hne

theorem outermostLiteral_cons :
    OutermostLiteral v (step :: place) ↔
      isLiteral v = false ∧ ∃ w, v.children.lookup step = some w ∧ OutermostLiteral w place := by
  constructor
  · rintro ⟨⟨u, hu, hliteral⟩, houtermost⟩
    obtain ⟨w, hw, hu⟩ := Option.bind_eq_some_iff.1 hu
    refine ⟨houtermost [] v List.nil_prefix (by simp) rfl, w, hw, ⟨u, hu, hliteral⟩, ?_⟩
    intro outer x houter hne hx
    apply houtermost (step :: outer) x (List.cons_prefix_cons.2 ⟨rfl, houter⟩) (by simpa using hne)
    rw [at?, hw]
    exact hx
  · rintro ⟨hv, w, hw, ⟨u, hu, hliteral⟩, houtermost⟩
    refine ⟨⟨u, ?_, hliteral⟩, ?_⟩
    · rw [at?, hw]
      exact hu
    · intro outer x houter hne hx
      cases outer with
      | nil =>
        cases hx
        exact hv
      | cons first outer =>
        obtain ⟨rfl, hrest⟩ := List.cons_prefix_cons.1 houter
        rw [at?, hw] at hx
        exact houtermost outer x hrest (by simpa using hne) hx

theorem textAt?_cons (hw : v.children.lookup step = some w) :
    textAt? v (step :: place) = textAt? w place := by
  rw [textAt?, at?, hw]
  rfl

theorem textAt?_member (v : Json) (key : String) :
    textAt? v [.member key] = (v.member? key).bind Json.text? := by
  rw [textAt?, at?, lookup_children_member]
  cases v.member? key with
  | none => rfl
  | some w => rfl

theorem StatesLiteral.cons (h : StatesLiteral w place l) (hw : v.children.lookup step = some w) :
    StatesLiteral v (step :: place) l where
  token := by rw [h.token, List.cons_append, textAt?_cons hw]
  subType := by rw [h.subType, List.cons_append, textAt?_cons hw]
  value := by rw [h.value, List.cons_append, textAt?_cons hw]
  hexValue := by rw [h.hexValue, List.cons_append, textAt?_cons hw]

theorem statesLiteral_of_flatLiteral? (h : flatLiteral? members = some l) :
    StatesLiteral (.obj members) [] l := by
  obtain ⟨types, htypes, rfl⟩ := Option.map_eq_some_iff.1 h
  have hstep : (Json.obj members).children.lookup (.member "typeDescriptions") = some types := by
    rw [lookup_children_member]
    exact htypes
  constructor
  · rw [List.nil_append, textAt?_member]
    rfl
  · rw [List.nil_append, textAt?_cons hstep, textAt?_member]
    rfl
  · rw [List.nil_append, textAt?_member]
    rfl
  · rw [List.nil_append, textAt?_member]
    rfl

theorem exists_flatLiteral? (htyped : TypedLiteral members) (h : isLiteral (.obj members) = true) :
    ∃ l, flatLiteral? members = some l := by
  obtain ⟨types, htypes⟩ := Option.isSome_iff_exists.1 (htyped h)
  exact ⟨_, Option.map_eq_some_iff.2 ⟨types, htypes, rfl⟩⟩

/-! ### The walk through a value -/

theorem literalsInItems_eq (items : List Json) :
    literalsInItems items = items.flatMap literalsIn := by
  induction items with
  | nil => rfl
  | cons v items ih => rw [literalsInItems, ih, List.flatMap_cons]

theorem literalsInMembers_eq (members : List (String × Json)) :
    literalsInMembers members = members.flatMap fun m => literalsIn m.2 := by
  induction members with
  | nil => rfl
  | cons m members ih => rw [literalsInMembers, ih, List.flatMap_cons]

theorem literalsIn_of_literal (h : isLiteral (.obj members) = true) :
    literalsIn (.obj members) = (flatLiteral? members).toList := by
  have hkind : (members.lookup "nodeType").bind Json.text? = some "Literal" := of_decide_eq_true h
  rw [literalsIn, if_pos hkind]

theorem literalsIn_obj_of_not_literal (h : isLiteral (.obj members) = false) :
    literalsIn (.obj members) = members.flatMap fun m => literalsIn m.2 := by
  have hkind : ¬ (members.lookup "nodeType").bind Json.text? = some "Literal" :=
    of_decide_eq_false h
  rw [literalsIn, if_neg hkind, literalsInMembers_eq]

/-- A value that is no literal is searched part by part. -/
theorem literalsIn_of_not_literal (h : isLiteral v = false) :
    literalsIn v = v.children.flatMap fun c => literalsIn c.2 := by
  cases v with
  | arr items =>
    have hitems : items = items.zipIdx.map (·.1) := (List.zipIdx_map_fst 0 items).symm
    rw [literalsIn, literalsInItems_eq, children, List.flatMap_map]
    conv => lhs; rw [hitems, List.flatMap_map]
  | obj members => rw [literalsIn_obj_of_not_literal h, children, List.flatMap_map]
  | _ => rfl

theorem forall₂_flatMap {α β γ : Type} {R : β → γ → Prop} {xs : List α} {f : α → List β}
    {g : α → List γ} (h : ∀ a ∈ xs, List.Forall₂ R (f a) (g a)) :
    List.Forall₂ R (xs.flatMap f) (xs.flatMap g) := by
  induction xs with
  | nil => exact .nil
  | cons a xs ih =>
    obtain ⟨ha, hrest⟩ := List.forall_mem_cons.1 h
    rw [List.flatMap_cons, List.flatMap_cons]
    exact List.rel_append ha (ih hrest)

theorem literalsAt_of_literal (htyped : v.Everywhere TypedLiteral) (h : isLiteral v = true) :
    LiteralsAt v [[]] (literalsIn v) := by
  cases v with
  | obj members =>
    obtain ⟨l, hl⟩ := exists_flatLiteral? (htyped [] members rfl) h
    rw [literalsIn_of_literal h, hl]
    refine ⟨List.nodup_singleton _, fun place => ?_, ?_⟩
    · cases place with
      | nil => simp [outermostLiteral_nil, h]
      | cons step place => simp [outermostLiteral_cons, h]
    · exact .cons (statesLiteral_of_flatLiteral? hl) .nil
  | _ => simp [isLiteral, member?] at h

/-- The places of a value that is no literal are those of its parts, one step further away. -/
theorem literalsAt_of_children (hkeys : v.Everywhere DistinctKeys) (hv : isLiteral v = false)
    {places : Json.Step × Json → List Json.Place}
    (h : ∀ c ∈ v.children, LiteralsAt c.2 (places c) (literalsIn c.2)) :
    LiteralsAt v (v.children.flatMap fun c => (places c).map (c.1 :: ·)) (literalsIn v) where
  nodup := by
    rw [List.nodup_flatMap]
    constructor
    · exact fun c hc => (h c hc).nodup.map fun _ _ => List.tail_eq_of_cons_eq
    · refine (List.pairwise_map.1 (nodup_children hkeys)).imp fun {c d} hne place hc hd => ?_
      obtain ⟨p, _, rfl⟩ := List.mem_map.1 hc
      obtain ⟨q, _, hq⟩ := List.mem_map.1 hd
      exact hne (List.head_eq_of_cons_eq hq).symm
  mem_iff place := by
    simp only [List.mem_flatMap, List.mem_map]
    cases place with
    | nil => simp [outermostLiteral_nil, hv]
    | cons step place =>
      rw [outermostLiteral_cons]
      constructor
      · rintro ⟨c, hc, p, hp, heq⟩
        cases heq
        exact ⟨hv, c.2, (lookup_children_iff hkeys).2 hc, ((h c hc).mem_iff place).1 hp⟩
      · rintro ⟨_, w, hw, hplace⟩
        have hc := (lookup_children_iff hkeys).1 hw
        exact ⟨(step, w), hc, place, ((h _ hc).mem_iff place).2 hplace, rfl⟩
  states := by
    rw [literalsIn_of_not_literal hv]
    refine forall₂_flatMap fun c hc => ?_
    rw [List.forall₂_map_left_iff]
    exact (h c hc).states.imp fun _ _ hl => hl.cons ((lookup_children_iff hkeys).2 hc)

theorem exists_literalsAt (hkeys : v.Everywhere DistinctKeys) (htyped : v.Everywhere TypedLiteral) :
    ∃ places, LiteralsAt v places (literalsIn v) := by
  induction v using Json.induction_on_parts with
  | parts v ih =>
    cases hv : isLiteral v with
    | true => exact ⟨_, literalsAt_of_literal htyped hv⟩
    | false =>
      have hparts : ∀ c ∈ v.children, ∃ places, LiteralsAt c.2 places (literalsIn c.2) :=
        fun c hc => ih c hc (hkeys.child hkeys hc) (htyped.child hkeys hc)
      choose! places hplaces using hparts
      exact ⟨_, literalsAt_of_children hkeys hv hplaces⟩

/-! ### The walk through a node -/

namespace Node

theorem literalsOfAll_eq (nodes : List Node) : literalsOfAll nodes = nodes.flatMap literals := by
  induction nodes with
  | nil => rfl
  | cons n nodes ih => rw [literalsOfAll, ih, List.flatMap_cons]

theorem isLiteral_obj (h : required? "nodeType" Json.text? members = some kind) :
    isLiteral (.obj members) = (kind == "Literal") := by
  have hkind : (member? "nodeType" (.obj members)).bind Json.text? = some kind := h
  rw [Bool.eq_iff_iff, isLiteral, hkind]
  simp

/-- What a literal is made of are no fields of its node. -/
theorem flatLiteral?_properties (members : List (String × Json)) :
    flatLiteral? (members.filter fun m => !flatKeys.contains m.1) = flatLiteral? members := by
  have hlookup (key : String) (h : (!flatKeys.contains key) = true) :
      (members.filter fun m => !flatKeys.contains m.1).lookup key = members.lookup key :=
    lookup_filter (p := fun key => !flatKeys.contains key) h members
  simp only [flatLiteral?, literalWith]
  rw [hlookup "typeDescriptions" (by decide), hlookup "kind" (by decide),
    hlookup "value" (by decide), hlookup "hexValue" (by decide)]

theorem literalsIn_of_text? {t : String} (h : v.text? = some t) : literalsIn v = [] := by
  cases v with
  | str s => rfl
  | _ => cases h

theorem literalsIn_of_optional? {α : Type} {key : String} {f : Json → Option α} {x : Option α}
    (hf : ∀ v a, f v = some a → literalsIn v = []) (h : optional? key f members = some x)
    (hv : members.lookup key = some v) : literalsIn v = [] := by
  simp only [optional?, defaulting?, hv] at h
  cases v with
  | null => rfl
  | _ =>
    obtain ⟨a, ha, _⟩ := Option.map_eq_some_iff.1 h
    exact hf _ a ha

/-- The fields of a node other than its parts hold no literals. -/
theorem literalsIn_of_field {id : Option Int} {src : Option String}
    (hkeys : DistinctKeys members) (hkind : required? "nodeType" Json.text? members = some kind)
    (hid : optional? "id" integer? members = some id)
    (hsrc : optional? "src" Json.text? members = some src) {m : String × Json} (hm : m ∈ members)
    (hfield : flatKeys.contains m.1 = true) (hne : m.1 ≠ "nodes") : literalsIn m.2 = [] := by
  obtain ⟨key, v⟩ := m
  have hv : members.lookup key = some v := (lookup_eq_some_iff_mem (unique_of_nodup hkeys)).2 hm
  have hcases : key = "nodeType" ∨ key = "id" ∨ key = "src" := by
    simpa [flatKeys, hne] using hfield
  rcases hcases with rfl | rfl | rfl
  · rw [required?, hv] at hkind
    exact literalsIn_of_text? hkind
  · refine literalsIn_of_optional? (fun w a h => ?_) hid hv
    cases w with
    | int i => rfl
    | _ => cases h
  · exact literalsIn_of_optional? (fun w a => literalsIn_of_text?) hsrc hv

theorem flatMap_filter_of_nil {α β : Type} {p : α → Bool} {g : α → List β} {xs : List α}
    (h : ∀ a ∈ xs, p a = false → g a = []) : (xs.filter p).flatMap g = xs.flatMap g := by
  induction xs with
  | nil => rfl
  | cons a xs ih =>
    obtain ⟨ha, hrest⟩ := List.forall_mem_cons.1 h
    cases hp : p a with
    | true => rw [List.filter_cons_of_pos hp, List.flatMap_cons, List.flatMap_cons, ih hrest]
    | false =>
      rw [List.filter_cons_of_neg (by simp [hp]), List.flatMap_cons, ha hp, List.nil_append,
        ih hrest]

theorem filter_properties (members : List (String × Json)) :
    (members.filter fun m => !flatKeys.contains m.1) =
      (members.filter fun m => !(m.1 == "nodes")).filter fun m => !flatKeys.contains m.1 := by
  rw [List.filter_filter]
  refine List.filter_congr fun m _ => ?_
  by_cases hm : m.1 = "nodes"
  · simp [hm, flatKeys]
  · simp [hm]

/-- The literals of an object are those of the properties and those of the parts. -/
theorem perm_properties_items {id : Option Int} {src : Option String}
    (hkeys : DistinctKeys members) (hkind : required? "nodeType" Json.text? members = some kind)
    (hid : optional? "id" integer? members = some id)
    (hsrc : optional? "src" Json.text? members = some src)
    (hitems : (members.lookup "nodes").getD (.arr []) = .arr items) :
    ((members.filter fun m => !flatKeys.contains m.1).flatMap (fun m => literalsIn m.2) ++
        items.flatMap literalsIn).Perm (members.flatMap fun m => literalsIn m.2) := by
  have hparts : (members.filter fun m => m.1 == "nodes").flatMap (fun m => literalsIn m.2) =
      items.flatMap literalsIn := by
    rw [filter_key_of_nodup hkeys, ← literalsInItems_eq]
    cases hnodes : members.lookup "nodes" with
    | none =>
      rw [hnodes] at hitems
      cases hitems
      rfl
    | some v =>
      rw [hnodes] at hitems
      cases hitems
      simp [literalsIn]
  have hproperties : (members.filter fun m => !flatKeys.contains m.1).flatMap
      (fun m => literalsIn m.2) =
      (members.filter fun m => !(m.1 == "nodes")).flatMap fun m => literalsIn m.2 := by
    rw [filter_properties]
    refine flatMap_filter_of_nil fun m hm hfield => ?_
    obtain ⟨hm, hne⟩ := List.mem_filter.1 hm
    exact literalsIn_of_field hkeys hkind hid hsrc hm (by simpa using hfield) (by simpa using hne)
  rw [hproperties, ← hparts, ← List.flatMap_append]
  refine List.Perm.flatMap_right _ (List.perm_append_comm.trans ?_)
  exact List.filter_append_perm (fun m => m.1 == "nodes") members

theorem literals_of_literal {id : Option Int} {src : Option String}
    {properties : List (String × Json)} (h : flatLiteral? properties = some l) :
    literals ⟨.flat, "Literal", id, src, some properties, some nodes⟩ = [l] := by
  simp [literals, literal?, Node.is, h]

theorem literals_of_not_literal {id : Option Int} {src : Option String}
    {properties : List (String × Json)} (h : kind ≠ "Literal") :
    literals ⟨.flat, kind, id, src, some properties, some nodes⟩ =
      properties.flatMap (fun m => literalsIn m.2) ++ nodes.flatMap literals := by
  simp [literals, literal?, Node.is, h, propertyLiterals, literalsInMembers_eq, literalsOfAll_eq]

theorem forall₂_of_mapM {α β : Type} {f : α → Option β} {xs : List α} {ys : List β}
    (h : xs.mapM f = some ys) : List.Forall₂ (fun a b => f a = some b) xs ys := by
  induction xs generalizing ys with
  | nil =>
    cases h
    exact .nil
  | cons a xs ih =>
    rw [List.mapM_cons] at h
    obtain ⟨b, hb, h⟩ := Option.bind_eq_some_iff.1 h
    obtain ⟨rest, hrest, h⟩ := Option.bind_eq_some_iff.1 h
    cases h
    exact .cons hb (ih hrest)

theorem perm_flatMap_of_forall₂ {α β γ : Type} {f : α → List γ} {g : β → List γ} {xs : List α}
    {ys : List β} (h : List.Forall₂ (fun a b => (g b).Perm (f a)) xs ys) :
    (ys.flatMap g).Perm (xs.flatMap f) := by
  induction h with
  | nil => exact .nil
  | cons hab _ ih =>
    rw [List.flatMap_cons, List.flatMap_cons]
    exact hab.append ih

/-- The two steps to a part of a node. -/
theorem exists_steps {item : Json} (hitems : (members.lookup "nodes").getD (.arr []) = .arr items)
    (hitem : item ∈ items) :
    ∃ i, (.member "nodes", .arr items) ∈ (Json.obj members).children ∧
      (.item i, item) ∈ (Json.arr items).children := by
  obtain ⟨i, hi⟩ := exists_item hitem
  refine ⟨i, mem_children_of_lookup ?_, hi⟩
  cases hnodes : members.lookup "nodes" with
  | none =>
    rw [hnodes] at hitems
    cases hitems
    cases hitem
  | some w =>
    rw [hnodes] at hitems
    exact congrArg some hitems

/-- The walk through a node finds what the walk through its value finds. -/
theorem literals_perm_literalsIn (hkeys : v.Everywhere DistinctKeys)
    (htyped : v.Everywhere TypedLiteral) (h : ofFlat? v = some n) :
    n.literals.Perm (literalsIn v) := by
  induction hsize : sizeOf v using Nat.strongRecOn generalizing v n with
  | ind size ih =>
    subst hsize
    obtain ⟨members, kind, id, src, items, nodes, rfl, hkind, hid, hsrc, hitems, hnodes, rfl⟩ :=
      ofFlat?_eq_some h
    by_cases hliteral : kind = "Literal"
    · subst hliteral
      have hobj : isLiteral (.obj members) = true := isLiteral_obj hkind
      obtain ⟨l, hl⟩ := exists_flatLiteral? (htyped [] members rfl) hobj
      have hproperties := (flatLiteral?_properties members).trans hl
      rw [literalsIn_of_literal hobj, hl, literals_of_literal hproperties]
      exact .refl _
    · have hobj : isLiteral (.obj members) = false := by
        simpa [isLiteral_obj hkind] using hliteral
      have hpart (item : Json) (part : Node) (hitem : item ∈ items)
          (hdecoded : ofFlat? item = some part) : part.literals.Perm (literalsIn item) := by
        -- a part is two steps away, so it is smaller and the walks agree on it
        obtain ⟨i, hlist, hi⟩ := exists_steps hitems hitem
        have hsmaller := Nat.lt_trans (sizeOf_child_lt hi) (sizeOf_child_lt hlist)
        have hkeysList := hkeys.child hkeys hlist
        have htypedList := htyped.child hkeys hlist
        exact ih _ hsmaller (hkeysList.child hkeysList hi) (htypedList.child hkeysList hi)
          hdecoded rfl
      have hparts : (nodes.flatMap literals).Perm (items.flatMap literalsIn) := by
        apply perm_flatMap_of_forall₂
        have hall := (List.forall₂_and_left items nodes).2 ⟨fun _ h => h, forall₂_of_mapM hnodes⟩
        exact hall.imp fun item part ⟨hitem, hdecoded⟩ => hpart item part hitem hdecoded
      rw [literals_of_not_literal hliteral, literalsIn_obj_of_not_literal hobj]
      exact (hparts.append_left _).trans
        (perm_properties_items (hkeys [] members rfl) hkind hid hsrc hitems)

/-- A decoded node is searched for what its value is searched for: for the outermost literals of the
value, each of them once. -/
theorem literals_perm_outermost (v : Json) (n : Node) (hkeys : v.Everywhere DistinctKeys)
    (htyped : v.Everywhere TypedLiteral) (h : ofFlat? v = some n) :
    n.literals.Perm (literalsIn v) ∧ ∃ places, LiteralsAt v places (literalsIn v) :=
  ⟨literals_perm_literalsIn hkeys htyped h, exists_literalsAt hkeys htyped⟩

/-- A number with one more member. -/
def numberLiteral (digits : String) (inner : Json) : Json :=
  .obj [("nodeType", .str "Literal"), ("kind", .str "number"), ("value", .str digits),
    ("typeDescriptions", .obj [("typeString", .str ("int_const " ++ digits))]), ("inner", inner)]

/-- A number, decoded. -/
def numberNode (digits : String) (inner : Json) : Node :=
  ⟨.flat, "Literal", none, none, some [("kind", .str "number"), ("value", .str digits),
    ("typeDescriptions", .obj [("typeString", .str ("int_const " ++ digits))]), ("inner", inner)],
    some []⟩

theorem ofFlat?_numberLiteral (digits : String) (inner : Json) :
    ofFlat? (numberLiteral digits inner) = some (numberNode digits inner) :=
  ofFlat?_obj rfl rfl rfl rfl rfl

/-- A number among the parts, and after them a number in a property with another one inside. -/
def numbersBlock : Json :=
  .obj [("nodeType", .str "Block"), ("nodes", .arr [numberLiteral "7" .null]),
    ("expression", numberLiteral "2" (numberLiteral "3" .null))]

/-- The keys of an object are distinct, and it has a type if it is a literal. -/
def Regular (members : List (String × Json)) : Prop := DistinctKeys members ∧ TypedLiteral members

theorem regular_numberLiteral (digits : String) {inner : Json} (h : inner.Everywhere Regular) :
    (numberLiteral digits inner).Everywhere Regular := by
  have htypes : Everywhere Regular (.obj [("typeString", .str ("int_const " ++ digits))]) := by
    refine everywhere_obj ⟨List.nodup_singleton _, fun hliteral => by cases hliteral⟩ ?_
    simp [everywhere_str]
  refine everywhere_obj ⟨?_, fun _ => rfl⟩ (by simp [everywhere_str, htypes, h])
  show ["nodeType", "kind", "value", "typeDescriptions", "inner"].Nodup
  decide

theorem regular_numbersBlock : numbersBlock.Everywhere Regular := by
  have hitems : Everywhere Regular (.arr [numberLiteral "7" .null]) := by
    refine everywhere_of_children (fun _ h => by cases h) fun c hc => ?_
    cases List.mem_singleton.1 hc
    exact regular_numberLiteral "7" everywhere_null
  have hexpression := regular_numberLiteral "2" (regular_numberLiteral "3" everywhere_null)
  refine everywhere_obj ⟨?_, fun h => by cases h⟩ (by simp [everywhere_str, hitems, hexpression])
  show ["nodeType", "nodes", "expression"].Nodup
  decide

theorem literals_perm_outermost_numbers :
    numbersBlock.Everywhere DistinctKeys ∧ numbersBlock.Everywhere TypedLiteral ∧
      ∃ n, ofFlat? numbersBlock = some n ∧
        n.literals.map (·.value) = [some "2", some "7"] ∧
        (literalsIn numbersBlock).map (·.value) = [some "7", some "2"] ∧
        n.literals.Perm (literalsIn numbersBlock) ∧
        ∃ places, LiteralsAt numbersBlock places (literalsIn numbersBlock) := by
  have hkeys : numbersBlock.Everywhere DistinctKeys :=
    fun place members h => (regular_numbersBlock place members h).1
  have htyped : numbersBlock.Everywhere TypedLiteral :=
    fun place members h => (regular_numbersBlock place members h).2
  have hparts : [numberLiteral "7" .null].mapM ofFlat? = some [numberNode "7" .null] := by
    simp [ofFlat?_numberLiteral]
  have hdecoded := show ofFlat? numbersBlock = some _ from ofFlat?_obj rfl rfl rfl rfl hparts
  exact ⟨hkeys, htyped, _, hdecoded, rfl, rfl,
    literals_perm_outermost numbersBlock _ hkeys htyped hdecoded⟩

end Node

end CodeAtlas.Ast
