import CodeAtlas.Proofs.Ast.Rendering

/-! What a function invokes before its body: modifiers and, if it is a constructor, the constructors
of bases. Both forms of tree tell them apart, the nested one by the type of what is invoked and the
flat one by the kind of the entry, but only the types are looked at when the modifiers are named. -/
namespace CodeAtlas.Ast

open Outline

/-- An invocation in the head of a function. -/
inductive Invocation where
  | modifier (name : String)
  | baseConstructor (name : String)
  deriving DecidableEq

namespace Invocation

/-- The name of what is invoked. -/
def name : Invocation → String
  | modifier name => name
  | baseConstructor name => name

/-- The name of the modifier, if one is invoked. -/
def modifier? : Invocation → Option String
  | modifier name => some name
  | baseConstructor _ => none

/-- How the type of what is invoked begins in a nested tree. -/
def typeStart : Invocation → String
  | modifier _ => "modifier"
  | baseConstructor _ => "type(contract"

/-- The kind of the entry in a flat tree. -/
def entryKind : Invocation → String
  | modifier _ => "modifierInvocation"
  | baseConstructor _ => "baseConstructorSpecifier"

end Invocation

theorem filterMap_of_forall₂ {α β γ : Type} {R : α → β → Prop} {f : α → Option γ}
    {g : β → Option γ} {xs : List α} {ys : List β} (h : List.Forall₂ R xs ys)
    (hR : ∀ a b, R a b → f a = g b) : xs.filterMap f = ys.filterMap g := by
  induction h with
  | nil => rfl
  | cons hab _ ih => rw [List.filterMap_cons, List.filterMap_cons, hR _ _ hab, ih]

namespace Node

variable {n : Node} {call : Invocation} {calls : List Invocation}

/-- The nested node of an invocation: its first part names what is invoked and has its type. -/
def Invokes (n : Node) (call : Invocation) : Prop :=
  ∃ target type, n.parts.head? = some target ∧ target.text? "value" = some call.name ∧
    target.text? "type" = some type ∧ Text.startsWith type call.typeStart = true

/-- The flat entry of an invocation. -/
structure IsEntry (v : Json) (call : Invocation) : Prop where
  kind : v.path? ["kind"] = some (.str call.entryKind)
  name : v.path? ["modifierName", "name"] = some (.str call.name)

/-- The function at a node has these invocations in order. A nested node has them among its parts, a
flat one in a property, which it may lack if there are none. -/
def Calls (n : Node) (calls : List Invocation) : Prop :=
  match n.form with
  | .nested => List.Forall₂ Invokes (n.parts.filter (·.is "ModifierInvocation")) calls
  | .flat => List.Forall₂ IsEntry (((n.property? "modifiers").bind Json.items?).getD []) calls

/-- No type begins both ways. -/
theorem not_startsWith_modifier {type : String}
    (h : Text.startsWith type "type(contract" = true) :
    Text.startsWith type "modifier" = false := by
  rw [Text.startsWith, List.isPrefixOf_iff_prefix] at h
  obtain ⟨rest, hrest⟩ := h
  rw [Text.startsWith, ← hrest]
  rfl

theorem nestedModifier?_of_invokes (h : n.Invokes call) : n.nestedModifier? = call.modifier? := by
  obtain ⟨target, type, htarget, hvalue, htype, hstart⟩ := h
  simp only [nestedModifier?, htarget, htype, Option.bind_eq_bind, Option.bind_some]
  cases call with
  | modifier name =>
    have hmodifier : Text.startsWith type "modifier" = true := hstart
    rw [if_pos hmodifier, hvalue]
    rfl
  | baseConstructor name =>
    rw [not_startsWith_modifier hstart]
    rfl

/-- In a nested tree only modifiers are named. -/
theorem modifierNames_of_nested (hform : n.form = .nested) (h : n.Calls calls) :
    n.modifierNames = calls.filterMap Invocation.modifier? := by
  simp only [Calls, hform] at h
  simp only [modifierNames, hform]
  exact filterMap_of_forall₂ h fun _ _ => nestedModifier?_of_invokes

/-- In a flat tree everything is named, whatever the kind of its entry. -/
theorem modifierNames_of_flat (hform : n.form = .flat) (h : n.Calls calls) :
    n.modifierNames = calls.map Invocation.name := by
  simp only [Calls, hform] at h
  simp only [modifierNames, hform]
  rw [← List.filterMap_eq_map']
  apply filterMap_of_forall₂ h
  intro v call hentry
  rw [hentry.name]
  rfl

/-- Names are as many as invocations only if all are names of modifiers. -/
theorem map_name_eq_iff :
    calls.map Invocation.name = calls.filterMap Invocation.modifier? ↔
      ∀ base, Invocation.baseConstructor base ∉ calls := by
  constructor
  · intro heq base hbase
    have hlength : (calls.filterMap Invocation.modifier?).length = calls.length := by
      rw [← heq, List.length_map]
    have hsome := List.filterMap_length_eq_length.1 hlength _ hbase
    cases hsome
  · intro hnone
    rw [← List.filterMap_eq_map']
    apply List.filterMap_congr
    intro call hcall
    cases call with
    | modifier name => rfl
    | baseConstructor base => exact absurd hcall (hnone base)

/-- The nested tree of a function names just its modifiers, in order. The flat tree names all that
the function invokes, and so it names just the modifiers if and only if no constructor is called. -/
theorem modifierNames_of_calls (old new : Node) (calls : List Invocation)
    (hold : old.form = .nested) (hnew : new.form = .flat) (hnested : old.Calls calls)
    (hflat : new.Calls calls) :
    old.modifierNames = calls.filterMap Invocation.modifier? ∧
      new.modifierNames = calls.map Invocation.name ∧
      (new.modifierNames = calls.filterMap Invocation.modifier? ↔
        ∀ base, Invocation.baseConstructor base ∉ calls) := by
  have hnames := modifierNames_of_flat hnew hflat
  refine ⟨modifierNames_of_nested hold hnested, hnames, ?_⟩
  rw [hnames]
  exact map_name_eq_iff

/-! ### A constructor -/

/-- The invocations of a constructor that calls the one of its base, and is guarded. -/
def guardedCalls : List Invocation := [.baseConstructor "Base", .modifier "onlyOwner"]

/-- The trees of that constructor. -/
def guardedConstructor : Form → Json
  | .nested =>
    nestedNode "FunctionDefinition" none (some "0:9:0")
      [("kind", .str "constructor"), ("name", .str "")]
      [nestedList [], nestedList [], nestedInvocation "type(contract Base)" "Base",
        nestedInvocation "modifier ()" "onlyOwner"]
  | .flat =>
    .obj [("kind", .str "constructor"),
      ("modifiers", .arr [
        .obj [("kind", .str "baseConstructorSpecifier"),
          ("modifierName", .obj [("name", .str "Base")])],
        .obj [("kind", .str "modifierInvocation"),
          ("modifierName", .obj [("name", .str "onlyOwner")])]]),
      ("name", .str ""), ("nodeType", .str "FunctionDefinition"), ("parameters", flatList []),
      ("returnParameters", flatList []), ("src", .str "0:9:0")]

/-- Both trees decode, and have these invocations. -/
theorem guardedConstructor_calls (form : Form) :
    ∃ n, ofJson? form (guardedConstructor form) = some n ∧ n.form = form ∧
      n.Calls guardedCalls := by
  cases form with
  | nested =>
    have hparts : [nestedList [], nestedList [], nestedInvocation "type(contract Base)" "Base",
        nestedInvocation "modifier ()" "onlyOwner"].mapM ofNested? =
          some [listNode [], listNode [], invocationNode "type(contract Base)" "Base",
            invocationNode "modifier ()" "onlyOwner"] := by
      simp only [List.mapM_cons, List.mapM_nil, ofNested?_nestedList, ofNested?_invocation]
      rfl
    refine ⟨_, ofNested?_nestedNode _ _ _ rfl hparts, rfl, .cons ?_ (.cons ?_ .nil)⟩
    · exact ⟨_, _, rfl, rfl, rfl, by decide⟩
    · exact ⟨_, _, rfl, rfl, rfl, by decide⟩
  | flat =>
    exact ⟨_, ofFlat?_obj rfl rfl rfl rfl rfl, rfl,
      .cons ⟨rfl, rfl⟩ (.cons ⟨rfl, rfl⟩ .nil)⟩

theorem modifierNames_of_calls_guarded :
    ∃ old new, ofNested? (guardedConstructor .nested) = some old ∧
      ofFlat? (guardedConstructor .flat) = some new ∧ old.form = .nested ∧ new.form = .flat ∧
      old.Calls guardedCalls ∧ new.Calls guardedCalls ∧
      old.modifierNames = ["onlyOwner"] ∧ new.modifierNames = ["Base", "onlyOwner"] := by
  obtain ⟨old, hdecode, hold, hnested⟩ := guardedConstructor_calls .nested
  obtain ⟨new, hdecode', hnew, hflat⟩ := guardedConstructor_calls .flat
  obtain ⟨hnames, hnames', _⟩ := modifierNames_of_calls old new _ hold hnew hnested hflat
  exact ⟨old, new, hdecode, hdecode', hold, hnew, hnested, hflat, hnames, hnames'⟩

/-- The base's constructor is named as a modifier in the flat tree. -/
theorem constructor_named_as_modifier :
    ∃ new, ofFlat? (guardedConstructor .flat) = some new ∧ new.Calls guardedCalls ∧
      new.modifierNames ≠ guardedCalls.filterMap Invocation.modifier? := by
  obtain ⟨new, hdecode, hnew, hflat⟩ := guardedConstructor_calls .flat
  refine ⟨new, hdecode, hflat, ?_⟩
  rw [modifierNames_of_flat hnew hflat]
  decide

end Node
end CodeAtlas.Ast
