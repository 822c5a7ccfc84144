import CodeAtlas.Ast.Unit
import CodeAtlas.Proofs.Ast.Outline
import CodeAtlas.Proofs.Json.Faithful
import Mathlib.Data.List.Forall2

/-! Both forms of tree state an outline. The rendered tree decodes, and the answers of its nodes are
those of the outline: `States` relations say so without mention of the form. -/
namespace CodeAtlas.Ast

open Outline

/-- Elements that are each read back are read back in a row. -/
theorem mapM_map_pure {m : Type → Type} [Monad m] [LawfulMonad m] {α β γ : Type} {f : β → m γ}
    {g : α → β} {k : α → γ} (h : ∀ a, f (g a) = pure (k a)) (xs : List α) :
    (xs.map g).mapM f = pure (xs.map k) := by
  rw [List.mapM_map]
  have hpure : f ∘ g = fun a => pure (k a) := funext h
  rw [hpure, List.mapM_pure]

theorem mapM_map_self {m : Type → Type} [Monad m] [LawfulMonad m] {α β : Type} {f : β → m α}
    {g : α → β} (h : ∀ a, f (g a) = pure a) (xs : List α) : (xs.map g).mapM f = pure xs := by
  simpa using mapM_map_pure (k := fun a => a) h xs

/-- Where each rendering decodes to a node in some relation, a row of them does. -/
theorem mapM_map_forall₂ {α : Type} {decode : Json → Option Node} {render : α → Json}
    {R : Node → α → Prop} (h : ∀ a, ∃ n, decode (render a) = some n ∧ R n a) (xs : List α) :
    ∃ nodes, (xs.map render).mapM decode = some nodes ∧ List.Forall₂ R nodes xs := by
  induction xs with
  | nil => exact ⟨[], rfl, .nil⟩
  | cons a xs ih =>
    obtain ⟨n, hn, hR⟩ := h a
    obtain ⟨nodes, hnodes, hall⟩ := ih
    exact ⟨n :: nodes, by simp [hn, hnodes], .cons hR hall⟩

namespace Node

variable {members properties : List (String × Json)} {kind : String} {id : Option Int}
  {src : Option String} {items : List Json} {nodes : List Node}

/-! ### Decoding one node -/

theorem ofNested?_obj (hkind : Json.required? "name" Json.text? members = some kind)
    (hid : Json.optional? "id" Json.integer? members = some id)
    (hsrc : Json.optional? "src" Json.text? members = some src)
    (hproperties : Json.optional? "attributes" Json.members? members = some (some properties))
    (hitems : members.lookup "children" = some (.arr items))
    (hnodes : items.mapM ofNested? = some nodes) :
    ofNested? (.obj members) = some ⟨.nested, kind, id, src, some properties, some nodes⟩ := by
  rw [ofNested?]
  simp only [Json.fields?, hkind, hid, hsrc, hproperties]
  split
  · simp_all
  · simp_all
  · rename_i found hfound
    obtain rfl : found = items := by simp_all
    rw [List.mapM_subtype (g := ofNested?) (by simp)]
    simp [hnodes]
  · simp_all

/-- A flat node without parts may leave them out. -/
theorem ofFlat?_obj (hkind : Json.required? "nodeType" Json.text? members = some kind)
    (hid : Json.optional? "id" Json.integer? members = some id)
    (hsrc : Json.optional? "src" Json.text? members = some src)
    (hitems : (members.lookup "nodes").getD (.arr []) = .arr items)
    (hnodes : items.mapM ofFlat? = some nodes) :
    ofFlat? (.obj members) =
      some ⟨.flat, kind, id, src, some (members.filter fun m => !flatKeys.contains m.1),
        some nodes⟩ := by
  rw [ofFlat?]
  simp only [Json.members?, hkind, hid, hsrc]
  split
  · simp_all
  · rename_i found hfound
    obtain rfl : found = items := by simp_all
    rw [List.mapM_subtype (g := ofFlat?) (by simp)]
    simp [hnodes]
  · simp_all

/-- What a flat node that decodes has, and the node that it decodes to. -/
theorem ofFlat?_eq_some {v : Json} {n : Node} (h : ofFlat? v = some n) :
    ∃ members kind id src items nodes, v = .obj members ∧
      Json.required? "nodeType" Json.text? members = some kind ∧
      Json.optional? "id" Json.integer? members = some id ∧
      Json.optional? "src" Json.text? members = some src ∧
      (members.lookup "nodes").getD (.arr []) = .arr items ∧ items.mapM ofFlat? = some nodes ∧
      n = ⟨.flat, kind, id, src, some (members.filter fun m => !flatKeys.contains m.1),
        some nodes⟩ := by
  cases v with
  | obj members =>
    rw [ofFlat?] at h
    simp only [Json.members?, Option.bind_eq_bind, Option.bind_eq_some_iff] at h
    obtain ⟨kind, hkind, id, hid, src, hsrc, h⟩ := h
    refine ⟨members, kind, id, src, ?_⟩
    split at h
    · rename_i hlookup
      cases h
      exact ⟨[], [], rfl, hkind, hid, hsrc, by rw [hlookup]; rfl, rfl, rfl⟩
    · rename_i items hlookup
      obtain ⟨nodes, hnodes, hn⟩ := Option.bind_eq_some_iff.1 h
      rw [List.mapM_subtype (g := ofFlat?) (by simp), List.unattach_attach] at hnodes
      cases hn
      exact ⟨items, nodes, rfl, hkind, hid, hsrc, by rw [hlookup]; rfl, hnodes, rfl⟩
    · cases h
  | _ => simp [ofFlat?, Json.members?] at h

theorem integer?_identity (id : Identity) : Json.integer? (.int id.value) = some id.value :=
  Json.integer?_int id.inRange

theorem nullable?_identity (id : Identity) :
    Json.nullable? Json.integer? (.int id.value) = some (some id.value) :=
  congrArg (Option.map some) (integer?_identity id)

theorem ofNested?_nestedNode (kind : String) (src : Option String)
    (properties : List (String × Json))
    (hid : Json.nullable? Json.integer? (.ofOption .int id) = some id)
    (hnodes : items.mapM ofNested? = some nodes) :
    ofNested? (nestedNode kind id src properties items) =
      some ⟨.nested, kind, id, src, some properties, some nodes⟩ :=
  ofNested?_obj rfl hid (Json.nullable?_text src) rfl rfl hnodes

/-! ### What a node says -/

/-- The node has a heading. -/
structure StatesHeading (n : Node) (kind : String) (h : Heading) : Prop where
  kind : n.kind = kind
  name : n.text? "name" = some h.name
  visibility : n.text? "visibility" = h.visibility
  src : n.src = some h.src

/-- The node declares a function. -/
structure StatesFunction (n : Node) (f : Function) : Prop
    extends n.StatesHeading "FunctionDefinition" f.toHeading where
  functionKind : n.text? "kind" = some f.kind
  mutability : n.mutability? = f.mutability
  implemented : n.truth? "implemented" = some f.implemented
  signature : n.signature = .ok ⟨f.parameters, f.returns⟩
  modifiers : n.modifierNames = f.modifiers.map (·.name)

/-- The node declares an event. -/
structure StatesEvent (n : Node) (e : Outline.Event) : Prop
    extends n.StatesHeading "EventDefinition" e.toHeading where
  anonymous : n.truth? "anonymous" = some e.anonymous
  types : n.eventTypes = .ok e.parameters

/-- The node declares a member. -/
def StatesMember (n : Node) : Member → Prop
  | .function f => n.StatesFunction f
  | .field v => n.StatesHeading "VariableDeclaration" v
  | .modifier m => n.StatesHeading "ModifierDefinition" m
  | .event e => n.StatesEvent e
  | .other o => n.kind = o.kind

/-- The node defines a contract: its members are its parts after the bases. -/
structure StatesContract (n : Node) (c : Outline.Contract) : Prop where
  kind : n.kind = "ContractDefinition"
  id : n.id = some c.id.value
  name : n.text? "name" = some c.name
  contractKind : n.text? "contractKind" = some c.kind.keyword
  abstract : n.abstract? = some c.isAbstract
  bases : n.bases = c.bases.map (·.value)
  src : n.src = some c.src
  parts : ∃ specifiers nodes, n.parts = specifiers ++ nodes ∧
    (∀ s ∈ specifiers, s.kind = "InheritanceSpecifier") ∧
    List.Forall₂ StatesMember nodes c.members

/-- The node is that of an item. -/
def StatesItem (n : Node) : Item → Prop
  | .contract c => n.StatesContract c
  | .other o => n.kind = o.kind

/-- The node is that of a unit. -/
structure StatesUnit (n : Node) (d : Outline.SourceUnit) : Prop where
  kind : n.kind = "SourceUnit"
  hasParts : n.children.isSome = true
  symbols : n.exportedSymbols = d.symbols.filterMap fun (name, ids) => ids.head?.map (name, ·.value)
  parts : List.Forall₂ StatesItem n.parts d.items

/-! ### Headings -/

theorem property?_text (text : Option String) :
    ((some (Json.ofOption .str text)).filter (!·.isNull)).bind Json.text? = text := by
  cases text <;> rfl

theorem heading_rendered (kind : String) (h : Heading) (form : Form) :
    ∃ n, ofJson? form (h.render kind form) = some n ∧ n.StatesHeading kind h := by
  cases form with
  | nested =>
    exact ⟨_, ofNested?_nestedNode kind (some h.src) h.attributes rfl rfl,
      ⟨rfl, rfl, property?_text h.visibility, rfl⟩⟩
  | flat =>
    exact ⟨_, ofFlat?_obj rfl rfl rfl rfl rfl, ⟨rfl, rfl, property?_text h.visibility, rfl⟩⟩

theorem aside_rendered {kinds : List String} (o : Aside kinds) (form : Form) :
    ∃ n, ofJson? form (o.render form) = some n ∧ n.kind = o.kind := by
  cases form with
  | nested => exact ⟨_, ofNested?_nestedNode o.kind (some o.src) [] rfl rfl, rfl⟩
  | flat => exact ⟨_, ofFlat?_obj rfl rfl rfl rfl rfl, rfl⟩

/-! ### Parameters and modifiers -/

/-- A nested parameter, decoded. -/
def parameterNode (type : String) : Node :=
  ⟨.nested, "VariableDeclaration", none, none, some [("type", .str type)], some []⟩

/-- A nested list of parameters, decoded. -/
def listNode (types : List String) : Node :=
  ⟨.nested, "ParameterList", none, none, some [], some (types.map parameterNode)⟩

theorem ofNested?_nestedList (types : List String) :
    ofNested? (nestedList types) = some (listNode types) :=
  ofNested?_nestedNode _ _ _ rfl
    (mapM_map_pure (fun _ => ofNested?_nestedNode _ _ _ rfl rfl) types)

theorem nestedTypes_listNode (owner : String) (types : List String) :
    nestedTypes owner (listNode types) = .ok types :=
  mapM_map_self (g := parameterNode) (fun _ => rfl) types

theorem flatTypes_flatList {n : Node} {key : String} {types : List String}
    (h : n.properties.bind (·.lookup key) = some (flatList types)) :
    n.flatTypes key = .ok types := by
  rw [flatTypes, h]
  exact mapM_map_self (g := flatParameter) (fun _ => rfl) types

/-- The invocation of something with a type, decoded. -/
def invocationNode (type name : String) : Node :=
  ⟨.nested, "ModifierInvocation", none, none, some [],
    some [⟨.nested, "Identifier", none, none, some [("type", .str type), ("value", .str name)],
      some []⟩]⟩

theorem ofNested?_invocation (type name : String) :
    ofNested? (nestedInvocation type name) = some (invocationNode type name) := by
  refine ofNested?_nestedNode _ _ _ rfl ?_
  rw [List.mapM_cons, ofNested?_nestedNode _ _ _ rfl rfl]
  rfl

/-- The application of a modifier, decoded. -/
def modifierNode (m : AppliedModifier) : Node := invocationNode ("modifier" ++ m.arguments) m.name

theorem ofNested?_appliedModifier (m : AppliedModifier) :
    ofNested? m.nested = some (modifierNode m) :=
  ofNested?_invocation ("modifier" ++ m.arguments) m.name

theorem nestedModifier?_modifierNode (m : AppliedModifier) :
    (modifierNode m).nestedModifier? = some m.name := by
  have hprefix : Text.startsWith ("modifier" ++ m.arguments) "modifier" = true := by
    simp [Text.startsWith]
  exact if_pos hprefix

/-! ### Functions and events -/

/-- Without the old marks only a statement on mutability counts. -/
theorem mutability?_of_unmarked {n : Node} (hpayable : n.truth? "payable" = none)
    (hconstant : n.truth? "constant" = none) : n.mutability? = n.text? "stateMutability" := by
  unfold mutability?
  cases n.text? "stateMutability" with
  | some m => rfl
  | none => simp [hpayable, hconstant]

theorem modifierNames_nested {n : Node} {applied : List AppliedModifier}
    {types returns : List String} (hform : n.form = .nested)
    (hparts : n.parts = listNode types :: listNode returns :: applied.map modifierNode) :
    n.modifierNames = applied.map (·.name) := by
  have hkeep : (applied.map modifierNode).filter (·.is "ModifierInvocation") =
      applied.map modifierNode := by
    rw [List.filter_eq_self]
    intro node hnode
    obtain ⟨m, _, rfl⟩ := List.mem_map.1 hnode
    rfl
  have hnames : nestedModifier? ∘ modifierNode = fun m => some m.name :=
    funext nestedModifier?_modifierNode
  have hlists : n.parts.filter (·.is "ModifierInvocation") = applied.map modifierNode := by
    rw [hparts, List.filter_cons_of_neg (by simp [listNode, is]),
      List.filter_cons_of_neg (by simp [listNode, is]), hkeep]
  simp only [modifierNames, hform, hlists, List.filterMap_map, hnames, List.filterMap_eq_map']

theorem fromParameters_of_list {n : Node} {types : List String} {rest : List Node}
    (hparts : n.parts = listNode types :: rest) : n.fromParameters = listNode types :: rest := by
  rw [fromParameters, hparts, List.dropWhile_cons_of_neg (by simp [listNode, is])]

theorem signature_nested {n : Node} {types returns : List String} {rest : List Node}
    (hform : n.form = .nested) (hparts : n.parts = listNode types :: listNode returns :: rest) :
    n.signature = .ok ⟨types, returns⟩ := by
  have hlist : (listNode returns).is "ParameterList" = true := rfl
  simp only [signature, hform, fromParameters_of_list hparts, hlist, if_true, nestedTypes_listNode]
  rfl

theorem signature_flat {n : Node} {types returns : List String} (hform : n.form = .flat)
    (htypes : n.properties.bind (·.lookup "parameters") = some (flatList types))
    (hreturns : n.properties.bind (·.lookup "returnParameters") = some (flatList returns)) :
    n.signature = .ok ⟨types, returns⟩ := by
  simp only [signature, hform, flatTypes_flatList htypes, flatTypes_flatList hreturns]
  rfl

theorem eventTypes_nested {n : Node} {types : List String} {rest : List Node}
    (hform : n.form = .nested) (hparts : n.parts = listNode types :: rest) :
    n.eventTypes = .ok types := by
  simp only [eventTypes, hform, fromParameters_of_list hparts, nestedTypes_listNode]

theorem eventTypes_flat {n : Node} {types : List String} (hform : n.form = .flat)
    (htypes : n.properties.bind (·.lookup "parameters") = some (flatList types)) :
    n.eventTypes = .ok types := by
  simp only [eventTypes, hform, flatTypes_flatList htypes]

theorem modifierNames_flat {n : Node} {applied : List AppliedModifier} (hform : n.form = .flat)
    (hmodifiers : n.property? "modifiers" = some (.ofList AppliedModifier.flat applied)) :
    n.modifierNames = applied.map (·.name) := by
  have hnames : (fun m : Json => (m.path? ["modifierName", "name"]).bind Json.text?) ∘
      AppliedModifier.flat = fun m => some m.name := rfl
  simp only [modifierNames, hform, hmodifiers, Json.ofList, Option.bind_some, Json.items?,
    Option.getD_some, List.filterMap_map, hnames, List.filterMap_eq_map']

theorem function_rendered (f : Function) (form : Form) :
    ∃ n, ofJson? form (f.render form) = some n ∧ n.StatesFunction f := by
  cases form with
  | nested =>
    have hmodifiers := mapM_map_pure ofNested?_appliedModifier f.modifiers
    have hparts : (nestedList f.parameters :: nestedList f.returns ::
        f.modifiers.map AppliedModifier.nested).mapM ofNested? =
          some (listNode f.parameters :: listNode f.returns :: f.modifiers.map modifierNode) := by
      rw [List.mapM_cons, List.mapM_cons, hmodifiers, ofNested?_nestedList, ofNested?_nestedList]
      rfl
    exact ⟨_, ofNested?_nestedNode _ _ _ rfl hparts, {
      kind := rfl
      name := rfl
      visibility := property?_text f.visibility
      src := rfl
      functionKind := rfl
      mutability := (mutability?_of_unmarked rfl rfl).trans (property?_text f.mutability)
      implemented := rfl
      signature := signature_nested rfl rfl
      modifiers := modifierNames_nested rfl rfl }⟩
  | flat =>
    exact ⟨_, ofFlat?_obj rfl rfl rfl rfl rfl, {
      kind := rfl
      name := rfl
      visibility := property?_text f.visibility
      src := rfl
      functionKind := rfl
      mutability := (mutability?_of_unmarked rfl rfl).trans (property?_text f.mutability)
      implemented := rfl
      signature := signature_flat rfl rfl rfl
      modifiers := modifierNames_flat rfl rfl }⟩

theorem event_rendered (e : Outline.Event) (form : Form) :
    ∃ n, ofJson? form (e.render form) = some n ∧ n.StatesEvent e := by
  cases form with
  | nested =>
    have hparts : [nestedList e.parameters].mapM ofNested? = some [listNode e.parameters] := by
      rw [List.mapM_cons, ofNested?_nestedList]
      rfl
    exact ⟨_, ofNested?_nestedNode _ _ _ rfl hparts, {
      kind := rfl
      name := rfl
      visibility := property?_text e.visibility
      src := rfl
      anonymous := rfl
      types := eventTypes_nested rfl rfl }⟩
  | flat =>
    exact ⟨_, ofFlat?_obj rfl rfl rfl rfl rfl, {
      kind := rfl
      name := rfl
      visibility := property?_text e.visibility
      src := rfl
      anonymous := rfl
      types := eventTypes_flat rfl rfl }⟩

/-! ### Contracts and units -/

theorem member_rendered (form : Form) (m : Member) :
    ∃ n, ofJson? form (m.render form) = some n ∧ n.StatesMember m := by
  cases m with
  | function f => exact function_rendered f form
  | field v => exact heading_rendered "VariableDeclaration" v form
  | modifier m => exact heading_rendered "ModifierDefinition" m form
  | event e => exact event_rendered e form
  | other o => exact aside_rendered o form

/-- No member looks like a base. -/
theorem StatesMember.not_specifier {n : Node} {m : Member} (h : n.StatesMember m) :
    n.is "InheritanceSpecifier" = false := by
  cases m with
  | function f => simp [is, StatesHeading.kind (StatesFunction.toStatesHeading h)]
  | field v => simp [is, StatesHeading.kind h]
  | modifier m => simp [is, StatesHeading.kind h]
  | event e => simp [is, StatesHeading.kind (StatesEvent.toStatesHeading h)]
  | other o =>
    have hkind : n.kind = o.kind := h
    have hunread := o.isUnread
    simp only [memberKinds, List.mem_cons, not_or] at hunread
    simp [is, hkind, hunread]

/-- The naming of a base, decoded. -/
def baseNode (base : Identity) : Node :=
  ⟨.nested, "InheritanceSpecifier", none, none, some [],
    some [⟨.nested, "UserDefinedTypeName", none, none,
      some [("referencedDeclaration", .int base.value)], some []⟩]⟩

theorem ofNested?_nestedBase (base : Identity) :
    ofNested? base.nestedBase = some (baseNode base) := by
  refine ofNested?_nestedNode _ _ _ rfl ?_
  rw [List.mapM_cons, ofNested?_nestedNode _ _ _ rfl rfl]
  rfl

theorem filter_specifiers {bases : List Identity} {nodes : List Node} {members : List Member}
    (hnodes : List.Forall₂ StatesMember nodes members) :
    (bases.map baseNode ++ nodes).filter (·.is "InheritanceSpecifier") = bases.map baseNode := by
  have hmembers : nodes.filter (·.is "InheritanceSpecifier") = [] := by
    induction hnodes with
    | nil => rfl
    | cons hn _ ih => simp [hn.not_specifier, ih]
  have hbases : (bases.map baseNode).filter (·.is "InheritanceSpecifier") = bases.map baseNode := by
    rw [List.filter_eq_self]
    intro node hnode
    obtain ⟨base, _, rfl⟩ := List.mem_map.1 hnode
    rfl
  rw [List.filter_append, hmembers, hbases, List.append_nil]

/-- The nested form has no list of bases when there are none; then there must be no dependencies to
take in their place. -/
theorem bases_nested {n : Node} {bases : List Identity} {nodes : List Node}
    {members : List Member} (hform : n.form = .nested)
    (hparts : n.parts = bases.map baseNode ++ nodes)
    (hnodes : List.Forall₂ StatesMember nodes members)
    (hdependencies : n.property? "contractDependencies" = none) :
    n.bases = bases.map (·.value) := by
  have hvalues : (fun s : Node => (s.parts.head?.bind
      (·.property? "referencedDeclaration")).bind Json.integer?) ∘ baseNode =
        fun base => some base.value := funext integer?_identity
  unfold Node.bases explicitBases?
  simp only [hform, hparts, filter_specifiers hnodes]
  cases bases with
  | nil => simp [dependencies, hdependencies]
  | cons base bases =>
    simp only [List.isEmpty_map, List.isEmpty_cons, Bool.false_eq_true, if_false, Option.getD_some,
      List.filterMap_map, hvalues, List.filterMap_eq_map']

theorem bases_flat {n : Node} {bases : List Identity} (hform : n.form = .flat)
    (hbases : n.property? "baseContracts" = some (.ofList Identity.flatBase bases)) :
    n.bases = bases.map (·.value) := by
  have hvalues : (fun b : Json => (b.path? ["baseName", "referencedDeclaration"]).bind
      Json.integer?) ∘ Identity.flatBase = fun base => some base.value := funext integer?_identity
  unfold Node.bases explicitBases?
  simp only [hform, hbases, Json.ofList, Option.bind_some, Json.items?, Option.map_some,
    Option.getD_some, List.filterMap_map, hvalues, List.filterMap_eq_map']

theorem contract_rendered (c : Outline.Contract) (form : Form) :
    ∃ n, ofJson? form (c.render form) = some n ∧ n.StatesContract c := by
  obtain ⟨nodes, hnodes, hmembers⟩ := mapM_map_forall₂ (member_rendered form) c.members
  cases form with
  | nested =>
    have hbases := mapM_map_pure ofNested?_nestedBase c.bases
    have hparts : (c.bases.map Identity.nestedBase ++
        c.members.map (Member.render .nested)).mapM ofNested? =
          some (c.bases.map baseNode ++ nodes) := by
      rw [List.mapM_append, hbases, show List.mapM ofNested? _ = some nodes from hnodes]
      rfl
    exact ⟨_, ofNested?_nestedNode _ _ _ (nullable?_identity c.id) hparts, {
      kind := rfl
      id := rfl
      name := rfl
      contractKind := rfl
      abstract := congrArg some (Bool.not_not c.isAbstract)
      bases := bases_nested rfl rfl hmembers rfl
      src := rfl
      parts := ⟨c.bases.map baseNode, nodes, rfl, by simp [baseNode], hmembers⟩ }⟩
  | flat =>
    exact ⟨_, ofFlat?_obj rfl (nullable?_identity c.id) rfl rfl hnodes, {
      kind := rfl
      id := rfl
      name := rfl
      contractKind := rfl
      abstract := rfl
      bases := bases_flat rfl rfl
      src := rfl
      parts := ⟨[], nodes, rfl, by simp, hmembers⟩ }⟩

theorem item_rendered (form : Form) (item : Item) :
    ∃ n, ofJson? form (item.render form) = some n ∧ n.StatesItem item := by
  cases item with
  | contract c => exact contract_rendered c form
  | other o => exact aside_rendered o form

theorem exportedSymbols_of_exports {n : Node} {d : Outline.SourceUnit}
    (h : n.property? "exportedSymbols" = some d.exports) :
    n.exportedSymbols = d.symbols.filterMap fun (name, ids) => ids.head?.map (name, ·.value) := by
  simp only [exportedSymbols, h, Outline.SourceUnit.exports, Option.bind_some, Json.members?,
    Option.getD_some, List.filterMap_map]
  refine List.filterMap_congr fun (name, ids) _ => ?_
  cases ids with
  | nil => rfl
  | cons id ids => exact congrArg (Option.map (name, ·)) (integer?_identity id)

theorem unit_rendered (d : Outline.SourceUnit) (form : Form) :
    ∃ n, ofJson? form (d.render form) = some n ∧ n.StatesUnit d := by
  obtain ⟨nodes, hnodes, hitems⟩ := mapM_map_forall₂ (item_rendered form) d.items
  cases form with
  | nested =>
    exact ⟨_, ofNested?_nestedNode _ _ _ rfl hnodes, {
      kind := rfl
      hasParts := rfl
      symbols := exportedSymbols_of_exports rfl
      parts := hitems }⟩
  | flat =>
    exact ⟨_, ofFlat?_obj rfl rfl rfl rfl hnodes, {
      kind := rfl
      hasParts := rfl
      symbols := exportedSymbols_of_exports rfl
      parts := hitems }⟩

end Node

/-- The tree of an outline is that of a source unit which states the outline. -/
theorem SourceUnit.rendered (d : Outline.SourceUnit) (form : Form) :
    ∃ u, ofJson form (d.render form) = .ok u ∧ u.root.StatesUnit d := by
  obtain ⟨root, hroot, hstates⟩ := Node.unit_rendered d form
  refine ⟨⟨root⟩, ?_, hstates⟩
  have hunit : (root.is "SourceUnit" && root.children.isSome) = true := by
    simp [Node.is, hstates.kind, hstates.hasParts]
  simp only [ofJson, hroot, decoded, orError]
  exact if_pos hunit

end CodeAtlas.Ast
