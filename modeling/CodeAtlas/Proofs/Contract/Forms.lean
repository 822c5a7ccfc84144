import CodeAtlas.Contract.Model
import CodeAtlas.Proofs.Ast.Rendering
import CodeAtlas.Proofs.Contract.Index

/-! The model of a source unit does not depend on the form of its tree. An outline has a model of
its own, and that is what the nodes of either form are built into. -/
namespace CodeAtlas

/-! ### The model of an outline -/

namespace Outline

/-- The place at a range. -/
def anchorAt (catalog : Catalog) (src : String) : Except Error Anchor := do
  let span ← Span.parse src
  let excerpt := catalog.locate? span
  return ⟨span, excerpt.map (·.lines), (excerpt.map (·.text)).getD ""⟩

/-- Whether a range can be read. -/
def isRange (src : String) : Bool := (Span.parse src).isOk

/-- The function of an outline; one without a name is called by its kind. -/
def Function.method (catalog : Catalog) (f : Function) : Except Error Method := do
  let kind ← FunctionKind.parse f.kind
  let anchor ← anchorAt catalog f.src
  let name := if f.name = "" then kind.keyword else f.name
  return {
    name
    kind
    visibility := .ofKeyword f.visibility
    mutability := f.mutability
    isAbstract := !f.implemented
    signature := signatureText name f.parameters kind
    returnSignature := signatureText "" f.returns kind
    modifiers := f.modifiers.map (·.name)
    anchor }

/-- The event of an outline, which must have a name. -/
def Event.event (catalog : Catalog) (e : Event) : Except Error CodeAtlas.Event := do
  if e.name = "" then throw (.schema (.node "EventDefinition" .eventWithoutName))
  let anchor ← anchorAt catalog e.src
  return {
    name := e.name
    visibility := .ofKeyword e.visibility
    anonymous := e.anonymous
    signature := signatureText e.name e.parameters .event
    anchor }

/-- The contract with one more member. -/
def Member.addTo (catalog : Catalog) (c : CodeAtlas.Contract) :
    Member → Except Error CodeAtlas.Contract
  | .function f => do return { c with methods := c.methods ++ [← f.method catalog] }
  | .field v => do
    let anchor ← anchorAt catalog v.src
    return { c with fields := c.fields ++ [⟨v.name, .ofKeyword v.visibility, anchor, none⟩] }
  | .modifier m => do
    let anchor ← anchorAt catalog m.src
    return { c with modifiers := c.modifiers ++ [⟨m.name, .ofKeyword m.visibility, anchor⟩] }
  | .event e => do return { c with events := c.events ++ [← e.event catalog] }
  | .other _ => .ok c

/-- The contract of an outline. -/
def Contract.contract (catalog : Catalog) (unit : String) (c : Contract) :
    Except Error CodeAtlas.Contract := do
  let anchor ← anchorAt catalog c.src
  c.members.foldlM (Member.addTo catalog)
    { id := c.id.value, name := c.name, kind := c.kind, isAbstract := c.isAbstract,
      bases := c.bases.map (·.value), unit, span := anchor.span, lines := anchor.lines }

/-- The contract that an item is. -/
def Item.contract? : Item → Option Contract
  | .contract c => some c
  | .other _ => none

/-- The symbols that an outline exports, each with the first identity that it lists. -/
def SourceUnit.exported (d : SourceUnit) : Std.ExtTreeMap String Int :=
  Std.ExtTreeMap.ofList
    (d.symbols.filterMap fun (name, ids) => ids.head?.map (name, ·.value)) compare

/-- The model of an outline, whose tree is under a key. -/
def SourceUnit.model (order : Model.Traversal) (catalog : Catalog) (key : String) (d : SourceUnit) :
    Except Error Model := do
  let contracts ← (d.items.filterMap Item.contract?).mapM (Contract.contract catalog key)
  return { contracts := (Model.byId contracts).resolve, symbols := d.exported,
           names := Model.namesOf order d.exported }

/-- Whether all of a member can be read. -/
def Member.isReadable : Member → Bool
  | .function f => (FunctionKind.parse f.kind).isOk && isRange f.src
  | .field v => isRange v.src
  | .modifier m => isRange m.src
  | .event e => e.name ≠ "" && isRange e.src
  | .other _ => true

/-- Whether all of a contract can be read. -/
def Contract.isReadable (c : Contract) : Bool := isRange c.src && c.members.all Member.isReadable

/-- Whether all contracts of a unit can be read. -/
def SourceUnit.isReadable (d : SourceUnit) : Bool :=
  (d.items.filterMap Item.contract?).all Contract.isReadable

theorem isOk_anchorAt (catalog : Catalog) (src : String) :
    (anchorAt catalog src).isOk = isRange src :=
  isOk_bind_of_isOk fun _ => rfl

theorem isOk_method (catalog : Catalog) (f : Function) :
    (f.method catalog).isOk = (Member.function f).isReadable :=
  isOk_bind fun _ => (isOk_bind_of_isOk fun _ => rfl).trans (isOk_anchorAt catalog f.src)

theorem isOk_event (catalog : Catalog) (e : Event) :
    (e.event catalog).isOk = (Member.event e).isReadable := by
  unfold Event.event
  by_cases hname : e.name = ""
  · simp only [Member.isReadable, hname]
    rfl
  · have hrange := isOk_anchorAt catalog e.src
    simp only [hname, if_false, Member.isReadable, ne_eq, not_false_eq_true, decide_true,
      Bool.true_and]
    exact (isOk_bind_of_isOk fun _ => rfl).trans hrange

theorem isOk_addTo (catalog : Catalog) (c : CodeAtlas.Contract) (m : Member) :
    (m.addTo catalog c).isOk = m.isReadable := by
  cases m with
  | function f => exact (isOk_bind_of_isOk fun _ => rfl).trans (isOk_method catalog f)
  | field v => exact (isOk_bind_of_isOk fun _ => rfl).trans (isOk_anchorAt catalog v.src)
  | modifier m => exact (isOk_bind_of_isOk fun _ => rfl).trans (isOk_anchorAt catalog m.src)
  | event e => exact (isOk_bind_of_isOk fun _ => rfl).trans (isOk_event catalog e)
  | other o => rfl

theorem isOk_contract (catalog : Catalog) (unit : String) (c : Contract) :
    (c.contract catalog unit).isOk = c.isReadable := by
  refine (isOk_bind fun _ => isOk_foldlM (isOk_addTo catalog) c.members _).trans ?_
  rw [isOk_anchorAt, Contract.isReadable]

/-- A unit has a model just when all of its contracts can be read. -/
theorem isOk_model (order : Model.Traversal) (catalog : Catalog) (key : String) (d : SourceUnit) :
    (d.model order catalog key).isOk = d.isReadable := by
  refine (isOk_bind_of_isOk fun _ => rfl).trans ((isOk_mapM _ _).trans ?_)
  simp only [isOk_contract, SourceUnit.isReadable]

end Outline

/-! ### What nodes are built into -/

section Build

open Ast Outline

variable {catalog : Catalog} {n : Node}

theorem Anchor.ofNode_of_src {src : String} (h : n.src = some src) :
    Anchor.ofNode catalog n = anchorAt catalog src := by
  unfold Anchor.ofNode anchorAt Node.span
  simp only [h]
  refine bind_congr fun span => ?_
  cases catalog.locate? span with
  | none => rfl
  | some excerpt => rfl

theorem Ast.Node.name?_of_text {name : String} (h : n.text? "name" = some name) :
    n.name? = if name = "" then none else some name := by
  by_cases hname : name = "" <;> simp [Node.name?, h, hname]

theorem Ast.Node.name?_getD_of_text {name : String} (h : n.text? "name" = some name) :
    n.name?.getD "" = name := by
  by_cases hname : name = "" <;> simp [Node.name?_of_text h, hname]

theorem Ast.Node.functionName_of_states {f : Function} (h : n.StatesFunction f) :
    n.functionName = if f.name = "" then (FunctionKind.parse f.kind).map FunctionKind.keyword
      else .ok f.name := by
  unfold Node.functionName Node.functionKind
  rw [Node.name?_of_text h.name, h.functionKind]
  by_cases hname : f.name = "" <;> simp [hname]

theorem Method.ofNode_of_states {f : Function} (h : n.StatesFunction f) :
    Method.ofNode catalog n = f.method catalog := by
  have hkind : n.functionKind = FunctionKind.parse f.kind := by
    simp only [Node.functionKind, h.functionKind]
  unfold Method.ofNode Function.method
  simp only [h.signature, hkind, Node.functionName_of_states h, Anchor.ofNode_of_src h.src,
    Node.visibility, h.visibility, h.mutability, h.implemented, h.modifiers]
  cases hparse : FunctionKind.parse f.kind with
  | error e => rfl
  | ok kind =>
    by_cases hname : f.name = ""
    · simp only [hname, if_true]
      rfl
    · simp only [hname, if_false]
      rfl

theorem StateVar.ofNode_of_states {v : Heading} {kind : String} (h : n.StatesHeading kind v) :
    StateVar.ofNode catalog n = do
      return ⟨v.name, .ofKeyword v.visibility, ← anchorAt catalog v.src, none⟩ := by
  simp only [StateVar.ofNode, Anchor.ofNode_of_src h.src, Node.name?_getD_of_text h.name,
    Node.visibility, h.visibility]

theorem Modifier.ofNode_of_states {m : Heading} {kind : String} (h : n.StatesHeading kind m) :
    Modifier.ofNode catalog n = do
      return ⟨m.name, .ofKeyword m.visibility, ← anchorAt catalog m.src⟩ := by
  simp only [Modifier.ofNode, Anchor.ofNode_of_src h.src, Node.name?_getD_of_text h.name,
    Node.visibility, h.visibility]

theorem Event.ofNode_of_states {e : Outline.Event} (h : n.StatesEvent e) :
    Event.ofNode catalog n = e.event catalog := by
  unfold Event.ofNode Outline.Event.event
  simp only [h.kind, Node.name?_of_text h.name, h.types, Anchor.ofNode_of_src h.src,
    Node.visibility, h.visibility, h.anonymous]
  by_cases hname : e.name = ""
  · simp only [hname, if_true]
    rfl
  · simp only [hname, if_false]
    rfl

namespace Contract

theorem addMember_of_states {m : Member} (h : n.StatesMember m) (c : Contract) :
    addMember catalog c n = m.addTo catalog c := by
  cases m with
  | function f =>
    have hf : n.StatesFunction f := h
    simp only [addMember, Member.addTo, hf.kind, Method.ofNode_of_states hf]
  | field v =>
    have hv : n.StatesHeading "VariableDeclaration" v := h
    simp only [addMember, Member.addTo, hv.kind, StateVar.ofNode_of_states hv, bind_assoc,
      pure_bind]
  | modifier m =>
    have hm : n.StatesHeading "ModifierDefinition" m := h
    simp only [addMember, Member.addTo, hm.kind, Modifier.ofNode_of_states hm, bind_assoc,
      pure_bind]
  | event e =>
    have he : n.StatesEvent e := h
    simp only [addMember, Member.addTo, he.kind, Event.ofNode_of_states he]
  | other o =>
    have hkind : n.kind = o.kind := h
    have hunread := o.isUnread
    simp only [memberKinds, List.mem_cons, not_or] at hunread
    simp [addMember, Member.addTo, hkind, hunread]

theorem addMember_specifier (h : n.kind = "InheritanceSpecifier") (c : Contract) :
    addMember catalog c n = .ok c := by
  simp [addMember, h]

theorem foldlM_addMember {specifiers nodes : List Node} {members : List Member}
    (hspecifiers : ∀ s ∈ specifiers, s.kind = "InheritanceSpecifier")
    (hnodes : List.Forall₂ Node.StatesMember nodes members) (c : Contract) :
    (specifiers ++ nodes).foldlM (addMember catalog) c =
      members.foldlM (Member.addTo catalog) c := by
  have hskip : specifiers.foldlM (addMember catalog) c = .ok c := by
    induction specifiers with
    | nil => rfl
    | cons s specifiers ih =>
      obtain ⟨hs, hrest⟩ := List.forall_mem_cons.1 hspecifiers
      rw [List.foldlM_cons, addMember_specifier hs]
      exact ih hrest
  rw [List.foldlM_append, hskip]
  show nodes.foldlM (addMember catalog) c = _
  clear hskip hspecifiers
  induction hnodes generalizing c with
  | nil => rfl
  | cons hn _ ih =>
    rw [List.foldlM_cons, List.foldlM_cons, addMember_of_states hn]
    exact bind_congr ih

theorem ofNode_of_states {unit : String} {c : Outline.Contract} (h : n.StatesContract c) :
    ofNode catalog unit n = c.contract catalog unit := by
  obtain ⟨specifiers, nodes, hparts, hspecifiers, hnodes⟩ := h.parts
  have hid : n.id.filter (0 ≤ ·) = some c.id.value := by
    simp [h.id, c.isIndex]
  have hname : n.name? = some c.name := by
    rw [Node.name?_of_text h.name, if_neg c.isNamed]
  have hkind : ContractKind.parse c.kind.keyword = .ok c.kind := by
    cases c.kind <;> rfl
  unfold ofNode Outline.Contract.contract
  simp only [hid, hname, h.abstract, h.contractKind, hkind, Anchor.ofNode_of_src h.src, h.bases,
    hparts, foldlM_addMember hspecifiers hnodes]
  rfl

end Contract

namespace Model

theorem mapM_ofNode {key : String} {parts : List Node} {items : List Item}
    (h : List.Forall₂ Node.StatesItem parts items) :
    (parts.filter (·.is "ContractDefinition")).mapM (Contract.ofNode catalog key) =
      (items.filterMap Item.contract?).mapM (Outline.Contract.contract catalog key) := by
  induction h with
  | nil => rfl
  | @cons n item _ _ hn _ ih =>
    cases item with
    | contract c =>
      have hc : n.StatesContract c := hn
      have hitem : (Item.contract c).contract? = some c := rfl
      rw [List.filter_cons_of_pos (by simp [Node.is, hc.kind]), List.filterMap_cons_some hitem,
        List.mapM_cons, List.mapM_cons, Contract.ofNode_of_states hc, ih]
    | other o =>
      have hkind : n.kind = o.kind := hn
      have hitem : (Item.other o).contract? = none := rfl
      have hunread : o.kind ≠ "ContractDefinition" := by simpa using o.isUnread
      rw [List.filter_cons_of_neg (by simp [Node.is, hkind, hunread]),
        List.filterMap_cons_none hitem, ih]

theorem build_of_states {key : String} {u : Ast.SourceUnit} {d : Outline.SourceUnit}
    (h : u.root.StatesUnit d) (order : Traversal) :
    build order catalog [(key, u)] = d.model order catalog key := by
  have hdeclared : declared catalog (key, u) =
      (d.items.filterMap Item.contract?).mapM (Outline.Contract.contract catalog key) :=
    mapM_ofNode h.parts
  have hdistinct : distinct [(key, u)] = [(key, u)] := rfl
  unfold build Outline.SourceUnit.model Outline.SourceUnit.exported symbolsOf
  simp only [hdistinct, List.mapM_cons, List.mapM_nil, hdeclared, bind_assoc, pure_bind,
    List.flatMap_cons, List.flatMap_nil, List.append_nil, h.symbols, List.flatten_cons,
    List.flatten_nil]

/-- An interface and a contract that extends it, with members of all kinds. -/
def sampleOutline : Outline.SourceUnit where
  symbols := [("Base", [⟨4, by decide⟩]), ("Vault", [⟨31, by decide⟩, ⟨7, by decide⟩]),
    ("Void", [])]
  items := [
    .other ⟨"PragmaDirective", "0:24:0", by decide⟩,
    .contract {
      id := ⟨4, by decide⟩
      isIndex := by decide
      name := "Base"
      isNamed := by decide
      kind := .interface
      isAbstract := true
      bases := []
      src := "25:30:0"
      members := [] },
    .contract {
      id := ⟨31, by decide⟩
      isIndex := by decide
      name := "Vault"
      isNamed := by decide
      kind := .contract
      isAbstract := false
      bases := [⟨4, by decide⟩]
      src := "56:200:0"
      members := [
        .event ⟨⟨"Paid", none, "70:10:0"⟩, true, ["address", "uint256"]⟩,
        .function ⟨⟨"", some "public", "81:20:0"⟩, "constructor", some "payable", true, ["address"],
          [], [⟨"guarded", " (uint256)"⟩]⟩,
        .other ⟨"StructDefinition", "102:9:0", by decide⟩,
        .field ⟨"owner", some "internal", "112:9:0"⟩,
        .modifier ⟨"guarded", none, "122:40:0"⟩,
        .function ⟨⟨"pay", some "external", "163:60:0"⟩, "function", some "nonpayable", true, [],
          ["bool", "uint256"], []⟩] }]

/-- The file of the sample. -/
def sampleCatalog : Catalog := .ofFiles [⟨"a.sol", none⟩]

end Model

end Build
end CodeAtlas
