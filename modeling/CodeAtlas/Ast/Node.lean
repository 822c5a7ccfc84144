import CodeAtlas.Ast.Dialect
import CodeAtlas.Json.Decode
import CodeAtlas.Span

/-! Nodes of syntax trees, decoded from either form. -/
namespace CodeAtlas.Ast

/-- A node: its form and kind, its identity and place, its properties and its parts. Nested nodes
may lack properties or parts; flat nodes always have both. -/
structure Node where
  form : Form
  kind : String
  id : Option Int
  src : Option String
  properties : Option (List (String × Json))
  children : Option (List Node)

namespace Node

def nestedKeys : List String := ["name", "id", "src", "attributes", "children"]

/-- The members of a flat node that are not properties. -/
def flatKeys : List String := ["nodeType", "id", "src", "nodes"]

def ofNested? (v : Json) : Option Node :=
  match _hv : v.fields? nestedKeys with
  | none => none
  | some fields => do
    let kind ← Json.required? "name" Json.text? fields
    let id ← Json.optional? "id" Json.integer? fields
    let src ← Json.optional? "src" Json.text? fields
    let properties ← Json.optional? "attributes" Json.members? fields
    let children ← match _hc : fields.lookup "children" with
      | none => some none
      | some .null => some none
      | some (.arr items) => (items.attach.mapM fun item => ofNested? item.val).map some
      | some _ => none
    return ⟨.nested, kind, id, src, properties, children⟩
termination_by sizeOf v
decreasing_by
  have hitem := List.sizeOf_lt_of_mem item.property
  have hfield := Json.sizeOf_field_lt _hv _hc
  simp at hfield
  omega

/-- Decodes a flat node with all its parts. Every member that is not one of the node's own fields is
a property. -/
def ofFlat? (v : Json) : Option Node :=
  match _hv : v.members? with
  | none => none
  | some members => do
    let kind ← Json.required? "nodeType" Json.text? members
    let id ← Json.optional? "id" Json.integer? members
    let src ← Json.optional? "src" Json.text? members
    let children ← match _hc : members.lookup "nodes" with
      | none => some []
      | some (.arr items) => items.attach.mapM fun item => ofFlat? item.val
      | some _ => none
    return ⟨.flat, kind, id, src, some (members.filter fun m => !flatKeys.contains m.1),
      some children⟩
termination_by sizeOf v
decreasing_by
  have hitem := List.sizeOf_lt_of_mem item.property
  have hfield := Json.sizeOf_lookup_lt _hc
  cases v with
  | obj ms =>
    cases _hv
    simp at hfield ⊢
    omega
  | _ => simp [Json.members?] at _hv

def ofJson? : Form → Json → Option Node
  | .nested => ofNested?
  | .flat => ofFlat?

def parts (n : Node) : List Node := n.children.getD []

def is (n : Node) (kind : String) : Bool := n.kind == kind

/-- A property; `null` counts as none. -/
def property? (n : Node) (key : String) : Option Json :=
  (n.properties.bind (·.lookup key)).filter (!·.isNull)

def text? (n : Node) (key : String) : Option String := (n.property? key).bind Json.text?

def truth? (n : Node) (key : String) : Option Bool := (n.property? key).bind Json.truth?

/-- The declared name, unless it is empty. -/
def name? (n : Node) : Option String := (n.text? "name").filter (· ≠ "")

def span (n : Node) : Except Error Span :=
  match n.src with
  | none => nodeError n.kind .noSource
  | some text => Span.parse text

end Node
end CodeAtlas.Ast
