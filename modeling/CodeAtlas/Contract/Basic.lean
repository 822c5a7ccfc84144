import CodeAtlas.Contract.Kind
import CodeAtlas.Source.Excerpt
import CodeAtlas.Span

/-! Contracts and their members. -/
namespace CodeAtlas

/-- Where a declaration stands: its range, its lines and its text, as far as the source is known. -/
structure Anchor where
  span : Span
  lines : Option Lines
  text : String
  deriving DecidableEq, Repr

/-- A state variable. An inherited one names the contract that declares it. -/
structure StateVar where
  name : String
  visibility : Visibility
  anchor : Anchor
  inheritedFrom : Option String := none
  deriving DecidableEq, Repr

/-- A function, constructor, fallback or receiver. Constructors have empty signatures. -/
structure Method where
  name : String
  kind : FunctionKind
  visibility : Visibility
  mutability : Option String
  isAbstract : Bool
  signature : String
  returnSignature : String
  modifiers : List String
  anchor : Anchor
  inheritedFrom : Option String := none
  deriving DecidableEq, Repr

structure Event where
  name : String
  visibility : Visibility
  anonymous : Bool
  signature : String
  anchor : Anchor
  deriving DecidableEq, Repr

structure Modifier where
  name : String
  visibility : Visibility
  anchor : Anchor
  deriving DecidableEq, Repr

/-- A contract, interface or library. Its identity is the number that the compiler gave it; names may
repeat across files. -/
structure Contract where
  id : Int
  name : String
  kind : ContractKind
  isAbstract : Bool
  bases : List Int
  /-- The key of the unit that declares it. -/
  unit : String
  span : Span
  lines : Option Lines
  fields : List StateVar := []
  methods : List Method := []
  modifiers : List Modifier := []
  events : List Event := []
  deriving DecidableEq, Repr

def Anchor.toMembers (a : Anchor) : List (String × Json) :=
  [("raw", .str a.text), ("src", a.span.toJson), ("lines", .ofOption Lines.toJson a.lines)]

def StateVar.toJson (v : StateVar) : Json :=
  .obj <| [("name", .str v.name), ("visibility", v.visibility.toJson),
    ("inherited_from", .ofOption Json.str v.inheritedFrom)] ++ v.anchor.toMembers

def Method.toJson (m : Method) : Json :=
  .obj <| [("name", .str m.name), ("kind", m.kind.toJson), ("visibility", m.visibility.toJson),
    ("state_mutability", .ofOption Json.str m.mutability), ("is_abstract", .bool m.isAbstract),
    ("signature", .str m.signature), ("return_signature", .str m.returnSignature),
    ("modifiers", .ofList Json.str m.modifiers),
    ("inherited_from", .ofOption Json.str m.inheritedFrom)] ++ m.anchor.toMembers

def Event.toJson (e : Event) : Json :=
  .obj <| [("name", .str e.name), ("visibility", e.visibility.toJson),
    ("anonymous", .bool e.anonymous), ("signature", .str e.signature)] ++ e.anchor.toMembers

def Modifier.toJson (m : Modifier) : Json :=
  .obj <| [("name", .str m.name), ("visibility", m.visibility.toJson)] ++ m.anchor.toMembers

def Contract.toJson (c : Contract) : Json :=
  .obj [("id", .int c.id), ("name", .str c.name), ("kind", c.kind.toJson),
    ("is_abstract", .bool c.isAbstract), ("base_contracts", .ofList Json.int c.bases),
    ("source_id", .str c.unit), ("src", c.span.toJson),
    ("lines", .ofOption Lines.toJson c.lines), ("fields", .ofList StateVar.toJson c.fields),
    ("functions", .ofList Method.toJson c.methods),
    ("modifiers", .ofList Modifier.toJson c.modifiers), ("events", .ofList Event.toJson c.events)]

end CodeAtlas
