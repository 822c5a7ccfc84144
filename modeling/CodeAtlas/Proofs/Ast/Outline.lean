import CodeAtlas.Ast.Dialect
import CodeAtlas.Contract.Kind

/-! What a source unit declares, without regard to how a tree states it, and the tree of each form
that states it. A node has its members in ascending order of their keys, as if read from text. -/
namespace CodeAtlas.Outline

/-- An identity, in the range of signed machine numbers. -/
structure Identity where
  value : Int
  inRange : -(Text.signedBound : Int) ≤ value ∧ value < Text.signedBound

/-- What every member of a contract has. It may lack a name, then empty, or a visibility. -/
structure Heading where
  name : String
  visibility : Option String
  src : String

/-- A modifier that is applied to a function, with what its type says of its arguments. -/
structure AppliedModifier where
  name : String
  arguments : String

/-- A function, constructor, fallback or receiver. -/
structure Function extends Heading where
  kind : String
  mutability : Option String
  implemented : Bool
  parameters : List String
  returns : List String
  modifiers : List AppliedModifier

/-- An event. -/
structure Event extends Heading where
  anonymous : Bool
  parameters : List String

/-- A declaration of which nothing is read, since its kind is none of those that are. -/
structure Aside (kinds : List String) where
  kind : String
  src : String
  isUnread : kind ∉ kinds

/-- The kinds of nodes that are read among the parts of a contract. -/
def memberKinds : List String :=
  ["FunctionDefinition", "VariableDeclaration", "ModifierDefinition", "EventDefinition",
    "InheritanceSpecifier"]

/-- A member of a contract. -/
inductive Member where
  | function (f : Function)
  | field (v : Heading)
  | modifier (m : Heading)
  | event (e : Event)
  | other (o : Aside memberKinds)

/-- A contract, interface or library, with its members in order. -/
structure Contract where
  id : Identity
  isIndex : 0 ≤ id.value
  name : String
  isNamed : name ≠ ""
  kind : ContractKind
  isAbstract : Bool
  bases : List Identity
  src : String
  members : List Member

/-- A declaration of a source unit. -/
inductive Item where
  | contract (c : Contract)
  | other (o : Aside ["ContractDefinition"])

/-- A source unit: the declarations under each exported name, and its items in order. -/
structure SourceUnit where
  symbols : List (String × List Identity)
  items : List Item

/-! ### Nested trees -/

/-- A nested node. -/
def nestedNode (kind : String) (id : Option Int) (src : Option String)
    (attributes : List (String × Json)) (children : List Json) : Json :=
  .obj [("attributes", .obj attributes), ("children", .arr children), ("id", .ofOption .int id),
    ("name", .str kind), ("src", .ofOption .str src)]

/-- The attributes of a member's heading. -/
def Heading.attributes (h : Heading) : List (String × Json) :=
  [("name", .str h.name), ("visibility", .ofOption .str h.visibility)]

/-- A parameter in a nested list. -/
def nestedParameter (type : String) : Json :=
  nestedNode "VariableDeclaration" none none [("type", .str type)] []

/-- A nested list of parameters. -/
def nestedList (types : List String) : Json :=
  nestedNode "ParameterList" none none [] (types.map nestedParameter)

/-- The nested node that invokes something with a type. -/
def nestedInvocation (type name : String) : Json :=
  nestedNode "ModifierInvocation" none none []
    [nestedNode "Identifier" none none [("type", .str type), ("value", .str name)] []]

/-- The nested node that applies a modifier. -/
def AppliedModifier.nested (m : AppliedModifier) : Json :=
  nestedInvocation ("modifier" ++ m.arguments) m.name

/-- The nested node that names a base. -/
def Identity.nestedBase (base : Identity) : Json :=
  nestedNode "InheritanceSpecifier" none none []
    [nestedNode "UserDefinedTypeName" none none [("referencedDeclaration", .int base.value)] []]

/-! ### Flat trees -/

/-- A parameter in a flat list. -/
def flatParameter (type : String) : Json :=
  .obj [("typeDescriptions", .obj [("typeString", .str type)])]

/-- A flat list of parameters. -/
def flatList (types : List String) : Json := .obj [("parameters", .ofList flatParameter types)]

/-- The value that applies a modifier. -/
def AppliedModifier.flat (m : AppliedModifier) : Json :=
  .obj [("modifierName", .obj [("name", .str m.name)])]

/-- The value that names a base. -/
def Identity.flatBase (base : Identity) : Json :=
  .obj [("baseName", .obj [("referencedDeclaration", .int base.value)])]

/-! ### Trees of either form -/

/-- The node of a member that has nothing beyond its heading. -/
def Heading.render (kind : String) (h : Heading) : Form → Json
  | .nested => nestedNode kind none (some h.src) h.attributes []
  | .flat =>
    .obj [("name", .str h.name), ("nodeType", .str kind), ("src", .str h.src),
      ("visibility", .ofOption .str h.visibility)]

/-- The node of a function. A nested one has the lists of parameters and results as its first
parts, and then the modifiers. -/
def Function.render (f : Function) : Form → Json
  | .nested =>
    nestedNode "FunctionDefinition" none (some f.src)
      [("implemented", .bool f.implemented), ("kind", .str f.kind), ("name", .str f.name),
        ("stateMutability", .ofOption .str f.mutability),
        ("visibility", .ofOption .str f.visibility)]
      (nestedList f.parameters :: nestedList f.returns :: f.modifiers.map AppliedModifier.nested)
  | .flat =>
    .obj [("implemented", .bool f.implemented), ("kind", .str f.kind),
      ("modifiers", .ofList AppliedModifier.flat f.modifiers), ("name", .str f.name),
      ("nodeType", .str "FunctionDefinition"), ("parameters", flatList f.parameters),
      ("returnParameters", flatList f.returns), ("src", .str f.src),
      ("stateMutability", .ofOption .str f.mutability),
      ("visibility", .ofOption .str f.visibility)]

/-- The node of an event. -/
def Event.render (e : Event) : Form → Json
  | .nested =>
    nestedNode "EventDefinition" none (some e.src)
      [("anonymous", .bool e.anonymous), ("name", .str e.name),
        ("visibility", .ofOption .str e.visibility)]
      [nestedList e.parameters]
  | .flat =>
    .obj [("anonymous", .bool e.anonymous), ("name", .str e.name),
      ("nodeType", .str "EventDefinition"), ("parameters", flatList e.parameters),
      ("src", .str e.src), ("visibility", .ofOption .str e.visibility)]

/-- The node of a declaration of which nothing is read. -/
def Aside.render {kinds : List String} (o : Aside kinds) : Form → Json
  | .nested => nestedNode o.kind none (some o.src) [] []
  | .flat => .obj [("nodeType", .str o.kind), ("src", .str o.src)]

/-- The node of a member. -/
def Member.render (form : Form) : Member → Json
  | .function f => f.render form
  | .field v => v.render "VariableDeclaration" form
  | .modifier m => m.render "ModifierDefinition" form
  | .event e => e.render form
  | .other o => o.render form

/-- The node of a contract. A nested one states by its implementation whether it is abstract, and
names its bases among its parts. -/
def Contract.render (c : Contract) : Form → Json
  | .nested =>
    nestedNode "ContractDefinition" (some c.id.value) (some c.src)
      [("contractKind", .str c.kind.keyword), ("fullyImplemented", .bool (!c.isAbstract)),
        ("name", .str c.name)]
      (c.bases.map Identity.nestedBase ++ c.members.map (Member.render .nested))
  | .flat =>
    .obj [("abstract", .bool c.isAbstract), ("baseContracts", .ofList Identity.flatBase c.bases),
      ("contractKind", .str c.kind.keyword), ("id", .int c.id.value), ("name", .str c.name),
      ("nodeType", .str "ContractDefinition"),
      ("nodes", .ofList (Member.render .flat) c.members), ("src", .str c.src)]

/-- The node of an item. -/
def Item.render (form : Form) : Item → Json
  | .contract c => c.render form
  | .other o => o.render form

/-- The exported symbols, as both forms state them. -/
def SourceUnit.exports (d : SourceUnit) : Json :=
  .obj (d.symbols.map fun (name, ids) => (name, .ofList (fun id => .int id.value) ids))

/-- The tree of a source unit. -/
def SourceUnit.render (d : SourceUnit) : Form → Json
  | .nested =>
    nestedNode "SourceUnit" none none [("exportedSymbols", d.exports)]
      (d.items.map (Item.render .nested))
  | .flat =>
    .obj [("exportedSymbols", d.exports), ("nodeType", .str "SourceUnit"),
      ("nodes", .ofList (Item.render .flat) d.items)]

end CodeAtlas.Outline
