import CodeAtlas.Contract.Model
import Std.Data.ExtTreeSet

/-! Questions to a model. -/
namespace CodeAtlas

namespace Visibility

/-- Every visibility of variables. -/
def ofFields : List Visibility := [.unmarked, .internal, .pub, .priv]

/-- The visibilities of variables that heirs can see. -/
def ofHeritableFields : List Visibility := [.unmarked, .internal, .pub]

/-- Every visibility of functions. -/
def ofMethods : List Visibility := [.external, .priv, .internal, .pub]

/-- The visibilities of functions that are not private. -/
def ofOpenMethods : List Visibility := [.external, .internal, .pub]

/-- Whether two lists name the same visibilities. -/
def sameSet (a b : List Visibility) : Bool := a.all b.contains && b.all a.contains

/-- Whether a visibility passes a filter. No filter, and one that names every visibility there
regularly is, lets all pass. -/
def passes (all : List Visibility) (filter : Option (List Visibility)) (v : Visibility) : Bool :=
  match filter with
  | none => true
  | some allowed => sameSet allowed all || allowed.contains v

end Visibility

/-- Which variables to list. -/
structure FieldFilter where
  visibility : Option (List Visibility) := none
  inheritedVisibility : List Visibility := Visibility.ofHeritableFields
  withInherited : Bool := false

def FieldFilter.accepts (q : FieldFilter) (v : StateVar) : Bool :=
  Visibility.passes Visibility.ofFields q.visibility v.visibility &&
    (v.inheritedFrom.isNone ||
      (q.withInherited && q.inheritedVisibility.contains v.visibility))

/-- Which functions to list. -/
structure MethodFilter where
  visibility : Option (List Visibility) := none
  withInherited : Bool := true

def MethodFilter.accepts (q : MethodFilter) (m : Method) : Bool :=
  (q.withInherited || m.inheritedFrom.isNone) &&
    Visibility.passes Visibility.ofMethods q.visibility m.visibility

namespace Model

/-- The contracts in ascending order of their identities. -/
def all (m : Model) : List Contract := m.contracts.values

def symbol? (m : Model) (id : Int) : Option String := m.names[id]?

/-- The name under which a contract is exported, or its own. -/
def exportName (m : Model) (c : Contract) : String := (m.symbol? c.id).getD c.name

def allNames (m : Model) : List String := m.all.map m.exportName

def contractById? (m : Model) (id : Int) : Option Contract := m.contracts[id]?

/-- The contract with a name: the one exported under it, else the first that bears it. -/
def contractByName (m : Model) (name : String) : Except Error Contract :=
  orError (.missingContract name) <|
    (m.symbols[name]?.bind m.contractById?).or (m.all.find? (·.name == name))

def abstracts (m : Model) : List Contract := m.all.filter (·.isAbstract)

def libraries (m : Model) : List Contract := m.all.filter (·.kind == .library)

/-- The names of the contracts that some contract has as a base. -/
def baseNames (m : Model) : Std.ExtTreeSet String :=
  Std.ExtTreeSet.ofList
    ((m.all.flatMap (·.bases)).filterMap fun id =>
      (m.symbol? id).or ((m.contractById? id).map (·.name)))
    compare

/-- The concrete contracts whose name is not that of a base. -/
def pruned (m : Model) : List Contract :=
  m.all.filter fun c =>
    !m.baseNames.contains c.name && !c.kind.isInterfaceOrLibrary && !c.isAbstract

def fieldsOf (m : Model) (name : String) (q : FieldFilter) : Except Error (List StateVar) :=
  (m.contractByName name).map fun c => c.fields.filter q.accepts

def methodsOf (m : Model) (name : String) (q : MethodFilter) : Except Error (List Method) :=
  (m.contractByName name).map fun c => c.methods.filter q.accepts

/-- The functions of a contract that have no body. -/
def abstractMethodsOf (m : Model) (name : String) : Except Error (List Method) :=
  (m.methodsOf name {}).map fun ms => ms.filter (·.isAbstract)

/-- The first function of a contract with a name. -/
def methodByName (m : Model) (contract name : String) : Except Error Method := do
  let methods ← m.methodsOf contract {}
  orError (.missingFunction contract name) (methods.find? (·.name == name))

def eventsOf (m : Model) (name : String) : Except Error (List Event) :=
  (m.contractByName name).map (·.events)

/-- The first event of a contract with a name. -/
def eventByName (m : Model) (contract name : String) : Except Error Event := do
  let events ← m.eventsOf contract
  orError (.missingEvent contract name) (events.find? (·.name == name))

end Model
end CodeAtlas
