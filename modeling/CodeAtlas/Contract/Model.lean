import CodeAtlas.Ast.Unit
import CodeAtlas.Contract.Builder
import CodeAtlas.Contract.Inheritance

/-! The model of a compilation: its contracts with inherited members, and its exported symbols. -/
namespace CodeAtlas

/-- A model: contracts by identity, exported symbols with the identities they name, and the symbols
under their identities. -/
structure Model where
  contracts : Contracts
  symbols : Std.ExtTreeMap String Int
  names : Std.ExtTreeMap Int String

namespace Model

abbrev KeyedUnit := String × Ast.SourceUnit

def declared (catalog : Catalog) (u : KeyedUnit) : Except Error (List Contract) :=
  u.2.contracts.mapM (Contract.ofNode catalog u.1)

/-- The units to take: of several with one key the first. -/
def distinct (units : List KeyedUnit) : List KeyedUnit :=
  units.eraseDupsBy fun a b => a.1 == b.1

/-- The symbols that units export; a later one replaces an earlier one of the same name. -/
def symbolsOf (units : List KeyedUnit) : Std.ExtTreeMap String Int :=
  Std.ExtTreeMap.ofList (units.flatMap (·.2.root.exportedSymbols)) compare

/-- An order in which tables of symbols are gone through. A table has none of its own: each entry
comes once, and no more is known about it. -/
structure Traversal where
  entries : Std.ExtTreeMap String Int → List (String × Int)
  perm : ∀ symbols, (entries symbols).Perm symbols.toList

/-- The traversal in ascending order of the names. -/
def Traversal.ascending : Traversal := ⟨fun symbols => symbols.toList, fun _ => .refl _⟩

/-- The symbols under the identities that they name. Of several that name one identity the last that
the traversal comes to is kept. -/
def namesOf (order : Traversal) (symbols : Std.ExtTreeMap String Int) : Std.ExtTreeMap Int String :=
  Std.ExtTreeMap.ofList ((order.entries symbols).map Prod.swap) compare

/-- Contracts under their identities; a later one replaces an earlier one of the same identity. -/
def byId (contracts : List Contract) : Contracts :=
  Std.ExtTreeMap.ofList (contracts.map fun c => (c.id, c)) compare

def build (order : Traversal) (catalog : Catalog) (units : List KeyedUnit) :
    Except Error Model := do
  let units := distinct units
  let contracts ← units.mapM (declared catalog)
  let symbols := symbolsOf units
  return { contracts := (byId contracts.flatten).resolve, symbols, names := namesOf order symbols }

end Model
end CodeAtlas
