import CodeAtlas.Contract.Query
import CodeAtlas.Literal.Collection

/-! What the syntax trees and the sources of a compilation give together. -/
namespace CodeAtlas

/-- The syntax trees of a compilation, under the keys of their files. -/
abbrev Units := Std.ExtTreeMap String Ast.SourceUnit

/-- Decodes trees under the keys of their files, in the order given. Of several under one key only
the first is decoded. -/
def Units.ofTrees (form : Form) (trees : List (String × Json)) : Except Error Units := do
  let distinct := trees.eraseDupsBy fun a b => a.1 == b.1
  let units ← distinct.mapM fun (key, tree) => (Ast.SourceUnit.ofJson form tree).map (key, ·)
  return Std.ExtTreeMap.ofList units compare

/-- A list with values at given indexes: the last one given for an index, and a filler at an index
for which there is none. It ends with the highest index. -/
def tabulateIndexed {α : Type} (filler : α) (indexed : List (Nat × α)) : List α :=
  let size := (indexed.map (·.1 + 1)).foldl max 0
  (List.range size).map fun i => (indexed.reverse.lookup i).getD filler

/-- The files of a compilation, its syntax trees and its model. -/
structure Compilation where
  catalog : Catalog
  units : Units
  model : Model

namespace Compilation

def load (order : Model.Traversal) (catalog : Catalog) (units : Units) : Except Error Compilation :=
  (Model.build order catalog units.toList).map ({ catalog, units, model := · })

/-- The literals of a contract, found by its name in the model. -/
def literals (c : Compilation) (name : String) : Except Error LiteralSet := do
  let contract ← c.model.contractByName name
  let found ← orError (.missingContract name)
    (c.units[contract.unit]?.bind (·.literalsOf? contract.name))
  return LiteralSet.ofList found

def literalValues (c : Compilation) (name : String) : Except Error LiteralValues :=
  (c.literals name).map LiteralValues.ofSet

end Compilation
end CodeAtlas
