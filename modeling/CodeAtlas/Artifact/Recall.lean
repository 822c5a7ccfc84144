import CodeAtlas.Combined.Artifact
import CodeAtlas.Memo
import CodeAtlas.Standard.Artifact

/-! Questions about loaded output that use what was computed before. -/
namespace CodeAtlas

/-- What is remembered: program-counter tables and source maps by contract and kind of code, and
fragments by contract, program counter and kind of code. -/
structure Session where
  tables : Memo (String × Bool) Assembly.PcTable
  maps : Memo (String × Bool) (List Span)
  fragments : Memo (String × Nat × Bool) (Option Fragment)

def Session.empty (capacity : Nat) : Session := ⟨.empty capacity, .empty capacity, .empty capacity⟩

/-- A question that may use and extend what is remembered, also when it fails. -/
abbrev Remembering := ExceptT Error (StateM Session)

namespace Remembering

variable {α : Type}

def ofExcept (answer : Except Error α) : Remembering α := fun s => (answer, s)

def table (key : String × Bool) (compute : Remembering Assembly.PcTable) :
    Remembering Assembly.PcTable :=
  Memo.through Session.tables (fun m s => { s with tables := m }) key compute

def map (key : String × Bool) (compute : Remembering (List Span)) : Remembering (List Span) :=
  Memo.through Session.maps (fun m s => { s with maps := m }) key compute

def fragment (key : String × Nat × Bool) (compute : Remembering (Option Fragment)) :
    Remembering (Option Fragment) :=
  Memo.through Session.fragments (fun m s => { s with fragments := m }) key compute

end Remembering

namespace Combined.Artifact

def recallTable (a : Artifact) (name : String) (deploy : Bool) : Remembering Assembly.PcTable := do
  let (qualified, o) ← .ofExcept (a.entry name)
  .table (qualified, deploy) (.ofExcept (tableOf qualified o deploy))

def recallMap (a : Artifact) (name : String) (deploy : Bool) : Remembering (List Span) := do
  let (qualified, o) ← .ofExcept (a.entry name)
  .map (qualified, deploy) (.ofExcept (.ok (SourceMap.decode (o.mapFor deploy))))

def recallFragment (a : Artifact) (name : String) (pc : Nat) (deploy : Bool) :
    Remembering (Option Fragment) := do
  let (qualified, o) ← .ofExcept (a.entry name)
  .fragment (qualified, pc, deploy) do
    let table ← a.recallTable name deploy
    let map ← a.recallMap name deploy
    return (a.sectionOf qualified o deploy table map).resolve? a.compilation.catalog pc

end Combined.Artifact

namespace Standard.Artifact

def recallTableIn (a : Artifact) (file name : String) (deploy : Bool) :
    Remembering Assembly.PcTable := do
  let qualified := qualify file name
  let o ← .ofExcept (a.first qualified)
  .table (qualified, deploy) (.ofExcept (tableOf qualified o.output deploy))

def recallTable (a : Artifact) (name : String) (deploy : Bool) : Remembering Assembly.PcTable := do
  let o ← .ofExcept (a.first name)
  a.recallTableIn o.file o.name deploy

def recallMap (qualified : String) (o : ContractOutput) (deploy : Bool) :
    Remembering (List Span) :=
  .map (qualified, deploy) (.ofExcept (.ok (SourceMap.decode (o.mapFor deploy))))

def recallFragmentIn (a : Artifact) (file name : String) (pc : Nat) (deploy : Bool) :
    Remembering (Option Fragment) := do
  let qualified := qualify file name
  let o ← .ofExcept (a.first qualified)
  .fragment (qualified, pc, deploy) do
    let table ← a.recallTableIn file name deploy
    let map ← recallMap qualified o.output deploy
    return (a.sectionOf file o.output deploy table map).nearest? a.compilation.catalog pc

/-- The piece of source for a program counter, from the first contract of a name that has one. -/
def recallFragment (a : Artifact) (name : String) (pc : Nat) (deploy : Bool) :
    Remembering (Option Fragment) :=
  match a.occurrences name with
  | [] => .ofExcept (.error (.missingContract name))
  | found =>
    search (m := StateM Session) (1 < found.length)
      (fun o => a.recallFragmentIn o.file o.name pc deploy) found

end Standard.Artifact
end CodeAtlas
