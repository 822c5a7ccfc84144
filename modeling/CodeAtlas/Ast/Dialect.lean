import CodeAtlas.Error
import CodeAtlas.Json.Decode
import CodeAtlas.Text.Split

/-! The dialects in which compilers write syntax trees, by release line. -/
namespace CodeAtlas

/-- The shape of a syntax-tree node in JSON. -/
inductive Form where
  /-- Properties under `attributes`, parts under `children`. -/
  | nested
  /-- Properties beside the node's kind, parts under `nodes`. -/
  | flat
  deriving DecidableEq, Repr

inductive Dialect where
  | v4
  | v5
  | v6
  | v7
  | v8
  deriving DecidableEq, Repr

namespace Dialect

/-- The dialect of a version: the line of its minor number, the newest from 0.8 on. -/
def ofVersion (v : Version) : Dialect :=
  if v.major ≠ 0 then .v8
  else if v.minor ≤ 4 then .v4
  else if v.minor = 5 then .v5
  else if v.minor = 6 then .v6
  else if v.minor = 7 then .v7
  else .v8

/-- The dialect of a version given as text, blanks around it and letters `v` before it aside. -/
def parse (text : String) : Except Error Dialect :=
  match Version.parseChars ((Text.trim text.toList).dropWhile (· == 'v')) with
  | .ok v => .ok (ofVersion v)
  | .error fault => .error (.invalidVersion text fault)

def form : Dialect → Form
  | .v8 => .flat
  | _ => .nested

def name : Dialect → String
  | .v4 => "v4"
  | .v5 => "v5"
  | .v6 => "v6"
  | .v7 => "v7"
  | .v8 => "v8"

def names : List (String × Dialect) :=
  [("V4", .v4), ("V5", .v5), ("V6", .v6), ("V7", .v7), ("V8", .v8)]

def toJson : Dialect → Json
  | .v4 => .str "V4"
  | .v5 => .str "V5"
  | .v6 => .str "V6"
  | .v7 => .str "V7"
  | .v8 => .str "V8"

def ofJson? : Json → Option Dialect := Json.named? names

end Dialect

def Form.isNested : Form → Bool
  | .nested => true
  | .flat => false

def Form.kindKey : Form → String
  | .nested => "name"
  | .flat => "nodeType"

def Form.childrenKey : Form → String
  | .nested => "children"
  | .flat => "nodes"

end CodeAtlas
