import CodeAtlas.Error
import CodeAtlas.Json.Decode

/-! The kinds of contracts and functions, and the visibility of members. -/
namespace CodeAtlas

inductive ContractKind where
  | contract
  | interface
  | library
  deriving DecidableEq, Repr

namespace ContractKind

def keyword : ContractKind → String
  | contract => "contract"
  | interface => "interface"
  | library => "library"

def parse (s : String) : Except Error ContractKind :=
  match s with
  | "contract" => .ok contract
  | "interface" => .ok interface
  | "library" => .ok library
  | _ => .error (.schema (.contractKind s))

/-- Interfaces and libraries are not deployed as contracts of their own. -/
def isInterfaceOrLibrary : ContractKind → Bool
  | contract => false
  | _ => true

def names : List (String × ContractKind) :=
  [("Contract", contract), ("Interface", interface), ("Library", library)]

def toJson : ContractKind → Json
  | contract => .str "Contract"
  | interface => .str "Interface"
  | library => .str "Library"

def ofJson? : Json → Option ContractKind := Json.named? names

end ContractKind

inductive FunctionKind where
  | function
  | constructor
  | fallback
  | receive
  | event
  deriving DecidableEq, Repr

namespace FunctionKind

def keyword : FunctionKind → String
  | function => "function"
  | constructor => "constructor"
  | fallback => "fallback"
  | receive => "receive"
  | event => "event"

/-- The kind that a keyword names. A free function is a function. -/
def parse (s : String) : Except Error FunctionKind :=
  match s with
  | "function" => .ok function
  | "freeFunction" => .ok function
  | "constructor" => .ok constructor
  | "fallback" => .ok fallback
  | "receive" => .ok receive
  | "event" => .ok event
  | _ => .error (.schema (.functionKind s))

def names : List (String × FunctionKind) :=
  [("Function", function), ("Constructor", constructor), ("Fallback", fallback),
   ("Receive", receive), ("Event", event)]

def toJson : FunctionKind → Json
  | function => .str "Function"
  | constructor => .str "Constructor"
  | fallback => .str "Fallback"
  | receive => .str "Receive"
  | event => .str "Event"

def ofJson? : Json → Option FunctionKind := Json.named? names

end FunctionKind

inductive Visibility where
  | unmarked
  | internal
  | pub
  | priv
  | external
  deriving DecidableEq, Repr

namespace Visibility

def keyword : Visibility → String
  | .unmarked => "default"
  | .internal => "internal"
  | .pub => "public"
  | .priv => "private"
  | .external => "external"

/-- The visibility that a keyword names; without a known one it is unmarked. -/
def ofKeyword (s : Option String) : Visibility :=
  match s with
  | some "internal" => .internal
  | some "public" => .pub
  | some "private" => .priv
  | some "external" => .external
  | _ => .unmarked

def names : List (String × Visibility) :=
  [("Default", .unmarked), ("Internal", .internal), ("Public", .pub), ("Private", .priv),
   ("External", .external)]

def toJson : Visibility → Json
  | .unmarked => .str "Default"
  | .internal => .str "Internal"
  | .pub => .str "Public"
  | .priv => .str "Private"
  | .external => .str "External"

def ofJson? : Json → Option Visibility := Json.named? names

end Visibility
end CodeAtlas
