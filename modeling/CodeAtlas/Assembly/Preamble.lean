import CodeAtlas.Error
import CodeAtlas.Text.Split

/-! The start of deployed code inside a listing that begins with deployment code. -/
namespace CodeAtlas.Assembly

/-- The tokens with which code begins, for newer and for older compilers. -/
def preambles : List (List String) :=
  [["PUSH1", "0x80", "PUSH1", "0x40", "MSTORE"], ["PUSH1", "0x60", "PUSH1", "0x40", "MSTORE"]]

def listingTokens (opcodes : String) : List String := Text.words opcodes

/-- The first position at which a pattern occurs. -/
def firstAt? (pattern : List String) : List String → Option Nat
  | [] => none
  | token :: rest =>
    if pattern.isPrefixOf (token :: rest) then some 0 else (firstAt? pattern rest).map (· + 1)

/-- The first position after the very start at which a pattern occurs. -/
def laterAt? (pattern tokens : List String) : Option Nat :=
  (firstAt? pattern tokens.tail).map (· + 1)

/-- Whether tokens end with the check that guards a library's code against direct calls. -/
def endsWithGuard (tokens : List String) : Bool :=
  match tokens.reverse with
  | "EQ" :: "ADDRESS" :: _ :: "PUSH20" :: _ => true
  | _ => false

/-- The listing of the deployed code: from the first preamble after the start on, and with the
guard right before it if there is one. The newer preamble is looked for first. -/
def deployedTokens (tokens : List String) : Except Error (List String) :=
  match preambles.findSome? (laterAt? · tokens) with
  | none => .error (.noPreamble tokens.length)
  | some position =>
    .ok (tokens.drop (if endsWithGuard (tokens.take position) then position - 4 else position))

end CodeAtlas.Assembly
