import CodeAtlas.Json.Basic

/-! Writing JSON values as compact text. -/
namespace CodeAtlas.Json

/-- A character inside a JSON string. -/
def escapeChar (c : Char) : String :=
  if c = '"' then "\\\""
  else if c = '\\' then "\\\\"
  else if c.toNat < 0x20 then "\\u" ++ Text.hexadecimal 4 c.toNat
  else String.ofList [c]

def quote (s : String) : String := "\"" ++ String.join (s.toList.map escapeChar) ++ "\""

/-- A double in decimal, with all its places. -/
def doubleText (size : Double) : String :=
  let places := (-size.exponent).toNat
  Text.decimal (size.mantissa <<< size.exponent.toNat * Nat.pow 5 places) ++ "e" ++
    Text.signedDecimal (-(places : Int))

mutual

/-- A value without blanks. -/
def render : Json → String
  | null => "null"
  | bool b => if b then "true" else "false"
  | int n => Text.signedDecimal n
  | real negative size => (if negative then "-" else "") ++ doubleText size
  | str s => quote s
  | arr items => "[" ++ String.intercalate "," (renderItems items) ++ "]"
  | obj members => "\x7b" ++ String.intercalate "," (renderMembers members) ++ "\x7d"

def renderItems : List Json → List String
  | [] => []
  | v :: vs => render v :: renderItems vs

def renderMembers : List (String × Json) → List String
  | [] => []
  | (key, v) :: rest => (quote key ++ ":" ++ render v) :: renderMembers rest

end

end CodeAtlas.Json
