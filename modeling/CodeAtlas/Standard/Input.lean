import CodeAtlas.Error
import CodeAtlas.Json.Decode
import Std.Data.ExtTreeMap

/-! The compiler's standard input: what it compiles and which output it is asked for. -/
namespace CodeAtlas.Standard

/-- The texts that an input holds, under the paths of their files. A file may have none. -/
abbrev InputTexts := Std.ExtTreeMap String (Option String)

def inputText? (v : Json) : Option (Option String) :=
  (v.fields? ["content"]).bind (Json.optional? "content" Json.text?)

def inputTexts? (v : Json) : Option InputTexts := do
  let fields ← v.fields? ["sources"]
  let texts ← Json.defaulting? "sources" [] (Json.table? inputText?) fields
  return Std.ExtTreeMap.ofList texts compare

/-- The selection of all output there is, for every contract of every file, and of the syntax tree
of every file. -/
def everyOutput : Json :=
  .obj [("*", .obj [("", .arr [.str "ast"]), ("*", .arr [.str "*"])])]

/-- Members with one of them set to a value. The keys stay in order. -/
def setMember (key : String) (value : Json) : List (String × Json) → List (String × Json)
  | [] => [(key, value)]
  | (k, v) :: rest =>
    if k = key then (key, value) :: rest
    else if key < k then (key, value) :: (k, v) :: rest
    else (k, v) :: setMember key value rest

/-- The input that asks for all output, with its other settings kept. -/
def selectEveryOutput : Json → Except Error Json
  | .obj root => do
    let settings ← match root.lookup "settings" with
      | none => pure []
      | some (.obj settings) => pure settings
      | some _ => throw (.schema .standardSettings)
    let settings := setMember "outputSelection" everyOutput settings
    return .obj (setMember "settings" (.obj settings) root)
  | _ => throw (.schema .standardInput)

end CodeAtlas.Standard
