import CodeAtlas.Json.Decode
import CodeAtlas.Text.Split

/-! What the compiler reports about its input. -/
namespace CodeAtlas.Standard

/-- A report of the compiler. -/
structure Diagnostic where
  kind : String := ""
  severity : Option String := none
  message : String := ""
  formatted : Option String := none
  deriving DecidableEq, Repr

namespace Diagnostic

def toJson (d : Diagnostic) : Json :=
  .obj [("type", .str d.kind), ("severity", .ofOption Json.str d.severity),
    ("message", .str d.message), ("formattedMessage", .ofOption Json.str d.formatted)]

def ofJson? (v : Json) : Option Diagnostic := do
  let fields ← v.fields? ["type", "severity", "message", "formattedMessage"]
  let kind ← Json.defaulting? "type" "" Json.text? fields
  let severity ← Json.optional? "severity" Json.text? fields
  let message ← Json.defaulting? "message" "" Json.text? fields
  let formatted ← Json.optional? "formattedMessage" Json.text? fields
  return { kind, severity, message, formatted }

/-- Whether the report is one of an error, such as `TypeError`. Its severity does not matter. -/
def isError (d : Diagnostic) : Bool := Text.includes "Error".toList d.kind.toList

/-- The text to show, with the place in the source if the compiler has put it in. -/
def text (d : Diagnostic) : String := d.formatted.getD d.message

def errors (ds : List Diagnostic) : List String := (ds.filter isError).map text

/-- The texts of all errors that an output reports. Reports that do not decode count as none. -/
def errorsIn (output : Json) : List String :=
  errors (((output.member? "errors").bind (Json.list? ofJson?)).getD [])

end Diagnostic
end CodeAtlas.Standard
