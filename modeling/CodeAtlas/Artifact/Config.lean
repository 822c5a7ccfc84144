import CodeAtlas.Json.Decode

/-! Settings for loading compiler output. -/
namespace CodeAtlas

/-- Where sources are, how much to remember, and whether to trust a list of sources in the output. -/
structure Config where
  basePath : Option String := none
  cacheCapacity : Nat := 256
  preferListedSources : Bool := true
  deriving DecidableEq, Repr

namespace Config

def toJson (c : Config) : Json :=
  .obj [("base_path", .ofOption Json.str c.basePath), ("cache_capacity", .nat c.cacheCapacity),
    ("prefer_asm_source_list", .bool c.preferListedSources)]

/-- The settings that a record holds; what it leaves out has its default. -/
def ofJson? (v : Json) : Option Config := do
  let fields ← v.fields? ["base_path", "cache_capacity", "prefer_asm_source_list"]
  let default : Config := {}
  let basePath ← Json.optional? "base_path" Json.text? fields
  let cacheCapacity ← Json.defaulting? "cache_capacity" default.cacheCapacity Json.natural? fields
  let preferListedSources ←
    Json.defaulting? "prefer_asm_source_list" default.preferListedSources Json.truth? fields
  return { basePath, cacheCapacity, preferListedSources }

end Config
end CodeAtlas
