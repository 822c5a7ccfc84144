import CodeAtlas.Error
import CodeAtlas.Version.Pragma

/-! The versions that can be installed, and the choice among them for a source file. -/
namespace CodeAtlas

/-- A place to ask for the versions that can be installed. Asking may fail and may change it. -/
class VersionFeed (σ : Type) where
  fetch : σ → Except Error (List Version) × σ

/-- A fixed list always answers with itself. -/
instance : VersionFeed (List Version) where
  fetch versions := (.ok versions, versions)

/-- A feed with the versions it gave, once it gave them. -/
structure Registry (σ : Type) where
  feed : σ
  known : Option (List Version) := none

namespace Registry

/-- Versions in ascending order, each once. -/
def ordered (versions : List Version) : List Version :=
  (versions.mergeSort Version.upTo).eraseReps

variable {σ : Type} [VersionFeed σ]

/-- The installable versions. The feed is asked until it answers, and then never again. -/
def versions (r : Registry σ) : Except Error (List Version) × Registry σ :=
  match r.known with
  | some found => (.ok found, r)
  | none =>
    match VersionFeed.fetch r.feed with
    | (.ok found, feed) => (.ok (ordered found), ⟨feed, some (ordered found)⟩)
    | (.error e, feed) => (.error e, ⟨feed, none⟩)

/-- The highest installable version that meets a requirement. -/
def latest (requirement : Version.Requirement) (r : Registry σ) :
    Except Error (Option Version) × Registry σ :=
  let (found, r) := r.versions
  (found.map fun all => all.reverse.find? requirement.holds, r)

/-- The installable versions that meet every pragma of a source. Without a pragma there are none,
and the feed is not asked. -/
def candidates (source : String) (r : Registry σ) : Except Error (List Version) × Registry σ :=
  match Version.Pragma.ofSource? source with
  | none => (.ok [], r)
  | some pragma =>
    let (found, r) := r.versions
    (found.map fun all => all.filter pragma.holds, r)

/-- The highest installable version that meets every pragma of a source. -/
def detect (source : String) (r : Registry σ) : Except Error (Option Version) × Registry σ :=
  let (found, r) := r.candidates source
  (found.map List.getLast?, r)

end Registry

namespace Version

/-- The version to try after `current` failed, and the candidates that then remain. The first
version of the previous minor line is preferred, with everything from it on dropped; otherwise it is
the last candidate. -/
def fallback (current : Version) (candidates : List Version) :
    Except Error (Version × List Version) :=
  let previous : Version := { major := current.major, minor := current.minor - 1, patch := 0 }
  if 0 < current.minor ∧ previous ∈ candidates then
    .ok (previous, candidates.filter (·.before previous))
  else
    match candidates.getLast? with
    | some last => .ok (last, candidates.dropLast)
    | none => .error (.notFound (.versionBefore current))

end Version
end CodeAtlas
