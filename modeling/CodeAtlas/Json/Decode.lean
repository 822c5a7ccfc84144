import CodeAtlas.Json.Basic

/-! Decoding JSON values into records. A record is an object with named members or an array with
its fields in their declared order; a decoder gives nothing when the value does not fit. -/
namespace CodeAtlas.Json

/-- The fields of a record. An object may hold other members too. An array holds the fields in order
and may end early, but holds no more than there are. -/
def fields? (keys : List String) : Json → Option (List (String × Json))
  | obj members => some members
  | arr items => if items.length ≤ keys.length then some (keys.zip items) else none
  | _ => none

def required? {α : Type} (key : String) (f : Json → Option α) (fields : List (String × Json)) :
    Option α :=
  (fields.lookup key).bind f

/-- A field with a default for when it is missing. -/
def defaulting? {α : Type} (key : String) (default : α) (f : Json → Option α)
    (fields : List (String × Json)) : Option α :=
  match fields.lookup key with
  | none => some default
  | some v => f v

/-- A value that may be `null`. -/
def nullable? {α : Type} (f : Json → Option α) : Json → Option (Option α)
  | null => some none
  | v => (f v).map some

/-- A field that may be missing or `null`. -/
def optional? {α : Type} (key : String) (f : Json → Option α) (fields : List (String × Json)) :
    Option (Option α) :=
  defaulting? key none (nullable? f) fields

/-- An array whose elements decode. -/
def list? {α : Type} (f : Json → Option α) (v : Json) : Option (List α) :=
  v.items?.bind (·.mapM f)

/-- An object whose members decode, in the order of the members. -/
def table? {α : Type} (f : Json → Option α) (v : Json) : Option (List (String × α)) :=
  v.members?.bind (·.mapM fun (key, v) => (f v).map (key, ·))

/-- One of finitely many named values: its name, or an object with the name as its only key and
`null` as its value. -/
def named? {α : Type} (names : List (String × α)) : Json → Option α
  | str name => names.lookup name
  | obj [(name, null)] => names.lookup name
  | _ => none

def any? (v : Json) : Option Json := some v

/-! ### Parts of a value are smaller -/

theorem sizeOf_lookup_lt {key : String} {v : Json} {fields : List (String × Json)}
    (h : fields.lookup key = some v) : sizeOf v < sizeOf fields := by
  induction fields with
  | nil => simp at h
  | cons p rest ih =>
    obtain ⟨k, w⟩ := p
    rw [List.lookup_cons] at h
    split at h
    · cases h
      simp
      omega
    · have := ih h
      simp
      omega

theorem sizeOf_lookup_zip_lt {keys : List String} {items : List Json} {key : String} {v : Json}
    (h : (keys.zip items).lookup key = some v) : sizeOf v < sizeOf items := by
  induction keys generalizing items with
  | nil => simp at h
  | cons k keys ih =>
    cases items with
    | nil => simp at h
    | cons w items =>
      rw [List.zip_cons_cons, List.lookup_cons] at h
      split at h
      · cases h
        simp
        omega
      · have := ih h
        simp
        omega

/-- A field of a record is smaller than the record. -/
theorem sizeOf_field_lt {keys : List String} {key : String} {v w : Json}
    {fields : List (String × Json)} (h : v.fields? keys = some fields)
    (hw : fields.lookup key = some w) : sizeOf w < sizeOf v := by
  unfold fields? at h
  split at h
  · cases h
    have := sizeOf_lookup_lt hw
    simp
    omega
  · split at h
    · cases h
      have := sizeOf_lookup_zip_lt hw
      simp
      omega
    · simp at h
  · simp at h

/-- A member's value is smaller than the object. -/
theorem sizeOf_snd_lt {p : String × Json} {members : List (String × Json)} (h : p ∈ members) :
    sizeOf p.2 < sizeOf members := by
  have := List.sizeOf_lt_of_mem h
  obtain ⟨k, v⟩ := p
  simp at this ⊢
  omega

end CodeAtlas.Json
