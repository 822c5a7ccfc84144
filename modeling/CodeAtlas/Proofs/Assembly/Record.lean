import CodeAtlas.Assembly.Block
import CodeAtlas.Proofs.Json.Faithful

/-! Assembly written as a record and read again. Items and blocks survive it at every depth, and
whatever was read has numbers in the range that makes this so. -/
namespace CodeAtlas.Assembly

variable {v : Json}

namespace Item

variable {i : Item}

/-- The numbers of the item are those that machines have. -/
structure InRange (i : Item) : Prop where
  start : ∀ n, i.start = some n → Json.IsSigned n
  stop : ∀ n, i.stop = some n → Json.IsSigned n
  source : ∀ n, i.source = some n → Json.IsSigned n

/-- What the fields of an item are read from. -/
theorem ofJson?_eq_some :
    ofJson? v = some i ↔
      ∃ fields, v.fields? ["name", "begin", "end", "source", "value", "jumpType"] = some fields ∧
        Json.required? "name" Json.text? fields = some i.name ∧
        Json.optional? "begin" Json.integer? fields = some i.start ∧
        Json.optional? "end" Json.integer? fields = some i.stop ∧
        Json.optional? "source" Json.integer? fields = some i.source ∧
        Json.optional? "value" Json.text? fields = some i.value ∧
        Json.optional? "jumpType" Json.text? fields = some i.jump := by
  simp only [ofJson?, Option.bind_eq_bind, Option.bind_eq_some_iff]
  constructor
  · rintro ⟨fields, hfields, name, hname, start, hstart, stop, hstop, source, hsource, value, hvalue,
      jump, hjump, hi⟩
    cases hi
    exact ⟨fields, hfields, hname, hstart, hstop, hsource, hvalue, hjump⟩
  · rintro ⟨fields, hfields, hname, hstart, hstop, hsource, hvalue, hjump⟩
    exact ⟨fields, hfields, _, hname, _, hstart, _, hstop, _, hsource, _, hvalue, _, hjump, rfl⟩

theorem ofJson?_toJson (h : i.InRange) : ofJson? i.toJson = some i :=
  ofJson?_eq_some.2 ⟨_, rfl, rfl, Json.nullable?_integer h.start, Json.nullable?_integer h.stop,
    Json.nullable?_integer h.source, Json.nullable?_text i.value, Json.nullable?_text i.jump⟩

theorem inRange_of_ofJson? (h : ofJson? v = some i) : i.InRange := by
  obtain ⟨fields, _, _, hstart, hstop, hsource, _, _⟩ := ofJson?_eq_some.1 h
  exact ⟨Json.isSigned_of_optional? hstart, Json.isSigned_of_optional? hstop,
    Json.isSigned_of_optional? hsource⟩

end Item

namespace Block

variable {b : Block}

/-- The numbers in a block are those that machines have, in its items and in the blocks nested in
it. -/
inductive InRange : Block → Prop where
  | intro {b : Block} (code : ∀ i ∈ b.code, i.InRange)
      (data : ∀ key nested, (key, Entry.block nested) ∈ b.data → InRange nested) : InRange b

/-! ### Reading a block -/

/-- The data entry that a member holds: a text, else a block. -/
def entry? (member : String × Json) : Option (String × Entry Block) :=
  match member.2.text? with
  | some digits => some (member.1, .raw digits)
  | none => (ofJson? member.2).map fun block => (member.1, .block block)

/-- The data entries that an object holds. -/
def entries? (v : Json) : Option (List (String × Entry Block)) := v.members?.bind (·.mapM entry?)

/-- Reading a block, with its data read by one function for each entry. -/
theorem ofJson?_eq (v : Json) :
    ofJson? v = do
      let fields ← v.fields? keys
      let code ← Json.defaulting? ".code" [] (Json.list? Item.ofJson?) fields
      let data ← Json.defaulting? ".data" [] entries? fields
      let auxdata ← Json.optional? ".auxdata" Json.text? fields
      let sources ← Json.optional? "sourceList" (Json.list? Json.text?) fields
      return ⟨code, data, auxdata, sources⟩ := by
  rw [ofJson?]
  split
  next hfields => simp [hfields]
  next fields hfields =>
    simp only [hfields, Option.bind_eq_bind, Option.bind_some]
    refine Option.bind_congr fun code _ => ?_
    split
    next hnone => simp only [Json.defaulting?, hnone, Option.bind_some]
    next members hmembers =>
      rw [List.mapM_subtype (g := entry?) fun _ _ => rfl]
      simp only [Json.defaulting?, hmembers, entries?, Json.members?, Option.bind_some,
        List.unattach_attach]
    next w hother hmembers =>
      simp only [Json.defaulting?, hmembers]
      cases w with
      | obj members => exact absurd rfl (hother members)
      | _ => rfl

/-- What the fields of a block are read from. -/
theorem ofJson?_eq_some :
    ofJson? v = some b ↔
      ∃ fields, v.fields? keys = some fields ∧
        Json.defaulting? ".code" [] (Json.list? Item.ofJson?) fields = some b.code ∧
        Json.defaulting? ".data" [] entries? fields = some b.data ∧
        Json.optional? ".auxdata" Json.text? fields = some b.auxdata ∧
        Json.optional? "sourceList" (Json.list? Json.text?) fields = some b.sources := by
  simp only [ofJson?_eq, Option.bind_eq_bind, Option.bind_eq_some_iff]
  constructor
  · rintro ⟨fields, hfields, code, hcode, data, hdata, auxdata, hauxdata, sources, hsources, hb⟩
    cases hb
    exact ⟨fields, hfields, hcode, hdata, hauxdata, hsources⟩
  · rintro ⟨fields, hfields, hcode, hdata, hauxdata, hsources⟩
    exact ⟨fields, hfields, _, hcode, _, hdata, _, hauxdata, _, hsources, by cases b; rfl⟩

/-! ### What is written is read back -/

theorem toJson_eq (b : Block) :
    b.toJson = .obj ([(".code", .ofList Item.toJson b.code), (".data", .obj (entriesToJson b.data))] ++
      (b.auxdata.map fun digits => (".auxdata", Json.str digits)).toList ++
      (b.sources.map fun paths => ("sourceList", Json.ofList Json.str paths)).toList) := by
  cases b
  rw [toJson]

theorem mapM_entriesToJson {data : List (String × Entry Block)}
    (h : ∀ key nested, (key, .block nested) ∈ data → ofJson? nested.toJson = some nested) :
    (entriesToJson data).mapM entry? = some data := by
  induction data with
  | nil => simp [entriesToJson]
  | cons entry data ih =>
    have hdata := ih fun key nested hmem => h key nested (by simp [hmem])
    obtain ⟨key, entry⟩ := entry
    cases entry with
    | raw digits => simp [entriesToJson, entry?, Json.text?, hdata]
    | block nested =>
      have hnested := h key nested (by simp)
      have htext : nested.toJson.text? = none := by
        rw [toJson_eq]
        rfl
      simp [entriesToJson, entry?, htext, hnested, hdata]

/-- A block is read back from its record, however deep blocks are nested in it. -/
theorem ofJson?_toJson (h : b.InRange) : ofJson? b.toJson = some b := by
  induction h with
  | @intro b hcode _ ih =>
    rw [toJson_eq]
    refine ofJson?_eq_some.2 ⟨_, rfl, ?_, ?_, ?_, ?_⟩
    · exact Json.list?_ofList fun i hi => Item.ofJson?_toJson (hcode i hi)
    · exact mapM_entriesToJson ih
    · cases b.auxdata <;> cases b.sources <;> rfl
    · cases b.sources with
      | none => cases b.auxdata <;> rfl
      | some paths =>
        have hpaths : Json.list? Json.text? (.ofList .str paths) = some paths :=
          Json.list?_ofList fun _ _ => rfl
        cases b.auxdata <;> exact congrArg (Option.map some) hpaths

/-! ### What is read is in range -/

/-- A nested block was read from a part of the value that the block itself was read from. -/
theorem exists_of_mem_data {fields : List (String × Json)} {key : String} {nested : Block}
    (hfields : v.fields? keys = some fields)
    (hdata : Json.defaulting? ".data" [] entries? fields = some b.data)
    (hmem : (key, Entry.block nested) ∈ b.data) :
    ∃ w, sizeOf w < sizeOf v ∧ ofJson? w = some nested := by
  rcases Json.defaulting?_cases hdata with hnil | ⟨d, hd, hentries⟩
  · rw [hnil] at hmem
    cases hmem
  · obtain ⟨members, hmembers, hread⟩ := Option.bind_eq_some_iff.1 hentries
    obtain ⟨member, hmember, hentry⟩ := Json.exists_of_mem_mapM hread hmem
    have hsmall : sizeOf member.2 < sizeOf v := by
      have hd' := Json.sizeOf_field_lt hfields hd
      have hmember' := Json.sizeOf_snd_lt hmember
      cases d with
      | obj ms =>
        cases hmembers
        simp only [Json.obj.sizeOf_spec] at hd'
        omega
      | _ => cases hmembers
    unfold entry? at hentry
    split at hentry
    · cases hentry
    · obtain ⟨block, hblock, hpair⟩ := Option.map_eq_some_iff.1 hentry
      cases hpair
      exact ⟨member.2, hsmall, hblock⟩

theorem inRange_of_ofJson? {v : Json} {b : Block} (h : ofJson? v = some b) : b.InRange := by
  obtain ⟨fields, hfields, hcode, hdata, _, _⟩ := ofJson?_eq_some.1 h
  refine .intro (fun i hi => ?_) (fun key nested hmem => ?_)
  · rcases Json.defaulting?_cases hcode with hnil | ⟨w, _, hw⟩
    · rw [hnil] at hi
      cases hi
    · obtain ⟨u, hu⟩ := Json.exists_of_mem_list? hw hi
      exact Item.inRange_of_ofJson? hu
  · obtain ⟨w, hsmall, hw⟩ := exists_of_mem_data hfields hdata hmem
    exact inRange_of_ofJson? hw
termination_by sizeOf v

/-- What was read as a block is read again from what is written of it. -/
theorem faithful_block : Json.Faithful ofJson? toJson :=
  fun _ _ h => ofJson?_toJson (inRange_of_ofJson? h)

end Block
end CodeAtlas.Assembly
