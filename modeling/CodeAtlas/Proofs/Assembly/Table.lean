import CodeAtlas.Proofs.Assembly.Jumps

/-! What holds of every table that is built, whether or not its listing is that of its code. Three
things are counted along the way, and all views of the table come from the records that they give. -/
namespace CodeAtlas.Assembly

variable {index i pc : Nat} {c next : Cursor} {item : Item} {items code : List Item}
  {token : Option String} {tokens : List String} {placed : List Placed} {t : PcTable}
  {name : String} {e : Nat × PcRecord}

/-! ### Reading a listing -/

/-- An item and the token that it is read against. Only a pseudo-instruction is read against none. -/
structure Reading where
  item : Item
  word : Option String
  deriving DecidableEq, Repr

namespace Reading

/-- The bytes that the item takes: those of an address, one more than a push is wide, or one. -/
def size (r : Reading) : Nat :=
  match r.word with
  | none => 0
  | some word =>
    if r.item.opcode = deployAddress then 21
    else if r.item.isPush then 1 + (Opcode.widthOfName? word).getD 0
    else 1

/-- The tokens that the item takes: its own, and one for the operand of a push that has one. -/
def extent (r : Reading) : Nat :=
  match r.word with
  | none => 0
  | some word =>
    if r.item.opcode = deployAddress then 2
    else if r.item.isPush ∧ 0 < (Opcode.widthOfName? word).getD 0 then 2
    else 1

/-- The item is read against the first of some tokens. A push asks for the name of a push, and the
push of the deploy address for that of a push of twenty bytes. -/
def Against (r : Reading) (tokens : List String) : Prop :=
  match r.word with
  | none => r.item.isInstruction = false
  | some word =>
    r.item.isInstruction = true ∧ tokens.head? = some word ∧
      (r.item.opcode = deployAddress → word = "PUSH20") ∧
      (r.item.isPush = true → ∃ width, Opcode.widthOfName? word = some width)

end Reading

/-- The bytes of the items before an index. -/
def bytesBefore (readings : List Reading) (i : Nat) : Nat :=
  ((readings.take i).map Reading.size).sum

/-- The tokens of the items before an index. -/
def tokensBefore (readings : List Reading) (i : Nat) : Nat :=
  ((readings.take i).map Reading.extent).sum

/-- The items of a code are read along a listing, each against what those before it leave. -/
structure ReadAlong (code : List Item) (tokens : List String) (readings : List Reading) : Prop where
  items : readings.map Reading.item = code
  against : ∀ (i : Nat) (r : Reading), readings[i]? = some r →
    r.Against (tokens.drop (tokensBefore readings i))

/-- Passing an item is reading it. -/
theorem Cursor.place_reading (h : c.place index item = .ok (token, next)) :
    ∃ r : Reading, r.item = item ∧ r.Against c.tokens ∧ next.offset = c.offset + r.size ∧
      next.tokens = c.tokens.drop r.extent ∧
      next.ordinal = c.ordinal + (if item.isInstruction then 1 else 0) ∧
      ∀ word, token = some word → r.word = some word := by
  obtain ⟨hdeploy, hhead, rfl, rfl⟩ | ⟨_, hpseudo, rfl, rfl⟩ |
    ⟨hne, hitem, word, rest, htokens, rfl, hnext⟩ := place_cases h
  · have hitem := isInstruction_of_deployAddress hdeploy
    refine ⟨⟨item, some "PUSH20"⟩, rfl, ⟨hitem, hhead, fun _ => rfl, fun _ => ⟨20, by decide⟩⟩, ?_⟩
    simp [Reading.size, Reading.extent, hdeploy, hitem, pass]
  · exact ⟨⟨item, none⟩, rfl, hpseudo, by simp [Reading.size, Reading.extent, hpseudo]⟩
  · obtain ⟨hpush, width, hwidth, rfl⟩ | ⟨hpush, rfl⟩ := hnext
    · refine ⟨⟨item, some word⟩, rfl,
        ⟨hitem, by simp [htokens], fun he => absurd he hne, fun _ => ⟨width, hwidth⟩⟩, ?_⟩
      simp [Reading.size, Reading.extent, hne, hitem, hpush, hwidth, pass]
    · refine ⟨⟨item, some word⟩, rfl,
        ⟨hitem, by simp [htokens], fun he => absurd he hne, fun he => by simp [hpush] at he⟩, ?_⟩
      simp [Reading.size, Reading.extent, hne, hitem, hpush, pass]

/-- The walk reads all items, and counts what it has passed. -/
theorem layoutFrom_readings (h : layoutFrom index c items = .ok placed) :
    ∃ readings, ReadAlong items c.tokens readings ∧
      ∀ (i : Nat) (p : Placed), placed[i]? = some p →
        p.offset = c.offset + bytesBefore readings i ∧
        p.ordinal = c.ordinal + (items.take i).countP Item.isInstruction ∧
        ∀ word, p.token = some word → ∃ r, readings[i]? = some r ∧ r.word = some word := by
  -- The cursor stays general: what is counted before the walk is added to what it counts itself.
  induction items generalizing index c placed with
  | nil =>
    cases h
    exact ⟨[], ⟨rfl, by simp⟩, by simp⟩
  | cons item items ih =>
    obtain ⟨token, next, rest, hplace, hrest, rfl⟩ := layoutFrom_cons_eq_ok.1 h
    obtain ⟨r, rfl, hagainst, hoffset, htokens, hordinal, hword⟩ := Cursor.place_reading hplace
    obtain ⟨readings, hread, hall⟩ := ih hrest
    refine ⟨r :: readings, ⟨by simp [hread.items], ?_⟩, ?_⟩
    · rintro (_ | i) x hx
      · cases hx
        exact hagainst
      · have := hread.against i x hx
        rwa [htokens, List.drop_drop] at this
    · rintro (_ | i) p hp
      · cases hp
        exact ⟨rfl, rfl, fun word hsome => ⟨r, rfl, hword word hsome⟩⟩
      · obtain ⟨hbytes, hcount, hrecorded⟩ := hall i p hp
        refine ⟨?_, ?_, hrecorded⟩
        · rw [hbytes, hoffset, Nat.add_assoc]
          rfl
        · rw [hcount, hordinal, List.take_succ_cons, List.countP_cons]
          omega

/-! ### Records -/

/-- The records of a table are those of a code that is read along a listing. -/
structure PcTable.Records (t : PcTable) (code : List Item) (readings : List Reading) : Prop where
  ascend : t.records.Pairwise Precedes
  /-- Every instruction has a record but the push of the deploy address. -/
  indexes : ∀ i, i ∈ t.records.map (·.2.index) ↔ ∃ item, code[i]? = some item ∧ item.Recorded
  ordinal : ∀ e ∈ t.records, e.2.ordinal = (code.take e.2.index).countP Item.isInstruction
  offset : ∀ e ∈ t.records, e.1 = bytesBefore readings e.2.index
  /-- The name in a record is the token that its item is read against. -/
  opcode : ∀ e ∈ t.records, ∃ r, readings[e.2.index]? = some r ∧ r.word = some e.2.opcode

theorem mem_indexes_iff (hplaced : layout code tokens = .ok placed) :
    i ∈ (PcTable.ofPlaced code placed).records.map (·.2.index) ↔
      ∃ item, code[i]? = some item ∧ item.Recorded := by
  rw [List.mem_map]
  constructor
  · rintro ⟨e, he, rfl⟩
    obtain ⟨p, hp, hword, _⟩ := (mem_records_iff hplaced).1 he
    exact ⟨p.item, (item_of_placed hplaced hp).1, (recorded_iff hplaced hp).2 ⟨_, hword⟩⟩
  · rintro ⟨item, hitem, hrecorded⟩
    obtain ⟨p, hp, rfl⟩ := exists_placed hplaced hitem
    obtain ⟨word, hword⟩ := (recorded_iff hplaced hp).1 hrecorded
    exact ⟨(p.offset, ⟨i, p.ordinal, word⟩),
      (mem_records_iff hplaced).2 ⟨p, hp, hword, rfl, rfl⟩, rfl⟩

theorem PcTable.exists_records (h : PcTable.build code tokens = .ok t) :
    ∃ readings, ReadAlong code tokens readings ∧ t.Records code readings := by
  have hascend := records_ascend h
  obtain ⟨placed, hplaced, rfl⟩ := build_eq_ok.1 h
  obtain ⟨readings, hread, hall⟩ := layoutFrom_readings hplaced
  have hrecord : ∀ e ∈ (ofPlaced code placed).records,
      e.2.ordinal = (code.take e.2.index).countP Item.isInstruction ∧
        e.1 = bytesBefore readings e.2.index ∧
        ∃ r, readings[e.2.index]? = some r ∧ r.word = some e.2.opcode := by
    intro e he
    obtain ⟨p, hp, hword, hoffset, hordinal⟩ := (mem_records_iff hplaced).1 he
    obtain ⟨hbytes, hcount, hread⟩ := hall _ p hp
    exact ⟨by simpa [hordinal] using hcount, by simpa [hoffset] using hbytes, hread _ hword⟩
  exact ⟨readings, hread, hascend, fun i => mem_indexes_iff hplaced, fun e he => (hrecord e he).1,
    fun e he => (hrecord e he).2.1, fun e he => (hrecord e he).2.2⟩

/-! ### Views -/

/-- All views of a table show the same records. -/
structure PcTable.ViewsAgree (t : PcTable) : Prop where
  domain : ∀ pc, (pc ∈ t.pcs ↔ ∃ i, t.indexes.lookup pc = some i) ∧
    (pc ∈ t.pcs ↔ ∃ name, t.opcodes.lookup pc = some name)
  values : ∀ e ∈ t.records,
    t.indexes.lookup e.1 = some e.2.index ∧ t.opcodes.lookup e.1 = some e.2.opcode
  /-- The classes are ascending lists, none of which is empty. -/
  classes : ∀ (name : String) (pcs : List Nat), t.pcsByOpcode[name]? = some pcs →
    pcs ≠ [] ∧ pcs.Pairwise (· < ·)
  mem_class : ∀ (pc : Nat) (name : String), (∃ pcs, t.pcsByOpcode[name]? = some pcs ∧ pc ∈ pcs) ↔
    t.opcodes.lookup pc = some name
  one_class : ∀ pc, pc ∈ t.pcs ↔
    ∃! name : String, ∃ pcs, t.pcsByOpcode[name]? = some pcs ∧ pc ∈ pcs
  mem_upTo : ∀ pc e, e ∈ t.upTo pc ↔ e ∈ t.records ∧ e.1 ≤ pc
  upTo_descends : ∀ pc, (t.upTo pc).Pairwise fun a b => b.1 < a.1

namespace PcTable

theorem lookup_indexes (t : PcTable) (pc : Nat) : t.indexes.lookup pc = t.index? pc :=
  lookup_map (fun _ (r : PcRecord) => r.index) t.records pc

theorem lookup_opcodes (t : PcTable) (pc : Nat) :
    t.opcodes.lookup pc = (t.record? pc).map (·.opcode) :=
  lookup_map (fun _ (r : PcRecord) => r.opcode) t.records pc

/-- The program counters of an opcode. -/
def pcsOf (records : List (Nat × PcRecord)) (name : String) : List Nat :=
  (records.filter (·.2.opcode = name)).map (·.1)

theorem pcsOf_cons (e : Nat × PcRecord) (records : List (Nat × PcRecord)) (name : String) :
    pcsOf (e :: records) name =
      if e.2.opcode = name then e.1 :: pcsOf records name else pcsOf records name := by
  unfold pcsOf
  by_cases h : e.2.opcode = name <;> simp [h]

theorem mem_pcsOf {records : List (Nat × PcRecord)} :
    pc ∈ pcsOf records name ↔ ∃ r, (pc, r) ∈ records ∧ r.opcode = name := by
  simp [pcsOf]

/-- Collecting records adds each class to what was there before. -/
theorem getElem?_collect (records : List (Nat × PcRecord))
    (m : Std.ExtTreeMap String (List Nat)) (name : String) :
    (records.foldl (fun m (pc, r) => m.insert r.opcode (m.getD r.opcode [] ++ [pc])) m)[name]? =
      if pcsOf records name = [] then m[name]? else some (m.getD name [] ++ pcsOf records name) := by
  induction records generalizing m with
  | nil => simp [pcsOf]
  | cons e records ih =>
    rw [List.foldl_cons, ih, pcsOf_cons, Std.ExtTreeMap.getElem?_insert, Std.ExtTreeMap.getD_insert]
    by_cases hname : e.2.opcode = name
    · subst hname
      by_cases hnil : pcsOf records e.2.opcode = [] <;> simp [hnil]
    · simp [hname]

theorem getElem?_pcsByOpcode (t : PcTable) (name : String) :
    t.pcsByOpcode[name]? =
      if pcsOf t.records name = [] then none else some (pcsOf t.records name) := by
  rw [pcsByOpcode, getElem?_collect]
  simp

theorem pcsByOpcode_eq_some_iff {pcs : List Nat} :
    t.pcsByOpcode[name]? = some pcs ↔ pcs ≠ [] ∧ pcs = pcsOf t.records name := by
  rw [getElem?_pcsByOpcode]
  split
  next hnil => simp [hnil]
  next hne =>
    rw [Option.some.injEq]
    constructor
    · rintro rfl
      exact ⟨hne, rfl⟩
    · rintro ⟨_, rfl⟩
      rfl

section Ascending

variable (h : t.pcs.Pairwise (· < ·))
include h

theorem mem_class_iff :
    (∃ pcs, t.pcsByOpcode[name]? = some pcs ∧ pc ∈ pcs) ↔ t.opcodes.lookup pc = some name := by
  -- A name without program counters has no class, so being in one is being listed under the name.
  have hclass : (∃ pcs, t.pcsByOpcode[name]? = some pcs ∧ pc ∈ pcs) ↔
      pc ∈ pcsOf t.records name := by
    simp only [pcsByOpcode_eq_some_iff]
    constructor
    · rintro ⟨pcs, ⟨_, rfl⟩, hpc⟩
      exact hpc
    · intro hpc
      exact ⟨_, ⟨List.ne_nil_of_mem hpc, rfl⟩, hpc⟩
  rw [hclass, mem_pcsOf, lookup_opcodes, Option.map_eq_some_iff]
  simp only [record?_eq_some_iff h]

/-- The views depend on nothing but that no program counter has two records. -/
theorem viewsAgree : t.ViewsAgree where
  domain pc := by simp [mem_pcs_iff, lookup_indexes, lookup_opcodes, index?]
  values e he := by
    have hrecord : t.record? e.1 = some e.2 := (record?_eq_some_iff h).2 he
    simp [lookup_indexes, lookup_opcodes, index?, hrecord]
  classes name pcs hpcs := by
    obtain ⟨hne, rfl⟩ := pcsByOpcode_eq_some_iff.1 hpcs
    exact ⟨hne, h.sublist (List.filter_sublist.map _)⟩
  mem_class pc name := mem_class_iff h
  one_class pc := by
    simp only [mem_class_iff h, lookup_opcodes, mem_pcs_iff]
    cases t.record? pc <;> simp [ExistsUnique]
  mem_upTo pc e := by simp [upTo]
  upTo_descends pc := by
    rw [upTo, List.pairwise_reverse]
    exact (List.pairwise_map.1 h).sublist List.filter_sublist

end Ascending

end PcTable

/-- Every table is that of its code read along its listing. Program counter, index and ordinal go up
together and count what stands before, and all views show the same records. -/
theorem table_invariant (code : List Item) (tokens : List String) (t : PcTable)
    (h : PcTable.build code tokens = .ok t) :
    (∃ readings, ReadAlong code tokens readings ∧ t.Records code readings) ∧ t.ViewsAgree :=
  ⟨PcTable.exists_records h, PcTable.viewsAgree (PcTable.pcs_ascend h)⟩

/-- A code with an address, a label and an item that is no push but meets the name of one. -/
def mismatched : List Item :=
  [{ name := "PUSHDEPLOYADDRESS" }, { name := "tag" }, { name := "ASSIGNIMMUTABLE" },
    { name := "PUSH" }, { name := "STOP" }]

/-- A listing of another code, along which the items can be placed all the same. -/
def mismatchedListing : List String :=
  ["PUSH20", "0x00", "PUSH1", "PUSH2", "0x0102", "JUMPDEST"]

theorem table_invariant_mismatched :
    ∃ t, PcTable.build mismatched mismatchedListing = .ok t ∧ t.pcs = [21, 22, 25] ∧
      (∃ readings, ReadAlong mismatched mismatchedListing readings ∧
        t.Records mismatched readings ∧ bytesBefore readings 4 = 25) ∧ t.ViewsAgree := by
  obtain ⟨t, h, hpcs, hlast⟩ : ∃ t, PcTable.build mismatched mismatchedListing = .ok t ∧
      t.pcs = [21, 22, 25] ∧ (25, ⟨4, 3, "JUMPDEST"⟩) ∈ t.records :=
    exists_of_any_ok (by decide +kernel)
  obtain ⟨⟨readings, hread, hrecords⟩, hviews⟩ := table_invariant mismatched mismatchedListing t h
  exact ⟨t, h, hpcs, ⟨readings, hread, hrecords, (hrecords.offset _ hlast).symm⟩, hviews⟩

end CodeAtlas.Assembly
