import CodeAtlas.Proofs.Assembly.Layout
import CodeAtlas.Proofs.Lookup
import CodeAtlas.Proofs.Outcome
import CodeAtlas.Proofs.Text.Numeral

/-! The targets of conditional jumps. A destination may be a tag that stands after the jump, and a
tag may be set again, so what a push means is known only when all items are placed. -/
namespace CodeAtlas.Assembly

variable {index i j k q o target : Nat} {c : Cursor} {item push : Item} {items code : List Item}
  {tokens : List String} {placed ps : List Placed} {p : Placed} {value : String} {t : PcTable}

/-! ### Places -/

/-- The byte offset at which the item with an index is placed. -/
def offsetAt? (code : List Item) (tokens : List String) (i : Nat) : Option Nat :=
  ((layout code tokens).toOption.bind (·[i]?)).map (·.offset)

/-- Whether an item gets a program counter: all instructions do but the push of the deploy
address. -/
def Item.Recorded (item : Item) : Prop :=
  item.isInstruction = true ∧ item.opcode ≠ deployAddress

/-- An item is the first instruction after an index. -/
structure NextInstruction (code : List Item) (j k : Nat) (item : Item) : Prop where
  lt : j < k
  here : code[k]? = some item
  instruction : item.isInstruction = true
  between : ∀ n x, j < n → n < k → code[n]? = some x → x.isInstruction = false

/-- The walk keeps the items, each with its index. -/
theorem layoutFrom_zipIdx (h : layoutFrom index c items = .ok placed) :
    placed.map (fun p => (p.item, p.index)) = items.zipIdx index := by
  induction items generalizing index c placed with
  | nil =>
    cases h
    rfl
  | cons item items ih =>
    obtain ⟨token, next, rest, _, hrest, rfl⟩ := layoutFrom_cons_eq_ok.1 h
    rw [List.map_cons, List.zipIdx_cons, ih hrest]

/-- An item takes a token for itself just when it gets a program counter. -/
theorem layoutFrom_token (h : layoutFrom index c items = .ok placed) :
    ∀ p ∈ placed, p.token.isSome = true ↔ p.item.Recorded := by
  induction items generalizing index c placed with
  | nil =>
    cases h
    simp
  | cons item items ih =>
    obtain ⟨token, next, rest, hplace, hrest, rfl⟩ := layoutFrom_cons_eq_ok.1 h
    refine List.forall_mem_cons.2 ⟨?_, ih hrest⟩
    obtain ⟨hdeploy, _, rfl, _⟩ | ⟨_, hpseudo, rfl, _⟩ | ⟨hne, hitem, word, _, _, rfl, _⟩ :=
      Cursor.place_cases hplace
    · simp [Item.Recorded, hdeploy]
    · simp [Item.Recorded, hpseudo]
    · simp [Item.Recorded, hitem, hne]

/-- From any item on, the walk goes on from where that item is placed. -/
theorem layoutFrom_drop (h : layoutFrom index c items = .ok placed) (hp : placed[j]? = some p) :
    ∃ c', c'.offset = p.offset ∧
      layoutFrom (index + j) c' (items.drop j) = .ok (placed.drop j) := by
  induction items generalizing index c placed j with
  | nil =>
    cases h
    simp at hp
  | cons item items ih =>
    obtain ⟨token, next, rest, _, hrest, rfl⟩ := layoutFrom_cons_eq_ok.1 h
    cases j with
    | zero =>
      cases hp
      exact ⟨c, rfl, h⟩
    | succ j =>
      obtain ⟨c', hoffset, hdrop⟩ := ih hrest hp
      refine ⟨c', hoffset, ?_⟩
      rwa [Nat.add_right_comm] at hdrop

/-- Pseudo-instructions take no bytes: what follows them is placed where they begin. -/
theorem layoutFrom_offset_of_pseudo (h : layoutFrom index c items = .ok placed)
    (hpseudo : ∀ n x, n < k → items[n]? = some x → x.isInstruction = false)
    (hp : placed[k]? = some p) : p.offset = c.offset := by
  induction k generalizing index items placed with
  | zero =>
    cases items with
    | nil =>
      cases h
      simp at hp
    | cons item items =>
      obtain ⟨token, next, rest, _, _, rfl⟩ := layoutFrom_cons_eq_ok.1 h
      cases hp
      rfl
  | succ k ih =>
    cases items with
    | nil =>
      cases h
      simp at hp
    | cons item items =>
      obtain ⟨token, next, rest, hplace, hrest, rfl⟩ := layoutFrom_cons_eq_ok.1 h
      rw [Cursor.place_pseudo (hpseudo 0 item (by omega) rfl)] at hplace
      cases hplace
      exact ih hrest (fun n x hn hx => hpseudo (n + 1) x (by omega) hx) hp

section Layout

variable (hplaced : layout code tokens = .ok placed)
include hplaced

theorem item_of_placed (hp : placed[i]? = some p) : code[i]? = some p.item ∧ p.index = i := by
  have hall := congrArg (·[i]?) (layoutFrom_zipIdx hplaced)
  simp only [List.getElem?_map, hp, Option.map_some, List.getElem?_zipIdx, Nat.zero_add] at hall
  obtain ⟨x, hx, heq⟩ := Option.map_eq_some_iff.1 hall.symm
  cases heq
  exact ⟨hx, rfl⟩

theorem exists_placed (hitem : code[i]? = some item) :
    ∃ p, placed[i]? = some p ∧ p.item = item := by
  have hall := congrArg (·[i]?) (layoutFrom_zipIdx hplaced)
  simp only [List.getElem?_map, List.getElem?_zipIdx, hitem, Option.map_some] at hall
  obtain ⟨p, hp, heq⟩ := Option.map_eq_some_iff.1 hall
  exact ⟨p, hp, congrArg Prod.fst heq⟩

theorem recorded_iff (hp : placed[i]? = some p) :
    p.item.Recorded ↔ ∃ word, p.token = some word := by
  rw [← Option.isSome_iff_exists]
  exact (layoutFrom_token hplaced p (List.mem_of_getElem? hp)).symm

/-- The records of a table are those of the placed items that have a token. -/
theorem mem_records_iff {e : Nat × PcRecord} :
    e ∈ (PcTable.ofPlaced code placed).records ↔
      ∃ p, placed[e.2.index]? = some p ∧ p.token = some e.2.opcode ∧ p.offset = e.1 ∧
        p.ordinal = e.2.ordinal := by
  constructor
  · intro he
    obtain ⟨p, hmem, hrecord⟩ := List.mem_filterMap.1 he
    obtain ⟨i, hp⟩ := List.mem_iff_getElem?.1 hmem
    obtain ⟨_, rfl⟩ := item_of_placed hplaced hp
    obtain ⟨word, hword, rfl⟩ := Option.map_eq_some_iff.1 hrecord
    exact ⟨p, hp, hword, rfl, rfl⟩
  · obtain ⟨pc, r⟩ := e
    rintro ⟨p, hp, hword, rfl, hordinal⟩
    have hindex := (item_of_placed hplaced hp).2
    refine List.mem_filterMap.2 ⟨p, List.mem_of_getElem? hp, ?_⟩
    simp only [Placed.record?, hword, Option.map_some, hindex, hordinal]

theorem offsetAt?_eq_some_iff : offsetAt? code tokens i = some o ↔
    ∃ p, placed[i]? = some p ∧ p.offset = o := by
  simp [offsetAt?, hplaced, Except.toOption]

/-- A pseudo-instruction is placed where the next instruction is. -/
theorem NextInstruction.offsetAt?_eq (h : NextInstruction code j k item) {pseudo : Item}
    (hpseudo : code[j]? = some pseudo) (hnot : pseudo.isInstruction = false) :
    ∃ o, offsetAt? code tokens j = some o ∧ offsetAt? code tokens k = some o := by
  obtain ⟨p, hp, _⟩ := exists_placed hplaced hpseudo
  obtain ⟨p', hp', _⟩ := exists_placed hplaced h.here
  obtain ⟨c, hoffset, hdrop⟩ := layoutFrom_drop hplaced hp
  have hlt := h.lt
  have hsame : p'.offset = c.offset := by
    apply layoutFrom_offset_of_pseudo hdrop (k := k - j)
    · intro n x hn hx
      rw [List.getElem?_drop] at hx
      cases n with
      | zero =>
        cases hpseudo.symm.trans hx
        exact hnot
      | succ n => exact h.between (j + (n + 1)) x (by omega) (by omega) hx
    · rwa [List.getElem?_drop, Nat.add_sub_cancel' hlt.le]
  exact ⟨p.offset, (offsetAt?_eq_some_iff hplaced).2 ⟨p, hp, rfl⟩,
    (offsetAt?_eq_some_iff hplaced).2 ⟨p', hp', hsame.trans hoffset⟩⟩

end Layout

theorem PcTable.mem_pcs_iff : q ∈ t.pcs ↔ ∃ r, t.record? q = some r := by
  constructor
  · intro hq
    obtain ⟨e, he, rfl⟩ := List.mem_map.1 hq
    cases hrecord : t.record? e.1 with
    | none =>
      have hne := List.lookup_eq_none_iff.1 hrecord e he
      simp at hne
    | some r => exact ⟨r, rfl⟩
  · rintro ⟨r, hrecord⟩
    exact List.mem_map.2 ⟨(q, r), mem_of_lookup hrecord, rfl⟩

theorem PcTable.record?_eq_some_iff (h : t.pcs.Pairwise (· < ·)) {r : PcRecord} :
    t.record? q = some r ↔ (q, r) ∈ t.records :=
  lookup_eq_some_iff_mem (unique_of_nodup (h.imp Nat.ne_of_lt))

/-- The table gives the index of each recorded item at the offset of the item, and nothing else. -/
theorem PcTable.index?_eq_some_iff (h : PcTable.build code tokens = .ok t) :
    t.index? q = some i ↔
      offsetAt? code tokens i = some q ∧ ∃ item, code[i]? = some item ∧ item.Recorded := by
  have hascend := pcs_ascend h
  obtain ⟨placed, hplaced, rfl⟩ := build_eq_ok.1 h
  rw [offsetAt?_eq_some_iff hplaced]
  constructor
  · intro hindex
    obtain ⟨r, hr, rfl⟩ := Option.map_eq_some_iff.1 hindex
    obtain ⟨p, hp, htoken, hoffset, _⟩ :=
      (mem_records_iff hplaced).1 ((record?_eq_some_iff hascend).1 hr)
    exact ⟨⟨p, hp, hoffset⟩, p.item, (item_of_placed hplaced hp).1,
      (recorded_iff hplaced hp).2 ⟨_, htoken⟩⟩
  · rintro ⟨⟨p, hp, rfl⟩, item, hitem, hrecorded⟩
    cases hitem.symm.trans (item_of_placed hplaced hp).1
    obtain ⟨token, htoken⟩ := (recorded_iff hplaced hp).1 hrecorded
    have hrecord : (ofPlaced code placed).record? p.offset = some ⟨i, p.ordinal, token⟩ :=
      (record?_eq_some_iff hascend).2 ((mem_records_iff hplaced).2 ⟨p, hp, htoken, rfl, rfl⟩)
    rw [index?, hrecord]
    rfl

theorem PcTable.mem_pcs_of_index? (h : t.index? q = some i) : q ∈ t.pcs := by
  obtain ⟨r, hr, _⟩ := Option.map_eq_some_iff.1 h
  exact mem_pcs_iff.2 ⟨r, hr⟩

/-! ### Destinations -/

/-- Whether an item sets the tag with a value. -/
def Item.IsTag (item : Item) (value : String) : Prop :=
  item.opcode = "tag" ∧ item.value = some value

instance (item : Item) (value : String) : Decidable (item.IsTag value) :=
  inferInstanceAs (Decidable (item.opcode = "tag" ∧ item.value = some value))

/-- An index is that of the last item that sets a tag. -/
def LastTag (code : List Item) (value : String) (j : Nat) : Prop :=
  (∃ item, code[j]? = some item ∧ item.IsTag value) ∧
    ∀ k item, j < k → code[k]? = some item → ¬ item.IsTag value

/-- A text is a hexadecimal number behind any number of marks. -/
def IsHexadecimal (value : String) (n : Nat) : Prop :=
  ∃ marks rest, value.toList = (List.replicate marks ['0', 'x']).flatten ++ rest ∧
    Text.IsUnsigned 16 rest n

/-- Where a push leads a jump to: with a tag, to the place of the last item that sets it, and with
anything else to the number that it is. -/
def Item.LeadsTo (push : Item) (code : List Item) (tokens : List String) (target : Nat) : Prop :=
  push.isPush = true ∧ ∃ value, push.value = some value ∧
    if push.name = "PUSH [tag]" then
      ∃ j, LastTag code value j ∧ offsetAt? code tokens j = some target
    else IsHexadecimal value target

theorem tagOffset?_eq_some_iff (hplaced : layout code tokens = .ok placed) :
    tagOffset? placed value = some o ↔
      ∃ j, LastTag code value j ∧ offsetAt? code tokens j = some o := by
  simp only [tagOffset?, Option.map_eq_some_iff, find?_reverse_eq_some_iff,
    offsetAt?_eq_some_iff hplaced]
  constructor
  · rintro ⟨p, ⟨j, hp, htag, hlast⟩, rfl⟩
    refine ⟨j, ⟨⟨p.item, (item_of_placed hplaced hp).1, by simpa [Item.IsTag] using htag⟩, ?_⟩,
      p, hp, rfl⟩
    intro k item hk hitem hset
    obtain ⟨p', hp', rfl⟩ := exists_placed hplaced hitem
    have hnot := hlast k p' hk hp'
    simp [hset.1, hset.2] at hnot
  · rintro ⟨j, ⟨⟨item, hitem, htag⟩, hlast⟩, p, hp, rfl⟩
    cases hitem.symm.trans (item_of_placed hplaced hp).1
    refine ⟨p, ⟨j, hp, by simp [htag.1, htag.2], fun k p' hk hp' => ?_⟩, rfl⟩
    have hnot := hlast k p'.item hk (item_of_placed hplaced hp').1
    simpa [Item.IsTag] using hnot

theorem dropMarks_append (marks : Nat) (rest : List Char) :
    dropMarks ((List.replicate marks ['0', 'x']).flatten ++ rest) = dropMarks rest := by
  induction marks with
  | zero => rfl
  | succ marks ih => simpa [List.replicate_succ, dropMarks] using ih

theorem exists_marks (cs : List Char) :
    ∃ marks, cs = (List.replicate marks ['0', 'x']).flatten ++ dropMarks cs := by
  fun_induction dropMarks cs with
  | case1 rest ih =>
    obtain ⟨marks, hmarks⟩ := ih
    refine ⟨marks + 1, ?_⟩
    rw [List.replicate_succ, List.flatten_cons, List.append_assoc, ← hmarks]
    rfl
  | case2 cs _ => exact ⟨0, rfl⟩

/-- A number has no marks left: the second character of a mark is no digit. -/
theorem dropMarks_of_isUnsigned {cs : List Char} {n : Nat} (h : Text.IsUnsigned 16 cs n) :
    dropMarks cs = cs := by
  fun_cases dropMarks cs with
  | case1 rest =>
    have hread := (Text.unsigned?_eq_some_iff (by decide)).2 h
    simp [Text.unsigned?, Text.numeral?, Text.digits?, Text.digitIn?, Text.digit?] at hread
  | case2 => rfl

theorem unsigned?_dropMarks_eq_some_iff {n : Nat} :
    Text.unsigned? 16 (dropMarks value.toList) = some n ↔ IsHexadecimal value n := by
  rw [Text.unsigned?_eq_some_iff (by decide)]
  constructor
  · intro h
    obtain ⟨marks, hmarks⟩ := exists_marks value.toList
    exact ⟨marks, _, hmarks, h⟩
  · rintro ⟨marks, rest, hvalue, h⟩
    rwa [hvalue, dropMarks_append, dropMarks_of_isUnsigned h]

theorem destination?_eq_some_iff (hplaced : layout code tokens = .ok placed) :
    destination? placed push = some target ↔ push.LeadsTo code tokens target := by
  unfold destination? Item.LeadsTo
  by_cases hpush : push.isPush = true
  · by_cases hname : push.name = "PUSH [tag]"
    · simp [hpush, hname, Option.bind_eq_some_iff, tagOffset?_eq_some_iff hplaced]
    · simp [hpush, hname, Option.bind_eq_some_iff, unsigned?_dropMarks_eq_some_iff]
  · simp [hpush]

/-! ### Targets -/

/-- The targets of jumps among some items. The item before the first one comes from outside. -/
theorem mem_jumpsAfter {previous : Option Item} :
    target ∈ jumpsAfter placed previous ps ↔
      ∃ (i : Nat) (p : Placed), ps[i]? = some p ∧ p.item.opcode = "JUMPI" ∧
        (target = p.offset + 1 ∨
          ∃ push, (previous :: ps.map fun p => some p.item)[i]? = some (some push) ∧
            destination? placed push = some target) := by
  induction ps generalizing previous with
  | nil => simp [jumpsAfter]
  | cons p ps ih =>
    rw [jumpsAfter, List.mem_append, ih]
    constructor
    · rintro (hhere | ⟨i, p', hp', hjump⟩)
      · split at hhere
        next hjump =>
          refine ⟨0, p, rfl, hjump, ?_⟩
          simpa [Option.bind_eq_some_iff] using hhere
        · simp at hhere
      · exact ⟨i + 1, p', hp', hjump⟩
    · rintro ⟨i, p', hp', hjump, htarget⟩
      cases i with
      | zero =>
        cases hp'
        left
        rw [if_pos hjump]
        simpa [Option.bind_eq_some_iff] using htarget
      | succ i => exact .inr ⟨i, p', hp', hjump, htarget⟩

/-- The targets that the table of a code keeps, by the places of its items. -/
theorem mem_jumps_ofPlaced (hplaced : layout code tokens = .ok placed) :
    target ∈ (PcTable.ofPlaced code placed).jumps ↔
      ∃ (i : Nat) (p : Placed), placed[i]? = some p ∧ p.item.opcode = "JUMPI" ∧
        (target = p.offset + 1 ∨
          ∃ k push, i = k + 1 ∧ code[k]? = some push ∧ push.LeadsTo code tokens target) := by
  have hjumps : target ∈ (PcTable.ofPlaced code placed).jumps ↔
      target ∈ jumpsAfter placed none placed := by
    simp [PcTable.ofPlaced, Std.ExtTreeSet.mem_ofList]
  rw [hjumps, mem_jumpsAfter]
  refine exists_congr fun i => exists_congr fun p => and_congr_right fun _ =>
    and_congr_right fun _ => or_congr_right ?_
  constructor
  · rintro ⟨push, hpush, hdestination⟩
    cases i with
    | zero => simp at hpush
    | succ k =>
      obtain ⟨p', hp', rfl⟩ : ∃ p', placed[k]? = some p' ∧ p'.item = push := by simpa using hpush
      exact ⟨k, p'.item, rfl, (item_of_placed hplaced hp').1,
        (destination?_eq_some_iff hplaced).1 hdestination⟩
  · rintro ⟨k, push, rfl, hpush, hleads⟩
    obtain ⟨p', hp', rfl⟩ := exists_placed hplaced hpush
    exact ⟨p'.item, by simp [hp'], (destination?_eq_some_iff hplaced).2 hleads⟩

theorem recorded_of_jump (h : item.opcode = "JUMPI") : item.Recorded := by
  rw [Item.Recorded, Item.isInstruction, h]
  decide

theorem not_isInstruction_of_tag (h : item.opcode = "tag") : item.isInstruction = false := by
  rw [Item.isInstruction, h]
  decide

/-- A jump leads on to the next byte or to where the push before it says, and no other target is
kept. Each instruction in the table stands at its offset, and a tag stands where the next
instruction does. -/
theorem mem_jumps_iff (code : List Item) (tokens : List String) (t : PcTable)
    (h : PcTable.build code tokens = .ok t) :
    (∀ target, target ∈ t.jumps ↔
      ∃ i q jump, code[i]? = some jump ∧ jump.opcode = "JUMPI" ∧ t.index? q = some i ∧
        (target = q + 1 ∨
          ∃ k push, i = k + 1 ∧ code[k]? = some push ∧ push.LeadsTo code tokens target)) ∧
    (∀ i item, code[i]? = some item → item.Recorded →
      ∃ q, offsetAt? code tokens i = some q ∧ t.index? q = some i) ∧
    ∀ j k tag item, code[j]? = some tag → tag.opcode = "tag" → NextInstruction code j k item →
      ∃ o, offsetAt? code tokens j = some o ∧ offsetAt? code tokens k = some o ∧
        (item.opcode ≠ deployAddress → t.index? o = some k ∧ o ∈ t.pcs) := by
  obtain ⟨placed, hplaced, ht⟩ := PcTable.build_eq_ok.1 h
  refine ⟨fun target => ?_, fun i item hitem hrecorded => ?_,
    fun j k tag item htag hopcode hnext => ?_⟩
  · rw [ht, mem_jumps_ofPlaced hplaced, ← ht]
    constructor
    · rintro ⟨i, p, hp, hjump, htarget⟩
      have hitem := (item_of_placed hplaced hp).1
      have hindex := (PcTable.index?_eq_some_iff h).2
        ⟨(offsetAt?_eq_some_iff hplaced).2 ⟨p, hp, rfl⟩, p.item, hitem, recorded_of_jump hjump⟩
      exact ⟨i, p.offset, p.item, hitem, hjump, hindex, htarget⟩
    · rintro ⟨i, q, jump, hitem, hjump, hindex, htarget⟩
      obtain ⟨hoffset, _⟩ := (PcTable.index?_eq_some_iff h).1 hindex
      obtain ⟨p, hp, rfl⟩ := (offsetAt?_eq_some_iff hplaced).1 hoffset
      cases hitem.symm.trans (item_of_placed hplaced hp).1
      exact ⟨i, p, hp, hjump, htarget⟩
  · obtain ⟨p, hp, _⟩ := exists_placed hplaced hitem
    have hoffset := (offsetAt?_eq_some_iff hplaced).2 ⟨p, hp, rfl⟩
    exact ⟨p.offset, hoffset, (PcTable.index?_eq_some_iff h).2 ⟨hoffset, item, hitem, hrecorded⟩⟩
  · obtain ⟨o, hj, hk⟩ := hnext.offsetAt?_eq hplaced htag (not_isInstruction_of_tag hopcode)
    refine ⟨o, hj, hk, fun hne => ?_⟩
    have hindex := (PcTable.index?_eq_some_iff h).2
      ⟨hk, item, hnext.here, hnext.instruction, hne⟩
    exact ⟨hindex, PcTable.mem_pcs_of_index? hindex⟩

/-- A jump ahead to a tag that is set twice, and a jump to a number. -/
def twoJumps : List Item :=
  [{ name := "PUSH [tag]", value := some "1" }, { name := "JUMPI" },
    { name := "PUSH", value := some "0x0A" }, { name := "JUMPI" },
    { name := "tag", value := some "1" }, { name := "JUMPDEST" },
    { name := "tag", value := some "1" }, { name := "STOP" }]

/-- The listing of the two jumps. -/
def twoJumpsListing : List String :=
  ["PUSH1", "0x07", "JUMPI", "PUSH1", "0x0a", "JUMPI", "JUMPDEST", "STOP"]

theorem mem_jumps_iff_two_jumps :
    ∃ t, PcTable.build twoJumps twoJumpsListing = .ok t ∧
      7 ∈ t.jumps ∧ 10 ∈ t.jumps ∧ offsetAt? twoJumps twoJumpsListing 4 = some 6 ∧
      t.index? 6 = some 5 ∧ 6 ∈ t.pcs := by
  obtain ⟨t, h, hfirst, hsecond⟩ : ∃ t, PcTable.build twoJumps twoJumpsListing = .ok t ∧
      t.index? 2 = some 1 ∧ t.index? 5 = some 3 :=
    exists_of_any_ok (by decide +kernel)
  obtain ⟨hjumps, _, htags⟩ := mem_jumps_iff twoJumps twoJumpsListing t h
  have hlast : LastTag twoJumps "1" 6 := by
    have hall : ∀ k < twoJumps.length, ∀ item ∈ twoJumps[k]?, 6 < k → ¬ item.IsTag "1" := by decide
    refine ⟨⟨_, rfl, by decide⟩, fun k item hk hitem => ?_⟩
    exact hall k (List.getElem?_eq_some_iff.1 hitem).1 item hitem hk
  have hten : IsHexadecimal "0x0A" 10 := by
    refine ⟨1, ['0', 'A'], by decide, by decide, ['0', 'A'], .inl rfl, by simp, [0, 10], ?_, rfl⟩
    exact .cons (by decide) (.cons (by decide) .nil)
  have hnext : NextInstruction twoJumps 4 5 { name := "JUMPDEST" } :=
    ⟨by decide, rfl, by decide, fun n _ hlow hhigh _ => by omega⟩
  have hset : offsetAt? twoJumps twoJumpsListing 4 = some 6 := by decide +kernel
  refine ⟨t, h, ?_, ?_, hset, ?_⟩
  · refine (hjumps 7).2 ⟨1, 2, _, rfl, by decide, hfirst, .inr ⟨0, _, rfl, rfl, by decide, ?_⟩⟩
    exact ⟨"1", rfl, 6, hlast, by decide +kernel⟩
  · refine (hjumps 10).2 ⟨3, 5, _, rfl, by decide, hsecond, .inr ⟨2, _, rfl, rfl, by decide, ?_⟩⟩
    exact ⟨"0x0A", rfl, hten⟩
  · obtain ⟨o, ho, _, hindex⟩ := htags 4 5 _ _ rfl (by decide) hnext
    cases hset.symm.trans ho
    exact hindex (by decide)

end CodeAtlas.Assembly
