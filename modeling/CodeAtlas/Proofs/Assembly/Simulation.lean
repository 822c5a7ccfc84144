import CodeAtlas.Proofs.Assembly.Layout
import CodeAtlas.Proofs.Bytecode.Layout

/-! The walk along the listing of a byte code follows its disassembly: every item is placed at the
position of the instruction that it stands for. -/
namespace CodeAtlas

/-- The tokens of a listing: the name of each instruction, and a text for its operand if its opcode
has one. -/
def Instruction.tokens (operand : Instruction → String) (is : List Instruction) : List String :=
  is.flatMap fun i => i.name :: if 0 < Opcode.pushWidth i.opcode then [operand i] else []

namespace Opcode

/-- Whether an opcode is one of the pushes, the push of zero included. -/
def IsPush (opcode : UInt8) : Prop := 0x5f ≤ opcode ∧ opcode ≤ 0x7f

instance (opcode : UInt8) : Decidable (IsPush opcode) :=
  inferInstanceAs (Decidable (0x5f ≤ opcode ∧ opcode ≤ 0x7f))

variable {opcode : UInt8}

theorem widthOfName?_decimal {n : Nat} (h : n ≤ 32) :
    widthOfName? ("PUSH" ++ Text.decimal n) = some n := by
  have hdigits : ∀ n ≤ 32, ((Text.unsigned? 10 (Nat.toDigits 10 n)).filter (· ≤ 32)) = some n := by
    decide
  simpa [widthOfName?, Text.decimal, Text.afterStart?] using hdigits n h

theorem name_of_isPush (h : IsPush opcode) :
    name opcode = "PUSH" ++ Text.decimal (opcode.toNat - 0x5f) := by
  simp [name, name?, numbered, show 0x5f ≤ opcode ∧ opcode ≤ 0x7f from h]

theorem toNat_of_isPush (h : IsPush opcode) : 0x5f ≤ opcode.toNat ∧ opcode.toNat ≤ 0x7f :=
  ⟨UInt8.le_iff_toNat_le.1 h.1, UInt8.le_iff_toNat_le.1 h.2⟩

theorem pushWidth_of_isPush (h : IsPush opcode) : pushWidth opcode = opcode.toNat - 0x5f := by
  by_cases hpos : 0x60 ≤ opcode
  · exact if_pos ⟨hpos, h.2⟩
  · have hlt : opcode.toNat < 0x60 := UInt8.lt_iff_toNat_lt.1 (UInt8.not_le.1 hpos)
    have hwidth : pushWidth opcode = 0 := if_neg fun hrange => hpos hrange.1
    omega

theorem pushWidth_of_not_isPush (h : ¬ IsPush opcode) : pushWidth opcode = 0 := by
  apply if_neg
  rintro ⟨hlo, hhi⟩
  exact h ⟨UInt8.le_trans (by decide) hlo, hhi⟩

/-- The name of a push tells how many bytes follow it. -/
theorem widthOfName?_name (h : IsPush opcode) :
    widthOfName? (name opcode) = some (pushWidth opcode) := by
  have hle := (toNat_of_isPush h).2
  rw [name_of_isPush h, pushWidth_of_isPush h]
  apply widthOfName?_decimal
  omega

theorem name_push20 : name 0x73 = "PUSH20" := by decide

end Opcode

namespace Assembly
open Instruction (LaidFrom)

variable {index : Nat} {c : Cursor} {item : Item} {items code : List Item}
  {operand : Instruction → String} {i : Instruction} {is : List Instruction}

/-- Whether an item can stand for an instruction: the push of the deploy address for a push of
twenty bytes, every other push for some push, and the rest for the rest. -/
def Item.StandsFor (item : Item) (i : Instruction) : Prop :=
  (item.opcode = deployAddress → i.opcode = 0x73) ∧
    (item.opcode ≠ deployAddress → (item.isPush = true ↔ Opcode.IsPush i.opcode))

instance (item : Item) (i : Instruction) : Decidable (item.StandsFor i) :=
  inferInstanceAs (Decidable ((item.opcode = deployAddress → i.opcode = 0x73) ∧
    (item.opcode ≠ deployAddress → (item.isPush = true ↔ Opcode.IsPush i.opcode))))

/-- The instructions of a code stand, in order, for the first ones of a disassembly. Any number of
pseudo-instructions may stand between them. -/
def Follows (code : List Item) (is : List Instruction) : Prop :=
  ∀ (k : Nat) (item : Item), (code.filter Item.isInstruction)[k]? = some item →
    ∃ i, is[k]? = some i ∧ item.StandsFor i

/-- The instructions of a code, each with its index, where the first item has the index given. -/
def instructionsFrom (start : Nat) (code : List Item) : List (Item × Nat) :=
  (code.zipIdx start).filter (·.1.isInstruction)

/-- The records of instructions along a disassembly: one for each, but none for the push of the
deploy address. -/
def recordsAlong (items : List (Item × Nat)) (is : List (Instruction × Nat)) :
    List (Nat × PcRecord) :=
  (items.zip is).filterMap fun ((item, index), (i, ordinal)) =>
    if item.opcode = deployAddress then none else some (i.position, ⟨index, ordinal, i.name⟩)

/-- An instruction takes the tokens and the bytes of the one that it stands for. -/
theorem Cursor.place_standsFor (index : Nat) (hitem : item.isInstruction = true)
    (h : item.StandsFor i) (htokens : c.tokens = Instruction.tokens operand (i :: is)) :
    ∃ next, c.place index item =
        .ok (if item.opcode = deployAddress then none else some i.name, next) ∧
      next.offset = c.offset + 1 + Opcode.pushWidth i.opcode ∧ next.ordinal = c.ordinal + 1 ∧
      next.tokens = Instruction.tokens operand is := by
  by_cases hdeploy : item.opcode = deployAddress
  · have hopcode := h.1 hdeploy
    have hname : i.name = "PUSH20" := by rw [Instruction.name, hopcode, Opcode.name_push20]
    have hwidth : Opcode.pushWidth i.opcode = 20 := by rw [hopcode]; decide
    refine ⟨c.pass 21 2, ?_, ?_, rfl, ?_⟩ <;>
      simp [place, pass, hdeploy, htokens, Instruction.tokens, hname, hwidth]
  · have hiff := h.2 hdeploy
    by_cases hpush : Opcode.IsPush i.opcode
    · have hwidth := Opcode.widthOfName?_name hpush
      refine ⟨c.pass (1 + Opcode.pushWidth i.opcode)
        (if 0 < Opcode.pushWidth i.opcode then 2 else 1), ?_, ?_, rfl, ?_⟩
      · simp [place, hdeploy, hitem, htokens, Instruction.tokens, hiff.2 hpush, Instruction.name,
          hwidth]
      · simp [Nat.add_assoc]
      · by_cases hpos : 0 < Opcode.pushWidth i.opcode <;>
          simp [pass, htokens, Instruction.tokens, hpos]
    · have hwidth := Opcode.pushWidth_of_not_isPush hpush
      have hpush' : item.isPush = false := by simpa using fun he => hpush (hiff.1 he)
      refine ⟨c.pass 1 1, ?_, ?_, rfl, ?_⟩ <;>
        simp [place, pass, hdeploy, hitem, hpush', htokens, Instruction.tokens, hwidth]

theorem instructionsFrom_pseudo (hitem : item.isInstruction = false) (start : Nat) :
    instructionsFrom start (item :: items) = instructionsFrom (start + 1) items := by
  simp [instructionsFrom, hitem]

theorem instructionsFrom_cons (hitem : item.isInstruction = true) (start : Nat) :
    instructionsFrom start (item :: items) =
      (item, start) :: instructionsFrom (start + 1) items := by
  simp [instructionsFrom, hitem]

theorem recordsAlong_cons (item : Item) (index : Nat) (items : List (Item × Nat))
    (i : Instruction) (ordinal : Nat) (is : List (Instruction × Nat)) :
    recordsAlong ((item, index) :: items) ((i, ordinal) :: is) =
      if item.opcode = deployAddress then recordsAlong items is
      else (i.position, ⟨index, ordinal, i.name⟩) :: recordsAlong items is := by
  unfold recordsAlong
  rw [List.zip_cons_cons, List.filterMap_cons]
  split <;> simp_all

theorem follows_pseudo (hitem : item.isInstruction = false) :
    Follows (item :: items) is ↔ Follows items is := by
  simp [Follows, hitem]

theorem Follows.uncons (hitem : item.isInstruction = true) (h : Follows (item :: items) is) :
    ∃ i rest, is = i :: rest ∧ item.StandsFor i ∧ Follows items rest := by
  have hfilter : (item :: items).filter Item.isInstruction =
      item :: items.filter Item.isInstruction := by simp [hitem]
  unfold Follows at h
  rw [hfilter] at h
  cases is with
  | nil => simpa using h 0 item rfl
  | cons i rest =>
    obtain ⟨i', hi, hstands⟩ := h 0 item rfl
    cases hi
    exact ⟨i, rest, rfl, hstands, fun k item hk => h (k + 1) item hk⟩

/-- The walk succeeds on items that follow a disassembly, and gives just their records. The byte
offset is always the position of the next instruction. -/
theorem layoutFrom_follows (index : Nat) (hcode : Follows code is)
    (hlaid : LaidFrom c.offset is) (htokens : c.tokens = Instruction.tokens operand is) :
    ∃ placed, layoutFrom index c code = .ok placed ∧
      placed.filterMap Placed.record? =
        recordsAlong (instructionsFrom index code) (is.zipIdx c.ordinal) := by
  induction code generalizing index c is with
  | nil => exact ⟨[], rfl, by simp [recordsAlong, instructionsFrom]⟩
  | cons item items ih =>
    cases hitem : item.isInstruction with
    | false =>
      obtain ⟨placed, hplaced, hrecords⟩ :=
        ih (index + 1) ((follows_pseudo hitem).1 hcode) hlaid htokens
      refine ⟨_, layoutFrom_cons_eq_ok.2
        ⟨none, c, placed, Cursor.place_pseudo hitem, hplaced, rfl⟩, ?_⟩
      rw [instructionsFrom_pseudo hitem, ← hrecords]
      rfl
    | true =>
      obtain ⟨i, rest, rfl, hstands, hrest⟩ := hcode.uncons hitem
      obtain ⟨next, hplace, hoffset, hordinal, hnext⟩ :=
        Cursor.place_standsFor index hitem hstands htokens
      have hlaid' : LaidFrom next.offset rest := by
        rw [hoffset]
        exact hlaid.tail
      obtain ⟨placed, hplaced, hrecords⟩ := ih (index + 1) hrest hlaid' hnext
      refine ⟨_, layoutFrom_cons_eq_ok.2 ⟨_, next, placed, hplace, hplaced, rfl⟩, ?_⟩
      rw [hordinal] at hrecords
      rw [instructionsFrom_cons hitem, List.zipIdx_cons, recordsAlong_cons, ← hrecords,
        hlaid.position_eq]
      split <;> rfl

theorem mem_recordsAlong {items : List (Item × Nat)} {pc : Nat} {r : PcRecord} :
    (pc, r) ∈ recordsAlong items is.zipIdx ↔
      ∃ k item index i, items[k]? = some (item, index) ∧ is[k]? = some i ∧
        item.opcode ≠ deployAddress ∧ pc = i.position ∧ r = ⟨index, k, i.name⟩ := by
  rw [recordsAlong, List.mem_filterMap]
  simp only [List.mem_iff_getElem? (l := items.zip is.zipIdx), List.getElem?_zip_eq_some]
  constructor
  · rintro ⟨⟨⟨item, index⟩, i, ordinal⟩, ⟨k, hitem, hi⟩, hrecord⟩
    rw [List.getElem?_zipIdx, Option.map_eq_some_iff] at hi
    obtain ⟨_, hi, hpair⟩ := hi
    cases hpair
    by_cases hdeploy : item.opcode = deployAddress
    · simp [hdeploy] at hrecord
    · rw [if_neg hdeploy] at hrecord
      cases hrecord
      exact ⟨k, item, index, i, hitem, hi, hdeploy, rfl, by rw [Nat.zero_add]⟩
  · rintro ⟨k, item, index, i, hitem, hi, hdeploy, rfl, rfl⟩
    refine ⟨((item, index), (i, k)), ⟨k, hitem, ?_⟩, by simp [hdeploy]⟩
    simp [List.getElem?_zipIdx, hi]

/-- Items that follow the disassembly of a byte code are all placed along its listing, each at the
position of its instruction and under that instruction's number and name. Only the push of the
deploy address has no record. -/
theorem build_along_disassembly (bytes : List UInt8) (operand : Instruction → String)
    (code : List Item) (hcode : Follows code (Instruction.decode bytes)) :
    ∃ t, PcTable.build code (Instruction.tokens operand (Instruction.decode bytes)) = .ok t ∧
      t.code = code ∧ t.pcs.Pairwise (· < ·) ∧
      ∀ pc r, (pc, r) ∈ t.records ↔
        ∃ k item index i, (instructionsFrom 0 code)[k]? = some (item, index) ∧
          (Instruction.decode bytes)[k]? = some i ∧ item.opcode ≠ deployAddress ∧
          pc = i.position ∧ r = ⟨index, k, i.name⟩ := by
  obtain ⟨placed, hplaced, hrecords⟩ :=
    layoutFrom_follows 0 (c := { tokens := Instruction.tokens operand _ }) hcode
      (Instruction.laidFrom_decode bytes) rfl
  have hbuild := PcTable.build_eq_ok.2 ⟨placed, hplaced, rfl⟩
  refine ⟨_, hbuild, rfl, PcTable.pcs_ascend hbuild, fun pc r => ?_⟩
  rw [← mem_recordsAlong, ← hrecords]
  rfl

/-- The guard of a library, then a label and a push of two bytes. -/
theorem build_along_disassembly_guard :
    ∃ t, PcTable.build
        [{ name := "PUSHDEPLOYADDRESS" }, { name := "ADDRESS" }, { name := "tag" },
          { name := "PUSH" }]
        (Instruction.tokens (fun i => Hex.encode i.data)
          (Instruction.decode (0x73 :: List.replicate 20 0 ++ [0x30, 0x61, 1, 2, 0x0c]))) = .ok t ∧
      (21, ⟨1, 1, "ADDRESS"⟩) ∈ t.records ∧ (22, ⟨3, 2, "PUSH2"⟩) ∈ t.records := by
  have hdecode : Instruction.decode (0x73 :: List.replicate 20 0 ++ [0x30, 0x61, 1, 2, 0x0c]) =
      [⟨0, 0x73, List.replicate 20 0⟩, ⟨21, 0x30, []⟩, ⟨22, 0x61, [1, 2]⟩, ⟨25, 0x0c, []⟩] := by
    decide +kernel
  have hinstructions : ([{ name := "PUSHDEPLOYADDRESS" }, { name := "ADDRESS" }, { name := "tag" },
      { name := "PUSH" }] : List Item).filter Item.isInstruction =
      [{ name := "PUSHDEPLOYADDRESS" }, { name := "ADDRESS" }, { name := "PUSH" }] := by decide
  obtain ⟨t, hbuild, _, _, hrecords⟩ := build_along_disassembly
    (0x73 :: List.replicate 20 0 ++ [0x30, 0x61, 1, 2, 0x0c]) (fun i => Hex.encode i.data)
    [{ name := "PUSHDEPLOYADDRESS" }, { name := "ADDRESS" }, { name := "tag" }, { name := "PUSH" }]
    (by
      rw [Follows, hinstructions, hdecode]
      rintro (_ | _ | _ | k) item hk <;> cases hk
      · exact ⟨_, rfl, by decide⟩
      · exact ⟨_, rfl, by decide⟩
      · exact ⟨_, rfl, by decide⟩)
  refine ⟨t, hbuild, (hrecords _ _).2 ?_, (hrecords _ _).2 ?_⟩
  · rw [hdecode]
    exact ⟨1, { name := "ADDRESS" }, 1, ⟨21, 0x30, []⟩, by decide, rfl, by decide, rfl, by decide⟩
  · rw [hdecode]
    exact ⟨2, { name := "PUSH" }, 3, ⟨22, 0x61, [1, 2]⟩, by decide, rfl, by decide, rfl, by decide⟩

end Assembly
end CodeAtlas
