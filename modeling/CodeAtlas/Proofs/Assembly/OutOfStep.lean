import CodeAtlas.Proofs.Assembly.Simulation
import CodeAtlas.Proofs.Lookup

/-! When the walk along a listing loses its step. An item that is no push takes one token, whatever
token it is. If that is the name of a push with an operand, the operand is taken for the next
instruction, and no error says so. -/
namespace CodeAtlas

namespace Opcode

variable {opcode : UInt8}

theorem widthOfName?_single {single : String} (h : singles.lookup opcode = some single) :
    widthOfName? single = none := by
  have hall : ∀ e ∈ singles, widthOfName? e.2 = none := by decide +kernel
  exact hall (opcode, single) (mem_of_lookup h)

theorem widthOfName?_of_not_isPush (h : ¬ IsPush opcode) : widthOfName? (name opcode) = none := by
  have hnot : ¬ (0x5f ≤ opcode ∧ opcode ≤ 0x7f) := h
  unfold name name?
  rw [if_neg hnot]
  split
  · simp [numbered, widthOfName?, Text.afterStart?]
  · split
    · simp [numbered, widthOfName?, Text.afterStart?]
    · split
      · simp [numbered, widthOfName?, Text.afterStart?]
      · cases hsingle : singles.lookup opcode with
        | none => decide
        | some single => exact widthOfName?_single hsingle

/-- Only the names of pushes tell a width, and it is the right one. -/
theorem pushWidth_of_widthOfName? {width : Nat} (h : widthOfName? (name opcode) = some width) :
    width = pushWidth opcode := by
  by_cases hpush : IsPush opcode
  · rw [widthOfName?_name hpush] at h
    cases h
    rfl
  · rw [widthOfName?_of_not_isPush hpush] at h
    cases h

theorem widthOfName?_push20 : widthOfName? "PUSH20" = some 20 := by decide

end Opcode

namespace Assembly
open Instruction (LaidFrom)

variable {index : Nat} {c next : Cursor} {item : Item} {items code : List Item}
  {operand : Instruction → String} {i : Instruction} {is all : List Instruction}
  {token : Option String} {placed : List Placed} {records : List (Nat × PcRecord)}

/-- Every record is at the position of an instruction and has its name. -/
def Truthful (is : List Instruction) (records : List (Nat × PcRecord)) : Prop :=
  ∀ pc r, (pc, r) ∈ records → ∃ i ∈ is, pc = i.position ∧ r.opcode = i.name

/-- The item takes all tokens of an instruction: where an operand follows the name, it is a push. -/
def Item.KeepsStep (item : Item) (i : Instruction) : Prop :=
  0 < Opcode.pushWidth i.opcode → item.isPush = true

instance (item : Item) (i : Instruction) : Decidable (item.KeepsStep i) :=
  inferInstanceAs (Decidable (0 < Opcode.pushWidth i.opcode → item.isPush = true))

/-- Every instruction of a code but the last keeps step with the one that it stands for. After the
last one no step is left to lose. -/
def InStep (code : List Item) (is : List Instruction) : Prop :=
  ∀ (k : Nat) (item : Item) (i : Instruction),
    (code.filter Item.isInstruction)[k]? = some item → is[k]? = some i →
    k + 1 < (code.filter Item.isInstruction).length → item.KeepsStep i

theorem Item.not_keepsStep :
    ¬ item.KeepsStep i ↔ 0 < Opcode.pushWidth i.opcode ∧ item.isPush = false := by
  simp [Item.KeepsStep]

theorem isPush_of_deployAddress (h : item.opcode = deployAddress) : item.isPush = true := by
  rw [Item.isPush, h]
  decide

theorem tokens_cons (operand : Instruction → String) (i : Instruction) (is : List Instruction) :
    Instruction.tokens operand (i :: is) =
      i.name :: ((if 0 < Opcode.pushWidth i.opcode then [operand i] else []) ++
        Instruction.tokens operand is) := by
  simp [Instruction.tokens]

/-! ### One step -/

theorem Cursor.tokens_ne_nil (hitem : item.isInstruction = true)
    (h : c.place index item = .ok (token, next)) : c.tokens ≠ [] := by
  intro hnil
  rcases place_cases h with ⟨_, hhead, _⟩ | ⟨_, hpseudo, _⟩ | ⟨_, _, word, rest, htokens, _⟩
  · simp [hnil] at hhead
  · simp [hitem] at hpseudo
  · simp [hnil] at htokens

/-- At the start of an instruction's tokens only its name can be recorded. -/
theorem Cursor.token_eq_name (htokens : c.tokens = Instruction.tokens operand (i :: is))
    (h : c.place index item = .ok (token, next)) {word : String} (hword : token = some word) :
    word = i.name := by
  subst hword
  rcases place_cases h with ⟨_, _, hnone, _⟩ | ⟨_, _, hnone, _⟩ | ⟨_, _, first, rest, hfirst, hsome, _⟩
  · cases hnone
  · cases hnone
  · rw [htokens, tokens_cons] at hfirst
    cases hfirst
    cases hsome
    rfl

/-- An item that keeps step leads to the tokens and the position of the next instruction. -/
theorem Cursor.place_keepsStep (hitem : item.isInstruction = true) (hkeeps : item.KeepsStep i)
    (htokens : c.tokens = Instruction.tokens operand (i :: is))
    (h : c.place index item = .ok (token, next)) :
    next.offset = c.offset + 1 + Opcode.pushWidth i.opcode ∧
      next.tokens = Instruction.tokens operand is := by
  rw [tokens_cons] at htokens
  rcases place_cases h with ⟨_, hhead, _, rfl⟩ | ⟨_, hpseudo, _⟩ | ⟨_, _, word, rest, hword, _, hnext⟩
  · have hname : i.name = "PUSH20" := by simpa [htokens] using hhead
    have hwidth : 20 = Opcode.pushWidth i.opcode := by
      apply Opcode.pushWidth_of_widthOfName?
      rw [← Opcode.widthOfName?_push20, ← hname]
      rfl
    simp [pass, htokens, ← hwidth]
  · simp [hitem] at hpseudo
  · rw [htokens] at hword
    cases hword
    rcases hnext with ⟨_, width, hwidth, rfl⟩ | ⟨hpush, rfl⟩
    · have hwidth := Opcode.pushWidth_of_widthOfName? hwidth
      subst hwidth
      by_cases hpos : 0 < Opcode.pushWidth i.opcode
      · simp [pass, htokens, hpos, Nat.add_assoc]
      · simp [pass, htokens, hpos, Nat.add_assoc]
    · have hzero : ¬ 0 < Opcode.pushWidth i.opcode := by
        intro hpos
        simp [hkeeps hpos] at hpush
      have hwidth : Opcode.pushWidth i.opcode = 0 := by omega
      simp [pass, htokens, hwidth]

/-- An item that loses step leads to the operand instead. -/
theorem Cursor.place_losesStep (hitem : item.isInstruction = true) (hloses : ¬ item.KeepsStep i)
    (htokens : c.tokens = Instruction.tokens operand (i :: is))
    (h : c.place index item = .ok (token, next)) :
    next.offset = c.offset + 1 ∧ next.tokens = operand i :: Instruction.tokens operand is := by
  obtain ⟨hpos, hpush⟩ := Item.not_keepsStep.1 hloses
  rw [tokens_cons] at htokens
  rcases place_cases h with ⟨hdeploy, _⟩ | ⟨_, hpseudo, _⟩ | ⟨_, _, word, rest, _, _, hnext⟩
  · simp [isPush_of_deployAddress hdeploy] at hpush
  · simp [hitem] at hpseudo
  · rcases hnext with ⟨hpush', _⟩ | ⟨_, rfl⟩
    · simp [hpush] at hpush'
    · simp [pass, htokens, hpos]

/-! ### The walk -/

theorem inStep_pseudo (hitem : item.isInstruction = false) :
    InStep (item :: items) is ↔ InStep items is := by
  simp [InStep, hitem]

theorem inStep_of_pseudo (hitems : ∀ x ∈ items, x.isInstruction = false) : InStep items is := by
  have hfilter : items.filter Item.isInstruction = [] := by simpa using hitems
  intro k x j hx
  simp [hfilter] at hx

/-- The first instruction has to keep step only if another one follows. -/
theorem inStep_cons (hitem : item.isInstruction = true) :
    InStep (item :: items) (i :: is) ↔
      ((∃ x ∈ items, x.isInstruction = true) → item.KeepsStep i) ∧ InStep items is := by
  have hfilter : (item :: items).filter Item.isInstruction =
      item :: items.filter Item.isInstruction := by simp [hitem]
  have hlater : (∃ x ∈ items, x.isInstruction = true) ↔
      0 < (items.filter Item.isInstruction).length := by
    simp [List.length_pos_iff_exists_mem]
  unfold InStep
  rw [hfilter, hlater]
  constructor
  · intro h
    refine ⟨fun hpos => h 0 item i rfl rfl (by simpa using hpos), ?_⟩
    intro k x j hx hj hk
    exact h (k + 1) x j hx hj (by simpa using hk)
  · rintro ⟨hfirst, hrest⟩ k x j hx hj hk
    cases k with
    | zero =>
      cases hx
      cases hj
      exact hfirst (by simpa using hk)
    | succ k => exact hrest k x j hx hj (by simpa using hk)

/-- Without instructions there are no records. -/
theorem records_of_pseudo (h : layoutFrom index c items = .ok placed)
    (hitems : ∀ x ∈ items, x.isInstruction = false) : placed.filterMap Placed.record? = [] := by
  induction items generalizing index c placed with
  | nil =>
    cases h
    rfl
  | cons item items ih =>
    obtain ⟨token, next, rest, hplace, hrest, rfl⟩ := layoutFrom_cons_eq_ok.1 h
    rw [Cursor.place_pseudo (hitems item (by simp))] at hplace
    cases hplace
    rw [List.filterMap_cons_none rfl]
    exact ih hrest fun x hx => hitems x (by simp [hx])

/-- The next instruction is recorded where the walk has come to. Only a deploy address is not, and it
must find its push. -/
theorem exists_record_of_instruction {word : String} {rest : List String}
    (h : layoutFrom index c items = .ok placed) (htokens : c.tokens = word :: rest)
    (hword : word ≠ "PUSH20") (hitems : ∃ x ∈ items, x.isInstruction = true) :
    ∃ r, (c.offset, r) ∈ placed.filterMap Placed.record? := by
  induction items generalizing index c placed with
  | nil => simp at hitems
  | cons item items ih =>
    obtain ⟨token, next, later, hplace, hlater, rfl⟩ := layoutFrom_cons_eq_ok.1 h
    rcases Cursor.place_cases hplace with
      ⟨_, hhead, _⟩ | ⟨_, hpseudo, rfl, rfl⟩ | ⟨_, _, first, _, hfirst, rfl, hnext⟩
    · have hpush : word = "PUSH20" := by simpa [htokens] using hhead
      exact absurd hpush hword
    · obtain ⟨x, hx, hinstruction⟩ := hitems
      have hne : x ≠ item := by
        rintro rfl
        simp [hpseudo] at hinstruction
      obtain ⟨r, hr⟩ := ih hlater htokens ⟨x, by simpa [hne] using hx, hinstruction⟩
      exact ⟨r, hr⟩
    · exact ⟨⟨index, c.ordinal, first⟩, by simp [Placed.record?]⟩

theorem truthful_cons {pc : Nat} {r : PcRecord} :
    Truthful is ((pc, r) :: records) ↔
      (∃ i ∈ is, pc = i.position ∧ r.opcode = i.name) ∧ Truthful is records := by
  simp only [Truthful, List.mem_cons, Prod.mk.injEq]
  constructor
  · intro h
    exact ⟨h pc r (Or.inl ⟨rfl, rfl⟩), fun pc' r' hmem => h pc' r' (Or.inr hmem)⟩
  · rintro ⟨hfirst, hrest⟩ pc' r' (⟨rfl, rfl⟩ | hmem)
    · exact hfirst
    · exact hrest pc' r' hmem

/-- A step from the start of an instruction adds no false record. -/
theorem truthful_placed (hi : i ∈ all) (hposition : i.position = c.offset)
    (htokens : c.tokens = Instruction.tokens operand (i :: is))
    (h : c.place index item = .ok (token, next)) :
    Truthful all ((⟨index, item, c.offset, c.ordinal, token⟩ :: placed).filterMap Placed.record?) ↔
      Truthful all (placed.filterMap Placed.record?) := by
  cases token with
  | none => rfl
  | some word =>
    have hname := Cursor.token_eq_name htokens h rfl
    have hrecord : Placed.record? ⟨index, item, c.offset, c.ordinal, some word⟩ =
        some (c.offset, ⟨index, c.ordinal, word⟩) := rfl
    rw [List.filterMap_cons_some hrecord, truthful_cons]
    exact and_iff_right ⟨i, hi, hposition.symm, hname⟩

/-- After a lost step the walk is at the first byte of an operand, where no instruction is: the
records are truthful just when no more are made. -/
theorem layoutFrom_lost_truthful_iff {offset : Nat} (h : layoutFrom index c items = .ok placed)
    (hlaid : LaidFrom offset (i :: is)) (hwidth : 0 < Opcode.pushWidth i.opcode)
    (hoffset : c.offset = offset + 1) (htokens : c.tokens = operand i :: Instruction.tokens operand is)
    (hoperand : operand i ≠ "PUSH20") (hfrom : ∀ j ∈ all, offset ≤ j.position → j ∈ i :: is) :
    Truthful all (placed.filterMap Placed.record?) ↔ ∀ x ∈ items, x.isInstruction = false := by
  constructor
  · intro htruthful x hx
    rw [← Bool.not_eq_true]
    intro hinstruction
    obtain ⟨r, hr⟩ := exists_record_of_instruction h htokens hoperand ⟨x, hx, hinstruction⟩
    obtain ⟨j, hj, hpc, _⟩ := htruthful _ r hr
    have hposition := hlaid.position_eq
    rcases List.mem_cons.1 (hfrom j hj (by omega)) with rfl | hmem
    · omega
    · have hle := hlaid.tail.position_le j hmem
      omega
  · intro hpseudo
    rw [records_of_pseudo h hpseudo]
    exact nofun

/-- From the start of an instruction on, the records are truthful just when the items keep step. The
instructions yet to come are those of the whole code that do not begin before. -/
theorem layoutFrom_truthful_iff (h : layoutFrom index c code = .ok placed)
    (hlaid : LaidFrom c.offset is) (htokens : c.tokens = Instruction.tokens operand is)
    (hoperand : ∀ i ∈ is, operand i ≠ "PUSH20")
    (hsub : ∀ i ∈ is, i ∈ all) (hfrom : ∀ i ∈ all, c.offset ≤ i.position → i ∈ is) :
    Truthful all (placed.filterMap Placed.record?) ↔ InStep code is := by
  induction code generalizing index c is placed with
  | nil =>
    cases h
    simp [Truthful, InStep]
  | cons item items ih =>
    obtain ⟨token, next, rest, hplace, hrest, rfl⟩ := layoutFrom_cons_eq_ok.1 h
    cases hitem : item.isInstruction with
    | false =>
      rw [Cursor.place_pseudo hitem] at hplace
      cases hplace
      rw [inStep_pseudo hitem, List.filterMap_cons_none rfl]
      exact ih hrest hlaid htokens hoperand hsub hfrom
    | true =>
      cases is with
      | nil => exact absurd htokens (Cursor.tokens_ne_nil hitem hplace)
      | cons i is =>
        have hposition := hlaid.position_eq
        rw [truthful_placed (hsub i (by simp)) hposition htokens hplace, inStep_cons hitem]
        by_cases hkeeps : item.KeepsStep i
        · obtain ⟨hoffset, hnext⟩ := Cursor.place_keepsStep hitem hkeeps htokens hplace
          have hfrom' : ∀ j ∈ all, next.offset ≤ j.position → j ∈ is := by
            intro j hj hle
            rcases List.mem_cons.1 (hfrom j hj (by omega)) with rfl | hmem
            · omega
            · exact hmem
          rw [ih hrest (hoffset ▸ hlaid.tail) hnext (fun j hj => hoperand j (by simp [hj]))
            (fun j hj => hsub j (by simp [hj])) hfrom']
          exact (and_iff_right fun _ => hkeeps).symm
        · obtain ⟨hoffset, hnext⟩ := Cursor.place_losesStep hitem hkeeps htokens hplace
          rw [layoutFrom_lost_truthful_iff hrest hlaid (Item.not_keepsStep.1 hkeeps).1 hoffset hnext
            (hoperand i (by simp)) hfrom]
          constructor
          · intro hpseudo
            exact ⟨fun ⟨x, hx, hinstruction⟩ => by simp [hpseudo x hx] at hinstruction,
              inStep_of_pseudo hpseudo⟩
          · rintro ⟨hstep, -⟩ x hx
            rw [← Bool.not_eq_true]
            exact fun hinstruction => hkeeps (hstep ⟨x, hx, hinstruction⟩)

/-- A table along the listing of a byte code places every record at an instruction and under its name
just when no instruction but the last loses the step. Nothing else tells, since a lost step is no
error. No operand may read as the push that a deploy address takes. -/
theorem records_truthful_iff (bytes : List UInt8) (operand : Instruction → String)
    (hoperand : ∀ i ∈ Instruction.decode bytes, operand i ≠ "PUSH20")
    (code : List Item) (t : PcTable)
    (h : PcTable.build code (Instruction.tokens operand (Instruction.decode bytes)) = .ok t) :
    Truthful (Instruction.decode bytes) t.records ↔ InStep code (Instruction.decode bytes) := by
  obtain ⟨placed, hplaced, rfl⟩ := PcTable.build_eq_ok.1 h
  exact layoutFrom_truthful_iff hplaced (Instruction.laidFrom_decode bytes) rfl hoperand
    (fun _ hi => hi) fun _ hi _ => hi

/-- The operand of an instruction as digits with a mark. -/
def markedOperand (i : Instruction) : String := "0x" ++ Hex.encode i.data

/-- The last instruction is assembled into a push, but the table ends there. -/
theorem records_truthful_iff_last :
    ∃ t, PcTable.build
        [{ name := "PUSH" }, { name := "tag" }, { name := "ADD" }, { name := "ASSIGNIMMUTABLE" }]
        (Instruction.tokens markedOperand (Instruction.decode [0x60, 0x20, 0x01, 0x61, 1, 2])) =
          .ok t ∧
      t.records = [(0, ⟨0, 0, "PUSH1"⟩), (2, ⟨2, 1, "ADD"⟩), (3, ⟨3, 2, "PUSH2"⟩)] ∧
      Truthful (Instruction.decode [0x60, 0x20, 0x01, 0x61, 1, 2]) t.records := by
  have hdecode : Instruction.decode [0x60, 0x20, 0x01, 0x61, 1, 2] =
      [⟨0, 0x60, [0x20]⟩, ⟨2, 0x01, []⟩, ⟨3, 0x61, [1, 2]⟩] := by decide +kernel
  have hinstructions : ([{ name := "PUSH" }, { name := "tag" }, { name := "ADD" },
      { name := "ASSIGNIMMUTABLE" }] : List Item).filter Item.isInstruction =
      [{ name := "PUSH" }, { name := "ADD" }, { name := "ASSIGNIMMUTABLE" }] := by decide
  obtain ⟨t, ht, hrecords⟩ : ∃ t, PcTable.build
      [{ name := "PUSH" }, { name := "tag" }, { name := "ADD" }, { name := "ASSIGNIMMUTABLE" }]
      (Instruction.tokens markedOperand (Instruction.decode [0x60, 0x20, 0x01, 0x61, 1, 2])) =
        .ok t ∧ t.records = [(0, ⟨0, 0, "PUSH1"⟩), (2, ⟨2, 1, "ADD"⟩), (3, ⟨3, 2, "PUSH2"⟩)] := by
    rw [hdecode]
    exact ⟨_, rfl, by decide⟩
  refine ⟨t, ht, hrecords, (records_truthful_iff _ _ ?_ _ t ht).2 ?_⟩
  · rw [hdecode]
    decide
  · rw [InStep, hdecode, hinstructions]
    rintro (_ | _ | k) item i hitem hi hk
    · cases hitem
      cases hi
      decide
    · cases hitem
      cases hi
      decide
    · have hlast : k + 3 < 3 := hk
      omega

/-- The assignment of an immutable was assembled into a push, an addition and a store. The operand of
the push is recorded as an instruction, between two that are there. -/
theorem operand_recorded :
    ∃ t, PcTable.build [{ name := "ASSIGNIMMUTABLE" }, { name := "RETURN" }]
        (Instruction.tokens markedOperand (Instruction.decode [0x60, 0x20, 0x01, 0x52, 0xf3])) =
          .ok t ∧
      (1, ⟨1, 1, "0x20"⟩) ∈ t.records ∧
      ∀ i ∈ Instruction.decode [0x60, 0x20, 0x01, 0x52, 0xf3], i.position ≠ 1 := by
  have hdecode : Instruction.decode [0x60, 0x20, 0x01, 0x52, 0xf3] =
      [⟨0, 0x60, [0x20]⟩, ⟨2, 0x01, []⟩, ⟨3, 0x52, []⟩, ⟨4, 0xf3, []⟩] := by decide +kernel
  rw [hdecode]
  exact ⟨_, rfl, by decide, by decide⟩

end Assembly
end CodeAtlas
