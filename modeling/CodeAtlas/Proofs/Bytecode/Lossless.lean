import CodeAtlas.Proofs.Bytecode.Layout

/-! Disassembly loses nothing. The bytes of the instructions are the code again, and instructions that
lie one after the other are found again in their bytes. -/
namespace CodeAtlas.Instruction

variable {position k : Nat} {i : Instruction} {is : List Instruction}

/-- The bytes of instructions, one after the other. -/
def assemble (is : List Instruction) : List UInt8 := is.flatMap fun i => i.opcode :: i.data

@[simp] theorem assemble_nil : assemble [] = [] := rfl

@[simp] theorem assemble_cons (i : Instruction) (is : List Instruction) :
    assemble (i :: is) = i.opcode :: (i.data ++ assemble is) := by
  simp [assemble]

/-- Each instruction starts right after the one before it, the first at zero. All have their whole
operand but the last, which may lack a part of it. -/
structure Contiguous (is : List Instruction) : Prop where
  first : ∀ i, is[0]? = some i → i.position = 0
  next : ∀ (k : Nat) (i j : Instruction), is[k]? = some i → is[k + 1]? = some j →
    j.position = i.position + 1 + i.data.length
  whole : ∀ (k : Nat) (i : Instruction), is[k]? = some i → k + 1 < is.length →
    i.data.length = Opcode.pushWidth i.opcode
  fits : ∀ i ∈ is, i.data.length ≤ Opcode.pushWidth i.opcode

/-- Each instruction has its whole operand and starts after as many bytes as those before it have. -/
def Complete (is : List Instruction) : Prop :=
  ∀ (k : Nat) (i : Instruction), is[k]? = some i →
    i.data.length = Opcode.pushWidth i.opcode ∧ i.position = (assemble (is.take k)).length

/-! ### From the code -/

theorem assemble_decodeFrom (position : Nat) (code : List UInt8) :
    assemble (decodeFrom position code) = code := by
  fun_induction decodeFrom position code with
  | case1 => rfl
  | case2 position opcode rest width ih =>
    rw [assemble_cons, ih]
    exact congrArg (opcode :: ·) (List.take_append_drop width rest)

theorem assemble_decode (code : List UInt8) : assemble (decode code) = code :=
  assemble_decodeFrom 0 code

theorem LaidFrom.operand (h : LaidFrom position (i :: is)) :
    i.data.length ≤ Opcode.pushWidth i.opcode ∧
      (is ≠ [] → i.data.length = Opcode.pushWidth i.opcode) := by
  cases h with
  | cons hfits hfull _ => exact ⟨hfits, hfull⟩

/-- From any instruction on, the rest lies from the position of that instruction on. -/
theorem LaidFrom.drop (h : LaidFrom position is) (hi : is[k]? = some i) :
    LaidFrom i.position (i :: is.drop (k + 1)) := by
  induction k generalizing position is with
  | zero =>
    obtain ⟨rest, rfl⟩ : ∃ rest, is = i :: rest := by
      cases is with
      | nil => simp at hi
      | cons x rest => exact ⟨rest, by simpa using hi⟩
    rw [h.position_eq]
    exact h
  | succ k ih =>
    cases is with
    | nil => simp at hi
    | cons x rest => exact ih h.tail hi

theorem LaidFrom.contiguous (h : LaidFrom 0 is) : Contiguous is where
  first i hi := by
    cases is with
    | nil => simp at hi
    | cons x rest =>
      cases hi
      exact h.position_eq
  next k i j hi hj := by
    have hrest : is.drop (k + 1) = j :: is.drop (k + 2) := by
      obtain ⟨hlt, rfl⟩ := List.getElem?_eq_some_iff.1 hj
      exact List.drop_eq_getElem_cons hlt
    have hlaid := h.drop hi
    rw [hrest] at hlaid
    rw [hlaid.tail.position_eq, hlaid.operand.2 (by simp)]
  whole k i hi hlt := (h.drop hi).operand.2 (by simpa using hlt)
  fits i hmem := by
    obtain ⟨k, hi⟩ := List.mem_iff_getElem?.1 hmem
    exact (h.drop hi).operand.1

/-! ### From the instructions -/

/-- Instructions that lie one after the other are found again in their bytes, even when the last of
them is cut. -/
theorem LaidFrom.decodeFrom_assemble (h : LaidFrom position is) :
    decodeFrom position (assemble is) = is := by
  induction h with
  | nil position => simp [decodeFrom]
  | @cons i is hfits hfull hrest ih =>
    have hoperand : (i.data ++ assemble is).take (Opcode.pushWidth i.opcode) = i.data ∧
        (i.data ++ assemble is).drop (Opcode.pushWidth i.opcode) = assemble is := by
      -- A cut operand has no bytes after it that could be taken for its missing ones.
      by_cases hlast : is = []
      · subst hlast
        simp [List.take_of_length_le hfits, hfits]
      · rw [← hfull hlast]
        exact ⟨List.take_left, List.drop_left⟩
    rw [assemble_cons, decodeFrom, hoperand.1, hoperand.2, ih]

theorem laidFrom_of_complete
    (h : ∀ (k : Nat) (i : Instruction), is[k]? = some i →
      i.data.length = Opcode.pushWidth i.opcode ∧
        i.position = position + (assemble (is.take k)).length) :
    LaidFrom position is := by
  induction is generalizing position with
  | nil => exact .nil position
  | cons i is ih =>
    obtain ⟨hfull, hposition⟩ := h 0 i rfl
    obtain rfl : i.position = position := by simpa using hposition
    refine .cons (Nat.le_of_eq hfull) (fun _ => hfull) (ih fun k j hj => ?_)
    obtain ⟨hj, hstart⟩ := h (k + 1) j hj
    refine ⟨hj, ?_⟩
    simp only [List.take_succ_cons, assemble_cons, List.length_cons, List.length_append] at hstart
    omega

/-- A code is the bytes of its instructions, which lie one after the other. Complete instructions are
what their bytes are disassembled to. -/
theorem decode_inverts_assemble (code : List UInt8) (is : List Instruction) :
    assemble (decode code) = code ∧ Contiguous (decode code) ∧
      (Complete is → decode (assemble is) = is) := by
  refine ⟨assemble_decode code, (laidFrom_decode code).contiguous, fun hcomplete => ?_⟩
  apply LaidFrom.decodeFrom_assemble
  apply laidFrom_of_complete
  simpa [Complete] using hcomplete

/-- A code of pushes, the last of which is cut, and a complete push of a byte that looks like one. -/
theorem decode_inverts_assemble_pushes :
    assemble (decode [0x60, 0x60, 0x61, 0x60]) = [0x60, 0x60, 0x61, 0x60] ∧
      Contiguous (decode [0x60, 0x60, 0x61, 0x60]) ∧
      Complete [⟨0, 0x5f, []⟩, ⟨1, 0x60, [0x61]⟩, ⟨3, 0x00, []⟩] ∧
      decode [0x5f, 0x60, 0x61, 0x00] = [⟨0, 0x5f, []⟩, ⟨1, 0x60, [0x61]⟩, ⟨3, 0x00, []⟩] := by
  have hcomplete : Complete [⟨0, 0x5f, []⟩, ⟨1, 0x60, [0x61]⟩, ⟨3, 0x00, []⟩] := by
    rintro (_ | _ | _ | k) i hi <;> cases hi <;> decide
  obtain ⟨hbytes, hcontiguous, hfound⟩ := decode_inverts_assemble [0x60, 0x60, 0x61, 0x60]
    [⟨0, 0x5f, []⟩, ⟨1, 0x60, [0x61]⟩, ⟨3, 0x00, []⟩]
  exact ⟨hbytes, hcontiguous, hcomplete, hfound hcomplete⟩

end CodeAtlas.Instruction
