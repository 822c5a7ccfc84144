import CodeAtlas.Bytecode.Instruction

/-! Where the instructions of a code lie: each begins where the one before it ends. -/
namespace CodeAtlas.Instruction

variable {position : Nat} {i j : Instruction} {is : List Instruction}

/-- The position right after an instruction. -/
def stop (i : Instruction) : Nat := i.position + 1 + i.data.length

/-- The instructions lie one after the other from a position on. Only the last may be cut. -/
inductive LaidFrom : Nat → List Instruction → Prop where
  | nil (position : Nat) : LaidFrom position []
  | cons {i : Instruction} {is : List Instruction}
      (fits : i.data.length ≤ Opcode.pushWidth i.opcode)
      (full : is ≠ [] → i.data.length = Opcode.pushWidth i.opcode)
      (rest : LaidFrom (i.position + 1 + Opcode.pushWidth i.opcode) is) :
      LaidFrom i.position (i :: is)

theorem laidFrom_decodeFrom (position : Nat) (code : List UInt8) :
    LaidFrom position (decodeFrom position code) := by
  fun_induction decodeFrom position code with
  | case1 position => exact .nil position
  | case2 position opcode rest width ih =>
    refine .cons (i := ⟨position, opcode, rest.take width⟩) (List.length_take_le ..) ?_ ih
    intro hne
    -- Instructions follow, so bytes are left after the operand and it is not cut.
    have hleft : rest.drop width ≠ [] := by
      intro hnil
      rw [hnil, decodeFrom] at hne
      exact hne rfl
    have : width < rest.length := by simpa using hleft
    simp only [List.length_take]
    omega

theorem laidFrom_decode (code : List UInt8) : LaidFrom 0 (decode code) := laidFrom_decodeFrom 0 code

/-- A text that is disassembled is one of digits, and the bytes that they denote are decoded. -/
theorem disassemble_eq_ok {s : String} :
    disassemble s = .ok is ↔
      ∃ bytes, Hex.decode (Text.encode (codeDigits s)) = .ok bytes ∧ is = decode bytes := by
  unfold disassemble
  cases Hex.decode (Text.encode (codeDigits s)) <;> simp [eq_comm]

theorem laidFrom_disassemble {s : String} (h : disassemble s = .ok is) : LaidFrom 0 is := by
  obtain ⟨bytes, _, rfl⟩ := disassemble_eq_ok.1 h
  exact laidFrom_decode bytes

theorem LaidFrom.position_eq (h : LaidFrom position (i :: is)) : i.position = position := by
  cases h
  rfl

theorem LaidFrom.tail (h : LaidFrom position (i :: is)) :
    LaidFrom (position + 1 + Opcode.pushWidth i.opcode) is := by
  cases h with
  | cons _ _ rest => exact rest

theorem LaidFrom.position_le (h : LaidFrom position is) : ∀ x ∈ is, position ≤ x.position := by
  induction h with
  | nil => simp
  | @cons i is _ _ _ ih =>
    intro x hx
    obtain rfl | hx := List.mem_cons.1 hx
    · exact Nat.le_refl _
    · have := ih x hx
      omega

/-- No instruction begins before an earlier one ends. -/
theorem LaidFrom.pairwise (h : LaidFrom position is) :
    is.Pairwise fun x y => x.stop ≤ y.position := by
  induction h with
  | nil => exact .nil
  | @cons i is hfits _ hrest ih =>
    refine .cons (fun y hy => ?_) ih
    have := hrest.position_le y hy
    simp only [stop]
    omega

/-- A suffix lies from the end of the instruction before it on. -/
theorem LaidFrom.suffix {before : List Instruction} (h : LaidFrom position (before ++ i :: is))
    (hne : is ≠ []) : LaidFrom i.stop is := by
  induction before generalizing position with
  | nil =>
    cases h with
    | cons _ full rest =>
      rw [stop, full hne]
      exact rest
  | cons x before ih => exact ih h.tail

end CodeAtlas.Instruction
