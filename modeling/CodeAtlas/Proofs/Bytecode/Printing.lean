import CodeAtlas.Proofs.Bytecode.Digits
import CodeAtlas.Proofs.Bytecode.Lossless
import CodeAtlas.Proofs.Lookup
import CodeAtlas.Proofs.Text.Numeral
import CodeAtlas.Proofs.Text.Reading

/-! The printed listing of a code can be read back. Lines are set apart by line feeds and columns by
blanks, neither of which stands inside a column, so the width of a column does not matter. -/
namespace CodeAtlas

namespace Hex

variable {c : Char}

theorem notMem_encode (h : Text.digit? c = none) (bytes : List UInt8) :
    c ∉ (encode bytes).toList := by
  induction bytes with
  | nil => simp [encode]
  | cons b bytes ih =>
    rw [encode_cons, String.toList_append, List.mem_append, not_or]
    exact ⟨Text.notMem_hexadecimal h 2 b.toNat, ih⟩

theorem length_byte (b : UInt8) : (Text.hexadecimal 2 b.toNat).toList.length = 2 :=
  Text.length_hexadecimal (by decide) b.toNat_lt

theorem length_encode (bytes : List UInt8) : (encode bytes).toList.length = 2 * bytes.length := by
  induction bytes with
  | nil => rfl
  | cons b bytes ih =>
    rw [encode_cons, String.toList_append, List.length_append, length_byte, ih, List.length_cons]
    omega

/-- Each byte takes two digits, so the digits tell the bytes. -/
theorem encode_injective : Function.Injective encode := by
  intro xs ys h
  have hlength : xs.length = ys.length := by
    have hdigits := congrArg (·.toList.length) h
    simp only [length_encode] at hdigits
    omega
  induction xs generalizing ys with
  | nil => exact (List.eq_nil_of_length_eq_zero hlength.symm).symm
  | cons x xs ih =>
    cases ys with
    | nil => simp at hlength
    | cons y ys =>
      have htexts := congrArg String.toList h
      simp only [encode_cons, String.toList_append] at htexts
      obtain ⟨hfirst, hrest⟩ := List.append_inj htexts (by rw [length_byte, length_byte])
      have hx : x.toNat = y.toNat := Text.hexadecimal_injective 2 (String.toList_inj.1 hfirst)
      rw [UInt8.toNat_inj.1 hx, ih (String.toList_inj.1 hrest) (by simpa using hlength)]

end Hex

namespace Opcode

theorem isAlphanum_numbered {family : String} (h : family.toList.all Char.isAlphanum = true)
    (first opcode : UInt8) (start : Nat) :
    (numbered family first opcode start).toList.all Char.isAlphanum = true := by
  rw [numbered, String.toList_append, List.all_append, h, Bool.true_and, List.all_eq_true]
  intro c hc
  rw [Char.isAlphanum, Text.isDigit_of_mem_decimal hc, Bool.or_true]

/-- The names of opcodes are made of letters and digits. -/
theorem isAlphanum_name (opcode : UInt8) : (name opcode).toList.all Char.isAlphanum = true := by
  unfold name name?
  split
  · exact isAlphanum_numbered (by decide) 0x5f opcode 0
  · split
    · exact isAlphanum_numbered (by decide) 0x80 opcode 1
    · split
      · exact isAlphanum_numbered (by decide) 0x90 opcode 1
      · split
        · exact isAlphanum_numbered (by decide) 0xa0 opcode 0
        · have hall : ∀ e ∈ singles, e.2.toList.all Char.isAlphanum = true := by decide +kernel
          cases hsingle : singles.lookup opcode with
          | none => decide
          | some single => exact hall (opcode, single) (mem_of_lookup hsingle)

theorem notMem_name {c : Char} (h : c.isAlphanum = false) (opcode : UInt8) :
    c ∉ (name opcode).toList := by
  intro hmem
  have hname := List.all_eq_true.1 (isAlphanum_name opcode) c hmem
  simp [h] at hname

end Opcode

namespace Instruction

variable {i j : Instruction} {is js : List Instruction}

/-- What stands in a line, blanks aside: position, opcode and name, then the operand if there is
one. The first two gaps are wider than one blank. -/
def columns (i : Instruction) : List String :=
  [Text.hexadecimal 4 i.position, "", "", "", Text.hexadecimal 2 i.opcode.toNat, "", i.name] ++
    if i.data.isEmpty then [] else ["0x" ++ Hex.encode i.data]

theorem line_eq (i : Instruction) : i.line = " ".intercalate i.columns := by
  apply String.toList_inj.1
  unfold line columns
  split <;> simp

theorem notMem_columns {c : Char} (hdigit : Text.digit? c = none) (hmark : c ∉ "0x".toList)
    (hword : c.isAlphanum = false) : ∀ column ∈ i.columns, c ∉ column.toList := by
  have hposition := Text.notMem_hexadecimal hdigit 4 i.position
  have hopcode := Text.notMem_hexadecimal hdigit 2 i.opcode.toNat
  have hname : c ∉ i.name.toList := Opcode.notMem_name hword i.opcode
  have hoperand : c ∉ ("0x" ++ Hex.encode i.data).toList := by
    rw [String.toList_append, List.mem_append, not_or]
    exact ⟨hmark, Hex.notMem_encode hdigit i.data⟩
  intro column hcolumn
  obtain hfixed | hlast := List.mem_append.1 hcolumn
  · simp only [List.mem_cons, List.not_mem_nil, or_false] at hfixed
    rcases hfixed with rfl | rfl | rfl | rfl | rfl | rfl | rfl <;> simp [hposition, hopcode, hname]
  · split at hlast
    · simp at hlast
    · rw [List.mem_singleton.1 hlast]
      exact hoperand

/-- The columns can be told apart again. -/
theorem splitOn_line (i : Instruction) : Text.splitOn ' ' i.line = i.columns := by
  rw [line_eq]
  apply Text.splitOn_intercalate_of_notMem rfl (by simp [columns])
  exact notMem_columns (by decide) (by decide) (by decide)

theorem notMem_line (i : Instruction) : '\n' ∉ i.line.toList := by
  intro hmem
  rw [line_eq] at hmem
  obtain hblank | ⟨column, hcolumn, hmem⟩ := Text.mem_intercalate hmem
  · exact absurd hblank (by decide)
  · exact notMem_columns (by decide) (by decide) (by decide) column hcolumn hmem

/-- A line shows all of an instruction. -/
theorem line_injective : Function.Injective line := by
  intro i j h
  have hcolumns : i.columns = j.columns := by rw [← splitOn_line, h, splitOn_line]
  simp only [columns, List.cons_append, List.nil_append, List.cons.injEq, true_and] at hcolumns
  obtain ⟨hposition, hopcode, _, hoperand⟩ := hcolumns
  have hposition := Text.hexadecimal_injective 4 hposition
  have hopcode := UInt8.toNat_inj.1 (Text.hexadecimal_injective 2 hopcode)
  -- The column of the operand is left out for an instruction without one.
  have hdata : i.data = j.data := by
    split at hoperand <;> split at hoperand
    · simp_all
    · simp at hoperand
    · simp at hoperand
    · have htexts := (List.cons.inj hoperand).1
      exact Hex.encode_injective (by simpa using htexts)
  cases i
  cases j
  simp_all

theorem listing_cons (i : Instruction) (is : List Instruction) :
    listing (i :: is) = i.line ++ "\n" ++ listing is := by
  simp [listing]

/-- The lines of a listing are those of its instructions, and nothing stands after the last. -/
theorem splitOn_listing (is : List Instruction) :
    Text.splitOn '\n' (listing is) = is.map line ++ [""] := by
  induction is with
  | nil => rfl
  | cons i is ih =>
    rw [listing_cons, Text.splitOn_append rfl, Text.splitOn_of_notMem (notMem_line i), ih]
    rfl

theorem listing_injective : Function.Injective listing := by
  intro is js h
  have hlines : is.map line ++ [""] = js.map line ++ [""] := by
    rw [← splitOn_listing, h, splitOn_listing]
  exact List.map_injective_iff.2 line_injective (List.append_cancel_right hlines)

/-- Two texts have the same listing just when they are of the same bytes. -/
theorem listing_eq_iff_bytes (s t : String) (is js : List Instruction)
    (hs : disassemble s = .ok is) (ht : disassemble t = .ok js) :
    listing is = listing js ↔
      ∃ bytes, Hex.decode (Text.encode (codeDigits s)) = .ok bytes ∧
        Hex.decode (Text.encode (codeDigits t)) = .ok bytes := by
  obtain ⟨bytes, hbytes, rfl⟩ := disassemble_eq_ok.1 hs
  obtain ⟨bytes', hbytes', rfl⟩ := disassemble_eq_ok.1 ht
  constructor
  · intro hlisting
    have hdecode : decode bytes = decode bytes' := listing_injective hlisting
    have hsame : bytes = bytes' := by rw [← assemble_decode bytes, hdecode, assemble_decode]
    exact ⟨bytes, hbytes, hsame ▸ hbytes'⟩
  · rintro ⟨common, hcommon, hcommon'⟩
    cases hbytes.symm.trans hcommon
    cases hbytes'.symm.trans hcommon'
    rfl

/-- The same code in two spellings. It has an unassigned opcode and ends with a push that is cut. -/
theorem listing_eq_iff_bytes_spellings :
    disassemble " 0x0C61aB" = .ok [⟨0, 0x0c, []⟩, ⟨1, 0x61, [0xab]⟩] ∧
      disassemble "0c61Ab" = .ok [⟨0, 0x0c, []⟩, ⟨1, 0x61, [0xab]⟩] ∧
      ∃ bytes, Hex.decode (Text.encode (codeDigits " 0x0C61aB")) = .ok bytes ∧
        Hex.decode (Text.encode (codeDigits "0c61Ab")) = .ok bytes := by
  have hs : disassemble " 0x0C61aB" = .ok [⟨0, 0x0c, []⟩, ⟨1, 0x61, [0xab]⟩] := by decide +kernel
  have ht : disassemble "0c61Ab" = .ok [⟨0, 0x0c, []⟩, ⟨1, 0x61, [0xab]⟩] := by decide +kernel
  exact ⟨hs, ht, (listing_eq_iff_bytes _ _ _ _ hs ht).1 rfl⟩

end Instruction
end CodeAtlas
