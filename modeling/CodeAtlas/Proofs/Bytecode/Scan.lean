import CodeAtlas.Bytecode.Selector
import CodeAtlas.Proofs.Bytecode.Digits
import CodeAtlas.Proofs.Bytecode.Layout
import Mathlib.Algebra.Group.Nat.Defs
import Mathlib.Data.List.Forall2

/-! The scan for selectors, step by step beside the disassembly of the same code. -/
namespace CodeAtlas

namespace Opcode

variable {opcode : UInt8}

theorem isAssigned_of_pushWidth (h : 0 < pushWidth opcode) : isAssigned opcode = true := by
  unfold pushWidth at h
  split at h
  next hrange =>
    have hlo : 0x5f ≤ opcode := UInt8.le_trans (by decide) hrange.1
    simp [isAssigned, name?, hlo, hrange.2]
  · simp at h

theorem isAssigned_eq : isAssigned eq = true := by decide

theorem isAssigned_jumpi : isAssigned jumpi = true := by decide

theorem isAssigned_push4 : isAssigned push4 = true := by decide

theorem pushWidth_eq_zero_of_unassigned (h : isAssigned opcode = false) : pushWidth opcode = 0 := by
  by_contra hne
  simp [isAssigned_of_pushWidth (Nat.pos_of_ne_zero hne)] at h

theorem ne_of_unassigned {other : UInt8} (h : isAssigned opcode = false)
    (hother : isAssigned other = true) : opcode ≠ other := by
  rintro rfl
  simp [h] at hother

end Opcode

namespace Selector
open Instruction (LaidFrom)

variable {size : UInt64} {span position start : Nat} {window : Option Window} {step : Step}
  {i : Instruction} {digits bytes : List UInt8} {found : List Step} {is : List Instruction}
  {c : String} {confidence : UInt32}

/-- The bytes that a window of a size spans: the size without its top bit, which is lost when the
size is doubled. -/
def reach (size : UInt64) : Nat := size.toNat % 2 ^ 63

theorem toNat_two_mul (size : UInt64) : (2 * size).toNat = 2 * reach size := by
  rw [UInt64.toNat_mul, reach]
  exact Nat.mul_mod_mul_left 2 size.toNat (2 ^ 63)

theorem reach_of_lt (h : size.toNat < 2 ^ 63) : reach size = size.toNat := Nat.mod_eq_of_lt h

theorem reach_le (size : UInt64) : reach size ≤ size.toNat := Nat.mod_le ..

@[simp] theorem expire_none (size : UInt64) : expire size none = none := rfl

/-- A window is alive while it is no older than the digits it spans. -/
theorem expire_some (size : UInt64) (w : Window) :
    expire size (some w) = if w.age ≤ 2 * reach size then some w else none := by
  rw [expire, Option.filter_some, toNat_two_mul]
  simp only [decide_eq_true_eq]

/-- A step of the scan shows an instruction: its opcode, if that is assigned, and its operand in
digits. -/
structure Shows (step : Step) (i : Instruction) : Prop where
  opcode : step.opcode = if Opcode.isAssigned i.opcode then some i.opcode else none
  operand : Hex.Denotes step.operand i.data

theorem pair?_of_nibbles {a b : UInt8} {hi lo : Nat} (high : Hex.nibble? a = some hi)
    (low : Hex.nibble? b = some lo) : pair? a b = some (Hex.byteOf hi lo) := by
  have hplus : a ≠ 43 := by
    rintro rfl
    rw [show Hex.nibble? 43 = none by decide] at high
    cases high
  simp [pair?, high, low, hplus]

/-- On the digits of a code the scan is never out of step with the disassembly. -/
theorem steps_show (h : Hex.Denotes digits bytes) (position : Nat) :
    List.Forall₂ Shows (steps digits) (Instruction.decodeFrom position bytes) := by
  fun_induction Instruction.decodeFrom position bytes generalizing digits with
  | case1 position =>
    cases h
    simp [steps]
  | case2 position opcode rest width =>
    rename_i ih
    cases h with
    | @cons a b hi lo digits rest high low hrest =>
      rw [steps, pair?_of_nibbles high low]
      cases hassigned : Opcode.isAssigned (Hex.byteOf hi lo) with
      | false =>
        have hwidth := Opcode.pushWidth_eq_zero_of_unassigned hassigned
        simp only [Option.filter_some, hassigned]
        refine .cons ⟨by simp [hassigned], ?_⟩ (ih ?_)
        · simpa [width, hwidth] using .nil
        · simpa [width, hwidth] using hrest
      | true =>
        simp only [Option.filter_some, hassigned]
        exact .cons ⟨by simp [hassigned], hrest.take _⟩ (ih (hrest.drop _))

theorem Shows.opcode_of_assigned (h : Shows step i) (hi : Opcode.isAssigned i.opcode = true) :
    step.opcode = some i.opcode := by
  simp [h.opcode, hi]

/-- What a window gives when it is closed does not depend on its age. -/
theorem candidate_later (n : Nat) (window : Option Window) :
    ((window.map (·.later n)).filter (1 < ·.confidence)).map (·.candidate) =
      (window.filter (1 < ·.confidence)).map (·.candidate) := by
  cases window with
  | none => rfl
  | some w => by_cases h : 1 < w.confidence <;> simp [Option.filter_some, Window.later, h]

/-- A conditional jump closes the window, whatever its age. -/
theorem advance_jumpi (h : Shows step i) (hi : i.opcode = Opcode.jumpi) :
    advance size window step = (none, (window.filter (1 < ·.confidence)).map (·.candidate)) := by
  have hopcode := h.opcode_of_assigned (by rw [hi]; exact Opcode.isAssigned_jumpi)
  have hwidth : Opcode.pushWidth Opcode.jumpi = 0 := by decide
  have hne : Opcode.jumpi ≠ Opcode.eq := by decide
  simp only [advance, hopcode, hi, hwidth, hne, Nat.lt_irrefl, if_false, if_true, candidate_later]

/-- A complete push of four bytes opens a window of its own. -/
theorem advance_push4 (h : Shows step i) (hi : i.opcode = Opcode.push4)
    (hfull : i.data.length = 4) :
    advance size window step = (expire size (some ⟨8, 1, Hex.encode i.data⟩), none) := by
  have hopcode := h.opcode_of_assigned (by rw [hi]; exact Opcode.isAssigned_push4)
  have hwidth : Opcode.pushWidth Opcode.push4 = 4 := by decide
  have hlength : step.operand.length = 8 := by rw [h.operand.length_eq, hfull]
  have hopened : opened? Opcode.push4 step.operand = some ⟨8, 1, Hex.encode i.data⟩ := by
    rw [opened?, if_pos ⟨rfl, hlength, h.operand.all_digits⟩, h.operand.lower]
  simp [advance, hopcode, hi, hwidth, hopened]

/-- The number of comparisons among instructions, counted by the scan from a number on. -/
def countFrom (confidence : UInt32) (is : List Instruction) : UInt32 :=
  confidence + .ofNat (is.countP (·.opcode = Opcode.eq))

@[simp] theorem countFrom_nil (confidence : UInt32) : countFrom confidence [] = confidence := by
  simp [countFrom]

theorem countFrom_cons (confidence : UInt32) (i : Instruction) (is : List Instruction) :
    countFrom confidence (i :: is) = countFrom (countFrom confidence [i]) is := by
  simp only [countFrom, List.countP_cons, List.countP_nil, Nat.zero_add, UInt32.ofNat_add]
  rw [UInt32.add_comm (.ofNat _) (.ofNat _), UInt32.add_assoc]

/-- The window after an instruction that neither opens nor closes one. -/
def Window.after (w : Window) (i : Instruction) : Window :=
  ⟨w.age + 2 + 2 * i.data.length, countFrom w.confidence [i], w.candidate⟩

@[simp] theorem Window.after_candidate (w : Window) (i : Instruction) :
    (w.after i).candidate = w.candidate := rfl

@[simp] theorem Window.after_confidence (w : Window) (i : Instruction) :
    (w.after i).confidence = countFrom w.confidence [i] := rfl

/-- Any other instruction makes the window older, and only an assigned one lets it expire. -/
theorem advance_other (h : Shows step i) (hfits : i.data.length ≤ Opcode.pushWidth i.opcode)
    (hjump : i.opcode ≠ Opcode.jumpi) (hpush : i.opcode = Opcode.push4 → i.data.length ≠ 4) :
    advance size window step =
      (if Opcode.isAssigned i.opcode then expire size (window.map (·.after i))
        else window.map (·.after i), none) := by
  have hlength := h.operand.length_eq
  cases hassigned : Opcode.isAssigned i.opcode with
  | false =>
    have hempty : i.data.length = 0 := by
      have := Opcode.pushWidth_eq_zero_of_unassigned hassigned
      omega
    have hne : i.opcode ≠ Opcode.eq := Opcode.ne_of_unassigned hassigned Opcode.isAssigned_eq
    simp [advance, h.opcode, hassigned, Window.later, Window.after, countFrom, hempty, hne]
  | true =>
    have hopcode := h.opcode_of_assigned hassigned
    have hopened : opened? i.opcode step.operand = none := by
      refine if_neg fun hall => ?_
      have := hpush hall.1
      omega
    by_cases hwidth : 0 < Opcode.pushWidth i.opcode
    · have hne : i.opcode ≠ Opcode.eq := by
        intro he
        rw [he] at hwidth
        exact absurd hwidth (by decide)
      simp [advance, hopcode, hwidth, hopened, Function.comp_def, Window.later, Window.after,
        countFrom, hlength, hne]
    · have hempty : i.data.length = 0 := by omega
      by_cases heq : i.opcode = Opcode.eq
      · rw [heq] at hwidth
        simp [advance, hopcode, hwidth, heq, Function.comp_def, Window.later, Window.confirmed,
          Window.after, countFrom, hempty]
      · simp [advance, hopcode, hwidth, heq, hjump, Window.later, Window.after, countFrom, hempty]

theorem scan_cons (size : UInt64) (window : Option Window) (step : Step) (rest : List Step) :
    scan size window (step :: rest) =
      (advance size window step).2.toList ++ scan size (advance size window step).1 rest := by
  rw [scan]
  split <;> simp_all

/-- What is recovered are the selectors that the scan finds, without the mask. -/
theorem mem_recover_iff_scan (s : String) (size : UInt64) (c : String) :
    c ∈ recover s size ↔
      c ≠ mask ∧ c ∈ scan size none (steps (Text.encode (Instruction.codeDigits s))) := by
  have hmask : compare mask c ≠ .eq ↔ c ≠ mask := by
    rw [ne_eq, Std.LawfulEqCmp.compare_eq_iff_eq]
    exact ne_comm
  rw [recover, Std.ExtTreeSet.mem_erase, Std.ExtTreeSet.mem_ofList, List.contains_iff_mem, hmask]

/-- A window that was opened at a position is closed in time by a conditional jump among the
instructions to come, and the comparisons before it count for more than one. -/
def Closes (span start : Nat) (confidence : UInt32) (is : List Instruction) : Prop :=
  ∃ between q after, is = between ++ q :: after ∧ q.opcode = Opcode.jumpi ∧
    (∀ x ∈ between, x.opcode ≠ Opcode.jumpi ∧ x.opcode ≠ Opcode.push4) ∧
    1 < countFrom confidence between ∧
    ∀ x ∈ between, Opcode.isAssigned x.opcode = true → x.stop ≤ start + span

theorem not_closes_nil : ¬ Closes span start confidence [] := by
  rintro ⟨between, q, after, h, _⟩
  simp at h

theorem closes_jumpi (hi : i.opcode = Opcode.jumpi) :
    Closes span start confidence (i :: is) ↔ 1 < confidence := by
  constructor
  · rintro ⟨between, q, after, h, _, hbetween, hcompared, _⟩
    cases between with
    | nil => simpa using hcompared
    | cons x between =>
      cases h
      exact absurd hi (hbetween i (by simp)).1
  · intro hcompared
    exact ⟨[], i, is, rfl, hi, by simp, by simpa using hcompared, by simp⟩

theorem not_closes_push4 (hi : i.opcode = Opcode.push4) :
    ¬ Closes span start confidence (i :: is) := by
  rintro ⟨between, q, after, h, hq, hbetween, _⟩
  cases between with
  | nil =>
    cases h
    exact absurd (hi.symm.trans hq) (by decide)
  | cons x between =>
    cases h
    exact (hbetween i (by simp)).2 hi

/-- Any other instruction must end in time, if it is assigned, and may be the comparison. -/
theorem closes_other (hjump : i.opcode ≠ Opcode.jumpi) (hpush : i.opcode ≠ Opcode.push4) :
    Closes span start confidence (i :: is) ↔
      (Opcode.isAssigned i.opcode = true → i.stop ≤ start + span) ∧
        Closes span start (countFrom confidence [i]) is := by
  constructor
  · rintro ⟨between, q, after, h, hq, hbetween, hcompared, htime⟩
    cases between with
    | nil =>
      cases h
      exact absurd hq hjump
    | cons x between =>
      cases h
      refine ⟨htime i (by simp), between, q, after, rfl, hq, ?_, ?_, ?_⟩
      · exact fun x hx => hbetween x (by simp [hx])
      · rwa [← countFrom_cons]
      · exact fun x hx => htime x (by simp [hx])
  · rintro ⟨hi, between, q, after, rfl, hq, hbetween, hcompared, htime⟩
    refine ⟨i :: between, q, after, rfl, hq, ?_, ?_, ?_⟩
    · simpa [hjump, hpush] using hbetween
    · rwa [countFrom_cons]
    · simpa using ⟨hi, htime⟩

/-- What the scan finds with a window open: its candidate, if the window closes in time, and what it
finds without. The window's age counts the digits since its operand began. -/
theorem mem_scan_some (size : UInt64) (c : String) (hfound : List.Forall₂ Shows found is)
    (hlaid : LaidFrom position is) (w : Window)
    (hage : is ≠ [] → 2 * start + w.age = 2 * position) :
    c ∈ scan size (some w) found ↔
      (w.candidate = c ∧ Closes (reach size) start w.confidence is) ∨ c ∈ scan size none found := by
  induction hfound generalizing position w with
  | nil => simp [scan, not_closes_nil]
  | @cons step i found is hstep hrest ih =>
    have hage := hage (by simp)
    cases hlaid with
    | cons hfits hfull hlaid =>
    by_cases hjump : i.opcode = Opcode.jumpi
    · rw [scan_cons, scan_cons, advance_jumpi hstep hjump, advance_jumpi hstep hjump,
        closes_jumpi hjump]
      by_cases hw : 1 < w.confidence <;> simp [Option.filter_some, hw, eq_comm]
    by_cases hpush : i.opcode = Opcode.push4
    · by_cases hlength : i.data.length = 4
      · rw [scan_cons, scan_cons, advance_push4 hstep hpush hlength,
          advance_push4 hstep hpush hlength]
        simp [not_closes_push4 hpush]
      · -- A push that is cut stands at the end, where nothing can close.
        obtain rfl : is = [] := by
          by_contra hne
          exact hlength ((hfull hne).trans (by rw [hpush]; decide))
        cases hrest
        have hother : ∀ window, advance size window step = _ := fun window =>
          advance_other hstep hfits hjump fun _ => hlength
        rw [scan_cons, scan_cons, hother, hother]
        simp [scan, not_closes_push4 hpush]
    have hother : ∀ window, advance size window step = _ := fun window =>
      advance_other hstep hfits hjump fun h => absurd h hpush
    have hstop : i.stop ≤ start + reach size ↔ (w.after i).age ≤ 2 * reach size := by
      simp only [Instruction.stop, Window.after]
      omega
    have hnext : is ≠ [] → 2 * start + (w.after i).age =
        2 * (i.position + 1 + Opcode.pushWidth i.opcode) := by
      intro hne
      have := hfull hne
      simp only [Window.after]
      omega
    have hrest := ih hlaid (w.after i) hnext
    rw [scan_cons, scan_cons, hother, hother, closes_other hjump hpush, hstop]
    cases Opcode.isAssigned i.opcode with
    | false => simpa using hrest
    | true =>
      by_cases halive : (w.after i).age ≤ 2 * reach size
      · simpa [expire_some, halive] using hrest
      · simp [expire_some, halive]

/-- A complete push of four bytes opens a window that closes in time among the instructions after
it. -/
structure Accepts (span : Nat) (c : String) (p : Instruction) (rest : List Instruction) : Prop where
  opcode : p.opcode = Opcode.push4
  full : p.data.length = 4
  operand : Hex.encode p.data = c
  room : 4 ≤ span
  closes : Closes span (p.position + 1) 1 rest

theorem exists_accepts_cons :
    (∃ p rest, p :: rest <:+ i :: is ∧ Accepts span c p rest) ↔
      Accepts span c i is ∨ ∃ p rest, p :: rest <:+ is ∧ Accepts span c p rest := by
  constructor
  · rintro ⟨p, rest, hsuffix, haccepts⟩
    obtain h | h := List.suffix_cons_iff.1 hsuffix
    · cases h
      exact Or.inl haccepts
    · exact Or.inr ⟨p, rest, h, haccepts⟩
  · rintro (haccepts | ⟨p, rest, hsuffix, haccepts⟩)
    · exact ⟨i, is, List.suffix_rfl, haccepts⟩
    · exact ⟨p, rest, List.suffix_cons_iff.2 (Or.inr hsuffix), haccepts⟩

/-- The scan finds just the operands of the pushes whose windows close in time. -/
theorem mem_scan_none (size : UInt64) (c : String) (hfound : List.Forall₂ Shows found is)
    (hlaid : LaidFrom position is) :
    c ∈ scan size none found ↔ ∃ p rest, p :: rest <:+ is ∧ Accepts (reach size) c p rest := by
  induction hfound generalizing position with
  | nil => simp [scan]
  | @cons step i found is hstep hrest ih =>
    cases hlaid with
    | cons hfits hfull hlaid =>
    have hih := ih hlaid
    rw [exists_accepts_cons, ← hih, scan_cons]
    by_cases hpush : i.opcode = Opcode.push4 ∧ i.data.length = 4
    · obtain ⟨hopcode, hlength⟩ := hpush
      have hopen : Accepts (reach size) c i is ↔
          4 ≤ reach size ∧ Hex.encode i.data = c ∧
            Closes (reach size) (i.position + 1) 1 is := by
        constructor
        · intro h
          exact ⟨h.room, h.operand, h.closes⟩
        · rintro ⟨hroom, hoperand, hcloses⟩
          exact ⟨hopcode, hlength, hoperand, hroom, hcloses⟩
      rw [advance_push4 hstep hopcode hlength, hopen]
      by_cases hroom : 4 ≤ reach size
      · have hage : is ≠ [] →
            2 * (i.position + 1) + 8 = 2 * (i.position + 1 + Opcode.pushWidth i.opcode) := by
          intro hne
          have := hfull hne
          omega
        have hsome := mem_scan_some size c hrest hlaid ⟨8, 1, Hex.encode i.data⟩ hage
        simpa [expire_some, hroom, show 8 ≤ 2 * reach size by omega] using hsome
      · simp [expire_some, hroom, show ¬ 8 ≤ 2 * reach size by omega]
    · have hnot : ¬ Accepts (reach size) c i is := fun h => hpush ⟨h.opcode, h.full⟩
      have hnone : advance size none step = (none, none) := by
        by_cases hjump : i.opcode = Opcode.jumpi
        · rw [advance_jumpi hstep hjump]
          rfl
        · rw [advance_other hstep hfits hjump fun h hlength => hpush ⟨h, hlength⟩]
          simp [expire]
      simp [hnone, hnot]

end Selector
end CodeAtlas
