import CodeAtlas.Proofs.Bytecode.Scan

/-! What it means on the disassembly that a selector is recovered. -/
namespace CodeAtlas.Selector
open Instruction (LaidFrom)

variable {size : UInt64} {span position i j : Nat} {c s : String} {p q l x : Instruction}
  {is rest : List Instruction}

/-- The instructions strictly between two indexes. -/
def between (is : List Instruction) (i j : Nat) : List Instruction := (is.take j).drop (i + 1)

/-- The last instruction before an index whose opcode is assigned. -/
def lastAssigned? (is : List Instruction) (j : Nat) : Option Instruction :=
  (is.take j).reverse.find? (Opcode.isAssigned ·.opcode)

/-- A push of four bytes with the first conditional jump after it. -/
structure Followed (is : List Instruction) (c : String) (i j : Nat) (p q : Instruction) : Prop where
  lt : i < j
  push : is[i]? = some p
  push_opcode : p.opcode = Opcode.push4
  operand : Hex.encode p.data = c
  jump : is[j]? = some q
  jump_opcode : q.opcode = Opcode.jumpi
  first : ∀ x ∈ between is i j, x.opcode ≠ Opcode.jumpi

/-- The push is complete. A comparison but no other push of four bytes stands before the jump. -/
structure Compares (is : List Instruction) (c : String) (i j : Nat) (p q : Instruction) : Prop
    extends Followed is c i j p q where
  full : p.data.length = 4
  alone : ∀ x ∈ between is i j, x.opcode ≠ Opcode.push4
  compared : ∃ x ∈ between is i j, x.opcode = Opcode.eq

/-- The last assigned opcode before the jump ends within the window. -/
structure Dispatched (is : List Instruction) (span : Nat) (c : String) (i j : Nat)
    (p q : Instruction) : Prop extends Compares is c i j p q where
  in_window : ∃ l, lastAssigned? is j = some l ∧ l.stop ≤ p.position + 1 + span

/-- The comparisons are seen in the count of them, a word that starts at one and may wrap. -/
def Counted (is : List Instruction) (i j : Nat) : Prop := 1 < countFrom 1 (between is i j)

theorem Dispatched.mono {wider : Nat} (h : Dispatched is span c i j p q) (hle : span ≤ wider) :
    Dispatched is wider c i j p q := by
  obtain ⟨hcompares, l, hl, hwindow⟩ := h
  exact ⟨hcompares, l, hl, by omega⟩

theorem exists_eq_of_counted (h : 1 < countFrom 1 is) : ∃ x ∈ is, x.opcode = Opcode.eq := by
  by_contra hnone
  have hzero : is.countP (·.opcode = Opcode.eq) = 0 := by
    simpa [List.countP_eq_zero] using hnone
  simp [countFrom, hzero] at h

/-- The count of few comparisons does not wrap. -/
theorem counted_of_exists (hfew : is.length + 1 < 2 ^ 32)
    (h : ∃ x ∈ is, x.opcode = Opcode.eq) : 1 < countFrom 1 is := by
  have hpos : 0 < is.countP (·.opcode = Opcode.eq) := by
    simpa [List.countP_pos_iff] using h
  have hle : is.countP (·.opcode = Opcode.eq) ≤ is.length := List.countP_le_length
  rw [countFrom, UInt32.lt_iff_toNat_lt, UInt32.toNat_add, UInt32.toNat_ofNat']
  have hone : (1 : UInt32).toNat = 1 := rfl
  omega

theorem Compares.counted (h : Compares is c i j p q) (hfew : is.length < 2 ^ 32) :
    Counted is i j := by
  refine counted_of_exists ?_ h.compared
  have hj := (List.getElem?_eq_some_iff.1 h.jump).1
  simp only [between, List.length_drop, List.length_take]
  omega

theorem push_assigned (h : p.opcode = Opcode.push4) : Opcode.isAssigned p.opcode = true := by
  rw [h]
  exact Opcode.isAssigned_push4

theorem lastAssigned?_eq_some (h : lastAssigned? is j = some l) :
    Opcode.isAssigned l.opcode = true ∧ ∃ before idle, is.take j = before ++ l :: idle ∧
      ∀ x ∈ idle, Opcode.isAssigned x.opcode = false := by
  obtain ⟨hassigned, idle, before, hsplit, hidle⟩ := List.find?_eq_some_iff_append.1 h
  refine ⟨hassigned, before.reverse, idle.reverse, ?_, fun x hx => ?_⟩
  · rw [← List.reverse_inj, hsplit]
    simp
  · simpa using hidle x (by simpa using hx)

/-- No assigned opcode before an index ends after the last one. -/
theorem stop_le_of_lastAssigned? (hlaid : LaidFrom position is) (hl : lastAssigned? is j = some l)
    (hx : x ∈ is.take j) (hassigned : Opcode.isAssigned x.opcode = true) : x.stop ≤ l.stop := by
  obtain ⟨_, before, idle, hsplit, hidle⟩ := lastAssigned?_eq_some hl
  have hsorted := hlaid.pairwise.sublist (List.take_sublist j is)
  rw [hsplit] at hsorted hx
  obtain hx | hx := List.mem_append.1 hx
  · have := (List.pairwise_append.1 hsorted).2.2 x hx l (by simp)
    simp only [Instruction.stop] at this ⊢
    omega
  · obtain rfl | hx := List.mem_cons.1 hx
    · exact Nat.le_refl _
    · simp [hidle x hx] at hassigned

theorem drop_of_followed (h : Followed is c i j p q) :
    is.drop i = p :: (between is i j ++ q :: is.drop (j + 1)) := by
  obtain ⟨hi, hp⟩ := List.getElem?_eq_some_iff.1 h.push
  obtain ⟨hj, hq⟩ := List.getElem?_eq_some_iff.1 h.jump
  have hlt := h.lt
  have hsplit : is.drop (i + 1) = between is i j ++ is.drop j := by
    rw [between, ← List.drop_append_of_le_length (by simp; omega), List.take_append_drop]
  rw [List.drop_eq_getElem_cons hi, hp, hsplit, List.drop_eq_getElem_cons hj, hq]

theorem mem_take_of_between (h : x ∈ between is i j) : x ∈ is.take j := List.mem_of_mem_drop h

theorem push_mem_take (h : Followed is c i j p q) : p ∈ is.take j :=
  List.mem_iff_getElem?.2 ⟨i, by simp [h.lt, h.push]⟩

theorem accepts_of_dispatched (hlaid : LaidFrom position is) (h : Dispatched is span c i j p q)
    (hcounted : Counted is i j) : ∃ p rest, p :: rest <:+ is ∧ Accepts span c p rest := by
  obtain ⟨l, hl, hwindow⟩ := h.in_window
  have htime : ∀ x ∈ is.take j, Opcode.isAssigned x.opcode = true →
      x.stop ≤ p.position + 1 + span := fun x hx hassigned =>
    Nat.le_trans (stop_le_of_lastAssigned? hlaid hl hx hassigned) hwindow
  refine ⟨p, _, drop_of_followed h.toFollowed ▸ List.drop_suffix i is, ?_⟩
  refine ⟨h.push_opcode, h.full, h.operand, ?_, between is i j, q, _, rfl, h.jump_opcode, ?_, ?_,
    ?_⟩
  · have := htime p (push_mem_take h.toFollowed) (push_assigned h.push_opcode)
    simp only [Instruction.stop, h.full] at this
    omega
  · exact fun x hx => ⟨h.first x hx, h.alone x hx⟩
  · exact hcounted
  · exact fun x hx => htime x (mem_take_of_between hx)

/-- An assigned opcode before an index is the last one there, or the last one comes after it. -/
theorem exists_lastAssigned? (hp : Opcode.isAssigned p.opcode = true)
    (before mid after : List Instruction) :
    ∃ l ∈ p :: mid, Opcode.isAssigned l.opcode = true ∧
      lastAssigned? (before ++ p :: mid ++ after) (before ++ p :: mid).length = some l := by
  have hsome : ((p :: mid).reverse.find? (Opcode.isAssigned ·.opcode)).isSome = true :=
    List.find?_isSome.2 ⟨p, by simp, hp⟩
  obtain ⟨l, hl⟩ := Option.isSome_iff_exists.1 hsome
  have hassigned : Opcode.isAssigned l.opcode = true := by simpa using List.find?_some hl
  refine ⟨l, List.mem_reverse.1 (List.mem_of_find?_eq_some hl), hassigned, ?_⟩
  rw [lastAssigned?, List.take_left, List.reverse_append, List.find?_append, hl]
  rfl

theorem dispatched_of_accepts (hsuffix : p :: rest <:+ is) (h : Accepts span c p rest) :
    ∃ i j q, Dispatched is span c i j p q ∧ Counted is i j := by
  obtain ⟨before, rfl⟩ := hsuffix
  obtain ⟨hopcode, hfull, hoperand, hroom, mid, q, after, rfl, hq, hmid, hcompared, htime⟩ := h
  rw [← List.cons_append, ← List.append_assoc]
  have hbetween : between (before ++ p :: mid ++ q :: after) before.length
      (before ++ p :: mid).length = mid := by
    rw [between, List.take_left, List.drop_length_add_append]
    rfl
  obtain ⟨l, hl, hassigned, hlast⟩ :=
    exists_lastAssigned? (push_assigned hopcode) before mid (q :: after)
  refine ⟨before.length, (before ++ p :: mid).length, q, ⟨⟨⟨?_, ?_, hopcode, hoperand, ?_, hq, ?_⟩,
    hfull, ?_, ?_⟩, l, hlast, ?_⟩, ?_⟩
  · simp
  · simp
  · rw [List.getElem?_append_right (Nat.le_refl _), Nat.sub_self]
    rfl
  · rw [hbetween]
    exact fun x hx => (hmid x hx).1
  · rw [hbetween]
    exact fun x hx => (hmid x hx).2
  · rw [hbetween]
    exact exists_eq_of_counted hcompared
  · obtain rfl | hl := List.mem_cons.1 hl
    · simp only [Instruction.stop, hfull]
      omega
    · exact htime l hl hassigned
  · rwa [Counted, hbetween]

/-- On a text that is disassembled the scan reads the same instructions. -/
theorem mem_recover (h : Instruction.disassemble s = .ok is) :
    c ∈ recover s size ↔
      c ≠ mask ∧ ∃ p rest, p :: rest <:+ is ∧ Accepts (reach size) c p rest := by
  obtain ⟨bytes, hbytes, rfl⟩ := Instruction.disassemble_eq_ok.1 h
  have hscan := mem_scan_none size c (steps_show (Hex.denotes_of_decode hbytes) 0)
    (Instruction.laidFrom_decode bytes)
  rw [mem_recover_iff_scan, hscan]
  rfl

theorem exists_accepts_iff_dispatched (hlaid : LaidFrom position is) :
    (∃ p rest, p :: rest <:+ is ∧ Accepts span c p rest) ↔
      ∃ i j p q, Dispatched is span c i j p q ∧ Counted is i j := by
  constructor
  · rintro ⟨p, rest, hsuffix, haccepts⟩
    obtain ⟨i, j, q, h⟩ := dispatched_of_accepts hsuffix haccepts
    exact ⟨i, j, p, q, h⟩
  · rintro ⟨i, j, p, q, h, hcounted⟩
    exact accepts_of_dispatched hlaid h hcounted

theorem mem_recover_iff_counted (h : Instruction.disassemble s = .ok is) :
    c ∈ recover s size ↔
      c ≠ mask ∧ ∃ i j p q, Dispatched is (reach size) c i j p q ∧ Counted is i j := by
  rw [mem_recover h, exists_accepts_iff_dispatched (Instruction.laidFrom_disassemble h)]

/-- The number of unassigned bytes right before an index. -/
def idleBefore (is : List Instruction) (j : Nat) : Nat :=
  ((is.take j).reverse.takeWhile fun x => !Opcode.isAssigned x.opcode).length

/-- Some push of these four bytes has its jump within the window. -/
def InTime (is : List Instruction) (span : Nat) (c : String) : Prop :=
  ∃ i j p q, Followed is c i j p q ∧ q.position ≤ p.position + 1 + span

theorem position_after_idle {idle : List Instruction}
    (hlaid : LaidFrom position (idle ++ q :: rest))
    (hidle : ∀ x ∈ idle, Opcode.isAssigned x.opcode = false) :
    q.position = position + idle.length := by
  induction idle generalizing position with
  | nil => exact hlaid.position_eq
  | cons x idle ih =>
    have hwidth := Opcode.pushWidth_eq_zero_of_unassigned (hidle x (by simp))
    have hnext := ih hlaid.tail fun y hy => hidle y (by simp [hy])
    simp only [hwidth, List.length_cons] at hnext ⊢
    omega

/-- Just the unassigned bytes right before an index lie between it and the last assigned opcode. -/
theorem position_eq_stop_add_idle (hlaid : LaidFrom position is)
    (hl : lastAssigned? is j = some l) (hq : is[j]? = some q) :
    q.position = l.stop + idleBefore is j := by
  obtain ⟨hassigned, before, idle, hsplit, hidle⟩ := lastAssigned?_eq_some hl
  obtain ⟨hj, hget⟩ := List.getElem?_eq_some_iff.1 hq
  have hcode : is = before ++ l :: (idle ++ q :: is.drop (j + 1)) := by
    calc is = is.take j ++ is.drop j := (List.take_append_drop j is).symm
      _ = before ++ l :: (idle ++ q :: is.drop (j + 1)) := by
        rw [hsplit, List.drop_eq_getElem_cons hj, hget]
        simp
  have hlength : idleBefore is j = idle.length := by
    have hrev : ∀ x ∈ idle.reverse, (!Opcode.isAssigned x.opcode) = true := by
      simpa using hidle
    rw [idleBefore, hsplit, List.reverse_append, List.reverse_cons, List.append_assoc,
      List.takeWhile_append_of_pos hrev]
    simp [hassigned]
  rw [hlength]
  rw [hcode] at hlaid
  exact position_after_idle (hlaid.suffix (by simp)) hidle

/-- Seen from the jump, the window is longer by the unassigned bytes right before it. -/
theorem dispatched_iff_position (hlaid : LaidFrom position is) :
    Dispatched is span c i j p q ↔
      Compares is c i j p q ∧ q.position ≤ p.position + 1 + span + idleBefore is j := by
  constructor
  · rintro ⟨hcompares, l, hl, hwindow⟩
    have := position_eq_stop_add_idle hlaid hl hcompares.jump
    exact ⟨hcompares, by omega⟩
  · rintro ⟨hcompares, hposition⟩
    have hsome : (lastAssigned? is j).isSome = true :=
      List.find?_isSome.2 ⟨p, List.mem_reverse.2 (push_mem_take hcompares.toFollowed),
        push_assigned hcompares.push_opcode⟩
    obtain ⟨l, hl⟩ := Option.isSome_iff_exists.1 hsome
    have := position_eq_stop_add_idle hlaid hl hcompares.jump
    exact ⟨hcompares, l, hl, by omega⟩

theorem mem_recover_iff_position (h : Instruction.disassemble s = .ok is) :
    c ∈ recover s size ↔ c ≠ mask ∧ ∃ i j p q, Compares is c i j p q ∧ Counted is i j ∧
      q.position ≤ p.position + 1 + reach size + idleBefore is j := by
  have hlaid := Instruction.laidFrom_disassemble h
  simp only [mem_recover_iff_counted h, dispatched_iff_position hlaid, and_assoc,
    and_comm (a := Counted is _ _)]

/-- A selector is recovered when its jump lies past the reach of the window by no more than the
unassigned bytes right before it. So all the recovered selectors are in time just when those with a
jump past the size given have another one within it. -/
theorem recover_window (s : String) (is : List Instruction)
    (h : Instruction.disassemble s = .ok is) (size : UInt64) :
    (∀ c, c ∈ recover s size ↔ c ≠ mask ∧ ∃ i j p q, Compares is c i j p q ∧ Counted is i j ∧
      q.position ≤ p.position + 1 + reach size + idleBefore is j) ∧
    ((∀ c ∈ recover s size, InTime is size.toNat c) ↔
      ∀ c i j p q, c ≠ mask → Compares is c i j p q → Counted is i j →
        p.position + 1 + size.toNat < q.position →
        q.position ≤ p.position + 1 + reach size + idleBefore is j → InTime is size.toNat c) := by
  refine ⟨fun c => mem_recover_iff_position h, ?_, ?_⟩
  · intro htime c i j p q hmask hcompares hcounted _ hposition
    exact htime c
      ((mem_recover_iff_position h).2 ⟨hmask, i, j, p, q, hcompares, hcounted, hposition⟩)
  · intro hlate c hc
    obtain ⟨hmask, i, j, p, q, hcompares, hcounted, hposition⟩ :=
      (mem_recover_iff_position h).1 hc
    by_cases hpast : p.position + 1 + size.toNat < q.position
    · exact hlate c i j p q hmask hcompares hcounted hpast hposition
    · exact ⟨i, j, p, q, hcompares.toFollowed, by omega⟩

theorem recover_window_at_jump :
    ∃ is, Instruction.disassemble "63aabbccdd1457" = .ok is ∧
      "aabbccdd" ∈ recover "63aabbccdd1457" 5 ∧
      ∀ c ∈ recover "63aabbccdd1457" 5, InTime is 5 c := by
  have h : Instruction.disassemble "63aabbccdd1457" =
      .ok [⟨0, 0x63, [0xaa, 0xbb, 0xcc, 0xdd]⟩, ⟨5, 0x14, []⟩, ⟨6, 0x57, []⟩] := by
    decide +kernel
  refine ⟨_, h, by decide +kernel, (recover_window _ _ h 5).2.2 ?_⟩
  intro c i j p q _ hcompares _ hpast _
  have hclose : ∀ x ∈ ([⟨0, 0x63, [0xaa, 0xbb, 0xcc, 0xdd]⟩, ⟨5, 0x14, []⟩,
      ⟨6, 0x57, []⟩] : List Instruction), x.position ≤ 6 := by decide
  have hlast := hclose q (List.mem_of_getElem? hcompares.jump)
  have hsize : (5 : UInt64).toNat = 5 := rfl
  omega

theorem not_inTime (h : ∀ p ∈ is, p.opcode = Opcode.push4 → ∀ q ∈ is, q.opcode = Opcode.jumpi →
    p.position + 1 + span < q.position) : ¬ InTime is span c := by
  rintro ⟨i, j, p, q, hfollowed, htime⟩
  have := h p (List.mem_of_getElem? hfollowed.push) hfollowed.push_opcode q
    (List.mem_of_getElem? hfollowed.jump) hfollowed.jump_opcode
  omega

/-- Unassigned bytes do not let the window expire: this jump lies past it. -/
theorem recover_past_window :
    ∃ is, Instruction.disassemble "63aabbccdd140c0c0c0c0c0c57" = .ok is ∧
      "aabbccdd" ∈ recover "63aabbccdd140c0c0c0c0c0c57" defaultSize ∧
      ¬ InTime is defaultSize.toNat "aabbccdd" := by
  refine ⟨[⟨0, 0x63, [0xaa, 0xbb, 0xcc, 0xdd]⟩, ⟨5, 0x14, []⟩, ⟨6, 0x0c, []⟩, ⟨7, 0x0c, []⟩,
    ⟨8, 0x0c, []⟩, ⟨9, 0x0c, []⟩, ⟨10, 0x0c, []⟩, ⟨11, 0x0c, []⟩, ⟨12, 0x57, []⟩], ?_, ?_, ?_⟩
  · decide +kernel
  · decide +kernel
  · exact not_inTime (by decide)

end CodeAtlas.Selector
