import CodeAtlas.Proofs.Bytecode.Scan
import CodeAtlas.Proofs.Text.Utf8
import CodeAtlas.Proofs.Text.Words

/-! The scan for selectors on any text. A wider window finds all that a narrower one does, and all
that is found stands in the text. -/
namespace CodeAtlas.Selector

variable {small large size : UInt64} {window window' : Option Window} {step : Step}
  {found : List Step} {digits : List UInt8} {c s : String} {w : Window} {opcode : UInt8}

/-! ### Steps -/

/-- What a step of the scan does to the window. -/
inductive Effect where
  | skip
  | opens (w : Window)
  | ages (digits : Nat)
  | confirms
  | closes
  deriving DecidableEq

/-- The effect of a step. It does not depend on the window or its size. -/
def effect (step : Step) : Effect :=
  match step.opcode with
  | none => .skip
  | some opcode =>
    if 0 < Opcode.pushWidth opcode then
      match opened? opcode step.operand with
      | some w => .opens w
      | none => .ages (2 + step.operand.length)
    else if opcode = Opcode.eq then .confirms
    else if opcode = Opcode.jumpi then .closes
    else .ages 2

/-- The window after an effect, and what was found. -/
def Effect.on (size : UInt64) (window : Option Window) : Effect → Option Window × Option String
  | .skip => (window.map (·.later 2), none)
  | .opens w => (expire size (some w), none)
  | .ages digits => (expire size (window.map (·.later digits)), none)
  | .confirms => (expire size (window.map fun w => (w.later 2).confirmed), none)
  | .closes => (none, (window.filter (1 < ·.confidence)).map (·.candidate))

theorem advance_eq_on (size : UInt64) (window : Option Window) (step : Step) :
    advance size window step = (effect step).on size window := by
  have hlater : ∀ m n (w : Window), (w.later m).later n = w.later (m + n) := by
    simp [Window.later, Nat.add_assoc]
  unfold advance effect
  cases step.opcode with
  | none => rfl
  | some opcode =>
    dsimp only
    split_ifs with hpush heq hjump
    · cases opened? opcode step.operand with
      | none => simp [Effect.on, Function.comp_def, hlater]
      | some w => simp [Effect.on]
    · simp [Effect.on, Function.comp_def]
    · simp only [Effect.on, candidate_later]
    · rfl

/-- A window that is opened stands for a complete push. -/
theorem opened?_of_effect (h : effect step = .opens w) :
    ∃ opcode, opened? opcode step.operand = some w := by
  unfold effect at h
  split at h
  · cases h
  · split_ifs at h
    split at h
    next hopened =>
      cases h
      exact ⟨_, hopened⟩
    · cases h

theorem eq_of_expire (h : expire size window = some w) :
    window = some w ∧ w.age ≤ 2 * reach size := by
  obtain ⟨hw, halive⟩ := Option.filter_eq_some_iff.1 h
  rw [toNat_two_mul] at halive
  exact ⟨hw, by simpa using halive⟩

/-! ### Two windows -/

/-- A narrower scan beside a wider one: its window is closed, or both have the same. -/
def Within (window window' : Option Window) : Prop := window = none ∨ window = window'

theorem Within.map (h : Within window window') (f : Window → Window) :
    Within (window.map f) (window'.map f) := by
  rcases h with rfl | rfl
  · exact .inl rfl
  · exact .inr rfl

/-- A window that is alive for the narrower scan is alive for the wider one. -/
theorem Within.expire (h : Within window window') (hle : reach small ≤ reach large) :
    Within (expire small window) (expire large window') := by
  rcases h with rfl | rfl
  · exact .inl rfl
  · cases window with
    | none => exact .inl rfl
    | some w =>
      rw [expire_some, expire_some]
      by_cases halive : w.age ≤ 2 * reach small
      · rw [if_pos halive, if_pos (by omega)]
        exact .inr rfl
      · rw [if_neg halive]
        exact .inl rfl

/-- A step leaves the windows as they were to each other, and what the narrower scan finds the wider
one finds. -/
theorem Within.advance (h : Within window window') (hle : reach small ≤ reach large) (step : Step) :
    Within (advance small window step).1 (advance large window' step).1 ∧
      ∀ c, (advance small window step).2 = some c → (advance large window' step).2 = some c := by
  rw [advance_eq_on, advance_eq_on]
  cases effect step with
  | skip => exact ⟨h.map _, by simp [Effect.on]⟩
  | opens w =>
    have hsame : Within (some w) (some w) := .inr rfl
    exact ⟨hsame.expire hle, by simp [Effect.on]⟩
  | ages digits => exact ⟨(h.map _).expire hle, by simp [Effect.on]⟩
  | confirms => exact ⟨(h.map _).expire hle, by simp [Effect.on]⟩
  | closes =>
    refine ⟨.inl rfl, ?_⟩
    rcases h with rfl | rfl
    · simp [Effect.on]
    · exact fun c hc => hc

theorem scan_subset (h : Within window window') (hle : reach small ≤ reach large) :
    scan small window found ⊆ scan large window' found := by
  induction found generalizing window window' with
  | nil => simp [scan]
  | cons step found ih =>
    obtain ⟨hnext, hfound⟩ := h.advance hle step
    intro c hc
    rw [scan_cons, List.mem_append, Option.mem_toList] at hc ⊢
    rcases hc with hc | hc
    · exact .inl (hfound c hc)
    · exact .inr (ih hnext hc)

theorem recover_subset (hle : reach small ≤ reach large) (s : String) :
    ∀ c ∈ recover s small, c ∈ recover s large := by
  intro c hc
  rw [mem_recover_iff_scan] at hc ⊢
  exact ⟨hc.1, scan_subset (.inl rfl) hle hc.2⟩

/-! ### The narrowest windows -/

/-- A window that holds just its push, before any comparison. -/
def Fresh (window : Option Window) : Prop := ∀ w, window = some w → 8 ≤ w.age ∧ w.confidence = 1

theorem Fresh.map (h : Fresh window) {f : Window → Window}
    (hf : ∀ w, w.age ≤ (f w).age ∧ (f w).confidence = w.confidence) : Fresh (window.map f) := by
  intro w hw
  obtain ⟨old, hold, rfl⟩ := Option.map_eq_some_iff.1 hw
  obtain ⟨hage, hconfidence⟩ := h old hold
  exact ⟨Nat.le_trans hage (hf old).1, (hf old).2.trans hconfidence⟩

theorem Fresh.expire (h : Fresh window) : Fresh (expire size window) := fun w hw =>
  h w (eq_of_expire hw).1

theorem fresh_opened {operand : List UInt8} (h : opened? opcode operand = some w) :
    Fresh (some w) := by
  unfold opened? at h
  split_ifs at h
  cases h
  intro w hw
  cases hw
  exact ⟨Nat.le_refl 8, rfl⟩

/-- Five bytes are a push and a comparison: a window of fewer is closed before the comparison
counts, and nothing is found. -/
theorem Fresh.advance (h : Fresh window) (hsmall : reach size < 5) (step : Step) :
    Fresh (advance size window step).1 ∧ (advance size window step).2 = none := by
  rw [advance_eq_on]
  cases heffect : effect step with
  | skip => exact ⟨h.map fun w => ⟨Nat.le_add_right .., rfl⟩, rfl⟩
  | opens w =>
    obtain ⟨opcode, hopened⟩ := opened?_of_effect heffect
    exact ⟨(fresh_opened hopened).expire, rfl⟩
  | ages digits =>
    have hlater : Fresh (window.map (·.later digits)) := h.map fun w => ⟨Nat.le_add_right .., rfl⟩
    exact ⟨hlater.expire, rfl⟩
  | confirms =>
    refine ⟨fun w hw => ?_, rfl⟩
    obtain ⟨hconfirmed, halive⟩ := eq_of_expire hw
    obtain ⟨old, hold, rfl⟩ := Option.map_eq_some_iff.1 hconfirmed
    have hage := (h old hold).1
    simp only [Window.confirmed, Window.later] at halive
    omega
  | closes =>
    refine ⟨by simp [Effect.on, Fresh], ?_⟩
    cases window with
    | none => rfl
    | some w => simp [Effect.on, Option.filter_some, (h w rfl).2]

theorem scan_eq_nil (h : Fresh window) (hsmall : reach size < 5) : scan size window found = [] := by
  induction found generalizing window with
  | nil => rfl
  | cons step found ih =>
    obtain ⟨hnext, hnone⟩ := h.advance hsmall step
    rw [scan_cons, hnone, ih hnext]
    rfl

theorem notMem_recover (hsmall : reach size < 5) (s c : String) : c ∉ recover s size := by
  rw [mem_recover_iff_scan, scan_eq_nil (fun w hw => by cases hw) hsmall]
  simp

/-! ### What is found -/

/-- A window after a step is a new one or has the candidate of the one before. -/
theorem exists_of_advance_window (h : (advance size window step).1 = some w) :
    (∃ opcode, opened? opcode step.operand = some w) ∨
      ∃ w', window = some w' ∧ w'.candidate = w.candidate := by
  have hkept {f : Window → Window} (h : window.map f = some w)
      (hf : ∀ w, (f w).candidate = w.candidate) :
      ∃ w', window = some w' ∧ w'.candidate = w.candidate := by
    obtain ⟨w', hw', rfl⟩ := Option.map_eq_some_iff.1 h
    exact ⟨w', hw', (hf w').symm⟩
  rw [advance_eq_on] at h
  cases heffect : effect step with
  | skip =>
    rw [heffect] at h
    exact .inr (hkept h fun _ => rfl)
  | opens new =>
    have hexpire : expire size (some new) = some w := by simpa [heffect, Effect.on] using h
    obtain ⟨hnew, _⟩ := eq_of_expire hexpire
    cases hnew
    exact .inl (opened?_of_effect heffect)
  | ages digits =>
    rw [heffect] at h
    exact .inr (hkept (eq_of_expire h).1 fun _ => rfl)
  | confirms =>
    rw [heffect] at h
    exact .inr (hkept (eq_of_expire h).1 fun _ => rfl)
  | closes =>
    rw [heffect] at h
    cases h

/-- What a step finds is the candidate of the window. -/
theorem exists_of_advance_found (h : (advance size window step).2 = some c) :
    ∃ w, window = some w ∧ w.candidate = c := by
  rw [advance_eq_on] at h
  cases heffect : effect step with
  | closes =>
    rw [heffect] at h
    obtain ⟨w, hw, rfl⟩ := Option.map_eq_some_iff.1 h
    exact ⟨w, (Option.filter_eq_some_iff.1 hw).1, rfl⟩
  | skip | opens | ages | confirms => simp [heffect, Effect.on] at h

/-- The scan finds the candidate that it starts with, or one that some push opened a window for. -/
theorem exists_of_mem_scan (h : c ∈ scan size window found) :
    (∃ w, window = some w ∧ w.candidate = c) ∨
      ∃ step ∈ found, ∃ opcode w, opened? opcode step.operand = some w ∧ w.candidate = c := by
  induction found generalizing window with
  | nil => simp [scan] at h
  | cons step found ih =>
    rw [scan_cons, List.mem_append, Option.mem_toList] at h
    rcases h with hfound | hlater
    · exact .inl (exists_of_advance_found hfound)
    · rcases ih hlater with ⟨w, hw, rfl⟩ | ⟨step', hstep', hopened⟩
      · rcases exists_of_advance_window hw with ⟨opcode, hopened⟩ | hkept
        · exact .inr ⟨step, by simp, opcode, w, hopened, rfl⟩
        · exact .inl hkept
      · exact .inr ⟨step', by simp [hstep'], hopened⟩

theorem isInfix_operand (h : step ∈ steps digits) : step.operand <:+: digits := by
  fun_induction steps digits with
  | case1 a b rest hpair ih =>
    rcases List.mem_cons.1 h with rfl | h
    · exact List.nil_infix
    · exact List.infix_cons (List.infix_cons (ih h))
  | case2 a b rest opcode hpair width ih =>
    apply List.infix_cons
    apply List.infix_cons
    rcases List.mem_cons.1 h with rfl | h
    · exact (List.take_prefix width rest).isInfix
    · exact (ih h).trans (List.drop_suffix width rest).isInfix
  | case3 => simp at h

/-- A selector as it is written in a text: eight digits, whose letters may be of either case. -/
structure WrittenIn (c s : String) : Prop where
  length : c.toList.length = 8
  digits : ∀ d ∈ c.toList, d ∈ "0123456789abcdef".toList
  occurs : ∃ part, part <:+: s.toList ∧ part.map Char.toLower = c.toList

theorem isInfix_codeDigits (s : String) : Instruction.codeDigits s <:+: s.toList := by
  have hmark : Instruction.codeDigits s <:+ Text.trim s.toList := by
    unfold Instruction.codeDigits Hex.dropMark
    split
    next rest heq =>
      rw [heq]
      exact List.suffix_append ['0', 'x'] rest
    next rest heq =>
      rw [heq]
      exact List.suffix_append ['0', 'X'] rest
    next => exact List.suffix_rfl
  obtain ⟨before, after, _, _, hs⟩ := Text.exists_trim s.toList
  exact hmark.isInfix.trans ⟨before, after, hs.symm⟩

theorem ascii_of_nibble? {b : UInt8} (h : (Hex.nibble? b).isSome = true) : b.toNat < 0x80 := by
  unfold Hex.nibble? at h
  split_ifs at h with hlow
  · exact UInt8.lt_iff_toNat_lt.1 hlow
  · simp at h

theorem writtenIn_of_opened {operand : List UInt8}
    (hopened : opened? opcode operand = some w)
    (hinside : operand <:+: Text.encode (Instruction.codeDigits s)) : WrittenIn w.candidate s := by
  unfold opened? at hopened
  split_ifs at hopened with hfull
  obtain ⟨_, hlength, hall⟩ := hfull
  cases hopened
  rw [List.all_eq_true] at hall
  constructor
  · simpa using hlength
  · have hsmall : ∀ n < 16, Nat.digitChar n ∈ "0123456789abcdef".toList := by decide
    intro d hd
    rw [String.toList_ofList] at hd
    obtain ⟨b, hb, rfl⟩ := List.mem_map.1 hd
    obtain ⟨n, hn⟩ := Option.isSome_iff_exists.1 (hall b hb)
    obtain ⟨hlt, hlower⟩ := Hex.lower_of_nibble? hn
    rw [hlower]
    exact hsmall n hlt
  · refine ⟨operand.map fun b => Char.ofNat b.toNat, ?_, by simp⟩
    have hpart := Text.isInfix_map_ofNat (fun b hb => ascii_of_nibble? (hall b hb)) hinside
    exact hpart.trans (isInfix_codeDigits s)

theorem writtenIn_of_recover (h : c ∈ recover s size) : WrittenIn c s ∧ c ≠ mask := by
  obtain ⟨hmask, hfound⟩ := (mem_recover_iff_scan s size c).1 h
  refine ⟨?_, hmask⟩
  rcases exists_of_mem_scan hfound with ⟨w, hw, _⟩ | ⟨step, hstep, opcode, w, hopened, rfl⟩
  · cases hw
  · exact writtenIn_of_opened hopened (isInfix_operand hstep)

/-! ### A late jump -/

/-- A jump destination. -/
def destination : Step := ⟨some 0x5b, []⟩

/-- A conditional jump. -/
def jump : Step := ⟨some Opcode.jumpi, []⟩

theorem effect_destination : effect destination = .ages 2 := by decide

theorem effect_jump : effect jump = .closes := by decide

theorem scan_none_destinations (n : Nat) :
    scan size none (List.replicate n destination ++ [jump]) = [] := by
  induction n with
  | zero => simp [scan_cons, advance_eq_on, effect_jump, Effect.on, scan]
  | succ n ih =>
    simpa [List.replicate_succ, scan_cons, advance_eq_on, effect_destination, Effect.on] using ih

/-- A confirmed window outlasts as many destinations as it has room for. -/
theorem mem_scan_destinations (size : UInt64) (w : Window) (hconfidence : 1 < w.confidence)
    (n : Nat) :
    w.candidate ∈ scan size (some w) (List.replicate n destination ++ [jump]) ↔
      n = 0 ∨ w.age + 2 * n ≤ 2 * reach size := by
  induction n generalizing w with
  | zero => simp [scan_cons, advance_eq_on, effect_jump, Effect.on, Option.filter_some, hconfidence]
  | succ n ih =>
    rw [List.replicate_succ, List.cons_append, scan_cons, advance_eq_on, effect_destination]
    simp only [Effect.on, Option.map_some, expire_some, Option.toList_none, List.nil_append]
    have hage : (w.later 2).age = w.age + 2 := rfl
    by_cases halive : (w.later 2).age ≤ 2 * reach size
    · rw [if_pos halive]
      have hnext := ih (w.later 2) hconfidence
      rw [hage] at halive hnext
      exact hnext.trans (by omega)
    · rw [if_neg halive, scan_none_destinations]
      simp only [List.not_mem_nil, false_iff]
      omega

/-- The digits of a push, a comparison and a number of destinations before the jump. -/
def delayedDigits (n : Nat) : List Char :=
  '6' :: '3' :: 'a' :: 'a' :: 'b' :: 'b' :: 'c' :: 'c' :: 'd' :: 'd' :: '1' :: '4' ::
    ((List.replicate n ['5', 'b']).flatten ++ ['5', '7'])

theorem isBlank_of_mem_delayed (n : Nat) : ∀ d ∈ delayedDigits n, Text.isBlank d = false := by
  have hfive : Text.isBlank '5' = false := by decide
  have hb : Text.isBlank 'b' = false := by decide
  have hmiddle : ((List.replicate n ['5', 'b']).flatten.all fun d => !Text.isBlank d) = true := by
    simp [List.all_flatten, List.all_replicate, hfive, hb]
  have hall : ((delayedDigits n).all fun d => !Text.isBlank d) = true := by
    simp only [delayedDigits, List.all_cons, List.all_append, hmiddle]
    decide
  simpa using hall

theorem codeDigits_delayed (n : Nat) :
    Instruction.codeDigits (.ofList (delayedDigits n)) = delayedDigits n := by
  rw [Instruction.codeDigits, String.toList_ofList,
    Text.trim_eq_self (by simp [delayedDigits]) (isBlank_of_mem_delayed n)]
  rfl

theorem steps_pair {a b : UInt8} (h : (pair? a b).filter Opcode.isAssigned = some opcode)
    (rest : List UInt8) :
    steps (a :: b :: rest) = ⟨some opcode, rest.take (2 * Opcode.pushWidth opcode)⟩ ::
      steps (rest.drop (2 * Opcode.pushWidth opcode)) := by
  rw [steps, h]

theorem steps_destinations (n : Nat) :
    steps (Text.encode ((List.replicate n ['5', 'b']).flatten ++ ['5', '7'])) =
      List.replicate n destination ++ [jump] := by
  induction n with
  | zero => decide +kernel
  | succ n ih =>
    have hpair : (pair? 0x35 0x62).filter Opcode.isAssigned = some 0x5b := by decide
    rw [List.replicate_succ, List.flatten_cons, List.append_assoc, Text.encode_append]
    exact (steps_pair hpair _).trans (congrArg (destination :: ·) ih)

theorem steps_delayed (n : Nat) :
    steps (Text.encode (delayedDigits n)) =
      ⟨some Opcode.push4, [0x61, 0x61, 0x62, 0x62, 0x63, 0x63, 0x64, 0x64]⟩ ::
        ⟨some Opcode.eq, []⟩ :: (List.replicate n destination ++ [jump]) := by
  have hpush : (pair? 0x36 0x33).filter Opcode.isAssigned = some Opcode.push4 := by decide
  have heq : (pair? 0x31 0x34).filter Opcode.isAssigned = some Opcode.eq := by decide
  rw [← steps_destinations n]
  exact (steps_pair hpush _).trans (congrArg (_ :: ·) (steps_pair heq _))

/-- The push and the comparison leave a confirmed window, if one of that age is alive. -/
theorem scan_delayed (size : UInt64) (n : Nat) :
    scan size none (steps (Text.encode (delayedDigits n))) =
      scan size (expire size (some ⟨10, 2, "aabbccdd"⟩))
        (List.replicate n destination ++ [jump]) := by
  have hpush : effect ⟨some Opcode.push4, [0x61, 0x61, 0x62, 0x62, 0x63, 0x63, 0x64, 0x64]⟩ =
      .opens ⟨8, 1, "aabbccdd"⟩ := by decide +kernel
  have heq : effect ⟨some Opcode.eq, []⟩ = .confirms := by decide
  have hconfirmed : (Effect.confirms.on size (expire size (some ⟨8, 1, "aabbccdd"⟩))).1 =
      expire size (some ⟨10, 2, "aabbccdd"⟩) := by
    rw [expire_some, expire_some]
    by_cases hopen : 8 ≤ 2 * reach size
    · rw [if_pos hopen, ← expire_some]
      rfl
    · rw [if_neg hopen, if_neg (show ¬ 10 ≤ 2 * reach size by omega)]
      rfl
  rw [steps_delayed, scan_cons, scan_cons, advance_eq_on, advance_eq_on, hpush, heq, ← hconfirmed]
  rfl

/-- The jump after a number of destinations is reached by the windows that span them all. -/
theorem mem_recover_delayed (size : UInt64) (n : Nat) :
    "aabbccdd" ∈ recover (.ofList (delayedDigits n)) size ↔ 5 + n ≤ reach size := by
  rw [mem_recover_iff_scan, codeDigits_delayed, scan_delayed, expire_some]
  by_cases hroom : 10 ≤ 2 * reach size
  · rw [if_pos hroom]
    have hlate := mem_scan_destinations size ⟨10, 2, "aabbccdd"⟩ (by decide) n
    have hmask : "aabbccdd" ≠ mask := by decide
    refine (and_iff_right hmask).trans (hlate.trans ?_)
    dsimp only
    omega
  · rw [if_neg hroom, scan_none_destinations]
    simp only [List.not_mem_nil, and_false, false_iff]
    omega

/-- Two dispatched selectors in a text with a blank, a pair that is no byte and an odd digit. -/
def ragged : String := " 0x63AABBCCDD1457zz63aabbcc00145b5b571"

end CodeAtlas.Selector
