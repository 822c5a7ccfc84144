import CodeAtlas.Assembly.PcTable

/-! How the walk along a listing places the items of a code, whatever the listing holds. -/
namespace CodeAtlas.Assembly

variable {index : Nat} {c next : Cursor} {item : Item} {items code : List Item}
  {token : Option String} {tokens : List String} {placed : List Placed}

@[simp] theorem Cursor.pass_offset (c : Cursor) (size tokens : Nat) :
    (c.pass size tokens).offset = c.offset + size := rfl

@[simp] theorem Cursor.pass_ordinal (c : Cursor) (size tokens : Nat) :
    (c.pass size tokens).ordinal = c.ordinal + 1 := rfl

/-- All that passing an item can do. -/
theorem Cursor.place_cases (h : c.place index item = .ok (token, next)) :
    (item.opcode = deployAddress ∧ c.tokens.head? = some "PUSH20" ∧ token = none ∧
      next = c.pass 21 2) ∨
    (item.opcode ≠ deployAddress ∧ item.isInstruction = false ∧ token = none ∧ next = c) ∨
    (item.opcode ≠ deployAddress ∧ item.isInstruction = true ∧
      ∃ word rest, c.tokens = word :: rest ∧ token = some word ∧
        ((item.isPush = true ∧ ∃ width, Opcode.widthOfName? word = some width ∧
            next = c.pass (1 + width) (if 0 < width then 2 else 1)) ∨
          (item.isPush = false ∧ next = c.pass 1 1))) := by
  unfold Cursor.place at h
  split at h
  next hdeploy =>
    split at h
    · simp_all
    · cases h
  next hdeploy =>
    split at h
    · simp_all
    · split at h
      · cases h
      next word rest htokens =>
        split at h
        · split at h
          · cases h
          · simp_all
        · simp_all

theorem isInstruction_of_deployAddress (h : item.opcode = deployAddress) :
    item.isInstruction = true := by
  rw [Item.isInstruction, h]
  decide

/-- A pseudo-instruction is passed without a trace. -/
theorem Cursor.place_pseudo (h : item.isInstruction = false) :
    c.place index item = .ok (none, c) := by
  have hne : item.opcode ≠ deployAddress := by
    intro he
    simp [isInstruction_of_deployAddress he] at h
  simp [place, hne, h]

/-- Passing an item never goes back, and passing one with a token goes ahead. -/
theorem Cursor.place_advances (h : c.place index item = .ok (token, next)) :
    (c.offset ≤ next.offset ∧ c.ordinal ≤ next.ordinal) ∧
      (token.isSome = true → c.offset < next.offset ∧ c.ordinal < next.ordinal) := by
  obtain ⟨_, _, rfl, rfl⟩ | ⟨_, _, rfl, rfl⟩ | ⟨_, _, word, rest, _, rfl, hnext⟩ := place_cases h
  · simp
  · simp
  · obtain ⟨_, width, _, rfl⟩ | ⟨_, rfl⟩ := hnext
    · simp only [pass_offset, pass_ordinal]
      omega
    · simp

theorem layoutFrom_cons_eq_ok :
    layoutFrom index c (item :: items) = .ok placed ↔
      ∃ token next rest, c.place index item = .ok (token, next) ∧
        layoutFrom (index + 1) next items = .ok rest ∧
        placed = ⟨index, item, c.offset, c.ordinal, token⟩ :: rest := by
  rw [layoutFrom]
  cases hplace : c.place index item with
  | error e => simp [bind, Except.bind]
  | ok out =>
    obtain ⟨token, next⟩ := out
    cases hrest : layoutFrom (index + 1) next items with
    | error e => simp [bind, Except.bind, hrest]
    | ok rest =>
      simp only [bind, Except.bind, hrest, pure, Except.pure, Except.ok.injEq, Prod.mk.injEq]
      constructor
      · rintro rfl
        exact ⟨token, next, rest, ⟨rfl, rfl⟩, hrest, rfl⟩
      · rintro ⟨_, _, rest', ⟨rfl, rfl⟩, hrest', rfl⟩
        cases hrest.symm.trans hrest'
        rfl

/-- A record comes before another one in all that is counted. -/
def Precedes (a b : Nat × PcRecord) : Prop :=
  a.1 < b.1 ∧ a.2.index < b.2.index ∧ a.2.ordinal < b.2.ordinal

/-- Each record comes before those that follow it, and none lies before the start. -/
theorem layoutFrom_ascend (h : layoutFrom index c items = .ok placed) :
    (placed.filterMap Placed.record?).Pairwise Precedes ∧
      ∀ e ∈ placed.filterMap Placed.record?,
        c.offset ≤ e.1 ∧ index ≤ e.2.index ∧ c.ordinal ≤ e.2.ordinal := by
  induction items generalizing index c placed with
  | nil =>
    cases h
    simp
  | cons item items ih =>
    obtain ⟨token, next, rest, hplace, hrest, rfl⟩ := layoutFrom_cons_eq_ok.1 h
    obtain ⟨hsorted, hlow⟩ := ih hrest
    obtain ⟨⟨hoffset, hordinal⟩, hahead⟩ := Cursor.place_advances hplace
    have hlater : ∀ e ∈ rest.filterMap Placed.record?,
        c.offset ≤ e.1 ∧ index ≤ e.2.index ∧ c.ordinal ≤ e.2.ordinal := by
      intro e he
      have := hlow e he
      omega
    cases token with
    | none => exact ⟨hsorted, hlater⟩
    | some word =>
      simp only [List.filterMap_cons, Placed.record?, Option.map_some]
      refine ⟨.cons (fun e he => ?_) hsorted, List.forall_mem_cons.2 ⟨by simp, hlater⟩⟩
      have := hlow e he
      have := hahead rfl
      simp only [Precedes]
      omega

theorem PcTable.build_eq_ok {t : PcTable} :
    PcTable.build code tokens = .ok t ↔
      ∃ placed, layout code tokens = .ok placed ∧ t = PcTable.ofPlaced code placed := by
  unfold PcTable.build
  cases layout code tokens <;> simp [Except.map, eq_comm]

theorem PcTable.records_ascend {t : PcTable} (h : PcTable.build code tokens = .ok t) :
    t.records.Pairwise Precedes := by
  obtain ⟨placed, hplaced, rfl⟩ := build_eq_ok.1 h
  exact (layoutFrom_ascend hplaced).1

/-- In every table the program counters ascend, so each of them has one record. -/
theorem PcTable.pcs_ascend {t : PcTable} (h : PcTable.build code tokens = .ok t) :
    t.pcs.Pairwise (· < ·) :=
  List.pairwise_map.2 ((records_ascend h).imp fun hprecedes => hprecedes.1)

end CodeAtlas.Assembly
