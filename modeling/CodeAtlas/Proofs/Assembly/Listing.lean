import CodeAtlas.Assembly.Preamble
import CodeAtlas.Proofs.Assembly.Layout
import Mathlib.Data.List.Infix

/-! Listings of two codes in one. The deployed code is found at the seam, and the deployment code is
laid out as if nothing followed it. -/
namespace CodeAtlas.Assembly

variable {index i : Nat} {c d next : Cursor} {item : Item} {items code : List Item}
  {token : Option String} {tokens more pattern : List String} {placed : List Placed} {t : PcTable}

/-! ### Tokens after the end -/

/-- Two cursors at one place, the second of which may have more tokens to come. -/
structure Cursor.Extended (c d : Cursor) : Prop where
  offset : d.offset = c.offset
  position : d.position = c.position
  ordinal : d.ordinal = c.ordinal
  tokens : c.tokens <+: d.tokens

theorem Cursor.Extended.pass (h : Extended c d) (size tokens : Nat) :
    Extended (c.pass size tokens) (d.pass size tokens) where
  offset := by simp [Cursor.pass, h.offset]
  position := by simp [Cursor.pass, h.position]
  ordinal := by simp [Cursor.pass, h.ordinal]
  tokens := h.tokens.drop tokens

theorem Cursor.Extended.head (h : Extended c d) {word : String}
    (hword : c.tokens.head? = some word) : d.tokens.head? = some word := by
  obtain ⟨more, hmore⟩ := h.tokens
  rw [← hmore, List.head?_append, hword]
  rfl

/-- An item that is passed is passed in the same way when more tokens follow. -/
theorem Cursor.Extended.place (h : Extended c d) (hplace : c.place index item = .ok (token, next)) :
    ∃ next', d.place index item = .ok (token, next') ∧ Extended next next' := by
  obtain ⟨hdeploy, hhead, rfl, rfl⟩ | ⟨hdeploy, hpseudo, rfl, rfl⟩ |
    ⟨hdeploy, hitem, word, rest, hword, rfl, hnext⟩ := place_cases hplace
  · exact ⟨d.pass 21 2, by simp [Cursor.place, hdeploy, h.head hhead], h.pass 21 2⟩
  · exact ⟨d, by simp [Cursor.place, hdeploy, hpseudo], h⟩
  · have hhead : d.tokens.head? = some word := h.head (by simp [hword])
    obtain ⟨rest', hword'⟩ : ∃ rest', d.tokens = word :: rest' := by
      cases hd : d.tokens with
      | nil => simp [hd] at hhead
      | cons word' rest' =>
        rw [hd, List.head?_cons, Option.some.injEq] at hhead
        exact ⟨rest', by rw [hhead]⟩
    obtain ⟨hpush, width, hwidth, rfl⟩ | ⟨hpush, rfl⟩ := hnext
    · exact ⟨_, by simp [Cursor.place, hdeploy, hitem, hword', hpush, hwidth], h.pass _ _⟩
    · exact ⟨_, by simp [Cursor.place, hdeploy, hitem, hword', hpush], h.pass 1 1⟩

theorem layoutFrom_extended (h : c.Extended d) (hlayout : layoutFrom index c items = .ok placed) :
    layoutFrom index d items = .ok placed := by
  induction items generalizing index c d placed with
  | nil => exact hlayout
  | cons item items ih =>
    obtain ⟨token, next, rest, hplace, hrest, rfl⟩ := layoutFrom_cons_eq_ok.1 hlayout
    obtain ⟨next', hplace', hnext⟩ := h.place hplace
    refine layoutFrom_cons_eq_ok.2 ⟨token, next', rest, hplace', ih hnext hrest, ?_⟩
    rw [h.offset, h.ordinal]

/-- A table stays the same when tokens are added at the end of the listing. -/
theorem PcTable.build_append (h : PcTable.build code tokens = .ok t) (more : List String) :
    PcTable.build code (tokens ++ more) = .ok t := by
  obtain ⟨placed, hplaced, rfl⟩ := build_eq_ok.1 h
  refine build_eq_ok.2 ⟨placed, layoutFrom_extended ?_ hplaced, rfl⟩
  exact ⟨rfl, rfl, rfl, List.prefix_append tokens more⟩

/-! ### The first occurrence of a pattern -/

/-- A pattern stands at a position of a listing. -/
def OccursAt (pattern tokens : List String) (i : Nat) : Prop := pattern <+: tokens.drop i

instance (pattern tokens : List String) (i : Nat) : Decidable (OccursAt pattern tokens i) :=
  inferInstanceAs (Decidable (pattern <+: tokens.drop i))

theorem occursAt_tail : OccursAt pattern tokens.tail i ↔ OccursAt pattern tokens (i + 1) := by
  rw [OccursAt, OccursAt, List.drop_tail]

theorem firstAt?_eq_some (h : OccursAt pattern tokens i) (hne : pattern ≠ [])
    (hfirst : ∀ j < i, ¬ OccursAt pattern tokens j) : firstAt? pattern tokens = some i := by
  induction tokens generalizing i with
  | nil => simp [OccursAt, hne] at h
  | cons token tokens ih =>
    rw [firstAt?]
    cases i with
    | zero =>
      have hhead : pattern <+: token :: tokens := h
      rw [if_pos (List.isPrefixOf_iff_prefix.2 hhead)]
    | succ i =>
      have hhead : ¬ pattern <+: token :: tokens := hfirst 0 (by omega)
      rw [if_neg (by rwa [List.isPrefixOf_iff_prefix]),
        ih h fun j hj => hfirst (j + 1) (by omega)]
      rfl

theorem firstAt?_eq_none (h : ∀ i, ¬ OccursAt pattern tokens i) :
    firstAt? pattern tokens = none := by
  induction tokens with
  | nil => rfl
  | cons token tokens ih =>
    have hhead : ¬ pattern <+: token :: tokens := h 0
    rw [firstAt?, if_neg (by rwa [List.isPrefixOf_iff_prefix]), ih fun i => h (i + 1)]
    rfl

theorem laterAt?_eq_some (hi : 1 ≤ i) (h : OccursAt pattern tokens i) (hne : pattern ≠ [])
    (hfirst : ∀ j, 1 ≤ j → j < i → ¬ OccursAt pattern tokens j) :
    laterAt? pattern tokens = some i := by
  obtain ⟨i, rfl⟩ := Nat.exists_eq_add_of_le' hi
  rw [laterAt?, firstAt?_eq_some (occursAt_tail.2 h) hne]
  · rfl
  · intro j hj
    rw [occursAt_tail]
    exact hfirst (j + 1) (by omega) (by omega)

theorem laterAt?_eq_none (h : ∀ j, 1 ≤ j → ¬ OccursAt pattern tokens j) :
    laterAt? pattern tokens = none := by
  rw [laterAt?, firstAt?_eq_none]
  · rfl
  · intro j
    rw [occursAt_tail]
    exact h (j + 1) (by omega)

/-! ### The seam -/

/-- How code begins since memory starts higher. -/
def newPreamble : List String := ["PUSH1", "0x80", "PUSH1", "0x40", "MSTORE"]

/-- How code began before that. -/
def oldPreamble : List String := ["PUSH1", "0x60", "PUSH1", "0x40", "MSTORE"]

/-- The check that guards the code of a library at an address. -/
def guardOf (address : String) : List String := ["PUSH20", address, "ADDRESS", "EQ"]

/-- A listing of deployment code and one of deployed code that begins with a preamble, maybe after a
guard. Between the start of the first and that preamble nothing looks like the start of code. -/
structure Seam (deployment deployed guard preamble : List String) : Prop where
  nonempty : deployment ≠ []
  known : preamble = newPreamble ∨ preamble = oldPreamble
  guarded : guard = [] ∨ ∃ address, guard = guardOf address
  starts : guard ++ preamble <+: deployed
  first : ∀ i, 1 ≤ i → i < deployment.length + guard.length →
    ¬ OccursAt preamble (deployment ++ deployed) i
  newer_absent : preamble = oldPreamble →
    ∀ i, 1 ≤ i → ¬ OccursAt newPreamble (deployment ++ deployed) i
  unguarded : guard = [] → ∀ before address, deployment ≠ before ++ guardOf address

theorem endsWithGuard_iff :
    endsWithGuard tokens = true ↔ ∃ before address, tokens = before ++ guardOf address := by
  constructor
  · intro h
    unfold endsWithGuard at h
    split at h
    next address before hreverse =>
      refine ⟨before.reverse, address, ?_⟩
      rw [← List.reverse_reverse tokens, hreverse]
      simp [guardOf]
    next => cases h
  · rintro ⟨before, address, rfl⟩
    simp [endsWithGuard, guardOf]

variable {deployment deployed guard preamble : List String}

theorem Seam.occursAt (h : Seam deployment deployed guard preamble) :
    OccursAt preamble (deployment ++ deployed) (deployment.length + guard.length) := by
  obtain ⟨rest, hrest⟩ := h.starts
  rw [OccursAt, ← hrest, List.append_assoc, ← List.append_assoc, ← List.length_append,
    List.drop_left]
  exact List.prefix_append preamble rest

theorem Seam.findSome? (h : Seam deployment deployed guard preamble) :
    preambles.findSome? (laterAt? · (deployment ++ deployed)) =
      some (deployment.length + guard.length) := by
  have hlater : laterAt? preamble (deployment ++ deployed) =
      some (deployment.length + guard.length) := by
    refine laterAt?_eq_some ?_ h.occursAt ?_ h.first
    · have := List.length_pos_iff.2 h.nonempty
      omega
    · obtain rfl | rfl := h.known <;> simp [newPreamble, oldPreamble]
  show [newPreamble, oldPreamble].findSome? (laterAt? · (deployment ++ deployed)) = _
  obtain rfl | rfl := h.known
  · rw [List.findSome?_cons, hlater]
  · rw [List.findSome?_cons, laterAt?_eq_none (h.newer_absent rfl), List.findSome?_cons, hlater]

/-- The deployed code is found at the seam, with its guard. -/
theorem Seam.deployedTokens (h : Seam deployment deployed guard preamble) :
    deployedTokens (deployment ++ deployed) = .ok deployed := by
  rw [Assembly.deployedTokens, h.findSome?]
  obtain ⟨rest, hrest⟩ := h.starts
  have htake : (deployment ++ deployed).take (deployment.length + guard.length) =
      deployment ++ guard := by
    rw [← hrest, List.append_assoc, ← List.append_assoc, ← List.length_append, List.take_left]
  simp only [htake]
  obtain rfl | ⟨address, rfl⟩ := h.guarded
  · have hopen : ¬ endsWithGuard (deployment ++ []) = true := by
      rw [List.append_nil, endsWithGuard_iff]
      rintro ⟨before, address, hdeployment⟩
      exact h.unguarded rfl before address hdeployment
    rw [if_neg hopen]
    simp
  · rw [if_pos (endsWithGuard_iff.2 ⟨deployment, address, rfl⟩)]
    simp [guardOf]

end CodeAtlas.Assembly
