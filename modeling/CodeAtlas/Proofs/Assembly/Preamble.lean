import CodeAtlas.Proofs.Assembly.Listing
import Mathlib.Order.Nat

/-! Where deployed code starts in any listing. The newer preamble counts wherever it stands after the
start, and the older one only if the newer is nowhere to be found. -/
namespace CodeAtlas.Assembly

variable {p : Nat} {tokens pattern : List String}

/-- A pattern stands at a position after the very start, and at none between the two. -/
structure FirstLater (pattern tokens : List String) (p : Nat) : Prop where
  later : 1 ≤ p
  occurs : OccursAt pattern tokens p
  first : ∀ q, 1 ≤ q → q < p → ¬ OccursAt pattern tokens q

/-- The preamble of the deployed code stands at a position. -/
def PreambleAt (tokens : List String) (p : Nat) : Prop :=
  FirstLater newPreamble tokens p ∨
    (∀ q, 1 ≤ q → ¬ OccursAt newPreamble tokens q) ∧ FirstLater oldPreamble tokens p

/-- Code with its preamble at `p` starts at `s`: with the guard that takes the four tokens before the
preamble, or with the preamble if there is no guard. -/
def StartsAt (tokens : List String) (p s : Nat) : Prop :=
  (p = s + 4 ∧ ∃ address, OccursAt (guardOf address) tokens s) ∨
    (s = p ∧ ∀ r address, p = r + 4 → ¬ OccursAt (guardOf address) tokens r)

/-! ### Searching -/

theorem laterAt?_eq_some_of_firstLater (hne : pattern ≠ []) (h : FirstLater pattern tokens p) :
    laterAt? pattern tokens = some p :=
  laterAt?_eq_some h.later h.occurs hne h.first

/-- A pattern that stands anywhere after the start stands somewhere first. -/
theorem exists_firstLater (h : ∃ q, 1 ≤ q ∧ OccursAt pattern tokens q) :
    ∃ p, FirstLater pattern tokens p := by
  classical
  refine ⟨Nat.find h, (Nat.find_spec h).1, (Nat.find_spec h).2, fun q hq hlt hoccurs => ?_⟩
  exact Nat.find_min h hlt ⟨hq, hoccurs⟩

theorem laterAt?_eq_none_iff (hne : pattern ≠ []) :
    laterAt? pattern tokens = none ↔ ∀ q, 1 ≤ q → ¬ OccursAt pattern tokens q := by
  refine ⟨fun hnone q hq hoccurs => ?_, laterAt?_eq_none⟩
  obtain ⟨p, hp⟩ := exists_firstLater ⟨q, hq, hoccurs⟩
  rw [laterAt?_eq_some_of_firstLater hne hp] at hnone
  cases hnone

theorem laterAt?_eq_some_iff (hne : pattern ≠ []) :
    laterAt? pattern tokens = some p ↔ FirstLater pattern tokens p := by
  refine ⟨fun hsome => ?_, laterAt?_eq_some_of_firstLater hne⟩
  by_cases h : ∃ q, 1 ≤ q ∧ OccursAt pattern tokens q
  · obtain ⟨q, hq⟩ := exists_firstLater h
    rw [laterAt?_eq_some_of_firstLater hne hq] at hsome
    cases hsome
    exact hq
  · have hnone := laterAt?_eq_none fun q hq hoccurs => h ⟨q, hq, hoccurs⟩
    rw [hnone] at hsome
    cases hsome

theorem newPreamble_ne_nil : newPreamble ≠ [] := by simp [newPreamble]

theorem oldPreamble_ne_nil : oldPreamble ≠ [] := by simp [oldPreamble]

theorem findSome?_preambles (tokens : List String) :
    preambles.findSome? (laterAt? · tokens) =
      (laterAt? newPreamble tokens).or (laterAt? oldPreamble tokens) := by
  show [newPreamble, oldPreamble].findSome? (laterAt? · tokens) = _
  rw [List.findSome?_cons, List.findSome?_singleton]
  cases laterAt? newPreamble tokens <;> rfl

theorem findSome?_preambles_eq_none_iff :
    preambles.findSome? (laterAt? · tokens) = none ↔
      ∀ q, 1 ≤ q → ¬ OccursAt newPreamble tokens q ∧ ¬ OccursAt oldPreamble tokens q := by
  rw [findSome?_preambles, Option.or_eq_none_iff, laterAt?_eq_none_iff newPreamble_ne_nil,
    laterAt?_eq_none_iff oldPreamble_ne_nil]
  exact ⟨fun h q hq => ⟨h.1 q hq, h.2 q hq⟩,
    fun h => ⟨fun q hq => (h q hq).1, fun q hq => (h q hq).2⟩⟩

theorem findSome?_preambles_eq_some_iff :
    preambles.findSome? (laterAt? · tokens) = some p ↔ PreambleAt tokens p := by
  rw [findSome?_preambles, Option.or_eq_some_iff, laterAt?_eq_some_iff newPreamble_ne_nil,
    laterAt?_eq_none_iff newPreamble_ne_nil, laterAt?_eq_some_iff oldPreamble_ne_nil]
  rfl

/-! ### The guard -/

theorem OccursAt.lt_length (hne : pattern ≠ []) (h : OccursAt pattern tokens p) :
    p < tokens.length := by
  have hpositive := List.length_pos_iff.2 hne
  have hle := h.length_le
  rw [List.length_drop] at hle
  omega

theorem PreambleAt.lt_length (h : PreambleAt tokens p) : p < tokens.length := by
  obtain hnew | ⟨_, hold⟩ := h
  · exact hnew.occurs.lt_length newPreamble_ne_nil
  · exact hold.occurs.lt_length oldPreamble_ne_nil

/-- The tokens before a position end with a guard just when one stands four tokens before it. -/
theorem endsWithGuard_take_iff (hp : p ≤ tokens.length) :
    endsWithGuard (tokens.take p) = true ↔
      ∃ s address, p = s + 4 ∧ OccursAt (guardOf address) tokens s := by
  rw [endsWithGuard_iff]
  constructor
  · rintro ⟨before, address, htake⟩
    have hlength : p = before.length + 4 := by
      have := congrArg List.length htake
      simpa [guardOf, hp] using this
    refine ⟨before.length, address, hlength, tokens.drop p, ?_⟩
    have hsplit : tokens = before ++ (guardOf address ++ tokens.drop p) := by
      rw [← List.append_assoc, ← htake, List.take_append_drop]
    conv => rhs; rw [hsplit]
    rw [List.drop_left]
  · rintro ⟨s, address, rfl, rest, hrest⟩
    refine ⟨tokens.take s, address, ?_⟩
    rw [List.take_add, ← hrest]
    rfl

/-- What is cut off before the preamble leaves the code from its start on. -/
theorem drop_eq_iff_startsAt (hp : p ≤ tokens.length) {rest : List String} :
    tokens.drop (if endsWithGuard (tokens.take p) then p - 4 else p) = rest ↔
      ∃ s, StartsAt tokens p s ∧ rest = tokens.drop s := by
  by_cases hguard : endsWithGuard (tokens.take p) = true
  · obtain ⟨s, address, rfl, hoccurs⟩ := (endsWithGuard_take_iff hp).1 hguard
    rw [if_pos hguard, Nat.add_sub_cancel]
    constructor
    · rintro rfl
      exact ⟨s, .inl ⟨rfl, address, hoccurs⟩, rfl⟩
    · rintro ⟨s', ⟨heq, _⟩ | ⟨_, hnone⟩, rfl⟩
      · rw [Nat.add_right_cancel heq]
      · exact absurd hoccurs (hnone s address rfl)
  · have hnone : ∀ r address, p = r + 4 → ¬ OccursAt (guardOf address) tokens r := by
      intro r address hr hoccurs
      exact hguard ((endsWithGuard_take_iff hp).2 ⟨r, address, hr, hoccurs⟩)
    rw [if_neg hguard]
    constructor
    · rintro rfl
      exact ⟨p, .inr ⟨rfl, hnone⟩, rfl⟩
    · rintro ⟨s, ⟨heq, address, hoccurs⟩ | ⟨rfl, _⟩, rfl⟩
      · exact absurd hoccurs (hnone s address heq)
      · rfl

/-- The deployed code of a listing is missing just when no preamble stands after the start, and then
the length of the listing is reported. Else it starts at the preamble or at the guard before it. -/
theorem deployedTokens_exact (tokens : List String) :
    (deployedTokens tokens = .error (.noPreamble tokens.length) ↔
      ∀ p, 1 ≤ p → ¬ OccursAt newPreamble tokens p ∧ ¬ OccursAt oldPreamble tokens p) ∧
    (∀ e, deployedTokens tokens = .error e → e = .noPreamble tokens.length) ∧
    ∀ rest, deployedTokens tokens = .ok rest ↔
      ∃ p s, PreambleAt tokens p ∧ StartsAt tokens p s ∧ rest = tokens.drop s := by
  rw [← findSome?_preambles_eq_none_iff]
  simp only [← findSome?_preambles_eq_some_iff]
  unfold deployedTokens
  cases hfound : preambles.findSome? (laterAt? · tokens) with
  | none => simp
  | some p =>
    have hp := (findSome?_preambles_eq_some_iff.1 hfound).lt_length.le
    simp [drop_eq_iff_startsAt hp]

/-- The older preamble stands first here, but the newer one counts, with the guard before it. -/
example : (deployedTokens (["STOP"] ++ oldPreamble ++ guardOf "0x00" ++ newPreamble)).toOption =
    some (guardOf "0x00" ++ newPreamble) := by
  decide

end CodeAtlas.Assembly
