import CodeAtlas.Json.Decode

/-! Decoders that keep what they read: a value that was decoded once is decoded again from what is
written for it, though a record may first have come as an array, with fields missing or `null`. -/
namespace CodeAtlas.Json

variable {α : Type} {f : Json → Option α} {g : α → Json} {key : String} {v : Json} {a : α}
  {o : Option α} {xs : List α} {n : Int} {fields : List (String × Json)}

/-- What a decoder gives, it gives again for what is written of it. -/
def Faithful (f : Json → Option α) (g : α → Json) : Prop := ∀ v a, f v = some a → f (g a) = some a

/-- A whole number that machines have as a signed one. -/
def IsSigned (n : Int) : Prop := -(Text.signedBound : Int) ≤ n ∧ n < Text.signedBound

instance (n : Int) : Decidable (IsSigned n) :=
  inferInstanceAs (Decidable (-(Text.signedBound : Int) ≤ n ∧ n < Text.signedBound))

theorem integer?_int (h : IsSigned n) : integer? (int n) = some n := if_pos h

theorem isSigned_of_integer? (h : integer? v = some n) : IsSigned n := by
  unfold integer? at h
  split at h
  · split at h
    next hrange =>
      cases h
      exact hrange
    · cases h
  · cases h

/-! ### Lists -/

theorem list?_ofList (h : ∀ a ∈ xs, f (g a) = some a) : list? f (ofList g xs) = some xs := by
  show (xs.map g).mapM f = some xs
  induction xs with
  | nil => rfl
  | cons a xs ih =>
    have ha := h a (by simp)
    have hxs := ih fun b hb => h b (by simp [hb])
    simp [ha, hxs]

theorem exists_of_mem_mapM {β : Type} {k : β → Option α} {ys : List β} (h : ys.mapM k = some xs)
    (ha : a ∈ xs) : ∃ y ∈ ys, k y = some a := by
  induction ys generalizing xs with
  | nil =>
    cases h
    cases ha
  | cons y ys ih =>
    simp only [List.mapM_cons, Option.bind_eq_bind, Option.bind_eq_some_iff] at h
    obtain ⟨b, hb, bs, hbs, hxs⟩ := h
    cases hxs
    rcases List.mem_cons.1 ha with rfl | ha
    · exact ⟨y, by simp, hb⟩
    · obtain ⟨z, hz, hza⟩ := ih hbs ha
      exact ⟨z, by simp [hz], hza⟩

theorem exists_of_mem_list? (h : list? f v = some xs) (ha : a ∈ xs) : ∃ w, f w = some a := by
  obtain ⟨items, _, hitems⟩ := Option.bind_eq_some_iff.1 h
  obtain ⟨w, _, hw⟩ := exists_of_mem_mapM hitems ha
  exact ⟨w, hw⟩

theorem Faithful.list (h : Faithful f g) : Faithful (list? f) (ofList g) := by
  intro v xs hxs
  apply list?_ofList
  intro a ha
  obtain ⟨w, hw⟩ := exists_of_mem_list? hxs ha
  exact h w a hw

/-! ### Fields that may be missing -/

theorem nullable?_of_ne_null (h : v ≠ null) : nullable? f v = (f v).map some := by
  cases v with
  | null => exact absurd rfl h
  | _ => rfl

theorem nullable?_ofOption (h : ∀ a, o = some a → g a ≠ null ∧ f (g a) = some a) :
    nullable? f (ofOption g o) = some o := by
  cases o with
  | none => rfl
  | some a =>
    obtain ⟨hnull, ha⟩ := h a rfl
    show nullable? f (g a) = some (some a)
    rw [nullable?_of_ne_null hnull, ha]
    rfl

/-- Every text can be written and read again. -/
theorem nullable?_text (text : Option String) :
    nullable? text? (ofOption str text) = some text :=
  nullable?_ofOption fun _ _ => ⟨nofun, rfl⟩

theorem nullable?_integer {o : Option Int} (h : ∀ n, o = some n → IsSigned n) :
    nullable? integer? (ofOption int o) = some o :=
  nullable?_ofOption fun n hn => ⟨nofun, integer?_int (h n hn)⟩

/-- A field has its default, or the value that it was read from. -/
theorem defaulting?_cases {default : α} (h : defaulting? key default f fields = some a) :
    a = default ∨ ∃ v, fields.lookup key = some v ∧ f v = some a := by
  unfold defaulting? at h
  split at h
  · cases h
    exact Or.inl rfl
  next v hv => exact Or.inr ⟨v, hv, h⟩

/-- A field that was there was read from something other than `null`. -/
theorem exists_of_optional? (h : optional? key f fields = some (some a)) :
    ∃ v, v ≠ null ∧ f v = some a := by
  rcases defaulting?_cases h with hnone | ⟨v, _, hv⟩
  · cases hnone
  · have hne : v ≠ null := by
      rintro rfl
      cases hv
    rw [nullable?_of_ne_null hne] at hv
    obtain ⟨b, hb, hba⟩ := Option.map_eq_some_iff.1 hv
    cases hba
    exact ⟨v, hne, hb⟩

theorem isSigned_of_optional? {o : Option Int} (ho : optional? key integer? fields = some o) (n : Int)
    (hn : o = some n) : IsSigned n := by
  subst hn
  obtain ⟨v, _, hv⟩ := exists_of_optional? ho
  exact isSigned_of_integer? hv

/-- An optional field is read back from its value, or from `null` where it was missing. -/
theorem Faithful.optional (h : Faithful f g) (hnull : ∀ a, g a ≠ null)
    (ho : optional? key f fields = some o) : nullable? f (ofOption g o) = some o := by
  apply nullable?_ofOption
  rintro a rfl
  obtain ⟨v, _, hv⟩ := exists_of_optional? ho
  exact ⟨hnull a, h v a hv⟩

/-- Any value is kept as it is. A `null` would not be, but that was read as nothing. -/
theorem nullable?_any_of_optional? {o : Option Json} (ho : optional? key any? fields = some o) :
    nullable? any? (ofOption id o) = some o := by
  apply nullable?_ofOption
  rintro a rfl
  obtain ⟨v, hv, hva⟩ := exists_of_optional? ho
  cases hva
  exact ⟨hv, rfl⟩

end CodeAtlas.Json
