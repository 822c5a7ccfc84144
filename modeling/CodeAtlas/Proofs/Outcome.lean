import CodeAtlas.Error

/-! Computations that may fail: when they succeed, and with what. -/
namespace CodeAtlas

variable {ε α β γ : Type}

/-! ### Success -/

theorem isOk_bind {x : Except ε α} {f : α → Except ε β} {b : Bool} (h : ∀ a, (f a).isOk = b) :
    (x >>= f).isOk = (x.isOk && b) := by
  cases x with
  | error e => rfl
  | ok a => exact (h a).trans (Bool.true_and b).symm

theorem isOk_bind_of_isOk {x : Except ε α} {f : α → Except ε β} (h : ∀ a, (f a).isOk = true) :
    (x >>= f).isOk = x.isOk :=
  (isOk_bind h).trans (Bool.and_true _)

theorem isOk_mapM (f : α → Except ε β) (xs : List α) :
    (xs.mapM f).isOk = xs.all fun a => (f a).isOk := by
  induction xs with
  | nil => rfl
  | cons a xs ih =>
    have hrest (b : β) : (do let bs ← xs.mapM f; return b :: bs : Except ε (List β)).isOk =
        xs.all fun a => (f a).isOk :=
      (isOk_bind_of_isOk fun _ => rfl).trans ih
    rw [List.mapM_cons, isOk_bind hrest, List.all_cons]

theorem isOk_foldlM {f : β → α → Except ε β} {p : α → Bool} (h : ∀ b a, (f b a).isOk = p a)
    (xs : List α) (b : β) : (xs.foldlM f b).isOk = xs.all p := by
  induction xs generalizing b with
  | nil => rfl
  | cons a xs ih => rw [List.foldlM_cons, isOk_bind ih, h, List.all_cons]

theorem exists_ok_of_isOk {x : Except ε α} (h : x.isOk = true) : ∃ a, x = .ok a := by
  cases x with
  | error e => cases h
  | ok a => exact ⟨a, rfl⟩

/-! ### Results -/

theorem bind_eq_ok {x : Except ε α} {f : α → Except ε β} {b : β} :
    x >>= f = .ok b ↔ ∃ a, x = .ok a ∧ f a = .ok b := by
  cases x with
  | error e => simp [bind, Except.bind]
  | ok a => simp [bind, Except.bind]

theorem map_bind_eq {γ : Type} (x : Except ε α) (f : α → Except ε β) (g : β → γ) :
    (x >>= f).map g = x >>= fun a => (f a).map g := by
  cases x with
  | error e => rfl
  | ok a => rfl

theorem exists_of_any_ok {x : Except ε α} {p : α → Prop} [DecidablePred p]
    (h : (x.toOption.any fun a => p a) = true) : ∃ a, x = .ok a ∧ p a := by
  cases x with
  | error e => simp [Except.toOption] at h
  | ok a => exact ⟨a, rfl, of_decide_eq_true h⟩

/-- Every result comes from a source. -/
theorem exists_of_mem_mapM {f : α → Except ε β} {xs : List α} {ys : List β}
    (h : xs.mapM f = .ok ys) {b : β} (hb : b ∈ ys) : ∃ a ∈ xs, f a = .ok b := by
  induction xs generalizing ys with
  | nil =>
    cases h
    cases hb
  | cons x xs ih =>
    rw [List.mapM_cons] at h
    obtain ⟨y, hy, h⟩ := bind_eq_ok.1 h
    obtain ⟨rest, hrest, h⟩ := bind_eq_ok.1 h
    cases h
    rcases List.mem_cons.1 hb with rfl | hb
    · exact ⟨x, by simp, hy⟩
    · obtain ⟨a, ha, hab⟩ := ih hrest hb
      exact ⟨a, by simp [ha], hab⟩

/-- What can be told of each result from its source alone. -/
theorem map_of_mapM {f : α → Except ε β} {g : β → γ} {title : α → Option γ}
    (h : ∀ a b, f a = .ok b → title a = some (g b)) {xs : List α} {ys : List β}
    (hys : xs.mapM f = .ok ys) : ys.map g = xs.filterMap title := by
  induction xs generalizing ys with
  | nil =>
    cases hys
    rfl
  | cons x xs ih =>
    rw [List.mapM_cons] at hys
    obtain ⟨y, hy, hys⟩ := bind_eq_ok.1 hys
    obtain ⟨rest, hrest, hys⟩ := bind_eq_ok.1 hys
    cases hys
    rw [List.map_cons, ih hrest, List.filterMap_cons_some (h x y hy)]

theorem orError_eq_ok {e : Error} {x : Option α} {a : α} : orError e x = .ok a ↔ x = some a := by
  cases x with
  | none => simp [orError]
  | some a => simp [orError]

theorem orError_eq_error {e : Error} {x : Option α} : orError e x = .error e ↔ x = none := by
  cases x with
  | none => simp [orError]
  | some a => simp [orError]

end CodeAtlas
