import Mathlib.Data.List.Forall2

/-!
# Going through a list with steps that may fail

Reading and expansion take the members of a list in order, each by a step that may fail, and
stop at the first failure. What such a traversal gives is said member by member:
`mapM_eq_ok_iff`. What it fails with is what the first member gives on which the step fails:
`mapM_eq_error_iff`. The rest of a computation goes on only behind a step that succeeded:
`bind_eq_ok_iff`.
-/

namespace LinkTemplate

variable {α β ε : Type}

/-! ## Sequences of steps -/

theorem bind_eq_ok_iff {x : Except ε α} {f : α → Except ε β} {b : β} :
    (x >>= f) = .ok b ↔ ∃ a, x = .ok a ∧ f a = .ok b := by
  cases x with
  | error e => simp [bind, Except.bind]
  | ok a => simp [bind, Except.bind]

theorem bind_eq_error_iff {x : Except ε α} {f : α → Except ε β} {e : ε} :
    (x >>= f) = .error e ↔ x = .error e ∨ ∃ a, x = .ok a ∧ f a = .error e := by
  cases x with
  | error e' => simp [bind, Except.bind]
  | ok a => simp [bind, Except.bind]

theorem bind_pure_eq_error_iff {x : Except ε α} {f : α → β} {e : ε} :
    (x >>= fun a => pure (f a)) = .error e ↔ x = .error e := by
  cases x with
  | error e' => simp [bind, Except.bind]
  | ok a => simp [bind, Except.bind, pure, Except.pure]

theorem exists_eq_ok_iff {x : Except ε α} : (∃ a, x = .ok a) ↔ ¬ ∃ e, x = .error e := by
  cases x with
  | error e => simp
  | ok a => simp

/-- Computations that fail alike succeed together. -/
theorem exists_eq_ok_congr {x : Except ε α} {y : Except ε β}
    (h : ∀ e, x = .error e ↔ y = .error e) : (∃ a, x = .ok a) ↔ ∃ b, y = .ok b := by
  rw [exists_eq_ok_iff, exists_eq_ok_iff, exists_congr h]

/-! ## Members of lists that correspond -/

theorem forall₂_append_left_iff {R : α → β → Prop} {xs more : List α} {ys : List β} :
    List.Forall₂ R (xs ++ more) ys ↔
      ∃ zs others, ys = zs ++ others ∧ List.Forall₂ R xs zs ∧ List.Forall₂ R more others := by
  constructor
  · intro h
    induction xs generalizing ys with
    | nil => exact ⟨[], ys, rfl, .nil, h⟩
    | cons x xs ih =>
      obtain ⟨y, rest, hxy, hrest, rfl⟩ := List.forall₂_cons_left_iff.1 h
      obtain ⟨zs, others, rfl, hzs, hothers⟩ := ih hrest
      exact ⟨y :: zs, others, rfl, .cons hxy hzs, hothers⟩
  · rintro ⟨zs, others, rfl, hzs, hothers⟩
    exact List.rel_append hzs hothers

theorem exists_mem_of_mem_left {R : α → β → Prop} {xs : List α} {ys : List β}
    (h : List.Forall₂ R xs ys) {x : α} (hx : x ∈ xs) : ∃ y ∈ ys, R x y := by
  induction h with
  | nil => exact absurd hx List.not_mem_nil
  | @cons a b as bs hab _ ih =>
    rcases List.mem_cons.1 hx with rfl | hx
    · exact ⟨b, List.mem_cons_self, hab⟩
    · obtain ⟨y, hy, hxy⟩ := ih hx
      exact ⟨y, List.mem_cons_of_mem b hy, hxy⟩

theorem exists_mem_of_mem_right {R : α → β → Prop} {xs : List α} {ys : List β}
    (h : List.Forall₂ R xs ys) {y : β} (hy : y ∈ ys) : ∃ x ∈ xs, R x y :=
  exists_mem_of_mem_left h.flip hy

/-! ## Traversals -/

/-- **A traversal succeeds when each step does**, and gives what the steps give. -/
theorem mapM_eq_ok_iff {f : α → Except ε β} {xs : List α} {ys : List β} :
    xs.mapM f = .ok ys ↔ List.Forall₂ (fun x y => f x = .ok y) xs ys := by
  induction xs generalizing ys with
  | nil =>
    rw [List.mapM_nil, List.forall₂_nil_left_iff]
    exact ⟨fun h => (Except.ok.inj h).symm, fun h => h ▸ rfl⟩
  | cons x xs ih =>
    rw [List.mapM_cons, List.forall₂_cons_left_iff, bind_eq_ok_iff]
    constructor
    · rintro ⟨y, hy, h⟩
      obtain ⟨rest, hrest, h⟩ := bind_eq_ok_iff.1 h
      exact ⟨y, rest, hy, ih.1 hrest, (Except.ok.inj h).symm⟩
    · rintro ⟨y, rest, hy, hrest, rfl⟩
      exact ⟨y, hy, bind_eq_ok_iff.2 ⟨rest, ih.2 hrest, rfl⟩⟩

theorem mapM_eq_ok_map {f : α → Except ε β} {g : α → β} {xs : List α}
    (h : ∀ x ∈ xs, f x = .ok (g x)) : xs.mapM f = .ok (xs.map g) := by
  rw [mapM_eq_ok_iff, List.forall₂_map_right_iff, List.forall₂_same]
  exact h

/-- **A traversal fails as the first of its steps that fails.** -/
theorem mapM_eq_error_iff {f : α → Except ε β} {xs : List α} {e : ε} :
    xs.mapM f = .error e ↔ ∃ before x after, xs = before ++ x :: after ∧
      (∀ y ∈ before, ∃ b, f y = .ok b) ∧ f x = .error e := by
  induction xs with
  | nil =>
    rw [List.mapM_nil]
    refine iff_of_false (fun h => nomatch h) ?_
    rintro ⟨before, x, after, h, -⟩
    simp at h
  | cons x xs ih =>
    rw [List.mapM_cons, bind_eq_error_iff]
    simp only [bind_pure_eq_error_iff]
    constructor
    · rintro (hx | ⟨y, hy, hxs⟩)
      · exact ⟨[], x, xs, rfl, by simp, hx⟩
      · obtain ⟨before, z, after, rfl, hbefore, hz⟩ := ih.1 hxs
        exact ⟨x :: before, z, after, rfl, List.forall_mem_cons.2 ⟨⟨y, hy⟩, hbefore⟩, hz⟩
    · rintro ⟨before, z, after, h, hbefore, hz⟩
      cases before with
      | nil =>
        obtain ⟨rfl, rfl⟩ := List.cons.inj h
        exact .inl hz
      | cons w before =>
        obtain ⟨rfl, rfl⟩ := List.cons.inj h
        obtain ⟨⟨y, hy⟩, hrest⟩ := List.forall_mem_cons.1 hbefore
        exact .inr ⟨y, hy, ih.2 ⟨before, z, after, rfl, hrest, hz⟩⟩

theorem exists_of_mapM_eq_error {f : α → Except ε β} {xs : List α} {e : ε}
    (h : xs.mapM f = .error e) : ∃ x ∈ xs, f x = .error e := by
  obtain ⟨before, x, after, rfl, -, hx⟩ := mapM_eq_error_iff.1 h
  exact ⟨x, List.mem_append_right before List.mem_cons_self, hx⟩

theorem mapM_eq_error_congr {γ : Type} {f : α → Except ε β} {g : α → Except ε γ}
    (h : ∀ x e, f x = .error e ↔ g x = .error e) {xs : List α} {e : ε} :
    xs.mapM f = .error e ↔ xs.mapM g = .error e := by
  simp only [mapM_eq_error_iff, h, fun x => exists_eq_ok_congr (h x)]

theorem mapM_congr {f g : α → Except ε β} {xs : List α} (h : ∀ x ∈ xs, f x = g x) :
    xs.mapM f = xs.mapM g := by
  induction xs with
  | nil => rfl
  | cons x xs ih =>
    obtain ⟨hx, hxs⟩ := List.forall_mem_cons.1 h
    rw [List.mapM_cons, List.mapM_cons, hx, ih hxs]

/-- Members on which the step succeeds have no say in how a traversal fails. -/
theorem mapM_filter_eq_error_iff {f : α → Except ε β} {p : α → Bool} {xs : List α} {e : ε}
    (h : ∀ x ∈ xs, p x = false → ∃ y, f x = .ok y) :
    (xs.filter p).mapM f = .error e ↔ xs.mapM f = .error e := by
  induction xs with
  | nil => rfl
  | cons x xs ih =>
    obtain ⟨hx, hxs⟩ := List.forall_mem_cons.1 h
    rw [List.mapM_cons, bind_eq_error_iff]
    simp only [bind_pure_eq_error_iff]
    cases hp : p x with
    | true =>
      rw [List.filter_cons_of_pos hp, List.mapM_cons, bind_eq_error_iff]
      simp only [bind_pure_eq_error_iff, ih hxs]
    | false =>
      obtain ⟨y, hy⟩ := hx hp
      rw [List.filter_cons_of_neg (by simp [hp]), ih hxs, hy]
      simp

/-- A traversal whose steps are themselves traversals is one traversal. -/
theorem mapM_eq_error_iff_flatMap {γ δ : Type} {f : α → Except ε β} {g : α → List γ}
    {h : γ → Except ε δ} (hstep : ∀ x e, f x = .error e ↔ (g x).mapM h = .error e)
    {xs : List α} {e : ε} : xs.mapM f = .error e ↔ (xs.flatMap g).mapM h = .error e := by
  induction xs with
  | nil => simp [pure, Except.pure]
  | cons x xs ih =>
    have hok := exists_eq_ok_congr (hstep x)
    rw [List.mapM_cons, List.flatMap_cons, List.mapM_append, bind_eq_error_iff, bind_eq_error_iff,
      hstep]
    simp only [bind_pure_eq_error_iff, ih]
    constructor
    · rintro (hx | ⟨y, hy, hxs⟩)
      · exact .inl hx
      · obtain ⟨ys, hys⟩ := hok.1 ⟨y, hy⟩
        exact .inr ⟨ys, hys, hxs⟩
    · rintro (hx | ⟨ys, hys, hxs⟩)
      · exact .inl hx
      · obtain ⟨y, hy⟩ := hok.2 ⟨ys, hys⟩
        exact .inr ⟨y, hy, hxs⟩

theorem exists_mapM_eq_ok_iff {f : α → Except ε β} {xs : List α} :
    (∃ ys, xs.mapM f = .ok ys) ↔ ∀ x ∈ xs, ∃ y, f x = .ok y := by
  constructor
  · intro h x hx
    obtain ⟨ys, hys⟩ := h
    obtain ⟨y, -, hy⟩ := exists_mem_of_mem_left (mapM_eq_ok_iff.1 hys) hx
    exact ⟨y, hy⟩
  · intro h
    cases hmap : xs.mapM f with
    | ok ys => exact ⟨ys, rfl⟩
    | error e =>
      obtain ⟨x, hx, hfx⟩ := exists_of_mapM_eq_error hmap
      obtain ⟨y, hy⟩ := h x hx
      rw [hfx] at hy
      cases hy

theorem exists_mapM_eq_error_iff {f : α → Except ε β} {xs : List α} :
    (∃ e, xs.mapM f = .error e) ↔ ∃ x ∈ xs, ∃ e, f x = .error e := by
  rw [← not_iff_not, ← exists_eq_ok_iff, exists_mapM_eq_ok_iff]
  push Not
  refine forall_congr' fun x => forall_congr' fun _ => ?_
  rw [exists_eq_ok_iff, not_exists]

end LinkTemplate
