import LinkTemplate.Datum.Coercion
import LinkTemplate.Proofs.Traverse

/-!
# Data that cannot be coerced

Coercion writes the scalars of a datum in order and stops at the first that it cannot write. There
are two reasons for that, and they are answered differently: something may be no scalar, and a whole
number may have too many digits.

**Rows** (`rows`). What is written before it is judged. A scalar is judged by itself, and so is an
item of a sequence. The two halves of an entry are both written first, so in an entry that has a
number of too many digits this number decides, whatever stands beside it.

**The first row** with something that cannot be written decides over the datum (`StopsAt`).

Main results: `coerce_eq_error_iff`, `exists_coerce_eq_ok_iff`.
-/

namespace LinkTemplate.Datum

/-! ## Scalars -/

/-- A datum that has a text, unless it is a number of too many digits. -/
def IsScalar : Datum → Prop
  | text _ | bool _ | int _ | float _ | decimal _ => True
  | _ => False

/-- A whole number of too many digits. -/
def IsOversized : Datum → Prop
  | int n => Decimal.withinDigits n = false
  | _ => False

theorem isOversized_int {n : Nat} (h : Nat.pow 10 Decimal.maxDigits ≤ n) :
    (int n).IsOversized := by
  change decide ((n : Int).natAbs < Nat.pow 10 Decimal.maxDigits) = false
  rw [Int.natAbs_natCast]
  exact decide_eq_false (Nat.not_lt.2 h)

/-- A datum that has a text. -/
def IsWritable (d : Datum) : Prop := d.IsScalar ∧ ¬ d.IsOversized

theorem intText_eq_ite (n : Int) : intText n =
    if Decimal.withinDigits n then .ok (Decimal.intText n) else .error .tooManyDigits := by
  -- The test is taken as it stands: unfolding it would compute the power that is the limit.
  delta intText Decimal.intText?
  generalize Decimal.withinDigits n = within
  cases within
  · exact Eq.refl _
  · exact Eq.refl _

theorem scalarText_int (n : Int) :
    (int n).scalarText =
      if Decimal.withinDigits n then .ok (some (Decimal.intText n)) else .error .tooManyDigits := by
  have hbind : (int n).scalarText = (intText n >>= fun t => .ok (some t)) := by
    rw [scalarText]
    rfl
  rw [hbind, intText_eq_ite]
  by_cases h : Decimal.withinDigits n = true
  · rw [if_pos h, if_pos h]
    exact Eq.refl _
  · rw [if_neg h, if_neg h]
    exact Eq.refl _

/-- What a datum may be, and what becomes of it when it is written. -/
theorem scalarText_cases (d : Datum) :
    (d.IsOversized ∧ d.scalarText = .error .tooManyDigits) ∨
      (d.IsWritable ∧ ∃ t, d.scalarText = .ok (some t)) ∨
      (¬ d.IsScalar ∧ ¬ d.IsOversized ∧ d.scalarText = .ok none) := by
  cases d with
  | int n =>
    rw [scalarText_int]
    by_cases hn : Decimal.withinDigits n = true
    · refine .inr (.inl ⟨⟨trivial, fun hbig => ?_⟩, Decimal.intText n, if_pos hn⟩)
      exact absurd hn (Bool.eq_false_iff.1 hbig)
    · exact .inl ⟨Bool.eq_false_iff.2 hn, if_neg hn⟩
  | text t => exact .inr (.inl ⟨⟨trivial, id⟩, _, rfl⟩)
  | bool b => exact .inr (.inl ⟨⟨trivial, id⟩, _, rfl⟩)
  | float x => exact .inr (.inl ⟨⟨trivial, id⟩, _, rfl⟩)
  | decimal x => exact .inr (.inl ⟨⟨trivial, id⟩, _, rfl⟩)
  | null | seq _ _ | map _ _ | value _ | foreign _ => exact .inr (.inr ⟨id, id, rfl⟩)

/-! ## Rows -/

/-- What becomes of a row that cannot be written as a whole. -/
inductive RowFails (refusal : Failure) (row : List Datum) : Failure → Prop
  | tooManyDigits : (∃ d ∈ row, d.IsOversized) → RowFails refusal row .tooManyDigits
  | refused : (∀ d ∈ row, ¬ d.IsOversized) → (∃ d ∈ row, ¬ d.IsScalar) →
      RowFails refusal row refusal

theorem rowFails_iff {refusal : Failure} {row : List Datum} {failure : Failure} :
    RowFails refusal row failure ↔ (failure = .tooManyDigits ∧ ∃ d ∈ row, d.IsOversized) ∨
      (failure = refusal ∧ (∀ d ∈ row, ¬ d.IsOversized) ∧ ∃ d ∈ row, ¬ d.IsScalar) := by
  constructor
  · intro h
    cases h with
    | tooManyDigits h => exact .inl ⟨rfl, h⟩
    | refused hsmall h => exact .inr ⟨rfl, hsmall, h⟩
  · rintro (⟨rfl, h⟩ | ⟨rfl, hsmall, h⟩)
    · exact .tooManyDigits h
    · exact .refused hsmall h

theorem exists_rowFails_iff {refusal : Failure} {row : List Datum} :
    (∃ failure, RowFails refusal row failure) ↔ ∃ d ∈ row, ¬ d.IsWritable := by
  constructor
  · rintro ⟨failure, h⟩
    cases h with
    | tooManyDigits h =>
      obtain ⟨d, hd, hbig⟩ := h
      exact ⟨d, hd, fun hwritable => hwritable.2 hbig⟩
    | refused _ h =>
      obtain ⟨d, hd, hscalar⟩ := h
      exact ⟨d, hd, fun hwritable => hscalar hwritable.1⟩
  · rintro ⟨d, hd, hwritable⟩
    by_cases hbig : ∃ d ∈ row, d.IsOversized
    · exact ⟨_, .tooManyDigits hbig⟩
    · have hsmall : ∀ d ∈ row, ¬ d.IsOversized := fun d hd hd' => hbig ⟨d, hd, hd'⟩
      exact ⟨_, .refused hsmall ⟨d, hd, fun hscalar => hwritable ⟨hscalar, hsmall d hd⟩⟩⟩

/-- The first row with something that cannot be written. -/
structure StopsAt (rows : List (List Datum)) (row : List Datum) : Prop where
  first : ∃ before after, rows = before ++ row :: after ∧ ∀ r ∈ before, ∀ d ∈ r, d.IsWritable
  unwritable : ∃ d ∈ row, ¬ d.IsWritable

theorem exists_stopsAt_iff {rows : List (List Datum)} :
    (∃ row, StopsAt rows row) ↔ ¬ ∀ row ∈ rows, ∀ d ∈ row, d.IsWritable := by
  constructor
  · rintro ⟨row, ⟨before, after, rfl, -⟩, d, hd, hwritable⟩ hall
    exact hwritable (hall row (List.mem_append_right before List.mem_cons_self) d hd)
  · intro h
    induction rows with
    | nil => exact absurd (by simp) h
    | cons first rows ih =>
      by_cases hfirst : ∀ d ∈ first, d.IsWritable
      · have hrest : ¬ ∀ row ∈ rows, ∀ d ∈ row, d.IsWritable :=
          fun hrest => h (List.forall_mem_cons.2 ⟨hfirst, hrest⟩)
        obtain ⟨row, ⟨before, after, rfl, hbefore⟩, hrow⟩ := ih hrest
        have hcons := List.forall_mem_cons.2 ⟨hfirst, hbefore⟩
        exact ⟨row, ⟨first :: before, after, rfl, hcons⟩, hrow⟩
      · push Not at hfirst
        exact ⟨first, ⟨[], rows, rfl, by simp⟩, hfirst⟩

section Steps

variable {α β : Type} {refusal : Failure} {step : α → Except Failure β} {row : α → List Datum}
  (hstep : ∀ x failure, step x = .error failure ↔ RowFails refusal (row x) failure)

include hstep

theorem exists_step_eq_ok_iff (x : α) :
    (∃ y, step x = .ok y) ↔ ∀ d ∈ row x, d.IsWritable := by
  rw [exists_eq_ok_iff, exists_congr (hstep x), exists_rowFails_iff]
  push Not
  rfl

theorem mapM_step_eq_error_iff {xs : List α} {failure : Failure} :
    xs.mapM step = .error failure ↔
      ∃ r, StopsAt (xs.map row) r ∧ RowFails refusal r failure := by
  rw [mapM_eq_error_iff]
  constructor
  · rintro ⟨before, x, after, rfl, hbefore, hx⟩
    have hfails := (hstep x failure).1 hx
    refine ⟨row x, ⟨⟨before.map row, after.map row, by simp, ?_⟩, ?_⟩, hfails⟩
    · intro r hr
      obtain ⟨y, hy, rfl⟩ := List.mem_map.1 hr
      exact (exists_step_eq_ok_iff hstep y).1 (hbefore y hy)
    · exact exists_rowFails_iff.1 ⟨failure, hfails⟩
  · rintro ⟨r, ⟨⟨before, after, hrows, hbefore⟩, -⟩, hfails⟩
    obtain ⟨xs₁, xs₂, rfl, rfl, hxs₂⟩ := List.map_eq_append_iff.1 hrows
    obtain ⟨x, xs₃, rfl, rfl, rfl⟩ := List.map_eq_cons_iff.1 hxs₂
    refine ⟨xs₁, x, xs₃, rfl, fun y hy => ?_, (hstep x failure).2 hfails⟩
    exact (exists_step_eq_ok_iff hstep y).2 (hbefore (row y) (List.mem_map_of_mem hy))

end Steps

/-! ## Containers -/

def itemText (refusal : Failure) (d : Datum) : Except Failure Text := do
  match ← d.scalarText with
  | none => .error refusal
  | some t => return t

def entryText (refusal : Failure) (entry : Datum × Datum) : Except Failure (Text × Text) := do
  let k ← entry.1.scalarText
  let v ← entry.2.scalarText
  match k, v with
  | some k, some v => return (k, v)
  | _, _ => .error refusal

theorem itemTexts_eq_mapM (refusal : Failure) (items : List Datum) :
    itemTexts refusal items = items.mapM (itemText refusal) := by
  induction items with
  | nil => rfl
  | cons item rest ih =>
    rw [List.mapM_cons, ← ih, itemTexts, itemText]
    rcases scalarText_cases item with ⟨-, h⟩ | ⟨-, t, h⟩ | ⟨-, -, h⟩ <;> rw [h] <;> rfl

theorem entryTexts_eq_mapM (refusal : Failure) (entries : List (Datum × Datum)) :
    entryTexts refusal entries = entries.mapM (entryText refusal) := by
  induction entries with
  | nil => rfl
  | cons entry rest ih =>
    obtain ⟨k, v⟩ := entry
    rw [List.mapM_cons, ← ih, entryTexts, entryText]
    rcases scalarText_cases k with ⟨-, hk⟩ | ⟨-, t, hk⟩ | ⟨-, -, hk⟩ <;>
      rcases scalarText_cases v with ⟨-, hv⟩ | ⟨-, u, hv⟩ | ⟨-, -, hv⟩ <;> rw [hk, hv] <;> rfl

theorem itemText_eq_error_iff {refusal : Failure} (d : Datum) (failure : Failure) :
    itemText refusal d = .error failure ↔ RowFails refusal [d] failure := by
  rw [rowFails_iff, itemText]
  rcases scalarText_cases d with ⟨hbig, h⟩ | ⟨⟨hscalar, hbig⟩, t, h⟩ | ⟨hscalar, hbig, h⟩
  · simp [h, hbig, bind, Except.bind, eq_comm]
  · simp [h, hbig, hscalar, bind, Except.bind, pure, Except.pure]
  · simp [h, hbig, hscalar, bind, Except.bind, eq_comm]

theorem entryText_eq_error_iff {refusal : Failure} (entry : Datum × Datum) (failure : Failure) :
    entryText refusal entry = .error failure ↔
      RowFails refusal [entry.1, entry.2] failure := by
  obtain ⟨k, v⟩ := entry
  rw [rowFails_iff, entryText]
  rcases scalarText_cases k with ⟨hbig, h⟩ | ⟨⟨hscalar, hbig⟩, t, h⟩ | ⟨hscalar, hbig, h⟩ <;>
    rcases scalarText_cases v with ⟨hbig', h'⟩ | ⟨⟨hscalar', hbig'⟩, t', h'⟩ |
      ⟨hscalar', hbig', h'⟩ <;>
    simp [*, bind, Except.bind, pure, Except.pure, @eq_comm _ _ failure]

/-! ## Coercion -/

/-- What is written of a datum, and what is judged together. -/
def rows : Datum → List (List Datum)
  | null | value _ => []
  | seq _ items => items.map fun d => [d]
  | map _ entries => entries.map fun entry => [entry.1, entry.2]
  | d => [[d]]

/-- Everything that has to be written can be. -/
def IsUsable (d : Datum) : Prop := ∀ row ∈ d.rows, ∀ c ∈ row, c.IsWritable

/-- What cannot be written first is, or stands beside, a number of too many digits. -/
def StopsAtNumber (d : Datum) : Prop := ∃ row, StopsAt d.rows row ∧ ∃ c ∈ row, c.IsOversized

/-- What cannot be written first is no scalar, and no number of too many digits stands beside it. -/
def StopsAtOther (d : Datum) : Prop := ∃ row, StopsAt d.rows row ∧ ∀ c ∈ row, ¬ c.IsOversized

/-- Data that are neither containers nor ready values are coerced as the only item of a sequence
would be. -/
theorem coerce_eq_error_iff_of_rows_eq {d : Datum} {name : Option Text} {failure : Failure}
    (hrows : d.rows = [[d]])
    (hcoerce : d.coerce name = d.scalarText >>= fun
      | some t => pure (some (.string t))
      | none => .error (.unusable d.typeName name)) :
    d.coerce name = .error failure ↔
      ∃ row, StopsAt d.rows row ∧ RowFails (.unusable d.typeName name) row failure := by
  have hitem : [d].mapM (itemText (.unusable d.typeName name)) = .error failure ↔
      d.coerce name = .error failure := by
    rw [List.mapM_cons, hcoerce, itemText]
    rcases scalarText_cases d with ⟨-, h⟩ | ⟨-, t, h⟩ | ⟨-, -, h⟩
    all_goals simp [h, bind, Except.bind, pure, Except.pure]
  rw [← hitem, hrows]
  exact mapM_step_eq_error_iff itemText_eq_error_iff

theorem coerce_eq_error_iff_rowFails {d : Datum} {name : Option Text} {failure : Failure} :
    d.coerce name = .error failure ↔
      ∃ row, StopsAt d.rows row ∧ RowFails (.unusable d.typeName name) row failure := by
  cases d with
  | null | value _ =>
    refine iff_of_false (fun h => nomatch h) ?_
    rintro ⟨row, ⟨⟨before, after, h, -⟩, -⟩, -⟩
    simp [rows] at h
  | seq kind items =>
    rw [coerce, itemTexts_eq_mapM, bind_pure_eq_error_iff]
    exact mapM_step_eq_error_iff itemText_eq_error_iff
  | map kind entries =>
    rw [coerce, entryTexts_eq_mapM, bind_pure_eq_error_iff]
    exact mapM_step_eq_error_iff entryText_eq_error_iff
  | text _ | bool _ | int _ | float _ | decimal _ | foreign _ =>
    exact coerce_eq_error_iff_of_rows_eq rfl rfl

/-- **How coercion fails.** A number of too many digits is no statement about the variable, and
anything else that cannot be written is. -/
theorem coerce_eq_error_iff {d : Datum} {name : Option Text} {failure : Failure} :
    d.coerce name = .error failure ↔ (failure = .tooManyDigits ∧ d.StopsAtNumber) ∨
      (failure = .unusable d.typeName name ∧ d.StopsAtOther) := by
  rw [coerce_eq_error_iff_rowFails]
  constructor
  · rintro ⟨row, hstop, hfails⟩
    cases hfails with
    | tooManyDigits h => exact .inl ⟨rfl, row, hstop, h⟩
    | refused hsmall _ => exact .inr ⟨rfl, row, hstop, hsmall⟩
  · rintro (⟨rfl, row, hstop, h⟩ | ⟨rfl, row, hstop, hsmall⟩)
    · exact ⟨row, hstop, .tooManyDigits h⟩
    · obtain ⟨c, hc, hwritable⟩ := hstop.unwritable
      exact ⟨row, hstop, .refused hsmall ⟨c, hc, fun hscalar => hwritable ⟨hscalar, hsmall c hc⟩⟩⟩

theorem IsOversized.stopsAtNumber {d : Datum} (h : d.IsOversized) : d.StopsAtNumber := by
  have hrows : d.rows = [[d]] := by
    cases d with
    | int n => rfl
    | _ => cases h
  refine ⟨[d], ⟨⟨[], [], hrows, by simp⟩, d, List.mem_cons_self, fun hd => hd.2 h⟩, d,
    List.mem_cons_self, h⟩

theorem StopsAtNumber.not_isUsable {d : Datum} (h : d.StopsAtNumber) : ¬ d.IsUsable := by
  obtain ⟨row, hrow, -⟩ := h
  exact exists_stopsAt_iff.1 ⟨row, hrow⟩

/-- **A datum is coerced if all its scalars can be written.** -/
theorem exists_coerce_eq_ok_iff {d : Datum} {name : Option Text} :
    (∃ v, d.coerce name = .ok v) ↔ d.IsUsable := by
  have hfails : (∃ failure, d.coerce name = .error failure) ↔ ∃ row, StopsAt d.rows row := by
    simp only [coerce_eq_error_iff_rowFails]
    constructor
    · rintro ⟨failure, row, hrow, -⟩
      exact ⟨row, hrow⟩
    · rintro ⟨row, hrow⟩
      obtain ⟨failure, hfailure⟩ := exists_rowFails_iff.2 hrow.unwritable
      exact ⟨failure, row, hrow, hfailure⟩
  rw [exists_eq_ok_iff, hfails, exists_stopsAt_iff, not_not]
  rfl

end LinkTemplate.Datum
