import LinkTemplate.Proofs.Coercion
import LinkTemplate.Proofs.Overrides

/-!
# What data are coerced to

A datum that is bound to a variable becomes a template value as a whole or not at all. There are
two sides to this, which together leave nothing open.

**Texts** (`Datum.HasText`). Scalars have a text: a text is its own, a truth value is a word, and
the numbers are written out. A whole number has a text only within the digit limit. Truth values are
no numbers here.

**Values** (`Datum.Gives`). A ready value stays as it is, a datum with a text gives a string, and a
container whose members all have texts gives these texts, in their order and none left out.

**Failures** (`Datum.Fails`). An object fails by its type and a number by its digits. A container
fails at the first item or entry in which a text is missing. Both halves of an entry are looked at:
if one of them is a number of too many digits, this is the failure, and otherwise it is told of the
container.

Main results: `Datum.coerce_eq_ok_some_iff`, `Datum.coerce_eq_error_iff_fails`.
-/

namespace LinkTemplate.Datum

open Decimal

/-! ## Texts -/

inductive HasText : Datum → Text → Prop
  | text (t : Text) : HasText (text t) t
  | isTrue : HasText (bool true) "true".toList
  | isFalse : HasText (bool false) "false".toList
  | int (n : Int) : (natText n.natAbs).length ≤ maxDigits →
      HasText (int n) (Decimal.intText n)
  | float (x : Binary64) : HasText (float x) x.toText
  | decimal (x : Numeral) : HasText (decimal x) x.toText

theorem isOversized_int_iff {n : Int} :
    (int n).IsOversized ↔ maxDigits < (natText n.natAbs).length := by
  rw [IsOversized, ← Nat.not_le, ← withinDigits_iff, Bool.not_eq_true]

theorem scalarText_eq_ok_some_iff {d : Datum} {t : Text} :
    d.scalarText = .ok (some t) ↔ d.HasText t := by
  constructor
  · intro h
    cases d with
    | text t' =>
      cases h
      exact .text t
    | bool b =>
      cases b <;> cases h
      · exact .isFalse
      · exact .isTrue
    | int n =>
      rw [scalarText_int] at h
      by_cases hn : withinDigits n = true
      · rw [if_pos hn] at h
        cases h
        exact .int n (withinDigits_iff.1 hn)
      · rw [if_neg hn] at h
        cases h
    | float x =>
      cases h
      exact .float x
    | decimal x =>
      cases h
      exact .decimal x
    | null | seq _ _ | map _ _ | value _ | foreign _ => cases h
  · intro h
    cases h with
    | int n hn => rw [scalarText_int, if_pos (withinDigits_iff.2 hn)]
    | text _ | isTrue | isFalse | float _ | decimal _ => rfl

theorem exists_hasText_iff {d : Datum} : (∃ t, d.HasText t) ↔ d.IsWritable := by
  simp only [← scalarText_eq_ok_some_iff]
  rcases scalarText_cases d with ⟨hbig, h⟩ | ⟨hwritable, t, h⟩ | ⟨hscalar, -, h⟩
  · rw [h]
    exact iff_of_false nofun fun hwritable => hwritable.2 hbig
  · rw [h]
    exact iff_of_true ⟨t, rfl⟩ hwritable
  · rw [h]
    exact iff_of_false nofun fun hwritable => hscalar hwritable.1

/-! ## Values -/

/-- The value of a datum that has one. -/
inductive Gives : Datum → Value → Prop
  | value (v : Value) : Gives (value v) v
  | string {d : Datum} {t : Text} : d.HasText t → Gives d (.string t)
  | list (kind : SeqKind) {items : List Datum} {texts : List Text} :
      List.Forall₂ HasText items texts → Gives (seq kind items) (.list texts)
  | assoc (kind : MapKind) {entries : List (Datum × Datum)} {pairs : List (Text × Text)} :
      List.Forall₂ (fun e p => HasText e.1 p.1 ∧ HasText e.2 p.2) entries pairs →
      Gives (map kind entries) (.assoc pairs)

theorem itemText_eq_ok_iff {refusal : Failure} {d : Datum} {t : Text} :
    itemText refusal d = .ok t ↔ d.HasText t := by
  rw [← scalarText_eq_ok_some_iff, itemText, bind_eq_ok_iff]
  constructor
  · rintro ⟨text?, htext, h⟩
    cases text? with
    | none => cases h
    | some t' =>
      cases h
      exact htext
  · intro h
    exact ⟨some t, h, rfl⟩

theorem entryText_eq_ok_iff {refusal : Failure} {entry : Datum × Datum} {pair : Text × Text} :
    entryText refusal entry = .ok pair ↔ entry.1.HasText pair.1 ∧ entry.2.HasText pair.2 := by
  rw [← scalarText_eq_ok_some_iff, ← scalarText_eq_ok_some_iff, entryText, bind_eq_ok_iff]
  constructor
  · rintro ⟨key?, hkey, h⟩
    obtain ⟨value?, hvalue, h⟩ := bind_eq_ok_iff.1 h
    cases key? with
    | none => cases h
    | some k =>
      cases value? with
      | none => cases h
      | some v =>
        cases h
        exact ⟨hkey, hvalue⟩
  · rintro ⟨hkey, hvalue⟩
    exact ⟨_, hkey, bind_eq_ok_iff.2 ⟨_, hvalue, rfl⟩⟩

/-- Data that are neither containers nor ready values have their text for a value. -/
theorem coerce_eq_ok_some_iff_of_text {d : Datum} {name : Option Text} {v : Value}
    (hcoerce : d.coerce name = d.scalarText >>= fun
      | some t => pure (some (.string t))
      | none => .error (.unusable d.typeName name)) :
    d.coerce name = .ok (some v) ↔ ∃ t, d.HasText t ∧ v = .string t := by
  simp only [← scalarText_eq_ok_some_iff]
  rw [hcoerce, bind_eq_ok_iff]
  constructor
  · rintro ⟨text?, htext, h⟩
    cases text? with
    | none => cases h
    | some t =>
      cases h
      exact ⟨t, htext, rfl⟩
  · rintro ⟨t, htext, rfl⟩
    exact ⟨some t, htext, rfl⟩

/-- **What a datum is coerced to** is its value. -/
theorem coerce_eq_ok_some_iff {d : Datum} {name : Option Text} {v : Value} :
    d.coerce name = .ok (some v) ↔ d.Gives v := by
  cases d with
  | null =>
    refine iff_of_false nofun fun h => ?_
    cases h with
    | string h => cases h
  | value w =>
    constructor
    · intro h
      cases h
      exact .value v
    · intro h
      cases h with
      | value => rfl
      | string h => cases h
  | seq kind items =>
    rw [coerce, itemTexts_eq_mapM, bind_eq_ok_iff]
    simp only [mapM_eq_ok_iff, itemText_eq_ok_iff]
    constructor
    · rintro ⟨texts, htexts, h⟩
      cases h
      exact .list kind htexts
    · intro h
      cases h with
      | list _ htexts => exact ⟨_, htexts, rfl⟩
      | string h => cases h
  | map kind entries =>
    rw [coerce, entryTexts_eq_mapM, bind_eq_ok_iff]
    simp only [mapM_eq_ok_iff, entryText_eq_ok_iff]
    constructor
    · rintro ⟨pairs, hpairs, h⟩
      cases h
      exact .assoc kind hpairs
    · intro h
      cases h with
      | assoc _ hpairs => exact ⟨_, hpairs, rfl⟩
      | string h => cases h
  | text _ | bool _ | int _ | float _ | decimal _ | foreign _ =>
    rw [coerce_eq_ok_some_iff_of_text rfl]
    constructor
    · rintro ⟨t, ht, rfl⟩
      exact .string ht
    · intro h
      cases h with
      | string ht => exact ⟨_, ht, rfl⟩

/-! ## Failures -/

/-- How a datum fails to have a value. -/
inductive Fails (name : Option Text) : Datum → Failure → Prop
  | object (f : Foreign Datum) : Fails name (foreign f) (.unusable f.typeName name)
  | number (n : Int) : (int n).IsOversized → Fails name (int n) .tooManyDigits
  | item (kind : SeqKind) {before : List Datum} {item : Datum} (after : List Datum)
      {failure : Failure} : (∀ c ∈ before, ∃ t, c.HasText t) →
      RowFails (.unusable kind.typeName name) [item] failure →
      Fails name (seq kind (before ++ item :: after)) failure
  | entry (kind : MapKind) {before : List (Datum × Datum)} {key value : Datum}
      (after : List (Datum × Datum)) {failure : Failure} :
      (∀ e ∈ before, (∃ t, e.1.HasText t) ∧ ∃ t, e.2.HasText t) →
      RowFails (.unusable kind.typeName name) [key, value] failure →
      Fails name (map kind (before ++ (key, value) :: after)) failure

/-- **How coercion fails**, and where. -/
theorem coerce_eq_error_iff_fails {d : Datum} {name : Option Text} {failure : Failure} :
    d.coerce name = .error failure ↔ d.Fails name failure := by
  cases d with
  | null | value _ | text _ | bool _ | float _ | decimal _ => exact iff_of_false nofun nofun
  | foreign f =>
    constructor
    · intro h
      cases h
      exact .object f
    · intro h
      cases h
      rfl
  | int n =>
    have hcoerce : (int n).coerce name = (int n).scalarText >>= fun
      | some t => pure (some (.string t))
      | none => .error (.unusable (int n).typeName name) := rfl
    rcases scalarText_cases (int n) with ⟨hbig, h⟩ | ⟨⟨-, hsmall⟩, t, h⟩ | ⟨hscalar, -⟩
    · rw [hcoerce, h]
      constructor
      · intro h
        cases h
        exact .number n hbig
      · intro h
        cases h
        rfl
    · rw [hcoerce, h]
      refine iff_of_false nofun fun h => ?_
      cases h with
      | number _ hbig => exact hsmall hbig
    · exact absurd trivial hscalar
  | seq kind items =>
    rw [coerce, itemTexts_eq_mapM, bind_pure_eq_error_iff, mapM_eq_error_iff]
    simp only [itemText_eq_ok_iff, itemText_eq_error_iff]
    constructor
    · rintro ⟨before, item, after, rfl, hbefore, hitem⟩
      exact .item kind after hbefore hitem
    · intro h
      cases h with
      | item _ after hbefore hitem => exact ⟨_, _, after, rfl, hbefore, hitem⟩
  | map kind entries =>
    rw [coerce, entryTexts_eq_mapM, bind_pure_eq_error_iff, mapM_eq_error_iff]
    simp only [entryText_eq_ok_iff, entryText_eq_error_iff, Prod.exists, exists_and_left,
      exists_and_right]
    constructor
    · rintro ⟨before, key, value, ⟨after, rfl⟩, hbefore, hentry⟩
      exact .entry kind after hbefore hentry
    · intro h
      cases h with
      | entry _ after hbefore hentry => exact ⟨_, _, _, ⟨after, rfl⟩, hbefore, hentry⟩

/-- The data that a container holds, the keys of a mapping included. -/
def parts : Datum → List Datum
  | seq _ items => items
  | map _ entries => entries.flatMap fun e => [e.1, e.2]
  | _ => []

theorem isUsable_iff {d : Datum} : d.IsUsable ↔
    ¬ ((∃ f, d = foreign f) ∨ d.IsOversized ∨ ∃ c ∈ d.parts, ¬ c.IsWritable) := by
  cases d with
  | null | value _ | text _ | bool _ | float _ | decimal _ | int _ | foreign _ =>
    simp [IsUsable, rows, parts, IsWritable, IsScalar, IsOversized]
  | seq kind items => simp [IsUsable, rows, parts, IsOversized]
  | map kind entries =>
    have hparts : (map kind entries).IsUsable ↔ ∀ c ∈ (map kind entries).parts, c.IsWritable := by
      rw [parts, List.forall_mem_flatMap]
      exact List.forall_mem_map
    rw [hparts]
    simp [IsOversized]

/-! ## Coercion -/

/-- **Coercion gives a whole value or fails.** Only null leaves a variable undefined. A ready value
is unchanged, scalars become strings, and containers become lists and associations of the texts of
all that they hold, in order. Coercion fails exactly for an object, for a number of too many digits,
and for a container that holds something without a text. The first such item or entry decides: it is
a failure of digits if one of its parts is such a number, and otherwise one of the container, which
names the variable. -/
theorem coerce_of_texts (d : Datum) (name : Option Text) :
    (d.coerce name = .ok none ↔ d = null) ∧
    (∀ v, d.coerce name = .ok (some v) ↔ d.Gives v) ∧
    (∀ failure, d.coerce name = .error failure ↔ d.Fails name failure) ∧
    ((∃ failure, d.coerce name = .error failure) ↔
      (∃ f, d = foreign f) ∨ d.IsOversized ∨ ∃ c ∈ d.parts, ¬ ∃ t, c.HasText t) ∧
    (∀ c : Datum, (∃ t, c.HasText t) ↔ c.IsScalar ∧ ¬ c.IsOversized) ∧
    ∀ n : Int, (int n).IsOversized ↔ maxDigits < (natText n.natAbs).length := by
  refine ⟨coerce_eq_ok_none_iff, fun v => coerce_eq_ok_some_iff,
    fun failure => coerce_eq_error_iff_fails, ?_, fun c => exists_hasText_iff,
    fun n => isOversized_int_iff⟩
  simp only [exists_hasText_iff]
  rw [← not_iff_not, ← exists_eq_ok_iff, exists_coerce_eq_ok_iff, isUsable_iff]

end LinkTemplate.Datum
