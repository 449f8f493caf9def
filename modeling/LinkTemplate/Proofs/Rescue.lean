import LinkTemplate.Proofs.Calls
import LinkTemplate.Proofs.Coercion
import LinkTemplate.Proofs.Overlong

/-!
# Renderings that fail

An engine answers bindings that cannot be used with the template as it stands, and reports them.
That is not the only way in which a rendering can go wrong. A number of too many digits, in the
template or in a binding, is neither rescued nor reported: the call fails.

**Expansion** fails as looking up its variables in order does (`Template.expand_eq_error_iff`).
Writing adds no failure, and a variable that is not looked up does not matter.

**Bindings** (`Template.StopsAt`). Under a mapping, the first variable whose datum cannot be used
decides. Unbound variables are undefined, which is no failure.

**Renderings** (`Renders`) end in one of four ways. Two of them give a text and two do not.

Main results: `renders_render`, `IsSound.result_render_eq_error_iff`.
-/

namespace LinkTemplate

/-! ## Looking up -/

theorem Expression.expand_eq_error_iff {e : Expression} {l : Lookup} {failure : Failure} :
    e.expand l = .error failure ↔ e.names.mapM l.value? = .error failure := by
  unfold expand bind names
  rw [bind_pure_eq_error_iff, List.mapM_map]
  refine mapM_eq_error_congr fun v failure => ?_
  exact bind_pure_eq_error_iff

def Item.names : Item → List Text
  | literal _ => []
  | expression e => e.names

theorem Item.expand_eq_error_iff {encodeLiterals : Bool} {l : Lookup} (i : Item)
    (failure : Failure) :
    i.expand encodeLiterals l = .error failure ↔ i.names.mapM l.value? = .error failure := by
  cases i with
  | literal text => simp [Item.expand, names, pure, Except.pure]
  | expression e => exact Expression.expand_eq_error_iff

namespace Template

theorem visits_eq_flatMap_names (t : Template) : t.visits = t.items.flatMap Item.names := by
  unfold visits expressions
  induction t.items with
  | nil => rfl
  | cons i items ih =>
    cases i with
    | literal text => exact ih
    | expression e => exact congrArg (e.names ++ ·) ih

/-- **Expanding a template fails as looking up its variables in order does.** -/
theorem expand_eq_error_iff {t : Template} {l : Lookup} {failure : Failure} :
    t.expand l = .error failure ↔ t.visits.mapM l.value? = .error failure := by
  rw [visits_eq_flatMap_names]
  unfold expand expandItems
  rw [bind_pure_eq_error_iff]
  exact mapM_eq_error_iff_flatMap Item.expand_eq_error_iff

end Template

theorem Template.parse_eq_error_iff {settings : Settings} {text : Text} {failure : Failure} :
    parse settings text = .error failure ↔ failure = .tooManyDigits ∧ HasOverlong text := by
  rw [parse, bind_pure_eq_error_iff, readItems_eq_error_iff]

/-! ## Bindings -/

theorem Lookup.value?_mapping (bindings : Assignment Datum) (name : Text) :
    (mapping bindings).value? name = match bindings.get? name with
      | none => .ok none
      | some d => d.coerce (some name) := by
  unfold value? mapping Datum.coerced
  dsimp only
  cases bindings.get? name with
  | none => rfl
  | some d =>
    dsimp only
    cases d.coerce (some name) with
    | error failure => rfl
    | ok v => cases v <;> rfl

theorem Lookup.value?_mapping_eq_error_iff {bindings : Assignment Datum} {name : Text}
    {failure : Failure} : (mapping bindings).value? name = .error failure ↔
      ∃ d, bindings.get? name = some d ∧ d.coerce (some name) = .error failure := by
  rw [value?_mapping]
  cases bindings.get? name <;> simp

theorem Lookup.exists_value?_mapping_eq_ok_iff {bindings : Assignment Datum} {name : Text} :
    (∃ v, (mapping bindings).value? name = .ok v) ↔
      ∀ d, bindings.get? name = some d → d.IsUsable := by
  rw [value?_mapping]
  cases bindings.get? name with
  | none => simp
  | some d => simpa using Datum.exists_coerce_eq_ok_iff

namespace Template

/-- The first variable of the template whose datum cannot be used, and this datum. -/
structure StopsAt (t : Template) (bindings : Assignment Datum) (name : Text) (d : Datum) :
    Prop where
  first : ∃ before after, t.visits = before ++ name :: after ∧
    ∀ n ∈ before, ∀ c, bindings.get? n = some c → c.IsUsable
  bound : bindings.get? name = some d
  unusable : ¬ d.IsUsable

/-- Under a mapping, expansion fails as the first datum that cannot be used is refused. -/
theorem expand_mapping_eq_error_iff {t : Template} {bindings : Assignment Datum}
    {failure : Failure} : t.expand (.mapping bindings) = .error failure ↔
      ∃ name d, t.StopsAt bindings name d ∧ d.coerce (some name) = .error failure := by
  simp only [expand_eq_error_iff, mapM_eq_error_iff, Lookup.value?_mapping_eq_error_iff,
    Lookup.exists_value?_mapping_eq_ok_iff]
  constructor
  · rintro ⟨before, name, after, hvisits, hbefore, d, hbound, hcoerce⟩
    refine ⟨name, d, ⟨⟨before, after, hvisits, hbefore⟩, hbound, fun husable => ?_⟩, hcoerce⟩
    obtain ⟨v, hv⟩ := Datum.exists_coerce_eq_ok_iff.2 husable
    rw [hcoerce] at hv
    cases hv
  · rintro ⟨name, d, ⟨⟨before, after, hvisits, hbefore⟩, hbound, -⟩, hcoerce⟩
    exact ⟨before, name, after, hvisits, hbefore, d, hbound, hcoerce⟩

theorem exists_expand_mapping_eq_ok_iff {t : Template} {bindings : Assignment Datum} :
    (∃ result, t.expand (.mapping bindings) = .ok result) ↔
      ∀ name ∈ t.visits, ∀ d, bindings.get? name = some d → d.IsUsable := by
  simp only [exists_eq_ok_congr fun _ => expand_eq_error_iff, exists_mapM_eq_ok_iff,
    Lookup.exists_value?_mapping_eq_ok_iff]

end Template

namespace Engine

open Template Log

/-! ## Records -/

def reportsError (r : Record) : Bool := r.level = Level.error

theorem filter_reportsError_eq_nil {records : List Record}
    (h : ∀ r ∈ records, r.level = Level.debug) : records.filter reportsError = [] := by
  rw [List.filter_eq_nil_iff]
  intro r hr
  rw [reportsError, h r hr]
  decide

theorem Reads.filter_reportsError {e : Engine} {traced : Bool} {text : Text} {o : Outcome Parsed}
    (h : Reads e traced text o) : o.records.filter reportsError = [] := by
  have hread : ∀ r ∈ (if traced then [missRecord text] else []) ++
      Template.parseRecords e.settings text, r.level = Level.debug := by
    intro r hr
    rcases List.mem_append.1 hr with hmiss | hnote
    · cases traced with
      | false => cases hmiss
      | true =>
        obtain rfl := List.mem_singleton.1 hmiss
        rfl
    · obtain ⟨note, -, rfl⟩ := List.mem_map.1 hnote
      rfl
  cases h with
  | recalled _ => rfl
  | read _ _ => exact filter_reportsError_eq_nil hread
  | refused _ _ => exact filter_reportsError_eq_nil hread

theorem filter_reportsError_expandRecords (traced : Bool) (t : Template) (l : Lookup) :
    (t.expandRecords traced l).filter reportsError = [] := by
  refine filter_reportsError_eq_nil fun r hr => ?_
  cases traced with
  | false => cases hr
  | true =>
    obtain ⟨skip, -, rfl⟩ := List.mem_map.1 hr
    rfl

/-! ## Renderings -/

/-- How a text is rendered under bindings: the errors that are reported, and the result. -/
inductive Renders (settings : Settings) (text : Text) (bindings : Assignment Datum) :
    List Record → Except Failure Text → Prop
  | refused : HasOverlong text → Renders settings text bindings [] (.error .tooManyDigits)
  | expanded {t : Template} {result : Text} : Template.parse settings text = .ok t →
      (∀ name ∈ t.visits, ∀ d, bindings.get? name = some d → d.IsUsable) →
      t.expand (.mapping bindings) = .ok result →
      Renders settings text bindings [] (.ok result)
  | rescued {t : Template} {name : Text} {d : Datum} : Template.parse settings text = .ok t →
      t.StopsAt bindings name d → d.StopsAtOther →
      Renders settings text bindings [failureRecord (unusableMessage d.typeName (some name))]
        (.ok text)
  | failed {t : Template} {name : Text} {d : Datum} : Template.parse settings text = .ok t →
      t.StopsAt bindings name d → d.StopsAtNumber →
      Renders settings text bindings [] (.error .tooManyDigits)

theorem Renders.of_error {settings : Settings} {text : Text} {bindings : Assignment Datum}
    {errors : List Record} {failure : Failure}
    (h : Renders settings text bindings errors (.error failure)) :
    errors = [] ∧ failure = .tooManyDigits ∧ (HasOverlong text ∨ ∃ t name d,
      Template.parse settings text = .ok t ∧ t.StopsAt bindings name d ∧ d.StopsAtNumber) := by
  cases h with
  | refused hoverlong => exact ⟨rfl, rfl, .inl hoverlong⟩
  | failed ht hstop hnumber => exact ⟨rfl, rfl, .inr ⟨_, _, _, ht, hstop, hnumber⟩⟩

namespace IsSound

variable {e : Engine} (he : e.IsSound)
include he

/-- **A sound engine renders in one of the four ways.** -/
theorem renders_render (traced : Bool) (text : Text) (kind : MapKind)
    (entries : List (Datum × Datum)) :
    Renders e.settings text (Lookup.ofEntries entries)
      ((e.render traced text (.data (.map kind entries))).records.filter reportsError)
      (e.render traced text (.data (.map kind entries))).result := by
  have hparse := he.map_result_parse traced text
  have hrecords := (reads_parse e traced text).filter_reportsError
  unfold render
  cases hread : (e.parse traced text).result with
  | error failure =>
    rw [hread] at hparse
    obtain ⟨rfl, hoverlong⟩ := parse_eq_error_iff.1 hparse.symm
    simp only [hread, hrecords]
    exact .refused hoverlong
  | ok parsed =>
    rw [hread] at hparse
    have hmapping : (Variables.data (.map kind entries)).toMapping =
        .ok (Lookup.ofEntries entries) := rfl
    simp only [hread, hmapping, List.filter_append, hrecords, filter_reportsError_expandRecords,
      List.nil_append]
    cases hexpand : parsed.template.expand (.mapping (Lookup.ofEntries entries)) with
    | ok result =>
      exact .expanded hparse.symm (exists_expand_mapping_eq_ok_iff.1 ⟨result, hexpand⟩) hexpand
    | error failure =>
      obtain ⟨name, d, hstop, hcoerce⟩ := expand_mapping_eq_error_iff.1 hexpand
      rcases Datum.coerce_eq_error_iff.1 hcoerce with ⟨rfl, hnumber⟩ | ⟨rfl, hother⟩
      · exact .failed hparse.symm hstop hnumber
      · exact .rescued hparse.symm hstop hother

/-- A call fails for a number of too many digits, in the text or in the datum that decides. -/
theorem result_render_eq_error_iff (traced : Bool) (text : Text) (kind : MapKind)
    (entries : List (Datum × Datum)) (failure : Failure) :
    (e.render traced text (.data (.map kind entries))).result = .error failure ↔
      failure = .tooManyDigits ∧ (HasOverlong text ∨ ∃ t name d,
        Template.parse e.settings text = .ok t ∧
          t.StopsAt (Lookup.ofEntries entries) name d ∧ d.StopsAtNumber) := by
  constructor
  · intro h
    have hrenders := he.renders_render traced text kind entries
    rw [h] at hrenders
    exact hrenders.of_error.2
  · rintro ⟨rfl, hoverlong | ⟨t, name, d, ht, hstop, hnumber⟩⟩
    · rw [he.result_render_map, parse_eq_error_iff.2 ⟨rfl, hoverlong⟩]
      rfl
    · have hcoerce : d.coerce (some name) = .error .tooManyDigits :=
        Datum.coerce_eq_error_iff.2 (.inl ⟨rfl, hnumber⟩)
      have hexpand := expand_mapping_eq_error_iff.2 ⟨name, d, hstop, hcoerce⟩
      have hbind : (Template.parse e.settings text >>= fun t =>
          t.expandWith (.data (.map kind entries)) []) = .error .tooManyDigits := by
        rw [ht]
        exact hexpand
      rw [he.result_render_map, hbind]

theorem filter_reportsError_of_eq_error {traced : Bool} {text : Text} {kind : MapKind}
    {entries : List (Datum × Datum)} {failure : Failure}
    (h : (e.render traced text (.data (.map kind entries))).result = .error failure) :
    (e.render traced text (.data (.map kind entries))).records.filter reportsError = [] := by
  have hrenders := he.renders_render traced text kind entries
  rw [h] at hrenders
  exact hrenders.of_error.1

theorem result_render_of_isOversized (traced : Bool) {d : Datum} (h : d.IsOversized) :
    (e.render traced "\x7bx\x7d".toList (.data (.map .plain [(.text ['x'], d)]))).result =
      .error .tooManyDigits := by
  have hread : readItems "\x7bx\x7d".toList = .ok [.expression ⟨none, [⟨['x'], none⟩]⟩] := by
    cbv
  let t : Template := ⟨[.expression ⟨none, [⟨['x'], none⟩]⟩], e.settings⟩
  have hparse : Template.parse e.settings "\x7bx\x7d".toList = .ok t :=
    parse_eq_ok_iff.2 ⟨hread, rfl⟩
  have hnumber := h.stopsAtNumber
  have hstop : t.StopsAt (Lookup.ofEntries [(.text ['x'], d)]) ['x'] d :=
    ⟨⟨[], [], rfl, by simp⟩, rfl, hnumber.not_isUsable⟩
  exact (he.result_render_eq_error_iff _ _ _ _ _).2 ⟨rfl, .inr ⟨_, _, _, hparse, hstop, hnumber⟩⟩

end IsSound

/-- **Rendering fails at a number of too many digits, and nowhere else.** After whatever calls, a
text is rendered under a mapping in one of four ways. If every datum that is looked up can be used,
the result is the expansion. If the first that cannot is refused for something that is no scalar,
the result is the text itself, and one error is reported. But if it is refused for a number of too
many digits, or if the text has a size of too many, the call fails, and nothing is reported. -/
theorem renders_of_run (settings : Settings) (past : List Call) (traced : Bool) (text : Text)
    (kind : MapKind) (entries : List (Datum × Datum)) :
    let bindings := Lookup.ofEntries entries
    let o := ((ofSettings settings).run past).render traced text (.data (.map kind entries))
    let errors := o.records.filter reportsError
    Renders settings text bindings errors o.result ∧
      ((∃ result, o.result = .ok result) ↔ ¬ HasOverlong text ∧ ∀ t name d,
        Template.parse settings text = .ok t → t.StopsAt bindings name d → ¬ d.StopsAtNumber) ∧
      ∀ failure, o.result = .error failure → failure = .tooManyDigits ∧ errors = [] := by
  intro bindings o errors
  have hsettings : ((ofSettings settings).run past).settings = settings :=
    settings_run (ofSettings settings) past
  have hsound := isSound_run (isSound_ofSettings settings) past
  have hrenders := hsound.renders_render traced text kind entries
  have herror := hsound.result_render_eq_error_iff traced text kind entries
  rw [hsettings] at hrenders herror
  refine ⟨hrenders, ?_, fun failure h => ?_⟩
  · rw [exists_eq_ok_iff, exists_congr herror]
    simp only [exists_eq_left, not_or, not_exists, not_and]
    exact Iff.rfl
  · rw [h] at hrenders
    exact ⟨hrenders.of_error.2.1, hrenders.of_error.1⟩

/-- A new engine fails for a binding, and for a size, of one digit too many, and reports neither. -/
theorem render_fails_beyond_digits :
    let e := ofSettings {}
    let bound := e.render false "\x7bx\x7d".toList
      (.data (.map .plain [(.text ['x'], .int (10 ^ 4300 : Nat))]))
    let sized := e.render false (Span.braced ('x' :: ':' :: List.replicate 4301 '1')).toText
      (.data (.map .plain []))
    (bound.result = .error .tooManyDigits ∧ bound.records.filter reportsError = []) ∧
      sized.result = .error .tooManyDigits ∧ sized.records.filter reportsError = [] := by
  have hsound := isSound_ofSettings {}
  have hbig : (Datum.int (10 ^ 4300 : Nat)).IsOversized := by
    have hlimit : Nat.pow 10 Decimal.maxDigits ≤ 10 ^ 4300 := by decide +kernel
    exact Datum.isOversized_int hlimit
  have hbound := hsound.result_render_of_isOversized false hbig
  have hoverlong := hasOverlong_size (Grammar.isOverlongSize_replicate (by decide : _ < 4301))
  have hsized := (hsound.result_render_eq_error_iff false _ .plain [] _).2
    ⟨rfl, .inl hoverlong⟩
  exact ⟨⟨hbound, hsound.filter_reportsError_of_eq_error hbound⟩, hsized,
    hsound.filter_reportsError_of_eq_error hsized⟩

end Engine

end LinkTemplate
