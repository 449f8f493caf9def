import LinkTemplate.Proofs.Rescue

/-!
# What a template depends on

A template names the variables that it uses. This list is its *footprint*: expansion asks for these
variables and for no others, so nothing else that a lookup could answer has a say in the result.

**Order** (`Template.pairwise_variableNames`). The names of the footprint stand in the order in
which they occur first in the expressions of the template. Literals have no names, also where they
show the text of an expression that could not be read.

**Agreement** (`Template.expand_congr`). Lookups that agree on the footprint are not told apart.

**The first failure** (`Template.mapM_firstUses_eq_error_iff`). Expansion asks for a name as often
as it occurs, and the footprint has it once. The name that decides over a failure is the same in
both, because a name that has passed once passes again. Under a mapping, the failure is that of the
first name of the footprint whose datum is refused.

Main results: `Template.expand_congr`, `Template.expand_mapping_eq_error_iff_variableNames`.
-/

namespace LinkTemplate

/-! ## First uses -/

namespace Template

theorem mem_variableNames {t : Template} {name : Text} :
    name ∈ t.variableNames ↔ ∃ e, Item.expression e ∈ t.items ∧ ∃ v ∈ e.vars, v.name = name := by
  rw [variableNames, mem_firstUses, visits_eq_flatMap_names, List.mem_flatMap]
  constructor
  · rintro ⟨i, hi, hname⟩
    cases i with
    | literal text => exact absurd hname List.not_mem_nil
    | expression e => exact ⟨e, hi, List.mem_map.1 hname⟩
  · intro h
    obtain ⟨e, he, hname⟩ := h
    exact ⟨.expression e, he, List.mem_map.2 hname⟩

theorem pairwise_firstUses (names : List Text) :
    (firstUses names).Pairwise fun a b => names.idxOf a < names.idxOf b := by
  induction names with
  | nil => exact List.Pairwise.nil
  | cons first rest ih =>
    have hne : ∀ a ∈ (firstUses rest).filter (· ≠ first), first ≠ a := by
      intro a ha
      have hfirst : a ≠ first := by simpa using (List.mem_filter.1 ha).2
      exact hfirst.symm
    rw [firstUses, List.pairwise_cons]
    constructor
    · intro a ha
      rw [List.idxOf_cons_self, List.idxOf_cons_ne _ (hne a ha)]
      exact Nat.succ_pos _
    · refine (ih.filter _).imp_of_mem fun {a b} ha hb hab => ?_
      rw [List.idxOf_cons_ne _ (hne a ha), List.idxOf_cons_ne _ (hne b hb)]
      exact Nat.succ_lt_succ hab

theorem pairwise_variableNames (t : Template) :
    t.variableNames.Pairwise fun a b =>
      (t.items.flatMap Item.names).idxOf a < (t.items.flatMap Item.names).idxOf b := by
  rw [← visits_eq_flatMap_names]
  exact pairwise_firstUses t.visits

/-- Going through the first uses fails as going through all uses does. -/
theorem mapM_firstUses_eq_error_iff {β ε : Type} {f : Text → Except ε β} {names : List Text}
    {e : ε} : (firstUses names).mapM f = .error e ↔ names.mapM f = .error e := by
  induction names with
  | nil => rfl
  | cons first rest ih =>
    rw [firstUses, List.mapM_cons, List.mapM_cons, bind_eq_error_iff, bind_eq_error_iff]
    simp only [bind_pure_eq_error_iff]
    refine or_congr_right (exists_congr fun y => and_congr_right fun hy => ?_)
    -- The later uses of the name are left out, and the step is known to succeed there.
    rw [← ih]
    refine mapM_filter_eq_error_iff fun a _ ha => ?_
    obtain rfl : a = first := by simpa using ha
    exact ⟨y, hy⟩

end Template

/-! ## Agreement -/

theorem Expression.expand_congr {e : Expression} {l l' : Lookup}
    (h : ∀ name ∈ e.names, l.value? name = l'.value? name) : e.expand l = e.expand l' := by
  have hbind : e.bind l = e.bind l' := by
    refine mapM_congr fun v hv => ?_
    show (do return (v, ← l.value? v.name)) = (do return (v, ← l'.value? v.name))
    rw [h v.name (List.mem_map_of_mem hv)]
  rw [expand, expand, hbind]

theorem Item.expand_congr {encodeLiterals : Bool} {i : Item} {l l' : Lookup}
    (h : ∀ name ∈ i.names, l.value? name = l'.value? name) :
    i.expand encodeLiterals l = i.expand encodeLiterals l' := by
  cases i with
  | literal text => rfl
  | expression e => exact Expression.expand_congr h

namespace Template

/-- **Lookups that agree on the names of a template expand it alike.** -/
theorem expand_congr {t : Template} {l l' : Lookup}
    (h : ∀ name ∈ t.variableNames, l.value? name = l'.value? name) : t.expand l = t.expand l' := by
  have hitems : t.items.mapM (Item.expand t.settings.encodeLiterals l) =
      t.items.mapM (Item.expand t.settings.encodeLiterals l') := by
    refine mapM_congr fun i hi => Item.expand_congr fun name hname => h name ?_
    rw [variableNames, mem_firstUses, visits_eq_flatMap_names]
    exact List.mem_flatMap.2 ⟨i, hi, hname⟩
  rw [expand, expand, expandItems, expandItems, hitems]

/-! ## Failures under a mapping -/

theorem expand_eq_error_iff_variableNames {t : Template} {l : Lookup} {failure : Failure} :
    t.expand l = .error failure ↔ t.variableNames.mapM l.value? = .error failure := by
  rw [expand_eq_error_iff, variableNames, mapM_firstUses_eq_error_iff]

theorem expand_mapping_eq_error_iff_variableNames {t : Template} {bindings : Assignment Datum}
    {failure : Failure} : t.expand (.mapping bindings) = .error failure ↔
      ∃ before name after d, t.variableNames = before ++ name :: after ∧
        (∀ n ∈ before, ∀ c, bindings.get? n = some c → ∃ v, c.coerce (some n) = .ok v) ∧
        bindings.get? name = some d ∧ d.coerce (some name) = .error failure := by
  simp only [expand_eq_error_iff_variableNames, mapM_eq_error_iff,
    Lookup.value?_mapping_eq_error_iff, Lookup.exists_value?_mapping_eq_ok_iff,
    Datum.exists_coerce_eq_ok_iff]
  constructor
  · rintro ⟨before, name, after, hnames, hbefore, d, hbound, hcoerce⟩
    exact ⟨before, name, after, d, hnames, hbefore, hbound, hcoerce⟩
  · rintro ⟨before, name, after, d, hnames, hbefore, hbound, hcoerce⟩
    exact ⟨before, name, after, hnames, hbefore, d, hbound, hcoerce⟩

theorem exists_expand_mapping_eq_error_iff {t : Template} {bindings : Assignment Datum} :
    (∃ failure, t.expand (.mapping bindings) = .error failure) ↔
      ∃ name ∈ t.variableNames, ∃ d, bindings.get? name = some d ∧
        ∃ failure, d.coerce (some name) = .error failure := by
  have hsome : (∃ failure, t.expand (.mapping bindings) = .error failure) ↔
      ∃ name ∈ t.variableNames, ∃ failure,
        (Lookup.mapping bindings).value? name = .error failure := by
    simp only [expand_eq_error_iff_variableNames, exists_mapM_eq_error_iff]
  rw [hsome]
  simp only [Lookup.value?_mapping_eq_error_iff]
  refine exists_congr fun name => and_congr_right fun _ => ?_
  rw [exists_comm]
  simp only [exists_and_left]

/-! ## The footprint -/

/-- **Expansion depends on the footprint alone.** Lookups that answer the names of a template alike,
as far as expansion looks at an answer, give the same text or the same failure. The names are those
of the variables in its expressions, each once, in the order in which they occur first. Under a
mapping, expansion fails exactly if one of them is bound to a datum that is refused. The failure is
that of the first one, and what other names are bound to does not matter. -/
theorem expand_of_footprint (t : Template) :
    (∀ l l' : Lookup, (∀ name ∈ t.variableNames, l.value? name = l'.value? name) →
      t.expand l = t.expand l') ∧
    ((∀ name, name ∈ t.variableNames ↔
        ∃ e, Item.expression e ∈ t.items ∧ ∃ v ∈ e.vars, v.name = name) ∧
      t.variableNames.Nodup ∧
      t.variableNames.Pairwise fun a b =>
        (t.items.flatMap Item.names).idxOf a < (t.items.flatMap Item.names).idxOf b) ∧
    ∀ (kind : MapKind) (entries : List (Datum × Datum)),
      let bindings := Lookup.ofEntries entries
      let result := t.expandWith (.data (.map kind entries)) []
      ((∃ failure, result = .error failure) ↔
        ∃ name ∈ t.variableNames, ∃ d, bindings.get? name = some d ∧
          ∃ failure, d.coerce (some name) = .error failure) ∧
      (∀ failure, result = .error failure ↔
        ∃ before name after d, t.variableNames = before ++ name :: after ∧
          (∀ n ∈ before, ∀ c, bindings.get? n = some c → ∃ v, c.coerce (some n) = .ok v) ∧
          bindings.get? name = some d ∧ d.coerce (some name) = .error failure) ∧
      ∀ (kind' : MapKind) (others : List (Datum × Datum)),
        (∀ name ∈ t.variableNames, (Lookup.ofEntries others).get? name = bindings.get? name) →
        t.expandWith (.data (.map kind' others)) [] = result := by
  refine ⟨fun l l' h => expand_congr h, ⟨fun name => mem_variableNames,
    nodup_firstUses t.visits, pairwise_variableNames t⟩, ?_⟩
  intro kind entries bindings result
  refine ⟨exists_expand_mapping_eq_error_iff,
    fun failure => expand_mapping_eq_error_iff_variableNames, ?_⟩
  intro kind' others hothers
  show t.expand (.mapping (Lookup.ofEntries others)) = t.expand (.mapping bindings)
  apply expand_congr
  intro name hname
  rw [Lookup.value?_mapping, Lookup.value?_mapping, hothers name hname]

/-- A name that occurs twice, one that only a literal shows, and two data that are refused. The
name used first decides, although the other datum stands before it in the mapping. -/
theorem expand_of_footprint_repeated :
    let text : Text := "\x7by,x\x7d\x7bw!\x7d\x7b+z,y\x7d".toList
    let shown : Datum × Datum :=
      (.text ['w'], .foreign { typeName := "object".toList, written := .ok "<object>".toList })
    let set : Datum :=
      .foreign { typeName := "set".toList, written := .ok "\x7b1\x7d".toList, isKey := false }
    let bad : List (Datum × Datum) :=
      [shown, (.text ['z'], .seq .list [.null]), (.text ['x'], set)]
    let good : List (Datum × Datum) := [(.text ['y'], .bool true), (.text ['x'], .text ['1'])]
    ∃ t, Template.parse {} text = .ok t ∧ t.variableNames = [['y'], ['x'], ['z']] ∧
      t.expandWith (.data (.map .plain bad)) [] =
        .error (.unusable "set".toList (some ['x'])) ∧
      (∀ name ∈ t.variableNames, (Lookup.mapping (Lookup.ofEntries (shown :: good))).value? name =
        (Lookup.mapping (Lookup.ofEntries good)).value? name) ∧
      t.expand (.mapping (Lookup.ofEntries (shown :: good))) =
        .ok "true,1\x7bw!\x7dtrue".toList := by
  intro text shown set bad good
  let t : Template := ⟨[.expression ⟨none, [⟨['y'], none⟩, ⟨['x'], none⟩]⟩,
    .literal "\x7bw!\x7d".toList, .expression ⟨some .reserved, [⟨['z'], none⟩, ⟨['y'], none⟩]⟩], {}⟩
  have hparse : Template.parse {} text = .ok t := by
    change Template.parse {} "\x7by,x\x7d\x7bw!\x7d\x7b+z,y\x7d".toList = _
    cbv
  have hnames : t.variableNames = [['y'], ['x'], ['z']] := by decide
  obtain ⟨hagree, -, hmapping⟩ := expand_of_footprint t
  obtain ⟨-, hfails, -⟩ := hmapping .plain bad
  have hunbound : ∀ n ∈ [['y']], ∀ c, (Lookup.ofEntries bad).get? n = some c →
      ∃ v, c.coerce (some n) = .ok v := by
    intro n hn c hc
    obtain rfl := List.mem_singleton.1 hn
    cases hc
  have hbad := (hfails (.unusable "set".toList (some ['x']))).2
    ⟨[['y']], ['x'], [['z']], set, hnames, hunbound, rfl, rfl⟩
  have hsame : ∀ name ∈ t.variableNames,
      (Lookup.mapping (Lookup.ofEntries (shown :: good))).value? name =
        (Lookup.mapping (Lookup.ofEntries good)).value? name := by
    rw [hnames]
    decide
  have hgood : t.expand (.mapping (Lookup.ofEntries good)) =
      .ok "true,1\x7bw!\x7dtrue".toList := by decide
  exact ⟨t, hparse, hnames, hbad, hsame, (hagree _ _ hsame).trans hgood⟩

end Template

end LinkTemplate
