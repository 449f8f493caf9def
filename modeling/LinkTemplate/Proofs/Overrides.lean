import LinkTemplate.Proofs.Footprint

/-!
# Bindings in front of variables

Further bindings of a call stand in front of its variables. They are not merged: a name is looked up
in the bindings first, and in the variables if it is undefined there. Data are coerced when they are
found. So what a binding hides is never coerced, and a binding that cannot be used fails although
there is something usable behind it.

**Chains.** A chain answers as the first of its sources that fails or defines the name, and is
undefined if all are. This does not ask where one source ends and the next begins, so a chain in a
chain can be taken apart (`Lookup.chain_append`).

**Overriding.** Only `null` is undefined when it is coerced. Hence bindings in front of a mapping
answer as one mapping, in which they override all but their nulls (`overridden`).

Main results: `Lookup.chain_append`, `Lookup.get_chain_mapping`, `Lookup.get?_overridden`.
-/

namespace LinkTemplate

/-! ## Null -/

namespace Datum

def isNull : Datum → Bool
  | null => true
  | _ => false

theorem coerce_eq_ok_none_iff {d : Datum} {name : Option Text} :
    d.coerce name = .ok none ↔ d = null := by
  constructor
  · intro h
    cases d with
    | null => rfl
    | value v => cases h
    | seq kind items =>
      obtain ⟨texts, -, hsome⟩ := bind_eq_ok_iff.1 h
      cases hsome
    | map kind entries =>
      obtain ⟨texts, -, hsome⟩ := bind_eq_ok_iff.1 h
      cases hsome
    | text _ | bool _ | int _ | float _ | decimal _ | foreign _ =>
      obtain ⟨t, -, hsome⟩ := bind_eq_ok_iff.1 h
      cases t <;> cases hsome
  · rintro rfl
    rfl

theorem coerced_eq_ok_null_iff {d : Datum} {name : Text} :
    d.coerced name = .ok null ↔ d = null := by
  rw [← coerce_eq_ok_none_iff, coerced]
  cases d.coerce (some name) with
  | error failure => simp [bind, Except.bind]
  | ok v => cases v <;> simp [bind, Except.bind, pure, Except.pure]

end Datum

namespace Lookup

/-! ## Chains -/

/-- A source counts if it fails or defines the name. -/
theorem firstDefined_cons_of_ne {source : Lookup} {name : Text}
    (h : source.get name ≠ .ok .null) (rest : List Lookup) :
    firstDefined name (source :: rest) = source.get name := by
  unfold firstDefined
  cases hget : source.get name with
  | error failure => rfl
  | ok d =>
    cases d with
    | null => exact absurd hget h
    | _ => rfl

theorem firstDefined_cons_of_null {source : Lookup} {name : Text}
    (h : source.get name = .ok .null) (rest : List Lookup) :
    firstDefined name (source :: rest) = firstDefined name rest := by
  rw [firstDefined, h]
  rfl

theorem firstDefined_singleton (source : Lookup) (name : Text) :
    firstDefined name [source] = source.get name := by
  by_cases h : source.get name = .ok .null
  · rw [firstDefined_cons_of_null h, h]
    rfl
  · exact firstDefined_cons_of_ne h []

theorem firstDefined_chain_cons (name : Text) (sources after : List Lookup) :
    firstDefined name (chain sources :: after) = firstDefined name (sources ++ after) := by
  induction sources with
  | nil => rfl
  | cons source rest ih =>
    rw [List.cons_append]
    by_cases h : source.get name = .ok .null
    · have hget : (chain (source :: rest)).get name = (chain rest).get name :=
        firstDefined_cons_of_null h rest
      rw [firstDefined_cons_of_null h, ← ih, firstDefined, firstDefined, hget]
    · have hget : (chain (source :: rest)).get name = source.get name :=
        firstDefined_cons_of_ne h rest
      rw [firstDefined_cons_of_ne h, firstDefined_cons_of_ne (hget ▸ h), hget]

/-- **A chain in a chain is as good as its sources** in its place. -/
theorem chain_append (before sources after : List Lookup) :
    chain (before ++ chain sources :: after) = chain (before ++ (sources ++ after)) := by
  refine congrArg (Lookup.mk .chain) (funext fun name => ?_)
  induction before with
  | nil => exact firstDefined_chain_cons name sources after
  | cons first rest ih =>
    rw [List.cons_append, List.cons_append]
    by_cases h : first.get name = .ok .null
    · rw [firstDefined_cons_of_null h, firstDefined_cons_of_null h, ih]
    · rw [firstDefined_cons_of_ne h, firstDefined_cons_of_ne h]

/-! ## Overriding -/

/-- What bindings define a name as, if they do. -/
def defined? (name : Text) (bindings : Assignment Datum) : Option Datum :=
  (bindings.get? name).filter fun d => !d.isNull

theorem ne_null_of_defined? {name : Text} {bindings : Assignment Datum} {d : Datum}
    (h : defined? name bindings = some d) : d ≠ .null := by
  intro hnull
  have hdefined := (Option.filter_eq_some_iff.1 h).2
  rw [hnull] at hdefined
  cases hdefined

/-- The entries of a mapping with bindings behind them, as names in a mapping are bound anew. -/
def overridden (entries : List (Datum × Datum)) (bindings : Assignment Datum) :
    List (Datum × Datum) :=
  entries ++ (bindings.filter fun b => !b.2.isNull).map fun b => (.text b.1, b.2)

theorem overridden_nil (entries : List (Datum × Datum)) : overridden entries [] = entries :=
  List.append_nil entries

/-- The datum that a mapping answers with. -/
def answer (name : Text) : Option Datum → Except Failure Datum
  | none => .ok .null
  | some d => d.coerced name

theorem get_mapping (bindings : Assignment Datum) (name : Text) :
    (mapping bindings).get name = answer name (bindings.get? name) := by
  show (match bindings.get? name with | none => _ | some d => _) = _
  cases bindings.get? name with
  | none => rfl
  | some d => rfl

/-- A name that is bound to null is answered as one that is not bound. -/
theorem get_mapping_defined? (bindings : Assignment Datum) (name : Text) :
    (mapping bindings).get name = answer name (defined? name bindings) := by
  rw [get_mapping, defined?]
  cases bindings.get? name with
  | none => rfl
  | some d => cases d <;> rfl

/-- **Bindings in front of a source** count where they define something. Something that cannot be
used fails, whatever stands behind it. -/
theorem get_chain_mapping (bindings : Assignment Datum) (l : Lookup) (name : Text) :
    (chain [mapping bindings, l]).get name = match defined? name bindings with
      | none => l.get name
      | some d => d.coerced name := by
  have hget := get_mapping_defined? bindings name
  show firstDefined name [mapping bindings, l] = _
  cases hdefined : defined? name bindings with
  | none =>
    rw [hdefined] at hget
    rw [firstDefined_cons_of_null hget, firstDefined_singleton]
  | some d =>
    rw [hdefined] at hget
    have hne : (mapping bindings).get name ≠ .ok .null := fun h =>
      ne_null_of_defined? hdefined (Datum.coerced_eq_ok_null_iff.1 (hget.symm.trans h))
    rw [firstDefined_cons_of_ne hne, hget]
    rfl

theorem ofEntries_texts (bindings : Assignment Datum) :
    ofEntries (bindings.map fun b => (.text b.1, b.2)) = .ofList bindings := by
  rw [ofEntries, List.filterMap_map]
  exact congrArg Assignment.ofList List.filterMap_some

theorem get?_ofEntries_append (name : Text) (entries more : List (Datum × Datum)) :
    (ofEntries (entries ++ more)).get? name =
      ((ofEntries more).get? name).or ((ofEntries entries).get? name) := by
  rw [ofEntries, List.filterMap_append]
  exact Assignment.get?_ofList_append ..

theorem get?_overridden {bindings : Assignment Datum} (h : (Assignment.names bindings).Nodup)
    (entries : List (Datum × Datum)) (name : Text) :
    (ofEntries (overridden entries bindings)).get? name =
      (defined? name bindings).or ((ofEntries entries).get? name) := by
  have hfilter : (Assignment.names (bindings.filter fun b => !b.2.isNull)).Nodup :=
    h.sublist (List.filter_sublist.map Prod.fst)
  rw [overridden, get?_ofEntries_append, ofEntries_texts, Assignment.get?_ofList hfilter,
    Assignment.get?_filter h fun d => !d.isNull]
  rfl

/-- **Bindings in front of a mapping answer as one mapping.** -/
theorem get_chain_mapping_mapping {bindings : Assignment Datum}
    (h : (Assignment.names bindings).Nodup) (entries : List (Datum × Datum)) (name : Text) :
    (chain [mapping bindings, mapping (ofEntries entries)]).get name =
      (mapping (ofEntries (overridden entries bindings))).get name := by
  rw [get_chain_mapping, get_mapping, get_mapping, get?_overridden h]
  cases defined? name bindings with
  | none => rfl
  | some d => rfl

end Lookup

/-! ## Calls with further bindings -/

open Lookup

theorem Template.expand_eq_of_get_eq (t : Template) {l l' : Lookup}
    (h : ∀ name, l.get name = l'.get name) : t.expand l = t.expand l' := by
  refine expand_congr fun name _ => ?_
  rw [value?, value?, h name]

/-- **Bindings of a call override its mapping.** Every template expands under a mapping and further
bindings as it does under one mapping: to the same text, or with the same failure. In this mapping
the bindings that are not null, whatever they are, stand in place of the entries with their names.
And chains of three sources, of any kind, are the same chain however they are built. -/
theorem expandWith_of_overrides :
    (∀ bindings : Assignment Datum, (Assignment.names bindings).Nodup →
      ∀ entries : List (Datum × Datum),
        (∀ (t : Template) (kind kind' : MapKind),
          t.expandWith (.data (.map kind entries)) bindings =
            t.expandWith (.data (.map kind' (overridden entries bindings))) []) ∧
        ∀ name : Text,
          (ofEntries (overridden entries bindings)).get? name = match bindings.get? name with
            | none | some .null => (ofEntries entries).get? name
            | some d => some d) ∧
    ∀ a b c : Lookup, chain [chain [a, b], c] = chain [a, b, c] ∧
      chain [a, chain [b, c]] = chain [a, b, c] := by
  refine ⟨fun bindings h entries => ⟨fun t kind kind' => ?_, fun name => ?_⟩, fun a b c =>
    ⟨chain_append [] [a, b] [c], chain_append [a] [b, c] []⟩⟩
  · rw [Engine.expandWith_map]
    cases bindings with
    | nil => rw [overridden_nil, Engine.expandWith_map]
    | cons binding rest =>
      exact t.expand_eq_of_get_eq (get_chain_mapping_mapping h entries)
  · rw [get?_overridden h, defined?]
    cases bindings.get? name with
    | none => rfl
    | some d => cases d <;> rfl

/-- An object that is hidden by a binding, an empty list that hides a string, and a string that a
null leaves. Then an object that hides a string, and a source that fails inside a chain. -/
theorem expandWith_of_overrides_hidden :
    let t : Template := ⟨[.expression ⟨none, [⟨['x'], none⟩, ⟨['e'], none⟩, ⟨['y'], none⟩]⟩], {}⟩
    let object : Datum :=
      .foreign { typeName := "object".toList, written := .ok "<object>".toList }
    let set : Datum :=
      .foreign { typeName := "set".toList, written := .ok "\x7b1\x7d".toList, isKey := false }
    let entries : List (Datum × Datum) :=
      [(.text ['x'], object), (.text ['e'], .text ['a']), (.text ['y'], .text ['b'])]
    let bindings : Assignment Datum :=
      [(['x'], .bool true), (['e'], .seq .list []), (['y'], .null)]
    let refused : Assignment Datum := [(['y'], set), (['x'], .text [])]
    let failing : Lookup := ⟨.custom ['f'], fun _ => .error .notIterable⟩
    ((Assignment.names bindings).Nodup ∧ (Assignment.names refused).Nodup) ∧
      t.expandWith (.data (.map .plain entries)) bindings = .ok "true,b".toList ∧
      t.expandWith (.data (.map .plain entries)) refused =
        .error (.unusable "set".toList (some ['y'])) ∧
      (ofEntries (overridden entries bindings)).get? ['e'] = some (.seq .list []) ∧
      (chain [chain [.mapping bindings, failing], .mapping refused]).get ['y'] =
        .error .notIterable := by
  intro t object set entries bindings refused failing
  have hdistinct : (Assignment.names bindings).Nodup := by decide
  have hdistinct' : (Assignment.names refused).Nodup := by decide
  obtain ⟨hbindings, hchain⟩ := expandWith_of_overrides
  obtain ⟨hexpand, hentries⟩ := hbindings bindings hdistinct entries
  obtain ⟨hexpand', -⟩ := hbindings refused hdistinct' entries
  refine ⟨⟨hdistinct, hdistinct'⟩, ?_, ?_, hentries ['e'], ?_⟩
  · rw [hexpand t .plain .ordered]
    decide
  · rw [hexpand' t .plain .plain]
    decide
  · rw [(hchain _ failing _).1]
    rfl

end LinkTemplate
