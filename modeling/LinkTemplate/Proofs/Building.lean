import LinkTemplate.Proofs.Converted
import LinkTemplate.Proofs.Footprint
import LinkTemplate.Proofs.UriText
import Mathlib.Data.List.Induction

/-!
# What a builder holds

The bindings of a builder are what is left of the steps that were taken on it. They can be told
from the steps without going through them one after the other.

**Steps** (`Makes`). A step binds a name, removes a binding, or leaves the builder as it is. The
last happens when a datum cannot be converted, and when the template is expanded.

**Values** (`LastBinds`). A name has the value of the last step that bound it, unless the binding
was removed since. This is the value that the shape gives for the datum of that step.

**Order** (`IsOrdered`). A name comes in with a step before which it was not bound and behind which
it is (`Enters`). Binding it again is no such step, so it keeps its place. Once it has been removed
it can only come in anew, behind all others. The bindings stand in the order of the last of these
steps.

**Expansion** (`expand_eq_ofValues`) asks for values and not for places, and it does not fail. So
two steps about different names may change places: the values are the same, if not their order.

Main results: `get?_run_iff`, `isOrdered_run`, `expand_swap`.
-/

namespace LinkTemplate.Builder

open Assignment (names)

/-! ## Steps -/

inductive Step where
  | bind (shape : Shape) (name : Text) (d : Datum)
  | unbind (name : Text)
  | expand

namespace Step

def name? : Step → Option Text
  | bind _ name _ => some name
  | unbind name => some name
  | expand => none

/-- The step binds the name to the value, which its shape gives for its datum. -/
def Binds (name : Text) (v : Value) (step : Step) : Prop :=
  ∃ shape d, step = bind shape name d ∧ shape.Gives d v

def after (b : Builder) : Step → Builder
  | bind shape name d =>
    match b.bind shape name d with
    | .ok bound => bound
    | .error _ => b
  | unbind name => b.unbind name
  | expand => b

theorem binds_bind_iff {shape : Shape} {n name : Text} {d : Datum} {v : Value} :
    (bind shape n d).Binds name v ↔ n = name ∧ shape.Gives d v := by
  constructor
  · rintro ⟨shape', d', heq, hv⟩
    cases heq
    exact ⟨rfl, hv⟩
  · rintro ⟨rfl, hv⟩
    exact ⟨shape, d, rfl, hv⟩

theorem not_binds_unbind (n name : Text) (v : Value) : ¬ (unbind n).Binds name v := by
  rintro ⟨shape, d, heq, -⟩
  cases heq

theorem not_binds_expand (name : Text) (v : Value) : ¬ expand.Binds name v := by
  rintro ⟨shape, d, heq, -⟩
  cases heq

end Step

/-- What a step makes of a builder. -/
inductive Makes (b : Builder) : Step → Builder → Prop
  | bound {shape : Shape} {name : Text} {d : Datum} {v : Value} : shape.Gives d v →
      Makes b (.bind shape name d) (b.bindValue name v)
  | refused {shape : Shape} {name : Text} {d : Datum} : (∀ v, ¬ shape.Gives d v) →
      Makes b (.bind shape name d) b
  | unbound (name : Text) : Makes b (.unbind name) (b.unbind name)
  | expanded : Makes b .expand b

theorem makes_after (b : Builder) (step : Step) : Makes b step (step.after b) := by
  cases step with
  | bind shape name d =>
    simp only [Step.after, bind]
    cases h : shape.value d with
    | ok v => exact .bound (Shape.value_eq_ok_iff.1 h)
    | error failure => exact .refused (Shape.value_eq_error_iff.1 ⟨failure, h⟩)
  | unbind name => exact .unbound name
  | expand => exact .expanded

theorem refuses_of_not_gives {shape : Shape} {d : Datum} (h : ∀ v, ¬ shape.Gives d v)
    (b : Builder) (name : Text) : (∃ failure, b.bind shape name d = .error failure) ∧
      (Step.bind shape name d).after b = b := by
  obtain ⟨failure, hfailure⟩ := Shape.value_eq_error_iff.2 h
  have hbind : b.bind shape name d = .error failure := by
    rw [bind, hfailure]
    rfl
  refine ⟨⟨failure, hbind⟩, ?_⟩
  rw [Step.after, hbind]

def run (b : Builder) (past : List Step) : Builder := past.foldl Step.after b

theorem run_concat (b : Builder) (past : List Step) (step : Step) :
    b.run (past ++ [step]) = step.after (b.run past) :=
  List.foldl_concat ..

theorem run_append (b : Builder) (past future : List Step) :
    b.run (past ++ future) = (b.run past).run future :=
  List.foldl_append

/-- A builder that holds nothing yet. -/
def ofTemplate (t : Template) : Builder := { template := t }

/-! ## Values -/

namespace Makes

variable {b b' : Builder} {step : Step}

theorem template_eq (h : Makes b step b') : b'.template = b.template := by
  cases h <;> rfl

/-- Names drop out and the others keep their order, or one name comes in at the end. -/
theorem names_cases (h : Makes b step b') :
    (names b'.bindings).Sublist (names b.bindings) ∨
      ∃ name ∉ names b.bindings, names b'.bindings = names b.bindings ++ [name] := by
  cases h with
  | @bound shape name d v hv =>
    have hset : names (b.bindValue name v).bindings = _ := Assignment.names_set name v b.bindings
    by_cases hmem : name ∈ names b.bindings
    · rw [if_pos hmem] at hset
      exact .inl (hset ▸ List.Sublist.refl _)
    · rw [if_neg hmem] at hset
      exact .inr ⟨name, hmem, hset⟩
  | unbound name =>
    have hunset : names (b.unbind name).bindings = _ := Assignment.names_unset name b.bindings
    rw [hunset]
    exact .inl List.filter_sublist
  | refused _ | expanded => exact .inl (List.Sublist.refl _)

theorem nodup_names (h : Makes b step b') (hb : (names b.bindings).Nodup) :
    (names b'.bindings).Nodup := by
  rcases h.names_cases with hsub | ⟨name, hmem, heq⟩
  · exact hb.sublist hsub
  · rw [heq, ← List.concat_eq_append]
    exact hb.concat hmem

/-- A name has the value that the step binds it to, or else the one that it had, unless the step
removes it. -/
theorem get?_iff (h : Makes b step b') {name : Text} {v : Value} :
    b'.bindings.get? name = some v ↔ step.Binds name v ∨
      b.bindings.get? name = some v ∧ (∀ w, ¬ step.Binds name w) ∧ step ≠ .unbind name := by
  cases h with
  | @bound shape n d w hw =>
    show (b.bindings.set n w).get? name = some v ↔ _
    rw [Assignment.get?_set]
    by_cases hn : n = name
    · have hvalue : shape.Gives d v ↔ w = v := ⟨hw.unique, fun h => h ▸ hw⟩
      have hgives : ¬ ∀ u, ¬ shape.Gives d u := fun h => h w hw
      simp [Step.binds_bind_iff, hn, hvalue, hgives]
    · simp [Step.binds_bind_iff, hn]
  | @refused shape n d hnone => simp [Step.binds_bind_iff, hnone]
  | unbound n =>
    show (b.bindings.unset n).get? name = some v ↔ _
    rw [Assignment.get?_unset]
    by_cases hn : n = name
    · simp [Step.not_binds_unbind, hn]
    · simp [Step.not_binds_unbind, hn]
  | expanded => simp [Step.not_binds_expand]

end Makes

theorem template_run (b : Builder) (past : List Step) : (b.run past).template = b.template := by
  induction past using List.reverseRecOn with
  | nil => rfl
  | append_singleton past step ih =>
    rw [run_concat, (makes_after (b.run past) step).template_eq, ih]

theorem nodup_names_run (t : Template) (past : List Step) :
    (names ((ofTemplate t).run past).bindings).Nodup := by
  induction past using List.reverseRecOn with
  | nil => exact List.nodup_nil
  | append_singleton past step ih =>
    rw [run_concat]
    exact (makes_after _ step).nodup_names ih

/-- The last step that bound the name bound it to the value, and its binding was not removed
since. -/
def LastBinds (past : List Step) (name : Text) (v : Value) : Prop :=
  ∃ before step since, past = before ++ step :: since ∧ step.Binds name v ∧
    ∀ later ∈ since, (∀ w, ¬ later.Binds name w) ∧ later ≠ .unbind name

theorem lastBinds_concat_iff {past : List Step} {step : Step} {name : Text} {v : Value} :
    LastBinds (past ++ [step]) name v ↔ step.Binds name v ∨
      LastBinds past name v ∧ (∀ w, ¬ step.Binds name w) ∧ step ≠ .unbind name := by
  constructor
  · rintro ⟨before, bound, since, hpast, hbinds, hsince⟩
    rcases List.eq_nil_or_concat since with rfl | ⟨since, last, rfl⟩
    · obtain ⟨-, heq⟩ := List.append_inj' hpast rfl
      cases heq
      exact .inl hbinds
    · rw [List.concat_eq_append] at hpast hsince
      rw [← List.cons_append, ← List.append_assoc] at hpast
      obtain ⟨rfl, heq⟩ := List.append_inj' hpast rfl
      cases heq
      obtain ⟨hsince, hstep⟩ := List.forall_mem_append.1 hsince
      exact .inr ⟨⟨before, bound, since, rfl, hbinds, hsince⟩, hstep _ List.mem_cons_self⟩
  · rintro (hbinds | ⟨⟨before, bound, since, rfl, hbinds, hsince⟩, hstep⟩)
    · exact ⟨past, step, [], rfl, hbinds, by simp⟩
    · refine ⟨before, bound, since ++ [step], by simp, hbinds, ?_⟩
      intro later hlater
      rcases List.mem_append.1 hlater with hlater | hlater
      · exact hsince later hlater
      · obtain rfl := List.mem_singleton.1 hlater
        exact hstep

/-- **A name has the value it was bound to last**, unless its binding was removed since. -/
theorem get?_run_iff {t : Template} {past : List Step} {name : Text} {v : Value} :
    ((ofTemplate t).run past).bindings.get? name = some v ↔ LastBinds past name v := by
  induction past using List.reverseRecOn generalizing v with
  | nil =>
    refine iff_of_false (fun h => nomatch h) ?_
    rintro ⟨before, step, since, h, -⟩
    simp at h
  | append_singleton past step ih =>
    rw [run_concat, (makes_after _ step).get?_iff, ih, lastBinds_concat_iff]

/-! ## Order -/

/-- The step with this number brings the name in: the name is not bound before, and bound
behind. -/
def Enters (t : Template) (past : List Step) (name : Text) (i : Nat) : Prop :=
  name ∉ names ((ofTemplate t).run (past.take i)).bindings ∧
    name ∈ names ((ofTemplate t).run (past.take (i + 1))).bindings

/-- The step with this number is the last that brings the name in. -/
structure EntersLast (t : Template) (past : List Step) (name : Text) (i : Nat) : Prop where
  enters : Enters t past name i
  last : ∀ j, i < j → ¬ Enters t past name j

section Entries

variable {t : Template} {past : List Step} {step : Step} {name : Text} {i : Nat}

theorem Enters.lt_length (h : Enters t past name i) : i < past.length := by
  by_contra hlength
  obtain ⟨hbefore, hbehind⟩ := h
  rw [List.take_of_length_le (by omega)] at hbefore hbehind
  exact hbefore hbehind

theorem enters_concat_iff : Enters t (past ++ [step]) name i ↔ Enters t past name i ∨
    i = past.length ∧ name ∉ names ((ofTemplate t).run past).bindings ∧
      name ∈ names ((ofTemplate t).run (past ++ [step])).bindings := by
  rcases Nat.lt_trichotomy i past.length with hi | rfl | hi
  · have hne : i ≠ past.length := Nat.ne_of_lt hi
    unfold Enters
    rw [List.take_append_of_le_length (by omega), List.take_append_of_le_length (by omega)]
    simp [hne]
  · have hnot : ¬ Enters t past name past.length := fun h => Nat.lt_irrefl _ h.lt_length
    have hbefore : (past ++ [step]).take past.length = past := List.take_left
    have hbehind : (past ++ [step]).take (past.length + 1) = past ++ [step] :=
      List.take_of_length_le (by simp)
    rw [or_iff_right hnot, Enters, hbefore, hbehind]
    exact (and_iff_right rfl).symm
  · refine iff_of_false (fun h => ?_) ?_
    · have hlt := h.lt_length
      rw [List.length_append, List.length_singleton] at hlt
      omega
    · rintro (h | ⟨rfl, -⟩)
      · exact Nat.lt_asymm hi h.lt_length
      · exact Nat.lt_irrefl _ hi

theorem entersLast_concat_iff (h : name ∈ names ((ofTemplate t).run past).bindings) :
    EntersLast t (past ++ [step]) name i ↔ EntersLast t past name i := by
  have henters (j : Nat) : Enters t (past ++ [step]) name j ↔ Enters t past name j := by
    rw [enters_concat_iff]
    exact or_iff_left fun hnew => hnew.2.1 h
  constructor
  · intro hlast
    exact ⟨(henters i).1 hlast.enters, fun j hj => mt (henters j).2 (hlast.last j hj)⟩
  · intro hlast
    exact ⟨(henters i).2 hlast.enters, fun j hj => mt (henters j).1 (hlast.last j hj)⟩

/-- A name that comes in with a step comes in with this step last. -/
theorem entersLast_concat_iff_of_not_mem
    (hbefore : name ∉ names ((ofTemplate t).run past).bindings)
    (hbehind : name ∈ names ((ofTemplate t).run (past ++ [step])).bindings) :
    EntersLast t (past ++ [step]) name i ↔ i = past.length := by
  have hnew : Enters t (past ++ [step]) name past.length :=
    enters_concat_iff.2 (.inr ⟨rfl, hbefore, hbehind⟩)
  have hle {j : Nat} (h : Enters t (past ++ [step]) name j) : j ≤ past.length := by
    have hlt := h.lt_length
    rw [List.length_append, List.length_singleton] at hlt
    omega
  constructor
  · intro h
    refine Nat.le_antisymm (hle h.enters) (Nat.le_of_not_lt fun hlt => ?_)
    exact h.last _ hlt hnew
  · rintro rfl
    exact ⟨hnew, fun j hj h => Nat.not_lt.2 (hle h) hj⟩

end Entries

/-- Every name has come in, and those that came in earlier stand before those that came in
later. -/
structure IsOrdered (t : Template) (past : List Step) (bound : List Text) : Prop where
  entered : ∀ name ∈ bound, ∃ i, EntersLast t past name i
  ordered : bound.Pairwise fun m n =>
    ∀ i j, EntersLast t past m i → EntersLast t past n j → i < j

namespace IsOrdered

variable {t : Template} {past : List Step} {step : Step} {bound : List Text}

theorem sublist {fewer : List Text} (h : IsOrdered t past bound) (hsub : fewer.Sublist bound) :
    IsOrdered t past fewer :=
  ⟨fun name hname => h.entered name (hsub.subset hname), h.ordered.sublist hsub⟩

theorem concat (h : IsOrdered t past bound)
    (hbound : ∀ name ∈ bound, name ∈ names ((ofTemplate t).run past).bindings) :
    IsOrdered t (past ++ [step]) bound := by
  constructor
  · intro name hname
    obtain ⟨i, hi⟩ := h.entered name hname
    exact ⟨i, (entersLast_concat_iff (hbound name hname)).2 hi⟩
  · refine h.ordered.imp_of_mem fun {m n} hm hn hmn => ?_
    intro i j hi hj
    rw [entersLast_concat_iff (hbound m hm)] at hi
    rw [entersLast_concat_iff (hbound n hn)] at hj
    exact hmn i j hi hj

theorem concat_new {name : Text}
    (h : IsOrdered t past (names ((ofTemplate t).run past).bindings))
    (hbefore : name ∉ names ((ofTemplate t).run past).bindings)
    (hbehind : name ∈ names ((ofTemplate t).run (past ++ [step])).bindings) :
    IsOrdered t (past ++ [step]) (names ((ofTemplate t).run past).bindings ++ [name]) := by
  have hold : IsOrdered t (past ++ [step]) (names ((ofTemplate t).run past).bindings) :=
    h.concat fun _ hm => hm
  have hnew {i : Nat} := entersLast_concat_iff_of_not_mem (i := i) hbefore hbehind
  constructor
  · intro m hm
    rcases List.mem_append.1 hm with hm | hm
    · exact hold.entered m hm
    · obtain rfl := List.mem_singleton.1 hm
      exact ⟨past.length, hnew.2 rfl⟩
  · rw [List.pairwise_append]
    refine ⟨hold.ordered, List.pairwise_singleton _ _, ?_⟩
    intro m hm n hn i j hi hj
    obtain rfl := List.mem_singleton.1 hn
    obtain rfl := hnew.1 hj
    exact ((entersLast_concat_iff hm).1 hi).enters.lt_length

end IsOrdered

/-- **The bindings stand in the order in which their names last came in.** -/
theorem isOrdered_run (t : Template) (past : List Step) :
    IsOrdered t past (names ((ofTemplate t).run past).bindings) := by
  induction past using List.reverseRecOn with
  | nil => exact ⟨fun name h => absurd h List.not_mem_nil, List.Pairwise.nil⟩
  | append_singleton past step ih =>
    have hsame : IsOrdered t (past ++ [step]) (names ((ofTemplate t).run past).bindings) :=
      ih.concat fun _ hname => hname
    rcases (makes_after ((ofTemplate t).run past) step).names_cases with hsub | ⟨name, hmem, heq⟩
    · rw [run_concat]
      exact hsame.sublist hsub
    · rw [← run_concat] at heq
      rw [heq]
      refine ih.concat_new hmem ?_
      rw [heq]
      exact List.mem_append_right _ List.mem_cons_self

/-! ## Expansion -/

theorem expand_eq_ofValues (b : Builder) :
    b.expand = b.template.expand (.ofValues fun name => b.bindings.get? name) := by
  refine Template.expand_congr fun name _ => ?_
  rw [Lookup.value?_mapping, Lookup.value?_ofValues, Assignment.get?_map]
  cases b.bindings.get? name with
  | none => rfl
  | some v => rfl

theorem exists_expand (b : Builder) : ∃ text, b.expand = .ok text := by
  rw [expand_eq_ofValues]
  exact exists_expandItems _ _ (Lookup.answers_ofValues _)

theorem expand_congr {b b' : Builder} (htemplate : b.template = b'.template)
    (h : ∀ name, b.bindings.get? name = b'.bindings.get? name) : b.expand = b'.expand := by
  rw [expand_eq_ofValues, expand_eq_ofValues, htemplate, funext h]

/-! ## Steps about different names -/

section Swap

variable {b b' : Builder} {step : Step} {name : Text}

theorem get?_after_iff {v : Value} : (step.after b).bindings.get? name = some v ↔
    step.Binds name v ∨
      b.bindings.get? name = some v ∧ (∀ w, ¬ step.Binds name w) ∧ step ≠ .unbind name :=
  (makes_after b step).get?_iff

/-- What a step makes of a name depends on the value of this name alone. -/
theorem get?_after_congr (h : b.bindings.get? name = b'.bindings.get? name) :
    (step.after b).bindings.get? name = (step.after b').bindings.get? name := by
  apply Option.ext
  intro v
  rw [get?_after_iff, get?_after_iff, h]

theorem get?_run_congr (h : b.bindings.get? name = b'.bindings.get? name) (future : List Step) :
    (b.run future).bindings.get? name = (b'.run future).bindings.get? name := by
  induction future using List.reverseRecOn with
  | nil => exact h
  | append_singleton future step ih =>
    rw [run_concat, run_concat]
    exact get?_after_congr ih

theorem get?_after_of_ne (h : step.name? ≠ some name) :
    (step.after b).bindings.get? name = b.bindings.get? name := by
  have hbinds : ∀ w, ¬ step.Binds name w := by
    rintro w ⟨shape, d, rfl, -⟩
    exact h rfl
  have hunbind : step ≠ .unbind name := by
    rintro rfl
    exact h rfl
  apply Option.ext
  intro v
  rw [get?_after_iff]
  simp [hbinds, hunbind]

theorem get?_swap {first second : Step} (h : first.name? ≠ second.name?) (name : Text) :
    (second.after (first.after b)).bindings.get? name =
      (first.after (second.after b)).bindings.get? name := by
  by_cases hfirst : first.name? = some name
  · have hsecond : second.name? ≠ some name := fun hsecond => h (hfirst.trans hsecond.symm)
    rw [get?_after_of_ne hsecond]
    exact get?_after_congr (get?_after_of_ne hsecond).symm
  · rw [get?_after_of_ne hfirst]
    exact get?_after_congr (get?_after_of_ne hfirst)

end Swap

/-- **Steps about different names may change places** without a change to what the template expands
to after any further steps. -/
theorem expand_swap (b : Builder) (past : List Step) {first second : Step}
    (h : first.name? ≠ second.name?) (future : List Step) :
    (b.run (past ++ first :: second :: future)).expand =
      (b.run (past ++ second :: first :: future)).expand := by
  apply expand_congr
  · rw [template_run, template_run]
  · intro name
    rw [run_append, run_append]
    exact get?_run_congr (get?_swap h name) future

/-! ## Bindings -/

/-- **The bindings of a builder are told by the steps taken on it.** Their names are distinct. A
name is bound to the value that it was bound to last, which the shape gives for the datum, and only
if its binding was not removed since. The bindings stand in the order in which their names last came
in. A datum for which the shape gives no value is refused, and neither this nor an expansion changes
anything. Expansion gives the text of the template for the values that are bound, in whatever order,
so steps about different names may change places before any further steps. -/
theorem bindings_of_run (t : Template) (past : List Step) :
    let b := (ofTemplate t).run past
    (names b.bindings).Nodup ∧
      (∀ name v, (name, v) ∈ b.bindings ↔ LastBinds past name v) ∧
      IsOrdered t past (names b.bindings) ∧
      ((∀ shape name d, (∀ v, ¬ Shape.Gives shape d v) →
          (∃ failure, b.bind shape name d = .error failure) ∧
            (Step.bind shape name d).after b = b) ∧
        Step.expand.after b = b) ∧
      (∃ text, b.expand = .ok text ∧
        t.expand (.ofValues fun name => b.bindings.get? name) = .ok text) ∧
      (∀ bindings : Assignment Value, bindings.Perm b.bindings →
        Builder.expand ⟨t, bindings⟩ = b.expand) ∧
      ∀ (first second : Step) (future : List Step), first.name? ≠ second.name? →
        ((ofTemplate t).run (past ++ first :: second :: future)).expand =
          ((ofTemplate t).run (past ++ second :: first :: future)).expand := by
  intro b
  have hnodup : (names b.bindings).Nodup := nodup_names_run t past
  have htemplate : b.template = t := template_run (ofTemplate t) past
  refine ⟨hnodup, fun name v => ?_, isOrdered_run t past,
    ⟨fun shape name d h => refuses_of_not_gives h b name, rfl⟩, ?_, fun bindings hperm => ?_,
    fun first second future h => expand_swap _ past h future⟩
  · rw [← Assignment.get?_eq_some_iff hnodup]
    exact get?_run_iff
  · obtain ⟨text, htext⟩ := b.exists_expand
    refine ⟨text, htext, ?_⟩
    rw [← htemplate, ← expand_eq_ofValues, htext]
  · exact expand_congr htemplate.symm (Assignment.get?_eq_of_perm hnodup hperm)

/-- A name that is bound anew keeps its place until it is removed and comes in behind the others.
Elements of two kinds are pairs for an association; a text of two characters has no such element,
and is refused. -/
theorem bindings_of_run_removed :
    let t : Template := ⟨[.expression ⟨none, [⟨['x'], none⟩]⟩,
      .expression ⟨some .formQuery, [⟨['y'], none⟩, ⟨['z'], some .explode⟩]⟩], {}⟩
    let x (c : Char) : Step := .bind .string ['x'] (.text [c])
    let y : Step := .bind .list ['y'] (.seq .tuple [.text ['a'], .bool true])
    let z : Step :=
      .bind .assoc ['z'] (.seq .list [.text ['k', '1'], .seq .tuple [.text ['l'], .null]])
    let refused : Datum := .text ['a', 'b']
    let past := [x '1', y, x '2', .expand, z, .unbind ['w'], .unbind ['x'], x '3']
    let pairs : List (Text × Text) := [(['k'], ['1']), (['l'], "None".toList)]
    let b := (ofTemplate t).run past
    b.bindings = [(['y'], .list [['a'], "True".toList]), (['z'], .assoc pairs),
        (['x'], .string ['3'])] ∧
      LastBinds past ['x'] (.string ['3']) ∧ ¬ LastBinds past ['x'] (.string ['2']) ∧
      LastBinds past ['z'] (.assoc pairs) ∧
      (∀ i j, EntersLast t past ['y'] i → EntersLast t past ['x'] j → i < j) ∧
      (∀ v, ¬ Shape.assoc.Gives refused v) ∧ (Step.bind .assoc ['x'] refused).after b = b ∧
      b.expand = .ok "3?y=a,True&k=1&l=None".toList ∧
      Builder.expand ⟨t, b.bindings.reverse⟩ = .ok "3?y=a,True&k=1&l=None".toList ∧
      (Step.unbind ['y']).name? ≠ (x '4').name? ∧
      ((ofTemplate t).run (past ++ [.unbind ['y'], x '4', y])).expand =
        ((ofTemplate t).run (past ++ [x '4', .unbind ['y'], y])).expand := by
  intro t x y z refused past pairs b
  have hbindings : b.bindings = [(['y'], .list [['a'], "True".toList]), (['z'], .assoc pairs),
      (['x'], .string ['3'])] := by decide
  have hrefused : ∀ v, ¬ Shape.assoc.Gives refused v :=
    Shape.value_eq_error_iff.1 ⟨.notAPair, by decide⟩
  have htext : b.expand = .ok "3?y=a,True&k=1&l=None".toList := by decide
  have hname : (Step.unbind ['y']).name? ≠ (x '4').name? := by decide
  obtain ⟨-, hvalues, hordered, ⟨hsame, -⟩, -, hperm, hswap⟩ := bindings_of_run t past
  obtain ⟨-, hunchanged⟩ := hsame .assoc ['x'] refused hrefused
  have hbetween := hordered.ordered
  rw [show names b.bindings = [['y'], ['z'], ['x']] by rw [hbindings]; rfl] at hbetween
  refine ⟨hbindings, (hvalues _ _).1 (by decide), mt (hvalues _ _).2 (by decide),
    (hvalues _ _).1 (by decide),
    List.rel_of_pairwise_cons hbetween (List.mem_cons_of_mem _ List.mem_cons_self), hrefused,
    hunchanged, htext, ?_, hname, hswap _ _ [y] hname⟩
  exact (hperm _ (List.reverse_perm _)).trans htext

end LinkTemplate.Builder
