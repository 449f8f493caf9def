import LinkTemplate.Binding.Builder
import LinkTemplate.Proofs.Coercion

/-!
# What data are converted to

A builder binds a name to a value of the shape that its caller asks for. Coercion takes scalars and
containers of scalars; conversion takes the text of whatever the datum holds, and refuses it only
for its build or for a number that is too long.

**Texts.** The written form (`Datum.HasWritten`) shows the type of a datum. What becomes part of a
value is its plain text (`Datum.HasPlain`): a text is itself, an exact decimal is bare, a read-only
mapping shows what it is a view of, and an object has a text of its own. Everything else is written.

**Members** (`Datum.HasMembers`) are met on going through a datum. Two members are a pair
(`Datum.IsPair`). A text of two characters and a mapping of two keys are pairs as well, which may
not be what their author meant.

**Values** (`Shape.Gives`). A string holds the text of the datum, a list the texts of its members.
An association holds the entries of a mapping, and the pairs that other data are made of.

Main results: `Datum.plain_eq_ok_iff`, `Datum.toPair_cases`, `Shape.value_eq_ok_iff`.
-/

namespace LinkTemplate

open Text

namespace Datum

/-! ## Texts -/

/-- The relation holds between the halves of an entry and those of a pair. -/
inductive OnHalves (R : Datum → Text → Prop) : Datum × Datum → Text × Text → Prop
  | mk {k x : Datum} {t u : Text} : R k t → R x u → OnHalves R (k, x) (t, u)

/-- The written form of a datum. -/
inductive HasWritten : Datum → Text → Prop
  | null : HasWritten null "None".toList
  | isTrue : HasWritten (bool true) "True".toList
  | isFalse : HasWritten (bool false) "False".toList
  | text (t : Text) : HasWritten (text t) (quoted t)
  | int {n : Int} : ¬ (int n).IsOversized → HasWritten (int n) (Decimal.intText n)
  | float (x : Binary64) : HasWritten (float x) x.toText
  | decimal (x : Numeral) :
      HasWritten (decimal x) ("Decimal('".toList ++ x.toText ++ "')".toList)
  | seq (kind : SeqKind) {items : List Datum} {texts : List Text} :
      List.Forall₂ HasWritten items texts → HasWritten (seq kind items) (kind.wrap texts)
  | map (kind : MapKind) {entries : List (Datum × Datum)} {texts : List (Text × Text)} :
      List.Forall₂ (OnHalves HasWritten) entries texts →
      HasWritten (map kind entries) (kind.wrap texts)
  | value (v : Value) : HasWritten (value v) v.written
  | object {f : Foreign Datum} {t : Text} : f.written = .ok t → HasWritten (foreign f) t

theorem intText_eq_ok_iff {n : Int} {t : Text} :
    intText n = .ok t ↔ ¬ (int n).IsOversized ∧ Decimal.intText n = t := by
  rw [intText_eq_ite, IsOversized]
  by_cases h : Decimal.withinDigits n = true
  · rw [if_pos h, h]
    simp
  · rw [if_neg h, Bool.eq_false_iff.2 h]
    simp

-- A container is written if what it holds is, so the recursion goes through items and entries.
mutual

theorem written_eq_ok_iff : ∀ {d : Datum} {t : Text}, d.written = .ok t ↔ d.HasWritten t
  | null, t => by
    rw [written]
    exact ⟨fun h => Except.ok.inj h ▸ .null, fun h => by cases h; rfl⟩
  | bool b, t => by
    rw [written]
    constructor
    · intro h
      cases b <;> cases h
      · exact .isFalse
      · exact .isTrue
    · intro h
      cases h <;> rfl
  | text u, t => by
    rw [written]
    exact ⟨fun h => Except.ok.inj h ▸ .text u, fun h => by cases h; rfl⟩
  | int n, t => by
    rw [written, intText_eq_ok_iff]
    constructor
    · rintro ⟨hn, rfl⟩
      exact .int hn
    · intro h
      cases h with
      | int hn => exact ⟨hn, rfl⟩
  | float x, t => by
    rw [written]
    exact ⟨fun h => Except.ok.inj h ▸ .float x, fun h => by cases h; rfl⟩
  | decimal x, t => by
    rw [written]
    exact ⟨fun h => Except.ok.inj h ▸ .decimal x, fun h => by cases h; rfl⟩
  | seq kind items, t => by
    rw [written, bind_eq_ok_iff]
    constructor
    · rintro ⟨texts, htexts, h⟩
      cases h
      exact .seq kind (writtenItems_eq_ok_iff.1 htexts)
    · intro h
      cases h with
      | seq kind hitems => exact ⟨_, writtenItems_eq_ok_iff.2 hitems, rfl⟩
  | map kind entries, t => by
    rw [written, bind_eq_ok_iff]
    constructor
    · rintro ⟨texts, htexts, h⟩
      cases h
      exact .map kind (writtenEntries_eq_ok_iff.1 htexts)
    · intro h
      cases h with
      | map kind hentries => exact ⟨_, writtenEntries_eq_ok_iff.2 hentries, rfl⟩
  | value v, t => by
    rw [written]
    exact ⟨fun h => Except.ok.inj h ▸ .value v, fun h => by cases h; rfl⟩
  | foreign f, t => by
    rw [written]
    exact ⟨.object, fun h => by cases h with | object h => exact h⟩

theorem writtenItems_eq_ok_iff : ∀ {items : List Datum} {texts : List Text},
    writtenItems items = .ok texts ↔ List.Forall₂ HasWritten items texts
  | [], texts => by
    rw [writtenItems, List.forall₂_nil_left_iff]
    exact ⟨fun h => (Except.ok.inj h).symm, fun h => h ▸ rfl⟩
  | item :: rest, texts => by
    rw [writtenItems, bind_eq_ok_iff, List.forall₂_cons_left_iff]
    constructor
    · rintro ⟨t, ht, h⟩
      obtain ⟨others, hothers, h⟩ := bind_eq_ok_iff.1 h
      exact ⟨t, others, written_eq_ok_iff.1 ht, writtenItems_eq_ok_iff.1 hothers,
        (Except.ok.inj h).symm⟩
    · rintro ⟨t, others, ht, hothers, rfl⟩
      exact ⟨t, written_eq_ok_iff.2 ht,
        bind_eq_ok_iff.2 ⟨others, writtenItems_eq_ok_iff.2 hothers, rfl⟩⟩

theorem writtenEntries_eq_ok_iff : ∀ {entries : List (Datum × Datum)}
    {texts : List (Text × Text)}, writtenEntries entries = .ok texts ↔
      List.Forall₂ (OnHalves HasWritten) entries texts
  | [], texts => by
    rw [writtenEntries, List.forall₂_nil_left_iff]
    exact ⟨fun h => (Except.ok.inj h).symm, fun h => h ▸ rfl⟩
  | (k, x) :: rest, texts => by
    rw [writtenEntries, bind_eq_ok_iff, List.forall₂_cons_left_iff]
    constructor
    · rintro ⟨t, ht, h⟩
      obtain ⟨u, hu, h⟩ := bind_eq_ok_iff.1 h
      obtain ⟨others, hothers, h⟩ := bind_eq_ok_iff.1 h
      exact ⟨(t, u), others, ⟨written_eq_ok_iff.1 ht, written_eq_ok_iff.1 hu⟩,
        writtenEntries_eq_ok_iff.1 hothers, (Except.ok.inj h).symm⟩
    · rintro ⟨-, others, ⟨ht, hu⟩, hothers, rfl⟩
      exact ⟨_, written_eq_ok_iff.2 ht, bind_eq_ok_iff.2 ⟨_, written_eq_ok_iff.2 hu,
        bind_eq_ok_iff.2 ⟨others, writtenEntries_eq_ok_iff.2 hothers, rfl⟩⟩⟩

end

/-- The written form of the datum is what becomes part of a text. -/
def IsShownWhole : Datum → Prop
  | text _ | decimal _ | map .readOnly _ | foreign _ => False
  | _ => True

/-- The text of a datum as a part of a value. -/
inductive HasPlain : Datum → Text → Prop
  | text (t : Text) : HasPlain (text t) t
  | decimal (x : Numeral) : HasPlain (decimal x) x.toText
  | view {entries : List (Datum × Datum)} {t : Text} : HasWritten (map .plain entries) t →
      HasPlain (map .readOnly entries) t
  | object {f : Foreign Datum} {t : Text} : f.plain = .ok t → HasPlain (foreign f) t
  | written {d : Datum} {t : Text} : d.IsShownWhole → d.HasWritten t → HasPlain d t

theorem plain_eq_written {d : Datum} (h : d.IsShownWhole) : d.plain = d.written := by
  cases d with
  | text _ | decimal _ | foreign _ => cases h
  | map kind entries =>
    cases kind with
    | readOnly => cases h
    | plain | ordered | derived _ _ => rfl
  | null | bool _ | int _ | float _ | seq _ _ | value _ => rfl

/-- **What a datum becomes as a part of a value** is its plain text. -/
theorem plain_eq_ok_iff {d : Datum} {t : Text} : d.plain = .ok t ↔ d.HasPlain t := by
  constructor
  · intro h
    by_cases hd : d.IsShownWhole
    · rw [plain_eq_written hd, written_eq_ok_iff] at h
      exact .written hd h
    · cases d with
      | text _ =>
        cases h
        exact .text t
      | decimal x =>
        cases h
        exact .decimal x
      | foreign f => exact .object h
      | map kind entries =>
        cases kind with
        | readOnly => exact .view (written_eq_ok_iff.1 h)
        | plain | ordered | derived _ _ => exact absurd trivial hd
      | null | bool _ | int _ | float _ | seq _ _ | value _ => exact absurd trivial hd
  · intro h
    cases h with
    | text _ | decimal _ => rfl
    | view h => exact written_eq_ok_iff.2 h
    | object h => exact h
    | written hd h => rw [plain_eq_written hd, written_eq_ok_iff.2 h]

theorem plainPair_eq_ok_iff {k x : Datum} {p : Text × Text} :
    plainPair k x = .ok p ↔ OnHalves HasPlain (k, x) p := by
  rw [plainPair, bind_eq_ok_iff]
  simp only [bind_eq_ok_iff, plain_eq_ok_iff]
  constructor
  · rintro ⟨t, ht, u, hu, h⟩
    cases h
    exact ⟨ht, hu⟩
  · rintro ⟨ht, hu⟩
    exact ⟨_, ht, _, hu, rfl⟩

/-! ## Members -/

/-- What is met on going through a datum. -/
inductive HasMembers : Datum → List Datum → Prop
  | text (t : Text) : HasMembers (text t) (t.map fun c => text [c])
  | seq (kind : SeqKind) (items : List Datum) : HasMembers (seq kind items) items
  | map (kind : MapKind) (entries : List (Datum × Datum)) :
      HasMembers (map kind entries) (entries.map Prod.fst)
  | object {f : Foreign Datum} {ms : List Datum} : f.members = some ms →
      HasMembers (foreign f) ms

def IsIterable (d : Datum) : Prop := ∃ ms, d.HasMembers ms

/-- Two members are met on going through the datum. -/
def IsPair (d first second : Datum) : Prop := d.HasMembers [first, second]

theorem members_eq_some_iff {d : Datum} {ms : List Datum} :
    d.members = some ms ↔ d.HasMembers ms := by
  constructor
  · intro h
    cases d with
    | null | bool _ | int _ | float _ | decimal _ | value _ => cases h
    | text t =>
      cases h
      exact .text t
    | seq kind _ =>
      cases h
      exact .seq kind ms
    | map kind entries =>
      cases h
      exact .map kind entries
    | foreign f => exact .object h
  · intro h
    cases h with
    | text _ | seq _ _ | map _ _ => rfl
    | object h => exact h

theorem membersOrFail_eq_ok_iff {d : Datum} {ms : List Datum} :
    d.membersOrFail = .ok ms ↔ d.HasMembers ms := by
  rw [← members_eq_some_iff, membersOrFail]
  cases d.members with
  | none => simp
  | some ms' => simp

/-- What taking an element apart comes to. -/
theorem toPair_cases (d : Datum) :
    (∃ first second, d.IsPair first second ∧ d.toPair = .ok (first, second)) ∨
      (¬ ∃ first second, d.IsPair first second) ∧
        ((d.IsIterable ∧ d.toPair = .error .notAPair) ∨
          (¬ d.IsIterable ∧ d.toPair = .error .notIterable)) := by
  simp only [IsPair, IsIterable, ← members_eq_some_iff, toPair, membersOrFail]
  cases d.members with
  | none => exact .inr ⟨by simp, .inr ⟨by simp, rfl⟩⟩
  | some ms =>
    match ms with
    | [first, second] => exact .inl ⟨first, second, rfl, rfl⟩
    | [] | [_] | _ :: _ :: _ :: _ => exact .inr ⟨by simp, .inl ⟨⟨_, rfl⟩, rfl⟩⟩

theorem IsPair.toPair_eq {d first second : Datum} (h : d.IsPair first second) :
    d.toPair = .ok (first, second) := by
  rw [toPair, membersOrFail_eq_ok_iff.2 h]
  rfl

theorem toPair_eq_ok_iff {d first second : Datum} :
    d.toPair = .ok (first, second) ↔ d.IsPair first second := by
  refine ⟨fun h => ?_, IsPair.toPair_eq⟩
  rcases d.toPair_cases with ⟨a, b, hpair, h'⟩ | ⟨-, ⟨-, h'⟩ | ⟨-, h'⟩⟩
  · rw [h'] at h
    cases h
    exact hpair
  · rw [h'] at h
    cases h
  · rw [h'] at h
    cases h

end Datum

/-! ## Values -/

open Datum

/-- The value of a shape that a datum is converted to. -/
inductive Shape.Gives : Shape → Datum → Value → Prop
  | string {d : Datum} {t : Text} : d.HasPlain t → Gives string d (.string t)
  | list {d : Datum} {ms : List Datum} {texts : List Text} :
      d.HasMembers ms → List.Forall₂ HasPlain ms texts → Gives list d (.list texts)
  | entries (kind : MapKind) {entries : List (Datum × Datum)} {pairs : List (Text × Text)} :
      List.Forall₂ (OnHalves HasPlain) entries pairs →
      Gives assoc (.map kind entries) (.assoc pairs)
  | pairs {d : Datum} {ms : List Datum} {pairs : List (Text × Text)} :
      (∀ kind entries, d ≠ .map kind entries) → d.HasMembers ms →
      List.Forall₂ (fun m p => ∃ k x, m.IsPair k x ∧ OnHalves HasPlain (k, x) p) ms pairs →
      Gives assoc d (.assoc pairs)

namespace Datum

variable {d : Datum} {v : Value}

theorem toStringValue_eq_ok_iff : d.toStringValue = .ok v ↔ Shape.string.Gives d v := by
  rw [toStringValue, bind_eq_ok_iff]
  simp only [plain_eq_ok_iff]
  constructor
  · rintro ⟨t, ht, h⟩
    cases h
    exact .string ht
  · intro h
    cases h with
    | string ht => exact ⟨_, ht, rfl⟩

theorem toListValue_eq_ok_iff : d.toListValue = .ok v ↔ Shape.list.Gives d v := by
  rw [toListValue, bind_eq_ok_iff]
  simp only [membersOrFail_eq_ok_iff, bind_eq_ok_iff, mapM_eq_ok_iff, plain_eq_ok_iff]
  constructor
  · rintro ⟨ms, hms, texts, htexts, h⟩
    cases h
    exact .list hms htexts
  · intro h
    cases h with
    | list hms htexts => exact ⟨_, hms, _, htexts, rfl⟩

theorem toAssocValue_eq_ok_iff : d.toAssocValue = .ok v ↔ Shape.assoc.Gives d v := by
  by_cases hmap : ∃ kind entries, d = map kind entries
  · obtain ⟨kind, entries, rfl⟩ := hmap
    rw [toAssocValue, bind_eq_ok_iff]
    simp only [mapM_eq_ok_iff, plainPair_eq_ok_iff]
    constructor
    · rintro ⟨pairs, hpairs, h⟩
      cases h
      exact .entries kind hpairs
    · intro h
      cases h with
      | entries _ hpairs => exact ⟨_, hpairs, rfl⟩
      | pairs hother => exact absurd rfl (hother kind entries)
  · have hother : ∀ kind entries, d ≠ map kind entries := fun kind entries h =>
      hmap ⟨kind, entries, h⟩
    rw [toAssocValue, bind_eq_ok_iff]
    simp only [membersOrFail_eq_ok_iff, bind_eq_ok_iff, mapM_eq_ok_iff, Prod.exists,
      toPair_eq_ok_iff, plainPair_eq_ok_iff]
    constructor
    · rintro ⟨ms, hms, pairs, hpairs, h⟩
      cases h
      exact .pairs hother hms hpairs
    · intro h
      cases h with
      | entries kind _ => exact absurd rfl (hother kind _)
      | pairs _ hms hpairs => exact ⟨_, hms, _, hpairs, rfl⟩
    · exact hother

end Datum

/-- **A datum is converted to what its texts give in the shape.** -/
theorem Shape.value_eq_ok_iff {shape : Shape} {d : Datum} {v : Value} :
    shape.value d = .ok v ↔ shape.Gives d v := by
  cases shape with
  | string => exact toStringValue_eq_ok_iff
  | list => exact toListValue_eq_ok_iff
  | assoc => exact toAssocValue_eq_ok_iff

theorem Shape.value_eq_error_iff {shape : Shape} {d : Datum} :
    (∃ failure, shape.value d = .error failure) ↔ ∀ v, ¬ shape.Gives d v := by
  rw [← not_iff_not, ← exists_eq_ok_iff]
  simp only [value_eq_ok_iff, not_forall, not_not]

theorem Shape.Gives.unique {shape : Shape} {d : Datum} {v w : Value} (h : shape.Gives d v)
    (hw : shape.Gives d w) : v = w :=
  Except.ok.inj ((value_eq_ok_iff.2 h).symm.trans (value_eq_ok_iff.2 hw))

end LinkTemplate
