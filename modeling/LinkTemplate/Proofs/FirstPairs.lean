import LinkTemplate.Proofs.Converted
import LinkTemplate.Proofs.Overrides

/-!
# Variables as a sequence of pairs

Variables may be given as pairs of a name and a datum. No mapping is made of them: for each name
that is looked up, the elements are taken apart one after the other until a pair with this name is
found. What stands behind that pair is never looked at. So an element that is no pair fails the
names that are not found in front of it, and no others.

An element is a pair if exactly two members are met on going through it, whatever it is: a text of
two characters, a mapping of two keys and any object that gives out two members are pairs as well.

**Visits** (`Visits`). A visit passes over the pairs with other keys. It ends at the first element
that is no such pair, and there its result is decided; without such an element the name is
undefined.

**First bindings** (`Assignment.firsts`). Of several pairs with one name the first counts, where a
mapping made of them would keep the last. The first decides even if it holds null.

Main results: `Lookup.firstPair_eq_iff`, `Assignment.mem_firsts_iff`, `Lookup.get_pairs`.
-/

namespace LinkTemplate

/-! ## Elements -/

namespace Datum

theorem isText_iff {name : Text} {d : Datum} : d.isText name = true ↔ d = text name := by
  cases d <;> simp [isText]

/-- The element is a pair, and the name is not its key. -/
def IsOther (name : Text) (element : Datum) : Prop :=
  ∃ key d, element.IsPair key d ∧ key ≠ text name

end Datum

/-! ## Visits -/

namespace Lookup

open Datum

/-- How going through elements ends for a name. -/
inductive Visits (name : Text) : List Datum → Except Failure Datum → Prop
  | absent {elements : List Datum} : (∀ e ∈ elements, e.IsOther name) →
      Visits name elements (.ok .null)
  | found {before : List Datum} {element d : Datum} (after : List Datum) :
      (∀ e ∈ before, e.IsOther name) → element.IsPair (.text name) d →
      Visits name (before ++ element :: after) (d.coerced name)
  | uneven {before : List Datum} {element : Datum} (after : List Datum) :
      (∀ e ∈ before, e.IsOther name) → element.IsIterable →
      (¬ ∃ key d, element.IsPair key d) →
      Visits name (before ++ element :: after) (.error .notAPair)
  | solid {before : List Datum} {element : Datum} (after : List Datum) :
      (∀ e ∈ before, e.IsOther name) → ¬ element.IsIterable →
      Visits name (before ++ element :: after) (.error .notIterable)

variable {name : Text} {element : Datum}

/-- **A visit passes over** the pairs with other keys. -/
theorem Visits.cons {elements : List Datum} {r : Except Failure Datum}
    (helement : element.IsOther name) (h : Visits name elements r) :
    Visits name (element :: elements) r := by
  have hcons {before : List Datum} (hbefore : ∀ e ∈ before, e.IsOther name) :
      ∀ e ∈ element :: before, e.IsOther name := List.forall_mem_cons.2 ⟨helement, hbefore⟩
  cases h with
  | absent hall => exact .absent (hcons hall)
  | found after hbefore hpair => exact .found after (hcons hbefore) hpair
  | uneven after hbefore hiterable hpair => exact .uneven after (hcons hbefore) hiterable hpair
  | solid after hbefore hiterable => exact .solid after (hcons hbefore) hiterable

theorem firstPair_cons_of_isOther (h : element.IsOther name) (rest : List Datum) :
    firstPair name (element :: rest) = firstPair name rest := by
  obtain ⟨key, d, hpair, hkey⟩ := h
  have hother : ¬ key.isText name = true := mt isText_iff.1 hkey
  rw [firstPair, hpair.toPair_eq]
  exact if_neg hother

theorem firstPair_cons_of_isPair {d : Datum} (h : element.IsPair (.text name) d)
    (rest : List Datum) : firstPair name (element :: rest) = d.coerced name := by
  have hkey : (Datum.text name).isText name = true := isText_iff.2 rfl
  rw [firstPair, h.toPair_eq]
  exact if_pos hkey

theorem firstPair_cons_of_error {failure : Failure} (h : element.toPair = .error failure)
    (rest : List Datum) : firstPair name (element :: rest) = .error failure := by
  rw [firstPair, h]
  rfl

theorem firstPair_append {before : List Datum} (h : ∀ e ∈ before, e.IsOther name)
    (rest : List Datum) : firstPair name (before ++ rest) = firstPair name rest := by
  induction before with
  | nil => rfl
  | cons e before ih =>
    obtain ⟨he, hbefore⟩ := List.forall_mem_cons.1 h
    rw [List.cons_append, firstPair_cons_of_isOther he, ih hbefore]

theorem visits_firstPair (name : Text) (elements : List Datum) :
    Visits name elements (firstPair name elements) := by
  have hnone : ∀ e ∈ ([] : List Datum), e.IsOther name := nofun
  induction elements with
  | nil => exact .absent hnone
  | cons element rest ih =>
    rcases element.toPair_cases with ⟨key, d, hpair, -⟩ | ⟨hpair, ⟨hiterable, h⟩ | ⟨hiterable, h⟩⟩
    · by_cases hkey : key = .text name
      · subst hkey
        rw [firstPair_cons_of_isPair hpair]
        show Visits name ([] ++ element :: rest) _
        exact .found rest hnone hpair
      · have hother : element.IsOther name := ⟨key, d, hpair, hkey⟩
        rw [firstPair_cons_of_isOther hother]
        exact ih.cons hother
    · rw [firstPair_cons_of_error h]
      show Visits name ([] ++ element :: rest) _
      exact .uneven rest hnone hiterable hpair
    · rw [firstPair_cons_of_error h]
      show Visits name ([] ++ element :: rest) _
      exact .solid rest hnone hiterable

/-- **The visit decides.** There is one way in which going through elements can end for a name. -/
theorem firstPair_eq_iff {elements : List Datum} {r : Except Failure Datum} :
    firstPair name elements = r ↔ Visits name elements r := by
  constructor
  · rintro rfl
    exact visits_firstPair name elements
  · intro h
    cases h with
    | absent hall =>
      rw [← List.append_nil elements, firstPair_append hall]
      rfl
    | found after hbefore hpair => rw [firstPair_append hbefore, firstPair_cons_of_isPair hpair]
    | @uneven before element after hbefore hiterable hpair =>
      rcases element.toPair_cases with ⟨key, d, h, -⟩ | ⟨-, ⟨-, h⟩ | ⟨hsolid, -⟩⟩
      · exact absurd ⟨key, d, h⟩ hpair
      · rw [firstPair_append hbefore, firstPair_cons_of_error h]
      · exact absurd hiterable hsolid
    | @solid before element after hbefore hsolid =>
      rcases element.toPair_cases with ⟨key, d, h, -⟩ | ⟨-, ⟨hiterable, -⟩ | ⟨-, h⟩⟩
      · exact absurd ⟨_, h⟩ hsolid
      · exact absurd hiterable hsolid
      · rw [firstPair_append hbefore, firstPair_cons_of_error h]

/-- A visit does not go beyond an element that is no pair with another key. -/
theorem firstPair_append_cons (h : ¬ element.IsOther name) (before after after' : List Datum) :
    firstPair name (before ++ element :: after) = firstPair name (before ++ element :: after') := by
  induction before with
  | nil =>
    rcases element.toPair_cases with ⟨key, d, hpair, -⟩ | ⟨-, ⟨-, hfails⟩ | ⟨-, hfails⟩⟩
    · by_cases hkey : key = .text name
      · subst hkey
        exact (firstPair_cons_of_isPair hpair after).trans
          (firstPair_cons_of_isPair hpair after').symm
      · exact absurd ⟨key, d, hpair, hkey⟩ h
    all_goals
      exact (firstPair_cons_of_error hfails after).trans
        (firstPair_cons_of_error hfails after').symm
  | cons e before ih =>
    simp only [List.cons_append, firstPair, ih]

end Lookup

/-! ## First bindings -/

namespace Assignment

variable {β : Type}

/-- For each name its first binding. -/
def firsts : List (Text × β) → Assignment β
  | [] => []
  | (name, b) :: rest => (name, b) :: unset name (firsts rest)

theorem get?_firsts (name : Text) (bindings : List (Text × β)) :
    get? name (firsts bindings) = get? name bindings := by
  induction bindings with
  | nil => rfl
  | cons binding rest ih =>
    obtain ⟨n, b⟩ := binding
    by_cases hn : n = name
    · rw [firsts, get?, get?, if_pos hn, if_pos hn]
    · rw [firsts, get?, get?, if_neg hn, if_neg hn, get?_unset, if_neg hn, ih]

theorem nodup_names_firsts (bindings : List (Text × β)) : (names (firsts bindings)).Nodup := by
  induction bindings with
  | nil => exact List.nodup_nil
  | cons binding rest ih =>
    obtain ⟨n, b⟩ := binding
    show (n :: names (unset n (firsts rest))).Nodup
    rw [names_unset]
    exact List.nodup_cons.2 ⟨by simp, ih.filter _⟩

theorem get?_eq_some_iff_first {name : Text} {b : β} {bindings : List (Text × β)} :
    get? name bindings = some b ↔
      ∃ before after, bindings = before ++ (name, b) :: after ∧ name ∉ names before := by
  constructor
  · intro h
    induction bindings with
    | nil => cases h
    | cons binding rest ih =>
      obtain ⟨n, c⟩ := binding
      by_cases hn : n = name
      · rw [get?, if_pos hn] at h
        cases h
        exact ⟨[], rest, by rw [hn]; rfl, List.not_mem_nil⟩
      · rw [get?, if_neg hn] at h
        obtain ⟨before, after, rfl, hbefore⟩ := ih h
        exact ⟨(n, c) :: before, after, rfl, not_or.2 ⟨Ne.symm hn, hbefore⟩ ∘ List.mem_cons.1⟩
  · rintro ⟨before, after, rfl, hbefore⟩
    induction before with
    | nil => exact if_pos rfl
    | cons binding before ih =>
      obtain ⟨n, c⟩ := binding
      obtain ⟨hn, hrest⟩ := not_or.1 (mt List.mem_cons.2 hbefore)
      rw [List.cons_append, get?, if_neg (Ne.symm hn)]
      exact ih hrest

/-- **The first binding of a name** is kept, and no other. -/
theorem mem_firsts_iff {name : Text} {b : β} {bindings : List (Text × β)} :
    (name, b) ∈ firsts bindings ↔
      ∃ before after, bindings = before ++ (name, b) :: after ∧ name ∉ names before := by
  rw [← get?_eq_some_iff (nodup_names_firsts bindings), get?_firsts, get?_eq_some_iff_first]

end Assignment

/-! ## Expansion -/

open Assignment Lookup

namespace Lookup

variable {bindings : List (Text × Datum)} {elements : List Datum}

/-- **Pairs with names for keys** answer with their first binding of a name. -/
theorem get_pairs (h : List.Forall₂ (fun b e => Datum.IsPair e (.text b.1) b.2) bindings elements)
    (name : Text) : (pairs elements).get name = answer name (get? name bindings) := by
  show firstPair name elements = _
  induction h with
  | nil => rfl
  | @cons b e bindings elements hpair _ ih =>
    by_cases hname : b.1 = name
    · subst hname
      rw [firstPair_cons_of_isPair hpair, get?, if_pos rfl]
      rfl
    · have hkey : Datum.text b.1 ≠ .text name := fun hkey => hname (Datum.text.inj hkey)
      rw [firstPair_cons_of_isOther ⟨_, _, hpair, hkey⟩, ih, get?, if_neg hname]

theorem get_pairs_eq_get_mapping
    (h : List.Forall₂ (fun b e => Datum.IsPair e (.text b.1) b.2) bindings elements) (name : Text) :
    (pairs elements).get name =
      (mapping (ofEntries ((firsts bindings).map fun b => (.text b.1, b.2)))).get name := by
  rw [get_pairs h, get_mapping, ofEntries_texts, get?_ofList (nodup_names_firsts bindings),
    get?_firsts]

end Lookup

theorem Template.expandWith_congr (t : Template) {vars vars' : Variables} {l l' : Lookup}
    (h : vars.base = .ok l) (h' : vars'.base = .ok l') (hget : ∀ name, l.get name = l'.get name)
    (overrides : Assignment Datum) :
    t.expandWith vars overrides = t.expandWith vars' overrides := by
  rw [expandWith, expandWith, Variables.toLookup, Variables.toLookup, h, h']
  cases overrides with
  | nil => exact t.expand_eq_of_get_eq hget
  | cons binding rest =>
    refine t.expand_eq_of_get_eq fun name => ?_
    rw [get_chain_mapping, get_chain_mapping, hget]

/-- **Of several pairs with one name, the first counts.** Going through elements for a name ends at
the first one that is not a pair with another key: with its failure, or with the datum beside the
name, which alone is coerced and leaves the name undefined if it is null. Without such an element
the name is undefined, and what stands behind one never matters. Hence every template expands under
pairs with names for keys as it does under the mapping that keeps the first pair of each name: to
the same text, or with the same failure. -/
theorem expandWith_of_pairs :
    (∀ (elements : List Datum) (name : Text) (r : Except Failure Datum),
      (pairs elements).get name = r ↔ Visits name elements r) ∧
    (∀ (name : Text) (d : Datum), d.coerced name = .ok .null ↔ d = .null) ∧
    (∀ (name : Text) (element : Datum), ¬ element.IsOther name →
      ∀ before after after' : List Datum, (pairs (before ++ element :: after)).get name =
        (pairs (before ++ element :: after')).get name) ∧
    ∀ (bindings : List (Text × Datum)) (elements : List Datum),
      List.Forall₂ (fun b e => Datum.IsPair e (.text b.1) b.2) bindings elements →
      (∀ (t : Template) (kind : SeqKind) (kind' : MapKind) (overrides : Assignment Datum),
        t.expandWith (.data (.seq kind elements)) overrides =
          t.expandWith (.data (.map kind' ((firsts bindings).map fun b => (.text b.1, b.2))))
            overrides) ∧
      (names (firsts bindings)).Nodup ∧
      ∀ (name : Text) (d : Datum), (name, d) ∈ firsts bindings ↔
        ∃ before after, bindings = before ++ (name, d) :: after ∧ name ∉ names before := by
  refine ⟨fun elements name r => firstPair_eq_iff, fun name d => Datum.coerced_eq_ok_null_iff,
    fun name element h before after after' => firstPair_append_cons h before after after',
    fun bindings elements h => ⟨fun t kind kind' overrides => ?_, nodup_names_firsts bindings,
      fun name d => mem_firsts_iff⟩⟩
  exact t.expandWith_congr rfl rfl (get_pairs_eq_get_mapping h) overrides

/-- A name bound first to null and then by a text of two characters, and an object behind the datum
that hides it. Then a range of two numbers, which is a pair with another key, and two elements that
are no pairs, which fail a name that is not found before them. -/
theorem expandWith_of_pairs_null :
    let t : Template := ⟨[.expression ⟨none, [⟨['x'], none⟩, ⟨['y'], none⟩]⟩], {}⟩
    let object : Datum :=
      .foreign { typeName := "object".toList, written := .ok "<object>".toList }
    let range (n : Nat) : Datum :=
      .foreign {
        typeName := "range".toList
        members := some ((List.range n).map fun (i : Nat) => Datum.int i)
        written := .ok ("range(0, ".toList ++ Nat.toDigits 10 n ++ [')']) }
    let bindings : List (Text × Datum) :=
      [(['x'], .null), (['x'], .text ['a']), (['y'], .bool true), (['y'], object)]
    let front : List Datum := [.seq .tuple [.text ['x'], .null], .text ['x', 'a']]
    let y : Datum := .seq .list [.text ['y'], .bool true]
    let elements := front ++ [y, .seq .tuple [.text ['y'], object]]
    List.Forall₂ (fun b e => Datum.IsPair e (.text b.1) b.2) bindings elements ∧
      firsts bindings = [(['x'], .null), (['y'], .bool true)] ∧
      t.expandWith (.data (.seq .list elements)) [] = .ok "true".toList ∧ ¬ y.IsOther ['y'] ∧
      (pairs (front ++ range 2 :: y :: [.int 5])).get ['y'] =
        .ok (.value (.string "true".toList)) ∧
      (pairs (front ++ range 2 :: y :: [.int 5])).get ['z'] = .error .notIterable ∧
      (pairs (front ++ range 2 :: range 3 :: [y])).get ['y'] = .error .notAPair := by
  intro t object range bindings front y elements
  obtain ⟨hvisits, -, hbeyond, hpairs⟩ := expandWith_of_pairs
  have helements : List.Forall₂ (fun b e => Datum.IsPair e (.text b.1) b.2) bindings elements :=
    .cons (.seq ..) (.cons (.text ['x', 'a']) (.cons (.seq ..) (.cons (.seq ..) .nil)))
  have hy : ¬ y.IsOther ['y'] := by
    rintro ⟨key, d, hpair, hkey⟩
    have hmembers : some [Datum.text ['y'], .bool true] = some [key, d] :=
      Datum.members_eq_some_iff.2 hpair
    cases hmembers
    exact hkey rfl
  have hfront : ∀ name, name ≠ ['x'] → ∀ e ∈ front ++ [range 2], e.IsOther name := by
    intro name hname e he
    have hkey : Datum.text ['x'] ≠ .text name := fun h => hname (Datum.text.inj h).symm
    fin_cases he
    · exact ⟨_, _, .seq .., hkey⟩
    · exact ⟨_, _, .text ['x', 'a'], hkey⟩
    · exact ⟨_, _, .object rfl, nofun⟩
  have hothers : ∀ e ∈ front ++ [range 2, y], e.IsOther ['z'] := by
    intro e he
    rcases List.mem_append.1 (show e ∈ (front ++ [range 2]) ++ [y] from he) with he | he
    · exact hfront _ (by decide) e he
    · obtain rfl := List.mem_singleton.1 he
      exact ⟨_, _, .seq .., by simp⟩
  have hthree : ¬ ∃ key d, (range 3).IsPair key d := by
    rintro ⟨key, d, hpair⟩
    cases hpair with
    | object h => cases h
  obtain ⟨hexpand, -, -⟩ := hpairs bindings elements helements
  refine ⟨helements, rfl, ?_, hy, ?_, (hvisits _ _ _).2 (.solid [] hothers ?_),
    (hvisits _ _ _).2 (.uneven [y] (hfront _ (by decide)) ⟨_, .object rfl⟩ hthree)⟩
  · rw [hexpand t .list .plain []]
    decide
  · exact (hbeyond ['y'] y hy (front ++ [range 2]) [.int 5] []).trans rfl
  · rintro ⟨ms, hms⟩
    cases hms

end LinkTemplate
