import LinkTemplate.Expansion
import LinkTemplate.Proofs.RoundTrip

/-!
# Texts behind texts

Reading looks ahead for braces over the whole rest of a text, so what stands behind a text might
change how it is read. It does so in two ways only.

**An unclosed brace** takes along whatever follows. Behind any other text, the spans of the two
texts are a cutting of both together, up to one place.

**The seam.** Plain text in front of plain text is one span and becomes one literal. Items are
`joined` in this way, and in no other.

A text has only one cutting, so nothing has to be scanned again: it is enough that the spans on
both sides of the seam may stand there. As `joined` does not change what items are worth, texts and
expansions of two templates follow one after the other, too.

Main results: `Span.Cuts.append`, `readItems_append`, `expandItems_joined`.
-/

namespace LinkTemplate

open Text

/-! ## Joined items -/

namespace Item

instance (i : Item) : Decidable i.IsPlain :=
  match i with
  | literal text => decidable_of_iff (text ≠ [] ∧ '\x7b' ∉ text) (by simp [IsPlain])
  | expression _ => isFalse (by simp [IsPlain])

/-- Items behind items. Two plain literals that meet are one. -/
def joined (items more : List Item) : List Item :=
  match items.getLast?, more with
  | some i, j :: rest =>
    if i.IsPlain ∧ j.IsPlain then items.dropLast ++ literal (i.toText ++ j.toText) :: rest
    else items ++ more
  | _, _ => items ++ more

theorem joined_of_isPlain {i j : Item} (hi : i.IsPlain) (hj : j.IsPlain) (items more : List Item) :
    joined (items ++ [i]) (j :: more) = items ++ literal (i.toText ++ j.toText) :: more := by
  simp [joined, hi, hj]

theorem joined_eq_append {items more : List Item}
    (h : ∀ i ∈ items.getLast?, ∀ j ∈ more.head?, i.MayPrecede j) :
    joined items more = items ++ more := by
  unfold joined
  split
  · next i j rest hlast =>
    rw [if_neg (h i hlast j rfl).2]
  · rfl

theorem flatMap_toText_joined (items more : List Item) :
    (joined items more).flatMap toText = items.flatMap toText ++ more.flatMap toText := by
  unfold joined
  split
  · next i j rest hlast =>
    obtain ⟨init, rfl⟩ := List.getLast?_eq_some_iff.1 hlast
    split_ifs
    · simp [toText]
    · rw [List.flatMap_append]
  · rw [List.flatMap_append]

end Item

/-! ## Cuttings of two texts -/

namespace Span

/-- Cuttings of two texts are one of both together if the spans at the seam may stand there. -/
theorem Cuts.append {spans others : List Span} {text more : Text} (h : Cuts spans text)
    (hmore : Cuts others more)
    (hseam : ∀ s ∈ spans.getLast?, ∀ t ∈ others.head?, MayPrecede s t) :
    Cuts (spans ++ others) (text ++ more) := by
  refine ⟨?_, fun s hs => ?_, List.isChain_append.2 ⟨h.chain, hmore.chain, hseam⟩⟩
  · rw [List.flatMap_append, h.toText, hmore.toText]
  · rcases List.mem_append.1 hs with hs | hs
    · exact h.proper s hs
    · exact hmore.proper s hs

theorem Cuts.append_plain {spans others : List Span} {text more a b : Text}
    (h : Cuts (spans ++ [plain a]) text) (hmore : Cuts (plain b :: others) more) :
    Cuts (spans ++ plain (a ++ b) :: others) (text ++ more) := by
  obtain ⟨hspans, -, hbefore⟩ := List.isChain_append.1 h.chain
  obtain ⟨hbehind, hothers⟩ := List.isChain_cons.1 hmore.chain
  have ha : (plain a).IsProper := h.proper _ (by simp)
  have hb : (plain b).IsProper := hmore.proper _ (by simp)
  refine ⟨?_, fun s hs => ?_, List.isChain_append.2 ⟨hspans, ?_, ?_⟩⟩
  · rw [← h.toText, ← hmore.toText]
    simp [Span.toText]
  · rcases List.mem_append.1 hs with hs | hs
    · exact h.proper s (List.mem_append_left _ hs)
    rcases List.mem_cons.1 hs with rfl | hs
    · refine ⟨by simp [ha.1], fun hopen => ?_⟩
      rcases List.mem_append.1 hopen with hopen | hopen
      · exact ha.2 hopen
      · exact hb.2 hopen
    · exact hmore.proper s (List.mem_cons_of_mem _ hs)
  -- What may stand beside plain text does not depend on the text.
  · refine List.isChain_cons.2 ⟨fun t ht => ?_, hothers⟩
    have hnext := hbehind t ht
    cases t <;> exact hnext
  · rintro s hs t ⟨⟩
    have hlast := hbefore s hs (plain a) rfl
    cases s <;> exact hlast

end Span

namespace Template

/-- **Reading a text behind a text** joins their items, unless the first ends in a brace that is
not closed. -/
theorem readItems_append {text more : Text} {items others : List Item}
    (h : readItems text = .ok items) (hmore : readItems more = .ok others)
    (hend : ∀ i ∈ items.getLast?, ¬ i.IsDangling) :
    readItems (text ++ more) = .ok (Item.joined items others) := by
  have hcuts := Span.cuts_scan text
  have hcuts' := Span.cuts_scan more
  rw [readItems_eq_ok_iff] at h hmore ⊢
  generalize Span.scan text = spans at h hcuts
  generalize Span.scan more = spans' at hmore hcuts'
  by_cases hseam : ∀ s ∈ spans.getLast?, ∀ t ∈ spans'.head?, Span.MayPrecede s t
  · have hboth := hcuts.append hcuts' hseam
    have hgives := List.rel_append h hmore
    -- Neighbours among the spans are neighbours among the items.
    have hchain := (Span.isChain_iff hboth.proper hgives).1 hboth.chain
    rw [← hboth.eq_scan, Item.joined_eq_append (List.isChain_append.1 hchain).2.2]
    exact hgives
  · simp only [not_forall] at hseam
    obtain ⟨s, hs, t, ht, hnot⟩ := hseam
    obtain ⟨front, rfl⟩ := List.getLast?_eq_some_iff.1 hs
    obtain ⟨back, rfl⟩ := List.head?_eq_some_iff.1 ht
    obtain ⟨init, last, rfl, hfront, hlast⟩ := forall₂_append_left_iff.1 h
    obtain ⟨i, tail, hi, hnil, rfl⟩ := List.forall₂_cons_left_iff.1 hlast
    obtain rfl := List.forall₂_nil_left_iff.1 hnil
    obtain ⟨j, rest, hj, hback, rfl⟩ := List.forall₂_cons_left_iff.1 hmore
    have hproper : s.IsProper := hcuts.proper s (by simp)
    have hproper' : t.IsProper := hcuts'.proper t (by simp)
    have hclosed : ¬ i.IsDangling := hend i (by simp)
    -- The brace is closed, so the only spans that may not stand side by side are plain ones.
    have hplain : i.IsPlain ∧ j.IsPlain := by
      rw [Span.Gives.mayPrecede_iff hproper hproper' hi hj, Item.MayPrecede,
        not_and_not_right] at hnot
      exact hnot hclosed
    obtain ⟨a, rfl⟩ := (hi.isPlain_iff hproper).1 hplain.1
    obtain ⟨b, rfl⟩ := (hj.isPlain_iff hproper').1 hplain.2
    cases hi
    cases hj
    rw [Item.joined_of_isPlain hplain.1 hplain.2, ← (hcuts.append_plain hcuts').eq_scan]
    exact List.rel_append hfront (.cons (.plain (a ++ b)) hback)

end Template

/-! ## Expansions -/

theorem expandItems_append (encodeLiterals : Bool) (items more : List Item) (l : Lookup) :
    expandItems encodeLiterals (items ++ more) l = do
      return (← expandItems encodeLiterals items l) ++ (← expandItems encodeLiterals more l) := by
  simp [expandItems]

theorem expandItems_literal_cons (text : Text) (items : List Item) (l : Lookup) :
    expandItems false (.literal text :: items) l = do
      return text ++ (← expandItems false items l) := by
  have hliteral : Item.expand false l (.literal text) = pure text := rfl
  simp [expandItems, hliteral]

/-- Literals that are not encoded may be cut anywhere. -/
theorem expandItems_joined (items more : List Item) (l : Lookup) :
    expandItems false (Item.joined items more) l = do
      return (← expandItems false items l) ++ (← expandItems false more l) := by
  have hseam (a b : Text) (rest : List Item) :
      expandItems false (.literal (a ++ b) :: rest) l =
        expandItems false ([.literal a] ++ .literal b :: rest) l := by
    rw [List.singleton_append, expandItems_literal_cons, expandItems_literal_cons,
      expandItems_literal_cons]
    simp
  rw [← expandItems_append]
  unfold Item.joined
  split
  · next i j rest hlast =>
    split_ifs with hplain
    · obtain ⟨init, rfl⟩ := List.getLast?_eq_some_iff.1 hlast
      obtain ⟨⟨a, rfl, -⟩, b, rfl, -⟩ := hplain
      rw [List.dropLast_concat, List.append_assoc, expandItems_append false init,
        expandItems_append false init, ← hseam]
      rfl
    · rfl
  · rfl

/-! ## Templates -/

namespace Template

/-- **A text behind a text is one template behind the other.** If both are read, and the first
does not end in a brace that is not closed, then both together are read, and as the items of the
first and those of the second, in which plain literals that meet are one. So it is written as the
two are written, one after the other. If literals are not encoded it expands in the same way under
every lookup, and fails where the first does or else where the second does. -/
theorem parse_append {settings : Settings} {text more : Text} {t u : Template}
    (ht : parse settings text = .ok t) (hu : parse settings more = .ok u)
    (hend : ∀ i ∈ t.items.getLast?, ¬ i.IsDangling) :
    ∃ w, parse settings (text ++ more) = .ok w ∧ w.items = Item.joined t.items u.items ∧
      (∃ before after, t.text? = .ok before ∧ u.text? = .ok after ∧
        w.text? = .ok (before ++ after)) ∧
      (settings.encodeLiterals = false →
        (∀ l, w.expand l = do return (← t.expand l) ++ (← u.expand l)) ∧
        ∀ vars overrides, w.expandWith vars overrides = do
          return (← t.expandWith vars overrides) ++ (← u.expandWith vars overrides)) := by
  obtain ⟨hitems, hsettings⟩ := parse_eq_ok_iff.1 ht
  obtain ⟨hitems', hsettings'⟩ := parse_eq_ok_iff.1 hu
  have hboth := readItems_append hitems hitems' hend
  have hw : parse settings (text ++ more) = .ok ⟨Item.joined t.items u.items, settings⟩ :=
    parse_eq_ok_iff.2 ⟨hboth, rfl⟩
  refine ⟨_, hw, rfl, ⟨t.toText, u.toText, (parse_toText ht).1, (parse_toText hu).1, ?_⟩,
    fun hplain => ?_⟩
  · rw [(parse_toText hw).1, toText, Item.flatMap_toText_joined]
    rfl
  · have hexpand (l : Lookup) :
        expand ⟨Item.joined t.items u.items, settings⟩ l = do
          return (← t.expand l) ++ (← u.expand l) := by
      unfold expand
      rw [hsettings, hsettings', hplain, expandItems_joined]
    refine ⟨hexpand, fun vars overrides => ?_⟩
    unfold expandWith
    cases vars.toLookup overrides with
    | error failure => rfl
    | ok l => exact hexpand l

/-- Plain text meets plain text behind an expression, and only the second text is not closed. A set
is no value, so a lookup that has one fails at the second expression. -/
theorem parse_append_seam :
    let t : Template := ⟨[.literal "a\x7d".toList, .expression ⟨none, [⟨['x'], none⟩]⟩,
      .literal ['b']], {}⟩
    let u : Template := ⟨[.literal ['c'], .expression ⟨some .formQuery, [⟨['y'], none⟩]⟩,
      .literal "\x7bz".toList], {}⟩
    let set : Datum :=
      .foreign { typeName := "set".toList, written := .ok "\x7b1\x7d".toList, isKey := false }
    parse {} "a\x7d\x7bx\x7db".toList = .ok t ∧ parse {} "c\x7b?y\x7d\x7bz".toList = .ok u ∧
      (∀ i ∈ t.items.getLast?, ¬ i.IsDangling) ∧
      ∃ w, parse {} "a\x7d\x7bx\x7dbc\x7b?y\x7d\x7bz".toList = .ok w ∧
        w.items = [.literal "a\x7d".toList, .expression ⟨none, [⟨['x'], none⟩]⟩,
          .literal ['b', 'c'], .expression ⟨some .formQuery, [⟨['y'], none⟩]⟩,
          .literal "\x7bz".toList] ∧
        w.text? = .ok "a\x7d\x7bx\x7dbc\x7b?y\x7d\x7bz".toList ∧
        w.expand (.mapping [(['x'], .text ['1']), (['y'], .null)]) = .ok "a\x7d1bc\x7bz".toList ∧
        w.expand (.mapping [(['y'], set)]) =
          .error (.unusable "set".toList (some ['y'])) := by
  intro t u set
  have ht : parse {} "a\x7d\x7bx\x7db".toList = .ok t := by cbv
  have hu : parse {} "c\x7b?y\x7d\x7bz".toList = .ok u := by cbv
  have hend : ∀ i ∈ t.items.getLast?, ¬ i.IsDangling := by
    rintro i ⟨⟩
    simp [Item.IsDangling]
  obtain ⟨w, hw, hitems, ⟨before, after, hbefore, hafter, htext⟩, hexpand⟩ :=
    parse_append ht hu hend
  obtain ⟨hlookup, -⟩ := hexpand rfl
  have htext₁ : t.text? = .ok "a\x7d\x7bx\x7db".toList := by cbv
  have htext₂ : u.text? = .ok "c\x7b?y\x7d\x7bz".toList := by cbv
  obtain rfl : before = _ := Except.ok.inj (hbefore.symm.trans htext₁)
  obtain rfl : after = _ := Except.ok.inj (hafter.symm.trans htext₂)
  have hconcat : "a\x7d\x7bx\x7db".toList ++ "c\x7b?y\x7d\x7bz".toList =
      "a\x7d\x7bx\x7dbc\x7b?y\x7d\x7bz".toList := by decide
  rw [hconcat] at hw htext
  have hjoined : Item.joined t.items u.items = [.literal "a\x7d".toList,
      .expression ⟨none, [⟨['x'], none⟩]⟩, .literal ['b', 'c'],
      .expression ⟨some .formQuery, [⟨['y'], none⟩]⟩, .literal "\x7bz".toList] := by decide
  refine ⟨ht, hu, hend, w, hw, hitems.trans hjoined, htext, ?_, ?_⟩
  · rw [hlookup]
    decide
  · rw [hlookup]
    decide

/-- Behind a brace that is not closed, a text is taken along. -/
example : readItems "a\x7bx".toList = .ok [.literal ['a'], .literal "\x7bx".toList] ∧
    readItems "a\x7bx\x7d".toList = .ok [.literal ['a'], .expression ⟨none, [⟨['x'], none⟩]⟩] := by
  constructor <;> cbv

end Template

end LinkTemplate
