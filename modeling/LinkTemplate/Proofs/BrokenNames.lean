import LinkTemplate.Proofs.LookAhead

/-!
# Broken names

A name is read from its start as long as a name character or a triplet comes next. What is not a
name breaks at a position where neither does, and there is only one such position. The fault says
which character stands there.

**The break** (`BreaksAt`). In front of the position stand name characters and triplets, and the
rest of the text goes on with neither. What stands in front of a position can be read in one way
only, because a `%` is no name character. So the reader comes by every position with a name in front
of it, and a second break could not be reached: `BreaksAt.unique`.

**By position** (`faultAt`). The same reading, with a position that moves over the text. It looks at
the character there and asks the probe about a `%`, and both refuse to answer outside the text. They
always answer, also for a `%` near the end.

Main results: `faultAt_eq`, `nameFault?_eq_some_iff`, `broken_name`.
-/

namespace LinkTemplate.Grammar

open Text Decimal Percent

/-! ## Breaks -/

/-- A name goes on with this text. -/
inductive GoesOn : Text → Prop
  | char {c : Char} {rest : Text} : NameChar c → GoesOn (c :: rest)
  | triplet {a b : Char} {rest : Text} : a.isHexDigit → b.isHexDigit →
      GoesOn ('%' :: a :: b :: rest)

/-- A name goes up to this position and not on from it. -/
structure BreaksAt (text : Text) (i : Nat) : Prop where
  before : NameText (text.take i)
  stops : ¬ GoesOn (text.drop i)

/-- The fault of a character that no name goes on with. -/
def faultOf (position : Nat) (c : Char) : Fault :=
  if c = '%' then .badTriplet position else .badNameChar c

theorem nameFault?_char {c : Char} (h : NameChar c) (position : Nat) (rest : Text) :
    nameFault? position (c :: rest) = nameFault? (position + 1) rest := by
  have hpercent : c ≠ '%' := by
    rintro rfl
    exact not_nameChar_percent h
  rw [nameFault?, if_neg hpercent, if_pos ((isNameChar_iff c).2 h)]
  intro a b rest' hc
  exact absurd hc hpercent

theorem nameFault?_triplet {a b : Char} (ha : a.isHexDigit) (hb : b.isHexDigit) (position : Nat)
    (rest : Text) :
    nameFault? position ('%' :: a :: b :: rest) = nameFault? (position + 3) rest := by
  rw [nameFault?, isHexDigit_eq, isHexDigit_eq, ha, hb]
  rfl

/-- Behind what a name may begin with, reading goes on. -/
theorem NameText.nameFault?_append {front : Text} (h : NameText front) (position : Nat)
    (rest : Text) :
    nameFault? position (front ++ rest) = nameFault? (position + front.length) rest := by
  induction h generalizing position with
  | nil => rfl
  | char hc _ ih =>
    rw [List.cons_append, nameFault?_char hc, ih, List.length_cons, Nat.add_assoc, Nat.add_comm 1]
  | triplet ha hb _ ih =>
    rw [List.cons_append, List.cons_append, List.cons_append, nameFault?_triplet ha hb, ih,
      List.length_cons, List.length_cons, List.length_cons, Nat.add_assoc, Nat.add_comm 3]

/-- Where no name goes on, reading stops with a fault. -/
theorem nameFault?_of_not_goesOn {c : Char} {rest : Text} (h : ¬ GoesOn (c :: rest))
    (position : Nat) : nameFault? position (c :: rest) = some (faultOf position c) := by
  have hchar : ¬ isNameChar c = true := fun hc => h (.char ((isNameChar_iff c).1 hc))
  by_cases hpercent : c = '%'
  · subst hpercent
    match rest with
    | [] | [_] => rfl
    | a :: b :: more =>
      have hdigits : ¬ (LinkTemplate.isHexDigit a && LinkTemplate.isHexDigit b) = true := by
        rw [Bool.and_eq_true, isHexDigit_eq, isHexDigit_eq]
        exact fun ⟨ha, hb⟩ => h (.triplet ha hb)
      rw [nameFault?, if_neg hdigits]
      rfl
  · rw [nameFault?, if_neg hpercent, if_neg hchar, faultOf, if_neg hpercent]
    intro a b rest' hc
    exact absurd hc hpercent

theorem NameText.of_append {front rest : Text} (h : NameText front)
    (hall : NameText (front ++ rest)) : NameText rest := by
  rw [← nameFault?_eq_none_iff 0, h.nameFault?_append] at hall
  exact (nameFault?_eq_none_iff _ rest).1 hall

theorem NameText.goesOn_append {text : Text} (h : NameText text) (hne : text ≠ [])
    (rest : Text) : GoesOn (text ++ rest) := by
  cases h with
  | nil => exact absurd rfl hne
  | char hc _ => exact .char hc
  | triplet ha hb _ => exact .triplet ha hb

/-- Every text has a break, if only at its end. -/
theorem exists_breaksAt (text : Text) : ∃ i, BreaksAt text i := by
  by_cases h : GoesOn text
  · cases h with
    | @char c rest hc =>
      obtain ⟨i, hi⟩ := exists_breaksAt rest
      exact ⟨i + 1, .char hc hi.before, hi.stops⟩
    | @triplet a b rest ha hb =>
      obtain ⟨i, hi⟩ := exists_breaksAt rest
      exact ⟨i + 3, .triplet ha hb hi.before, hi.stops⟩
  · exact ⟨0, .nil, h⟩
termination_by text.length

namespace BreaksAt

variable {text : Text} {i j : Nat}

theorem lt_length (h : BreaksAt text i) (htext : ¬ NameText text) : i < text.length := by
  by_contra hlength
  have hbefore := h.before
  rw [List.take_of_length_le (Nat.le_of_not_lt hlength)] at hbefore
  exact htext hbefore

theorem not_lt (h : BreaksAt text i) (h' : BreaksAt text j) (hj : j < text.length) : ¬ i < j := by
  intro hij
  have hsplit : text.take j = text.take i ++ (text.drop i).take (j - i) := by
    rw [← List.take_add, Nat.add_sub_cancel' hij.le]
  have hbetween : NameText ((text.drop i).take (j - i)) :=
    h.before.of_append (hsplit ▸ h'.before)
  have hne : (text.drop i).take (j - i) ≠ [] := by
    rw [Ne, List.take_eq_nil_iff, List.drop_eq_nil_iff]
    omega
  have hgoes := hbetween.goesOn_append hne ((text.drop i).drop (j - i))
  rw [List.take_append_drop] at hgoes
  exact h.stops hgoes

/-- **What is no name breaks once.** -/
theorem unique (h : BreaksAt text i) (h' : BreaksAt text j) (htext : ¬ NameText text) : i = j :=
  Nat.le_antisymm (Nat.le_of_not_lt (h'.not_lt h (h.lt_length htext)))
    (Nat.le_of_not_lt (h.not_lt h' (h'.lt_length htext)))

theorem nameFault?_eq {c : Char} (h : BreaksAt text i) (hc : text[i]? = some c) (position : Nat) :
    nameFault? position text = some (faultOf (position + i) c) := by
  obtain ⟨hlt, hget⟩ := List.getElem?_eq_some_iff.1 hc
  have hdrop : text.drop i = c :: text.drop (i + 1) := by
    rw [List.drop_eq_getElem_cons hlt, hget]
  have hstops := h.stops
  rw [hdrop] at hstops
  have hlength : (text.take i).length = i := List.length_take_of_le hlt.le
  calc nameFault? position text
      = nameFault? position (text.take i ++ text.drop i) := by rw [List.take_append_drop]
    _ = nameFault? (position + i) (c :: text.drop (i + 1)) := by
        rw [h.before.nameFault?_append, hlength, hdrop]
    _ = some (faultOf (position + i) c) := nameFault?_of_not_goesOn hstops _

end BreaksAt

/-- **A name has a fault** exactly if it breaks, and it is that of the character there. -/
theorem nameFault?_eq_some_iff {text : Text} {fault : Fault} :
    nameFault? 0 text = some fault ↔
      ∃ i c, (∀ j, BreaksAt text j ↔ j = i) ∧ text[i]? = some c ∧ fault = faultOf i c := by
  constructor
  · intro h
    have htext : ¬ NameText text := by
      rw [← nameFault?_eq_none_iff 0, h]
      exact Option.some_ne_none fault
    obtain ⟨i, hi⟩ := exists_breaksAt text
    have hget := List.getElem?_eq_getElem (hi.lt_length htext)
    have hfault := hi.nameFault?_eq hget 0
    rw [h, Nat.zero_add] at hfault
    refine ⟨i, _, fun j => ⟨fun hj => hj.unique hi htext, ?_⟩, hget, Option.some.inj hfault⟩
    rintro rfl
    exact hi
  · rintro ⟨i, c, hbreak, hc, rfl⟩
    have hfault := ((hbreak i).2 rfl).nameFault?_eq hc 0
    rwa [Nat.zero_add] at hfault

/-! ## Reading by position -/

/-- The first fault from a position on, found by looking at one position after the other. No answer
if one that is looked at lies outside the text. -/
def faultAt (text : Text) (i : Nat) : Option (Option Fault) :=
  if _h : i < text.length then do
    let c ← charAt? text i
    if c = '%' then
      if ← tripletAt text i then faultAt text (i + 3) else return some (.badTriplet i)
    else if isNameChar c then faultAt text (i + 1)
    else return some (.badNameChar c)
  else return none
termination_by text.length - i

/-- A whole text as a name, read by position. -/
def readNameAt (text : Text) : Option (Except Rejection Text) :=
  if text.isEmpty then some (.error (.malformed .emptyName))
  else (faultAt text 0).map fun
    | none => .ok text
    | some fault => .error (.malformed fault)

/-- **Reading by position never looks outside the text**, and finds the same fault. -/
theorem faultAt_eq (text : Text) (i : Nat) :
    faultAt text i = some (nameFault? i (text.drop i)) := by
  rw [faultAt]
  by_cases h : i < text.length
  · have hchar : charAt? text i = some text[i] := by
      rw [charAt?_natCast, List.getElem?_eq_getElem h]
    have hdrop : text.drop i = text[i] :: text.drop (i + 1) := List.drop_eq_getElem_cons h
    have hbehind : (text.drop (i + 1)).drop 2 = text.drop (i + 3) := List.drop_drop
    rw [dif_pos h, hchar, tripletAt_natCast, faultAt_eq text (i + 1), faultAt_eq text (i + 3),
      hdrop, ← hbehind]
    -- What comes next is decided by the first character of what is left.
    generalize text[i] = c, text.drop (i + 1) = rest
    simp only [Option.bind_eq_bind, Option.bind_some, Option.pure_def]
    by_cases hpercent : c = '%'
    · subst hpercent
      have hprobe : nameFault? i ('%' :: rest) =
          if tripletAt ('%' :: rest) (0 : Nat) = some true then nameFault? (i + 3) (rest.drop 2)
          else some (.badTriplet i) := nameFault?_percent i rest
      rw [if_pos rfl, hprobe, tripletAt_natCast, List.drop_zero]
      cases startsTriplet ('%' :: rest) <;> rfl
    · rw [if_neg hpercent]
      by_cases hc : isNameChar c = true
      · rw [if_pos hc, nameFault?_char ((isNameChar_iff c).1 hc)]
      · have hstops : ¬ GoesOn (c :: rest) := by
          rintro (hgoes | _)
          · exact hc ((isNameChar_iff c).2 hgoes)
          · exact hpercent rfl
        rw [if_neg hc, nameFault?_of_not_goesOn hstops, faultOf, if_neg hpercent]
  · rw [dif_neg h, List.drop_eq_nil_of_le (Nat.le_of_not_lt h)]
    rfl
termination_by text.length - i

theorem readNameAt_eq (text : Text) : readNameAt text = some (readName text) := by
  rw [readNameAt, readName, faultAt_eq, List.drop_zero]
  by_cases hempty : text.isEmpty = true
  · rw [if_pos hempty, if_pos hempty]
  · rw [if_neg hempty, if_neg hempty]
    cases nameFault? 0 text <;> rfl

theorem readName_eq_error_iff {text : Text} (hne : text ≠ []) {rejection : Rejection} :
    readName text = .error rejection ↔
      ∃ fault, nameFault? 0 text = some fault ∧ rejection = .malformed fault := by
  rw [readName, if_neg (mt List.isEmpty_iff.1 hne)]
  cases nameFault? 0 text with
  | none => simp
  | some fault => simp [eq_comm]

theorem message_faultOf (position : Nat) (c : Char) :
    (faultOf position c).message =
      if c = '%' then "bad pct-encoded octet at ".toList ++ natText position
      else "invalid varname character ".toList ++ quoted [c] := by
  rw [faultOf]
  split <;> rfl

/-- **A rejected name is broken at one place, and the fault says where.** Reading a text as a name
looks at no position outside it, and neither does the probe for triplets. A text that is not empty
is rejected exactly if it breaks at a single position, with a character there. If this is a `%`, the
fault is a bad triplet and tells the position, and otherwise it is the character and shows it in
quotes. -/
theorem broken_name (text : Text) :
    readNameAt text = some (readName text) ∧
      (∀ i : Nat, tripletAt text i = some (startsTriplet (text.drop i))) ∧
      (∀ rejection, text ≠ [] → (readName text = .error rejection ↔
        ∃ i c, (∀ j, BreaksAt text j ↔ j = i) ∧ text[i]? = some c ∧
          rejection = .malformed (faultOf i c))) ∧
      ∀ i c, (faultOf i c).message =
        if c = '%' then "bad pct-encoded octet at ".toList ++ natText i
        else "invalid varname character ".toList ++ quoted [c] := by
  refine ⟨readNameAt_eq text, tripletAt_natCast text, fun rejection hne => ?_, message_faultOf⟩
  rw [readName_eq_error_iff hne]
  constructor
  · rintro ⟨fault, hfault, rfl⟩
    obtain ⟨i, c, hbreak, hc, rfl⟩ := nameFault?_eq_some_iff.1 hfault
    exact ⟨i, c, hbreak, hc, rfl⟩
  · rintro ⟨i, c, hbreak, hc, rfl⟩
    exact ⟨_, nameFault?_eq_some_iff.2 ⟨i, c, hbreak, hc, rfl⟩, rfl⟩

/-- Behind a triplet and a character, a `%` has one digit left. The digits of the triplet are no
break, and the `%` is one although a name character follows. -/
theorem broken_name_at_end :
    let text := "%2Fa%4".toList
    text ≠ [] ∧ readName text = .error (.malformed (.badTriplet 4)) ∧
      readNameAt text = some (readName text) ∧ tripletAt text (4 : Nat) = some false ∧
      (∀ j, BreaksAt text j ↔ j = 4) ∧
      (Fault.badTriplet 4).message = "bad pct-encoded octet at 4".toList := by
  intro text
  have hne : text ≠ [] := by decide
  have hread : readName text = .error (.malformed (.badTriplet 4)) := by decide
  obtain ⟨hposition, hprobe, hfault, hmessage⟩ := broken_name text
  obtain ⟨i, c, hbreak, hc, hrejection⟩ := (hfault _ hne).1 hread
  have hat : i = 4 := by
    by_cases hpercent : c = '%'
    · simpa [faultOf, hpercent, eq_comm] using hrejection
    · simp [faultOf, hpercent] at hrejection
  subst hat
  refine ⟨hne, hread, hposition, (hprobe 4).trans (by decide), hbreak, ?_⟩
  exact (hmessage 4 '%').trans (by decide)

end LinkTemplate.Grammar
