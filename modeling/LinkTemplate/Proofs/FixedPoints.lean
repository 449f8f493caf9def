import LinkTemplate.Proofs.Encoded

/-!
# Texts that encoding leaves alone

A policy decides which characters stand for themselves, and the encoder keeps triplets. So there
are texts in which it finds nothing to do. They can be told by their positions alone.

**Settled texts** (`IsSettled`). Every `%` has two hex digits behind it, and every character that
is in none of these triplets is allowed. Digits are no `%`, so no triplet begins within another,
and a settled text may be taken apart behind any triplet and behind any character in front of it:
`isSettled_triplet_iff`, `isSettled_cons_iff`.

**Fixed points.** The settled texts are those that the encoder writes, and those that it leaves as
they are. This does not depend on the policy: one that refuses hex digits keeps them in triplets,
and one that allows `%` still has it escaped where it stands alone.

Main result: `encoded_iff_isSettled`.
-/

namespace LinkTemplate.Percent

variable {α : Type} [Alphabet α] {allowed : α → Bool}

/-! ## Settled texts -/

/-- The position is one of the three of a triplet. -/
def InTriplet (text : List α) (i : Nat) : Prop :=
  ∃ j, j ≤ i ∧ i ≤ j + 2 ∧ startsTriplet (text.drop j) = true

/-- Every `%` is the head of a triplet, and outside of triplets everything is allowed. -/
structure IsSettled (allowed : α → Bool) (text : List α) : Prop where
  percent : ∀ i, text[i]? = some percent → startsTriplet (text.drop i) = true
  outside : ∀ i a, text[i]? = some a → ¬ InTriplet text i → allowed a = true

theorem isSettled_nil : IsSettled allowed ([] : List α) :=
  ⟨fun i hi => by simp at hi, fun i a hi => by simp at hi⟩

theorem startsTriplet_of_not_isPercent {a : α} (h : isPercent a = false) (rest : List α) :
    startsTriplet (a :: rest) = false := by
  rcases rest with _ | ⟨b, _ | ⟨c, rest⟩⟩ <;> simp [startsTriplet, h]

theorem startsTriplet_cons_cons {a b : α} (ha : isHexDigit a = true) (hb : isHexDigit b = true)
    (rest : List α) : startsTriplet (percent :: a :: b :: rest) = true := by
  simp [startsTriplet, isPercent_percent, ha, hb]

/-! ## Taking a text apart -/

theorem inTriplet_cons_succ {a : α} (ha : isPercent a = false) {rest : List α} {i : Nat} :
    InTriplet (a :: rest) (i + 1) ↔ InTriplet rest i := by
  constructor
  · rintro ⟨j, hj, hi, hstart⟩
    cases j with
    | zero =>
      rw [List.drop_zero, startsTriplet_of_not_isPercent ha] at hstart
      cases hstart
    | succ j => exact ⟨j, by omega, by omega, hstart⟩
  · rintro ⟨j, hj, hi, hstart⟩
    exact ⟨j + 1, by omega, by omega, hstart⟩

theorem not_inTriplet_cons_zero {a : α} (ha : isPercent a = false) (rest : List α) :
    ¬ InTriplet (a :: rest) 0 := by
  rintro ⟨j, hj, -, hstart⟩
  obtain rfl : j = 0 := Nat.le_zero.1 hj
  rw [List.drop_zero, startsTriplet_of_not_isPercent ha] at hstart
  cases hstart

theorem isSettled_cons_iff {a : α} (ha : isPercent a = false) {rest : List α} :
    IsSettled allowed (a :: rest) ↔ allowed a = true ∧ IsSettled allowed rest := by
  constructor
  · intro h
    refine ⟨h.outside 0 a rfl (not_inTriplet_cons_zero ha rest), fun i hi => ?_,
      fun i b hi hout => ?_⟩
    · exact h.percent (i + 1) hi
    · exact h.outside (i + 1) b hi (mt (inTriplet_cons_succ ha).1 hout)
  · rintro ⟨hallowed, h⟩
    refine ⟨fun i hi => ?_, fun i b hi hout => ?_⟩
    · cases i with
      | zero => exact absurd (Option.some.inj hi) (ne_percent ha)
      | succ i => exact h.percent i hi
    · cases i with
      | zero =>
        obtain rfl : a = b := Option.some.inj hi
        exact hallowed
      | succ i => exact h.outside i b hi (mt (inTriplet_cons_succ ha).2 hout)

/-- Digits are no `%`, so behind a triplet the triplets are where they were. -/
theorem inTriplet_triplet_succ {a b : α} (ha : isHexDigit a = true) (hb : isHexDigit b = true)
    {rest : List α} {i : Nat} :
    InTriplet (percent :: a :: b :: rest) (i + 3) ↔ InTriplet rest i := by
  have hdigits : InTriplet (a :: b :: rest) (i + 2) ↔ InTriplet rest i := by
    rw [inTriplet_cons_succ (isPercent_eq_false_of_isHexDigit ha),
      inTriplet_cons_succ (isPercent_eq_false_of_isHexDigit hb)]
  rw [← hdigits]
  constructor
  · rintro ⟨j, hj, hi, hstart⟩
    obtain ⟨k, rfl⟩ : ∃ k, j = k + 1 := ⟨j - 1, by omega⟩
    exact ⟨k, by omega, by omega, hstart⟩
  · rintro ⟨j, hj, hi, hstart⟩
    exact ⟨j + 1, by omega, by omega, hstart⟩

theorem isSettled_triplet_iff {a b : α} (ha : isHexDigit a = true) (hb : isHexDigit b = true)
    {rest : List α} :
    IsSettled allowed (percent :: a :: b :: rest) ↔ IsSettled allowed rest := by
  have hstart := startsTriplet_cons_cons ha hb rest
  have hne {c : α} (hc : isHexDigit c = true) : c ≠ percent :=
    ne_percent (isPercent_eq_false_of_isHexDigit hc)
  constructor
  · intro h
    refine ⟨fun i hi => h.percent (i + 3) hi, fun i c hi hout => ?_⟩
    exact h.outside (i + 3) c hi (mt (inTriplet_triplet_succ ha hb).1 hout)
  · intro h
    have hfirst : ∀ i < 3, InTriplet (percent :: a :: b :: rest) i :=
      fun i hi => ⟨0, Nat.zero_le i, by omega, hstart⟩
    -- Of the first three positions only the first has a `%`, and all are in the triplet.
    refine ⟨fun i hi => ?_, fun i c hi hout => ?_⟩
    · match i, hi with
      | 0, _ => exact hstart
      | 1, hi => exact absurd (Option.some.inj hi) (hne ha)
      | 2, hi => exact absurd (Option.some.inj hi) (hne hb)
      | i + 3, hi => exact h.percent i hi
    · by_cases hi3 : i < 3
      · exact absurd (hfirst i hi3) hout
      · obtain ⟨i, rfl⟩ : ∃ k, i = k + 3 := ⟨i - 3, by omega⟩
        exact h.outside i c hi (mt (inTriplet_triplet_succ ha hb).2 hout)

/-! ## Encoded texts are the settled ones -/

theorem encoded_cons_iff {a : α} (ha : isPercent a = false) {rest : List α} :
    Encoded allowed (a :: rest) ↔ allowed a = true ∧ Encoded allowed rest := by
  constructor
  · intro h
    cases h with
    | char hallowed _ hrest => exact ⟨hallowed, hrest⟩
    | triplet _ _ _ => exact absurd rfl (ne_percent ha)
  · intro h
    exact .char h.1 ha h.2

theorem encoded_triplet_iff {a b : α} (ha : isHexDigit a = true) (hb : isHexDigit b = true)
    {rest : List α} : Encoded allowed (percent :: a :: b :: rest) ↔ Encoded allowed rest := by
  constructor
  · intro h
    cases h with
    | char _ hpercent _ => exact absurd rfl (ne_percent hpercent)
    | triplet _ _ hrest => exact hrest
  · exact .triplet ha hb

theorem not_encoded_stray {rest : List α} (h : startsTriplet (percent :: rest) = false) :
    ¬ Encoded allowed (percent :: rest) := by
  intro hencoded
  cases hencoded with
  | char _ hpercent _ => exact ne_percent hpercent rfl
  | triplet ha hb more =>
    rw [startsTriplet_cons_cons ha hb] at h
    cases h

theorem not_isSettled_stray {rest : List α} (h : startsTriplet (percent :: rest) = false) :
    ¬ IsSettled allowed (percent :: rest) := by
  intro hsettled
  have hstart := hsettled.percent 0 rfl
  rw [List.drop_zero, h] at hstart
  cases hstart

theorem encoded_iff_isSettled (text : List α) :
    Encoded allowed text ↔ IsSettled allowed text := by
  induction text using lookAhead with
  | nil => exact iff_of_true .nil isSettled_nil
  | triplet a b rest ha hb ih => rw [encoded_triplet_iff ha hb, isSettled_triplet_iff ha hb, ih]
  | stray rest h ih => exact iff_of_false (not_encoded_stray h) (not_isSettled_stray h)
  | char a rest ha ih => rw [encoded_cons_iff ha, isSettled_cons_iff ha, ih]

/-- **Encoding leaves exactly the settled texts alone**, under every policy. Whatever it is given,
what it writes is settled, so encoding twice is encoding once. -/
theorem encode_eq_self_iff_isSettled (allowed : α → Bool) :
    (∀ text, encode allowed text = text ↔ IsSettled allowed text) ∧
      (∀ text, IsSettled allowed (encode allowed text)) ∧
      ∀ text, encode allowed (encode allowed text) = encode allowed text := by
  refine ⟨fun text => ?_, fun text => ?_, fun text => (encoded_encode text).encode_eq⟩
  · rw [← encoded_iff_isSettled]
    constructor
    · intro h
      rw [← h]
      exact encoded_encode text
    · exact Encoded.encode_eq
  · exact (encoded_iff_isSettled _).1 (encoded_encode text)

end LinkTemplate.Percent
