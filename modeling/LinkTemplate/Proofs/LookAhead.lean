import LinkTemplate.Proofs.Body
import LinkTemplate.Proofs.Encoded

/-!
# Encoding and the probe for triplets

The encoder goes through a text once and has nothing but the characters held back. The probe
`tripletAt` stands at a position of the text and looks at the two characters behind it. Both have
a say in which `%` are escapes, and they agree.

**By position** (`encodeAt`). A second encoder holds nothing back. At each position it asks the
probe. Where there is a triplet it copies it and goes on behind it; any other `%` becomes `%25`,
and any other character is quoted.

**At every `%`.** No triplet begins before a `%` and ends behind it. So a text may be taken apart
in front of any of its `%`, also of those that are held back and given up: `encode_append_percent`.

The reader of names asks for triplets in words of its own, and stops at the same `%`.

Main results: `encodeAt_eq_encode_drop`, `encode_append_percent`.
-/

namespace LinkTemplate.Percent

variable {α : Type} [Alphabet α]

/-! ## The probe -/

theorem charAt?_natCast {β : Type} (text : List β) (i : Nat) : charAt? text i = text[i]? := by
  have hnot : ¬ (i : Int) < 0 := Int.not_lt.2 (Int.natCast_nonneg i)
  simp [charAt?, hnot]

theorem tripletAt_natCast (text : List α) (i : Nat) :
    tripletAt text i = some (startsTriplet (text.drop i)) := by
  have hchar (k : Nat) : charAt? text ((i : Int) + k) = (text.drop i)[k]? := by
    rw [← Int.natCast_add, charAt?_natCast, List.getElem?_drop]
  have hfirst := hchar 0
  have hsecond := hchar 1
  have hthird := hchar 2
  have hlength : (text.drop i).length = text.length - i := List.length_drop
  rw [Int.natCast_zero, Int.add_zero] at hfirst
  unfold tripletAt
  -- What the probe sees are the first three characters of what is left of the text.
  generalize text.drop i = rest at hfirst hsecond hthird hlength ⊢
  match rest with
  | [] | [_] | [_, _] =>
    rw [if_neg (by simp at hlength; omega)]
    rfl
  | a :: b :: c :: rest =>
    rw [if_pos (by simp at hlength; omega)]
    change charAt? text ((i : Int) + 1) = some b at hsecond
    change charAt? text ((i : Int) + 2) = some c at hthird
    rw [hfirst, hsecond, hthird]
    cases ha : isPercent a <;> cases hb : isHexDigit b <;> simp [startsTriplet, ha, hb]

theorem exists_of_startsTriplet {text : List α} (h : startsTriplet text = true) :
    ∃ a b rest, text = percent :: a :: b :: rest ∧ isHexDigit a = true ∧ isHexDigit b = true := by
  match text with
  | [] | [_] | [_, _] => cases h
  | p :: a :: b :: rest =>
    simp only [startsTriplet, Bool.and_eq_true] at h
    obtain ⟨⟨hp, ha⟩, hb⟩ := h
    exact ⟨a, b, rest, by rw [eq_percent_of_isPercent hp], ha, hb⟩

/-! ## Encoding by position -/

/-- `%25`, the escape of a `%`. -/
def escapedPercent : List α :=
  [percent, Alphabet.ascii ⟨0x32, by decide⟩, Alphabet.ascii ⟨0x35, by decide⟩]

theorem escape_percent : escape (percent : α) = escapedPercent := by
  rw [escape, code_percent]
  rfl

/-- A text from a position on, encoded by asking the probe at each position. -/
def encodeAt (allowed : α → Bool) (text : List α) (i : Nat) : List α :=
  match _h : text[i]? with
  | none => []
  | some a =>
    if tripletAt text i = some true then
      (text.drop i).take 3 ++ encodeAt allowed text (i + 3)
    else if isPercent a then escapedPercent ++ encodeAt allowed text (i + 1)
    else quote allowed [a] ++ encodeAt allowed text (i + 1)
termination_by text.length - i
decreasing_by
  all_goals
    have hlt : i < text.length := (List.getElem?_eq_some_iff.1 _h).1
    omega

/-- Encoding by position gives what encoding the rest of the text gives. -/
theorem encodeAt_eq_encode_drop (allowed : α → Bool) (text : List α) (i : Nat) :
    encodeAt allowed text i = encode allowed (text.drop i) := by
  fun_induction encodeAt allowed text i with
  | case1 i h =>
    rw [List.drop_eq_nil_of_le (List.getElem?_eq_none_iff.1 h)]
    rfl
  | case2 i a h htriplet ih =>
    rw [tripletAt_natCast, Option.some.injEq] at htriplet
    obtain ⟨b, c, rest, hdrop, hb, hc⟩ := exists_of_startsTriplet htriplet
    have hrest : text.drop (i + 3) = rest := by rw [← List.drop_drop, hdrop]; rfl
    rw [ih, hrest, hdrop, encode_triplet hb hc]
    rfl
  | case3 i a h hnot hpercent ih =>
    obtain ⟨hlt, rfl⟩ := List.getElem?_eq_some_iff.1 h
    have hdrop : text.drop i = percent :: text.drop (i + 1) := by
      rw [List.drop_eq_getElem_cons hlt, eq_percent_of_isPercent hpercent]
    have hstray : startsTriplet (percent :: text.drop (i + 1)) = false := by
      rw [← hdrop]
      simpa [tripletAt_natCast] using hnot
    rw [ih, hdrop, encode_stray hstray, escape_percent]
  | case4 i a h _ hpercent ih =>
    obtain ⟨hlt, rfl⟩ := List.getElem?_eq_some_iff.1 h
    rw [ih, List.drop_eq_getElem_cons hlt, encode_char (Bool.eq_false_iff.2 hpercent)]
    simp [quote]

/-! ## In front of a `%` -/

theorem startsTriplet_append_percent {text : List α} (hne : text ≠ [])
    (h : startsTriplet text = false) (rest : List α) :
    startsTriplet (text ++ percent :: rest) = false := by
  -- Only the first three characters count, and the `%` is no digit.
  rcases text with _ | ⟨a, _ | ⟨b, _ | ⟨c, more⟩⟩⟩
  · exact absurd rfl hne
  · cases rest <;> simp [startsTriplet, isHexDigit_percent]
  · simp [startsTriplet, isHexDigit_percent]
  · exact h

/-- A `%` breaks off whatever is held back in front of it. -/
theorem encode_append_percent (allowed : α → Bool) (before rest : List α) :
    encode allowed (before ++ percent :: rest) =
      encode allowed before ++ encode allowed (percent :: rest) := by
  induction before using lookAhead with
  | nil => rfl
  | triplet a b more ha hb ih =>
    rw [List.cons_append, List.cons_append, List.cons_append, encode_triplet ha hb,
      encode_triplet ha hb, ih]
    rfl
  | stray more h ih =>
    have hlong := startsTriplet_append_percent (List.cons_ne_nil _ _) h rest
    rw [List.cons_append] at hlong ⊢
    rw [encode_stray hlong, encode_stray h, ih, List.append_assoc]
  | char a more ha ih =>
    rw [List.cons_append, encode_char ha, encode_char ha, ih, List.append_assoc]

/-! ## Agreement -/

/-- The reader of names steps over a `%` exactly where the probe finds a triplet. -/
theorem nameFault?_percent (position : Nat) (rest : Text) :
    Grammar.nameFault? position (percent :: rest) =
      if tripletAt (percent :: rest) 0 = some true then
        Grammar.nameFault? (position + 3) (rest.drop 2)
      else some (.badTriplet position) := by
  have hprobe : tripletAt (percent :: rest) 0 = some (startsTriplet ('%' :: rest)) :=
    tripletAt_natCast (percent :: rest) 0
  rw [hprobe]
  change Grammar.nameFault? position ('%' :: rest) = _
  match rest with
  | [] | [_] => rfl
  | a :: b :: more =>
    have hmark : isPercent '%' = true := rfl
    by_cases hdigits : isHexDigit a = true ∧ isHexDigit b = true
    · simp [Grammar.nameFault?, startsTriplet, hmark, hdigits]
    · have hnot : ¬ (isHexDigit a && isHexDigit b) = true := by simpa using hdigits
      have hstray : ¬ startsTriplet ('%' :: a :: b :: more) = true := by
        simpa [startsTriplet, hmark] using hdigits
      rw [Grammar.nameFault?, if_neg hnot, if_neg (by simpa using hstray)]

/-- **The encoder keeps what the probe calls a triplet**, and escapes every other `%`. Under any
policy, and whatever the alphabet, it writes the text that encoding by position writes. At every
`%` of a text, wherever it stands, the probe decides whether the `%` and the two characters
behind it are copied. A name is read on behind a `%` by the same decision. -/
theorem encode_eq_encodeAt (allowed : α → Bool) (text : List α) :
    encode allowed text = encodeAt allowed text 0 ∧
      (∀ i, text[i]? = some percent → encode allowed text = encode allowed (text.take i) ++
        if tripletAt text i = some true then
          (text.drop i).take 3 ++ encode allowed (text.drop (i + 3))
        else escapedPercent ++ encode allowed (text.drop (i + 1))) ∧
      ∀ position rest, Grammar.nameFault? position (percent :: rest) =
        if tripletAt (percent :: rest) 0 = some true then
          Grammar.nameFault? (position + 3) (rest.drop 2)
        else some (.badTriplet position) := by
  refine ⟨(encodeAt_eq_encode_drop allowed text 0).symm, fun i hi => ?_, nameFault?_percent⟩
  obtain ⟨hlt, hpercent⟩ := List.getElem?_eq_some_iff.1 hi
  have hdrop : text.drop i = percent :: text.drop (i + 1) := by
    rw [List.drop_eq_getElem_cons hlt, hpercent]
  have hhead : encode allowed (text.drop i) =
      if tripletAt text i = some true then
        (text.drop i).take 3 ++ encode allowed (text.drop (i + 3))
      else escapedPercent ++ encode allowed (text.drop (i + 1)) := by
    rw [← encodeAt_eq_encode_drop, encodeAt]
    split
    · next hnone =>
      rw [hi] at hnone
      cases hnone
    · next a ha =>
      obtain rfl : percent = a := Option.some.inj (hi.symm.trans ha)
      rw [encodeAt_eq_encode_drop, encodeAt_eq_encode_drop, if_pos isPercent_percent]
  calc encode allowed text
      = encode allowed (text.take i ++ percent :: text.drop (i + 1)) := by
        rw [← hdrop, List.take_append_drop]
    _ = encode allowed (text.take i) ++ encode allowed (text.drop i) := by
        rw [encode_append_percent, hdrop]
    _ = _ := by rw [hhead]

/-- A policy that refuses digits and allows `%`, on a text with a surrogate: the first `%`, the one
with one digit and the one near the end are given up, the triplet between them is kept. -/
theorem encode_eq_encodeAt_surrogate :
    let points : List Nat → List CodePoint := List.filterMap CodePoint.ofNat?
    let text := points [0x25, 0x25, 0x32, 0xD800, 0x25, 0x34, 0x61, 0x25, 0x32]
    encodeAt isPercent text 0 =
        points ("%25%25%32%ED%A0%80%4a%25%32".toList.map Char.toNat) ∧
      text[4]? = some percent ∧ tripletAt text 4 = some true ∧
      encode isPercent text = encode isPercent (text.take 4) ++
        (points [0x25, 0x34, 0x61] ++ encode isPercent (text.drop 7)) := by
  intro points text
  have hencode : encode isPercent text =
      points ("%25%25%32%ED%A0%80%4a%25%32".toList.map Char.toNat) := by decide
  have hpercent : text[4]? = some percent := by decide
  have htriplet : tripletAt text (4 : Nat) = some true := by decide
  obtain ⟨hposition, hmark, -⟩ := encode_eq_encodeAt isPercent text
  have hkept := hmark 4 hpercent
  rw [if_pos htriplet] at hkept
  exact ⟨hposition.symm.trans hencode, hpercent, htriplet, hkept⟩

end LinkTemplate.Percent
