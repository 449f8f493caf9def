import LinkTemplate.Proofs.Escaped
import LinkTemplate.Proofs.LookAhead

/-!
# Encoding in pieces

A text may be cut into pieces and encoded piece by piece. The encoder carries nothing from one piece
to the next, so a seam is to it what the end of a text is: what is held back there is given up.

**Seams** (`Straddles`). That makes a difference only if what is held back would have become a
triplet. If no triplet begins on one side of a seam and ends on the other, the pieces give what the
whole gives (`encode_append`). If one does, they give more: its `%` is escaped, and a `%25` with two
digits behind it is longer than the triplet (`length_encode_append_lt`). This holds whatever the
policy makes of the digits, and also of the triplet `%25`.

**Single characters.** Quoting under a policy that refuses `%` is encoding each character by itself,
with a seam behind every one. So quoting and encoding differ exactly at triplets.

Main results: `encode_append`, `length_encode_append_lt`, `encode_cons_eq_quote_iff`.
-/

namespace LinkTemplate.Percent

variable {α : Type} [Alphabet α] {allowed : α → Bool}

/-! ## Seams -/

/-- A triplet begins in the first text and ends in the second. -/
inductive Straddles : List α → List α → Prop
  | behindPercent (before rest : List α) {a b : α} : isHexDigit a = true → isHexDigit b = true →
      Straddles (before ++ [percent]) (a :: b :: rest)
  | behindDigit (before rest : List α) {a b : α} : isHexDigit a = true → isHexDigit b = true →
      Straddles (before ++ [percent, a]) (b :: rest)

theorem Straddles.append_left {first second : List α} (h : Straddles first second)
    (more : List α) : Straddles (more ++ first) second := by
  cases h with
  | behindPercent before rest ha hb =>
    rw [← List.append_assoc]
    exact .behindPercent (more ++ before) rest ha hb
  | behindDigit before rest ha hb =>
    rw [← List.append_assoc]
    exact .behindDigit (more ++ before) rest ha hb

theorem straddles_of_startsTriplet {held second : List α} (hne : held ≠ [])
    (hlength : held.length ≤ 2) (h : startsTriplet (held ++ second) = true) :
    Straddles held second := by
  obtain ⟨a, b, more, heq, ha, hb⟩ := exists_of_startsTriplet h
  match held with
  | [] => exact absurd rfl hne
  | [p] =>
    simp only [List.cons_append, List.nil_append, List.cons.injEq] at heq
    obtain ⟨rfl, rfl⟩ := heq
    exact .behindPercent [] more ha hb
  | [p, c] =>
    simp only [List.cons_append, List.nil_append, List.cons.injEq] at heq
    obtain ⟨rfl, rfl, rfl⟩ := heq
    exact .behindDigit [] more ha hb
  | p :: c :: d :: held =>
    simp only [List.length_cons] at hlength
    omega

/-- A `%` that starts no triplet by itself starts one across a seam if it is completed there. -/
theorem straddles_of_stray {rest second : List α} (h : startsTriplet (percent :: rest) = false)
    (hlong : startsTriplet (percent :: rest ++ second) = true) :
    Straddles (percent :: rest) second := by
  refine straddles_of_startsTriplet (List.cons_ne_nil _ _) ?_ hlong
  match rest with
  | [] | [_] => simp
  | a :: b :: rest =>
    -- The three characters are the same with and without what is behind the seam.
    change startsTriplet (percent :: a :: b :: rest) = true at hlong
    rw [h] at hlong
    cases hlong

/-- The triplets that straddle a seam are those that the probe finds across it. -/
theorem straddles_iff {first second : List α} : Straddles first second ↔
    ∃ i : Nat, i < first.length ∧ first.length ≤ i + 2 ∧
      tripletAt (first ++ second) i = some true := by
  simp only [tripletAt_natCast, Option.some.injEq]
  constructor
  · intro h
    cases h with
    | behindPercent before rest ha hb | behindDigit before rest ha hb =>
      refine ⟨before.length, by simp, by simp, ?_⟩
      rw [List.append_assoc, List.drop_left]
      simp [startsTriplet, isPercent_percent, ha, hb]
  · rintro ⟨i, hi, hlength, hstart⟩
    rw [List.drop_append_of_le_length (Nat.le_of_lt hi)] at hstart
    have hheld : Straddles (first.drop i) second := by
      refine straddles_of_startsTriplet ?_ ?_ hstart
      · exact List.ne_nil_of_length_pos (by rw [List.length_drop]; omega)
      · rw [List.length_drop]
        omega
    have hfirst := hheld.append_left (first.take i)
    rwa [List.take_append_drop] at hfirst

/-! ## Pieces -/

/-- **What is encoded in pieces is encoded as a whole**, if no triplet straddles the seam. -/
theorem encode_append {first second : List α} (h : ¬ Straddles first second) :
    encode allowed (first ++ second) = encode allowed first ++ encode allowed second := by
  induction first using lookAhead with
  | nil => rfl
  | triplet a b rest ha hb ih =>
    have hrest : ¬ Straddles rest second := fun hrest => h (hrest.append_left [percent, a, b])
    rw [List.cons_append, List.cons_append, List.cons_append, encode_triplet ha hb,
      encode_triplet ha hb, ih hrest]
    rfl
  | stray rest hstray ih =>
    have hrest : ¬ Straddles rest second := fun hrest => h (hrest.append_left [percent])
    have hlong : startsTriplet (percent :: rest ++ second) = false :=
      Bool.eq_false_iff.2 fun hlong => h (straddles_of_stray hstray hlong)
    rw [List.cons_append] at hlong ⊢
    rw [encode_stray hlong, encode_stray hstray, ih hrest, List.append_assoc]
  | char a rest ha ih =>
    have hrest : ¬ Straddles rest second := fun hrest => h (hrest.append_left [a])
    rw [List.cons_append, encode_char ha, encode_char ha, ih hrest, List.append_assoc]

theorem length_write_pos (a : α) : 0 < (write allowed a).length := by
  unfold write
  split_ifs
  · exact Nat.one_pos
  · obtain ⟨high, low, more, -, -, hescape⟩ := escape_eq_cons a
    rw [hescape]
    exact Nat.succ_pos _

theorem length_encode_triplet_lt (before rest : List α) {a b : α} (ha : isHexDigit a = true)
    (hb : isHexDigit b = true) :
    (encode allowed (before ++ percent :: a :: b :: rest)).length <
      (encode allowed before ++ (escape percent ++
        (write allowed a ++ (write allowed b ++ encode allowed rest)))).length := by
  have hescape : (escape (percent : α)).length = 3 := by
    rw [escape_percent]
    rfl
  have hfirst : 0 < (write allowed a).length := length_write_pos a
  have hsecond : 0 < (write allowed b).length := length_write_pos b
  rw [encode_append_percent, encode_triplet ha hb]
  simp only [List.length_append, List.length_cons, hescape]
  omega

/-- **Encoding in pieces is longer** than encoding the whole if a triplet straddles the seam. -/
theorem length_encode_append_lt {first second : List α} (h : Straddles first second) :
    (encode allowed (first ++ second)).length <
      (encode allowed first ++ encode allowed second).length := by
  cases h with
  | behindPercent before rest ha hb =>
    rw [encode_append_percent, encode_stray rfl, encode_nil,
      encode_char (isPercent_eq_false_of_isHexDigit ha),
      encode_char (isPercent_eq_false_of_isHexDigit hb)]
    simp only [List.append_assoc, List.append_nil]
    exact length_encode_triplet_lt before rest ha hb
  | behindDigit before rest ha hb =>
    rw [encode_append_percent, encode_stray rfl,
      encode_char (isPercent_eq_false_of_isHexDigit ha), encode_nil,
      encode_char (isPercent_eq_false_of_isHexDigit hb)]
    simp only [List.append_assoc, List.append_nil]
    exact length_encode_triplet_lt before rest ha hb

/-- **Encoding goes through a seam exactly if no triplet does.** Under every policy, the encodings
of two texts make up the encoding of both in a row, unless the probe finds a triplet there that
begins in the first text and ends in the second. -/
theorem encode_append_iff (allowed : α → Bool) (first second : List α) :
    encode allowed (first ++ second) = encode allowed first ++ encode allowed second ↔
      ¬ ∃ i : Nat, i < first.length ∧ first.length ≤ i + 2 ∧
        tripletAt (first ++ second) i = some true := by
  rw [← straddles_iff]
  constructor
  · intro heq hstraddles
    have hlt : (encode allowed (first ++ second)).length < _ := length_encode_append_lt hstraddles
    rw [heq] at hlt
    exact Nat.lt_irrefl _ hlt
  · exact encode_append

/-! ## Single characters -/

section Quoting

variable (hpercent : allowed percent = false)
include hpercent

theorem encode_singleton (a : α) : encode allowed [a] = write allowed a := by
  by_cases ha : isPercent a = true
  · obtain rfl := eq_percent_of_isPercent ha
    rw [encode_stray rfl, encode_nil, List.append_nil, write, hpercent]
    rfl
  · rw [encode_char (Bool.eq_false_iff.2 ha), encode_nil, List.append_nil]

theorem length_encode_le_length_quote (text : List α) :
    (encode allowed text).length ≤ (quote allowed text).length := by
  induction text with
  | nil => exact Nat.le_refl _
  | cons a rest ih =>
    have hpieces : (encode allowed ([a] ++ rest)).length ≤
        (encode allowed [a] ++ encode allowed rest).length := by
      by_cases h : Straddles [a] rest
      · exact Nat.le_of_lt (length_encode_append_lt h)
      · rw [encode_append h]
    rw [encode_singleton hpercent, List.singleton_append, List.length_append] at hpieces
    rw [quote_cons, List.length_append]
    omega

/-- A seam behind the first character makes a difference if a triplet begins there. -/
theorem encode_cons_eq_quote_iff (a : α) (rest : List α) :
    encode allowed (a :: rest) = quote allowed (a :: rest) ↔
      startsTriplet (a :: rest) ≠ true ∧ encode allowed rest = quote allowed rest := by
  have hseam : startsTriplet (a :: rest) = true ↔ Straddles [a] rest := by
    constructor
    · exact straddles_of_startsTriplet (List.cons_ne_nil a []) (Nat.le_succ 1)
    · intro h
      obtain ⟨i, hi, -, htriplet⟩ := straddles_iff.1 h
      obtain rfl : i = 0 := by simpa using hi
      rwa [tripletAt_natCast, Option.some.injEq] at htriplet
  have hsingle := encode_singleton hpercent a
  rw [ne_eq, hseam, quote_cons]
  by_cases h : Straddles [a] rest
  · refine iff_of_false (fun heq => ?_) (fun hnot => hnot.1 h)
    have hlt : (encode allowed ([a] ++ rest)).length < _ := length_encode_append_lt h
    have hle := length_encode_le_length_quote hpercent rest
    rw [hsingle, List.singleton_append, heq] at hlt
    simp only [List.length_append] at hlt
    omega
  · have happend : encode allowed ([a] ++ rest) = _ := encode_append h
    rw [hsingle, List.singleton_append] at happend
    rw [happend, List.append_cancel_left_eq]
    exact (and_iff_right h).symm

/-- **Encoding and quoting differ exactly at triplets**, under a policy that refuses `%`. -/
theorem encode_eq_quote_iff (text : List α) :
    encode allowed text = quote allowed text ↔ ∀ i : Nat, tripletAt text i ≠ some true := by
  simp only [tripletAt_natCast, ne_eq, Option.some.injEq]
  induction text with
  | nil => exact iff_of_true rfl fun i => by rw [List.drop_nil]; exact Bool.false_ne_true
  | cons a rest ih =>
    rw [encode_cons_eq_quote_iff hpercent, ih]
    exact Nat.and_forall_add_one (p := fun i => ¬ startsTriplet ((a :: rest).drop i) = true)

end Quoting

/-- Two `%` that start no triplet, and the same text with a digit that completes the second one. -/
theorem encode_eq_quote_iff_completed :
    let text : Text := "%4g%é%2".toList
    isUnreserved (percent : Char) = false ∧ (∀ i : Nat, tripletAt text i ≠ some true) ∧
      encode isUnreserved text = "%254g%25%C3%A9%252".toList ∧
      quote isUnreserved text = "%254g%25%C3%A9%252".toList ∧
      tripletAt (text ++ ['5']) (5 : Nat) = some true ∧
      encode isUnreserved (text ++ ['5']) ≠ quote isUnreserved (text ++ ['5']) := by
  intro text
  have hpercent : isUnreserved (percent : Char) = false := by decide
  have hencode : encode isUnreserved text = "%254g%25%C3%A9%252".toList := by decide
  have hquote : quote isUnreserved text = "%254g%25%C3%A9%252".toList := by decide
  have htriplet : tripletAt (text ++ ['5']) (5 : Nat) = some true := by decide
  have hiff (t : Text) := encode_eq_quote_iff hpercent t
  exact ⟨hpercent, (hiff text).1 (hencode.trans hquote.symm), hencode, hquote, htriplet,
    fun heq => (hiff _).1 heq 5 htriplet⟩

end LinkTemplate.Percent
