import LinkTemplate.Percent.Encoding
import LinkTemplate.Percent.Triplet
import Mathlib.Data.List.Basic

/-!
# Encoded texts

The encoder reads a text once and decides late: it holds a `%` back, and the digit behind it,
until a triplet is complete or has failed. Looking ahead instead, it does one of three things
at the head of a text: a triplet is kept, a `%` that starts none is escaped, and any other
character is written under the policy. `lookAhead` is the induction over a text in these steps.

An *encoded* text consists of allowed characters and triplets, every `%` being the head of a
triplet (`Encoded`). Encoding ends in such texts and leaves them as they are: `encoded_encode`
and `Encoded.encode_eq`.
-/

namespace LinkTemplate.Percent

variable {α : Type} [Alphabet α] {allowed : α → Bool}

/-! ## Encoding with a look ahead -/

theorem encode_nil : encode allowed ([] : List α) = [] := rfl

theorem ne_percent {a : α} (h : isPercent a = false) : a ≠ percent := by
  rintro rfl
  rw [isPercent_percent] at h
  cases h

theorem isHexDigit_percent : isHexDigit (percent : α) = false := by
  rw [Bool.eq_false_iff]
  intro h
  exact ne_percent (isPercent_eq_false_of_isHexDigit h) rfl

/-- Whatever is held back and fails to become a triplet is written before `a` starts anew. -/
theorem encodeFrom_restart (held : Held α) (a : α) (rest : List α) :
    (held.restart allowed a).1 ++ encodeFrom allowed (held.restart allowed a).2 rest =
      held.flush allowed ++ encode allowed (a :: rest) := by
  change _ = held.flush allowed ++ ((Held.nothing.restart allowed a).1 ++
    encodeFrom allowed (Held.nothing.restart allowed a).2 rest)
  unfold Held.restart
  split_ifs with ha
  · simp [Held.flush]
  · simp [Held.flush]

theorem encode_char {a : α} (ha : isPercent a = false) (rest : List α) :
    encode allowed (a :: rest) = write allowed a ++ encode allowed rest := by
  change (Held.nothing.restart allowed a).1 ++
    encodeFrom allowed (Held.nothing.restart allowed a).2 rest = _
  rw [Held.restart, ha]
  rfl

theorem encode_triplet {a b : α} (ha : isHexDigit a = true) (hb : isHexDigit b = true)
    (rest : List α) :
    encode allowed (percent :: a :: b :: rest) = percent :: a :: b :: encode allowed rest := by
  simp [encode, encodeFrom, Held.step, Held.restart, Held.flush, isPercent_percent, ha, hb]

theorem encode_stray {rest : List α} (h : startsTriplet (percent :: rest) = false) :
    encode allowed (percent :: rest) = escape percent ++ encode allowed rest := by
  have hstart : encode allowed (percent :: rest) = encodeFrom allowed .percent rest := by
    simp [encode, encodeFrom, Held.step, Held.restart, Held.flush, isPercent_percent]
  rw [hstart]
  -- The `%` is written when the end, a character that is no digit, or a digit that no second one
  -- follows shows that it starts no triplet. In the last case the digit was held back as well.
  cases rest with
  | nil => simp [encodeFrom, Held.flush, encode]
  | cons a rest =>
    by_cases ha : isHexDigit a = true
    · have hwrite (more : List α) :
          encode allowed (a :: more) = write allowed a ++ encode allowed more :=
        encode_char (isPercent_eq_false_of_isHexDigit ha) more
      rw [encodeFrom, Held.step, if_pos ha, List.nil_append]
      cases rest with
      | nil => simp [encodeFrom, Held.flush, hwrite, encode_nil]
      | cons b rest =>
        have hb : ¬ isHexDigit b = true := by
          simpa [startsTriplet, isPercent_percent, ha] using h
        rw [encodeFrom, Held.step, if_neg hb, encodeFrom_restart, hwrite, Held.flush,
          List.append_assoc]
    · rw [encodeFrom, Held.step, if_neg ha, encodeFrom_restart, Held.flush]

/-- Induction over a text as the encoder looks at it. -/
@[elab_as_elim]
theorem lookAhead {motive : List α → Prop} (nil : motive [])
    (triplet : ∀ a b rest, isHexDigit a = true → isHexDigit b = true → motive rest →
      motive (percent :: a :: b :: rest))
    (stray : ∀ rest, startsTriplet (percent :: rest) = false → motive rest →
      motive (percent :: rest))
    (char : ∀ a rest, isPercent a = false → motive rest → motive (a :: rest)) :
    ∀ text, motive text
  | [] => nil
  | a :: rest => by
    by_cases ha : isPercent a = true
    · obtain rfl := eq_percent_of_isPercent ha
      by_cases h : startsTriplet (percent :: rest) = true
      · match rest, h with
        | b :: c :: rest, h =>
          simp only [startsTriplet, isPercent_percent, Bool.true_and, Bool.and_eq_true] at h
          exact triplet b c rest h.1 h.2 (lookAhead nil triplet stray char rest)
      · exact stray rest (Bool.eq_false_iff.2 h) (lookAhead nil triplet stray char rest)
    · exact char a rest (Bool.eq_false_iff.2 ha) (lookAhead nil triplet stray char rest)

/-! ## Encoded texts -/

/-- A text of allowed characters and triplets. -/
inductive Encoded (allowed : α → Bool) : List α → Prop
  | nil : Encoded allowed []
  | char {a : α} {rest : List α} : allowed a = true → isPercent a = false →
      Encoded allowed rest → Encoded allowed (a :: rest)
  | triplet {a b : α} {rest : List α} : isHexDigit a = true → isHexDigit b = true →
      Encoded allowed rest → Encoded allowed (percent :: a :: b :: rest)

namespace Encoded

theorem append {text more : List α} (h : Encoded allowed text) (hmore : Encoded allowed more) :
    Encoded allowed (text ++ more) := by
  induction h with
  | nil => exact hmore
  | char ha hpercent _ ih => exact .char ha hpercent ih
  | triplet ha hb _ ih => exact .triplet ha hb ih

theorem mono {allowed' : α → Bool} (hsub : ∀ a, allowed a = true → allowed' a = true)
    {text : List α} (h : Encoded allowed text) : Encoded allowed' text := by
  induction h with
  | nil => exact .nil
  | char ha hpercent _ ih => exact .char (hsub _ ha) hpercent ih
  | triplet ha hb _ ih => exact .triplet ha hb ih

/-- Pieces that are encoded by themselves make an encoded text: no `%` at the end of one waits
for digits of the next. -/
theorem flatten {texts : List (List α)} (h : ∀ text ∈ texts, Encoded allowed text) :
    Encoded allowed texts.flatten := by
  induction texts with
  | nil => exact .nil
  | cons text texts ih =>
    exact (h text List.mem_cons_self).append (ih fun t ht => h t (List.mem_cons_of_mem text ht))

theorem of_forall {text : List α} (h : ∀ a ∈ text, allowed a = true ∧ isPercent a = false) :
    Encoded allowed text := by
  induction text with
  | nil => exact .nil
  | cons a text ih =>
    obtain ⟨ha, hpercent⟩ := h a List.mem_cons_self
    exact .char ha hpercent (ih fun b hb => h b (List.mem_cons_of_mem a hb))

theorem mem {text : List α} (h : Encoded allowed text) {a : α} (ha : a ∈ text) :
    allowed a = true ∨ isPercent a = true ∨ isHexDigit a = true := by
  induction h with
  | nil => exact absurd ha List.not_mem_nil
  | char hallowed _ _ ih =>
    rcases List.mem_cons.1 ha with rfl | ha
    · exact .inl hallowed
    · exact ih ha
  | triplet hb hc _ ih =>
    rcases List.mem_cons.1 ha with rfl | ha
    · exact .inr (.inl isPercent_percent)
    rcases List.mem_cons.1 ha with rfl | ha
    · exact .inr (.inr hb)
    rcases List.mem_cons.1 ha with rfl | ha
    · exact .inr (.inr hc)
    · exact ih ha

/-- **Encoding leaves an encoded text as it is.** -/
theorem encode_eq {text : List α} (h : Encoded allowed text) : encode allowed text = text := by
  induction h with
  | nil => rfl
  | char ha hpercent _ ih =>
    rw [encode_char hpercent, ih, write, if_pos ha]
    rfl
  | triplet ha hb _ ih => rw [encode_triplet ha hb, ih]

end Encoded

/-! ## What the codec writes -/

theorem isHexDigit_hexDigit (n : Nat) : isHexDigit (hexDigit n : α) = true := by
  have hn : n % 16 < 16 := Nat.mod_lt n (by decide)
  unfold hexDigit
  split_ifs with h
  all_goals
    simp only [isHexDigit, isDigit, between, Alphabet.code_ascii, Bool.or_eq_true,
      Bool.and_eq_true, decide_eq_true_eq]
    omega

theorem encoded_escape (a : α) : Encoded allowed (escape a) := by
  unfold escape
  rw [List.flatMap_def]
  refine .flatten fun text htext => ?_
  obtain ⟨octet, -, rfl⟩ := List.mem_map.1 htext
  exact .triplet (isHexDigit_hexDigit _) (isHexDigit_hexDigit _) .nil

theorem encoded_write {a : α} (h : isPercent a = true → allowed a = false) :
    Encoded allowed (write allowed a) := by
  unfold write
  split_ifs with ha
  · have hpercent : ¬ isPercent a = true := fun hp => by simp [h hp] at ha
    exact .char ha (Bool.eq_false_iff.2 hpercent) .nil
  · exact encoded_escape a

/-- **Every encoding is an encoded text**, whatever the policy. -/
theorem encoded_encode (text : List α) : Encoded allowed (encode allowed text) := by
  induction text using lookAhead with
  | nil => exact .nil
  | triplet a b rest ha hb ih =>
    rw [encode_triplet ha hb]
    exact .triplet ha hb ih
  | stray rest h ih =>
    rw [encode_stray h]
    exact (encoded_escape percent).append ih
  | char a rest ha ih =>
    rw [encode_char ha]
    exact (encoded_write fun hp => by simp [ha] at hp).append ih

theorem encoded_quote (h : allowed percent = false) (text : List α) :
    Encoded allowed (quote allowed text) := by
  unfold quote
  rw [List.flatMap_def]
  refine .flatten fun piece hpiece => ?_
  obtain ⟨a, -, rfl⟩ := List.mem_map.1 hpiece
  exact encoded_write fun hp => by rw [eq_percent_of_isPercent hp, h]

end LinkTemplate.Percent
