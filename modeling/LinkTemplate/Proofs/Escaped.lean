import LinkTemplate.Expansion
import LinkTemplate.Proofs.Encoded

/-!
# Escaped text

Two facts about text in which characters have been replaced by escapes. All operators but two
escape their values so.

**It determines the text** (`quote_injective_iff`). The first octet of a character announces how
many follow it, so no character has an escape that begins the escape of another one. It remains
that a character that stands for itself is taken for a part of an escape. A policy rules that out
exactly if no escape consists of characters that it allows. Policies that refuse `%` do.

**It holds no delimiter** (`Encoded.not_mem_of_isReserved`). If only unreserved characters stand
for themselves, no reserved character is left.
-/

namespace LinkTemplate.Percent

variable {α : Type} [Alphabet α] {allowed : α → Bool}

/-! ## Octets -/

/-- How many octets follow a first octet. -/
def announced (lead : Nat) : Nat :=
  if lead < 0x80 then 0 else if lead < 0xE0 then 1 else if lead < 0xF0 then 2 else 3

/-- An octet that follows another one of its character. -/
def IsContinuation (octet : Nat) : Prop := 0x80 ≤ octet ∧ octet < 0xC0

theorem octets_eq_cons {n : Nat} (hn : n < 0x110000) :
    ∃ lead more, octets n = lead :: more ∧ more.length = announced lead := by
  unfold octets announced
  split_ifs with h1 h2 h3
  · exact ⟨_, _, rfl, by simp [h1]⟩
  · refine ⟨_, _, rfl, ?_⟩
    rw [if_neg (by omega), if_pos (by omega)]
    rfl
  · refine ⟨_, _, rfl, ?_⟩
    rw [if_neg (by omega), if_neg (by omega), if_pos (by omega)]
    rfl
  · refine ⟨_, _, rfl, ?_⟩
    rw [if_neg (by omega), if_neg (by omega), if_neg (by omega)]
    rfl

theorem isContinuation_of_octets_eq_cons {n lead : Nat} {more : List Nat}
    (hn : n < 0x110000) (h : octets n = lead :: more) :
    ¬ IsContinuation lead ∧ ∀ octet ∈ more, IsContinuation octet := by
  unfold octets at h
  split_ifs at h <;> obtain ⟨rfl, rfl⟩ := List.cons.inj h <;>
    simp only [IsContinuation, List.forall_mem_cons, List.not_mem_nil, false_implies,
      implies_true, and_true] <;> omega

theorem octets_lt {n : Nat} (hn : n < 0x110000) : ∀ octet ∈ octets n, octet < 256 := by
  unfold octets
  split_ifs <;> simp only [List.forall_mem_cons, List.not_mem_nil, false_implies, implies_true,
    and_true] <;> omega

theorem octets_injective {n m : Nat} (hn : n < 0x110000) (hm : m < 0x110000)
    (h : octets n = octets m) : n = m := by
  unfold octets at h
  split_ifs at h <;> simp only [List.cons.injEq, reduceCtorEq, and_true, and_false] at h <;>
    omega

/-! ## Escapes -/

theorem hexDigit_injective {n m : Nat} (hn : n < 16) (hm : m < 16)
    (h : (hexDigit n : α) = hexDigit m) : n = m := by
  have hcode := congrArg code h
  unfold hexDigit at hcode
  split_ifs at hcode <;> simp only [Alphabet.code_ascii] at hcode <;> omega

/-- Octets of which one follows the other can be told apart from what comes after them. -/
theorem escapeOctet_append_inj {o p : Nat} (ho : o < 256) (hp : p < 256) {s t : List α}
    (h : escapeOctet o ++ s = escapeOctet p ++ t) : o = p ∧ s = t := by
  simp only [escapeOctet, List.cons_append, List.nil_append, List.cons.injEq, true_and] at h
  obtain ⟨hhigh, hlow, hrest⟩ := h
  have hhigh := hexDigit_injective (by omega) (by omega) hhigh
  have hlow := hexDigit_injective (by omega) (by omega) hlow
  exact ⟨by omega, hrest⟩

theorem flatMap_escapeOctet_append_inj {os ps : List Nat} (hos : ∀ o ∈ os, o < 256)
    (hps : ∀ p ∈ ps, p < 256) (hlength : os.length = ps.length) {s t : List α}
    (h : os.flatMap escapeOctet ++ s = ps.flatMap escapeOctet ++ t) : os = ps ∧ s = t := by
  induction os generalizing ps with
  | nil =>
    obtain rfl := List.length_eq_zero_iff.1 hlength.symm
    exact ⟨rfl, h⟩
  | cons o os ih =>
    cases ps with
    | nil => cases hlength
    | cons p ps =>
      obtain ⟨ho, hos'⟩ := List.forall_mem_cons.1 hos
      obtain ⟨hp, hps'⟩ := List.forall_mem_cons.1 hps
      rw [List.flatMap_cons, List.flatMap_cons, List.append_assoc, List.append_assoc] at h
      obtain ⟨rfl, hrest⟩ := escapeOctet_append_inj ho hp h
      obtain ⟨rfl, rfl⟩ := ih hos' hps' (Nat.succ.inj hlength) hrest
      exact ⟨rfl, rfl⟩

/-- **No escape begins another.** What follows an escape tells nothing about its character. -/
theorem escape_append_inj {a b : α} {s t : List α} (h : escape a ++ s = escape b ++ t) :
    a = b ∧ s = t := by
  have ha := Alphabet.code_lt a
  have hb := Alphabet.code_lt b
  obtain ⟨lead, more, hcons, hmore⟩ := octets_eq_cons ha
  obtain ⟨lead', more', hcons', hmore'⟩ := octets_eq_cons hb
  have hlead := octets_lt ha lead (hcons ▸ List.mem_cons_self)
  have hlead' := octets_lt hb lead' (hcons' ▸ List.mem_cons_self)
  have hlength : (octets (code a)).length = (octets (code b)).length := by
    unfold escape at h
    rw [hcons, hcons', List.flatMap_cons, List.flatMap_cons, List.append_assoc,
      List.append_assoc] at h
    obtain ⟨rfl, -⟩ := escapeOctet_append_inj hlead hlead' h
    rw [hcons, hcons', List.length_cons, List.length_cons, hmore, hmore']
  obtain ⟨hoctets, hst⟩ := flatMap_escapeOctet_append_inj (octets_lt ha) (octets_lt hb) hlength h
  exact ⟨Alphabet.code_injective (octets_injective ha hb hoctets), hst⟩

theorem escape_eq_cons (a : α) : ∃ high low more, isHexDigit high = true ∧
    isHexDigit low = true ∧ escape a = percent :: high :: low :: more := by
  obtain ⟨lead, more, hcons, -⟩ := octets_eq_cons (Alphabet.code_lt a)
  unfold escape
  rw [hcons]
  exact ⟨_, _, _, isHexDigit_hexDigit _, isHexDigit_hexDigit _, rfl⟩

/-! ## Quoted text -/

theorem quote_nil : quote allowed ([] : List α) = [] := rfl

theorem quote_cons (a : α) (xs : List α) :
    quote allowed (a :: xs) = write allowed a ++ quote allowed xs :=
  List.flatMap_cons

theorem quote_eq_self {xs : List α} (h : ∀ a ∈ xs, allowed a = true) : quote allowed xs = xs := by
  induction xs with
  | nil => rfl
  | cons a xs ih =>
    obtain ⟨ha, hxs⟩ := List.forall_mem_cons.1 h
    rw [quote_cons, ih hxs, write, if_pos ha]
    rfl

theorem quote_ne_nil (a : α) (xs : List α) : quote allowed (a :: xs) ≠ [] := by
  obtain ⟨high, low, more, -, -, hescape⟩ := escape_eq_cons a
  rw [quote_cons, write]
  split_ifs
  · exact List.cons_ne_nil a _
  · rw [hescape]
    exact List.cons_ne_nil percent _

theorem of_quote_eq_cons {xs : List α} {d : α} {t : List α} (hd : isPercent d = false)
    (h : quote allowed xs = d :: t) : allowed d = true ∧ ∃ ys, quote allowed ys = t := by
  cases xs with
  | nil => cases h
  | cons a xs =>
    rw [quote_cons, write] at h
    split_ifs at h with ha
    · obtain ⟨rfl, rfl⟩ := List.cons.inj h
      exact ⟨ha, xs, rfl⟩
    · obtain ⟨high, low, more, -, -, hescape⟩ := escape_eq_cons a
      rw [hescape] at h
      obtain ⟨rfl, -⟩ := List.cons.inj h
      rw [isPercent_percent] at hd
      cases hd

theorem of_cons_quote_eq_escapeOctet_append {a : α} {xs t : List α} {octet : Nat}
    (ha : allowed a = true) (h : a :: quote allowed xs = escapeOctet octet ++ t) :
    (∀ c ∈ escapeOctet octet, allowed c = true) ∧ ∃ ys, quote allowed ys = t := by
  obtain ⟨rfl, hxs⟩ := List.cons.inj h
  obtain ⟨hhigh, ys, hys⟩ :=
    of_quote_eq_cons (isPercent_eq_false_of_isHexDigit (isHexDigit_hexDigit _)) hxs
  obtain ⟨hlow, zs, hzs⟩ :=
    of_quote_eq_cons (isPercent_eq_false_of_isHexDigit (isHexDigit_hexDigit _)) hys
  exact ⟨by simp [escapeOctet, ha, hhigh, hlow], zs, hzs⟩

/-- No escape begins with a continuation octet, so one that is written at the head of a quoted
text is made of characters that stand for themselves. -/
theorem of_quote_eq_escapeOctet_append {xs t : List α} {octet : Nat}
    (hcont : IsContinuation octet) (h : quote allowed xs = escapeOctet octet ++ t) :
    (∀ c ∈ escapeOctet octet, allowed c = true) ∧ ∃ ys, quote allowed ys = t := by
  cases xs with
  | nil => cases h
  | cons a xs =>
    rw [quote_cons, write] at h
    split_ifs at h with ha
    · exact of_cons_quote_eq_escapeOctet_append ha h
    · exfalso
      have hcode := Alphabet.code_lt a
      obtain ⟨lead, more, hcons, -⟩ := octets_eq_cons hcode
      have hlead := octets_lt hcode lead (hcons ▸ List.mem_cons_self)
      rw [escape, hcons, List.flatMap_cons, List.append_assoc] at h
      obtain ⟨rfl, -⟩ := escapeOctet_append_inj hlead (Nat.lt_trans hcont.2 (by decide)) h
      exact (isContinuation_of_octets_eq_cons hcode hcons).1 hcont

theorem allowed_of_quote_eq_flatMap_append {os : List Nat}
    (hcont : ∀ o ∈ os, IsContinuation o) {xs t : List α}
    (h : quote allowed xs = os.flatMap escapeOctet ++ t) :
    ∀ a ∈ (os.flatMap escapeOctet : List α), allowed a = true := by
  induction os generalizing xs with
  | nil =>
    intro a ha
    cases ha
  | cons o os ih =>
    obtain ⟨ho, hos⟩ := List.forall_mem_cons.1 hcont
    rw [List.flatMap_cons, List.append_assoc] at h
    obtain ⟨hallowed, ys, hys⟩ := of_quote_eq_escapeOctet_append ho h
    intro a ha
    rw [List.flatMap_cons, List.mem_append] at ha
    exact ha.elim (hallowed a) (ih hos hys a)

/-- What a character that stands for itself opens is no escape, unless the policy allows all its
characters. -/
theorem allowed_of_cons_quote_eq_escape_append {a b : α} {xs t : List α}
    (ha : allowed a = true) (h : a :: quote allowed xs = escape b ++ t) :
    ∀ c ∈ escape b, allowed c = true := by
  have hcode := Alphabet.code_lt b
  obtain ⟨lead, more, hcons, -⟩ := octets_eq_cons hcode
  obtain ⟨-, hmore⟩ := isContinuation_of_octets_eq_cons hcode hcons
  unfold escape at h ⊢
  rw [hcons] at h ⊢
  rw [List.flatMap_cons, List.append_assoc] at h
  obtain ⟨hlead, ys, hys⟩ := of_cons_quote_eq_escapeOctet_append ha h
  have hrest := allowed_of_quote_eq_flatMap_append hmore hys
  intro c hc
  rw [List.flatMap_cons, List.mem_append] at hc
  exact hc.elim (hlead c) (hrest c)

/-- No character is written as characters that stand for themselves. -/
def RefusesInEscapes (allowed : α → Bool) : Prop :=
  ∀ a, allowed a = false → ∃ b ∈ escape a, allowed b = false

theorem refusesInEscapes_of_percent (hpercent : allowed percent = false) :
    RefusesInEscapes allowed := by
  intro a _
  obtain ⟨high, low, more, -, -, hescape⟩ := escape_eq_cons a
  exact ⟨percent, hescape ▸ List.mem_cons_self, hpercent⟩

theorem quote_cons_inj (hrefuses : RefusesInEscapes allowed) {a b : α} {xs ys : List α}
    (h : quote allowed (a :: xs) = quote allowed (b :: ys)) :
    a = b ∧ quote allowed xs = quote allowed ys := by
  -- A character that stands for itself opens no escape.
  have hmixed {a b : α} {xs t : List α} (ha : allowed a = true) (hb : ¬ allowed b = true) :
      [a] ++ quote allowed xs ≠ escape b ++ t := by
    intro h
    obtain ⟨c, hc, hrefused⟩ := hrefuses b (Bool.eq_false_iff.2 hb)
    rw [allowed_of_cons_quote_eq_escape_append ha h c hc] at hrefused
    cases hrefused
  rw [quote_cons, quote_cons, write, write] at h
  split_ifs at h with ha hb hb
  · exact List.cons.inj h
  · exact absurd h (hmixed ha hb)
  · exact absurd h.symm (hmixed hb ha)
  · exact escape_append_inj h

/-- **Quoting loses nothing** exactly under the policies that refuse something in the escape of
every character that they refuse. -/
theorem quote_injective_iff :
    Function.Injective (quote allowed) ↔ RefusesInEscapes allowed := by
  constructor
  · intro hinj a ha
    by_contra hall
    have hself : quote allowed (escape a) = escape a :=
      quote_eq_self fun b hb => by simpa using fun hb' => hall ⟨b, hb, hb'⟩
    have hquote : quote allowed [a] = escape a := by
      simp [quote_cons, quote_nil, write, ha]
    -- The character and its escape are quoted alike, but have different lengths.
    obtain ⟨high, low, more, -, -, hescape⟩ := escape_eq_cons a
    have heq := hinj (hquote.trans hself.symm)
    rw [hescape] at heq
    cases heq
  · intro hrefuses xs
    induction xs with
    | nil =>
      intro ys h
      cases ys with
      | nil => rfl
      | cons b ys => exact absurd h.symm (quote_ne_nil b ys)
    | cons a xs ih =>
      intro ys h
      cases ys with
      | nil => exact absurd h (quote_ne_nil a xs)
      | cons b ys =>
        obtain ⟨rfl, hrest⟩ := quote_cons_inj hrefuses h
        rw [ih hrest]

theorem quote_injective (hpercent : allowed percent = false) :
    Function.Injective (quote allowed) :=
  quote_injective_iff.2 (refusesInEscapes_of_percent hpercent)

/-! ## Delimiters -/

theorem isUnreserved_iff {a : α} : isUnreserved a = true ↔
    0x41 ≤ code a ∧ code a ≤ 0x5A ∨ 0x61 ≤ code a ∧ code a ≤ 0x7A ∨
      0x30 ≤ code a ∧ code a ≤ 0x39 ∨ code a ∈ [0x2D, 0x2E, 0x5F, 0x7E] := by
  simp [isUnreserved, isAlpha, isDigit, between, oneOf, or_assoc]

theorem isReserved_iff {a : α} : isReserved a = true ↔ code a ∈ [0x3A, 0x2F, 0x3F, 0x23, 0x5B,
    0x5D, 0x40, 0x21, 0x24, 0x26, 0x27, 0x28, 0x29, 0x2A, 0x2B, 0x2C, 0x3B, 0x3D] := by
  simp [isReserved, isGenDelim, isSubDelim, oneOf, or_assoc]

theorem isReserved_eq_false_of_isUnreserved {a : α} (h : isUnreserved a = true) :
    isReserved a = false := by
  rw [isUnreserved_iff] at h
  rw [Bool.eq_false_iff, Ne, isReserved_iff]
  simp only [List.mem_cons, List.not_mem_nil, or_false] at h ⊢
  omega

theorem isUnreserved_of_isHexDigit {a : α} (h : isHexDigit a = true) : isUnreserved a = true := by
  simp only [isHexDigit, isDigit, between, Bool.or_eq_true, Bool.and_eq_true,
    decide_eq_true_eq] at h
  rw [isUnreserved_iff]
  omega

theorem isReserved_percent : isReserved (percent : α) = false := by
  rw [Bool.eq_false_iff, Ne, isReserved_iff, code_percent]
  decide

/-- **No delimiter is left** where only unreserved characters stand for themselves. -/
theorem Encoded.not_mem_of_isReserved {text : List α} (h : Encoded isUnreserved text) {a : α}
    (ha : isReserved a = true) : a ∉ text := by
  intro hmem
  have hfalse : isReserved a = false := by
    rcases h.mem hmem with hunreserved | hpercent | hhex
    · exact isReserved_eq_false_of_isUnreserved hunreserved
    · rw [eq_percent_of_isPercent hpercent, isReserved_percent]
    · exact isReserved_eq_false_of_isUnreserved (isUnreserved_of_isHexDigit hhex)
  rw [hfalse] at ha
  cases ha

end LinkTemplate.Percent

/-! ## Operators that escape -/

namespace LinkTemplate.Rules

/-- Only unreserved characters of a value are kept, and the mark of an empty one is `=`, if it has
a mark. -/
structure Escapes (rules : Rules) : Prop where
  policy : rules.policy = .unreserved
  ifEmpty : rules.ifEmpty = [] ∨ rules.ifEmpty = ['=']

theorem escapes_of {operator : Option Operator} (hreserved : operator ≠ some .reserved)
    (hfragment : operator ≠ some .fragment) : (Rules.of operator).Escapes := by
  match operator with
  | some .reserved => exact absurd rfl hreserved
  | some .fragment => exact absurd rfl hfragment
  | none | some .label | some .pathSegment | some .pathParameter => exact ⟨rfl, .inl rfl⟩
  | some .formQuery | some .formContinuation => exact ⟨rfl, .inr rfl⟩

namespace Escapes

variable {rules : Rules} (h : rules.Escapes)
include h

theorem escape_eq_quote (text : Text) : rules.escape text = Percent.quote isUnreserved text := by
  rw [escape, h.policy]
  rfl

theorem encoded_escape (text : Text) : Percent.Encoded isUnreserved (rules.escape text) := by
  rw [h.escape_eq_quote]
  exact Percent.encoded_quote (by decide) text

theorem escape_injective : Function.Injective rules.escape := by
  intro x y hxy
  rw [h.escape_eq_quote, h.escape_eq_quote] at hxy
  exact Percent.quote_injective (by decide) hxy

end Escapes

end LinkTemplate.Rules

namespace LinkTemplate.Percent

variable {α : Type} [Alphabet α] {allowed : α → Bool}

theorem length_octets_surrogate {n : Nat} (hlow : 0xD800 ≤ n) (hhigh : n ≤ 0xDFFF) :
    (octets n).length = 3 := by
  rw [octets, if_neg (by omega), if_neg (by omega), if_pos (by omega)]
  rfl

/-- **Different texts are quoted differently** under a policy that refuses `%`. Surrogates have
escapes of their own, so a pair of them is not taken for the character that it would encode. The
operators that keep only unreserved characters of a value have such a policy. -/
theorem eq_of_quote_eq_quote (hpercent : allowed percent = false) :
    (∀ xs ys, quote allowed xs = quote allowed ys → xs = ys) ∧
      (∀ a : α, 0xD800 ≤ code a → code a ≤ 0xDFFF → (octets (code a)).length = 3) ∧
      ∀ operator, operator ≠ some .reserved → operator ≠ some .fragment →
        ∀ x y, (Rules.of operator).escape x = (Rules.of operator).escape y → x = y := by
  refine ⟨fun xs ys h => quote_injective hpercent h,
    fun a hlow hhigh => length_octets_surrogate hlow hhigh, ?_⟩
  intro operator hreserved hfragment x y h
  exact (Rules.escapes_of hreserved hfragment).escape_injective h

/-- The two halves of a pair and the character that the pair encodes elsewhere. -/
theorem quote_surrogates_ne_quote_character :
    let points : List Nat → List CodePoint := List.filterMap CodePoint.ofNat?
    let pair := points [0xD83D, 0xDE00]
    let character := points [0x1F600]
    isUnreserved (percent : CodePoint) = false ∧
      quote isUnreserved pair = points ("%ED%A0%BD%ED%B8%80".toList.map Char.toNat) ∧
      quote isUnreserved character = points ("%F0%9F%98%80".toList.map Char.toNat) ∧
      quote isUnreserved pair ≠ quote isUnreserved character := by
  intro points pair character
  have hpercent : isUnreserved (percent : CodePoint) = false := by decide
  obtain ⟨hquote, -, -⟩ := eq_of_quote_eq_quote hpercent
  refine ⟨hpercent, by decide, by decide, fun h => ?_⟩
  have hne : pair ≠ character := by decide
  exact hne (hquote pair character h)

end LinkTemplate.Percent
