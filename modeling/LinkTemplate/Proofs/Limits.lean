import LinkTemplate.Proofs.Faithful
import LinkTemplate.Proofs.Seams

/-!
# Limited strings

A size keeps the first characters of a string, and these are escaped afterwards. So nothing that is
written is ever cut, and a size gives what the shorter string gives without one.

**Fronts.** What is written of a shorter string begins what is written of a longer one. Under a
policy that quotes, this holds wherever the string is cut, because every character is written by
itself. Where triplets are kept it holds unless the cut goes through one (`LiesAcross`): what is
left of it is escaped. In front of the string stand the mark of the operator and perhaps a name,
and whether the name is followed by the mark of an empty string is the same for both: a size of
one or more leaves nothing of a string only if there was nothing.

Main results: `Percent.encode_isPrefix`, `Rules.escape_isPrefix`, `Expression.expand_string`.
-/

namespace LinkTemplate

/-! ## Encoding the front of a text -/

namespace Percent

variable {α : Type} [Alphabet α] {allowed : α → Bool}

/-- A triplet of the text begins in front of a position and ends behind it. -/
def LiesAcross (text : List α) (position : Nat) : Prop :=
  ∃ i : Nat, i < position ∧ position ≤ i + 2 ∧ tripletAt text i = some true

theorem Straddles.append_right {first second : List α} (h : Straddles first second)
    (more : List α) : Straddles first (second ++ more) := by
  cases h with
  | behindPercent before rest ha hb => exact .behindPercent before (rest ++ more) ha hb
  | behindDigit before rest ha hb => exact .behindDigit before (rest ++ more) ha hb

/-- Where a text is cut by a position, a triplet across the seam lies across the position. -/
theorem liesAcross_of_straddles {text : List α} {position : Nat}
    (h : Straddles (text.take position) (text.drop position)) : LiesAcross text position := by
  obtain ⟨i, hi, hlength, htriplet⟩ := straddles_iff.1 h
  rw [List.take_append_drop] at htriplet
  rw [List.length_take] at hi hlength
  refine ⟨i, by omega, ?_, htriplet⟩
  -- The triplet is within the text, so the seam is not at the end of it.
  rw [tripletAt_natCast, Option.some.injEq] at htriplet
  obtain ⟨a, b, rest, hdrop, -, -⟩ := exists_of_startsTriplet htriplet
  have hrest := congrArg List.length hdrop
  simp only [List.length_drop, List.length_cons] at hrest
  omega

/-- **The front of a text is encoded as a front** of its encoding, and of the encoding of any
longer front, unless a triplet lies across its end. -/
theorem encode_isPrefix {text longer : List α} {position : Nat} (hlonger : longer <+: text)
    (hfront : text.take position <+: longer) (h : ¬ LiesAcross text position) :
    encode allowed (text.take position) <+: encode allowed longer := by
  obtain ⟨rest, rfl⟩ := hfront
  have hseam : ¬ Straddles (text.take position) rest := by
    intro hstraddles
    obtain ⟨more, hmore⟩ := hlonger
    rw [List.append_assoc] at hmore
    have hdrop : rest ++ more = text.drop position :=
      List.append_cancel_left (hmore.trans (List.take_append_drop position text).symm)
    exact h (liesAcross_of_straddles (hdrop ▸ hstraddles.append_right more))
  rw [encode_append hseam]
  exact List.prefix_append _ _

end Percent

/-! ## Writing the front of a string -/

/-- The operators that keep triplets of their values. -/
def KeepsTriplets (operator : Option Operator) : Prop :=
  operator = some .reserved ∨ operator = some .fragment

namespace Rules

/-- **The front of a string is escaped as a front.** Only where triplets are kept does it matter
whether one lies across its end. -/
theorem escape_isPrefix {operator : Option Operator} {text longer : Text} {size : Nat}
    (hlonger : longer <+: text) (hfront : text.take size <+: longer)
    (h : KeepsTriplets operator → ¬ Percent.LiesAcross text size) :
    (Rules.of operator).escape (text.take size) <+: (Rules.of operator).escape longer := by
  by_cases hkeeps : KeepsTriplets operator
  · have hencode : Percent.encode isUriChar (text.take size) <+: Percent.encode isUriChar longer :=
      Percent.encode_isPrefix hlonger hfront (h hkeeps)
    rcases hkeeps with rfl | rfl
    · exact hencode
    · exact hencode
  · obtain ⟨hreserved, hfragment⟩ := not_or.1 hkeeps
    have hescapes := Rules.escapes_of hreserved hfragment
    rw [hescapes.escape_eq_quote, hescapes.escape_eq_quote]
    exact hfront.flatMap (Percent.write isUnreserved)

/-- Behind a name, two strings of which neither or both are empty begin alike. -/
theorem stringAtom_isPrefix {rules : Rules} (name : Text) {text longer : Text}
    (hempty : text = [] ↔ longer = []) (h : rules.escape text <+: rules.escape longer) :
    rules.stringAtom name text <+: rules.stringAtom name longer := by
  unfold stringAtom
  split_ifs with hnamed htext hlonger hlonger
  · exact List.prefix_rfl
  · exact absurd (hempty.1 htext) hlonger
  · exact absurd (hempty.2 hlonger) htext
  · rw [List.prefix_append_right_inj, List.cons_prefix_cons]
    exact ⟨rfl, h⟩
  · exact h

theorem stringAtom_take_isPrefix {operator : Option Operator} (name : Text) {text longer : Text}
    {size : Nat} (hpos : 1 ≤ size) (hlonger : longer <+: text) (hfront : text.take size <+: longer)
    (h : KeepsTriplets operator → ¬ Percent.LiesAcross text size) :
    (Rules.of operator).stringAtom name (text.take size) <+:
      (Rules.of operator).stringAtom name longer := by
  refine stringAtom_isPrefix name ⟨fun htake => ?_, fun hnil => ?_⟩
    (escape_isPrefix hlonger hfront h)
  · have htext : text = [] := by
      rw [List.take_eq_nil_iff] at htake
      exact htake.resolve_left (Nat.one_le_iff_ne_zero.1 hpos)
    rw [htext] at hlonger
    exact List.prefix_nil.1 hlonger
  · rw [hnil] at hfront
    exact List.prefix_nil.1 hfront

end Rules

/-! ## Expressions -/

theorem Varspec.slice_limit (name text : Text) (size : Nat) :
    Varspec.slice ⟨name, some (.limit size)⟩ text = text.take size := rfl

theorem Expression.expand_string (operator : Option Operator) (v : Varspec) {l : Lookup}
    {text : Text} (h : l.value? v.name = .ok (some (.string text))) :
    Expression.expand ⟨operator, [v]⟩ l = .ok ((Rules.of operator).first ++
      (Rules.of operator).stringAtom (Percent.encode isUnreserved v.name) (v.slice text)) := by
  rw [Expression.expand_singleton operator v h, Rules.atoms, Rules.joinAtoms_singleton]

/-- **Sizes are counted in characters of the string.** Under every operator and for every name, a
size gives what its first characters give without a size. A smaller size gives a front of what a
larger one gives, and this is a front of what the whole string gives. Operators that keep triplets
need for this that none of the string lies across the end of what the size keeps. -/
theorem expand_of_limit (operator : Option Operator) (name text : Text) {m n : Nat} (hpos : 1 ≤ m)
    (hle : m ≤ n) {l : Lookup} (hl : l.value? name = .ok (some (.string text))) :
    (∀ l' : Lookup, l'.value? name = .ok (some (.string (text.take n))) →
      Expression.expand ⟨operator, [⟨name, some (.limit n)⟩]⟩ l =
        Expression.expand ⟨operator, [⟨name, none⟩]⟩ l') ∧
    ∃ short long whole,
      Expression.expand ⟨operator, [⟨name, some (.limit m)⟩]⟩ l = .ok short ∧
      Expression.expand ⟨operator, [⟨name, some (.limit n)⟩]⟩ l = .ok long ∧
      Expression.expand ⟨operator, [⟨name, none⟩]⟩ l = .ok whole ∧
      ((KeepsTriplets operator → ¬ Percent.LiesAcross text m) → short <+: long) ∧
      ((KeepsTriplets operator → ¬ Percent.LiesAcross text n) → long <+: whole) := by
  have hshort := Expression.expand_string operator ⟨name, some (.limit m)⟩ hl
  have hlong := Expression.expand_string operator ⟨name, some (.limit n)⟩ hl
  have hwhole := Expression.expand_string operator ⟨name, none⟩ hl
  refine ⟨fun l' hl' => ?_, _, _, _, hshort, hlong, hwhole, fun h => ?_, fun h => ?_⟩
  · have hfront := Expression.expand_string operator ⟨name, none⟩ hl'
    exact hlong.trans hfront.symm
  · rw [List.prefix_append_right_inj, Varspec.slice_limit, Varspec.slice_limit]
    have hfront : text.take m <+: text.take n := List.take_isPrefix_take.2 (.inl hle)
    exact Rules.stringAtom_take_isPrefix _ hpos (List.take_prefix n text) hfront h
  · rw [List.prefix_append_right_inj, Varspec.slice_limit]
    have hn : 1 ≤ n := Nat.le_trans hpos hle
    exact Rules.stringAtom_take_isPrefix _ hn List.prefix_rfl (List.take_prefix n text) h

/-- A triplet between two sizes, which is kept, and a character of three octets behind them. -/
theorem expand_of_limit_triplet :
    let text : Text := "a%41€".toList
    let l := Lookup.ofValues fun _ => some (.string text)
    let expand := fun modifier => Expression.expand ⟨some .fragment, [⟨['x'], modifier⟩]⟩ l
    (1 ≤ 1 ∧ 1 ≤ 4 ∧ l.value? ['x'] = .ok (some (.string text))) ∧
      (¬ Percent.LiesAcross text 1 ∧ ¬ Percent.LiesAcross text 4) ∧
      ∃ short long whole, expand (some (.limit 1)) = .ok short ∧
        expand (some (.limit 4)) = .ok long ∧ expand none = .ok whole ∧
        whole = "#a%41%E2%82%AC".toList ∧ short <+: long ∧ long <+: whole := by
  intro text l expand
  have hl : l.value? ['x'] = .ok (some (.string text)) := Lookup.value?_ofValues _ ['x']
  have hfirst : ¬ Percent.LiesAcross text 1 := by
    unfold Percent.LiesAcross
    decide
  have hsecond : ¬ Percent.LiesAcross text 4 := by
    unfold Percent.LiesAcross
    decide
  obtain ⟨-, short, long, whole, hshort, hlong, hwhole, hbegins, hbegins'⟩ :=
    expand_of_limit (some .fragment) ['x'] text (by decide : 1 ≤ 1) (by decide : 1 ≤ 4) hl
  have htext : expand none = .ok "#a%41%E2%82%AC".toList := by decide
  exact ⟨⟨by decide, by decide, hl⟩, ⟨hfirst, hsecond⟩, short, long, whole, hshort, hlong, hwhole,
    Except.ok.inj (hwhole.symm.trans htext), hbegins fun _ => hfirst, hbegins' fun _ => hsecond⟩

/-- A size that cuts a triplet leaves a `%` that is escaped. -/
example : Expression.expand ⟨some .reserved, [⟨['x'], some (.limit 1)⟩]⟩
      (.ofValues fun _ => some (.string "%41".toList)) = .ok "%25".toList ∧
    Expression.expand ⟨some .reserved, [⟨['x'], none⟩]⟩
      (.ofValues fun _ => some (.string "%41".toList)) = .ok "%41".toList := by
  decide

end LinkTemplate
