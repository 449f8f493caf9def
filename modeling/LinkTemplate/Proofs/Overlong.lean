import LinkTemplate.Proofs.Cutting

/-!
# Sizes too long to be read

Whatever is wrong with a template text, it is kept as a literal. There is one exception: a number
of too many digits is refused before its size is looked at, and the whole text with it. Which texts
these are depends on what is read first.

**Overlong variables** (`IsOverlong`). A name, `:`, perhaps `+`, and more digits than a number can
have, of which the first is no zero. A fault of the name, a character that is no digit, or a leading
zero is met before the digits are counted, and an overlong size is none behind another modifier.

**Bodies** (`IsOverlongBody`). Variables are read in order, so the first that is none decides: if it
is overlong, the body is refused, and otherwise it is degraded whatever follows.

**Texts** (`HasOverlong`). One body that is refused suffices, wherever it stands in the text. A
brace that is never closed has no body.

Main results: `Grammar.readExpression_eq_tooManyDigits_iff`, `readItems_eq_error_iff`.
-/

namespace LinkTemplate

open Text

namespace Grammar

/-! ## Texts that are refused -/

/-- Digits that would be a size if they were fewer. -/
structure IsOverlongSize (digits : Text) : Prop where
  isDigit : ∀ c ∈ digits, c.isDigit
  head : digits.head? ≠ some '0'
  maxDigits_lt : Decimal.maxDigits < digits.length

theorem isOverlongSize_replicate {n : Nat} (h : Decimal.maxDigits < n) :
    IsOverlongSize (List.replicate n '1') where
  isDigit c hc := by
    rw [List.eq_of_mem_replicate hc]
    rfl
  head := by
    rw [List.head?_replicate]
    split_ifs <;> simp
  maxDigits_lt := by rwa [List.length_replicate]

/-- How a variable with an overlong size is written. -/
def IsOverlong (part : Text) : Prop :=
  ∃ name sign digits, part = name ++ ':' :: (sign ++ digits) ∧ IsName name ∧
    (sign = [] ∨ sign = ['+']) ∧ IsOverlongSize digits

/-- A body in which an overlong part comes behind variables only. -/
def IsOverlongBody (body : Text) : Prop :=
  ∃ operator rest before part after, Opens body operator rest ∧
    rest.splitOn ',' = before ++ part :: after ∧ (∀ spec ∈ before, ∃ v, IsVarspec spec v) ∧
    IsOverlong part

/-! ## Variables -/

theorem IsOverlongSize.ne_nil {digits : Text} (h : IsOverlongSize digits) : digits ≠ [] :=
  List.ne_nil_of_length_pos (Nat.zero_lt_of_lt h.maxDigits_lt)

theorem IsOverlongSize.dropPlus_eq {digits sign : Text} (h : IsOverlongSize digits)
    (hsign : sign = [] ∨ sign = ['+']) : dropPlus (sign ++ digits) = digits := by
  rcases hsign with rfl | rfl
  · exact dropPlus_of_isDigit h.isDigit
  · rfl

theorem readName_ne_tooManyDigits (text : Text) : readName text ≠ .error .tooManyDigits := by
  unfold readName
  split_ifs
  · simp
  · cases nameFault? 0 text with
    | none => simp
    | some fault => simp

theorem readLimit_eq_tooManyDigits_iff {text : Text} :
    readLimit text = .error .tooManyDigits ↔ IsOverlongSize (dropPlus text) := by
  have hall : (dropPlus text).all LinkTemplate.isDigit = true ↔
      ∀ c ∈ dropPlus text, c.isDigit := List.all_eq_true
  constructor
  · intro h
    unfold readLimit at h
    dsimp only at h
    split_ifs at h with hstart hdigit hmany hlarge
    · cases h
    · cases h
    · rw [Bool.or_eq_true, decide_eq_true_eq, not_or] at hstart
      rw [Bool.not_eq_true', Bool.not_eq_false] at hdigit
      exact ⟨hall.1 hdigit, hstart.2, hmany⟩
    · cases h
  · intro h
    unfold readLimit
    dsimp only
    rw [if_neg (by simp [h.ne_nil, h.head]), if_neg (by simp [hall.2 h.isDigit]),
      if_pos h.maxDigits_lt]

theorem isOverlong_of_readVarspec {part : Text} (h : readVarspec part = .error .tooManyDigits) :
    IsOverlong part := by
  unfold readVarspec at h
  by_cases hempty : part.isEmpty = true
  · rw [if_pos hempty] at h
    cases h
  rw [if_neg hempty] at h
  -- Only behind a colon is a number looked for, and only where there is no star.
  cases hstar : cut '*' part with
  | none =>
    cases hcolon : cut ':' part with
    | none =>
      rw [hstar, hcolon] at h
      rcases bind_eq_error_iff.1 h with hname | ⟨name, -, hret⟩
      · exact absurd hname (readName_ne_tooManyDigits part)
      · cases hret
    | some parts =>
      obtain ⟨before, after⟩ := parts
      rw [hstar, hcolon] at h
      rcases bind_eq_error_iff.1 h with hname | ⟨name, hread, hrest⟩
      · exact absurd hname (readName_ne_tooManyDigits before)
      rcases bind_eq_error_iff.1 hrest with hlimit | ⟨size, -, hret⟩
      · obtain ⟨sign, hsign, hafter⟩ := eq_sign_append_dropPlus after
        obtain ⟨rfl, hname⟩ := readName_eq_ok_iff.1 hread
        refine ⟨name, sign, dropPlus after, ?_, hname, hsign,
          readLimit_eq_tooManyDigits_iff.1 hlimit⟩
        rw [← hafter]
        exact (cut_eq_some hcolon).1
      · cases hret
  | some parts =>
    obtain ⟨before, after⟩ := parts
    cases hcolon : cut ':' part with
    | none =>
      rw [hstar, hcolon] at h
      dsimp only at h
      split_ifs at h with hlast
      · rcases bind_eq_error_iff.1 h with hname | ⟨name, -, hret⟩
        · exact absurd hname (readName_ne_tooManyDigits before)
        · cases hret
      · cases h
    | some _ =>
      rw [hstar, hcolon] at h
      cases h

theorem IsOverlong.not_mem {part : Text} (h : IsOverlong part) {c : Char}
    (hchar : isNameChar c = false) (hmark : c ∉ ['%', ':', '+']) : c ∉ part := by
  simp only [List.mem_cons, List.not_mem_nil, or_false, not_or] at hmark
  obtain ⟨hpercent, hcolon, hplus⟩ := hmark
  obtain ⟨name, sign, digits, rfl, hname, hsign, hsize⟩ := h
  have hdigits : c ∉ digits := not_mem_of_forall_isDigit hsize.isDigit hchar
  rcases hsign with rfl | rfl <;> simp [hname.not_mem hchar hpercent, hcolon, hplus, hdigits]

theorem readVarspec_of_isOverlong {part : Text} (h : IsOverlong part) :
    readVarspec part = .error .tooManyDigits := by
  have hstar : '*' ∉ part := h.not_mem (by decide) (by decide)
  obtain ⟨name, sign, digits, rfl, hname, hsign, hsize⟩ := h
  have hread : readLimit (sign ++ digits) = .error .tooManyDigits := by
    rw [readLimit_eq_tooManyDigits_iff, hsize.dropPlus_eq hsign]
    exact hsize
  unfold readVarspec
  rw [if_neg (by simp), cut_of_not_mem hstar, cut_append_cons hname.colon_not_mem]
  exact bind_eq_error_iff.2 (.inr ⟨name, readName_eq_ok_iff.2 ⟨rfl, hname⟩,
    bind_eq_error_iff.2 (.inl hread)⟩)

/-- **A variable is refused exactly if it is overlong.** -/
theorem readVarspec_eq_tooManyDigits_iff {part : Text} :
    readVarspec part = .error .tooManyDigits ↔ IsOverlong part :=
  ⟨isOverlong_of_readVarspec, readVarspec_of_isOverlong⟩

/-! ## Bodies -/

theorem mapM_readVarspec_eq_tooManyDigits_iff {rest : Text} :
    (fields ',' rest).mapM readVarspec = .error .tooManyDigits ↔
      ∃ before part after, rest.splitOn ',' = before ++ part :: after ∧
        (∀ spec ∈ before, ∃ v, IsVarspec spec v) ∧ IsOverlong part := by
  simp only [mapM_eq_error_iff, fields_eq_splitOn, readVarspec_eq_ok_iff,
    readVarspec_eq_tooManyDigits_iff]

/-- **A body is refused exactly if it is overlong.** -/
theorem readExpression_eq_tooManyDigits_iff {body : Text} :
    readExpression body = .error .tooManyDigits ↔ IsOverlongBody body := by
  have hread : readExpression body = .error .tooManyDigits ↔ body ≠ [] ∧
      (fields ',' (splitOperator body).2).mapM readVarspec = .error .tooManyDigits := by
    unfold readExpression
    split_ifs with hempty
    · simp [List.isEmpty_iff.1 hempty]
    · rw [bind_eq_error_iff]
      constructor
      · rintro (hvars | ⟨vars, -, hret⟩)
        · exact ⟨mt List.isEmpty_iff.2 hempty, hvars⟩
        · cases hret
      · rintro ⟨-, hvars⟩
        exact .inl hvars
  rw [hread, mapM_readVarspec_eq_tooManyDigits_iff]
  constructor
  · rintro ⟨-, before, part, after, hsplit, hbefore, hpart⟩
    exact ⟨_, _, before, part, after, splitOperator_eq_iff.1 rfl, hsplit, hbefore, hpart⟩
  · rintro ⟨operator, rest, before, part, after, hopens, hsplit, hbefore, hpart⟩
    rw [splitOperator_eq_iff.2 hopens]
    refine ⟨?_, before, part, after, hsplit, hbefore, hpart⟩
    rintro rfl
    -- An empty body would have one part, an empty one, which is read before all others.
    have hrefused := mapM_readVarspec_eq_tooManyDigits_iff.2
      ⟨before, part, after, hsplit, hbefore, hpart⟩
    rw [hopens.eq_nil] at hrefused
    cases hrefused

theorem isOverlongBody_of_opens {body part : Text} {operator : Option Operator}
    (hopens : Opens body operator part) (hpart : IsOverlong part) : IsOverlongBody body := by
  have hsplit : part.splitOn ',' = [part] := by
    have hcomma : ∀ piece ∈ [part], ',' ∉ piece := by
      simpa using hpart.not_mem (by decide) (by decide)
    simpa [fields_eq_splitOn] using fields_intercalate hcomma (List.cons_ne_nil part [])
  exact ⟨operator, part, [], part, [], hopens, hsplit, by simp, hpart⟩

/-- A first variable whose limit has too many digits refuses the whole body. -/
theorem readExpression_of_maxDigits_lt {body name digits : Text} {operator : Option Operator}
    (hopens : Opens body operator (name ++ ':' :: digits)) (hname : IsName name)
    (hdigit : ∀ c ∈ digits, c.isDigit) (hhead : digits.head? ≠ some '0')
    (hmany : Decimal.maxDigits < digits.length) :
    readExpression body = .error .tooManyDigits :=
  readExpression_eq_tooManyDigits_iff.2 (isOverlongBody_of_opens hopens
    ⟨name, [], digits, rfl, hname, .inl rfl, hdigit, hhead, hmany⟩)

end Grammar

/-! ## Texts -/

/-- A braced body of the text is overlong. -/
def HasOverlong (text : Text) : Prop :=
  ∃ spans body, Span.Cuts spans text ∧ Span.braced body ∈ spans ∧ Grammar.IsOverlongBody body

theorem hasOverlong_braced {body : Text} (hclose : '\x7d' ∉ body)
    (h : Grammar.IsOverlongBody body) : HasOverlong (Span.braced body).toText := by
  have hscan := Span.scan_braced hclose []
  rw [List.append_nil, Span.scan_nil] at hscan
  exact ⟨_, body, Span.cuts_scan _, hscan ▸ List.mem_cons_self, h⟩

theorem HasOverlong.braced_append {text body : Text} (h : HasOverlong text)
    (hclose : '\x7d' ∉ body) : HasOverlong ((Span.braced body).toText ++ text) := by
  obtain ⟨spans, overlong, hcuts, hmem, hoverlong⟩ := h
  refine ⟨_, overlong, Span.cuts_scan _, ?_, hoverlong⟩
  rw [Span.scan_braced hclose, ← hcuts.eq_scan]
  exact List.mem_cons_of_mem _ hmem

theorem hasOverlong_size {digits : Text} (h : Grammar.IsOverlongSize digits) :
    HasOverlong (Span.braced ('x' :: ':' :: digits)).toText := by
  have hname : Grammar.IsName ['x'] := (Grammar.readName_eq_ok_iff.1 rfl).2
  have hpart : Grammar.IsOverlong ('x' :: ':' :: digits) :=
    ⟨['x'], [], digits, rfl, hname, .inl rfl, h⟩
  exact hasOverlong_braced (hpart.not_mem (by decide) (by decide))
    (Grammar.isOverlongBody_of_opens (Grammar.splitOperator_eq_iff.1 rfl) hpart)

theorem Span.item_eq_error_iff {s : Span} {failure : Failure} :
    s.item = .error failure ↔
      failure = .tooManyDigits ∧ ∃ body, s = braced body ∧ Grammar.IsOverlongBody body := by
  constructor
  · intro h
    cases s with
    | plain text => cases h
    | dangling rest => cases h
    | braced body =>
      rw [item] at h
      split at h
      · cases h
      · cases h
      · next hread =>
        cases h
        exact ⟨rfl, body, rfl, Grammar.readExpression_eq_tooManyDigits_iff.1 hread⟩
  · rintro ⟨rfl, body, rfl, hbody⟩
    rw [item, Grammar.readExpression_eq_tooManyDigits_iff.2 hbody]

namespace Template

theorem exists_readItems_eq_ok_iff {text : Text} :
    (∃ items, readItems text = .ok items) ↔ ¬ HasOverlong text := by
  rw [readItems, exists_mapM_eq_ok_iff]
  constructor
  · rintro h ⟨spans, body, hcuts, hmem, hbody⟩
    rw [hcuts.eq_scan] at hmem
    obtain ⟨i, hi⟩ := h _ hmem
    rw [Span.item_eq_error_iff.2 ⟨rfl, body, rfl, hbody⟩] at hi
    cases hi
  · intro h s hs
    cases hitem : s.item with
    | ok i => exact ⟨i, rfl⟩
    | error failure =>
      obtain ⟨-, body, rfl, hbody⟩ := Span.item_eq_error_iff.1 hitem
      exact absurd ⟨_, body, Span.cuts_scan text, hs, hbody⟩ h

/-- **A text is refused exactly if a body of it is overlong**, and for no other reason than that. -/
theorem readItems_eq_error_iff {text : Text} {failure : Failure} :
    readItems text = .error failure ↔ failure = .tooManyDigits ∧ HasOverlong text := by
  constructor
  · intro h
    refine ⟨readItems_eq_error h, not_not.1 fun hnot => ?_⟩
    exact exists_eq_ok_iff.1 (exists_readItems_eq_ok_iff.2 hnot) ⟨failure, h⟩
  · rintro ⟨rfl, hoverlong⟩
    cases h : readItems text with
    | ok items => exact absurd hoverlong (exists_readItems_eq_ok_iff.1 ⟨items, h⟩)
    | error failure => rw [readItems_eq_error h]

/-- **Which texts are no templates.** A text is refused exactly if a body of it is overlong, with
nothing but the refusal of the number, and every other text has items. -/
theorem readItems_refuses_overlong (text : Text) :
    (∀ failure, readItems text = .error failure ↔ failure = .tooManyDigits ∧ HasOverlong text) ∧
      ((∃ items, readItems text = .ok items) ↔ ¬ HasOverlong text) :=
  ⟨fun _ => readItems_eq_error_iff, exists_readItems_eq_ok_iff⟩

end Template

end LinkTemplate
