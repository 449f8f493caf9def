import LinkTemplate.Proofs.Body

/-!
# Expressions as they are written

Reading an expression forgets one thing: the `+` that may stand in front of a size. Writing it
gives everything else back as it was, so what is written for an expression is its body without
the signs (`body_eq_dropSigns`).

The other way round, not every expression that can be put together can be read. Those that can
are the *proper* ones. They have at least one variable. Their names are names of the grammar and
their sizes are sizes of it. And a name that begins with `.` does not stand first behind the
opening brace, where the point would be the operator.

Sizes are numbers in an expression and digits in a text. Without leading zeros the two determine
each other: `natText_ofDigitChars` and `isSize_natText`.

Main results: `IsBody.body_eq_dropSigns`, `readExpression_body_iff`.
-/

namespace LinkTemplate

open Text Decimal

/-! ## Proper expressions -/

/-- A variable as it can be read. -/
structure Varspec.IsProper (v : Varspec) : Prop where
  name : Grammar.IsName v.name
  size : ∀ size, v.modifier = some (.limit size) → 1 ≤ size ∧ size ≤ 9999

/-- An expression as it can be read. -/
structure Expression.IsProper (e : Expression) : Prop where
  vars_ne_nil : e.vars ≠ []
  vars : ∀ v ∈ e.vars, v.IsProper
  /-- Without operator, the first character is no operator. -/
  bare : e.operator = none → ∀ v ∈ e.vars.head?, v.name.head? ≠ some '.'

namespace Grammar

/-! ## Signs -/

/-- A text without each `+` that stands directly behind a `:`. -/
def dropSigns : Text → Text
  | ':' :: '+' :: rest => ':' :: dropSigns rest
  | c :: rest => c :: dropSigns rest
  | [] => []

theorem dropSigns_cons {c : Char} {rest : Text} (h : c = ':' → rest.head? ≠ some '+') :
    dropSigns (c :: rest) = c :: dropSigns rest := by
  rw [dropSigns.eq_def]
  split
  · next heq =>
    obtain ⟨rfl, rfl⟩ := List.cons.inj heq
    exact absurd rfl (h rfl)
  · next heq =>
    obtain ⟨rfl, rfl⟩ := List.cons.inj heq
    rfl
  · next heq => cases heq

theorem dropSigns_append_of_not_mem {text : Text} (h : ':' ∉ text) (rest : Text) :
    dropSigns (text ++ rest) = text ++ dropSigns rest := by
  induction text with
  | nil => rfl
  | cons c text ih =>
    obtain ⟨hc, htext⟩ := not_or.1 (mt List.mem_cons.2 h)
    rw [List.cons_append, dropSigns_cons fun hcolon => absurd hcolon.symm hc, ih htext]
    rfl

theorem dropSigns_of_not_mem {text : Text} (h : ':' ∉ text) : dropSigns text = text := by
  have happend := dropSigns_append_of_not_mem h []
  rwa [List.append_nil, dropSigns, List.append_nil] at happend

/-- A character that is no sign itself keeps the signs before it from those behind. -/
theorem dropSigns_append_cons {c : Char} (hc : c ≠ '+') (before after : Text) :
    dropSigns (before ++ c :: after) = dropSigns before ++ dropSigns (c :: after) := by
  fun_induction dropSigns before with
  | case1 rest ih => rw [List.cons_append, List.cons_append, dropSigns, ih, List.cons_append]
  | case2 d rest hne ih =>
    have hhead : d = ':' → (rest ++ c :: after).head? ≠ some '+' := by
      rintro rfl
      cases rest with
      | nil => simpa using hc
      | cons e rest => simpa using fun he : e = '+' => hne rest rfl (he ▸ rfl)
    rw [List.cons_append, dropSigns_cons hhead, ih, List.cons_append]
  | case3 => rfl

theorem dropSigns_intercalate (specs : List Text) :
    dropSigns (List.intercalate [','] specs) = List.intercalate [','] (specs.map dropSigns) := by
  refine map_intercalate rfl (fun before after => ?_) specs
  rw [List.singleton_append, dropSigns_append_cons (by decide),
    dropSigns_cons fun h => absurd h (by decide), List.singleton_append]

theorem dropSigns_eq_self {text : Text} (h : ¬ [':', '+'] <:+: text) : dropSigns text = text := by
  induction text with
  | nil => rfl
  | cons c rest ih =>
    have hrest : ¬ [':', '+'] <:+: rest := fun hin => h (List.infix_cons hin)
    have hhead : c = ':' → rest.head? ≠ some '+' := by
      rintro rfl hplus
      obtain ⟨tail, rfl⟩ := List.head?_eq_some_iff.1 hplus
      exact h (List.prefix_append [':', '+'] tail).isInfix
    rw [dropSigns_cons hhead, ih hrest]

/-! ## Sizes -/

theorem natText_digit {c : Char} (h : c.isDigit) : natText (c.toNat - '0'.toNat) = [c] := by
  have hrange := Char.isDigit_iff_toNat.1 h
  have hzero : '0'.toNat = 48 := rfl
  have hnine : '9'.toNat = 57 := rfl
  have hlt : c.toNat - '0'.toNat < 10 := by omega
  have hchar : Nat.digitChar (c.toNat - '0'.toNat) = c := by
    rw [← Char.toNat_inj, Nat.toNat_digitChar_of_lt_ten hlt]
    omega
  rw [natText, Nat.toDigits_of_lt_base hlt, hchar]

/-- Digits behind those of a positive number are digits of the number that all of them stand
for. -/
theorem natText_append {digits : Text} (h : ∀ c ∈ digits, c.isDigit) {n : Nat} (hn : 0 < n) :
    natText n ++ digits = natText (Nat.ofDigitChars 10 digits n) := by
  induction digits generalizing n with
  | nil => simp
  | cons c rest ih =>
    have hc := h c List.mem_cons_self
    have hlt : c.toNat - '0'.toNat < 10 := by
      have hle := (Char.isDigit_iff_toNat.1 hc).2
      have hnine : '9'.toNat = '0'.toNat + 9 := rfl
      omega
    have hstep : natText n ++ [c] = natText (10 * n + (c.toNat - '0'.toNat)) := by
      rw [← natText_digit hc]
      exact Nat.toDigits_append_toDigits (by decide) hn hlt
    rw [Nat.ofDigitChars_cons, ← ih (fun d hd => h d (List.mem_cons_of_mem c hd)) (by omega),
      ← hstep, List.append_assoc, List.singleton_append]

theorem natText_ofDigitChars {digits : Text} (h : IsSize digits) :
    natText (Nat.ofDigitChars 10 digits 0) = digits := by
  obtain ⟨c, rest, rfl⟩ := List.exists_cons_of_ne_nil (List.ne_nil_of_length_pos h.length_pos)
  have hc := h.isDigit c List.mem_cons_self
  have hzero : c.toNat ≠ '0'.toNat := fun heq => h.head (congrArg some (Char.toNat_inj.1 heq))
  have hle := (Char.isDigit_iff_toNat.1 hc).1
  rw [Nat.ofDigitChars_cons, Nat.mul_zero, Nat.zero_add,
    ← natText_append (fun d hd => h.isDigit d (List.mem_cons_of_mem c hd)) (by omega),
    natText_digit hc, List.singleton_append]

theorem head_natText_ne_zero {n : Nat} (hn : 0 < n) : (natText n).head? ≠ some '0' := by
  induction n using Nat.strongRecOn with
  | ind n ih =>
    unfold natText
    rw [Nat.toDigits_eq_if (by decide)]
    split
    · next hlt =>
      intro h
      have hdigit : Nat.digitChar n = '0' := Option.some.inj h
      rw [Nat.digitChar_eq_zero] at hdigit
      omega
    · rw [List.head?_append_of_ne_nil _ Nat.toDigits_ne_nil]
      exact ih (n / 10) (by omega) (by omega)

theorem isSize_natText {n : Nat} (hpos : 1 ≤ n) (hle : n ≤ 9999) : IsSize (natText n) := by
  refine isSize_iff.2 ⟨Nat.toDigits_ne_nil, head_natText_ne_zero hpos, fun c hc => ?_, ?_⟩
  · exact Nat.isDigit_of_mem_toDigits (by decide) (by decide) hc
  · rw [natText, Nat.ofDigitChars_ten_toDigits]
    exact Nat.lt_succ_of_le hle

theorem IsSize.bounds {digits : Text} (h : IsSize digits) :
    1 ≤ Nat.ofDigitChars 10 digits 0 ∧ Nat.ofDigitChars 10 digits 0 ≤ 9999 := by
  obtain ⟨hne, hhead, hdigit, hlt⟩ := isSize_iff.1 h
  obtain ⟨c, rest, rfl⟩ := List.exists_cons_of_ne_nil hne
  have hzero : c ≠ '0' := fun h => hhead (congrArg some h)
  have hle := le_ofDigitChars (hdigit c List.mem_cons_self) hzero rest
  exact ⟨(Nat.one_le_pow _ _ (by decide)).trans hle, Nat.le_of_lt_succ hlt⟩

/-! ## Variables -/

theorem IsVarspec.isProper {spec : Text} {v : Varspec} (h : IsVarspec spec v) : v.IsProper := by
  cases h with
  | plain hname => exact ⟨hname, fun size hsize => by cases hsize⟩
  | explode hname => exact ⟨hname, fun size hsize => by cases hsize⟩
  | limit hname _ hdigits =>
    refine ⟨hname, ?_⟩
    rintro size ⟨⟩
    have hbounds := hdigits.bounds
    omega

theorem IsVarspec.toText_eq_dropSigns {spec : Text} {v : Varspec} (h : IsVarspec spec v) :
    v.toText = dropSigns spec := by
  cases h with
  | plain hname => exact (dropSigns_of_not_mem hname.colon_not_mem).symm
  | explode hname =>
    rw [dropSigns_append_of_not_mem hname.colon_not_mem]
    rfl
  | @limit name sign digits hname hsign hdigits =>
    have hplus : digits.head? ≠ some '+' := fun h =>
      absurd (hdigits.isDigit '+' (List.mem_of_head? h)) (by decide)
    have hcolon : ':' ∉ digits := fun h => absurd (hdigits.isDigit ':' h) (by decide)
    have hdrop : dropSigns (':' :: (sign ++ digits)) = ':' :: digits := by
      rcases hsign with rfl | rfl
      · rw [List.nil_append, dropSigns_cons fun _ => hplus, dropSigns_of_not_mem hcolon]
      · rw [List.singleton_append, dropSigns, dropSigns_of_not_mem hcolon]
    rw [dropSigns_append_of_not_mem hname.colon_not_mem, hdrop]
    change name ++ ':' :: natText (Nat.ofDigitChars 10 digits 0) = name ++ ':' :: digits
    rw [natText_ofDigitChars hdigits]

theorem isVarspec_toText {v : Varspec} (h : v.IsProper) : IsVarspec v.toText v := by
  obtain ⟨name, modifier⟩ := v
  match modifier with
  | none => exact .plain h.name
  | some .explode => exact .explode h.name
  | some (.limit size) =>
    obtain ⟨hpos, hle⟩ := h.size size rfl
    obtain ⟨n, rfl⟩ := Int.eq_ofNat_of_zero_le (by omega : 0 ≤ size)
    have hsize : IsSize (natText n) := isSize_natText (by omega) (by omega)
    have hread := IsVarspec.limit h.name (.inl rfl) hsize
    rw [natText, Nat.ofDigitChars_ten_toDigits] at hread
    exact hread

/-- What is within the bounds of a size is within the digit limit. -/
theorem isWritable_of_isProper {v : Varspec} (h : v.IsProper) : v.isWritable = true := by
  obtain ⟨name, modifier⟩ := v
  match modifier with
  | none => rfl
  | some .explode => rfl
  | some (.limit size) =>
    obtain ⟨hpos, hle⟩ := h.size size rfl
    have hsize : IsSize (natText size.natAbs) := isSize_natText (by omega) (by omega)
    have hmax : 4 ≤ maxDigits := by decide
    rw [Varspec.isWritable, Varspec.limit?, Option.all_some, withinDigits_iff]
    exact hsize.length_le.trans hmax

/-! ## Expressions -/

theorem map_toText_eq_map_dropSigns {specs : List Text} {vars : List Varspec}
    (h : List.Forall₂ IsVarspec specs vars) :
    vars.map Varspec.toText = specs.map dropSigns := by
  induction h with
  | nil => rfl
  | cons hspec _ ih => rw [List.map_cons, List.map_cons, ih, hspec.toText_eq_dropSigns]

theorem IsBody.body_eq_dropSigns {body : Text} {e : Expression} (h : IsBody body e) :
    e.body = dropSigns body := by
  obtain ⟨rest, specs, hopens, hrest, -, hspecs⟩ := h
  have hvars : List.intercalate [','] (e.vars.map Varspec.toText) = dropSigns rest := by
    rw [hrest, dropSigns_intercalate, map_toText_eq_map_dropSigns hspecs]
  obtain ⟨operator, vars⟩ := e
  unfold Expression.body
  rw [hvars]
  cases hopens with
  | sigil op rest =>
    have hcolon : op.sigil ≠ ':' := by cases op <;> decide
    rw [dropSigns_cons fun h => absurd h hcolon]
    rfl
  | bare _ => rfl

/-- Variables begin as the first of them does, and that one begins with its name. -/
theorem head?_intercalate {spec : Text} {specs : List Text} {v : Varspec}
    (h : IsVarspec spec v) :
    (List.intercalate [','] (spec :: specs)).head? = v.name.head? := by
  have hspec : spec.head? = v.name.head? := by
    cases h with
    | plain _ => rfl
    | explode hname => exact List.head?_append_of_ne_nil _ hname.1
    | limit hname _ _ => exact List.head?_append_of_ne_nil _ hname.1
  cases specs with
  | nil => rw [List.intercalate_singleton, hspec]
  | cons second specs =>
    rw [List.intercalate_cons_cons, List.append_assoc, List.head?_append_of_ne_nil _ h.ne_nil,
      hspec]

theorem IsBody.isProper {body : Text} {e : Expression} (h : IsBody body e) : e.IsProper := by
  obtain ⟨rest, specs, hopens, rfl, hne, hspecs⟩ := h
  refine ⟨?_, fun v hv => ?_, fun hop v hv hdot => ?_⟩
  · intro hvars
    rw [hvars, List.forall₂_nil_right_iff] at hspecs
    exact hne hspecs
  · obtain ⟨spec, -, hspec⟩ := exists_mem_of_mem_right hspecs hv
    exact hspec.isProper
  · rw [hop] at hopens
    obtain ⟨vars, hvars⟩ := List.head?_eq_some_iff.1 hv
    rw [hvars] at hspecs
    obtain ⟨spec, specs, hspec, -, rfl⟩ := List.forall₂_cons_right_iff.1 hspecs
    cases hopens with
    | bare hbare => exact hbare .label ((head?_intercalate hspec).trans hdot)

theorem isBody_body {e : Expression} (h : e.IsProper) : IsBody e.body e := by
  obtain ⟨operator, vars⟩ := e
  have hspecs : List.Forall₂ IsVarspec (vars.map Varspec.toText) vars := by
    rw [List.forall₂_map_left_iff, List.forall₂_same]
    exact fun v hv => isVarspec_toText (h.vars v hv)
  refine ⟨_, vars.map Varspec.toText, ?_, rfl, by simpa using h.vars_ne_nil, hspecs⟩
  cases operator with
  | some op => exact .sigil op _
  | none =>
    obtain ⟨v, rest, rfl⟩ := List.exists_cons_of_ne_nil h.vars_ne_nil
    have hv := h.vars v List.mem_cons_self
    refine .bare fun op hop => ?_
    have hhead : v.name.head? = some op.sigil :=
      (head?_intercalate (isVarspec_toText hv)).symm.trans hop
    -- Of the operators, only the point could stand in a name at all.
    cases op with
    | label => exact h.bare rfl v rfl hhead
    | _ => exact hv.name.not_mem (by decide) (by decide) (List.mem_of_head? hhead)

theorem IsBody.close_not_mem {body : Text} {e : Expression} (h : IsBody body e) :
    '\x7d' ∉ body := by
  obtain ⟨rest, specs, hopens, hrest, -, hspecs⟩ := h
  have hclose : '\x7d' ∉ rest := by
    rw [hrest]
    refine not_mem_intercalate (by decide) fun spec hmem => ?_
    obtain ⟨v, -, hspec⟩ := exists_mem_of_mem_left hspecs hmem
    exact hspec.not_mem (by decide) (by decide)
  obtain ⟨operator, vars⟩ := e
  cases hopens with
  | sigil op rest =>
    have hsigil : '\x7d' ≠ op.sigil := by cases op <;> decide
    exact List.not_mem_cons_of_ne_of_not_mem hsigil hclose
  | bare _ => exact hclose

/-- **Exactly the proper expressions are read as they are written.** -/
theorem readExpression_body_iff {e : Expression} :
    readExpression e.body = .ok e ↔ e.IsProper :=
  ⟨fun h => (readExpression_eq_ok_iff.1 h).isProper,
    fun h => readExpression_eq_ok_iff.2 (isBody_body h)⟩

end Grammar

end LinkTemplate
