import LinkTemplate.Template.Grammar
import LinkTemplate.Proofs.Traverse
import Mathlib

/-!
# The bodies of expressions

Reading the body of an expression looks for marks, cuts, and asks for faults one after the
other. What it accepts is a plain grammar, said here without any order of questions.

**Names** (`IsName`). One or more of letters, digits, `_`, `.` and triplets, all of them ASCII.

**Variables** (`IsVarspec`). A name; a name and `*`; or a name, `:`, perhaps `+`, and a size,
one to four digits of which the first is no zero.

**Bodies** (`IsBody`). An operator, if the first character can be one, and then variables
between commas, at least one.

Both directions rest on the marks `*`, `:` and `,` being foreign to names and sizes: where a
variable is written down, there is only one place at which a search can find each of them.

Main result: `readExpression_eq_ok_iff`.
-/

namespace LinkTemplate.Grammar

open Text

/-! ## The grammar -/

/-- A character that a name may hold outside triplets. -/
def NameChar (c : Char) : Prop := c.isAlphanum ∨ c = '_' ∨ c = '.'

/-- A sequence of name characters and triplets. -/
inductive NameText : Text → Prop
  | nil : NameText []
  | char {c : Char} {rest : Text} : NameChar c → NameText rest → NameText (c :: rest)
  | triplet {a b : Char} {rest : Text} : a.isHexDigit → b.isHexDigit → NameText rest →
      NameText ('%' :: a :: b :: rest)

/-- The name of a variable. -/
def IsName (text : Text) : Prop := text ≠ [] ∧ NameText text

/-- The digits of a size. -/
structure IsSize (digits : Text) : Prop where
  length_pos : 1 ≤ digits.length
  length_le : digits.length ≤ 4
  isDigit : ∀ c ∈ digits, c.isDigit
  head : digits.head? ≠ some '0'

/-- How a variable is written. -/
inductive IsVarspec : Text → Varspec → Prop
  | plain {name : Text} : IsName name → IsVarspec name ⟨name, none⟩
  | explode {name : Text} : IsName name → IsVarspec (name ++ ['*']) ⟨name, some .explode⟩
  | limit {name sign digits : Text} : IsName name → sign = [] ∨ sign = ['+'] → IsSize digits →
      IsVarspec (name ++ ':' :: (sign ++ digits))
        ⟨name, some (.limit (Nat.ofDigitChars 10 digits 0))⟩

/-- The operator of a body and what follows it. A first character that can be an operator is
one. -/
inductive Opens : Text → Option Operator → Text → Prop
  | sigil (op : Operator) (rest : Text) : Opens (op.sigil :: rest) (some op) rest
  | bare {body : Text} : (∀ op : Operator, body.head? ≠ some op.sigil) → Opens body none body

/-- How an expression is written between its braces. -/
def IsBody (body : Text) (e : Expression) : Prop :=
  ∃ rest specs, Opens body e.operator rest ∧ rest = List.intercalate [','] specs ∧ specs ≠ [] ∧
    List.Forall₂ IsVarspec specs e.vars

/-! ## Names -/

theorem isHexDigit_eq (c : Char) : LinkTemplate.isHexDigit c = c.isHexDigit := by
  rw [LinkTemplate.isHexDigit, Char.isHexDigit, Bool.or_assoc, Bool.or_assoc,
    Bool.or_comm (between 0x41 0x46 c)]
  rfl

theorem isAlpha_eq (c : Char) : LinkTemplate.isAlpha c = c.isAlpha := by
  rw [LinkTemplate.isAlpha, Char.isAlpha, Char.isUpper, Bool.decide_and]
  rfl

theorem isNameChar_iff (c : Char) : isNameChar c = true ↔ NameChar c := by
  have hdigit : LinkTemplate.isDigit c = c.isDigit := rfl
  have hlow : code c = 0x5F ↔ c = '_' := @Char.toNat_inj c '_'
  have hdot : code c = 0x2E ↔ c = '.' := @Char.toNat_inj c '.'
  unfold isNameChar NameChar Char.isAlphanum
  rw [isAlpha_eq, hdigit]
  simp [oneOf, hlow, hdot, or_assoc]

theorem nameChar_of_isHexDigit {c : Char} (h : c.isHexDigit) : NameChar c := by
  rw [← isHexDigit_eq] at h
  rw [← isNameChar_iff]
  simp only [LinkTemplate.isHexDigit, LinkTemplate.isDigit, between, Bool.or_eq_true,
    Bool.and_eq_true, decide_eq_true_eq] at h
  simp only [isNameChar, LinkTemplate.isAlpha, LinkTemplate.isDigit, between, Bool.or_eq_true,
    Bool.and_eq_true, decide_eq_true_eq]
  omega

theorem not_mem_of_forall_isDigit {digits : Text} (h : ∀ c ∈ digits, c.isDigit) {c : Char}
    (hchar : isNameChar c = false) : c ∉ digits := by
  intro hmem
  have hname : NameChar c := .inl (by simp [Char.isAlphanum, h c hmem])
  rw [(isNameChar_iff c).2 hname] at hchar
  cases hchar

theorem not_nameChar_percent : ¬ NameChar '%' := by
  unfold NameChar
  decide

theorem nameText_triplet_iff {a b : Char} {rest : Text} :
    NameText ('%' :: a :: b :: rest) ↔ a.isHexDigit ∧ b.isHexDigit ∧ NameText rest := by
  constructor
  · intro h
    cases h with
    | char hc _ => exact absurd hc not_nameChar_percent
    | triplet ha hb hrest => exact ⟨ha, hb, hrest⟩
  · rintro ⟨ha, hb, hrest⟩
    exact .triplet ha hb hrest

/-- A name has no fault exactly if it is made of name characters and triplets. -/
theorem nameFault?_eq_none_iff (position : Nat) (text : Text) :
    nameFault? position text = none ↔ NameText text := by
  fun_induction nameFault? position text with
  | case1 => simp [NameText.nil]
  | case2 position a b rest hex ih =>
    rw [Bool.and_eq_true, isHexDigit_eq, isHexDigit_eq] at hex
    simp [ih, nameText_triplet_iff, hex.1, hex.2]
  | case3 position a b rest hex =>
    rw [Bool.and_eq_true, isHexDigit_eq, isHexDigit_eq] at hex
    simp only [reduceCtorEq, nameText_triplet_iff, false_iff]
    exact fun h => hex ⟨h.1, h.2.1⟩
  | case4 position rest hshort =>
    simp only [reduceCtorEq, false_iff]
    intro h
    cases h with
    | char hc _ => exact not_nameChar_percent hc
    | triplet _ _ _ => exact hshort _ _ _ rfl rfl
  | case5 position c rest _ hc hname ih =>
    rw [ih]
    refine ⟨.char ((isNameChar_iff c).1 hname), fun h => ?_⟩
    cases h with
    | char _ hrest => exact hrest
    | triplet _ _ _ => exact absurd rfl hc
  | case6 position c rest _ hc hname =>
    simp only [reduceCtorEq, false_iff]
    intro h
    cases h with
    | char hchar _ => exact hname ((isNameChar_iff c).2 hchar)
    | triplet _ _ _ => exact hc rfl

theorem readName_eq_ok_iff {text name : Text} :
    readName text = .ok name ↔ name = text ∧ IsName text := by
  unfold readName IsName
  rw [← nameFault?_eq_none_iff 0 text]
  by_cases hempty : text = []
  · simp [hempty]
  · rw [if_neg (by simpa using hempty)]
    cases nameFault? 0 text with
    | none => simp [hempty, eq_comm]
    | some fault => simp

theorem NameText.nameChar_or_percent {text : Text} (h : NameText text) {c : Char}
    (hc : c ∈ text) : NameChar c ∨ c = '%' := by
  induction h with
  | nil => exact absurd hc List.not_mem_nil
  | char hfirst _ ih =>
    rcases List.mem_cons.1 hc with rfl | hc
    · exact .inl hfirst
    · exact ih hc
  | triplet ha hb _ ih =>
    rcases List.mem_cons.1 hc with rfl | hc
    · exact .inr rfl
    rcases List.mem_cons.1 hc with rfl | hc
    · exact .inl (nameChar_of_isHexDigit ha)
    rcases List.mem_cons.1 hc with rfl | hc
    · exact .inl (nameChar_of_isHexDigit hb)
    · exact ih hc

theorem IsName.not_mem {name : Text} (h : IsName name) {mark : Char}
    (hmark : isNameChar mark = false) (hpercent : mark ≠ '%') : mark ∉ name := by
  intro hmem
  rcases h.2.nameChar_or_percent hmem with hname | rfl
  · rw [(isNameChar_iff mark).2 hname] at hmark
    cases hmark
  · exact hpercent rfl

theorem IsName.star_not_mem {name : Text} (h : IsName name) : '*' ∉ name :=
  h.not_mem (by decide) (by decide)

theorem IsName.colon_not_mem {name : Text} (h : IsName name) : ':' ∉ name :=
  h.not_mem (by decide) (by decide)

/-! ## Sizes -/

theorem ofDigitChars_lt {digits : Text} (h : ∀ c ∈ digits, c.isDigit) :
    Nat.ofDigitChars 10 digits 0 < 10 ^ digits.length := by
  induction digits with
  | nil => simp
  | cons c rest ih =>
    have hc : c.toNat - '0'.toNat ≤ '9'.toNat - '0'.toNat :=
      Nat.sub_le_sub_right (Char.isDigit_iff_toNat.1 (h c List.mem_cons_self)).2 _
    have hrest := ih fun d hd => h d (List.mem_cons_of_mem c hd)
    rw [Nat.ofDigitChars_cons, Nat.ofDigitChars_eq_ofDigitChars_zero, List.length_cons, pow_succ]
    calc 10 ^ rest.length * (10 * 0 + (c.toNat - '0'.toNat)) + Nat.ofDigitChars 10 rest 0
        < 10 ^ rest.length * (10 * 0 + (c.toNat - '0'.toNat)) + 10 ^ rest.length := by omega
      _ ≤ 10 ^ rest.length * (10 * 0 + 9) + 10 ^ rest.length := by
        gcongr
        exact hc
      _ = 10 ^ rest.length * 10 := by ring

theorem le_ofDigitChars {c : Char} (hc : c.isDigit) (hzero : c ≠ '0') (rest : Text) :
    10 ^ rest.length ≤ Nat.ofDigitChars 10 (c :: rest) 0 := by
  have hone : 1 ≤ 10 * 0 + (c.toNat - '0'.toNat) := by
    have hle := (Char.isDigit_iff_toNat.1 hc).1
    have hne : c.toNat ≠ '0'.toNat := fun h => hzero (Char.toNat_inj.1 h)
    omega
  rw [Nat.ofDigitChars_cons, Nat.ofDigitChars_eq_ofDigitChars_zero]
  calc 10 ^ rest.length = 10 ^ rest.length * 1 := (mul_one _).symm
    _ ≤ 10 ^ rest.length * (10 * 0 + (c.toNat - '0'.toNat)) := Nat.mul_le_mul_left _ hone
    _ ≤ _ := Nat.le_add_right _ _

/-- The bound on the number that a size stands for is a bound on its digits. -/
theorem isSize_iff {digits : Text} :
    IsSize digits ↔ digits ≠ [] ∧ digits.head? ≠ some '0' ∧ (∀ c ∈ digits, c.isDigit) ∧
      Nat.ofDigitChars 10 digits 0 < limitBound := by
  constructor
  · rintro ⟨hpos, hle, hdigit, hhead⟩
    refine ⟨List.ne_nil_of_length_pos hpos, hhead, hdigit, ?_⟩
    calc Nat.ofDigitChars 10 digits 0 < 10 ^ digits.length := ofDigitChars_lt hdigit
      _ ≤ 10 ^ 4 := Nat.pow_le_pow_right (by decide) hle
  · rintro ⟨hne, hhead, hdigit, hlt⟩
    obtain ⟨c, rest, rfl⟩ := List.exists_cons_of_ne_nil hne
    have hzero : c ≠ '0' := fun h => hhead (congrArg some h)
    have hle := le_ofDigitChars (hdigit c List.mem_cons_self) hzero rest
    have hpow : 10 ^ rest.length < 10 ^ 4 := hle.trans_lt hlt
    have hlength : rest.length < 4 := (Nat.pow_lt_pow_iff_right (by decide)).1 hpow
    exact ⟨by simp, hlength, hdigit, hhead⟩

theorem readLimit_eq_ok_iff {text : Text} {size : Nat} :
    readLimit text = .ok size ↔
      IsSize (dropPlus text) ∧ size = Nat.ofDigitChars 10 (dropPlus text) 0 := by
  have hall : (dropPlus text).all LinkTemplate.isDigit = true ↔
      ∀ c ∈ dropPlus text, c.isDigit := List.all_eq_true
  constructor
  · intro h
    unfold readLimit at h
    dsimp only at h
    split_ifs at h with hstart hdigit hmany hlarge
    rw [Bool.or_eq_true, List.isEmpty_iff, decide_eq_true_eq, not_or] at hstart
    rw [Bool.not_eq_true', Bool.not_eq_false] at hdigit
    refine ⟨isSize_iff.2 ⟨hstart.1, hstart.2, hall.1 hdigit, ?_⟩, (Except.ok.inj h).symm⟩
    exact Nat.lt_of_not_le hlarge
  · rintro ⟨hsize, rfl⟩
    obtain ⟨hne, hhead, hdigit, hvalue⟩ := isSize_iff.1 hsize
    have hlarge : ¬ limitBound ≤ digitsValue (dropPlus text) := Nat.not_le.2 hvalue
    have hmany : ¬ Decimal.maxDigits < (dropPlus text).length :=
      Nat.not_lt.2 (hsize.length_le.trans (by decide))
    unfold readLimit
    dsimp only
    rw [if_neg (by simp [hne, hhead]), if_neg (by simp [hall.2 hdigit]), if_neg hmany,
      if_neg hlarge]
    rfl

theorem eq_sign_append_dropPlus (text : Text) :
    ∃ sign, (sign = [] ∨ sign = ['+']) ∧ text = sign ++ dropPlus text := by
  unfold dropPlus
  split
  · exact ⟨['+'], .inr rfl, rfl⟩
  · exact ⟨[], .inl rfl, rfl⟩

theorem dropPlus_of_isDigit {digits : Text} (h : ∀ c ∈ digits, c.isDigit) :
    dropPlus digits = digits := by
  unfold dropPlus
  split
  · exact absurd (h '+' List.mem_cons_self) (by decide)
  · rfl

theorem IsSize.dropPlus_eq {digits sign : Text} (h : IsSize digits)
    (hsign : sign = [] ∨ sign = ['+']) : dropPlus (sign ++ digits) = digits := by
  rcases hsign with rfl | rfl
  · exact dropPlus_of_isDigit h.isDigit
  · rfl

/-! ## Variables -/

theorem IsVarspec.ne_nil {text : Text} {v : Varspec} (h : IsVarspec text v) : text ≠ [] := by
  cases h with
  | plain hname => exact hname.1
  | explode hname => exact List.append_ne_nil_of_left_ne_nil hname.1 _
  | limit hname _ _ => exact List.append_ne_nil_of_left_ne_nil hname.1 _

theorem isVarspec_of_readVarspec {text : Text} {v : Varspec} (h : readVarspec text = .ok v) :
    IsVarspec text v := by
  unfold readVarspec at h
  split_ifs at h
  -- What is read depends on which of the two marks there are. Both together are refused.
  cases hstar : cut '*' text with
  | none =>
    cases hcolon : cut ':' text with
    | none =>
      rw [hstar, hcolon] at h
      obtain ⟨name, hread, hret⟩ := bind_eq_ok_iff.1 h
      obtain ⟨rfl, hname⟩ := readName_eq_ok_iff.1 hread
      cases hret
      exact .plain hname
    | some parts =>
      obtain ⟨before, after⟩ := parts
      rw [hstar, hcolon] at h
      obtain ⟨name, hread, hrest⟩ := bind_eq_ok_iff.1 h
      obtain ⟨size, hlimit, hret⟩ := bind_eq_ok_iff.1 hrest
      obtain ⟨rfl, hname⟩ := readName_eq_ok_iff.1 hread
      obtain ⟨hsize, rfl⟩ := readLimit_eq_ok_iff.1 hlimit
      obtain ⟨sign, hsign, hafter⟩ := eq_sign_append_dropPlus after
      cases hret
      rw [(cut_eq_some hcolon).1]
      nth_rewrite 1 [hafter]
      exact .limit hname hsign hsize
  | some parts =>
    obtain ⟨before, after⟩ := parts
    cases hcolon : cut ':' text with
    | none =>
      rw [hstar, hcolon] at h
      dsimp only at h
      split_ifs at h with hlast
      obtain ⟨name, hread, hret⟩ := bind_eq_ok_iff.1 h
      obtain ⟨rfl, hname⟩ := readName_eq_ok_iff.1 hread
      cases hret
      rw [(cut_eq_some hstar).1, List.isEmpty_iff.1 hlast]
      exact .explode hname
    | some _ =>
      rw [hstar, hcolon] at h
      cases h

theorem readVarspec_of_isVarspec {text : Text} {v : Varspec} (h : IsVarspec text v) :
    readVarspec text = .ok v := by
  have hne : ¬ text.isEmpty = true := mt List.isEmpty_iff.1 h.ne_nil
  unfold readVarspec
  rw [if_neg hne]
  cases h with
  | plain hname =>
    rw [cut_of_not_mem hname.star_not_mem, cut_of_not_mem hname.colon_not_mem]
    exact bind_eq_ok_iff.2 ⟨_, readName_eq_ok_iff.2 ⟨rfl, hname⟩, rfl⟩
  | @explode name hname =>
    have hcolon : ':' ∉ name ++ ['*'] := by simp [hname.colon_not_mem]
    rw [cut_append_cons hname.star_not_mem, cut_of_not_mem hcolon]
    exact bind_eq_ok_iff.2 ⟨_, readName_eq_ok_iff.2 ⟨rfl, hname⟩, rfl⟩
  | @limit name sign digits hname hsign hsize =>
    have hdigits : '*' ∉ digits := fun hmem => absurd (hsize.isDigit '*' hmem) (by decide)
    have hstar : '*' ∉ name ++ ':' :: (sign ++ digits) := by
      rcases hsign with rfl | rfl <;>
        simp [hname.star_not_mem, hdigits]
    have hread : readLimit (sign ++ digits) = .ok (Nat.ofDigitChars 10 digits 0) := by
      rw [readLimit_eq_ok_iff, hsize.dropPlus_eq hsign]
      exact ⟨hsize, rfl⟩
    rw [cut_of_not_mem hstar, cut_append_cons hname.colon_not_mem]
    exact bind_eq_ok_iff.2 ⟨_, readName_eq_ok_iff.2 ⟨rfl, hname⟩,
      bind_eq_ok_iff.2 ⟨_, hread, rfl⟩⟩

/-- **Variables are read as they are written.** -/
theorem readVarspec_eq_ok_iff {text : Text} {v : Varspec} :
    readVarspec text = .ok v ↔ IsVarspec text v :=
  ⟨isVarspec_of_readVarspec, readVarspec_of_isVarspec⟩

theorem IsVarspec.not_mem {text : Text} {v : Varspec} (h : IsVarspec text v) {c : Char}
    (hchar : isNameChar c = false) (hmark : c ∉ ['%', '*', ':', '+']) : c ∉ text := by
  simp only [List.mem_cons, List.not_mem_nil, or_false, not_or] at hmark
  obtain ⟨hpercent, hstar, hcolon, hplus⟩ := hmark
  cases h with
  | plain hname => exact hname.not_mem hchar hpercent
  | explode hname => simp [hname.not_mem hchar hpercent, hstar]
  | @limit name sign digits hname hsign hsize =>
    have hdigits : c ∉ digits := not_mem_of_forall_isDigit hsize.isDigit hchar
    rcases hsign with rfl | rfl <;> simp [hname.not_mem hchar hpercent, hcolon, hplus, hdigits]

theorem IsVarspec.comma_not_mem {text : Text} {v : Varspec} (h : IsVarspec text v) :
    ',' ∉ text :=
  h.not_mem (by decide) (by decide)

/-! ## Bodies -/

theorem ofSigil?_eq_some_iff {c : Char} {op : Operator} :
    Operator.ofSigil? c = some op ↔ c = op.sigil :=
  ⟨Operator.ofSigil?_eq_some, fun h => h ▸ Operator.ofSigil?_sigil op⟩

theorem splitOperator_eq_iff {body rest : Text} {operator : Option Operator} :
    splitOperator body = (operator, rest) ↔ Opens body operator rest := by
  constructor
  · intro h
    cases body with
    | nil =>
      cases h
      exact .bare fun op => by simp
    | cons c tail =>
      rw [splitOperator] at h
      cases hop : Operator.ofSigil? c with
      | some op =>
        rw [hop] at h
        cases h
        rw [ofSigil?_eq_some_iff.1 hop]
        exact .sigil op rest
      | none =>
        rw [hop] at h
        cases h
        refine .bare fun op hc => ?_
        rw [ofSigil?_eq_some_iff.2 (Option.some.inj hc)] at hop
        cases hop
  · intro h
    cases h with
    | sigil op rest => rw [splitOperator, Operator.ofSigil?_sigil]
    | bare hbare =>
      cases body with
      | nil => rfl
      | cons c tail =>
        have hop : Operator.ofSigil? c = none := by
          rw [Option.eq_none_iff_forall_ne_some]
          exact fun op hc => hbare op (congrArg some (ofSigil?_eq_some_iff.1 hc))
        rw [splitOperator, hop]

theorem Opens.eq_nil {operator : Option Operator} {rest : Text} (h : Opens [] operator rest) :
    rest = [] := by
  cases h
  rfl

theorem mapM_readVarspec_eq_ok_iff {rest : Text} {vars : List Varspec} :
    (fields ',' rest).mapM readVarspec = .ok vars ↔
      ∃ specs, rest = List.intercalate [','] specs ∧ specs ≠ [] ∧
        List.Forall₂ IsVarspec specs vars := by
  simp only [mapM_eq_ok_iff, readVarspec_eq_ok_iff]
  constructor
  · intro h
    exact ⟨fields ',' rest, (intercalate_fields ',' rest).symm, fields_ne_nil ',' rest, h⟩
  · rintro ⟨specs, rfl, hne, h⟩
    rw [fields_intercalate ?_ hne]
    · exact h
    · intro spec hspec
      obtain ⟨v, _, hv⟩ := exists_mem_of_mem_left h hspec
      exact hv.comma_not_mem

theorem readExpression_eq_ok_iff {body : Text} {e : Expression} :
    readExpression body = .ok e ↔ IsBody body e := by
  have hread : readExpression body = .ok e ↔ body ≠ [] ∧
      (fields ',' (splitOperator body).2).mapM readVarspec = .ok e.vars ∧
      (splitOperator body).1 = e.operator := by
    unfold readExpression
    split_ifs with hempty
    · simp [List.isEmpty_iff.1 hempty]
    · rw [bind_eq_ok_iff]
      constructor
      · rintro ⟨vars, hvars, hret⟩
        cases hret
        exact ⟨mt List.isEmpty_iff.2 hempty, hvars, rfl⟩
      · rintro ⟨_, hvars, hop⟩
        exact ⟨e.vars, hvars, by rw [hop]; rfl⟩
  rw [hread, mapM_readVarspec_eq_ok_iff]
  constructor
  · rintro ⟨_, ⟨specs, hrest, hne, hspecs⟩, hop⟩
    exact ⟨_, specs, splitOperator_eq_iff.1 (by rw [← hop]), hrest, hne, hspecs⟩
  · rintro ⟨rest, specs, hopens, hrest, hne, hspecs⟩
    rw [splitOperator_eq_iff.2 hopens]
    refine ⟨?_, ⟨specs, hrest, hne, hspecs⟩, rfl⟩
    rintro rfl
    -- An empty body would have one variable, an empty one.
    have hvars := mapM_readVarspec_eq_ok_iff.2 ⟨specs, hrest, hne, hspecs⟩
    rw [hopens.eq_nil] at hvars
    cases hvars

/-- **What an expression may look like.** A body is read as an expression exactly if the grammar
has it for that expression, and is refused exactly if the grammar does not have it at all. -/
theorem readExpression_accepts_grammar (body : Text) :
    (∀ e, readExpression body = .ok e ↔ IsBody body e) ∧
      ((∃ rejection, readExpression body = .error rejection) ↔ ¬ ∃ e, IsBody body e) := by
  refine ⟨fun e => readExpression_eq_ok_iff, ?_⟩
  cases h : readExpression body with
  | ok e =>
    have hbody : ∃ e, IsBody body e := ⟨e, readExpression_eq_ok_iff.1 h⟩
    simp [hbody]
  | error rejection =>
    refine iff_of_true ⟨rejection, rfl⟩ ?_
    rintro ⟨e, he⟩
    rw [readExpression_eq_ok_iff.2 he] at h
    cases h

/-- A point in front is an operator, though a name may begin with one. -/
example : readExpression ".x,.y:+12".toList =
    .ok ⟨some .label, [⟨['x'], none⟩, ⟨['.', 'y'], some (.limit 12)⟩]⟩ := by
  decide

end LinkTemplate.Grammar
