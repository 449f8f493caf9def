import LinkTemplate.Text.Alphabet

/-!
# Cutting text at a separator

`cut` splits a text once, at the first separator; `fields` splits it at every one. A text always
has one field more than it has separators, so `fields` never answers with no field.
-/

namespace LinkTemplate.Text

/-- The text before the first `sep` and the text after it, if there is a `sep`. -/
def cut (sep : Char) : Text → Option (Text × Text)
  | [] => none
  | c :: rest =>
    if c = sep then some ([], rest)
    else (cut sep rest).map fun (before, after) => (c :: before, after)

/-- The pieces between the separators. -/
def fields (sep : Char) : Text → List Text
  | [] => [[]]
  | c :: rest =>
    if c = sep then [] :: fields sep rest
    else match fields sep rest with
      | [] => [[c]]
      | field :: more => (c :: field) :: more

theorem cut_eq_none {sep : Char} {text : Text} (h : cut sep text = none) : sep ∉ text := by
  induction text with
  | nil => simp
  | cons c rest ih =>
    by_cases hc : c = sep
    · simp [cut, hc] at h
    · simp only [cut, hc, if_false, Option.map_eq_none_iff] at h
      simp [ih h, Ne.symm hc]

/-- A cut loses nothing but the separator, and the part before holds none. -/
theorem cut_eq_some {sep : Char} {text before after : Text}
    (h : cut sep text = some (before, after)) :
    text = before ++ sep :: after ∧ sep ∉ before := by
  induction text generalizing before with
  | nil => simp [cut] at h
  | cons c rest ih =>
    by_cases hc : c = sep
    · simp only [cut, hc, if_true, Option.some.injEq, Prod.mk.injEq] at h
      obtain ⟨rfl, rfl⟩ := h
      simp [hc]
    · simp only [cut, hc, if_false, Option.map_eq_some_iff, Prod.mk.injEq, Prod.exists] at h
      obtain ⟨b, a, hcut, rfl, rfl⟩ := h
      obtain ⟨rfl, hb⟩ := ih hcut
      simp [hb, Ne.symm hc]

theorem cut_of_not_mem {sep : Char} {text : Text} (h : sep ∉ text) : cut sep text = none := by
  cases hcut : cut sep text with
  | none => rfl
  | some parts =>
    obtain ⟨before, after⟩ := parts
    rw [(cut_eq_some hcut).1] at h
    exact absurd (List.mem_append_right before List.mem_cons_self) h

/-- A text is cut where the separator first stands. -/
theorem cut_append_cons {sep : Char} {before : Text} (h : sep ∉ before) (after : Text) :
    cut sep (before ++ sep :: after) = some (before, after) := by
  induction before with
  | nil => simp [cut]
  | cons c before ih =>
    obtain ⟨hc, hbefore⟩ := not_or.1 (mt List.mem_cons.2 h)
    rw [List.cons_append, cut, if_neg (Ne.symm hc), ih hbefore]
    rfl

theorem length_cut_lt {sep : Char} {text before after : Text}
    (h : cut sep text = some (before, after)) : after.length < text.length := by
  rw [(cut_eq_some h).1]
  simp
  omega

theorem fields_ne_nil (sep : Char) (text : Text) : fields sep text ≠ [] := by
  cases text with
  | nil => simp [fields]
  | cons c rest =>
    simp only [fields]
    split
    · simp
    · split <;> simp

/-- What holds of the pieces and of the separator, and of a text behind a text when it holds of
both, holds of the pieces with separators between them. -/
theorem intercalate_induction {motive : Text → Prop} (nil : motive [])
    (append : ∀ before after, motive before → motive after → motive (before ++ after))
    {sep : Text} (hsep : motive sep) {pieces : List Text} (h : ∀ piece ∈ pieces, motive piece) :
    motive (sep.intercalate pieces) := by
  induction pieces with
  | nil => exact nil
  | cons piece rest ih =>
    have hpiece := h piece List.mem_cons_self
    have hrest := ih fun p hp => h p (List.mem_cons_of_mem piece hp)
    cases rest with
    | nil => rwa [List.intercalate_singleton]
    | cons second rest =>
      rw [List.intercalate_cons_cons]
      exact append _ _ (append _ _ hpiece hsep) hrest

theorem not_mem_intercalate {c : Char} {sep : Text} (hsep : c ∉ sep) {pieces : List Text}
    (h : ∀ piece ∈ pieces, c ∉ piece) : c ∉ sep.intercalate pieces := by
  refine intercalate_induction (motive := fun text => c ∉ text) List.not_mem_nil ?_ hsep h
  intro before after hbefore hafter
  rw [List.mem_append]
  exact not_or.2 ⟨hbefore, hafter⟩

/-- What may be done on both sides of a separator may be done piece by piece. -/
theorem map_intercalate {f : Text → Text} {sep sep' : Text} (hnil : f [] = [])
    (happend : ∀ before after, f (before ++ (sep ++ after)) = f before ++ (sep' ++ f after))
    (pieces : List Text) : f (sep.intercalate pieces) = sep'.intercalate (pieces.map f) := by
  induction pieces with
  | nil => exact hnil
  | cons piece rest ih =>
    cases rest with
    | nil => rw [List.map_singleton, List.intercalate_singleton, List.intercalate_singleton]
    | cons second rest =>
      rw [List.intercalate_cons_cons, List.append_assoc, happend, ih]
      simp only [List.map_cons, List.intercalate_cons_cons, List.append_assoc]

/-- The pieces with separators between them are the text again. -/
theorem intercalate_fields (sep : Char) (text : Text) :
    List.intercalate [sep] (fields sep text) = text := by
  induction text with
  | nil => rfl
  | cons c rest ih =>
    match h : fields sep rest with
    | [] => exact absurd h (fields_ne_nil sep rest)
    | [field] =>
      rw [h] at ih
      by_cases hc : c = sep <;> simp_all [fields, List.intercalate]
    | field :: next :: more =>
      rw [h] at ih
      by_cases hc : c = sep <;> simp_all [fields, List.intercalate, List.intersperse]

theorem fields_eq_splitOn (sep : Char) (text : Text) : fields sep text = text.splitOn sep := by
  induction text with
  | nil => rfl
  | cons c rest ih =>
    rw [List.splitOn_cons_eq_if_modifyHead, fields, ih]
    by_cases hc : c = sep
    · simp [hc]
    · match h : rest.splitOn sep with
      | [] => exact absurd h (List.splitOn_ne_nil sep rest)
      | field :: more => simp [hc]

/-- Pieces without separator are the fields of what they give with separators between them. -/
theorem fields_intercalate {sep : Char} {pieces : List Text} (h : ∀ piece ∈ pieces, sep ∉ piece)
    (hne : pieces ≠ []) : fields sep (List.intercalate [sep] pieces) = pieces := by
  rw [fields_eq_splitOn]
  exact List.splitOn_intercalate sep h hne

end LinkTemplate.Text
