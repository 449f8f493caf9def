import LinkTemplate.Text.Alphabet

/-!
# Assignments

An assignment binds names to things, each name at most once, and remembers the order in which
names came in. Binding a name anew keeps its place; removing it and binding it again moves it to
the end.
-/

namespace LinkTemplate

/-- Bound names with what they are bound to, in order of their first binding. -/
abbrev Assignment (β : Type) := List (Text × β)

namespace Assignment

variable {β : Type}

/-- What a name is bound to. -/
def get? (name : Text) : Assignment β → Option β
  | [] => none
  | (n, b) :: rest => if n = name then some b else get? name rest

/-- Bind a name. -/
def set (name : Text) (b : β) : Assignment β → Assignment β
  | [] => [(name, b)]
  | (n, c) :: rest => if n = name then (n, b) :: rest else (n, c) :: set name b rest

/-- Remove the binding of a name. -/
def unset (name : Text) : Assignment β → Assignment β
  | [] => []
  | (n, b) :: rest => if n = name then unset name rest else (n, b) :: unset name rest

/-- The bound names, in order. -/
def names (a : Assignment β) : List Text := a.map Prod.fst

/-- Bind one name after the other; later bindings of a name win. -/
def ofList (bindings : List (Text × β)) : Assignment β :=
  bindings.foldl (fun a (name, b) => a.set name b) []

theorem get?_set (name other : Text) (b : β) (a : Assignment β) :
    get? other (set name b a) = if name = other then some b else get? other a := by
  induction a with
  | nil => simp [get?, set]
  | cons head rest ih =>
    obtain ⟨n, c⟩ := head
    by_cases hn : n = name
    · subst hn
      by_cases h : n = other <;> simp [get?, set, h]
    · by_cases h : name = other
      · subst h
        simp [get?, set, hn, ih]
      · simp [get?, set, hn, h, ih]

theorem get?_unset (name other : Text) (a : Assignment β) :
    get? other (unset name a) = if name = other then none else get? other a := by
  induction a with
  | nil => simp [get?, unset]
  | cons head rest ih =>
    obtain ⟨n, c⟩ := head
    by_cases hn : n = name
    · subst hn
      rw [unset, if_pos rfl, ih, get?]
      split <;> rfl
    · by_cases h : name = other
      · subst h
        simp [get?, unset, hn, ih]
      · simp [get?, unset, hn, h, ih]

/-- A name that is bound keeps its place, and one that is not comes in at the end. -/
theorem names_set (name : Text) (b : β) (a : Assignment β) :
    names (set name b a) = if name ∈ names a then names a else names a ++ [name] := by
  induction a with
  | nil => rfl
  | cons head rest ih =>
    obtain ⟨n, c⟩ := head
    by_cases hn : n = name
    · simp [set, names, hn]
    · have hrest : names ((n, c) :: set name b rest) = n :: names (set name b rest) := rfl
      rw [set, if_neg hn, hrest, ih]
      by_cases h : name ∈ names rest <;> simp_all [names, Ne.symm hn]

theorem get?_map {γ : Type} (f : β → γ) (name : Text) (a : Assignment β) :
    get? name (a.map fun binding => (binding.1, f binding.2)) = (get? name a).map f := by
  induction a with
  | nil => rfl
  | cons head rest ih =>
    obtain ⟨n, b⟩ := head
    by_cases hn : n = name <;> simp [get?, hn, ih]

theorem unset_eq_filter (name : Text) (a : Assignment β) :
    unset name a = a.filter fun binding => binding.1 ≠ name := by
  induction a with
  | nil => rfl
  | cons head rest ih =>
    obtain ⟨n, b⟩ := head
    by_cases hn : n = name <;> simp [unset, hn, ih]

theorem names_unset (name : Text) (a : Assignment β) :
    names (unset name a) = (names a).filter (· ≠ name) := by
  rw [unset_eq_filter, names, names, List.filter_map]
  rfl

theorem mem_of_get? {name : Text} {b : β} {a : Assignment β} (h : get? name a = some b) :
    (name, b) ∈ a := by
  induction a with
  | nil => cases h
  | cons head rest ih =>
    obtain ⟨n, c⟩ := head
    by_cases hn : n = name
    · rw [get?, if_pos hn] at h
      cases h
      rw [hn]
      exact List.mem_cons_self
    · rw [get?, if_neg hn] at h
      exact List.mem_cons_of_mem _ (ih h)

/-- Where names are distinct, a name is bound to what stands beside it. -/
theorem get?_eq_some_iff {name : Text} {b : β} {a : Assignment β} (h : (names a).Nodup) :
    get? name a = some b ↔ (name, b) ∈ a := by
  refine ⟨mem_of_get?, fun hmem => ?_⟩
  induction a with
  | nil => cases hmem
  | cons head rest ih =>
    obtain ⟨n, c⟩ := head
    obtain ⟨hn, hrest⟩ := List.nodup_cons.1 h
    rcases List.mem_cons.1 hmem with heq | hmem
    · cases heq
      exact if_pos rfl
    · have hname : name ∈ names rest := List.mem_map_of_mem hmem
      have hne : n ≠ name := fun heq => hn (heq ▸ hname)
      rw [get?, if_neg hne]
      exact ih hrest hmem

/-- The order of bindings does not matter where names are distinct. -/
theorem get?_eq_of_perm {a a' : Assignment β} (h : (names a).Nodup) (hperm : a'.Perm a)
    (name : Text) : get? name a' = get? name a := by
  have h' : (names a').Nodup := (hperm.map Prod.fst).nodup_iff.2 h
  apply Option.ext
  intro b
  rw [get?_eq_some_iff h, get?_eq_some_iff h', hperm.mem_iff]

theorem get?_eq_none_iff {name : Text} {a : Assignment β} :
    get? name a = none ↔ name ∉ names a := by
  induction a with
  | nil => simp [get?, names]
  | cons head rest ih =>
    obtain ⟨n, b⟩ := head
    by_cases hn : n = name
    · simp [get?, names, hn]
    · simpa [get?, names, hn, Ne.symm hn] using ih

theorem get?_filter {a : Assignment β} (h : (names a).Nodup) (p : β → Bool) (name : Text) :
    get? name (a.filter fun binding => p binding.2) = (get? name a).filter p := by
  have hfilter : (names (a.filter fun binding => p binding.2)).Nodup :=
    h.sublist (List.filter_sublist.map Prod.fst)
  apply Option.ext
  intro b
  rw [get?_eq_some_iff hfilter, List.mem_filter, Option.filter_eq_some_iff, get?_eq_some_iff h]

/-! ### Binding several names -/

/-- Names that are not bound anew stay bound as they were. -/
theorem get?_foldl_set (name : Text) (bindings : List (Text × β)) (a : Assignment β) :
    get? name (bindings.foldl (fun a (n, b) => a.set n b) a) =
      (get? name (ofList bindings)).or (get? name a) := by
  induction bindings generalizing a with
  | nil => rfl
  | cons binding rest ih =>
    obtain ⟨n, b⟩ := binding
    show get? name (rest.foldl _ (a.set n b)) =
      (get? name (rest.foldl _ (set n b []))).or (get? name a)
    rw [ih, ih, get?_set, get?_set, Option.or_assoc]
    by_cases hn : n = name
    · rw [if_pos hn, if_pos hn, Option.some_or]
    · rw [if_neg hn, if_neg hn, get?, Option.none_or]

theorem get?_ofList_append (name : Text) (bindings more : List (Text × β)) :
    get? name (ofList (bindings ++ more)) =
      (get? name (ofList more)).or (get? name (ofList bindings)) := by
  rw [ofList, List.foldl_append]
  exact get?_foldl_set name more (ofList bindings)

theorem get?_ofList {bindings : List (Text × β)} (h : (names bindings).Nodup) (name : Text) :
    get? name (ofList bindings) = get? name bindings := by
  induction bindings with
  | nil => rfl
  | cons binding rest ih =>
    obtain ⟨n, b⟩ := binding
    obtain ⟨hn, hrest⟩ := List.nodup_cons.1 h
    rw [← List.singleton_append, get?_ofList_append, ih hrest]
    by_cases hname : n = name
    · subst hname
      simp [get?_eq_none_iff.2 hn, ofList, set, get?]
    · simp [ofList, set, get?, hname]

end Assignment

end LinkTemplate
