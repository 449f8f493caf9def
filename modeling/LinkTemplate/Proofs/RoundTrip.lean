import LinkTemplate.Proofs.Cutting
import LinkTemplate.Proofs.Written

/-!
# Reading what was written

A template is written as the texts of its items, one after the other. Two round trips lead
through this text.

**From a text.** A text that is read and written again is itself, less the signs of sizes in its
expressions. Read once more it gives the same items. So two templates that were read are the same
exactly if they are written alike.

**From items.** Items that were put together by hand may be written so that they are read as
something else: plain literals run together, a name may hold a comma, a literal may hold an
expression. The items that are read back as they were are the *well-formed* ones.

Both rest on one correspondence. Well-formed items are those that the spans of a text become,
item by item and neighbour by neighbour, and a text has only one cutting into spans.

Main results: `readItems_toText`, `isWellFormed_of_readItems`, `toText_eq_unsigned`.
-/

namespace LinkTemplate

open Text

/-! ## Well-formed items -/

namespace Item

/-- A literal without brace that opens an expression. -/
def IsPlain (i : Item) : Prop := ∃ text, i = .literal text ∧ text ≠ [] ∧ '\x7b' ∉ text

/-- A literal that begins an expression and never ends it. -/
def IsDangling (i : Item) : Prop := ∃ rest, i = .literal ('\x7b' :: rest) ∧ '\x7d' ∉ rest

/-- What an item may be by itself. -/
inductive IsProper : Item → Prop
  | plain {text : Text} : text ≠ [] → '\x7b' ∉ text → IsProper (.literal text)
  | degraded {body : Text} {fault : Fault} : '\x7d' ∉ body →
      Grammar.readExpression body = .error (.malformed fault) →
      IsProper (.literal ('\x7b' :: body ++ ['\x7d']))
  | dangling {rest : Text} : '\x7d' ∉ rest → IsProper (.literal ('\x7b' :: rest))
  | expression {e : Expression} : e.IsProper → IsProper (.expression e)

/-- Which item may come directly before which. -/
def MayPrecede (i j : Item) : Prop := ¬ i.IsDangling ∧ ¬ (i.IsPlain ∧ j.IsPlain)

end Item

/-- Items as they can be read. -/
structure IsWellFormed (items : List Item) : Prop where
  proper : ∀ i ∈ items, i.IsProper
  chain : items.IsChain Item.MayPrecede

/-! ## Spans and their items -/

namespace Span

/-- The characters of the span, less the signs of sizes if it is an expression. -/
def unsigned : Span → Text
  | plain text => text
  | dangling rest => (dangling rest).toText
  | braced body =>
    match Grammar.readExpression body with
    | .ok _ => (braced (Grammar.dropSigns body)).toText
    | .error _ => (braced body).toText

theorem unsigned_eq_toText {s : Span} (h : ∀ body e, s = braced body →
    Grammar.readExpression body = .ok e → ¬ [':', '+'] <:+: body) : s.unsigned = s.toText := by
  cases s with
  | plain text => rfl
  | dangling rest => rfl
  | braced body =>
    rw [unsigned]
    split
    · next e hread => rw [Grammar.dropSigns_eq_self (h body e rfl hread)]
    · rfl

namespace Gives

variable {s t : Span} {i j : Item}

theorem toText_eq_unsigned (h : Gives s i) : i.toText = s.unsigned := by
  cases h with
  | plain text => rfl
  | @expression body e hread =>
    have hbody := (Grammar.readExpression_eq_ok_iff.1 hread).body_eq_dropSigns
    rw [unsigned, hread, Item.toText, Expression.toText, hbody]
    rfl
  | degraded hread =>
    rw [unsigned, hread]
    rfl
  | dangling rest => rfl

theorem isProper (h : Gives s i) (hs : s.IsProper) : i.IsProper := by
  cases h with
  | plain text => exact .plain hs.1 hs.2
  | expression hread => exact .expression (Grammar.readExpression_eq_ok_iff.1 hread).isProper
  | degraded hread => exact .degraded hs hread
  | dangling rest => exact .dangling hs

theorem isPlain_iff (h : Gives s i) (hs : s.IsProper) :
    i.IsPlain ↔ ∃ text, s = Span.plain text := by
  cases h with
  | plain text => exact iff_of_true ⟨text, rfl, hs⟩ ⟨text, rfl⟩
  | expression _ => simp [Item.IsPlain]
  | degraded _ => simp [Item.IsPlain]
  | dangling rest => simp [Item.IsPlain]

theorem isDangling_iff (h : Gives s i) (hs : s.IsProper) :
    i.IsDangling ↔ ∃ rest, s = Span.dangling rest := by
  cases h with
  | plain text =>
    have hopen : ∀ rest, text ≠ '\x7b' :: rest := by
      rintro rest rfl
      exact hs.2 List.mem_cons_self
    simp [Item.IsDangling, hopen]
  | expression _ => simp [Item.IsDangling]
  | degraded _ => simp [Item.IsDangling]
  | dangling rest => exact iff_of_true ⟨rest, rfl, hs⟩ ⟨rest, rfl⟩

/-- Spans may stand side by side exactly if their items may. -/
theorem mayPrecede_iff (hs : s.IsProper) (ht : t.IsProper) (hi : Gives s i) (hj : Gives t j) :
    Span.MayPrecede s t ↔ i.MayPrecede j := by
  rw [Item.MayPrecede, hi.isDangling_iff hs, hi.isPlain_iff hs, hj.isPlain_iff ht]
  -- What is left depends only on which kinds of span the two are.
  cases s <;> cases t <;> simp [Span.MayPrecede]

end Gives

theorem isChain_iff {spans : List Span} {items : List Item} (hproper : ∀ s ∈ spans, s.IsProper)
    (h : List.Forall₂ Gives spans items) :
    spans.IsChain MayPrecede ↔ items.IsChain Item.MayPrecede := by
  induction h with
  | nil => simp
  | @cons s i spans items hi hrest ih =>
    -- A chain compares its first two elements, so the cases are none, one and more of them.
    have ih := ih fun t ht => hproper t (List.mem_cons_of_mem s ht)
    cases hrest with
    | nil => simp
    | @cons t j spans items hj hrest =>
      have hs := hproper s List.mem_cons_self
      have ht := hproper t (List.mem_cons_of_mem s List.mem_cons_self)
      rw [List.isChain_cons_cons, List.isChain_cons_cons, ih, Gives.mayPrecede_iff hs ht hi hj]

theorem exists_of_isProper {i : Item} (h : i.IsProper) :
    ∃ s : Span, s.IsProper ∧ Gives s i ∧ s.toText = i.toText := by
  cases h with
  | @plain text hne hopen => exact ⟨.plain text, ⟨hne, hopen⟩, .plain text, rfl⟩
  | @degraded body fault hclose hread => exact ⟨.braced body, hclose, .degraded hread, rfl⟩
  | @dangling rest hclose => exact ⟨.dangling rest, hclose, .dangling rest, rfl⟩
  | @expression e he =>
    have hbody := Grammar.isBody_body he
    exact ⟨.braced e.body, hbody.close_not_mem, .expression (Grammar.readExpression_body_iff.2 he),
      rfl⟩

theorem exists_forall₂_of_isProper {items : List Item} (h : ∀ i ∈ items, i.IsProper) :
    ∃ spans : List Span, (∀ s ∈ spans, s.IsProper) ∧ List.Forall₂ Gives spans items ∧
      spans.flatMap toText = items.flatMap Item.toText := by
  induction items with
  | nil => exact ⟨[], fun s hs => absurd hs List.not_mem_nil, .nil, rfl⟩
  | cons i items ih =>
    obtain ⟨s, hs, hi, htext⟩ := exists_of_isProper (h i List.mem_cons_self)
    obtain ⟨spans, hspans, hitems, htexts⟩ := ih fun j hj => h j (List.mem_cons_of_mem i hj)
    refine ⟨s :: spans, List.forall_mem_cons.2 ⟨hs, hspans⟩, .cons hi hitems, ?_⟩
    rw [List.flatMap_cons, List.flatMap_cons, htext, htexts]

end Span

/-! ## Items and their text -/

namespace Template

/-- **What is read is well-formed.** -/
theorem isWellFormed_of_readItems {text : Text} {items : List Item}
    (h : readItems text = .ok items) : IsWellFormed items := by
  have hgives := readItems_eq_ok_iff.1 h
  have hcuts := Span.cuts_scan text
  refine ⟨fun i hi => ?_, (Span.isChain_iff hcuts.proper hgives).1 hcuts.chain⟩
  obtain ⟨s, hs, hsi⟩ := exists_mem_of_mem_right hgives hi
  exact hsi.isProper (hcuts.proper s hs)

/-- **What is well-formed is read as it is written.** -/
theorem readItems_toText {items : List Item} (h : IsWellFormed items) :
    readItems (items.flatMap Item.toText) = .ok items := by
  obtain ⟨spans, hproper, hgives, htext⟩ := Span.exists_forall₂_of_isProper h.proper
  -- The neighbours make these spans a cutting, and the text has only the one that reading finds.
  have hcuts : Span.Cuts spans (items.flatMap Item.toText) :=
    ⟨htext, hproper, (Span.isChain_iff hproper hgives).2 h.chain⟩
  rw [readItems_eq_ok_iff, ← hcuts.eq_scan]
  exact hgives

theorem text?_of_isWellFormed {t : Template} (h : IsWellFormed t.items) :
    t.text? = .ok t.toText := by
  have hwritable : t.items.all Item.isWritable = true := by
    refine List.all_eq_true.2 fun i hi => ?_
    cases h.proper i hi with
    | expression he =>
      exact List.all_eq_true.2 fun v hv => Grammar.isWritable_of_isProper (he.vars v hv)
    | _ => rfl
  rw [text?, if_pos hwritable]

theorem parse_eq_ok_iff {settings : Settings} {text : Text} {t : Template} :
    parse settings text = .ok t ↔ readItems text = .ok t.items ∧ t.settings = settings := by
  rw [parse, bind_eq_ok_iff]
  constructor
  · rintro ⟨items, hread, hret⟩
    cases hret
    exact ⟨hread, rfl⟩
  · rintro ⟨hread, rfl⟩
    exact ⟨t.items, hread, rfl⟩

theorem parse_eq_error {settings : Settings} {text : Text} {failure : Failure}
    (h : parse settings text = .error failure) : failure = .tooManyDigits := by
  rcases bind_eq_error_iff.1 h with hread | ⟨items, -, hret⟩
  · exact readItems_eq_error hread
  · cases hret

theorem parse_toText {settings : Settings} {text : Text} {t : Template}
    (h : parse settings text = .ok t) :
    t.text? = .ok t.toText ∧ readItems t.toText = .ok t.items := by
  have hwell := isWellFormed_of_readItems (parse_eq_ok_iff.1 h).1
  exact ⟨text?_of_isWellFormed hwell, readItems_toText hwell⟩

theorem toText_eq_unsigned {spans : List Span} {items : List Item}
    (h : List.Forall₂ Span.Gives spans items) :
    items.flatMap Item.toText = spans.flatMap Span.unsigned := by
  induction h with
  | nil => rfl
  | cons hi _ ih => rw [List.flatMap_cons, List.flatMap_cons, ih, hi.toText_eq_unsigned]

/-- **A text is written as it was read, less the signs of sizes.** The signs are those in the
bodies that became expressions; without any, the text comes back as it was. Read again, what is
written gives the same items. So templates that were read are the same exactly if they are written
alike. -/
theorem text?_of_parse {settings : Settings} {text : Text} {t : Template}
    (h : parse settings text = .ok t) :
    (∃ spans, Span.Cuts spans text ∧ List.Forall₂ Span.Gives spans t.items ∧
      t.text? = .ok (spans.flatMap Span.unsigned) ∧
      ((∀ body e, Span.braced body ∈ spans → Grammar.readExpression body = .ok e →
        ¬ [':', '+'] <:+: body) → t.text? = .ok text)) ∧
    (∀ settings', (t.text? >>= parse settings') = .ok ⟨t.items, settings'⟩) ∧
    ∀ settings' text' t', parse settings' text' = .ok t' →
      (t.sameItems t' = true ↔ t.text? = t'.text?) := by
  obtain ⟨htext, hagain⟩ := parse_toText h
  have hgives := readItems_eq_ok_iff.1 (parse_eq_ok_iff.1 h).1
  have hunsigned : t.toText = (Span.scan text).flatMap Span.unsigned := toText_eq_unsigned hgives
  refine ⟨⟨Span.scan text, Span.cuts_scan text, hgives, by rw [htext, hunsigned], fun hsign => ?_⟩,
    fun settings' => ?_, fun settings' text' t' h' => ?_⟩
  · have hkept : (Span.scan text).flatMap Span.unsigned = (Span.scan text).flatMap Span.toText :=
      List.flatMap_congr fun s hs =>
        Span.unsigned_eq_toText fun body e hbody => hsign body e (hbody ▸ hs)
    rw [htext, hunsigned, hkept, Span.flatMap_toText_scan]
  · rw [htext]
    exact parse_eq_ok_iff.2 ⟨hagain, rfl⟩
  · obtain ⟨htext', hagain'⟩ := parse_toText h'
    rw [sameItems_iff, htext, htext']
    constructor
    · intro hitems
      rw [toText, hitems, toText]
    · intro heq
      rw [Except.ok.inj heq, hagain'] at hagain
      exact (Except.ok.inj hagain).symm

/-- Signs in expressions are dropped, those in literals, in a body that is none and behind an
unclosed brace are kept. The text without the dropped ones is the same template. -/
theorem text?_of_parse_signs :
    ∃ t, parse {} "a:+\x7b+x:+12,y*\x7d\x7bz:+0\x7d\x7b.p:+3\x7d\x7bw:+".toList = .ok t ∧
      t.text? = .ok "a:+\x7b+x:12,y*\x7d\x7bz:+0\x7d\x7b.p:3\x7d\x7bw:+".toList ∧
      parse {} "a:+\x7b+x:12,y*\x7d\x7bz:+0\x7d\x7b.p:3\x7d\x7bw:+".toList = .ok t ∧
      t.sameItems t = true := by
  have hparse : parse {} "a:+\x7b+x:+12,y*\x7d\x7bz:+0\x7d\x7b.p:+3\x7d\x7bw:+".toList =
      .ok ⟨[.literal "a:+".toList,
        .expression ⟨some .reserved, [⟨['x'], some (.limit 12)⟩, ⟨['y'], some .explode⟩]⟩,
        .literal "\x7bz:+0\x7d".toList, .expression ⟨some .label, [⟨['p'], some (.limit 3)⟩]⟩,
        .literal "\x7bw:+".toList], {}⟩ := by
    cbv
  obtain ⟨⟨spans, hcuts, -, htext, -⟩, hagain, hsame⟩ := text?_of_parse hparse
  have hunsigned : spans.flatMap Span.unsigned =
      "a:+\x7b+x:12,y*\x7d\x7bz:+0\x7d\x7b.p:3\x7d\x7bw:+".toList := by
    rw [hcuts.eq_scan]
    cbv
  rw [hunsigned] at htext
  have hread := hagain {}
  rw [htext] at hread
  exact ⟨_, hparse, htext, hread, (hsame _ _ _ hread).2 rfl⟩

/-- **Exactly the well-formed items are read back as they were**, whether they were read or put
together by hand. Items that cannot be written at all are not well-formed either. -/
theorem parse_text?_iff_isWellFormed (t : Template) (settings : Settings) :
    (t.text? >>= parse settings) = .ok ⟨t.items, settings⟩ ↔ IsWellFormed t.items := by
  rw [bind_eq_ok_iff]
  constructor
  · rintro ⟨text, -, hparse⟩
    -- From which text the items were read does not matter.
    exact isWellFormed_of_readItems (parse_eq_ok_iff.1 hparse).1
  · intro h
    exact ⟨t.toText, text?_of_isWellFormed h, parse_eq_ok_iff.2 ⟨readItems_toText h, rfl⟩⟩

/-- Without operator, a point in front of the first name becomes one. -/
example : readItems (Item.toText (.expression ⟨none, [⟨['.', 'x'], none⟩]⟩)) =
    .ok [.expression ⟨some .label, [⟨['x'], none⟩]⟩] := by
  cbv

end Template

end LinkTemplate
