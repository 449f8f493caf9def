import LinkTemplate.Log.Record
import LinkTemplate.Proofs.Overlong
import LinkTemplate.Proofs.RoundTrip

/-!
# Expressions that are kept as literals

Reading a text leaves two things: its items, and a record of each expression that was kept as a
literal. They come from one walk along the spans, and they fit together so closely that the records
can be told from the items.

**Which literals.** Plain text has no opening brace. So the literals that were meant as expressions
are those that begin with one (`Item.opensBrace`).

**Why.** A brace that is never closed leaves a literal without closing brace. Any other literal ends
with its only one, and the fault of what stands between the braces is the reason. No fault is worded
as an unclosed brace, so the reasons can be told apart as well (`IsReason`).

**How far.** Reading stops at the first span that is refused, and the records stop with it. A span
in front of it becomes the same item, with the same record, as in any other text.

What one span adds to the literals with a brace and to the notes is said in one lemma, and the
notes of a text follow by induction on the spans that have become items.

Main results: `Span.Gives.note_cases`, `Span.forall₂_isNotedBy`.
-/

namespace LinkTemplate

open Text

/-! ## Literals and their records -/

/-- Why a literal is not an expression. -/
structure IsReason (literal reason : Text) : Prop where
  unterminated_iff : reason = "unterminated".toList ↔ '\x7d' ∉ literal
  malformed : '\x7d' ∈ literal → ∃ body fault, literal = '\x7b' :: body ++ ['\x7d'] ∧
    Grammar.readExpression body = .error (.malformed fault) ∧ reason = fault.message

namespace Item

/-- The item is a literal that begins with an opening brace. -/
def opensBrace : Item → Bool
  | literal ('\x7b' :: _) => true
  | _ => false

/-- The record says of a literal that it was kept as one, and why. -/
def IsNotedBy (i : Item) (r : Log.Record) : Prop :=
  ∃ text reason, i = literal text ∧ IsReason text reason ∧ r = {
    logger := Naming.parsing
    level := Log.Level.debug
    message := "expression kept as literal: ".toList ++ quoted text ++
      ' ' :: '(' :: reason ++ [')'] }

theorem opensBrace_of_not_mem {text : Text} (h : '\x7b' ∉ text) :
    (literal text).opensBrace = false := by
  unfold opensBrace
  split
  · next heq =>
    cases heq
    exact absurd List.mem_cons_self h
  · rfl

end Item

namespace Fault

/-- A fault is told in more than one word. -/
theorem space_mem_message (fault : Fault) : ' ' ∈ fault.message := by
  cases fault with
  | badTriplet position => exact List.mem_append_left _ (by decide)
  | badNameChar c => exact List.mem_append_left _ (by decide)
  | limitNotNumber text => exact List.mem_append_left _ (by decide)
  | limitTooLarge size => exact List.mem_append_right _ (by decide)
  | emptyName | limitStart | emptyVarspec | limitAndExplode | explodeNotLast | emptyExpression =>
    unfold message
    decide

theorem message_ne_unterminated (fault : Fault) : fault.message ≠ "unterminated".toList := by
  intro h
  have hspace := h ▸ fault.space_mem_message
  exact absurd hspace (by decide)

end Fault

/-! ## Spans -/

namespace Span

theorem isReason_dangling {rest : Text} (h : '\x7d' ∉ rest) :
    IsReason (dangling rest).toText "unterminated".toList := by
  have hclose : '\x7d' ∉ (dangling rest).toText := by simpa [toText] using h
  exact ⟨iff_of_true rfl hclose, fun hmem => absurd hmem hclose⟩

theorem isReason_braced {body : Text} {fault : Fault}
    (h : Grammar.readExpression body = .error (.malformed fault)) :
    IsReason (braced body).toText fault.message := by
  have hclose : '\x7d' ∈ (braced body).toText := by simp [toText]
  refine ⟨iff_of_false fault.message_ne_unterminated (not_not.2 hclose), fun _ => ?_⟩
  exact ⟨body, fault, rfl, h, rfl⟩

/-- **A span leaves a note** if it becomes a literal with a brace, and no note otherwise. -/
theorem Gives.note_cases {s : Span} {i : Item} (h : Gives s i) (hs : s.IsProper) :
    (i.opensBrace = false ∧ s.degradation? = none) ∨
      (i.opensBrace = true ∧ ∃ d, s.degradation? = some d ∧ i.IsNotedBy d.record) := by
  cases h with
  | plain text => exact .inl ⟨Item.opensBrace_of_not_mem hs.2, rfl⟩
  | @expression body e hread =>
    refine .inl ⟨rfl, ?_⟩
    rw [degradation?, hread]
  | @degraded body fault hread =>
    refine .inr ⟨rfl, ⟨(braced body).toText, .fault fault⟩, ?_, ?_⟩
    · rw [degradation?, hread]
    · exact ⟨_, _, rfl, isReason_braced hread, rfl⟩
  | dangling rest =>
    exact .inr ⟨rfl, _, rfl, _, _, rfl, isReason_dangling hs, rfl⟩

theorem degradations_cons {s : Span} {i : Item} (h : Gives s i) (rest : List Span) :
    degradations (s :: rest) = s.degradation?.toList ++ degradations rest := by
  rw [degradations, item_eq_ok_iff.2 h]

/-- No note is left of a span that becomes no item, or of anything behind it. -/
theorem degradations_cons_of_error {s : Span} {failure : Failure} (h : s.item = .error failure)
    (rest : List Span) : degradations (s :: rest) = [] := by
  rw [degradations, h]

/-- **Spans that become items are noted** one by one, as far as their items are literals with a
brace. -/
theorem forall₂_isNotedBy {before rest : List Span} {items : List Item}
    (h : List.Forall₂ Gives before items) (hproper : ∀ s ∈ before, s.IsProper)
    (hrest : degradations rest = []) :
    List.Forall₂ Item.IsNotedBy (items.filter Item.opensBrace)
      ((degradations (before ++ rest)).map Degradation.record) := by
  induction h with
  | nil =>
    rw [List.nil_append, hrest]
    exact .nil
  | @cons s i before items hi _ ih =>
    obtain ⟨hs, hbefore⟩ := List.forall_mem_cons.1 hproper
    have hnoted := ih hbefore
    rw [List.cons_append, degradations_cons hi]
    rcases hi.note_cases hs with ⟨hbrace, hnone⟩ | ⟨hbrace, d, hsome, hd⟩
    · rw [List.filter_cons_of_neg (Bool.not_eq_true _ ▸ hbrace), hnone]
      exact hnoted
    · rw [List.filter_cons_of_pos hbrace, hsome]
      exact .cons hd hnoted

end Span

/-! ## Texts -/

namespace Template

theorem parseRecords_of_logDegraded {settings : Settings} (h : settings.logDegraded = true)
    (text : Text) :
    parseRecords settings text = (Span.degradations (Span.scan text)).map Degradation.record := by
  rw [parseRecords, parseNotes, if_pos h]

theorem map_items_parse (settings : Settings) (text : Text) :
    (parse settings text).map items = readItems text := by
  unfold parse
  cases readItems text with
  | error failure => rfl
  | ok items => rfl

theorem exists_of_readItems_eq_error {text : Text} {failure : Failure}
    (h : readItems text = .error failure) :
    ∃ before items body after, Span.Cuts (before ++ .braced body :: after) text ∧
      List.Forall₂ Span.Gives before items ∧
      Grammar.readExpression body = .error .tooManyDigits := by
  obtain ⟨before, s, after, hscan, hbefore, hs⟩ := mapM_eq_error_iff.1 h
  obtain ⟨-, body, rfl, hbody⟩ := Span.item_eq_error_iff.1 hs
  obtain ⟨items, hitems⟩ := exists_mapM_eq_ok_iff.2 hbefore
  rw [mapM_eq_ok_iff] at hitems
  simp only [Span.item_eq_ok_iff] at hitems
  exact ⟨before, items, body, after, hscan ▸ Span.cuts_scan text, hitems,
    Grammar.readExpression_eq_tooManyDigits_iff.2 hbody⟩

/-- **The records of a text that is read** are those of its literals with a brace: one for each, in
their order, which names the literal and the reason. The reason is that the brace is not closed if
the literal has no closing brace, and otherwise the fault of the text between its braces. If the
text is not read, the records are those of what stands in front of the body that is refused. Without
records the items are the same. -/
theorem parseRecords_of_parse (settings : Settings) (text : Text) :
    (∀ t, parse settings text = .ok t → settings.logDegraded = true →
      List.Forall₂ Item.IsNotedBy (t.items.filter Item.opensBrace) (parseRecords settings text)) ∧
    (∀ failure, parse settings text = .error failure →
      ∃ before items body after, Span.Cuts (before ++ .braced body :: after) text ∧
        List.Forall₂ Span.Gives before items ∧
        Grammar.readExpression body = .error .tooManyDigits ∧
        (settings.logDegraded = true →
          List.Forall₂ Item.IsNotedBy (items.filter Item.opensBrace)
            (parseRecords settings text))) ∧
    (settings.logDegraded = false → parseRecords settings text = []) ∧
    ∀ settings', (parse settings' text).map items = (parse settings text).map items := by
  have hcuts := Span.cuts_scan text
  refine ⟨fun t ht hlog => ?_, fun failure hfailure => ?_, fun hlog => ?_, fun settings' => ?_⟩
  · have hgives := readItems_eq_ok_iff.1 (parse_eq_ok_iff.1 ht).1
    have hend : Span.degradations [] = [] := rfl
    have hnoted := Span.forall₂_isNotedBy hgives hcuts.proper hend
    rwa [List.append_nil, ← parseRecords_of_logDegraded hlog] at hnoted
  · have hread : readItems text = .error failure := bind_pure_eq_error_iff.1 hfailure
    obtain ⟨before, items, body, after, hcuts, hitems, hbody⟩ := exists_of_readItems_eq_error hread
    refine ⟨before, items, body, after, hcuts, hitems, hbody, fun hlog => ?_⟩
    have hrefused : (Span.braced body).item = .error .tooManyDigits := by
      rw [Span.item, hbody]
    have hnoted := Span.forall₂_isNotedBy hitems
      (fun s hs => hcuts.proper s (List.mem_append_left _ hs))
      (Span.degradations_cons_of_error hrefused after)
    rwa [hcuts.eq_scan, ← parseRecords_of_logDegraded hlog] at hnoted
  · rw [parseRecords, parseNotes, hlog]
    rfl
  · rw [map_items_parse, map_items_parse]

/-- Two literals with a brace among four items, and one in front of a body that is refused. -/
theorem parseRecords_of_parse_between :
    let text : Text := "a\x7d\x7bx!,:\x7d\x7by\x7d\x7bz".toList
    let noted : List Item := [.literal "\x7bx!,:\x7d".toList, .literal "\x7bz".toList]
    let size := List.replicate (Decimal.maxDigits + 1) '1'
    let refused := (Span.braced ['!']).toText ++ (Span.braced ('x' :: ':' :: size)).toText
    (∃ t, parse {} text = .ok t ∧ t.items.filter Item.opensBrace = noted ∧
      (parseRecords {} text).map Log.Record.message =
        ["expression kept as literal: '\x7bx!,:\x7d' (invalid varname character '!')".toList,
          "expression kept as literal: '\x7bz' (unterminated)".toList] ∧
      List.Forall₂ Item.IsNotedBy noted (parseRecords {} text) ∧
      parseRecords { logDegraded := false } text = []) ∧
    parse {} refused = .error .tooManyDigits ∧
      ∃ before items body after, Span.Cuts (before ++ .braced body :: after) refused ∧
        List.Forall₂ Span.Gives before items ∧
        Grammar.readExpression body = .error .tooManyDigits ∧
        List.Forall₂ Item.IsNotedBy (items.filter Item.opensBrace) (parseRecords {} refused) := by
  intro text noted size refused
  have hparse : parse {} text = .ok ⟨[.literal "a\x7d".toList, .literal "\x7bx!,:\x7d".toList,
      .expression ⟨none, [⟨['y'], none⟩]⟩, .literal "\x7bz".toList], {}⟩ := by
    change parse {} "a\x7d\x7bx!,:\x7d\x7by\x7d\x7bz".toList = _
    cbv
  have hnotes : parseNotes {} text =
      [⟨"\x7bx!,:\x7d".toList, .fault (.badNameChar '!')⟩, ⟨"\x7bz".toList, .unterminated⟩] := by
    change parseNotes {} "a\x7d\x7bx!,:\x7d\x7by\x7d\x7bz".toList = _
    cbv
  have hmessages : (parseRecords {} text).map Log.Record.message =
      ["expression kept as literal: '\x7bx!,:\x7d' (invalid varname character '!')".toList,
        "expression kept as literal: '\x7bz' (unterminated)".toList] := by
    rw [parseRecords, hnotes]
    decide
  have hoverlong : HasOverlong refused :=
    (hasOverlong_size (Grammar.isOverlongSize_replicate (Nat.lt_succ_self _))).braced_append
      (by decide)
  have hrefused : parse {} refused = .error .tooManyDigits := by
    rw [parse, bind_pure_eq_error_iff, readItems_eq_error_iff]
    exact ⟨rfl, hoverlong⟩
  obtain ⟨hnoted, -, -, -⟩ := parseRecords_of_parse {} text
  obtain ⟨-, -, hsilent, -⟩ := parseRecords_of_parse { logDegraded := false } text
  obtain ⟨-, hfails, -, -⟩ := parseRecords_of_parse {} refused
  obtain ⟨before, items, body, after, hcuts, hitems, hbody, hfront⟩ := hfails _ hrefused
  exact ⟨⟨_, hparse, rfl, hmessages, hnoted _ hparse rfl, hsilent rfl⟩, hrefused, before, items,
    body, after, hcuts, hitems, hbody, hfront rfl⟩

end Template

end LinkTemplate
