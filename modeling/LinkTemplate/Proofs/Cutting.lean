import LinkTemplate.Template
import LinkTemplate.Proofs.Body
import Mathlib.Data.List.Chain
import Mathlib.Data.List.TakeWhile

/-!
# Cutting a template text into spans

The scanner walks along a text and cuts off one span after the other. What it arrives at can be
said without walking: a *cutting* is any sequence of spans whose characters are the text, each
span proper by itself and none before a span that it may not precede. A text has exactly one.

**Proper spans.** Plain text is not empty and has no opening brace. A braced body has no closing
brace, and neither has what follows a brace that is never closed.

**Neighbours.** Two plain spans would be one, and nothing is left behind a dangling brace.

Uniqueness is an induction on the cutting. The first span is recognised by the brace that opens
it, and it ends where the scanner ends it: plain text because what follows is no plain text, a
braced body because it has no closing brace of its own.

Main results: `Span.cuts_scan`, `Span.Cuts.eq_scan`.
-/

namespace LinkTemplate

open Text

namespace Span

/-! ## Cuttings -/

/-- What a span may hold. -/
def IsProper : Span → Prop
  | plain text => text ≠ [] ∧ '\x7b' ∉ text
  | braced body => '\x7d' ∉ body
  | dangling rest => '\x7d' ∉ rest

/-- Which span may come directly before which. -/
def MayPrecede : Span → Span → Prop
  | plain _, plain _ => False
  | dangling _, _ => False
  | _, _ => True

/-- The spans are consecutive pieces of the text and make it up. -/
structure Cuts (spans : List Span) (text : Text) : Prop where
  toText : spans.flatMap Span.toText = text
  proper : ∀ s ∈ spans, s.IsProper
  chain : spans.IsChain MayPrecede

/-- What becomes of a span. -/
inductive Gives : Span → Item → Prop
  | plain (text : Text) : Gives (plain text) (.literal text)
  | expression {body : Text} {e : Expression} : Grammar.readExpression body = .ok e →
      Gives (braced body) (.expression e)
  | degraded {body : Text} {fault : Fault} :
      Grammar.readExpression body = .error (.malformed fault) →
      Gives (braced body) (.literal ('\x7b' :: body ++ ['\x7d']))
  | dangling (rest : Text) : Gives (dangling rest) (.literal ('\x7b' :: rest))

/-- A cutting is a first span and a cutting of the rest. -/
theorem cuts_cons_iff {s : Span} {spans : List Span} {text : Text} :
    Cuts (s :: spans) text ↔ ∃ rest, text = s.toText ++ rest ∧ s.IsProper ∧
      (∀ t ∈ spans.head?, MayPrecede s t) ∧ Cuts spans rest := by
  constructor
  · rintro ⟨htext, hproper, hchain⟩
    obtain ⟨hhead, htail⟩ := List.isChain_cons.1 hchain
    refine ⟨spans.flatMap Span.toText, htext.symm, hproper s List.mem_cons_self, hhead, ?_⟩
    exact ⟨rfl, fun t ht => hproper t (List.mem_cons_of_mem s ht), htail⟩
  · rintro ⟨rest, rfl, hs, hhead, hrest⟩
    refine ⟨by rw [List.flatMap_cons, hrest.toText], ?_, List.isChain_cons.2 ⟨hhead, hrest.chain⟩⟩
    intro t ht
    rcases List.mem_cons.1 ht with rfl | ht
    · exact hs
    · exact hrest.proper t ht

/-! ## One step of the scanner -/

theorem scan_nil : scan [] = [] := by
  rw [scan]

theorem scan_dangling {rest : Text} (h : '\x7d' ∉ rest) :
    scan ('\x7b' :: rest) = [dangling rest] := by
  rw [scan, if_pos rfl]
  split
  · rfl
  · next hcut =>
    rw [cut_of_not_mem h] at hcut
    cases hcut

theorem scan_braced {body : Text} (h : '\x7d' ∉ body) (rest : Text) :
    scan ((braced body).toText ++ rest) = braced body :: scan rest := by
  have hcut := cut_append_cons h rest
  rw [toText, List.append_assoc, List.cons_append, scan, if_pos rfl]
  split
  · next hnone =>
    rw [List.singleton_append, hcut] at hnone
    cases hnone
  · next hsome =>
    rw [List.singleton_append, hcut] at hsome
    cases hsome
    rfl

theorem scan_plain {text rest : Text} (hne : text ≠ []) (hopen : '\x7b' ∉ text)
    (hrest : ∀ c ∈ rest.head?, c = '\x7b') :
    scan (text ++ rest) = plain text :: scan rest := by
  obtain ⟨c, tail, rfl⟩ := List.exists_cons_of_ne_nil hne
  obtain ⟨hc, htail⟩ := not_or.1 (mt List.mem_cons.2 hopen)
  have hkeep : ∀ d ∈ tail, decide (d ≠ '\x7b') = true := by
    intro d hd
    exact decide_eq_true fun h => htail (h ▸ hd)
  have hstop : rest.takeWhile (fun d => decide (d ≠ '\x7b')) = [] ∧
      rest.dropWhile (fun d => decide (d ≠ '\x7b')) = rest := by
    cases rest with
    | nil => exact ⟨rfl, rfl⟩
    | cons d rest =>
      obtain rfl : d = '\x7b' := hrest d rfl
      exact ⟨rfl, rfl⟩
  rw [List.cons_append, scan, if_neg (Ne.symm hc), List.takeWhile_append_of_pos hkeep,
    List.dropWhile_append_of_pos hkeep, hstop.1, hstop.2, List.append_nil]

/-- At a brace, or at the end, no plain span is cut off. -/
theorem mayPrecede_head_scan (text : Text) {rest : Text} (hrest : ∀ c ∈ rest.head?, c = '\x7b') :
    ∀ t ∈ (scan rest).head?, MayPrecede (plain text) t := by
  cases rest with
  | nil => simp [scan_nil]
  | cons c rest =>
    obtain rfl : c = '\x7b' := hrest c rfl
    rw [scan, if_pos rfl]
    split
    · rintro t ⟨⟩
      trivial
    · rintro t ⟨⟩
      trivial

/-! ## The only cutting -/

theorem cuts_scan (text : Text) : Cuts (scan text) text := by
  fun_induction scan text with
  | case1 => exact ⟨rfl, fun s hs => absurd hs List.not_mem_nil, .nil⟩
  | case2 rest hcut =>
    refine cuts_cons_iff.2 ⟨[], by simp [toText], cut_eq_none hcut, by simp, ?_⟩
    exact ⟨rfl, fun s hs => absurd hs List.not_mem_nil, .nil⟩
  | case3 rest body after hcut ih =>
    obtain ⟨rfl, hbody⟩ := cut_eq_some hcut
    refine cuts_cons_iff.2 ⟨after, by simp [toText], hbody, fun t _ => ?_, ih⟩
    cases t <;> trivial
  | case4 c rest hc ih =>
    -- Plain text goes up to the next opening brace, so no plain span can follow it.
    have hsplit : c :: rest = c :: rest.takeWhile (fun d => decide (d ≠ '\x7b')) ++
        rest.dropWhile (fun d => decide (d ≠ '\x7b')) := by
      rw [List.cons_append, List.takeWhile_append_dropWhile]
    have hopen : '\x7b' ∉ c :: rest.takeWhile (fun d => decide (d ≠ '\x7b')) := by
      refine List.not_mem_cons_of_ne_of_not_mem (Ne.symm hc) fun hmem => ?_
      have hkept := List.mem_takeWhile_imp hmem
      exact of_decide_eq_true hkept rfl
    have hstop : ∀ d ∈ (rest.dropWhile (fun d => decide (d ≠ '\x7b'))).head?, d = '\x7b' := by
      intro d hd
      have hnot := List.head?_dropWhile_not (fun d => decide (d ≠ '\x7b')) rest
      rw [Option.mem_def.1 hd] at hnot
      simpa using hnot
    exact cuts_cons_iff.2 ⟨_, hsplit, ⟨List.cons_ne_nil _ _, hopen⟩,
      mayPrecede_head_scan _ hstop, ih⟩

theorem Cuts.head_eq_open {spans : List Span} {text rest : Text} (h : Cuts spans rest)
    (hhead : ∀ t ∈ spans.head?, MayPrecede (plain text) t) : ∀ c ∈ rest.head?, c = '\x7b' := by
  cases spans with
  | nil =>
    rw [← h.toText]
    simp
  | cons t spans =>
    obtain ⟨tail, rfl, -⟩ := cuts_cons_iff.1 h
    cases t with
    | plain _ => exact (hhead _ rfl).elim
    | braced _ =>
      rintro c ⟨⟩
      rfl
    | dangling _ =>
      rintro c ⟨⟩
      rfl

/-- **Nothing but the scanner cuts.** -/
theorem Cuts.eq_scan {spans : List Span} {text : Text} (h : Cuts spans text) :
    spans = scan text := by
  induction spans generalizing text with
  | nil => rw [← h.toText, List.flatMap_nil, scan_nil]
  | cons s spans ih =>
    obtain ⟨rest, rfl, hs, hhead, hrest⟩ := cuts_cons_iff.1 h
    cases s with
    | plain text =>
      rw [ih hrest]
      exact (scan_plain hs.1 hs.2 (hrest.head_eq_open hhead)).symm
    | braced body => rw [scan_braced hs, ih hrest]
    | dangling tail =>
      -- A dangling span precedes none, so it is the last one.
      cases spans with
      | nil =>
        obtain rfl : rest = [] := hrest.toText.symm
        rw [List.append_nil]
        exact (scan_dangling hs).symm
      | cons t _ => exact (hhead t rfl).elim

/-! ## What becomes of the spans -/

theorem item_eq_ok_iff {s : Span} {i : Item} : s.item = .ok i ↔ Gives s i := by
  constructor
  · intro h
    cases s with
    | plain text =>
      cases h
      exact .plain text
    | dangling rest =>
      cases h
      exact .dangling rest
    | braced body =>
      rw [item] at h
      split at h
      · next hread =>
        cases h
        exact .expression hread
      · next hread =>
        cases h
        exact .degraded hread
      · cases h
  · intro h
    cases h with
    | plain text => rfl
    | expression hread => rw [item, hread]
    | degraded hread =>
      rw [item, hread]
      rfl
    | dangling rest => rfl

/-- The only reason to refuse a span is a limit of too many digits. -/
theorem item_eq_error {s : Span} {failure : Failure} (h : s.item = .error failure) :
    failure = .tooManyDigits := by
  cases s with
  | plain text => cases h
  | dangling rest => cases h
  | braced body =>
    rw [item] at h
    split at h
    · cases h
    · cases h
    · cases h
      rfl

end Span

/-! ## Texts and their items -/

def Item.IsBlank : Item → Prop
  | .literal text => text = []
  | .expression e => e.vars = []

theorem Span.Gives.not_isBlank {s : Span} {i : Item} (h : Gives s i) (hs : s.IsProper) :
    ¬ i.IsBlank := by
  cases h with
  | plain text => exact hs.1
  | @expression body e hread =>
    obtain ⟨rest, specs, -, -, hne, hspecs⟩ := Grammar.readExpression_eq_ok_iff.1 hread
    intro hblank
    have hvars : e.vars = [] := hblank
    rw [hvars, List.forall₂_nil_right_iff] at hspecs
    exact hne hspecs
  | degraded _ => exact List.cons_ne_nil _ _
  | dangling rest => exact List.cons_ne_nil _ _

namespace Template

theorem readItems_eq_ok_iff {text : Text} {items : List Item} :
    readItems text = .ok items ↔ List.Forall₂ Span.Gives (Span.scan text) items := by
  rw [readItems, mapM_eq_ok_iff]
  simp only [Span.item_eq_ok_iff]

theorem readItems_eq_error {text : Text} {failure : Failure}
    (h : readItems text = .error failure) : failure = .tooManyDigits := by
  obtain ⟨s, -, hs⟩ := exists_of_mapM_eq_error h
  exact Span.item_eq_error hs

theorem readItems_of_not_mem {text : Text} (h : '\x7b' ∉ text) :
    readItems text = .ok (if text = [] then [] else [.literal text]) := by
  rw [readItems_eq_ok_iff]
  split_ifs with hempty
  · rw [hempty, Span.scan_nil]
    exact .nil
  · have hscan : Span.scan (text ++ []) = Span.plain text :: Span.scan [] :=
      Span.scan_plain hempty h (by simp)
    rw [List.append_nil, Span.scan_nil] at hscan
    rw [hscan]
    exact .cons (.plain text) .nil

/-- **The items of a text are those of its only cutting.** If a text is read, it can be cut in
one way into spans that become its items, one for each; spans of any cutting become these items
and no others; and none of them is empty. -/
theorem items_of_only_cutting {text : Text} {items : List Item}
    (h : readItems text = .ok items) :
    (∃! spans, Span.Cuts spans text ∧ List.Forall₂ Span.Gives spans items) ∧
      (∀ spans items', Span.Cuts spans text → List.Forall₂ Span.Gives spans items' →
        items' = items) ∧
      ∀ i ∈ items, ¬ i.IsBlank := by
  have hgives := readItems_eq_ok_iff.1 h
  refine ⟨⟨Span.scan text, ⟨Span.cuts_scan text, hgives⟩, fun spans hspans => hspans.1.eq_scan⟩,
    ?_, ?_⟩
  · intro spans items' hcuts hgives'
    rw [hcuts.eq_scan] at hgives'
    have hread := readItems_eq_ok_iff.2 hgives'
    exact Except.ok.inj (hread.symm.trans h)
  · intro i hi
    obtain ⟨s, hs, hsi⟩ := exists_mem_of_mem_right hgives hi
    exact hsi.not_isBlank ((Span.cuts_scan text).proper s hs)

/-- Stray, nested and unclosed braces: the inner opening brace belongs to the body it stands in,
and the last one takes the rest. -/
theorem items_of_only_cutting_stray :
    ∃ items, items = [.literal "a\x7db".toList, .expression ⟨none, [⟨['x'], none⟩]⟩,
        .literal "\x7bc\x7bd\x7d".toList, .literal "\x7b\x7d".toList, .literal ['z'],
        .literal "\x7b,".toList] ∧
      readItems "a\x7db\x7bx\x7d\x7bc\x7bd\x7d\x7b\x7dz\x7b,".toList = .ok items ∧
      ∀ spans items', Span.Cuts spans "a\x7db\x7bx\x7d\x7bc\x7bd\x7d\x7b\x7dz\x7b,".toList →
        List.Forall₂ Span.Gives spans items' → items' = items := by
  refine ⟨_, rfl, ?hread, (items_of_only_cutting ?hread).2.1⟩
  cbv

end Template

end LinkTemplate
