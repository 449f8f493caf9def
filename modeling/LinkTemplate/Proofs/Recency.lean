import LinkTemplate.Proofs.Calls
import LinkTemplate.Proofs.Overlong
import Mathlib.Data.Finset.Card

/-!
# What an engine remembers

Which templates an engine remembers is told by the texts of its calls alone.

**Recency.** The readable texts of a run, each once and the one used last first, are its *recency*.
A call on a readable text moves this text to the front, and any other call changes nothing. Behind a
text in the recency are the texts not used since its last use, and before it are the others, so its
place is the number of distinct readable texts used since (`recency_append_cons`).

**The invariant** (`IsRecent`). The texts of the cache are the front of the recency, as many as the
cache may keep, and every call is counted once. The cache forgets what falls off its end, so the
point of the step lemma is that this is never missed: the front of what a call makes of the recency
can be told from the front that was there before (`atMost_cons_filter`).

Main results: `mem_atMost_recency_iff`, `isRecent_run`.
-/

namespace LinkTemplate

/-! ## Recency -/

/-- Texts that are templates. -/
def Template.isReadable (text : Text) : Bool := (readItems text).isOk

theorem Template.isOk_parse (settings : Settings) (text : Text) :
    (parse settings text).isOk = isReadable text := by
  unfold parse isReadable
  cases readItems text <;> rfl

theorem Template.not_isReadable_braced {body : Text} (hclose : '\x7d' ∉ body)
    (h : Grammar.readExpression body = .error .tooManyDigits) :
    isReadable (Span.braced body).toText = false := by
  have hscan := Span.scan_braced hclose []
  rw [List.append_nil, Span.scan_nil] at hscan
  have hitem : (Span.braced body).item = .error .tooManyDigits := by
    rw [Span.item, h]
  rw [isReadable, readItems, hscan, List.mapM_cons, hitem]
  rfl

namespace Engine

open Template

/-- The number of different templates among texts. -/
def distinct (texts : List Text) : Nat := (texts.filter isReadable).toFinset.card

/-- The templates among texts, each once, the last one first. -/
def recency (past : List Text) : List Text := firstUses (past.reverse.filter isReadable)

theorem mem_recency {text : Text} {past : List Text} :
    text ∈ recency past ↔ text ∈ past ∧ isReadable text = true := by
  rw [recency, mem_firstUses, List.mem_filter, List.mem_reverse]

theorem nodup_recency (past : List Text) : (recency past).Nodup := nodup_firstUses _

theorem length_recency (past : List Text) : (recency past).length = distinct past := by
  rw [← List.toFinset_card_of_nodup (nodup_recency past), distinct]
  congr 1
  ext text
  rw [List.mem_toFinset, List.mem_toFinset, mem_recency, List.mem_filter]

theorem recency_concat_of_isReadable {text : Text} (h : isReadable text = true)
    (past : List Text) :
    recency (past ++ [text]) = text :: (recency past).filter (· ≠ text) := by
  rw [recency, List.reverse_append, List.reverse_singleton, List.singleton_append,
    List.filter_cons_of_pos h]
  rfl

theorem recency_concat_of_not_isReadable {text : Text} (h : isReadable text = false)
    (past : List Text) : recency (past ++ [text]) = recency past := by
  rw [recency, List.reverse_append, List.reverse_singleton, List.singleton_append,
    List.filter_cons_of_neg (by simp [h])]
  rfl

theorem recency_append_cons {text : Text} (h : isReadable text = true) (before : List Text)
    {since : List Text} (hsince : text ∉ since) :
    ∃ older, recency (before ++ text :: since) = recency since ++ text :: older := by
  have hnot : text ∉ since.reverse.filter isReadable := by
    rw [List.mem_filter, List.mem_reverse]
    exact fun hmem => hsince hmem.1
  obtain ⟨older, holder⟩ := firstUses_append_cons hnot (before.reverse.filter isReadable)
  refine ⟨older, ?_⟩
  rw [recency, List.reverse_append, List.reverse_cons, List.append_assoc, List.singleton_append,
    List.filter_append, List.filter_cons_of_pos h, holder]
  rfl

/-! ## The front of a list -/

/-- The first of the texts, as many as a limit allows. -/
def atMost : Option Nat → List Text → List Text
  | none, texts => texts
  | some n, texts => texts.take n

theorem atMost_sublist (limit : Option Nat) (texts : List Text) :
    (atMost limit texts).Sublist texts := by
  cases limit with
  | none => exact List.Sublist.refl texts
  | some n => exact List.take_sublist n texts

theorem length_atMost (limit : Option Nat) (texts : List Text) :
    (atMost limit texts).length = match limit with
      | none => texts.length
      | some n => min n texts.length := by
  cases limit with
  | none => rfl
  | some n => exact List.length_take

/-- A text is in the front if it has few enough others before it. -/
theorem mem_atMost_append_cons {limit : Option Nat} {text : Text} {newer older : List Text}
    (h : text ∉ newer) :
    text ∈ atMost limit (newer ++ text :: older) ↔ ∀ n ∈ limit, newer.length < n := by
  cases limit with
  | none => simp [atMost]
  | some n =>
    have htake : text ∉ newer.take n := fun hmem => h (List.mem_of_mem_take hmem)
    have hroom : text ∈ (text :: older).take (n - newer.length) ↔ newer.length < n := by
      cases hn : n - newer.length with
      | zero =>
        rw [List.take_zero]
        exact iff_of_false List.not_mem_nil (by omega)
      | succ m =>
        rw [List.take_succ_cons]
        exact iff_of_true List.mem_cons_self (by omega)
    simp only [atMost, List.take_append, List.mem_append, htake, false_or, hroom,
      Option.mem_some_iff, forall_eq']

theorem filter_ne_of_not_mem {text : Text} {texts : List Text} (h : text ∉ texts) :
    texts.filter (· ≠ text) = texts :=
  List.filter_eq_self.2 fun a ha => by simpa using ne_of_mem_of_not_mem ha h

/-- One place less is enough once a text is taken out. -/
theorem take_filter_take_succ {text : Text} {texts : List Text} (h : texts.Nodup) (m : Nat) :
    ((texts.take (m + 1)).filter (· ≠ text)).take m = (texts.filter (· ≠ text)).take m := by
  induction texts generalizing m with
  | nil => rfl
  | cons first rest ih =>
    obtain ⟨hfirst, hrest⟩ := List.nodup_cons.1 h
    by_cases hne : first = text
    · -- The text is no second time in the rest.
      subst hne
      have hfront : first ∉ rest.take m := fun hmem => hfirst (List.mem_of_mem_take hmem)
      rw [List.take_succ_cons, List.filter_cons_of_neg (by simp),
        List.filter_cons_of_neg (by simp), filter_ne_of_not_mem hfirst,
        filter_ne_of_not_mem hfront, List.take_take, Nat.min_self]
    · cases m with
      | zero => rfl
      | succ m =>
        rw [List.take_succ_cons, List.filter_cons_of_pos (by simpa using hne),
          List.filter_cons_of_pos (by simpa using hne), List.take_succ_cons,
          List.take_succ_cons, ih hrest]

theorem atMost_cons_filter (limit : Option Nat) (text : Text) {texts : List Text}
    (h : texts.Nodup) :
    atMost limit (text :: (atMost limit texts).filter (· ≠ text)) =
      atMost limit (text :: texts.filter (· ≠ text)) := by
  cases limit with
  | none => rfl
  | some n =>
    cases n with
    | zero => rfl
    | succ m => exact congrArg (text :: ·) (take_filter_take_succ h m)

theorem atMost_cons_filter_of_mem {limit : Option Nat} {text : Text} {texts : List Text}
    (h : texts.Nodup) (hmem : text ∈ atMost limit texts) :
    text :: (atMost limit texts).filter (· ≠ text) =
      atMost limit (text :: texts.filter (· ≠ text)) := by
  rw [← atMost_cons_filter limit text h]
  cases limit with
  | none => rfl
  | some n =>
    refine (List.take_of_length_le ?_).symm
    have hlt : ((texts.take n).filter (· ≠ text)).length < (texts.take n).length :=
      List.length_filter_lt_length_iff_exists.2 ⟨text, hmem, by simp⟩
    exact hlt.trans_le (List.length_take_le n texts)

/-! ## What is remembered -/

/-- The text was read before, and since its last use fewer other templates were used than there is
room for. -/
def Remembers (limit : Option Nat) (past : List Text) (text : Text) : Prop :=
  isReadable text = true ∧ ∃ before since, past = before ++ text :: since ∧ text ∉ since ∧
    ∀ n ∈ limit, distinct since < n

theorem mem_atMost_recency_iff {limit : Option Nat} {past : List Text} {text : Text} :
    text ∈ atMost limit (recency past) ↔ Remembers limit past text := by
  -- At the last use of the text both sides say the same of what was used since.
  have hsplit (hread : isReadable text = true) (before : List Text) {since : List Text}
      (hsince : text ∉ since) :
      text ∈ atMost limit (recency (before ++ text :: since)) ↔
        ∀ n ∈ limit, distinct since < n := by
    obtain ⟨older, hrecency⟩ := recency_append_cons hread before hsince
    rw [hrecency, mem_atMost_append_cons fun hmem => hsince (mem_recency.1 hmem).1,
      length_recency]
  constructor
  · intro hmem
    obtain ⟨hpast, hread⟩ := mem_recency.1 ((atMost_sublist limit _).subset hmem)
    obtain ⟨newer, older, hreverse, hnewer⟩ :=
      List.eq_append_cons_of_mem (List.mem_reverse.2 hpast)
    have hpast : past = older.reverse ++ text :: newer.reverse := by
      rw [← List.reverse_reverse past, hreverse]
      simp
    have hsince : text ∉ newer.reverse := fun h => hnewer (List.mem_reverse.1 h)
    rw [hpast, hsplit hread _ hsince] at hmem
    exact ⟨hread, older.reverse, newer.reverse, hpast, hsince, hmem⟩
  · rintro ⟨hread, before, since, rfl, hsince, hlimit⟩
    exact (hsplit hread before hsince).2 hlimit

/-! ## The invariant -/

def recalls (e : Engine) (text : Text) : Bool := (e.cache.hit? text).isSome

theorem recalls_eq (e : Engine) (text : Text) :
    e.recalls text = (Assignment.get? text e.cache.entries).isSome := by
  unfold recalls Cache.hit?
  cases Assignment.get? text e.cache.entries <;> rfl

theorem recalls_iff {e : Engine} {text : Text} :
    e.recalls text = true ↔ text ∈ Assignment.names e.cache.entries := by
  rw [recalls_eq, Option.isSome_iff_ne_none, ne_eq, Assignment.get?_eq_none_iff, not_not]

/-- A cache keeps the texts used last and has counted all calls. -/
structure IsRecent (limit : Option Nat) (past : List Text) (cache : Cache Parsed) : Prop where
  capacity_eq : cache.capacity = limit
  names_eq : Assignment.names cache.entries = atMost limit (recency past)
  count_eq : cache.hits + cache.misses = past.length

theorem names_trimmed {β : Type} (limit : Option Nat) (entries : Assignment β) :
    Assignment.names (Cache.trimmed limit entries) = atMost limit (Assignment.names entries) := by
  cases limit with
  | none => rfl
  | some n => exact List.map_take

namespace Reads

variable {e : Engine} {traced : Bool} {text : Text} {o : Outcome Parsed}
variable {limit : Option Nat} {past : List Text}

/-- One call keeps the invariant. -/
theorem isRecent (h : Reads e traced text o) (he : IsRecent limit past e.cache) :
    IsRecent limit (past ++ [text]) o.engine.cache := by
  have hcount : (past ++ [text]).length = past.length + 1 := List.length_append
  have hnodup : (recency past).Nodup := nodup_recency past
  cases h with
  | @recalled parsed hget =>
    have hmem : text ∈ atMost limit (recency past) := by
      rw [← he.names_eq]
      exact List.mem_map_of_mem (Assignment.mem_of_get? hget)
    have hread : isReadable text = true :=
      (mem_recency.1 ((atMost_sublist limit _).subset hmem)).2
    refine ⟨he.capacity_eq, ?_, ?_⟩
    · calc text :: Assignment.names (Assignment.unset text e.cache.entries)
          = text :: (atMost limit (recency past)).filter (· ≠ text) := by
            rw [Assignment.names_unset, he.names_eq]
        _ = atMost limit (text :: (recency past).filter (· ≠ text)) :=
            atMost_cons_filter_of_mem hnodup hmem
        _ = atMost limit (recency (past ++ [text])) := by
            rw [recency_concat_of_isReadable hread]
    · change e.cache.hits + 1 + e.cache.misses = _
      rw [hcount, ← he.count_eq]
      omega
  | @read template hget hparse =>
    have hread : isReadable text = true := by
      rw [← isOk_parse e.settings, hparse]
      rfl
    have hnot : text ∉ atMost limit (recency past) := by
      rw [← he.names_eq]
      exact Assignment.get?_eq_none_iff.1 hget
    refine ⟨he.capacity_eq, ?_, ?_⟩
    · calc Assignment.names (Cache.trimmed e.cache.capacity ((text, _) :: e.cache.entries))
          = atMost limit (text :: (atMost limit (recency past)).filter (· ≠ text)) := by
            rw [names_trimmed, he.capacity_eq, filter_ne_of_not_mem hnot, ← he.names_eq]
            rfl
        _ = atMost limit (text :: (recency past).filter (· ≠ text)) :=
            atMost_cons_filter limit text hnodup
        _ = atMost limit (recency (past ++ [text])) := by
            rw [recency_concat_of_isReadable hread]
    · change e.cache.hits + (e.cache.misses + 1) = _
      rw [hcount, ← he.count_eq]
      omega
  | refused hget hparse =>
    have hread : isReadable text = false := by
      rw [← isOk_parse e.settings, hparse]
      rfl
    refine ⟨he.capacity_eq, ?_, ?_⟩
    · rw [recency_concat_of_not_isReadable hread]
      exact he.names_eq
    · change e.cache.hits + (e.cache.misses + 1) = _
      rw [hcount, ← he.count_eq]
      omega

end Reads

theorem isRecent_run (settings : Settings) (past : List Call) :
    IsRecent (settings.parseCacheSize.map Int.toNat) (past.map Call.text)
      ((ofSettings settings).run past).cache := by
  induction past using List.reverseRecOn with
  | nil =>
    refine ⟨rfl, ?_, rfl⟩
    cases settings.parseCacheSize with
    | none => rfl
    | some n => exact List.take_nil.symm
  | append_singleton past call ih =>
    rw [run_concat, after_eq, List.map_append]
    exact (reads_parse _ call.traced call.text).isRecent ih

/-! ## Records -/

def reportsMiss (r : Log.Record) : Bool :=
  decide (r.logger = Naming.templates) && "parse cache miss".toList.isPrefixOf r.message

theorem reportsMiss_missRecord (text : Text) : reportsMiss (missRecord text) = true := rfl

theorem not_reportsMiss_of_logger {r : Log.Record}
    (h : r.logger = Naming.parsing ∨ r.logger = Naming.expansion) : reportsMiss r = false := by
  have hlogger : r.logger ≠ Naming.templates := by
    rcases h with h | h <;> rw [h] <;> decide
  rw [reportsMiss, decide_eq_false hlogger, Bool.false_and]

theorem filter_parseRecords (settings : Settings) (text : Text) :
    (Template.parseRecords settings text).filter reportsMiss = [] := by
  refine List.filter_eq_nil_iff.2 fun r hr => ?_
  obtain ⟨d, -, rfl⟩ := List.mem_map.1 hr
  rw [not_reportsMiss_of_logger (.inl rfl)]
  exact Bool.false_ne_true

theorem filter_expandRecords (traced : Bool) (t : Template) (l : Lookup) :
    (t.expandRecords traced l).filter reportsMiss = [] := by
  refine List.filter_eq_nil_iff.2 fun r hr => ?_
  unfold expandRecords at hr
  split at hr
  · obtain ⟨s, -, rfl⟩ := List.mem_map.1 hr
    rw [not_reportsMiss_of_logger (.inr rfl)]
    exact Bool.false_ne_true
  · cases hr

theorem filter_rescue (text : Text) (expansion : Except Failure Text) :
    (rescue text expansion).1.filter reportsMiss = [] := by
  cases expansion with
  | ok result => rfl
  | error failure => cases failure <;> rfl

theorem filter_records (e : Engine) (call : Call) :
    (call.records e).filter reportsMiss =
      (e.parse call.traced call.text).records.filter reportsMiss := by
  cases call with
  | parse traced text => rfl
  | render traced text vars =>
    simp only [Call.records, Call.traced, Call.text, render]
    cases (e.parse traced text).result with
    | error failure => rfl
    | ok parsed =>
      cases vars.toMapping with
      | error failure => rfl
      | ok entries =>
        simp only [List.filter_append, filter_expandRecords, filter_rescue, List.append_nil]

namespace Reads

variable {e : Engine} {traced : Bool} {text : Text} {o : Outcome Parsed}

theorem filter_records (h : Reads e traced text o) :
    o.records.filter reportsMiss =
      if traced && !e.recalls text then [missRecord text] else [] := by
  have hmiss : ((if traced then [missRecord text] else []) ++
      Template.parseRecords e.settings text).filter reportsMiss =
        if traced then [missRecord text] else [] := by
    rw [List.filter_append, filter_parseRecords, List.append_nil]
    cases traced with
    | true => exact List.filter_cons_of_pos (reportsMiss_missRecord text)
    | false => rfl
  rw [recalls_eq]
  cases h with
  | recalled hget =>
    rw [hget, Option.isSome_some, Bool.not_true, Bool.and_false]
    rfl
  | read hget _ | refused hget _ =>
    rw [hget, Option.isSome_none, Bool.not_false, Bool.and_true, hmiss]

/-- Recalling a template counts as a hit and everything else as a miss. -/
theorem counts (h : Reads e traced text o) :
    o.engine.cache.hits = e.cache.hits + (e.recalls text).toNat ∧
      o.engine.cache.misses = e.cache.misses + (!e.recalls text).toNat := by
  rw [recalls_eq]
  cases h with
  | recalled hget | read hget _ | refused hget _ =>
    rw [hget]
    exact ⟨rfl, rfl⟩

theorem isOk_result (h : Reads e traced text o) (he : e.IsSound) :
    o.result.isOk = isReadable text := by
  rw [← isOk_parse e.settings, ← h.map_result he]
  cases o.result <;> rfl

theorem cache_eq_of_not_isReadable (h : Reads e traced text o) (he : e.IsSound)
    (hread : isReadable text = false) :
    e.recalls text = false ∧ o.engine.cache = e.cache.countMiss := by
  have hfailed : o.result.isOk = false := by
    rw [h.isOk_result he, hread]
  rw [recalls_eq]
  cases h with
  | recalled _ | read _ _ => cases hfailed
  | refused hget _ =>
    rw [hget]
    exact ⟨rfl, rfl⟩

end Reads

/-! ## Runs -/

/-- **An engine remembers the templates used last.** After any calls a text is recalled if and only
if it was read before and, since its last use, fewer other templates were used than the cache has
room for. This is a hit, and every other call is a miss and the only one that traces a miss. All
calls are counted, and the cache holds as many templates as were read, or as it has room for. A text
that cannot be read is a miss that changes no entry. -/
theorem cache_of_run (settings : Settings) (past : List Call) (call : Call) :
    let limit := settings.parseCacheSize.map Int.toNat
    let texts := past.map Call.text
    let e := (ofSettings settings).run past
    let next := call.after e
    (e.recalls call.text = true ↔ Remembers limit texts call.text) ∧
      (next.cache.hits = e.cache.hits + (e.recalls call.text).toNat ∧
        next.cache.misses = e.cache.misses + (!e.recalls call.text).toNat) ∧
      (call.records e).filter reportsMiss =
        (if call.traced && !e.recalls call.text then [missRecord call.text] else []) ∧
      e.cache.hits + e.cache.misses = past.length ∧
      e.cache.size = (match limit with
        | none => distinct texts
        | some n => min n (distinct texts)) ∧
      (e.parse call.traced call.text).result.isOk = isReadable call.text ∧
      (isReadable call.text = false →
        e.recalls call.text = false ∧ next.cache = e.cache.countMiss) := by
  intro limit texts e next
  have hrecent : IsRecent limit texts e.cache := isRecent_run settings past
  have hsound : e.IsSound := isSound_run (isSound_ofSettings settings) past
  have hreads : Reads e call.traced call.text (e.parse call.traced call.text) :=
    reads_parse e call.traced call.text
  have hnext : next = (e.parse call.traced call.text).engine := after_eq e call
  refine ⟨?_, ?_, ?_, ?_, ?_, hreads.isOk_result hsound, ?_⟩
  · rw [recalls_iff, hrecent.names_eq, mem_atMost_recency_iff]
  · rw [hnext]
    exact hreads.counts
  · rw [filter_records, hreads.filter_records]
  · rw [hrecent.count_eq, List.length_map]
  · have hsize : e.cache.size = (Assignment.names e.cache.entries).length :=
      (List.length_map Prod.fst).symm
    rw [hsize, hrecent.names_eq, length_atMost, length_recency]
  · rw [hnext]
    exact hreads.cache_eq_of_not_isReadable hsound

/-- With room for two of three texts, the one that was not used for the longest time is gone. A text
of too many digits takes no room, and a call that fails for its variables has used its text. -/
theorem cache_of_run_two :
    let body : Text := 'x' :: ':' :: List.replicate 4301 '1'
    let refused : Text := (Span.braced body).toText
    let past : List Call := [.parse false ['a'], .parse false ['b'], .parse true ['a'],
      .parse true refused, .render false ['c'] (.data .null)]
    let e := (ofSettings { parseCacheSize := some 2 }).run past
    e.recalls ['a'] = true ∧ e.recalls ['b'] = false ∧
      ((Call.parse true ['b']).records e).filter reportsMiss = [missRecord ['b']] ∧
      isReadable refused = false ∧ e.recalls refused = false ∧
      ((Call.parse true refused).after e).cache = e.cache.countMiss := by
  intro body refused past e
  have hrefused : isReadable refused = false := by
    have hdigit : ∀ c ∈ List.replicate 4301 '1', c.isDigit = true := fun c hc => by
      rw [List.eq_of_mem_replicate hc]
      rfl
    have hclose : '\x7d' ∉ body := by
      rw [List.mem_cons, List.mem_cons]
      rintro (h | h | h)
      · cases h
      · cases h
      · cases hdigit _ h
    have hmany : Decimal.maxDigits < (List.replicate 4301 '1').length := by
      rw [List.length_replicate]
      decide
    have hname : Grammar.IsName ['x'] := (Grammar.readName_eq_ok_iff.1 rfl).2
    exact not_isReadable_braced hclose (Grammar.readExpression_of_maxDigits_lt
      (Grammar.splitOperator_eq_iff.1 rfl) hname hdigit (by decide) hmany)
  have hremembers (text : Text) :
      Remembers (some 2) (past.map Call.text) text ↔ text ∈ [['c'], ['a']] := by
    have ha : isReadable ['a'] = true := by cbv
    have hb : isReadable ['b'] = true := by cbv
    have hc : isReadable ['c'] = true := by cbv
    have hrecency : recency (past.map Call.text) = [['c'], ['a'], ['b']] := by
      change recency [['a'], ['b'], ['a'], refused, ['c']] = _
      simp [recency, ha, hb, hc, hrefused, firstUses]
    rw [← mem_atMost_recency_iff, hrecency]
    rfl
  obtain ⟨ha, -⟩ := cache_of_run { parseCacheSize := some 2 } past (.parse true ['a'])
  obtain ⟨hb, -, hrecords, -⟩ := cache_of_run { parseCacheSize := some 2 } past (.parse true ['b'])
  obtain ⟨-, -, -, -, -, -, hlong⟩ :=
    cache_of_run { parseCacheSize := some 2 } past (.parse true refused)
  have hgone : e.recalls ['b'] = false :=
    Bool.eq_false_iff.2 fun h => absurd ((hremembers _).1 (hb.1 h)) (by decide)
  change _ = (if (true && !e.recalls ['b']) = true then [missRecord ['b']] else []) at hrecords
  rw [hgone] at hrecords
  exact ⟨ha.2 ((hremembers _).2 (by decide)), hgone, hrecords, hrefused, hlong hrefused⟩

end Engine

end LinkTemplate
