import LinkTemplate.Proofs.Rescue

/-!
# Records on one line

Templates, bindings and variables of the environment come from outside, and records show them. The
texts among them are quoted first, and a quoted text is printable. So is the wording around it. A
record in the plain format is then one line, and no text that is shown can end it and start another.

**Shown texts** (`Text.IsShown`). Printable characters only. Messages are put together from quoted
texts, numbers and fixed words, and each of these is shown.

**Types.** The name of a type is the one part of a message that is not quoted. It is shown by the
report of a datum that cannot be used (`Record.Reports`), and in this report alone it may break the
line (`own_record_breaks_line`).

**Own records** (`Log.IsOwn`). Those of reading, expansion, the engine and the settings, and the
traces among them also before their placeholders are filled. They report data that the variables of
a call are bound to (`Engine.Call.given`), or none. A record is judged by what it is filled to
(`Record.IsReady`), so what is checked is what is written.

Main results: `IsOwn.isReady`, `Record.IsReady.emit`, `own_record_on_one_line`.
-/

namespace LinkTemplate

open Text Decimal

/-! ## Shown texts -/

namespace Text

/-- An ASCII control character. -/
def IsControl (c : Char) : Prop := c.toNat < 0x20 ∨ c.toNat = 0x7F

def IsShown (text : Text) : Prop := ∀ c ∈ text, isPrintable c = true

theorem isShown_of_all {text : Text} (h : text.all isPrintable = true) : IsShown text :=
  List.all_eq_true.1 h

theorem IsShown.append {text more : Text} (h : IsShown text) (hmore : IsShown more) :
    IsShown (text ++ more) :=
  List.forall_mem_append.2 ⟨h, hmore⟩

theorem IsShown.cons {c : Char} {text : Text} (hc : isPrintable c = true) (h : IsShown text) :
    IsShown (c :: text) :=
  List.forall_mem_cons.2 ⟨hc, h⟩

theorem isShown_quoted (text : Text) : IsShown (quoted text) := fun _ => isPrintable_of_mem_quoted

theorem isPrintable_of_isDigit {c : Char} (h : c.isDigit) : isPrintable c = true := by
  have hrange := Char.isDigit_iff_toNat.1 h
  have hzero : '0'.toNat = 0x30 := rfl
  have hnine : '9'.toNat = 0x39 := rfl
  have hascii : c.toNat < 0x80 := by omega
  rw [isPrintable, if_pos hascii, Bool.and_eq_true, decide_eq_true_eq, decide_eq_true_eq]
  omega

theorem isShown_natText (n : Nat) : IsShown (natText n) := fun _ hc =>
  isPrintable_of_isDigit (Nat.isDigit_of_mem_toDigits (by decide) (by decide) hc)

theorem isShown_intText (n : Int) : IsShown (intText n) := by
  unfold intText
  split
  · exact (isShown_natText _).cons (by decide)
  · exact isShown_natText _

theorem IsShown.not_isControl {text : Text} (h : IsShown text) : ∀ c ∈ text, ¬ IsControl c := by
  intro c hc hcontrol
  have hprintable := h c hc
  rw [not_isPrintable_of_control hcontrol] at hprintable
  cases hprintable

end Text

/-! ## Messages -/

theorem Fault.isShown_message (f : Fault) : IsShown f.message := by
  cases f with
  | badTriplet position => exact (isShown_of_all (by decide)).append (isShown_natText position)
  | badNameChar c => exact (isShown_of_all (by decide)).append (isShown_quoted [c])
  | limitNotNumber text => exact (isShown_of_all (by decide)).append (isShown_quoted text)
  | limitTooLarge size =>
    exact ((isShown_of_all (by decide)).append (isShown_natText size)).append
      (isShown_of_all (by decide))
  | _ => exact isShown_of_all (by decide)

theorem Degradation.isShown_message (d : Degradation) : IsShown d.message := by
  have hreason : IsShown d.reason.message := by
    cases d.reason with
    | unterminated => exact isShown_of_all (by decide)
    | fault f => exact f.isShown_message
  have hbrackets : IsShown (' ' :: '(' :: d.reason.message) :=
    (hreason.cons (by decide)).cons (by decide)
  exact (((isShown_of_all (by decide)).append (isShown_quoted d.text)).append hbrackets).append
    (isShown_of_all (by decide))

theorem Complaint.isShown_message {c : Complaint} (h : IsShown c.key) : IsShown c.message := by
  have hexpected : IsShown c.expected.message := by
    cases c.expected <;> exact isShown_of_all (by decide)
  have hraw : IsShown ('=' :: quoted c.raw) := (isShown_quoted c.raw).cons (by decide)
  have hbrackets : IsShown (' ' :: '(' :: c.expected.message) :=
    (hexpected.cons (by decide)).cons (by decide)
  -- The sign in front is looked up far down in the table of what cannot be printed.
  exact ((((isShown_of_all (by decide +kernel)).append h).append hraw).append hbrackets).append
    (isShown_of_all (by decide))

/-- What is not shown of the message is part of the type name. -/
theorem mem_unusableMessage (typeName : Text) (name : Option Text) :
    ∀ c ∈ unusableMessage typeName name, c ∈ typeName ∨ isPrintable c = true := by
  have hshown {text : Text} (h : IsShown text) : ∀ c ∈ text, c ∈ typeName ∨ isPrintable c = true :=
    fun c hc => .inr (h c hc)
  refine List.forall_mem_append.2 ⟨List.forall_mem_append.2 ⟨List.forall_mem_append.2
    ⟨hshown (isShown_of_all (by decide)), fun c hc => .inl hc⟩,
    hshown (isShown_of_all (by decide))⟩, hshown ?_⟩
  cases name with
  | none => exact nofun
  | some name =>
    dsimp only
    split
    · exact nofun
    · exact (isShown_of_all (by decide)).append (isShown_quoted name)

namespace Log

theorem Level.isShown_name (level : Level) : IsShown level.name := by
  unfold name
  split
  next n l hfind =>
    have hnames : ∀ binding ∈ names, binding.1.all isPrintable = true := by decide
    exact isShown_of_all (hnames _ (List.mem_of_find?_eq_some hfind))
  next => exact (isShown_of_all (by decide)).append (isShown_intText level)

/-! ## Records -/

/-- The report that the datum cannot be used for some variable. -/
def Record.Reports (r : Record) (d : Datum) : Prop :=
  ∃ name, d.coerce (some name) = .error (.unusable d.typeName (some name)) ∧
    r = Engine.failureRecord (unusableMessage d.typeName (some name))

/-- The text has no control character but for those in the type name of a given datum, and only if
this is the datum that the record reports. -/
def Record.Shows (r : Record) (given : List Datum) (text : Text) : Prop :=
  ∀ c ∈ text, IsControl c → ∃ d ∈ given, r.Reports d ∧ c ∈ d.typeName

/-- The record can be written, and shows its message. -/
def Record.IsReady (r : Record) (given : List Datum) : Prop :=
  ∃ message, r.filled = .ok message ∧ r.Shows given message

section Ready

variable {r : Record} {given : List Datum}

namespace Record

theorem shows_of_not_isControl {text : Text} (h : ∀ c ∈ text, ¬ IsControl c) :
    r.Shows given text :=
  fun c hc hcontrol => absurd hcontrol (h c hc)

theorem Shows.append {text more : Text} (h : r.Shows given text) (hmore : r.Shows given more) :
    r.Shows given (text ++ more) :=
  List.forall_mem_append.2 ⟨h, hmore⟩

theorem filled_of_arguments (h : r.arguments = []) : r.filled = .ok r.message := by
  rw [filled, h]
  rfl

theorem isReady_of_shows (harguments : r.arguments = []) (h : r.Shows given r.message) :
    r.IsReady given :=
  ⟨r.message, filled_of_arguments harguments, h⟩

theorem isReady_of_not_isControl (harguments : r.arguments = [])
    (h : ∀ c ∈ r.message, ¬ IsControl c) : r.IsReady given :=
  isReady_of_shows harguments (shows_of_not_isControl h)

namespace IsReady

theorem line (h : r.IsReady given) (micros : Int) :
    ∃ line, r.line .plain micros = .ok line ∧ r.Shows given line := by
  obtain ⟨message, hfilled, hmessage⟩ := h
  refine ⟨Level.name r.level ++ ':' :: ' ' :: message, ?_, ?_⟩
  · rw [Record.line, hfilled]
    rfl
  · have hmark : IsShown [':', ' '] := isShown_of_all (by decide)
    have hlevel : r.Shows given (Level.name r.level ++ [':', ' ']) :=
      shows_of_not_isControl (r.level.isShown_name.append hmark).not_isControl
    rw [show Level.name r.level ++ ':' :: ' ' :: message =
      Level.name r.level ++ [':', ' '] ++ message by simp]
    exact hlevel.append hmessage

/-- **What is written for a record is one line**, without a handler or with plain handlers. -/
theorem emit (h : r.IsReady given) {b : Base}
    (hb : ∀ handler ∈ b.handlers, handler.format = .plain) {micros : Int} {w : Written}
    (hw : w ∈ b.emit micros r) : ∃ line, w.text = line ++ ['\n'] ∧ r.Shows given line := by
  obtain ⟨line, hline, hshows⟩ := h.line micros
  obtain ⟨message, hfilled, hmessage⟩ := h
  unfold Base.emit at hw
  split at hw
  · cases hw
  split at hw
  · split at hw
    · rw [Record.bare, hfilled] at hw
      obtain rfl := List.mem_singleton.1 hw
      exact ⟨message, rfl, hmessage⟩
    · cases hw
  · obtain ⟨handler, hhandler, hwritten⟩ := List.mem_filterMap.1 hw
    rw [Base.handled, hb handler hhandler, hline] at hwritten
    obtain rfl := Option.some.inj hwritten
    exact ⟨line, rfl, hshows⟩

end IsReady

end Record

/-! ## Traces -/

theorem not_isControl_traceText (logger : Text) {message : Text}
    (h : ∀ c ∈ message, ¬ IsControl c) (key text : Text) :
    ∀ c ∈ (traceText logger message key text).message, ¬ IsControl c := by
  have hentry : IsShown (quoted key ++ [':', ' '] ++ quoted text) :=
    ((isShown_quoted key).append (isShown_of_all (by decide))).append (isShown_quoted text)
  have hwrap : MapKind.plain.wrap [(quoted key, quoted text)] =
      '\x7b' :: (quoted key ++ [':', ' '] ++ quoted text) ++ ['\x7d'] := by
    simp [MapKind.wrap, commaSeparated, List.intercalate]
  have hcontext : IsShown (MapKind.plain.wrap [(quoted key, quoted text)]) := by
    rw [hwrap]
    exact (hentry.cons (by decide)).append (isShown_of_all (by decide))
  have hmark : IsShown " | ctx=".toList := isShown_of_all (by decide)
  exact List.forall_mem_append.2
    ⟨List.forall_mem_append.2 ⟨h, hmark.not_isControl⟩, hcontext.not_isControl⟩

theorem isReady_traceText (logger : Text) {message : Text} (h : ∀ c ∈ message, ¬ IsControl c)
    (key text : Text) : (traceText logger message key text).IsReady given :=
  Record.isReady_of_not_isControl rfl (not_isControl_traceText logger h key text)

/-- A trace is written as if its placeholders had been filled from the start. -/
theorem isReady_of_trace {logger message key text : Text} (h : ∀ c ∈ message, ¬ IsControl c)
    (hr : trace logger message [(key, .text text)] = .ok r) : r.IsReady given := by
  have hkey : key ∉ ownNames := by
    intro hkey
    simp [trace, hkey] at hr
  have hfilled := filled_trace logger message key text hkey
  rw [hr] at hfilled
  exact ⟨_, hfilled,
    Record.shows_of_not_isControl (not_isControl_traceText logger h key text)⟩

end Ready

end Log

open Log

/-! ## Own records -/

/-- The data that the variables of a call are bound to. -/
def Engine.Call.given : Engine.Call → List Datum
  | parse .. => []
  | render _ _ vars =>
    match vars.toMapping with
    | .ok bindings => bindings.map Prod.snd
    | .error _ => []

/-- The records that reading, expansion, the engine and the settings make, and traces of one text
before they are filled. Only the engine is given data. -/
inductive Log.IsOwn : Record → List Datum → Prop
  | reading {settings : Settings} {text : Text} {r : Record} :
      r ∈ Template.parseRecords settings text → IsOwn r []
  | expansion {traced : Bool} {t : Template} {l : Lookup} {r : Record} :
      r ∈ t.expandRecords traced l → IsOwn r []
  | engine {e : Engine} {call : Engine.Call} {r : Record} :
      r ∈ call.records e → IsOwn r call.given
  | settings {env : Environment} {r : Record} : r ∈ Settings.records env → IsOwn r []
  | trace {logger message key text : Text} {r : Record} : (∀ c ∈ message, ¬ IsControl c) →
      Log.trace logger message [(key, .text text)] = .ok r → IsOwn r []

section Own

variable {r : Record} {given : List Datum}

theorem Template.isReady_of_mem_parseRecords {settings : Settings} {text : Text}
    (h : r ∈ parseRecords settings text) : r.IsReady given := by
  obtain ⟨d, -, rfl⟩ := List.mem_map.1 h
  exact Record.isReady_of_not_isControl rfl d.isShown_message.not_isControl

theorem Template.isReady_of_mem_expandRecords {traced : Bool} {t : Template} {l : Lookup}
    (h : r ∈ t.expandRecords traced l) : r.IsReady given := by
  cases traced with
  | false => cases h
  | true =>
    obtain ⟨skip, -, rfl⟩ := List.mem_map.1 h
    refine isReady_traceText _ (IsShown.not_isControl ?_) _ _
    cases skip <;> exact isShown_of_all rfl

theorem Settings.key_of_mem_consult {β : Type} {env : Environment} {key : Text}
    {read : Text → Except Expected β} {c : Complaint} (h : c ∈ (consult env key read).2) :
    c.key = key := by
  unfold consult at h
  split at h
  · cases h
  split at h
  · cases h
  · obtain rfl := List.mem_singleton.1 h
    rfl

theorem Settings.isReady_of_mem_records {env : Environment} (h : r ∈ records env) :
    r.IsReady given := by
  obtain ⟨c, hc, rfl⟩ := List.mem_map.1 h
  refine Record.isReady_of_not_isControl rfl (Complaint.isShown_message ?_).not_isControl
  have hkey : c.key ∈ [Naming.encodeLiteralsKey, Naming.parseCacheSizeKey,
      Naming.logDegradedKey] := by
    rw [complaints, List.mem_append, List.mem_append] at hc
    rcases hc with (hc | hc) | hc
    · rw [key_of_mem_consult hc]
      decide
    · rw [key_of_mem_consult hc]
      decide
    · rw [key_of_mem_consult hc]
      decide
  have hkeys : ∀ key ∈ [Naming.encodeLiteralsKey, Naming.parseCacheSizeKey,
      Naming.logDegradedKey], key.all isPrintable = true := by decide
  exact isShown_of_all (hkeys _ hkey)

namespace Engine

theorem Reads.isReady {e : Engine} {traced : Bool} {text : Text} {o : Outcome Parsed}
    (h : Reads e traced text o) : ∀ r ∈ o.records, r.IsReady given := by
  have hread : ∀ r ∈ (if traced then [missRecord text] else []) ++
      Template.parseRecords e.settings text, r.IsReady given := by
    intro r hr
    rcases List.mem_append.1 hr with hmiss | hnote
    · cases traced with
      | false => cases hmiss
      | true =>
        obtain rfl := List.mem_singleton.1 hmiss
        have hmessage : IsShown "parse cache miss".toList := isShown_of_all (by decide)
        exact isReady_traceText _ hmessage.not_isControl _ text
    · exact Template.isReady_of_mem_parseRecords hnote
  cases h with
  | recalled _ => exact nofun
  | read _ _ => exact hread
  | refused _ _ => exact hread

theorem isReady_failureRecord {d : Datum} {name : Text} (hd : d ∈ given)
    (h : d.coerce (some name) = .error (.unusable d.typeName (some name))) :
    (failureRecord (unusableMessage d.typeName (some name))).IsReady given := by
  have hbefore : IsShown "template rendering failed: ".toList := isShown_of_all (by decide)
  refine Record.isReady_of_shows rfl fun c hc hcontrol => ⟨d, hd, ⟨name, h, rfl⟩, ?_⟩
  rcases List.mem_append.1 hc with hc | hc
  · exact absurd hcontrol (hbefore.not_isControl c hc)
  · refine (mem_unusableMessage _ _ c hc).resolve_right fun hprintable => ?_
    rw [not_isPrintable_of_control hcontrol] at hprintable
    cases hprintable

theorem isReady_of_mem_rescue {text : Text} {t : Template} {bindings : Assignment Datum}
    (h : r ∈ (rescue text (t.expand (.mapping bindings))).1) :
    r.IsReady (bindings.map Prod.snd) := by
  cases hexpand : t.expand (.mapping bindings) with
  | ok result =>
    rw [hexpand] at h
    cases h
  | error failure =>
    rw [hexpand] at h
    obtain ⟨name, d, hstop, hcoerce⟩ := Template.expand_mapping_eq_error_iff.1 hexpand
    have hd : d ∈ bindings.map Prod.snd := List.mem_map_of_mem (Assignment.mem_of_get? hstop.bound)
    rcases Datum.coerce_eq_error_iff.1 hcoerce with ⟨rfl, -⟩ | ⟨rfl, -⟩
    · cases h
    · obtain rfl := List.mem_singleton.1 h
      exact isReady_failureRecord hd hcoerce

theorem isReady_of_mem_records {e : Engine} {call : Call} (h : r ∈ call.records e) :
    r.IsReady call.given := by
  cases call with
  | parse traced text => exact (reads_parse e traced text).isReady r h
  | render traced text vars =>
    have hparse {given : List Datum} : r ∈ (e.parse traced text).records → r.IsReady given :=
      (reads_parse e traced text).isReady r
    simp only [Call.records, render] at h
    split at h
    · exact hparse h
    cases hvars : vars.toMapping with
    | error failure =>
      rw [hvars] at h
      exact hparse h
    | ok bindings =>
      rw [hvars] at h
      simp only [List.mem_append] at h
      rcases h with (hread | hskip) | hreport
      · exact hparse hread
      · exact Template.isReady_of_mem_expandRecords hskip
      · rw [Call.given, hvars]
        exact isReady_of_mem_rescue hreport

end Engine

/-- **Own records are ready.** -/
theorem Log.IsOwn.isReady (h : IsOwn r given) : r.IsReady given := by
  cases h with
  | reading h => exact Template.isReady_of_mem_parseRecords h
  | expansion h => exact Template.isReady_of_mem_expandRecords h
  | engine h => exact Engine.isReady_of_mem_records h
  | settings h => exact Settings.isReady_of_mem_records h
  | trace hmessage h => exact isReady_of_trace hmessage h

end Own

end LinkTemplate
