import LinkTemplate.Log.Line
import LinkTemplate.Proofs.JsonText
import LinkTemplate.Proofs.Times
import LinkTemplate.Proofs.Traverse

/-!
# Records as JSON

A record in the JSON format is one line, and reading the line gives the record back: its logger,
its message with the placeholders filled, and the texts of its context. Nothing that these texts
hold can break the line, end its string or turn into another character.

**Contexts of texts** (`IsTextContext`). A mapping of texts to texts, or no context. A view of a
mapping is none of these, since the format does not write it.

**Fields** (`Record.fields`). What an object holds that was written for a record. The context is
among them if it has entries.

A record is written if its time is in the calendar and its message can be filled.

Main results: `ofEntries_textEntries`, `isMember_members`, `line_json_eq_ok_iff`,
`json_line_read_back`.
-/

namespace LinkTemplate.Log

open Json

/-! ## Contexts of texts -/

def textEntries (entries : List (Text × Text)) : List (Datum × Datum) :=
  entries.map fun (key, text) => (.text key, .text text)

/-- The context holds these texts. -/
inductive IsTextContext : Datum → List (Text × Text) → Prop
  | absent : IsTextContext .null []
  | entries {kind : MapKind} (hkind : kind ≠ .readOnly) (entries : List (Text × Text)) :
      IsTextContext (.map kind (textEntries entries)) entries

theorem IsTextContext.contextEntries_eq {context : Datum} {entries : List (Text × Text)}
    (h : IsTextContext context entries) : contextEntries context = textEntries entries := by
  cases h with
  | absent => rfl
  | @entries kind hkind =>
    cases kind with
    | readOnly => exact absurd rfl hkind
    | plain | ordered | derived _ _ => rfl

theorem Json.ofEntries_textEntries (entries : List (Text × Text)) :
    ofEntries (textEntries entries) =
      .ok (entries.map fun (key, text) => (string key, string text)) := by
  induction entries with
  | nil => simp [textEntries, ofEntries]
  | cons entry entries ih =>
    rw [textEntries, List.map_cons, ofEntries, keyText, ofDatum]
    change (do return (string entry.1, string entry.2) :: (← ofEntries (textEntries entries))) = _
    rw [ih]
    rfl

/-! ## Fields -/

/-- The fields of an object that is written for a record. -/
def Record.fields (r : Record) (version stamp message : Text) (entries : List (Text × Text)) :
    List (Text × Json.Value) :=
  [("ts".toList, .string stamp), ("level".toList, .string (Level.name r.level)),
    ("module".toList, .string r.logger), ("msg".toList, .string message),
    ("version".toList, .string version)] ++
    if entries.isEmpty then []
    else [("ctx".toList, .object (entries.map fun (key, text) => (key, .string text)))]

theorem isMember_members (r : Record) (version stamp message : Text)
    (entries : List (Text × Text)) :
    List.Forall₂ IsMember
      (r.members version stamp message (entries.map fun (key, text) => (string key, string text)))
      (r.fields version stamp message entries) := by
  have hentries : List.Forall₂ IsMember
      (entries.map fun (key, text) => (string key, string text))
      (entries.map fun (key, text) => (key, .string text)) := by
    rw [List.forall₂_map_left_iff, List.forall₂_map_right_iff, List.forall₂_same]
    exact fun entry _ => isMember_string entry.1 entry.2
  refine List.rel_append ?_ ?_
  · exact .cons (isMember_string _ _) (.cons (isMember_string _ _) (.cons (isMember_string _ _)
      (.cons (isMember_string _ _) (.cons (isMember_string _ _) .nil))))
  · rw [List.isEmpty_map]
    split
    · exact .nil
    · exact .cons (isMember_object _ hentries) .nil

/-! ## Lines -/

section

variable {r : Record} {entries : List (Text × Text)} (h : IsTextContext r.context entries)
  {version : Text} {micros : Int}
include h

/-- A record with a context of texts is written when its time and its message are. -/
theorem line_json_eq_ok_iff {line : Text} :
    r.line (.json version) micros = .ok line ↔
      ∃ stamp, Timestamp.ofMicros micros = .ok stamp ∧ ∃ message, r.filled = .ok message ∧
        Json.object (r.members version stamp message
          (entries.map fun (key, text) => (string key, string text))) = line := by
  simp only [Record.line, bind_eq_ok_iff, h.contextEntries_eq, ofEntries_textEntries]
  simp [pure, Except.pure]

theorem exists_line_json_iff :
    (∃ line, r.line (.json version) micros = .ok line) ↔
      (∃ stamp, Timestamp.ofMicros micros = .ok stamp) ∧ ∃ message, r.filled = .ok message := by
  constructor
  · rintro ⟨line, hline⟩
    obtain ⟨stamp, hstamp, message, hmessage, -⟩ := (line_json_eq_ok_iff h).1 hline
    exact ⟨⟨stamp, hstamp⟩, message, hmessage⟩
  · rintro ⟨⟨stamp, hstamp⟩, message, hmessage⟩
    exact ⟨_, (line_json_eq_ok_iff h).2 ⟨stamp, hstamp, message, hmessage, rfl⟩⟩

end

/-- **A record that is written as JSON is read back from its line.** The line has no control
character. It is one object, whose fields are the time, the level, the logger, the message and the
version, and the context if that has entries. The record is written if its time and its message can
be: a time of the years 2 to 9998 can, and a message without arguments is its own text. -/
theorem json_line_read_back {r : Record} {entries : List (Text × Text)}
    (h : IsTextContext r.context entries) (version : Text) (micros : Int) :
    (∀ line, r.line (.json version) micros = .ok line →
      (∀ c ∈ line, 0x20 ≤ c.toNat) ∧
        ∃ stamp message, Timestamp.ofMicros micros = .ok stamp ∧ r.filled = .ok message ∧
          Json.read? line = some (.object (r.fields version stamp message entries))) ∧
      ((∃ line, r.line (.json version) micros = .ok line) ↔
        (∃ stamp, Timestamp.ofMicros micros = .ok stamp) ∧ ∃ message, r.filled = .ok message) ∧
      (Timestamp.IsInCalendar micros → ∃ stamp, Timestamp.ofMicros micros = .ok stamp) ∧
      (r.arguments = [] → r.filled = .ok r.message) := by
  refine ⟨fun line hline => ?_, exists_line_json_iff h, Timestamp.exists_stamp,
    fun harguments => ?_⟩
  · obtain ⟨stamp, hstamp, message, hmessage, rfl⟩ := (line_json_eq_ok_iff h).1 hline
    have hmembers := isMember_members r version stamp message entries
    exact ⟨isUnbroken_object hmembers, stamp, message, hstamp, hmessage,
      read?_of_isReadAs (isReadAs_object hmembers)⟩
  · rw [Record.filled, harguments]
    rfl

/-- A message that is made to end its string and the object, to break the line and to be read as an
escape. It comes back as it is, and so does a context with a quote in a key. -/
theorem json_line_read_back_forged :
    let message : Text := "\", \\u0041 %d \x00\n\"ts\": 😀\x7d\n\x7b".toList
    let entries : List (Text × Text) := [("\"k\t".toList, "\\".toList), ([], "é\x1f".toList)]
    let r : Record := ⟨"urikit.\"x\\".toList, Level.warning, message, [],
      .map .plain (textEntries entries)⟩
    IsTextContext r.context entries ∧
      ∃ line stamp, r.line (.json "1".toList) 1700000000123456 = .ok line ∧ '\n' ∉ line ∧
        Json.read? line = some (.object
          [("ts".toList, .string stamp), ("level".toList, .string "WARNING".toList),
            ("module".toList, .string "urikit.\"x\\".toList), ("msg".toList, .string message),
            ("version".toList, .string "1".toList),
            ("ctx".toList, .object [("\"k\t".toList, .string "\\".toList),
              ([], .string "é\x1f".toList)])]) := by
  intro message entries r
  have hcontext : IsTextContext r.context entries := .entries (by decide) entries
  obtain ⟨hread, hwritten, hstamp, hmessage⟩ :=
    json_line_read_back hcontext "1".toList 1700000000123456
  have hfilled := hmessage rfl
  obtain ⟨line, hline⟩ := hwritten.2 ⟨hstamp ⟨by decide, by decide⟩, message, hfilled⟩
  obtain ⟨hunbroken, stamp, filled, -, hsame, hvalue⟩ := hread line hline
  obtain rfl : message = filled := Except.ok.inj (hfilled.symm.trans hsame)
  exact ⟨hcontext, line, stamp, hline, fun hbreak => absurd (hunbroken _ hbreak) (by decide),
    hvalue⟩

end LinkTemplate.Log
