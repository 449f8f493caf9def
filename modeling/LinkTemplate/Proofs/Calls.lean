import LinkTemplate.Engine
import LinkTemplate.Proofs.RoundTrip
import Mathlib.Data.List.Induction

/-!
# Calls on an engine

An engine remembers templates, and every call changes what it remembers. A caller cannot tell: what
a call answers depends on the settings of the engine and on nothing that came before.

**A call** asks for a template or for a text. It begins by reading its text, which goes one of
three ways (`Reads`): the template is recalled, it is read and kept, or it cannot be read. The rest
of a call leaves the engine alone.

**Soundness** (`IsSound`). Each entry of the cache is what reading its own text gives. Every way of
reading preserves this, whichever entries are moved to the front or dropped, so it holds after every
run. What is recalled is then what would be read now.

Main results: `reads_parse`, `isSound_run`, `IsSound.answer_eq`, `IsSound.result_render_map`.
-/

namespace LinkTemplate.Engine

/-! ## Calls -/

/-- A call on an engine. Tracing is on or off for each call. -/
inductive Call where
  | parse (traced : Bool) (text : Text)
  | render (traced : Bool) (text : Text) (vars : Variables)

/-- What a caller is answered. Which of several calls read a template does not count. -/
inductive Answer where
  | template (result : Except Failure Template)
  | text (result : Except Failure Text)

namespace Call

def traced : Call → Bool
  | parse traced _ => traced
  | render traced _ _ => traced

/-- The text that has to be read. -/
def text : Call → Text
  | parse _ text => text
  | render _ text _ => text

def after (e : Engine) : Call → Engine
  | parse traced text => (e.parse traced text).engine
  | render traced text vars => (e.render traced text vars).engine

def records (e : Engine) : Call → List Log.Record
  | parse traced text => (e.parse traced text).records
  | render traced text vars => (e.render traced text vars).records

def answer (e : Engine) : Call → Answer
  | parse traced text => .template ((e.parse traced text).result.map Parsed.template)
  | render traced text vars => .text (e.render traced text vars).result

end Call

/-- The engine after calls, one after the other. -/
def run (e : Engine) (calls : List Call) : Engine := calls.foldl Call.after e

/-! ## Reading -/

/-- What becomes of an engine that is to give the template of a text. -/
inductive Reads (e : Engine) (traced : Bool) (text : Text) : Outcome Parsed → Prop
  | recalled {parsed : Parsed} : Assignment.get? text e.cache.entries = some parsed →
      Reads e traced text
        ⟨{ e with cache := { e.cache with
            entries := (text, parsed) :: Assignment.unset text e.cache.entries
            hits := e.cache.hits + 1 } },
          [], .ok parsed⟩
  | read {template : Template} : Assignment.get? text e.cache.entries = none →
      Template.parse e.settings text = .ok template →
      Reads e traced text
        ⟨{ e with cache := e.cache.countMiss.store text ⟨e.cache.misses + 1, template⟩ },
          (if traced then [missRecord text] else []) ++ Template.parseRecords e.settings text,
          .ok ⟨e.cache.misses + 1, template⟩⟩
  | refused {failure : Failure} : Assignment.get? text e.cache.entries = none →
      Template.parse e.settings text = .error failure →
      Reads e traced text
        ⟨{ e with cache := e.cache.countMiss },
          (if traced then [missRecord text] else []) ++ Template.parseRecords e.settings text,
          .error failure⟩

theorem reads_parse (e : Engine) (traced : Bool) (text : Text) :
    Reads e traced text (e.parse traced text) := by
  unfold parse Cache.hit?
  cases hget : Assignment.get? text e.cache.entries with
  | some parsed => exact .recalled hget
  | none =>
    cases hparse : Template.parse e.settings text with
    | ok template => exact .read hget hparse
    | error failure => exact .refused hget hparse

/-- Only reading changes an engine. -/
theorem after_eq (e : Engine) (call : Call) :
    call.after e = (e.parse call.traced call.text).engine := by
  cases call with
  | parse traced text => rfl
  | render traced text vars =>
    simp only [Call.after, Call.traced, Call.text, render]
    split
    · rfl
    · split <;> rfl

theorem run_concat (e : Engine) (past : List Call) (call : Call) :
    e.run (past ++ [call]) = call.after (e.run past) :=
  List.foldl_concat ..

/-! ## Soundness -/

/-- Each entry of the cache is what its text is read as. -/
def IsSound (e : Engine) : Prop :=
  ∀ entry ∈ e.cache.entries, Template.parse e.settings entry.1 = .ok entry.2.template

namespace Reads

variable {e : Engine} {traced : Bool} {text : Text} {o : Outcome Parsed}

theorem settings_eq (h : Reads e traced text o) : o.engine.settings = e.settings := by
  cases h <;> rfl

theorem isSound (h : Reads e traced text o) (he : e.IsSound) : o.engine.IsSound := by
  cases h with
  | recalled hget =>
    intro entry hentry
    rcases List.mem_cons.1 hentry with rfl | hentry
    · exact he _ (Assignment.mem_of_get? hget)
    · rw [Assignment.unset_eq_filter] at hentry
      exact he entry (List.mem_filter.1 hentry).1
  | read _ hparse =>
    intro entry hentry
    rcases List.mem_cons.1 ((Cache.trimmed_sublist e.cache.capacity _).subset hentry) with
      rfl | hentry
    · exact hparse
    · exact he entry hentry
  | refused _ _ => exact he

theorem map_result (h : Reads e traced text o) (he : e.IsSound) :
    o.result.map Parsed.template = Template.parse e.settings text := by
  cases h with
  | recalled hget => exact (he _ (Assignment.mem_of_get? hget)).symm
  | read _ hparse => exact hparse.symm
  | refused _ hparse => exact hparse.symm

end Reads

theorem settings_run (e : Engine) (past : List Call) : (e.run past).settings = e.settings := by
  induction past using List.reverseRecOn with
  | nil => rfl
  | append_singleton past call ih =>
    rw [run_concat, after_eq, (reads_parse (e.run past) call.traced call.text).settings_eq, ih]

theorem isSound_run {e : Engine} (he : e.IsSound) (past : List Call) : (e.run past).IsSound := by
  induction past using List.reverseRecOn with
  | nil => exact he
  | append_singleton past call ih =>
    rw [run_concat, after_eq]
    exact (reads_parse (e.run past) call.traced call.text).isSound ih

theorem isSound_ofSettings (settings : Settings) : (ofSettings settings).IsSound :=
  fun _ hentry => absurd hentry List.not_mem_nil

/-! ## Rendering -/

theorem result_render (e : Engine) (traced : Bool) (text : Text) (vars : Variables) :
    (e.render traced text vars).result =
      ((e.parse traced text).result.map Parsed.template >>= fun t =>
        vars.toMapping >>= fun entries => (rescue text (t.expand (.mapping entries))).2) := by
  simp only [render]
  cases hresult : (e.parse traced text).result with
  | error failure => rfl
  | ok parsed =>
    cases vars.toMapping with
    | error failure => rfl
    | ok entries => rfl

/-- Variables that cannot be used are answered with the template, all other failures as they are. -/
theorem rescue_result (text : Text) (expansion : Except Failure Text) :
    (rescue text expansion).2 = match expansion with
      | .ok result => .ok result
      | .error (.unusable _ _) => .ok text
      | .error failure => .error failure := by
  cases expansion with
  | ok result => rfl
  | error failure => cases failure <;> rfl

theorem expandWith_map (t : Template) (kind : MapKind) (entries : List (Datum × Datum)) :
    t.expandWith (.data (.map kind entries)) [] =
      t.expand (.mapping (Lookup.ofEntries entries)) := rfl

namespace IsSound

variable {e : Engine}

theorem map_result_parse (he : e.IsSound) (traced : Bool) (text : Text) :
    (e.parse traced text).result.map Parsed.template = Template.parse e.settings text :=
  (reads_parse e traced text).map_result he

theorem result_render_map (he : e.IsSound) (traced : Bool) (text : Text) (kind : MapKind)
    (entries : List (Datum × Datum)) :
    (e.render traced text (.data (.map kind entries))).result =
      match Template.parse e.settings text >>= fun t =>
        t.expandWith (.data (.map kind entries)) [] with
      | .ok result => .ok result
      | .error (.unusable _ _) => .ok text
      | .error failure => .error failure := by
  rw [result_render, he.map_result_parse]
  cases ht : Template.parse e.settings text with
  | ok t =>
    have htext : (.data (.map kind entries) : Variables).toMapping =
        .ok (Lookup.ofEntries entries) := rfl
    change ((Variables.data (.map kind entries)).toMapping >>= fun entries =>
      (rescue text (t.expand (.mapping entries))).2) = _
    rw [htext]
    exact rescue_result text (t.expand (.mapping (Lookup.ofEntries entries)))
  | error failure =>
    -- No text is refused because of a variable.
    obtain rfl := Template.parse_eq_error ht
    rfl

theorem answer_eq {e' : Engine} (he : e.IsSound) (he' : e'.IsSound)
    (hsettings : e.settings = e'.settings) (call : Call) : call.answer e = call.answer e' := by
  cases call with
  | parse traced text =>
    rw [Call.answer, Call.answer, he.map_result_parse, he'.map_result_parse, hsettings]
  | render traced text vars =>
    rw [Call.answer, Call.answer, result_render, result_render, he.map_result_parse,
      he'.map_result_parse, hsettings]

end IsSound

/-- **Whatever came before, a call is answered as by a new engine.** An engine gives the template
that the text is read as, and it fails where reading does. Given a mapping it renders what
expanding this template gives, the text itself if a variable cannot be used, and fails with any
other failure of reading or expanding. With the settings that hold if none are given, a text that
expands at all is the same text from the engine and from the items under a lookup of the mapping. -/
theorem answer_of_run (settings : Settings) (past : List Call) :
    let e := (ofSettings settings).run past
    (∀ call : Call, call.answer e = call.answer (ofSettings settings)) ∧
      (∀ traced text,
        (e.parse traced text).result.map Parsed.template = Template.parse settings text) ∧
      (∀ traced text kind entries,
        (e.render traced text (.data (.map kind entries))).result =
          match Template.parse settings text >>= fun t =>
            t.expandWith (.data (.map kind entries)) [] with
          | .ok result => .ok result
          | .error (.unusable _ _) => .ok text
          | .error failure => .error failure) ∧
      (settings = {} → ∀ traced text kind entries result,
        (Template.parse {} text >>= fun t => t.expandWith (.data (.map kind entries)) []) =
            .ok result →
          (e.render traced text (.data (.map kind entries))).result = .ok result ∧
          (Template.readItems text >>= fun items =>
            expandItems false items (.mapping (Lookup.ofEntries entries))) = .ok result) := by
  intro e
  have hsettings : e.settings = settings := settings_run (ofSettings settings) past
  have hsound : e.IsSound := isSound_run (isSound_ofSettings settings) past
  have hrender (traced : Bool) (text : Text) (kind : MapKind) (entries : List (Datum × Datum)) :=
    hsound.result_render_map traced text kind entries
  rw [hsettings] at hrender
  refine ⟨hsound.answer_eq (isSound_ofSettings settings) hsettings, fun traced text => ?_, hrender,
    ?_⟩
  · rw [hsound.map_result_parse, hsettings]
  · rintro rfl traced text kind entries result hexpand
    refine ⟨by rw [hrender, hexpand], ?_⟩
    obtain ⟨t, ht, hresult⟩ := bind_eq_ok_iff.1 hexpand
    obtain ⟨hread, hsettings⟩ := Template.parse_eq_ok_iff.1 ht
    rw [expandWith_map, Template.expand, hsettings] at hresult
    exact bind_eq_ok_iff.2 ⟨t.items, hread, hresult⟩

/-- After a call that failed in the middle of an expansion, the same text is recalled and expands
for other variables. -/
theorem answer_of_run_recalled :
    let text : Text := "\x7by\x7d\x7bx\x7d".toList
    let object : Datum :=
      .foreign { typeName := "object".toList, written := .ok "<object>".toList }
    let bad : Datum := .map .plain [(.text ['y'], .bool true), (.text ['x'], object)]
    let e := (ofSettings {}).run [.parse false ['a'], .render true text (.data bad)]
    let entries := [(.text ['y'], .bool true), (.text ['x'], .null)]
    (Template.parse {} text >>= fun t => t.expandWith (.data (.map .plain entries)) []) =
        .ok "true".toList ∧
      (e.render false text (.data (.map .plain entries))).result = .ok "true".toList ∧
      (Template.readItems text >>= fun items =>
        expandItems false items (.mapping (Lookup.ofEntries entries))) = .ok "true".toList ∧
      (e.render false text (.data bad)).result = .ok text := by
  intro text object bad e entries
  have hparse : Template.parse {} text =
      .ok ⟨[.expression ⟨none, [⟨['y'], none⟩]⟩, .expression ⟨none, [⟨['x'], none⟩]⟩], {}⟩ := by
    change Template.parse {} "\x7by\x7d\x7bx\x7d".toList = _
    cbv
  obtain ⟨-, -, hrender, hexpand⟩ :=
    answer_of_run {} [.parse false ['a'], .render true text (.data bad)]
  have hexpansion : (Template.parse {} text >>= fun t =>
      t.expandWith (.data (.map .plain entries)) []) = .ok "true".toList := by
    rw [hparse]
    decide
  obtain ⟨hresult, hitems⟩ := hexpand rfl false text .plain entries _ hexpansion
  refine ⟨hexpansion, hresult, hitems, ?_⟩
  rw [hrender, hparse]
  rfl

end LinkTemplate.Engine
