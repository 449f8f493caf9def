import LinkTemplate.Log.Factory
import Mathlib.Data.List.Induction
import Mathlib.Logic.Function.Basic

/-!
# Setting up the base logger

The base logger is one for the whole program, and several parties set it up: callers that ask for
it, and factories, each of them once, when it is first asked for a logger. What remains of a run of
such calls is the handler of the first set-up and the level of the last.

**Set-ups** (`Call.setUp?`). Whether a call sets the base logger up can be told from the calls
before it: a request to a factory does so if there was none to the same factory. A factory keeps a
mark instead, and the mark says the same: `factory_run`.

**The handler** (`Base.IsFixed`). Once there is a handler, it is the only one and records do not
reach the logger above. No further set-up changes this.

Main results: `base_after`, `base_run_of_quiet`, `isFixed_run`, `base_of_run`.
-/

namespace LinkTemplate.Log

/-! ## The handler -/

def Setup.handler (s : Setup) : Handler := ⟨s.stream, s.format⟩

namespace Base

/-- The only handler of the base logger, with no logger above that hears of records. -/
structure IsFixed (b : Base) (h : Handler) : Prop where
  handlers : b.handlers = [h]
  propagate : b.propagate = false

theorem level_setup (b : Base) (s : Setup) : (b.setup s).level = s.level := by
  unfold setup
  split <;> rfl

theorem isFixed_setup {b : Base} (h : b.handlers = []) (s : Setup) :
    (b.setup s).IsFixed s.handler := by
  rw [setup, if_pos (List.isEmpty_iff.2 h)]
  exact ⟨rfl, rfl⟩

theorem IsFixed.setup {b : Base} {h : Handler} (hb : b.IsFixed h) (s : Setup) :
    (b.setup s).IsFixed h := by
  rw [Base.setup, if_neg (by simp [hb.handlers])]
  exact ⟨hb.handlers, hb.propagate⟩

end Base

/-! ## Calls -/

variable {ι : Type} [DecidableEq ι]

/-- The base logger and the factories. -/
structure Loggers (ι : Type) where
  base : Base
  factory : ι → Factory

namespace Loggers

/-- A call that has to do with the base logger. -/
inductive Call (ι : Type) where
  /-- The base logger is asked for, set up in this way. -/
  | setup (wanted : Setup)
  /-- A factory is asked for a logger. -/
  | request (i : ι) (name : Text)
  /-- A logger is asked for by its name alone. -/
  | logger (name : Text)

namespace Call

def after (l : Loggers ι) : Call ι → Loggers ι
  | setup wanted => { l with base := l.base.setup wanted }
  | request i name =>
    let (_, f, base) := (l.factory i).getLogger l.base name
    { base, factory := Function.update l.factory i f }
  | logger _ => l

/-- The call asks this factory. -/
def asks (i : ι) : Call ι → Bool
  | request j _ => i = j
  | _ => false

/-- The set-up that a call brings about behind other calls. -/
def setUp? (factory : ι → Factory) (past : List (Call ι)) : Call ι → Option Setup
  | setup wanted => some wanted
  | request i _ =>
    if (factory i).configured || past.any (asks i) then none else some (factory i).wanted
  | logger _ => none

end Call

def run (l : Loggers ι) (calls : List (Call ι)) : Loggers ι := calls.foldl Call.after l

theorem run_append (l : Loggers ι) (past more : List (Call ι)) :
    l.run (past ++ more) = (l.run past).run more :=
  List.foldl_append

theorem run_concat (l : Loggers ι) (past : List (Call ι)) (call : Call ι) :
    l.run (past ++ [call]) = call.after (l.run past) :=
  l.run_append past [call]

theorem factory_run (l : Loggers ι) (past : List (Call ι)) (i : ι) :
    (l.run past).factory i =
      { l.factory i with configured := (l.factory i).configured || past.any (Call.asks i) } := by
  induction past using List.reverseRecOn with
  | nil => simp [run]
  | append_singleton past call ih =>
    rw [run_concat, List.any_append]
    cases call with
    | setup wanted => simpa [Call.after, Call.asks] using ih
    | logger name => simpa [Call.after, Call.asks] using ih
    | request j name =>
      by_cases hj : i = j
      · subst hj
        simp only [Call.after, Factory.getLogger, ih, Function.update_self]
        split <;> simp_all [Call.asks]
      · simpa [Call.after, Call.asks, hj] using ih

/-- **A call sets the base logger up** as the calls before it tell, or leaves it alone. -/
theorem base_after (l : Loggers ι) (past : List (Call ι)) (call : Call ι) :
    (l.run (past ++ [call])).base =
      (call.setUp? l.factory past).elim (l.run past).base (l.run past).base.setup := by
  rw [run_concat]
  cases call with
  | setup wanted => rfl
  | logger name => rfl
  | request i name =>
    simp only [Call.after, Call.setUp?, Factory.getLogger, factory_run]
    split <;> rfl

/-! ## Runs -/

/-- None of the calls sets the base logger up behind the others. -/
def IsQuiet (factory : ι → Factory) (past : List (Call ι)) : List (Call ι) → Prop
  | [] => True
  | call :: later => call.setUp? factory past = none ∧ IsQuiet factory (past ++ [call]) later

theorem base_run_of_quiet {l : Loggers ι} {past calls : List (Call ι)}
    (h : IsQuiet l.factory past calls) : (l.run (past ++ calls)).base = (l.run past).base := by
  induction calls generalizing past with
  | nil => rw [List.append_nil]
  | cons call later ih =>
    obtain ⟨hcall, hlater⟩ := h
    rw [List.append_cons, ih hlater, base_after, hcall, Option.elim_none]

/-- A handler is there for good. -/
theorem isFixed_run {l : Loggers ι} {past : List (Call ι)} {h : Handler}
    (hfixed : (l.run past).base.IsFixed h) (calls : List (Call ι)) :
    (l.run (past ++ calls)).base.IsFixed h := by
  induction calls using List.reverseRecOn with
  | nil => rwa [List.append_nil]
  | append_singleton calls call ih =>
    rw [← List.append_assoc, base_after]
    cases call.setUp? l.factory (past ++ calls) with
    | none => exact ih
    | some s => exact ih.setup s

/-- A run has no handler and has left the base logger as it was, or there is one for good. -/
theorem base_run_cases {l : Loggers ι} (hl : l.base.handlers = []) (calls : List (Call ι)) :
    (l.run calls).base.handlers = [] ∨ ∃ h, (l.run calls).base.IsFixed h := by
  induction calls using List.reverseRecOn with
  | nil => exact .inl hl
  | append_singleton calls call ih =>
    rw [base_after]
    cases call.setUp? l.factory calls with
    | none => exact ih
    | some s =>
      rcases ih with hnone | ⟨h, hfixed⟩
      · exact .inr ⟨s.handler, Base.isFixed_setup hnone s⟩
      · exact .inr ⟨h, hfixed.setup s⟩

/-- **The first set-up decides the handler, the last one the level.** However set-ups, requests to
factories and plain loggers follow each other, there is at most one handler. As long as nothing sets
the base logger up, it is as it was. Behind a call that does, there is one handler, the same from
there on, and records do not reach the logger above. It is the handler of the first such call, and
the level is that of the last. -/
theorem base_of_run (l : Loggers ι) (hl : l.base.handlers = []) (calls : List (Call ι)) :
    (l.run calls).base.handlers.length ≤ 1 ∧
      (IsQuiet l.factory [] calls → (l.run calls).base = l.base) ∧
      ∀ past call later s, calls = past ++ call :: later → call.setUp? l.factory past = some s →
        (∃ h, (l.run (past ++ [call])).base.IsFixed h ∧ (l.run calls).base.IsFixed h ∧
          (IsQuiet l.factory [] past → h = s.handler)) ∧
        (IsQuiet l.factory (past ++ [call]) later → (l.run calls).base.level = s.level) := by
  refine ⟨?_, fun hquiet => (base_run_of_quiet hquiet :), ?_⟩
  · rcases base_run_cases hl calls with hnone | ⟨h, hfixed⟩
    · simp [hnone]
    · simp [hfixed.handlers]
  rintro past call later s rfl hcall
  have hbase : (l.run (past ++ [call])).base = (l.run past).base.setup s := by
    rw [base_after, hcall, Option.elim_some]
  rw [List.append_cons past call later]
  constructor
  · rcases base_run_cases hl past with hnone | ⟨h, hfixed⟩
    · have hfirst : (l.run (past ++ [call])).base.IsFixed s.handler := by
        rw [hbase]
        exact Base.isFixed_setup hnone s
      exact ⟨s.handler, hfirst, isFixed_run hfirst later, fun _ => rfl⟩
    · have hsame : (l.run (past ++ [call])).base.IsFixed h := by
        rw [hbase]
        exact hfixed.setup s
      refine ⟨h, hsame, isFixed_run hsame later, fun hquiet => ?_⟩
      have hstart : (l.run past).base = l.base := (base_run_of_quiet hquiet :)
      rw [hstart] at hfixed
      exact absurd (hl.symm.trans hfixed.handlers) (List.cons_ne_nil h []).symm
  · intro hquiet
    rw [base_run_of_quiet hquiet, hbase, Base.level_setup]

/-- Two factories and a set-up take turns. The first request to the one that writes JSON attaches
the handler, the second request to it is quiet, and the level is that of the other factory. -/
theorem base_of_run_two_factories :
    let l : Loggers Bool := ⟨{ level := 30 }, fun i =>
      if i then { wanted := { json := true, level := 10, stream := "file".toList } }
      else { wanted := { level := 40 } }⟩
    let before : List (Call Bool) := [.logger "parsing".toList, .request true "engine".toList]
    let past : List (Call Bool) := before ++ [.setup { level := 50 }]
    let later : List (Call Bool) := [.request true [], .logger []]
    l.base.handlers = [] ∧
      (l.run (past ++ .request false [] :: later)).base =
        ⟨40, [⟨"file".toList, .json Naming.version⟩], false⟩ := by
  intro l before past later
  have hl : l.base.handlers = [] := rfl
  obtain ⟨-, -, hsetUp⟩ := base_of_run l hl (past ++ .request false [] :: later)
  obtain ⟨⟨h, -, hfixed, hfirst⟩, -⟩ := hsetUp [.logger "parsing".toList]
    (.request true "engine".toList) (.setup { level := 50 } :: .request false [] :: later) _ rfl rfl
  obtain ⟨-, hlevel⟩ := hsetUp past (.request false []) later _ rfl rfl
  have hlast := hlevel ⟨rfl, rfl, trivial⟩
  obtain rfl := hfirst ⟨rfl, trivial⟩
  refine ⟨hl, ?_⟩
  cases hbase : (l.run (past ++ .request false [] :: later)).base
  rw [hbase] at hfixed hlast
  cases hlast
  cases hfixed.handlers
  cases hfixed.propagate
  rfl

end Loggers

end LinkTemplate.Log
