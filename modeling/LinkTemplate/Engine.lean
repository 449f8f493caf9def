import LinkTemplate.Cache
import LinkTemplate.Log.Factory

/-!
# The template engine

An engine renders template texts. It reads each text at most once while it remembers it, in a
cache of limited size, and it answers bindings that cannot be used with the template as it
stands, after reporting them.

A call tells what becomes of the engine, the records that it leaves in order, and its result.
-/

namespace LinkTemplate

open Log

/-- A template that an engine has read, with the number of the miss that made it read it. Two
calls got the same template if and only if these numbers agree. -/
structure Parsed where
  serial : Nat
  template : Template
  deriving DecidableEq, Inhabited

/-- An engine. -/
structure Engine where
  settings : Settings
  cache : Cache Parsed
  deriving Inhabited

/-- What a call on an engine comes to. -/
structure Engine.Outcome (β : Type) where
  engine : Engine
  records : List Record
  result : Except Failure β

namespace Engine

/-- An engine that has not read anything. -/
def ofSettings (settings : Settings) : Engine where
  settings := settings
  cache := Cache.ofSize settings.parseCacheSize

/-- An engine for settings, unless they ask for a cache that is too large. -/
def create (settings : Settings) : Except Failure Engine :=
  if Cache.isPossible settings.parseCacheSize then .ok (ofSettings settings)
  else .error .outOfRange

/-- The trace of a text that has to be read. -/
def missRecord (text : Text) : Record :=
  traceText Naming.templates "parse cache miss".toList "template".toList text

/-- The report of bindings that cannot be used. -/
def failureRecord (message : Text) : Record where
  logger := Naming.templates
  level := Level.error
  message := "template rendering failed: ".toList ++ message

/-- The template of a text, read now or remembered. -/
def parse (e : Engine) (traced : Bool) (text : Text) : Outcome Parsed :=
  match e.cache.hit? text with
  | some (parsed, cache) => ⟨{ e with cache }, [], .ok parsed⟩
  | none =>
    let cache := e.cache.countMiss
    let records :=
      (if traced then [missRecord text] else []) ++ Template.parseRecords e.settings text
    match Template.parse e.settings text with
    | .error failure => ⟨{ e with cache }, records, .error failure⟩
    | .ok template =>
      let parsed : Parsed := ⟨cache.misses, template⟩
      ⟨{ e with cache := cache.store text parsed }, records, .ok parsed⟩

/-- What expansion gives, or the template text if a binding cannot be used. -/
def rescue (text : Text) : Except Failure Text → List Record × Except Failure Text
  | .ok result => ([], .ok result)
  | .error failure =>
    match failure.message? with
    | some message => ([failureRecord message], .ok text)
    | none => ([], .error failure)

/-- A template text with the variables put in. -/
def render (e : Engine) (traced : Bool) (text : Text) (vars : Variables) : Outcome Text :=
  let read := e.parse traced text
  match read.result with
  | .error failure => ⟨read.engine, read.records, .error failure⟩
  | .ok parsed =>
    match vars.toMapping with
    | .error failure => ⟨read.engine, read.records, .error failure⟩
    | .ok entries =>
      let l := Lookup.mapping entries
      let (reports, result) := rescue text (parsed.template.expand l)
      ⟨read.engine, read.records ++ parsed.template.expandRecords traced l ++ reports, result⟩

/-! ## Engines that an environment asks for -/

/-- An engine and its logger from an environment: first the settings, whose complaints go to the
base logger as it is, then the logger, whose factory sets the base logger up, and the cache last. -/
def ofEnvironment (env : Environment) (b : Base) (micros : Int) :
    Base × List Written × Except Failure Engine :=
  let complaints := b.emitAll micros (Settings.records env)
  match Factory.ofEnvironment env "stderr".toList with
  | .error failure => (b, complaints, .error failure)
  | .ok factory =>
    let (_, _, b) := factory.getLogger b "templates".toList
    (b, complaints, create (Settings.ofEnvironment env))

end Engine

end LinkTemplate
