import LinkTemplate.Engine
import LinkTemplate.Proofs.ReadNumbers

/-!
# Levels that an environment asks for

The level of the base logger is asked for by number or by name, in one variable of the environment.
A text that is neither asks for `info`, and so does an absent one.

**Reading** (`MeansLevel`). The blanks around a text do not count. Decimal digits of any script are
a number, without sign and underscores. A name may be in any case. There is a third outcome, which
nobody asks for: what is made of digits is taken for a number before it is read, but a digit mark
has no place in a number, and digits beyond the limit are not read at all. Such a text is refused
rather than passed over.

**Start-up.** A factory fails for a refused level and for nothing else. An engine is made after its
factory and fails along with it, or else for a cache beyond its bound.

Main results: `readLevel_eq_iff`, `start_of_environment`.
-/

namespace LinkTemplate

open Text Decimal

namespace Log

/-! ## Names of levels -/

theorem Level.ofName?_eq (name : Text) : Level.ofName? name = Assignment.get? name Level.names := by
  rw [Level.ofName?]
  induction Level.names with
  | nil => rfl
  | cons binding rest ih =>
    obtain ⟨n, level⟩ := binding
    by_cases hn : n = name
    · simp [Assignment.get?, hn]
    · simpa [Assignment.get?, hn] using ih

theorem Level.ofName?_eq_some_iff {name : Text} {level : Level} :
    Level.ofName? name = some level ↔ (name, level) ∈ Level.names := by
  rw [Level.ofName?_eq, Assignment.get?_eq_some_iff (by decide)]

theorem Level.ofName?_eq_none_iff {name : Text} :
    Level.ofName? name = none ↔ ∀ level, (name, level) ∉ Level.names := by
  rw [Option.eq_none_iff_forall_ne_some]
  exact forall_congr' fun level => not_congr Level.ofName?_eq_some_iff

theorem capital_of_isDigitLike {c : Char} (h : isDigitLike c = true) : capital c = [c] := by
  have hletters : ∀ n ∈ List.range' 'a'.toNat 26, isDigitLike (Char.ofNat n) = false := by decide
  unfold capital
  split
  next hletter =>
    have hlow : 'a'.toNat ≤ c.toNat := hletter.1
    have hhigh : c.toNat ≤ 'z'.toNat := hletter.2
    have hc := hletters c.toNat (List.mem_range'_1.2 ⟨hlow, Nat.lt_succ_of_le hhigh⟩)
    rw [Char.ofNat_toNat, h] at hc
    cases hc
  next =>
    split
    all_goals first | rfl | (revert h; decide)

theorem capitals_of_isDigitLike {word : Text} (h : ∀ c ∈ word, isDigitLike c = true) :
    capitals word = word := by
  induction word with
  | nil => rfl
  | cons c rest ih =>
    obtain ⟨hc, hrest⟩ := List.forall_mem_cons.1 h
    rw [capitals, List.flatMap_cons, capital_of_isDigitLike hc, ← capitals, ih hrest]
    rfl

theorem not_all_iff {word : Text} :
    ¬ word.all isDigitLike = true ↔ ∃ c ∈ word, isDigitLike c = false := by
  simp

theorem exists_of_mem_names {word : Text} {level : Level}
    (h : (capitals word, level) ∈ Level.names) : ∃ c ∈ word, isDigitLike c = false := by
  have hnames : ∀ binding ∈ Level.names, ∃ c ∈ binding.1, isDigitLike c = false := by
    simp only [← not_all_iff]
    decide
  rw [← not_all_iff]
  intro hall
  obtain ⟨c, hmem, hc⟩ := hnames _ h
  have hdigits := List.all_eq_true.1 hall
  rw [capitals_of_isDigitLike hdigits] at hmem
  rw [hdigits c hmem] at hc
  cases hc

/-! ## Readings -/

/-- What a text without outer blanks means as a level, or that it is refused. -/
inductive MeansLevel (word : Text) : Except Failure Level → Prop
  | number {digits : List Nat} : word ≠ [] → Spells word digits → digits.length ≤ maxDigits →
      MeansLevel word (.ok (Nat.ofDigits 10 digits.reverse : Nat))
  | refused : (∀ c ∈ word, isDigitLike c = true) →
      ((∃ c ∈ word, decimalValue? c = none) ∨ maxDigits < word.length) →
      MeansLevel word (.error .notANumber)
  | name {level : Level} : (capitals word, level) ∈ Level.names → MeansLevel word (.ok level)
  | other : (∀ level, (capitals word, level) ∉ Level.names) →
      (word = [] ∨ ∃ c ∈ word, isDigitLike c = false) → MeansLevel word (.ok Level.info)

section Digits

variable {word : Text} (hne : word ≠ []) (hall : ∀ c ∈ word, isDigitLike c = true)
include hne hall

/-- What is taken for a number is not read if it has a mark in it or is too long. -/
theorem readNat?_eq_none_iff_of_digits : readNat? word = none ↔
    (∃ c ∈ word, decimalValue? c = none) ∨ maxDigits < word.length := by
  by_cases hmark : ∃ c ∈ word, decimalValue? c = none
  · obtain ⟨c, hmem, hc⟩ := hmark
    refine iff_of_true (Option.eq_none_iff_forall_ne_some.2 fun n hread => ?_) (.inl ⟨c, hmem, hc⟩)
    -- Only an underscore could stand there, and it is not taken for a digit.
    have hdigit := hall c hmem
    rw [eq_underscore_of_readNat? hread hmem hc] at hdigit
    exact absurd hdigit (by decide)
  · obtain ⟨digits, hspells⟩ := exists_spells fun c hmem hc => hmark ⟨c, hmem, hc⟩
    rw [readNat?_of_spells hspells hne, or_iff_right hmark]
    by_cases hlength : word.length ≤ maxDigits
    · simp [hlength, Nat.not_lt.2 hlength]
    · simp [hlength, Nat.lt_of_not_le hlength]

theorem readNat?_eq_some_iff_of_digits {n : Nat} : readNat? word = some n ↔
    ∃ digits, Spells word digits ∧ digits.length ≤ maxDigits ∧
      n = Nat.ofDigits 10 digits.reverse := by
  constructor
  · intro hread
    have hdecimal : ∀ c ∈ word, decimalValue? c ≠ none := by
      intro c hmem hc
      rw [(readNat?_eq_none_iff_of_digits hne hall).2 (.inl ⟨c, hmem, hc⟩)] at hread
      cases hread
    obtain ⟨digits, hspells⟩ := exists_spells hdecimal
    rw [readNat?_of_spells hspells hne] at hread
    obtain ⟨hlength, hn⟩ := Option.ite_none_right_eq_some.1 hread
    exact ⟨digits, hspells, hspells.length_eq ▸ hlength, (Option.some.inj hn).symm⟩
  · rintro ⟨digits, hspells, hlength, rfl⟩
    rw [readNat?_of_spells hspells hne, if_pos (hspells.length_eq ▸ hlength)]

end Digits

theorem all_of_spells {word : Text} {digits : List Nat} (h : Spells word digits) :
    ∀ c ∈ word, isDigitLike c = true := by
  induction h with
  | nil => exact nofun
  | cons hc _ ih => exact List.forall_mem_cons.2 ⟨by simp [isDigitLike, hc], ih⟩

theorem readLevel_of_exists {raw : Text} (h : ∃ c ∈ trim raw, isDigitLike c = false) :
    Factory.readLevel raw = .ok ((Level.ofName? (capitals (trim raw))).getD Level.info) := by
  have hempty : ¬ (trim raw).isEmpty = true := by
    obtain ⟨c, hmem, -⟩ := h
    intro hempty
    rw [List.isEmpty_iff.1 hempty] at hmem
    cases hmem
  exact (if_neg hempty).trans (if_neg (not_all_iff.2 h))

theorem readLevel_of_digits {raw : Text} (hne : trim raw ≠ [])
    (hall : ∀ c ∈ trim raw, isDigitLike c = true) :
    Factory.readLevel raw = (readNat? (trim raw)).elim (.error .notANumber) fun n => .ok n := by
  have hempty : ¬ (trim raw).isEmpty = true := mt List.isEmpty_iff.1 hne
  refine (if_neg hempty).trans ((if_pos (List.all_eq_true.2 hall)).trans ?_)
  cases readNat? (trim raw) <;> rfl

/-- **A level is read** as it is meant. -/
theorem readLevel_eq_iff {raw : Text} {r : Except Failure Level} :
    Factory.readLevel raw = r ↔ MeansLevel (trim raw) r := by
  constructor
  · rintro rfl
    by_cases hmark : ∃ c ∈ trim raw, isDigitLike c = false
    · rw [readLevel_of_exists hmark]
      cases hname : Level.ofName? (capitals (trim raw)) with
      | some level => exact .name (Level.ofName?_eq_some_iff.1 hname)
      | none => exact .other (Level.ofName?_eq_none_iff.1 hname) (.inr hmark)
    · have hall : ∀ c ∈ trim raw, isDigitLike c = true := by simpa using hmark
      by_cases hne : trim raw = []
      · rw [Factory.readLevel, hne]
        exact .other (by simp [capitals, Level.names]) (.inl rfl)
      rw [readLevel_of_digits hne hall]
      cases hread : readNat? (trim raw) with
      | none => exact .refused hall ((readNat?_eq_none_iff_of_digits hne hall).1 hread)
      | some n =>
        obtain ⟨digits, hspells, hlength, rfl⟩ :=
          (readNat?_eq_some_iff_of_digits hne hall).1 hread
        exact .number hne hspells hlength
  · intro h
    cases h with
    | number hne hspells hlength =>
      have hall := all_of_spells hspells
      rw [readLevel_of_digits hne hall,
        (readNat?_eq_some_iff_of_digits hne hall).2 ⟨_, hspells, hlength, rfl⟩]
      rfl
    | refused hall hrefused =>
      have hne : trim raw ≠ [] := by
        intro hempty
        rw [hempty] at hrefused
        simp at hrefused
      rw [readLevel_of_digits hne hall, (readNat?_eq_none_iff_of_digits hne hall).2 hrefused]
      rfl
    | name hmem =>
      rw [readLevel_of_exists (exists_of_mem_names hmem), Level.ofName?_eq_some_iff.2 hmem]
      rfl
    | other hnames hword =>
      rcases hword with hempty | hmark
      · rw [Factory.readLevel, hempty]
        rfl
      · rw [readLevel_of_exists hmark, Level.ofName?_eq_none_iff.2 hnames]
        rfl

/-- A name without its dot and with a separator behind it. -/
example : Factory.readLevel "crıtical\x1f".toList = .ok Level.critical := by decide

end Log

/-! ## Start-up -/

open Log Naming Assignment

/-- The level that an environment asks for, or that its text is refused. -/
def AsksLevel (env : Environment) : Except Failure Level → Prop :=
  MeansLevel (trim ((get? logLevelKey env).getD []))

theorem Log.Factory.ofEnvironment_eq (env : Environment) (stream : Text) :
    Factory.ofEnvironment env stream =
      (Factory.readLevel ((get? logLevelKey env).getD [])).map fun level =>
        { wanted := { json := get? logJsonKey env = some ['1'], level, stream } } := by
  unfold Factory.ofEnvironment
  cases Factory.readLevel ((get? logLevelKey env).getD []) <;> rfl

theorem Engine.ofEnvironment_result (env : Environment) (b : Base) (micros : Int) :
    (ofEnvironment env b micros).2.2 =
      (Factory.readLevel ((get? logLevelKey env).getD [])).bind fun _ =>
        create (Settings.ofEnvironment env) := by
  rw [ofEnvironment, Factory.ofEnvironment_eq]
  cases Factory.readLevel ((get? logLevelKey env).getD []) <;> rfl

theorem Cache.isPossible_iff {size : Option Int} :
    isPossible size = true ↔ ∀ n ∈ size, n < sizeBound := by
  cases size <;> simp [isPossible]

theorem Engine.create_eq_ok_iff {settings : Settings} {e : Engine} :
    create settings = .ok e ↔
      (∀ size ∈ settings.parseCacheSize, size < Cache.sizeBound) ∧ e = ofSettings settings := by
  rw [create, ← Cache.isPossible_iff]
  by_cases h : Cache.isPossible settings.parseCacheSize = true
  · simp [h, eq_comm]
  · simp [h]

theorem Engine.create_eq_error_iff {settings : Settings} {failure : Failure} :
    create settings = .error failure ↔
      failure = .outOfRange ∧ ∃ size ∈ settings.parseCacheSize, Cache.sizeBound ≤ size := by
  have hbound : (∃ size ∈ settings.parseCacheSize, Cache.sizeBound ≤ size) ↔
      ¬ Cache.isPossible settings.parseCacheSize = true := by
    rw [Cache.isPossible_iff]
    push Not
    rfl
  rw [create, hbound]
  by_cases h : Cache.isPossible settings.parseCacheSize = true
  · simp [h]
  · simp [h, eq_comm]

/-- **What can go wrong at the start.** A factory fails exactly if its level is refused. An engine
fails along with it, and otherwise exactly if its cache is too large. -/
theorem start_of_environment (env : Environment) :
    (∀ stream factory, Factory.ofEnvironment env stream = .ok factory ↔
      ∃ level, AsksLevel env (.ok level) ∧
        factory = { wanted := { json := get? logJsonKey env = some ['1'], level, stream } }) ∧
    (∀ stream failure, Factory.ofEnvironment env stream = .error failure ↔
      AsksLevel env (.error failure)) ∧
    (∀ b micros e, (Engine.ofEnvironment env b micros).2.2 = .ok e ↔
      (∃ level, AsksLevel env (.ok level)) ∧
        (∀ size ∈ (Settings.ofEnvironment env).parseCacheSize, size < Cache.sizeBound) ∧
        e = Engine.ofSettings (Settings.ofEnvironment env)) ∧
    ∀ b micros failure, (Engine.ofEnvironment env b micros).2.2 = .error failure ↔
      AsksLevel env (.error failure) ∨
        (∃ level, AsksLevel env (.ok level)) ∧ failure = .outOfRange ∧
          ∃ size ∈ (Settings.ofEnvironment env).parseCacheSize, Cache.sizeBound ≤ size := by
  simp only [AsksLevel, ← readLevel_eq_iff, Factory.ofEnvironment_eq,
    Engine.ofEnvironment_result, ← Engine.create_eq_ok_iff, ← Engine.create_eq_error_iff]
  cases Factory.readLevel ((get? logLevelKey env).getD []) with
  | error failure => simp [Except.map, Except.bind]
  | ok level => simp [Except.map, Except.bind, eq_comm]

/-- A superscript is taken for a number and cannot be read as one, so nothing starts. -/
theorem start_fails_on_superscript :
    Factory.ofEnvironment [(logLevelKey, ['²'])] "stderr".toList = .error .notANumber ∧
      (Engine.ofEnvironment [(logLevelKey, ['²'])] {} 0).2.2 = .error .notANumber := by
  refine ⟨by decide, ?_⟩
  rfl

end LinkTemplate
