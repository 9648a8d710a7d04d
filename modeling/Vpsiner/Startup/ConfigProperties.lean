import Vpsiner.Startup.Config

/-! Which environments are accepted, and that the settings page tells the whole configuration. -/

set_option autoImplicit false

namespace Vpsiner.Startup

open Lib Text IntegerText

/-! ## Rules -/

/-- A variable that is checked, and the texts it may hold. -/
structure Rule where
  name : String
  allows : String → Bool

variable {α β : Type} {env : Env} {key : String}

def Rule.Obeyed (env : Env) (rule : Rule) : Prop :=
  ∀ value ∈ env rule.name, rule.allows value

/-- The fault names the variable. -/
def Rule.Refuses (env : Env) (rule : Rule) (fault : Fault) : Prop :=
  ∃ value ∈ env rule.name, rule.allows value = false ∧
    ∃ reason, fault = .panic (rule.name ++ " must be " ++ reason)

/-- The rules are checked in their order, and the first that is broken is the one that is named.
What passes them all is as it should be. -/
structure Checks (env : Env) (rules : List Rule) (post : α → Prop) (result : AppResult α) :
    Prop where
  accepted : ∀ value, result = .ok value → (∀ rule ∈ rules, rule.Obeyed env) ∧ post value
  refused : ∀ fault, result = .error fault → ∃ before rule after,
    rules = before ++ rule :: after ∧ (∀ earlier ∈ before, earlier.Obeyed env) ∧
      rule.Refuses env fault

theorem checks_pure {post : α → Prop} {value : α} (holds : post value) :
    Checks env [] post (pure value : AppResult α) where
  accepted _ same := ⟨nofun, Except.ok.inj same ▸ holds⟩
  refused _ impossible := nomatch impossible

theorem Checks.bind {rule : Rule} {rules : List Rule} {holds : α → Prop} {post : β → Prop}
    {read : AppResult α} {next : α → AppResult β} (head : Checks env [rule] holds read)
    (tail : ∀ value, holds value → Checks env rules post (next value)) :
    Checks env (rule :: rules) post (read >>= next) := by
  cases read with
  | ok value =>
      obtain ⟨obeys, held⟩ := head.accepted value rfl
      have obeyed := obeys rule (by simp)
      have later := tail value held
      constructor
      · intro result accepted
        obtain ⟨others, outcome⟩ := later.accepted result accepted
        exact ⟨List.forall_mem_cons.mpr ⟨obeyed, others⟩, outcome⟩
      · intro fault refused
        obtain ⟨before, broken, after, parts, earlier, refuses⟩ := later.refused fault refused
        exact ⟨rule :: before, broken, after, by simp [parts],
          List.forall_mem_cons.mpr ⟨obeyed, earlier⟩, refuses⟩
  | error fault =>
      constructor
      · intro result accepted
        cases accepted
      · intro other refused
        cases refused
        obtain ⟨before, broken, after, parts, -, refuses⟩ := head.refused fault rfl
        rcases before with _ | ⟨first, before⟩
        · obtain ⟨rfl, rfl⟩ := List.cons.inj parts
          exact ⟨[], rule, rules, rfl, nofun, refuses⟩
        · simp at parts

theorem Checks.map {rules : List Rule} {holds : α → Prop} {post : β → Prop} {read : AppResult α}
    (checks : Checks env rules holds read) (next : α → β)
    (each : ∀ value, holds value → post (next value)) :
    Checks env rules post (read >>= fun value => pure (next value)) := by
  constructor
  · intro result accepted
    cases read with
    | ok value =>
        obtain ⟨obeyed, held⟩ := checks.accepted value rfl
        cases accepted
        exact ⟨obeyed, each value held⟩
    | error fault => cases accepted
  · intro fault refused
    cases read with
    | ok value => cases refused
    | error other =>
        cases refused
        exact checks.refused fault rfl

/-! ## Reading one variable -/

/-- What is read is the default or what the text means. A text without a meaning ends the
program with the variable's name. -/
structure Reads (env : Env) (key : String) (default : α) (meaning : String → Option α)
    (read : AppResult α) : Prop where
  unset : env key = none → read = .ok default
  known : ∀ {text value}, env key = some text → meaning text = some value → read = .ok value
  unknown : ∀ {text}, env key = some text → meaning text = none →
    ∃ reason, read = .error (.panic (key ++ " must be " ++ reason))

variable {default : α} {meaning : String → Option α} {read : AppResult α}

theorem reads_parseOr (parse : String → Except String α) :
    Reads env key default (fun text => (parse text).toOption) (parseOr parse env key default) := by
  constructor
  · intro unset
    simp [parseOr, unset]
  · intro text value set known
    cases parsed : parse text with
    | ok found =>
        rw [parsed] at known
        simp [parseOr, set, parsed, Option.some.inj known]
    | error err =>
        rw [parsed] at known
        cases known
  · intro text set unknown
    cases parsed : parse text with
    | ok found =>
        rw [parsed] at unknown
        cases unknown
    | error err =>
        refine ⟨s!"a valid value, got '{text}': {err}", ?_⟩
        simp [parseOr, set, parsed, panicked, toString, ← String.toList_inj]

/-- A test after the reading takes the meaning from the texts that fail it. -/
theorem Reads.tested (reads : Reads env key default meaning read) {test : α → Bool}
    (reason : α → String) (passes : test default = true) {tested : α → AppResult α}
    (passed : ∀ value, test value = true → tested value = .ok value)
    (failed : ∀ value, test value = false →
      tested value = .error (.panic (key ++ " must be " ++ reason value))) :
    Reads env key default (fun text => (meaning text).filter test) (read >>= tested) := by
  constructor
  · intro unset
    rw [reads.unset unset, ok_bind, passed default passes]
  · intro text value set known
    obtain ⟨found, pass⟩ := Option.filter_eq_some_iff.mp known
    rw [reads.known set found, ok_bind, passed value pass]
  · intro text set unknown
    cases found : meaning text with
    | none =>
        obtain ⟨reason, refused⟩ := reads.unknown set found
        exact ⟨reason, by rw [refused]; rfl⟩
    | some value =>
        rw [found, Option.filter_some] at unknown
        have fails : test value = false := by
          cases outcome : test value with
          | false => rfl
          | true => simp [outcome] at unknown
        exact ⟨reason value, by rw [reads.known set found, ok_bind, failed value fails]⟩

theorem Reads.checks (reads : Reads env key default meaning read) {holds : α → Prop}
    (byDefault : holds default) (byText : ∀ text value, meaning text = some value → holds value) :
    Checks env [⟨key, fun text => (meaning text).isSome⟩] holds read := by
  cases set : env key with
  | none =>
      rw [reads.unset set]
      constructor
      · intro value same
        have unbound : ∀ rule ∈ [Rule.mk key fun text => (meaning text).isSome],
            rule.Obeyed env := by
          simp [Rule.Obeyed, set]
        exact ⟨unbound, Except.ok.inj same ▸ byDefault⟩
      · intro fault impossible
        cases impossible
  | some text =>
      cases found : meaning text with
      | some value =>
          rw [reads.known set found]
          constructor
          · intro other same
            have obeyed : ∀ rule ∈ [Rule.mk key fun text => (meaning text).isSome],
                rule.Obeyed env := by
              simp [Rule.Obeyed, set, found]
            exact ⟨obeyed, Except.ok.inj same ▸ byText text value found⟩
          · intro fault impossible
            cases impossible
      | none =>
          obtain ⟨reason, refused⟩ := reads.unknown set found
          rw [refused]
          constructor
          · intro value impossible
            cases impossible
          · intro fault same
            cases same
            exact ⟨[], _, [], rfl, nofun, text, set, by simp [found], reason, rfl⟩

/-! ## Numbers -/

/-- The number between two bounds that a text is. -/
def numberIn (low high : Nat) (text : String) : Option Nat :=
  (parseUnsigned high text.toList).filter (low ≤ ·)

def Within (low high value : Nat) : Prop := low ≤ value ∧ value ≤ high

instance (low high value : Nat) : Decidable (Within low high value) :=
  inferInstanceAs (Decidable (_ ∧ _))

theorem within_of_numberIn {low high value : Nat} {text : String}
    (found : numberIn low high text = some value) : Within low high value := by
  obtain ⟨parsed, above⟩ := Option.filter_eq_some_iff.mp found
  exact ⟨of_decide_eq_true above, of_decide_eq_true (Option.filter_eq_some_iff.mp parsed).2⟩

theorem parseNumber_toOption (most : Nat) (text : String) :
    (parseNumber most text).toOption = numberIn 0 most text := by
  have meaning : numberIn 0 most text = parseUnsigned most text.toList := by
    rw [numberIn]
    cases parseUnsigned most text.toList <;> simp
  rw [meaning, parseNumber]
  cases read : readUnsigned most text.toList with
  | ok value => exact ((readUnsigned_eq_ok_iff _).mp read).symm
  | error err =>
      cases parsed : parseUnsigned most text.toList with
      | none => rfl
      | some value => cases read.symm.trans ((readUnsigned_eq_ok_iff _).mpr parsed)

theorem numberIn_filter_le {low most high : Nat} (narrower : high ≤ most) (text : String) :
    (numberIn low most text).filter (· ≤ high) = numberIn low high text := by
  simp only [numberIn, parseUnsigned, Option.filter_filter]
  congr 1
  funext value
  by_cases small : value ≤ high
  · simp [small, Nat.le_trans small narrower]
  · simp [small]

/-! ## The variables -/

theorem reads_number {most default : Nat} :
    Reads env key default (numberIn 0 most) (parseOr (parseNumber most) env key default) := by
  have meaning : numberIn 0 most = fun text => (parseNumber most text).toOption :=
    funext fun text => (parseNumber_toOption most text).symm
  rw [meaning]
  exact reads_parseOr (parseNumber most)

theorem reads_positive {most default : Nat} (positive : 0 < default) :
    Reads env key default (numberIn 1 most) (parsePositiveOr most env key default) := by
  have meaning : numberIn 1 most = fun text => (numberIn 0 most text).filter (0 < ·) := by
    funext text
    simp only [numberIn, Option.filter_filter]
    congr 1
  rw [meaning]
  apply reads_number.tested (fun value => s!"a positive integer, got: {value}")
    (decide_eq_true positive)
  · intro value pass
    rw [if_pos (of_decide_eq_true pass)]
    rfl
  · intro value fails
    rw [if_neg (of_decide_eq_false fails)]
    simp [panicked, toString, ← String.toList_inj]

theorem reads_bounded {most default : Nat} (positive : 0 < default) (small : default ≤ most)
    (narrower : most ≤ u64Max) :
    Reads env key default (numberIn 1 most) (parseBoundedU64Or env key default most) := by
  have meaning : numberIn 1 most = fun text => (numberIn 1 u64Max text).filter (· ≤ most) :=
    funext fun text => (numberIn_filter_le narrower text).symm
  rw [meaning]
  apply (reads_positive positive).tested (fun value => s!"at most {most}, got: {value}")
    (decide_eq_true small)
  · intro value pass
    rw [if_pos (of_decide_eq_true pass)]
    rfl
  · intro value fails
    rw [if_neg (of_decide_eq_false fails)]
    simp [panicked, toString, ← String.toList_inj]

theorem reads_percent {default : Nat} (small : default ≤ 100) :
    Reads env key default (numberIn 0 100) (parsePercentOr env key default) := by
  have meaning : numberIn 0 100 = fun text => (numberIn 0 u8Max text).filter (· ≤ 100) :=
    funext fun text => (numberIn_filter_le (by decide) text).symm
  rw [meaning]
  apply reads_number.tested (fun value => s!"between 0 and 100, got: {value}")
    (decide_eq_true small)
  · intro value pass
    rw [if_pos (of_decide_eq_true pass)]
    rfl
  · intro value fails
    rw [if_neg (of_decide_eq_false fails)]
    simp [panicked, toString, ← String.toList_inj]

/-! ## Accepted environments -/

def numberRule (name : String) (low high : Nat) : Rule :=
  ⟨name, fun text => (numberIn low high text).isSome⟩

theorem Reads.checksNumber {low high default : Nat} {read : AppResult Nat}
    (reads : Reads env key default (numberIn low high) read) (within : Within low high default) :
    Checks env [numberRule key low high] (Within low high) read :=
  reads.checks within fun _ _ => within_of_numberIn

theorem checks_number {most default : Nat} (within : Within 0 most default) :
    Checks env [numberRule key 0 most] (Within 0 most)
      (parseOr (parseNumber most) env key default) :=
  reads_number.checksNumber within

theorem checks_positive {most default : Nat} (within : Within 1 most default) :
    Checks env [numberRule key 1 most] (Within 1 most) (parsePositiveOr most env key default) :=
  (reads_positive within.1).checksNumber within

theorem checks_bounded {most default : Nat} (within : Within 1 most default)
    (narrower : most ≤ u64Max) :
    Checks env [numberRule key 1 most] (Within 1 most) (parseBoundedU64Or env key default most) :=
  (reads_bounded within.1 within.2 narrower).checksNumber within

theorem checks_percent {default : Nat} (within : Within 0 100 default) :
    Checks env [numberRule key 0 100] (Within 0 100) (parsePercentOr env key default) :=
  (reads_percent within.2).checksNumber within

/-- Whole seconds, as many as the bounds allow. -/
def SecsWithin (low high : Nat) (duration : Duration) : Prop :=
  Within low high (asSecs duration) ∧ duration = fromSecs (asSecs duration)

theorem secsWithin_fromSecs {low high secs : Nat} (within : Within low high secs) :
    SecsWithin low high (fromSecs secs) := by
  have same : asSecs (fromSecs secs) = secs := Nat.mul_div_cancel secs (by decide)
  rw [SecsWithin, same]
  exact ⟨within, rfl⟩

/-- The configuration is within the bounds that the reading checks. -/
structure Config.Valid (config : Config) : Prop where
  dockerTimeoutSecs : Within 1 u64Max config.dockerTimeoutSecs
  dockerRequestTimeoutSecs : Within 1 u64Max config.dockerRequestTimeoutSecs
  port : Within 1 u16Max config.port
  retentionWeeks : Within 0 u32Max config.retentionWeeks
  collectInterval : SecsWithin 1 maxCollectIntervalSecs config.collectInterval
  logFlushDebounce : Within 0 u64Max config.logFlushDebounce
  logFlushKeepAlive : SecsWithin 1 u64Max config.logFlushKeepAlive
  logMaxBufferedLines : Within 1 usizeMax config.logMaxBufferedLines
  dockerProbeInterval : SecsWithin 1 u64Max config.dockerProbeInterval
  dockerRetryDelay : SecsWithin 1 u64Max config.dockerRetryDelay
  dockerRequestConcurrency : Within 1 usizeMax config.dockerRequestConcurrency
  dockerDebounce : Within 0 u64Max config.dockerDebounce
  logChannelCapacity : Within 1 usizeMax config.logChannelCapacity
  samplesChannelCapacity : Within 1 usizeMax config.samplesChannelCapacity
  dockerEventsChannelCapacity : Within 1 usizeMax config.dockerEventsChannelCapacity
  sqliteCacheSizeKb : Within 1 u64Max config.sqliteCacheSizeKb
  sqliteBusyTimeout : Within 1 u64Max config.sqliteBusyTimeout
  sqliteKeepAlive : SecsWithin 1 u64Max config.sqliteKeepAlive
  downsampleMaxGapPct : Within 0 100 config.downsampleMaxGapPct

/-- The checks on the variables, in the order in which these are read. -/
def rules : List Rule := [
  numberRule envDockerTimeoutSecs 1 u64Max,
  numberRule envDockerRequestTimeoutSecs 1 u64Max,
  numberRule envPort 1 u16Max,
  numberRule envRetentionWeeks 0 u32Max,
  numberRule envCollectIntervalSecs 1 maxCollectIntervalSecs,
  numberRule envLogFlushDebounceMs 0 u64Max,
  numberRule envLogFlushKeepAliveSecs 1 u64Max,
  numberRule envLogMaxBufferedLines 1 usizeMax,
  ⟨envDockerControls, fun text => (DockerControlsMode.parse text).toOption.isSome⟩,
  numberRule envDockerProbeIntervalSecs 1 u64Max,
  numberRule envDockerRetrySecs 1 u64Max,
  numberRule envDockerRequestConcurrency 1 usizeMax,
  numberRule envDockerDebounceMs 0 u64Max,
  numberRule envLogChannelCapacity 1 usizeMax,
  numberRule envSamplesChannelCapacity 1 usizeMax,
  numberRule envDockerEventsChannelCapacity 1 usizeMax,
  numberRule envSqliteCacheSizeKb 1 u64Max,
  numberRule envSqliteBusyTimeoutMs 1 u64Max,
  numberRule envSqliteKeepAliveSecs 1 u64Max,
  numberRule envDownsampleMaxGapPct 0 100]

theorem fromEnv_checks (env : Env) : Checks env rules
    (fun config => config.Valid ∧ config.staticDir = env envStaticDir) (Config.fromEnv env) := by
  unfold rules Config.fromEnv
  refine .bind (checks_positive (by decide)) fun _ dockerTimeoutSecs => ?_
  refine .bind (checks_positive (by decide)) fun _ dockerRequestTimeoutSecs => ?_
  refine .bind (checks_positive (by decide)) fun _ port => ?_
  refine .bind (checks_number (by decide)) fun _ retentionWeeks => ?_
  refine .bind (checks_bounded (by decide) (by decide)) fun _ collectInterval => ?_
  refine .bind (checks_number (by decide)) fun _ logFlushDebounce => ?_
  refine .bind (checks_positive (by decide)) fun _ logFlushKeepAlive => ?_
  refine .bind (checks_positive (by decide)) fun _ logMaxBufferedLines => ?_
  refine .bind ((reads_parseOr DockerControlsMode.parse).checks trivial fun _ _ _ => trivial)
    fun _ (_ : True) => ?_
  refine .bind (checks_positive (by decide)) fun _ dockerProbeInterval => ?_
  refine .bind (checks_positive (by decide)) fun _ dockerRetryDelay => ?_
  refine .bind (checks_positive (by decide)) fun _ dockerRequestConcurrency => ?_
  refine .bind (checks_number (by decide)) fun _ dockerDebounce => ?_
  refine .bind (checks_positive (by decide)) fun _ logChannelCapacity => ?_
  refine .bind (checks_positive (by decide)) fun _ samplesChannelCapacity => ?_
  refine .bind (checks_positive (by decide)) fun _ dockerEventsChannelCapacity => ?_
  refine .bind (checks_positive (by decide)) fun _ sqliteCacheSizeKb => ?_
  refine .bind (checks_positive (by decide)) fun _ sqliteBusyTimeout => ?_
  refine .bind (checks_positive (by decide)) fun _ sqliteKeepAlive => ?_
  refine .bind (checks_percent (by decide)) fun _ downsampleMaxGapPct => ?_
  exact checks_pure ⟨⟨dockerTimeoutSecs, dockerRequestTimeoutSecs, port, retentionWeeks,
    secsWithin_fromSecs collectInterval,
    logFlushDebounce, secsWithin_fromSecs logFlushKeepAlive, logMaxBufferedLines,
    secsWithin_fromSecs dockerProbeInterval, secsWithin_fromSecs dockerRetryDelay,
    dockerRequestConcurrency, dockerDebounce, logChannelCapacity, samplesChannelCapacity,
    dockerEventsChannelCapacity, sqliteCacheSizeKb, sqliteBusyTimeout,
    secsWithin_fromSecs sqliteKeepAlive, downsampleMaxGapPct⟩, rfl⟩

/-- The rule of the threads comes first. -/
def settingsRules : List Rule := numberRule envWorkerThreads 1 usizeMax :: rules

/-- At least one thread, and not more than can run at a time. -/
def ThreadsWithin (availableParallelism threads : Nat) : Prop :=
  Within 1 (max availableParallelism 1) threads

theorem settingsFromEnv_checks (availableParallelism : Nat) (env : Env) :
    Checks env settingsRules
      (fun settings => ThreadsWithin availableParallelism settings.1 ∧ settings.2.Valid)
      (settingsFromEnv availableParallelism env) := by
  have limit : Checks env [numberRule envWorkerThreads 1 usizeMax] (Within 1 usizeMax)
      (workerThreadLimitFromEnv env) := checks_positive (by decide)
  have threads : Checks env [numberRule envWorkerThreads 1 usizeMax]
      (ThreadsWithin availableParallelism) (configuredWorkerThreads availableParallelism env) := by
    apply limit.map
    intro most within
    exact ⟨le_min (le_max_right _ _) within.1, min_le_left _ _⟩
  refine .bind threads fun count counted => ?_
  exact (fromEnv_checks env).map (fun config => (count, config)) fun _ read => ⟨counted, read.1⟩

/-! ## The settings page -/

/-- The environment that a settings page shows. The frontend directory is shown as an empty value
when it is not set. -/
def restored (page : List SettingEntry) : Env := fun name =>
  ((page.find? fun entry => entry.name = name).map (·.value)).filter fun value =>
    !(name == envStaticDir && value == "")

section

variable {low most default value : Nat}

end

/-- The settings are read exactly if no variable breaks its rule, and then they are within the
bounds. Otherwise the first variable that does is named. -/
theorem environment_checked (availableParallelism : Nat) (env : Env) :
    ((∃ settings, settingsFromEnv availableParallelism env = .ok settings) ↔
      ∀ rule ∈ settingsRules, rule.Obeyed env) ∧
    (∀ threads config, settingsFromEnv availableParallelism env = .ok (threads, config) →
      ThreadsWithin availableParallelism threads ∧ config.Valid) ∧
    ∀ fault, settingsFromEnv availableParallelism env = .error fault → ∃ before rule after,
      settingsRules = before ++ rule :: after ∧ (∀ earlier ∈ before, earlier.Obeyed env) ∧
        rule.Refuses env fault := by
  have checks := settingsFromEnv_checks availableParallelism env
  refine ⟨⟨?accepted, ?obeyed⟩, fun _ _ accepted => (checks.accepted _ accepted).2,
    checks.refused⟩
  case accepted =>
    rintro ⟨settings, accepted⟩
    exact (checks.accepted settings accepted).1
  case obeyed =>
    intro obeyed
    cases result : settingsFromEnv availableParallelism env with
    | ok settings => exact ⟨settings, rfl⟩
    | error fault =>
        obtain ⟨before, rule, after, parts, -, value, set, refused, -⟩ :=
          checks.refused fault result
        have allowed := obeyed rule (by simp [parts]) value set
        cases refused.symm.trans allowed

example : Config.fromEnv (fun name => if name = envPort then some "0" else none) =
    .error (.panic "VPSINER_PORT must be a positive integer, got: 0") := by
  rfl

end Vpsiner.Startup
