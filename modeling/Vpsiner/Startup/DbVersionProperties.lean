import Mathlib.Data.List.Infix
import Vpsiner.Lib.Text
import Vpsiner.Startup.DbVersion

/-! Starts that are interrupted: compatible databases survive as long as no start ends
between the truncation of the manifest and the write that follows it, and none fails to read
the manifest. -/

set_option autoImplicit false

namespace Vpsiner.DbVersion

open Lib

variable {format : ManifestFormat} {dataPath : String} {data initial : DataDir}
  {reads : StartReads} {recorded versions : DbVersions} {kind : DbKind}

theorem DbKind.mem_all (kind : DbKind) : kind ∈ DbKind.all := by
  cases kind <;> decide

/-- What a start without force does once it has read the manifest. -/
theorem evaluate_of_read (dataPath : String)
    (read : readVersions format data reads = some versions) :
    (evaluate format dataPath data false reads).1 = [.createDataDir] ∨
      evaluate format dataPath data false reads =
        (.createDataDir :: writeVersions format .current, .ok ()) := by
  unfold evaluate
  rw [read]
  dsimp only
  by_cases none : staleKinds data reads versions = []
  · rw [if_pos none]
    by_cases other : versions ≠ .current
    · rw [if_pos other]
      exact .inr rfl
    · rw [if_neg other]
      exact .inl rfl
  · rw [if_neg none]
    exact .inl rfl

/-- A start that refuses has changed nothing, wherever it is stopped. -/
theorem evaluate_refuses {message : String}
    (refused : (evaluate format dataPath data false reads).2 = .error message)
    {taken : List FsStep} (interrupted : taken <+: (evaluate format dataPath data false reads).1) :
    taken.foldl FsStep.apply data = data := by
  cases read : readVersions format data reads with
  | none =>
      unfold evaluate at refused
      rw [read] at refused
      cases refused
  | some versions =>
      rcases evaluate_of_read dataPath read with unchanged | written
      · rw [unchanged] at interrupted
        obtain rfl | rfl := List.sublist_singleton.mp interrupted.sublist
        · rfl
        · rfl
      · rw [written] at refused
        cases refused

/-- No call of a start creates a database. -/
theorem databases_apply_eq_none (absent : data.databases kind = none) (step : FsStep) :
    (step.apply data).databases kind = none := by
  cases step with
  | removeFile other file =>
      by_cases same : kind = other
      · subst same
        exact (Function.update_self ..).trans (by rw [absent, Option.map_none])
      · exact (Function.update_of_ne same ..).trans absent
  | removeDir other =>
      by_cases same : kind = other
      · subst same
        exact Function.update_self ..
      · exact (Function.update_of_ne same ..).trans absent
  | createDataDir => exact absent
  | truncateManifest => exact absent
  | writeManifest body => exact absent

theorem databases_foldl_eq_none {steps : List FsStep}
    (removed : data.databases kind = none ∨ .removeDir kind ∈ steps) :
    (steps.foldl FsStep.apply data).databases kind = none := by
  induction steps generalizing data with
  | nil => exact removed.resolve_right List.not_mem_nil
  | cons step rest ih =>
      refine ih ?_
      by_cases later : .removeDir kind ∈ rest
      · exact .inr later
      · refine .inl ?_
        rcases removed with absent | listed
        · exact databases_apply_eq_none absent step
        · obtain rfl := (List.mem_cons.mp listed).resolve_right later
          exact Function.update_self ..

theorem evaluate_wipes (unread : readVersions format data reads = none) (kind : DbKind) :
    ((evaluate format dataPath data false reads).1.foldl FsStep.apply data).databases kind =
      none := by
  refine databases_foldl_eq_none ?_
  cases present : data.databases kind with
  | none => exact .inl rfl
  | some files =>
      refine .inr ?_
      unfold evaluate
      rw [unread]
      refine List.mem_cons_of_mem _ (List.mem_append_left _ ?_)
      refine List.mem_flatMap.mpr ⟨kind, kind.mem_all, ?_⟩
      unfold removeDir
      rw [present]
      exact List.mem_append_right _ (List.mem_singleton_self _)

/-! ## Runs -/

/-- A database that is there has the version that this build expects. -/
def CompatibleThere (recorded : DbVersions) (data : DataDir) : Prop :=
  ∃ kind : DbKind, kind.recorded recorded = kind.expected ∧ (data.databases kind).isSome = true

/-- While a compatible database is there, no start ends with the manifest truncated, and none
fails to read the manifest. -/
def ManifestHeld (recorded : DbVersions) (state : Startup) : StartupAction → Prop
  | .crash => CompatibleThere recorded state.data → state.data.manifest ≠ some ""
  | .start reads => CompatibleThere recorded state.data → reads.readable = true
  | .proceed => True

/-- How far a start has come that was held by the manifest. -/
inductive Progress (format : ManifestFormat) (state : Startup) : Prop where
  | readable (versions : DbVersions)
      (read : state.data.manifest.bind format.fromString = some versions)
      (pending : state.pending = [] ∨ state.pending = [.createDataDir] ∨
        state.pending = .createDataDir :: writeVersions format .current ∨
        state.pending = writeVersions format .current)
  | truncated (manifest : state.data.manifest = some "")
      (pending : state.pending = [.writeManifest (format.toStringPretty .current)])

/-- A step that is held by the manifest leaves the databases alone. -/
theorem Progress.step {state after : Startup} {action : StartupAction}
    (progress : Progress format state) (there : CompatibleThere recorded state.data)
    (held : ManifestHeld recorded state action)
    (taken : (startups format dataPath initial).step state action = some after) :
    Progress format after ∧ after.data.databases = state.data.databases := by
  obtain ⟨data, pending⟩ := state
  cases action with
  | start reads =>
      simp only [startups, Option.ite_none_right_eq_some] at taken
      obtain ⟨idle, taken⟩ := taken
      cases taken
      subst idle
      refine ⟨?_, rfl⟩
      cases progress with
      | readable versions read idle =>
          have seen : readVersions format data reads = some versions := by
            rw [readVersions, if_pos (held there)]
            exact read
          rcases evaluate_of_read dataPath seen with unchanged | written
          · exact .readable versions read (.inr (.inl unchanged))
          · exact .readable versions read (.inr (.inr (.inl (by rw [written]))))
      | truncated manifest pending => contradiction
  | proceed =>
      cases progress with
      | readable versions read pending =>
          rcases pending with rfl | rfl | rfl | rfl
          · cases taken
          · cases taken
            exact ⟨.readable versions read (.inl rfl), rfl⟩
          · cases taken
            exact ⟨.readable versions read (.inr (.inr (.inr rfl))), rfl⟩
          · cases taken
            exact ⟨.truncated rfl rfl, rfl⟩
      | truncated manifest pending =>
          obtain rfl := pending
          cases taken
          exact ⟨.readable .current (format.roundTrip .current) (.inl rfl), rfl⟩
  | crash =>
      cases taken
      refine ⟨?_, rfl⟩
      cases progress with
      | readable versions read pending => exact .readable versions read (.inl rfl)
      | truncated manifest pending => exact absurd manifest (held there)

theorem databases_step_eq_none {state after : Startup} {action : StartupAction}
    (absent : state.data.databases kind = none)
    (taken : (startups format dataPath initial).step state action = some after) :
    after.data.databases kind = none := by
  obtain ⟨data, pending⟩ := state
  cases action with
  | start reads =>
      simp only [startups, Option.ite_none_right_eq_some] at taken
      obtain ⟨-, taken⟩ := taken
      cases taken
      exact absent
  | proceed =>
      cases pending with
      | nil => cases taken
      | cons step rest =>
          cases taken
          exact databases_apply_eq_none absent step
  | crash =>
      cases taken
      exact absent

theorem databases_of_reachable (valid : readVersions format initial {} = some recorded)
    {state : Startup}
    (reached : (startups format dataPath initial).Reachable (ManifestHeld recorded) state)
    (compatible : kind.recorded recorded = kind.expected) :
    state.data.databases kind = initial.databases kind := by
  by_cases there : CompatibleThere recorded initial
  · have kept : Progress format state ∧ state.data.databases = initial.databases := by
      apply reached.invariant fun state =>
        Progress format state ∧ state.data.databases = initial.databases
      · exact ⟨.readable recorded valid (.inl rfl), rfl⟩
      · intro before after action inv held taken
        have still : CompatibleThere recorded before.data := by
          unfold CompatibleThere
          rw [inv.2]
          exact there
        obtain ⟨progress, same⟩ := inv.1.step still held taken
        exact ⟨progress, same.trans inv.2⟩
    rw [kept.2]
  · have absent : initial.databases kind = none := by
      cases present : initial.databases kind with
      | none => rfl
      | some files => exact absurd ⟨kind, compatible, by rw [present]; rfl⟩ there
    rw [absent]
    apply reached.invariant fun state => state.data.databases kind = none
    · exact absent
    · exact fun none _ taken => databases_step_eq_none none taken

/-- A start comes to its end when it is left alone. -/
theorem startups_finish (state : Startup) :
    ((startups format dataPath initial).startingAt state).Reachable Machine.anyStep
      ⟨state.pending.foldl FsStep.apply state.data, []⟩ := by
  obtain ⟨data, pending⟩ := state
  induction pending generalizing data with
  | nil => exact .start
  | cons step rest ih =>
      have first : ((startups format dataPath initial).startingAt ⟨data, step :: rest⟩).Reachable
          Machine.anyStep ⟨step.apply data, rest⟩ :=
        Machine.Reachable.start.step .proceed trivial rfl
      exact first.trans (ih (step.apply data))

/-- A start that does not get the versions deletes every database. -/
theorem startups_wipe (unread : readVersions format data reads = none) :
    ∃ later, ((startups format dataPath initial).startingAt
        ⟨data, (evaluate format dataPath data false reads).1⟩).Reachable Machine.anyStep later ∧
      ∀ kind, later.data.databases kind = none :=
  ⟨_, startups_finish _, evaluate_wipes unread⟩

/-- No start deletes a compatible database as long as the manifest is held, and one that refuses
changes nothing. Where it is not held, a compatible database that is there may be deleted. -/
theorem compatible_databases_survive (valid : readVersions format initial {} = some recorded)
    {state : Startup}
    (reached : (startups format dataPath initial).Reachable (ManifestHeld recorded) state) :
    (∀ kind : DbKind, kind.recorded recorded = kind.expected →
      state.data.databases kind = initial.databases kind) ∧
    (∀ reads message, (evaluate format dataPath state.data false reads).2 = .error message →
      ∀ taken, taken <+: (evaluate format dataPath state.data false reads).1 →
        taken.foldl FsStep.apply state.data = state.data) ∧
    ∀ action after, (startups format dataPath initial).step state action = some after →
      ¬ManifestHeld recorded state action →
        ∃ later, ((startups format dataPath initial).startingAt after).Reachable
            Machine.anyStep later ∧
          ∃ kind : DbKind, kind.recorded recorded = kind.expected ∧
            (initial.databases kind).isSome = true ∧ later.data.databases kind = none := by
  have same : ∀ kind : DbKind, kind.recorded recorded = kind.expected →
      state.data.databases kind = initial.databases kind :=
    fun _ => databases_of_reachable valid reached
  refine ⟨same, fun _ _ refused _ => evaluate_refuses refused, ?_⟩
  intro action after taken broken
  have lost : CompatibleThere recorded state.data →
      (∃ later, ((startups format dataPath initial).startingAt after).Reachable
          Machine.anyStep later ∧ ∀ kind, later.data.databases kind = none) →
        ∃ later, ((startups format dataPath initial).startingAt after).Reachable
            Machine.anyStep later ∧
          ∃ kind : DbKind, kind.recorded recorded = kind.expected ∧
            (initial.databases kind).isSome = true ∧ later.data.databases kind = none := by
    rintro ⟨kind, compatible, present⟩ ⟨later, reachable, wiped⟩
    exact ⟨later, reachable, kind, compatible, same kind compatible ▸ present, wiped kind⟩
  cases action with
  | start reads =>
      obtain ⟨there, failed⟩ := Classical.not_imp.mp broken
      apply lost there
      have unread : readVersions format state.data reads = none := by
        rw [readVersions, if_neg failed]
      simp only [startups, Option.ite_none_right_eq_some] at taken
      obtain ⟨-, taken⟩ := taken
      cases taken
      exact startups_wipe unread
  | proceed => exact absurd trivial broken
  | crash =>
      obtain ⟨there, torn⟩ := Classical.not_imp.mp broken
      apply lost there
      have unread : readVersions format state.data {} = none := by
        rw [readVersions, not_not.mp torn, Option.bind_some, format.emptyText, ite_self]
      cases taken
      have next : ((startups format dataPath initial).startingAt ⟨state.data, []⟩).Reachable
          Machine.anyStep ⟨state.data, (evaluate format dataPath state.data false {}).1⟩ :=
        Machine.Reachable.start.step (.start {}) trivial rfl
      obtain ⟨later, finished, wiped⟩ := startups_wipe unread
      exact ⟨later, next.trans finished, wiped⟩

/-! ## One data directory -/

def versionDigits (version : UInt32) : List Char := Nat.toDigits 10 version.toNat

def parseVersion (digits : List Char) : Option UInt32 :=
  ((Text.parseDigits digits).filter (· < 4294967296)).map UInt32.ofNat

theorem parseVersion_digits (version : UInt32) :
    parseVersion (versionDigits version) = some version := by
  unfold parseVersion versionDigits
  rw [Text.parseDigits_toDigits, Option.filter_some, if_pos (decide_eq_true version.toNat_lt),
    Option.map_some, UInt32.ofNat_toNat]

def versionsJson (versions : DbVersions) : List Char :=
  ('\x7b' :: "\n  \"metadata\": ".toList) ++ (versionDigits versions.metadata ++
    ',' :: "\n  \"logs\": ".toList ++ (versionDigits versions.logs ++
      ',' :: "\n  \"metrics\": ".toList ++ (versionDigits versions.metrics ++ ['\n', '\x7d'])))

/-- Reads back an object with the fields in the order and the spacing they are written. -/
def parseVersionsJson (json : List Char) : Option DbVersions := do
  let fields ← Text.stripPrefix ('\x7b' :: "\n  \"metadata\": ".toList) json
  let (metadata, fields) ← Text.splitOnce (',' :: "\n  \"logs\": ".toList) fields
  let (logs, fields) ← Text.splitOnce (',' :: "\n  \"metrics\": ".toList) fields
  let metrics ← Text.stripSuffix ['\n', '\x7d'] fields
  return ⟨← parseVersion metadata, ← parseVersion logs, ← parseVersion metrics⟩

theorem parseVersionsJson_versionsJson (versions : DbVersions) :
    parseVersionsJson (versionsJson versions) = some versions := by
  have comma : ∀ version, ',' ∉ versionDigits version := by
    intro version member
    have digit := Nat.isDigit_of_mem_toDigits (by decide) (by decide) member
    cases digit
  simp only [parseVersionsJson, versionsJson, Text.stripPrefix_append,
    Text.splitOnce_append _ (comma _), Text.stripSuffix_append, parseVersion_digits,
    Option.bind_eq_bind, Option.bind_some, Option.pure_def]

/-- The text that `versions.json` is written with. -/
def prettyJson : ManifestFormat where
  toStringPretty versions := String.ofList (versionsJson versions)
  fromString text := parseVersionsJson text.toList
  roundTrip versions := by
    rw [String.toList_ofList]
    exact parseVersionsJson_versionsJson versions
  emptyText := by decide

/-- The metrics are old and gone, the logs are current. -/
def oldMetrics : DbVersions := ⟨3, 3, 0⟩

def logsOnly : DataDir where
  manifest := some (prettyJson.toStringPretty oldMetrics)
  databases kind := if kind = .logs then some ["web/2026_w29.db"] else none

theorem readVersions_logsOnly : readVersions prettyJson logsOnly {} = some oldMetrics :=
  prettyJson.roundTrip oldMetrics

/-- No start ends with the manifest truncated, and none fails to read it. -/
def manifestHeld (state : Startup) : StartupAction → Bool
  | .crash => state.data.manifest != some ""
  | .start reads => reads.readable
  | .proceed => true

theorem held_of_manifestHeld (state : Startup) (action : StartupAction)
    (held : manifestHeld state action = true) : ManifestHeld recorded state action := by
  cases action with
  | start reads => exact fun _ => held
  | proceed => trivial
  | crash => exact fun _ => bne_iff_ne.mp held

/-- A start is stopped before it has truncated the manifest, the next one comes to its end. -/
theorem compatible_databases_survive_early_crash : ∃ state : Startup,
    state.data.manifest = some (prettyJson.toStringPretty .current) ∧
      state.data.databases .logs = some ["web/2026_w29.db"] := by
  have done : ((startups prettyJson "data" logsOnly).run manifestHeld
      (startups prettyJson "data" logsOnly).start
      [.start {}, .proceed, .crash, .start {}, .proceed, .proceed, .proceed]).map
        (fun state => state.data.manifest) = some (some (prettyJson.toStringPretty .current)) := by
    decide +kernel
  obtain ⟨state, taken, manifest⟩ := Option.map_eq_some_iff.mp done
  have survived := compatible_databases_survive readVersions_logsOnly
    (Machine.Reachable.start.run held_of_manifestHeld taken)
  exact ⟨state, manifest, survived.1 .logs rfl⟩

/-- A start is stopped with the manifest truncated; the next one deletes the logs. -/
theorem torn_manifest_wipes_logs :
    ¬ ∀ (format : ManifestFormat) (dataPath : String) (initial : DataDir) (recorded : DbVersions)
        (state : Startup), readVersions format initial {} = some recorded →
          (startups format dataPath initial).Reachable
            (fun _ action => ∀ reads, action = .start reads → reads = {}) state →
              ∀ kind : DbKind, kind.recorded recorded = kind.expected →
                state.data.databases kind = initial.databases kind := by
  intro always
  have done : ((startups prettyJson "data" logsOnly).run
      (fun _ action => action = .start {} ∨ action = .proceed ∨ action = .crash)
      (startups prettyJson "data" logsOnly).start
      [.start {}, .proceed, .proceed, .crash, .start {}, .proceed, .proceed, .proceed]).map
        (fun state => state.data.databases .logs) = some none := by
    decide +kernel
  obtain ⟨state, taken, wiped⟩ := Option.map_eq_some_iff.mp done
  have reached : (startups prettyJson "data" logsOnly).Reachable
      (fun _ action => ∀ reads, action = .start reads → reads = {}) state := by
    refine Machine.Reachable.start.run (fun _ action allowed reads same => ?_) taken
    subst same
    simpa using allowed
  have kept := always _ _ _ _ state readVersions_logsOnly reached .logs rfl
  rw [wiped] at kept
  cases kept

end Vpsiner.DbVersion
