import Vpsiner.Logs.AppendProperties

/-! A flush whose append fails sends the whole batch again, ahead of the lines that were
accepted meanwhile. Every line is stored once exactly when no append fails after its
first week. -/

set_option autoImplicit false

namespace Vpsiner.Logs

/-- The lines accepted since the attempt before, and what happens to this one. -/
structure Attempt where
  accepted : List LogLine
  fates : AppendFates

structure Outcome where
  store : SqliteLogStore
  batch : List LogLine
  result : AppResult Unit

/-- The attempts to flush a service, up to the first one that succeeds. -/
def outcomes (service : String) : SqliteLogStore → List LogLine → List Attempt → List Outcome
  | _, _, [] => []
  | store, pending, attempt :: rest =>
      let batch := pending ++ attempt.accepted
      match store.append attempt.fates service batch with
      | (after, .ok ()) => [⟨after, batch, .ok ()⟩]
      | (after, .error fault) =>
          ⟨after, batch, .error fault⟩ :: outcomes service after batch rest

/-- A failed attempt leaves no row; a successful one leaves one row for every line. -/
def StoredOnce (service : String) (before : SqliteLogStore) (outcome : Outcome) : Prop :=
  match outcome.result with
  | .ok () => ((outcome.store.entries service).map StoredLog.line).Perm
      ((before.entries service).map StoredLog.line ++ outcome.batch.map (storedLine service))
  | .error _ => (outcome.store.entries service).Perm (before.entries service)

def RetriesStoreOnce (service : String) (store : SqliteLogStore) (attempts : List Attempt) : Prop :=
  ∀ outcome ∈ outcomes service store [] attempts, StoredOnce service store outcome

/-- The directory or the first visited week fails. -/
def FailsFirst (fates : AppendFates) (lines : List LogLine) : Prop :=
  fates.directory.isSome = true ∨
    ∀ batch ∈ (fates.order.arrange (byWeek lines)).head?, fates.week batch.week ≠ .commits

/-- Up to the first success, every attempt that fails does so before a week is committed;
the lines that succeed all have a week file. -/
def CleanAttempts : List LogLine → List Attempt → Prop
  | _, [] => True
  | pending, attempt :: rest =>
      let batch := pending ++ attempt.accepted
      (Succeeds attempt.fates batch → ∀ line ∈ batch, (weekDatabaseName line.ts).isSome = true) ∧
        (¬Succeeds attempt.fates batch →
          FailsFirst attempt.fates batch ∧ CleanAttempts batch rest)

theorem committedLines_eq_nil_iff (fates : AppendFates) (lines : List LogLine) :
    committedLines fates lines = [] ↔ FailsFirst fates lines := by
  rw [committedLines, FailsFirst]
  cases fates.directory with
  | some detail => exact iff_of_true rfl (.inl rfl)
  | none =>
      simp only [Option.isSome_none, Bool.false_eq_true, if_false, false_or]
      cases arranged : fates.order.arrange (byWeek lines) with
      | nil =>
          refine iff_of_true rfl fun batch absent => ?_
          cases absent
      | cons first rest =>
          by_cases commits : fates.week first.week = .commits
          · have taken : (first :: rest).takeWhile (fun batch => fates.week batch.week = .commits) =
                first :: rest.takeWhile fun batch => fates.week batch.week = .commits :=
              List.takeWhile_cons_of_pos (decide_eq_true commits)
            rw [taken, List.flatMap_cons]
            refine iff_of_false (fun nothing => ?_) fun first => first _ rfl commits
            exact first.nonempty (List.append_eq_nil_iff.mp nothing).1
          · have taken : (first :: rest).takeWhile (fun batch => fates.week batch.week = .commits) =
                [] := List.takeWhile_cons_of_neg (by simpa using commits)
            rw [taken]
            refine iff_of_true rfl fun batch same => ?_
            cases same
            exact commits

private theorem perm_dated_iff (service : String) (batch : List LogLine) :
    ((dated batch).map (storedLine service)).Perm (batch.map (storedLine service)) ↔
      ∀ line ∈ batch, (weekDatabaseName line.ts).isSome = true := by
  constructor
  · intro same
    have length := same.length_eq
    rw [List.length_map, List.length_map, dated] at length
    exact List.length_filter_eq_length_iff.mp length
  · intro all
    rw [dated, List.filter_eq_self.mpr all]

private theorem storedOnce_ok_iff {service : String} {before after : SqliteLogStore}
    {batch committed : List LogLine} {entries : List StoredLog}
    (same : entries.Perm (before.entries service)) (whole : committed.Perm (dated batch))
    (grown : Grown service entries committed (after.entries service)) :
    StoredOnce service before ⟨after, batch, .ok ()⟩ ↔
      ∀ line ∈ batch, (weekDatabaseName line.ts).isSome = true := by
  obtain ⟨added, grownEntries, stored, _⟩ := grown
  have result : ((after.entries service).map StoredLog.line).Perm
      ((before.entries service).map StoredLog.line ++ (dated batch).map (storedLine service)) := by
    have lines := grownEntries.map StoredLog.line
    rw [List.map_append, stored] at lines
    exact lines.trans ((same.map _).append (whole.map _))
  rw [← perm_dated_iff service batch, StoredOnce]
  constructor
  · intro exact
    exact (List.perm_append_left_iff _).mp (result.symm.trans exact)
  · intro exact
    exact result.trans (exact.append_left _)

private theorem unchanged_iff {service : String} {before after : SqliteLogStore}
    {committed : List LogLine} {entries : List StoredLog}
    (same : entries.Perm (before.entries service))
    (grown : Grown service entries committed (after.entries service)) :
    (after.entries service).Perm (before.entries service) ↔ committed = [] := by
  obtain ⟨added, grownEntries, stored, _⟩ := grown
  have length := congrArg List.length stored
  rw [List.length_map, List.length_map] at length
  constructor
  · intro unchanged
    have more := (grownEntries.symm.trans (unchanged.trans same.symm)).length_eq
    rw [List.length_append] at more
    exact List.length_eq_zero_iff.mp (by omega)
  · intro nothing
    have none : added = [] := List.length_eq_zero_iff.mp (by rw [length, nothing, List.length_nil])
    rw [none, List.append_nil] at grownEntries
    exact grownEntries.trans same

private theorem outcomes_storedOnce_iff (service : String) (before : SqliteLogStore)
    (attempts : List Attempt) (store : SqliteLogStore) (pending : List LogLine)
    (same : (store.entries service).Perm (before.entries service)) :
    (∀ outcome ∈ outcomes service store pending attempts, StoredOnce service before outcome) ↔
      CleanAttempts pending attempts := by
  induction attempts generalizing store pending with
  | nil => exact iff_of_true nofun trivial
  | cons attempt rest ih =>
      obtain ⟨grown, ok⟩ := append_grown store attempt.fates service (pending ++ attempt.accepted)
      rw [outcomes, CleanAttempts]
      split
      · next after appended =>
          rw [appended] at grown ok
          have succeeds := ok.mp rfl
          rw [List.forall_mem_singleton,
            storedOnce_ok_iff same (committedLines_of_succeeds succeeds) grown]
          exact ⟨fun all => ⟨fun _ => all, fun fails => absurd succeeds fails⟩,
            fun clean => clean.1 succeeds⟩
      · next after fault appended =>
          rw [appended] at grown ok
          have fails : ¬Succeeds attempt.fates (pending ++ attempt.accepted) :=
            fun succeeds => nomatch ok.mpr succeeds
          have first : (after.entries service).Perm (before.entries service) ↔
              FailsFirst attempt.fates (pending ++ attempt.accepted) :=
            (unchanged_iff same grown).trans (committedLines_eq_nil_iff _ _)
          rw [List.forall_mem_cons, StoredOnce, first]
          constructor
          · intro holds
            obtain ⟨early, later⟩ := holds
            exact ⟨fun succeeds => absurd succeeds fails,
              fun _ => ⟨early, (ih after _ (first.mpr early)).mp later⟩⟩
          · intro clean
            obtain ⟨early, later⟩ := clean.2 fails
            exact ⟨early, (ih after _ (first.mpr early)).mpr later⟩

/-- Retrying until an append succeeds stores every line exactly once, and leaves nothing
behind before, exactly when no attempt fails after a week was committed. -/
theorem retries_store_once_iff (service : String) (store : SqliteLogStore)
    (attempts : List Attempt) :
    RetriesStoreOnce service store attempts ↔ CleanAttempts [] attempts :=
  outcomes_storedOnce_iff service store attempts store [] (.refl _)

def shopLine (ts : Int) (text : String) : LogLine :=
  ⟨ts, "shop", ⟨1⟩, .stdout, none, text⟩

/-- The week of the second line cannot be committed at first. -/
def secondWeekFails : List Attempt := [
  { accepted := [shopLine 1699395200000 "first week", shopLine 1700000000000 "second week"]
    fates := { week := fun week =>
      if week = "2023_w46.db" then .commitFails "disk full" else .commits } },
  { accepted := [], fates := {} }]

theorem retry_stores_line_twice :
    ¬ ∀ (service : String) (store : SqliteLogStore) (attempts : List Attempt),
        RetriesStoreOnce service store attempts := by
  intro once
  have stored := once "shop" .empty secondWeekFails _
    (List.mem_cons_of_mem _ List.mem_cons_self)
  have rows := stored.length_eq
  revert rows
  decide

end Vpsiner.Logs
