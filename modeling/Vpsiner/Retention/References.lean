import Vpsiner.Logs.RetentionProperties
import Vpsiner.Metadata.CallByCall
import Vpsiner.Metrics.RowSources
import Vpsiner.Retention.Cleanup

/-! A pass leaves no row and no checkpoint without its service: whatever is stored was seen
by the table as late as its time tells, or is older than everything that a pass spares. -/

set_option autoImplicit false

namespace Vpsiner

open Lib Logs Metrics Metadata

/-! ## Passes that nothing fails -/

theorem Logs.deleteWeeks_succeeds (cutoffMs : Int) (serviceName : String) (weeks : List WeekDb) :
    ∃ removed, (deleteWeeks cutoffMs serviceName (fun _ => none) weeks).2 = .ok removed := by
  induction weeks with
  | nil => exact ⟨[], rfl⟩
  | cons db rest ih =>
      obtain ⟨removed, later⟩ := ih
      unfold deleteWeeks
      split
      · dsimp only
        rw [later]
        exact ⟨_, rfl⟩
      · exact ⟨removed, later⟩

theorem Logs.deleteDirectories_succeeds (cutoffMs : Int) (directories : List (String × ServiceDir)) :
    ∃ removed, (deleteDirectories cutoffMs {} directories).2 = .ok removed := by
  induction directories with
  | nil => exact ⟨[], rfl⟩
  | cons entry rest ih =>
      obtain ⟨name, dir⟩ := entry
      obtain ⟨removed, later⟩ := ih
      unfold deleteDirectories
      split
      · exact ⟨removed, later⟩
      · obtain ⟨names, here⟩ := deleteWeeks_succeeds cutoffMs name dir.weeks
        have deleted : dir.deleteBefore cutoffMs name (fun _ => none) =
            ((dir.deleteBefore cutoffMs name fun _ => none).1, .ok names) := Prod.ext rfl here
        dsimp only
        rw [deleted]
        dsimp only
        rw [later]
        exact ⟨_, rfl⟩

theorem Metrics.deleteFromAll_succeeds (cutoffMs : Int) (tables : List MetricsTable)
    (db : MetricsDb) :
    ∃ deleted, (deleteFromAll cutoffMs (fun _ => none) tables db).2 = .ok deleted := by
  induction tables generalizing db with
  | nil => exact ⟨0, rfl⟩
  | cons table rest ih =>
      obtain ⟨others, later⟩ := ih (deleteFrom cutoffMs db table).1
      unfold deleteFromAll
      dsimp only
      rw [later]
      exact ⟨_, rfl⟩

theorem MetricsResolution.bucketMs_le_max {resolution : MetricsResolution}
    (coarse : resolution ∈ MetricsResolution.coarse) :
    resolution.bucketMs ≤ MetricsResolution.maxBucketMs := by
  cases resolution with
  | tenSeconds => exact absurd coarse (by decide)
  | oneMinute => decide
  | fiveMinutes => decide
  | oneHour => decide

namespace Retention

variable {weeks : Nat} {now cutoffMs : Int} {stores after : Stores}

/-- Everything before the cutoff goes, and services go that were last seen well before it. -/
theorem cleanupOnce_spec (cleaned : cleanupOnce {} weeks now stores = some after) :
    ∃ cutoffMs, retentionCutoffMs now weeks = some cutoffMs ∧
      (∀ resolution row, row ∈ (after.metrics.db.containers resolution).rows →
        row ∈ (stores.metrics.db.containers resolution).rows ∧ cutoffMs ≤ row.ts) ∧
      after.checkpoints = stores.checkpoints.deleteBefore cutoffMs ∧
      after.services = (stores.services.reclaimBefore
        (cutoffMs - MetricsResolution.maxBucketMs - maxWatermarkLagMs) none).1 := by
  obtain ⟨cutoffMs, found, cleaned⟩ := Option.bind_eq_some_iff.mp cleaned
  obtain ⟨deleted, metricsDone⟩ := deleteFromAll_succeeds cutoffMs deleteOrder stores.metrics.db
  obtain ⟨names, removedDone⟩ := deleteDirectories_succeeds cutoffMs stores.logs.directories
  have metrics : stores.metrics.deleteBefore (fun _ => none) cutoffMs =
      ((stores.metrics.deleteBefore (fun _ => none) cutoffMs).1, .ok deleted) :=
    Prod.ext rfl metricsDone
  have logs : stores.logs.deleteBefore {} cutoffMs =
      ((stores.logs.deleteBefore {} cutoffMs).1, .ok (names.insertionSort (· ≤ ·))) :=
    Prod.ext rfl (congrArg (Except.map _) removedDone)
  dsimp only at cleaned
  rw [metrics, logs] at cleaned
  cases cleaned
  exact ⟨cutoffMs, found,
    fun resolution row => (containers_deleteBefore metrics resolution row).mp, rfl, rfl⟩

/-! ## What is accounted for -/

/-- The service was seen since this time, or the time lies before every reclaim to come. -/
def SeenOrExpired (services : ServiceRegistry) (reclaimMs : Int) (sid : ServiceId) (floor : Int) :
    Prop :=
  services.store.SeenSince sid floor ∨ floor < reclaimMs

theorem SeenOrExpired.lower {services : ServiceRegistry} {reclaimMs floor lower : Int}
    {sid : ServiceId} (known : SeenOrExpired services reclaimMs sid floor) (le : lower ≤ floor) :
    SeenOrExpired services reclaimMs sid lower := by
  rcases known with seen | expired
  · exact .inl (seen.earlier le)
  · exact .inr (le.trans_lt expired)

/-- Samples and flushes, and the rows and checkpoints made of them, each with the time down
to which its service must have been seen. -/
structure Accounted (counted : ServiceId → Int → Prop) (run : RetentionRun) : Prop where
  sampled : ∀ sample ∈ run.sampled, counted sample.service (sample.ts - maxWatermarkLagMs)
  flushed : ∀ flush ∈ run.flushed, counted flush.1 (flush.2 - maxWatermarkLagMs)
  fine : ∀ row ∈ (run.stores.metrics.db.containers .tenSeconds).rows,
    counted row.service (row.ts - maxWatermarkLagMs)
  coarse : ∀ resolution ∈ MetricsResolution.coarse,
    ∀ row ∈ (run.stores.metrics.db.containers resolution).rows,
      counted row.service (row.ts - MetricsResolution.maxBucketMs - maxWatermarkLagMs)
  checkpoints : ∀ sid cid checkpoint, run.stores.checkpoints sid cid = some checkpoint →
    counted sid (checkpoint.ts - maxWatermarkLagMs)

variable {counted later : ServiceId → Int → Prop} {run : RetentionRun}

theorem Accounted.imp (accounted : Accounted counted run)
    (kept : ∀ sid floor, counted sid floor → later sid floor) : Accounted later run where
  sampled sample member := kept _ _ (accounted.sampled sample member)
  flushed flush member := kept _ _ (accounted.flushed flush member)
  fine row member := kept _ _ (accounted.fine row member)
  coarse resolution coarse row member := kept _ _ (accounted.coarse resolution coarse row member)
  checkpoints sid cid checkpoint stored := kept _ _ (accounted.checkpoints sid cid checkpoint stored)

/-- A row of any resolution leads the samples of its service by less than the widest bucket. -/
theorem Accounted.row (accounted : Accounted counted run)
    (lower : ∀ sid floor lower, counted sid floor → lower ≤ floor → counted sid lower)
    {resolution : MetricsResolution} {row : ContainerSample}
    (member : row ∈ (run.stores.metrics.db.containers resolution).rows) :
    counted row.service (row.ts - MetricsResolution.maxBucketMs - maxWatermarkLagMs) := by
  have wide : 0 ≤ MetricsResolution.maxBucketMs := by decide
  cases resolution with
  | tenSeconds => exact lower _ _ _ (accounted.fine row member) (by omega)
  | oneMinute => exact accounted.coarse .oneMinute (by decide) row member
  | fiveMinutes => exact accounted.coarse .fiveMinutes (by decide) row member
  | oneHour => exact accounted.coarse .oneHour (by decide) row member

/-- The rows of a bucket are as old as a sample, and what is rolled up as old as a row. -/
theorem Accounted.bucket (accounted : Accounted counted run)
    (lower : ∀ sid floor lower, counted sid floor → lower ≤ floor → counted sid lower)
    {rows : List ContainerSample}
    (taken : ∀ row ∈ rows, ∃ sample ∈ run.sampled,
      sample.cid = row.cid ∧ sample.service = row.service ∧ row.ts ≤ sample.ts)
    (search : PartitionPoint) (order : HashOrder) :
    Accounted counted { run with stores := { run.stores with
      metrics := (run.stores.metrics.insertContainers search order rows).1 } } := by
  obtain ⟨fine, coarse⟩ :=
    SqliteMetricsStore.insertContainers_sources search order run.stores.metrics rows
  have fineCounted : ∀ row ∈
      ((run.stores.metrics.insertContainers search order rows).1.db.containers .tenSeconds).rows,
      counted row.service (row.ts - maxWatermarkLagMs) := by
    intro row member
    rcases fine row member with old | new
    · exact accounted.fine row old
    · obtain ⟨sample, known, _, same, notAfter⟩ := taken row new
      rw [← same]
      exact lower _ _ _ (accounted.sampled sample known) (by omega)
  refine ⟨accounted.sampled, accounted.flushed, fineCounted, ?_, accounted.checkpoints⟩
  intro resolution isCoarse row member
  rcases coarse resolution isCoarse row member with old | ⟨source, stored, same, stamped⟩
  · exact accounted.coarse resolution isCoarse row old
  · have leads := (bucketEnd_spec source.ts resolution.bucketMs_pos).2.1
    have widest := MetricsResolution.bucketMs_le_max isCoarse
    rw [stamped] at leads
    rw [← same]
    exact lower _ _ _ (fineCounted source stored) (by omega)

theorem Accounted.checkpoint (accounted : Accounted counted run)
    (lower : ∀ sid floor lower, counted sid floor → lower ≤ floor → counted sid lower)
    {sid : ServiceId} {cid : ContainerId} {checkpoint : LogCheckpoint}
    (taken : ∃ flush ∈ run.flushed, flush.1 = sid ∧ checkpoint.ts ≤ flush.2) :
    Accounted counted { run with stores := { run.stores with
      checkpoints := run.stores.checkpoints.advance sid cid checkpoint } } := by
  refine ⟨accounted.sampled, accounted.flushed, accounted.fine, accounted.coarse, ?_⟩
  intro otherSid otherCid other stored
  dsimp only [LogCheckpoints.advance] at stored
  split at stored
  · exact accounted.checkpoints otherSid otherCid other stored
  · by_cases sameSid : otherSid = sid
    · subst sameSid
      rw [Function.update_self] at stored
      by_cases sameCid : otherCid = cid
      · subst sameCid
        rw [Function.update_self] at stored
        cases stored
        obtain ⟨flush, known, same, notAfter⟩ := taken
        rw [← same]
        exact lower _ _ _ (accounted.flushed flush known) (by omega)
      · rw [Function.update_of_ne sameCid] at stored
        exact accounted.checkpoints otherSid otherCid other stored
    · rw [Function.update_of_ne sameSid] at stored
      exact accounted.checkpoints otherSid otherCid other stored

/-! ## Runs -/

/-- No pass to come reclaims a service that was seen since `reclaimMs`. -/
structure RetentionInv (weeks : Nat) (run : RetentionRun) (reclaimMs : Int) : Prop where
  services : Coherent run.stores.services
  ahead : ∀ now cutoffMs, run.clock ≤ now → retentionCutoffMs now weeks = some cutoffMs →
    reclaimMs ≤ cutoffMs - MetricsResolution.maxBucketMs - maxWatermarkLagMs
  accounted : Accounted (SeenOrExpired run.stores.services reclaimMs) run

variable {reclaimMs : Int} {search : PartitionPoint} {downsampleMaxGapPct : Nat} {clock : Int}

theorem RetentionInv.start :
    RetentionInv weeks (retentionMachine search downsampleMaxGapPct weeks clock).start
      (Lib.Calendar.yearStart (-9999) * 86400000 - MetricsResolution.maxBucketMs -
        maxWatermarkLagMs) where
  services := (@Coherent.ofLoad ⟨.empty, .empty⟩ .empty rfl).1
  ahead := by
    intro now cutoffMs _ found
    have first := (retentionCutoffMs_dates found).1
    omega
  accounted := by
    refine ⟨fun _ member => absurd member List.not_mem_nil,
      fun _ member => absurd member List.not_mem_nil, fun _ member => absurd member List.not_mem_nil,
      fun resolution _ _ member => ?_, fun _ _ _ stored => absurd stored (Option.some_ne_none _).symm⟩
    cases resolution <;> exact absurd member List.not_mem_nil

theorem RetentionInv.intern (inv : RetentionInv weeks run reclaimMs) {name : String}
    (forward : run.clock ≤ now) {next : RetentionRun} {sid : ServiceId}
    (interned : run.intern name now = some (next, sid)) :
    RetentionInv weeks next reclaimMs ∧
      SeenOrExpired next.stores.services reclaimMs sid (now - maxWatermarkLagMs) := by
  unfold RetentionRun.intern at interned
  cases answered : run.stores.services.idOf name now none with
  | mk services result =>
      rw [answered] at interned
      cases result with
      | error fault => cases interned
      | ok answer =>
          cases interned
          obtain ⟨coherent, seen, kept⟩ := inv.services.idOf answered
          refine ⟨⟨coherent, ?_, ?_⟩, .inl (seen.earlier (by omega))⟩
          · intro later cutoffMs le
            exact inv.ahead later cutoffMs (forward.trans le)
          · have accounted := inv.accounted.imp fun sid floor => Or.imp_left (kept sid floor)
            exact ⟨accounted.sampled, accounted.flushed, accounted.fine, accounted.coarse,
              accounted.checkpoints⟩

/-- What a pass spares is newer than what it reclaims. -/
theorem RetentionInv.cleanup (inv : RetentionInv weeks run reclaimMs) (forward : run.clock ≤ now)
    (cleaned : cleanupOnce {} weeks now run.stores = some after) :
    (∃ reclaimMs, RetentionInv weeks { run with stores := after, clock := now } reclaimMs) ∧
      References after := by
  obtain ⟨cutoffMs, found, rows, checkpoints, services⟩ := cleanupOnce_spec cleaned
  have later := inv.ahead now cutoffMs forward found
  obtain ⟨coherent, kept⟩ := inv.services.reclaimBefore
    (cutoffMs - MetricsResolution.maxBucketMs - maxWatermarkLagMs)
  rw [← services] at coherent kept
  have accounted : Accounted (SeenOrExpired after.services
      (cutoffMs - MetricsResolution.maxBucketMs - maxWatermarkLagMs)) run := by
    refine inv.accounted.imp fun sid floor known => ?_
    rcases known with seen | expired
    · exact kept sid floor seen
    · exact .inr (expired.trans_le later)
  have spared : ∀ sid cid checkpoint, after.checkpoints sid cid = some checkpoint →
      run.stores.checkpoints sid cid = some checkpoint ∧ cutoffMs ≤ checkpoint.ts := by
    intro sid cid checkpoint stored
    rw [checkpoints] at stored
    obtain ⟨old, recent⟩ := Option.filter_eq_some_iff.mp stored
    exact ⟨old, by simpa using recent⟩
  refine ⟨⟨_, coherent, ?_, accounted.sampled, accounted.flushed, ?_, ?_, ?_⟩, ?_, ?_⟩
  · intro next nextCutoff le nextFound
    have mono := retentionCutoffMs_mono le found nextFound
    omega
  · intro row member
    exact accounted.fine row (rows _ row member).1
  · intro resolution coarse row member
    exact accounted.coarse resolution coarse row (rows _ row member).1
  · intro sid cid checkpoint stored
    exact accounted.checkpoints sid cid checkpoint (spared sid cid checkpoint stored).1
  · intro resolution row member
    obtain ⟨old, recent⟩ := rows resolution row member
    rcases accounted.row (fun _ _ _ known => known.lower) old with seen | expired
    · exact coherent.known seen
    · omega
  · intro sid cid checkpoint stored
    obtain ⟨old, recent⟩ := spared sid cid checkpoint stored
    have wide : 0 ≤ MetricsResolution.maxBucketMs := by decide
    rcases accounted.checkpoints sid cid checkpoint old with seen | expired
    · exact coherent.known seen
    · omega

theorem RetentionInv.restart (inv : RetentionInv weeks run reclaimMs) {services : ServiceRegistry}
    (loaded : ServiceRegistry.load run.stores.services.store = .ok services) :
    RetentionInv weeks { run with stores := { run.stores with
      metrics := .connect run.stores.metrics.db run.stores.metrics.downsampleMaxGapPct
      services } } reclaimMs := by
  obtain ⟨coherent, same⟩ := Coherent.ofLoad loaded
  have accounted : Accounted (SeenOrExpired services reclaimMs) run := by
    refine inv.accounted.imp fun sid floor known => ?_
    rwa [SeenOrExpired, same]
  exact ⟨coherent, inv.ahead, accounted.sampled, accounted.flushed, accounted.fine,
    accounted.coarse, accounted.checkpoints⟩

theorem RetentionInv.step (inv : RetentionInv weeks run reclaimMs) {event : RetentionEvent}
    (inOrder : InOrder run event) {next : RetentionRun}
    (taken : run.step search weeks event = some next) :
    ∃ reclaimMs, RetentionInv weeks next reclaimMs := by
  have lower : ∀ sid floor lower, SeenOrExpired run.stores.services reclaimMs sid floor →
      lower ≤ floor → SeenOrExpired run.stores.services reclaimMs sid lower :=
    fun _ _ _ known => known.lower
  cases event with
  | sample cid name ts now =>
      obtain ⟨⟨interned, sid⟩, answered, rfl⟩ := Option.map_eq_some_iff.mp taken
      obtain ⟨inv, seen⟩ := inv.intern inOrder.1 answered
      refine ⟨reclaimMs, inv.services, inv.ahead, ?_, inv.accounted.flushed, inv.accounted.fine,
        inv.accounted.coarse, inv.accounted.checkpoints⟩
      refine List.forall_mem_cons.mpr ⟨seen.lower ?_, inv.accounted.sampled⟩
      exact sub_le_sub_right inOrder.2 _
  | bucket order rows =>
      cases taken
      exact ⟨reclaimMs, inv.services, inv.ahead,
        inv.accounted.bucket lower inOrder search order⟩
  | append fates service lines =>
      cases taken
      exact ⟨reclaimMs, inv.services, inv.ahead, inv.accounted.sampled, inv.accounted.flushed,
        inv.accounted.fine, inv.accounted.coarse, inv.accounted.checkpoints⟩
  | flush name now =>
      obtain ⟨⟨interned, sid⟩, answered, rfl⟩ := Option.map_eq_some_iff.mp taken
      obtain ⟨inv, seen⟩ := inv.intern inOrder answered
      exact ⟨reclaimMs, inv.services, inv.ahead, inv.accounted.sampled,
        List.forall_mem_cons.mpr ⟨seen, inv.accounted.flushed⟩, inv.accounted.fine,
        inv.accounted.coarse, inv.accounted.checkpoints⟩
  | checkpoint sid cid checkpoint =>
      cases taken
      exact ⟨reclaimMs, inv.services, inv.ahead, inv.accounted.checkpoint lower inOrder⟩
  | cleanup now =>
      obtain ⟨stores, cleaned, rfl⟩ := Option.map_eq_some_iff.mp taken
      exact (inv.cleanup inOrder cleaned).1
  | restart =>
      unfold RetentionRun.step at taken
      cases loaded : ServiceRegistry.load run.stores.services.store with
      | error fault =>
          rw [loaded] at taken
          cases taken
      | ok services =>
          rw [loaded] at taken
          cases taken
          exact ⟨reclaimMs, inv.restart loaded⟩

theorem retentionInv_of_reachable
    (reached : (retentionMachine search downsampleMaxGapPct weeks clock).Reachable InOrder run) :
    ∃ reclaimMs, RetentionInv weeks run reclaimMs :=
  reached.invariant (fun run => ∃ reclaimMs, RetentionInv weeks run reclaimMs)
    ⟨_, RetentionInv.start⟩ fun ⟨_, inv⟩ inOrder taken => inv.step inOrder taken

/-- After every pass, each row and each checkpoint that is left has its service. -/
theorem cleanup_keeps_references
    (reached : (retentionMachine search downsampleMaxGapPct weeks clock).Reachable InOrder run)
    (forward : run.clock ≤ now) (cleaned : cleanupOnce {} weeks now run.stores = some after) :
    References after := by
  obtain ⟨reclaimMs, inv⟩ := retentionInv_of_reachable reached
  exact (inv.cleanup forward cleaned).2

/-! ## One run -/

instance (run : RetentionRun) : (event : RetentionEvent) → Decidable (InOrder run event)
  | .sample _ _ _ _ => inferInstanceAs (Decidable (_ ∧ _))
  | .bucket _ rows => inferInstanceAs (Decidable (∀ row ∈ rows, ∃ sample ∈ run.sampled, _))
  | .append _ _ _ => inferInstanceAs (Decidable True)
  | .flush _ _ => inferInstanceAs (Decidable (_ ≤ _))
  | .checkpoint _ _ _ => inferInstanceAs (Decidable (∃ flush ∈ run.flushed, _))
  | .cleanup _ => inferInstanceAs (Decidable (_ ≤ _))
  | .restart => inferInstanceAs (Decidable True)

def idleRow (cid : Nat) (sid : UInt32) (ts : Int) : ContainerSample :=
  ⟨ts, ⟨sid⟩, ⟨cid⟩, 0, 0, none, none, none, none⟩

/-- A service goes silent an hour before Monday; its hour closes on Monday, by a sample of
another service. -/
def silentBeforeMonday : List RetentionEvent := [
  .sample ⟨1⟩ "web" 342010000 342010000, .bucket .unchanged [idleRow 1 1 342010000],
  .flush "web" 342020000, .checkpoint ⟨1⟩ ⟨1⟩ ⟨342015000, 0⟩,
  .sample ⟨2⟩ "db" 345610000 345610000, .bucket .unchanged [idleRow 2 2 345610000]]

/-- The hour row stays, and so does its service, which was last seen before the cutoff. -/
theorem cleanup_keeps_references_of_silent : ∃ run after,
    (retentionMachine .firstFailing 100 0 0).Reachable InOrder run ∧
      cleanupOnce {} 0 345620000 run.stores = some after ∧
      (after.metrics.db.containers .oneHour).rows.map (fun row => (row.service.raw, row.ts)) =
        [(1, 345600000)] ∧ References after := by
  have done : (((retentionMachine .firstFailing 100 0 0).run
      (fun run event => decide (InOrder run event)) (retentionMachine .firstFailing 100 0 0).start
      silentBeforeMonday).bind fun run => (cleanupOnce {} 0 345620000 run.stores).map fun after =>
        (run.clock, (after.metrics.db.containers .oneHour).rows.map fun row =>
          (row.service.raw, row.ts))) = some (345610000, [(1, 345600000)]) := by
    decide +kernel
  obtain ⟨run, taken, rest⟩ := Option.bind_eq_some_iff.mp done
  obtain ⟨after, cleaned, rows⟩ := Option.map_eq_some_iff.mp rest
  obtain ⟨clock, hours⟩ := Prod.mk.inj rows
  have reached := Machine.Reachable.start.run (fun _ _ => of_decide_eq_true) taken
  refine ⟨run, after, reached, cleaned, hours, cleanup_keeps_references reached ?_ cleaned⟩
  rw [clock]
  decide

end Retention

end Vpsiner
