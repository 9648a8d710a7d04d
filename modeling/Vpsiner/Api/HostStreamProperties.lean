import Vpsiner.Api.HostStream
import Vpsiner.Metrics.HostHistory
import Vpsiner.Metrics.StoreProperties

/-! When the host stream delivers every stored bucket once and in order. It forwards
one row for each wake-up, so every wake-up has to find exactly one new row. -/

set_option autoImplicit false

namespace Vpsiner.Api

open Lib Metrics

namespace HostStreamSystem

/-- The points a connection is due: the rows stored from its `from` on. -/
def due (system : HostStreamSystem) (connection : HostConnection) : List HostPoint :=
  ((system.rows connection.resolution).filter fun row => connection.fromMs ≤ row.ts).map
    HostPoint.fromSample

/-- The stored rows up to `stop` that are due and not sent. -/
def unsent (system : HostStreamSystem) (connection : HostConnection) (stop : Int) :
    List HostSample :=
  (system.rows connection.resolution).filter fun row =>
    connection.fromMs ≤ row.ts ∧ row.ts ≤ stop ∧ row.ts ∉ connection.sent.map HostPoint.ts

/-- The connection sleeps and has processed its last notification. -/
def Idle (system : HostStreamSystem) (connection : HostConnection) : Prop :=
  (∃ lastSent, connection.state = .waiting lastSent) ∧
    (system.channel connection.resolution).tx.hasChanged connection.rx = false

/-- What was sent is in timestamp order and, once the last notification is processed, is
the run of due rows that reaches through every row this notification announced. -/
structure DeliversExactly (system : HostStreamSystem) (connection : HostConnection) : Prop where
  increasing : (connection.sent.map HostPoint.ts).Pairwise (· < ·)
  due : system.Idle connection → connection.sent <+: system.due connection
  announced : system.Idle connection → ∀ ts ∈ connection.announced, connection.fromMs ≤ ts →
    ts ∈ connection.sent.map HostPoint.ts

/-- An insert writes only after the last row sent. An answer holds one row after that row, or at
most one row while nothing was sent. Before anything was sent no notification is for the very
instant the connection asked from while a row is stored there. -/
def OneNewRow (system : HostStreamSystem) (action : HostStreamAction) : Prop :=
  ∀ connection, system.connection = some connection →
    match action with
    | .insert sample => ∀ last ∈ connection.sent.getLast?, ∀ ts,
        system.store.WritesAt sample connection.resolution ts → last.ts < ts
    | .wake => connection.sent = [] → connection.state = .waiting connection.fromMs →
        (system.channel connection.resolution).tx.value = connection.fromMs →
          ∀ row ∈ system.rows connection.resolution, row.ts ≠ connection.fromMs
    | .query => ∀ lastSent stop, connection.state = .querying lastSent stop →
        if connection.sent = [] then
          ((system.rows connection.resolution).filter fun row =>
            lastSent ≤ row.ts ∧ row.ts ≤ stop).length ≤ 1
        else
          ((system.rows connection.resolution).filter fun row =>
            lastSent < row.ts ∧ row.ts ≤ stop).length = 1
    | _ => True

structure Tracks (system : HostStreamSystem) (connection : HostConnection) : Prop where
  due : connection.sent <+: system.due connection
  seen : connection.rx ≤ (system.channel connection.resolution).tx.version
  stored : ∀ ts ∈ connection.announced, ∃ row ∈ system.rows connection.resolution, row.ts = ts
  bounded : ∀ ts ∈ connection.announced, ts ≤ (system.channel connection.resolution).tx.value
  cursor : match connection.state with
    | .initial range => connection.sent = [] ∧ range.fromMs = connection.fromMs
    | .waiting lastSent =>
        lastSent = (connection.sent.getLast?.map HostPoint.ts).getD connection.fromMs
    | .querying lastSent stop => lastSent < stop ∧
        lastSent = (connection.sent.getLast?.map HostPoint.ts).getD connection.fromMs
  quiet : connection.rx = (system.channel connection.resolution).tx.version →
    match connection.state with
    | .initial _ => connection.announced = []
    | .waiting _ => ∀ ts ∈ connection.announced, connection.fromMs ≤ ts →
        ts ∈ connection.sent.map HostPoint.ts
    | .querying _ stop => ∀ ts ∈ connection.announced, ts ≤ stop

theorem ordered_due (system : HostStreamSystem) (connection : HostConnection) :
    (system.due connection).Pairwise fun earlier later => earlier.ts < later.ts :=
  List.pairwise_map.mpr ((system.store.db.host connection.resolution).ordered.filter _)

theorem Tracks.delivers {system : HostStreamSystem} {connection : HostConnection}
    (tracks : system.Tracks connection) : system.DeliversExactly connection where
  increasing := List.pairwise_map.mpr ((ordered_due system connection).sublist tracks.due.sublist)
  due := fun _ => tracks.due
  announced := by
    rintro ⟨⟨lastSent, waiting⟩, unchanged⟩
    have quiet := tracks.quiet (by simpa [Watch.hasChanged] using unchanged)
    rw [waiting] at quiet
    exact quiet

/-! ## One answer of the store -/

section Answer

variable {rows front : List HostSample} {fromMs stop : Int}

private def cursorOf (fromMs : Int) (front : List HostSample) : Int :=
  (front.getLast?.map HostSample.ts).getD fromMs

private theorem from_le_cursorOf (run : front <+: rows.filter fun row => fromMs ≤ row.ts) :
    fromMs ≤ cursorOf fromMs front := by
  unfold cursorOf
  cases newest : front.getLast? with
  | none => exact le_refl _
  | some last =>
      have member := run.subset (List.mem_of_getLast? newest)
      simpa using (List.mem_filter.mp member).2

private theorem split_at_unsent
    (ordered : rows.Pairwise fun earlier later => earlier.ts < later.ts)
    (run : front <+: rows.filter fun row => fromMs ≤ row.ts) {row : HostSample}
    (single : (rows.filter fun row =>
      fromMs ≤ row.ts ∧ row.ts ≤ stop ∧ row.ts ∉ front.map HostSample.ts) = [row]) :
    ∃ rest, rows.filter (fun row => fromMs ≤ row.ts) = front ++ row :: rest ∧ row.ts ≤ stop ∧
      ∀ later ∈ rest, stop < later.ts := by
  obtain ⟨back, split⟩ := run
  have sorted : (front ++ back).Pairwise fun earlier later => earlier.ts < later.ts :=
    split ▸ ordered.filter _
  obtain ⟨-, backSorted, apart⟩ := List.pairwise_append.mp sorted
  have remaining : back.filter (fun row => row.ts ≤ stop) = [row] := by
    have regroup : (rows.filter fun row =>
        fromMs ≤ row.ts ∧ row.ts ≤ stop ∧ row.ts ∉ front.map HostSample.ts) =
          (front ++ back).filter fun row =>
            row.ts ≤ stop ∧ row.ts ∉ front.map HostSample.ts := by
      rw [split, List.filter_filter]
      exact List.filter_congr fun row _ => by simp only [Bool.decide_and, Bool.and_comm]
    have sent : front.filter (fun row =>
        row.ts ≤ stop ∧ row.ts ∉ front.map HostSample.ts) = [] := by
      refine List.filter_eq_nil_iff.mpr fun earlier member unsent => ?_
      exact (of_decide_eq_true unsent).2 (List.mem_map_of_mem member)
    rw [← single, regroup, List.filter_append, sent, List.nil_append]
    refine List.filter_congr fun later member => ?_
    have fresh : later.ts ∉ front.map HostSample.ts := by
      rintro present
      obtain ⟨earlier, earlierMember, same⟩ := List.mem_map.mp present
      exact (apart earlier earlierMember later member).ne same
    rw [decide_eq_decide]
    exact (and_iff_left fresh).symm
  cases back with
  | nil => cases remaining
  | cons head rest =>
      obtain ⟨first, restSorted⟩ := List.pairwise_cons.mp backSorted
      by_cases reached : head.ts ≤ stop
      · rw [List.filter_cons, if_pos (decide_eq_true reached)] at remaining
        obtain ⟨rfl, none⟩ := List.cons.inj remaining
        refine ⟨rest, split.symm, reached, fun later member => ?_⟩
        simpa using List.filter_eq_nil_iff.mp none later member
      · have none : (head :: rest).filter (fun row => row.ts ≤ stop) = [] := by
          refine List.filter_eq_nil_iff.mpr fun later member => ?_
          rcases List.mem_cons.mp member with rfl | inRest
          · simpa using reached
          · have := first later inRest
            simp only [decide_eq_true_eq]
            omega
        rw [none] at remaining
        cases remaining

/-- The row forwarded from an inclusive answer is that single unsent row. -/
private theorem getLast?_answer
    (ordered : rows.Pairwise fun earlier later => earlier.ts < later.ts)
    (run : front <+: rows.filter fun row => fromMs ≤ row.ts) {row : HostSample}
    {rest : List HostSample}
    (split : rows.filter (fun row => fromMs ≤ row.ts) = front ++ row :: rest)
    (reached : row.ts ≤ stop) (beyond : ∀ later ∈ rest, stop < later.ts) :
    (rows.filter fun row =>
      (⟨cursorOf fromMs front, stop⟩ : TimeRange).contains row.ts).getLast? = some row := by
  have start := from_le_cursorOf run
  have regroup : (rows.filter fun row =>
      (⟨cursorOf fromMs front, stop⟩ : TimeRange).contains row.ts) =
        (front ++ row :: rest).filter fun row =>
          (⟨cursorOf fromMs front, stop⟩ : TimeRange).contains row.ts := by
    rw [← split, List.filter_filter]
    refine List.filter_congr fun other _ => ?_
    rw [Bool.eq_iff_iff, Bool.and_eq_true, TimeRange.contains_iff, decide_eq_true_eq]
    simp only
    omega
  have cursor : cursorOf fromMs front ≤ row.ts := by
    unfold cursorOf
    cases newest : front.getLast? with
    | none =>
        have member : row ∈ rows.filter fun row => fromMs ≤ row.ts := by simp [split]
        simpa using (List.mem_filter.mp member).2
    | some last =>
        have sorted : (front ++ row :: rest).Pairwise fun earlier later => earlier.ts < later.ts :=
          split ▸ ordered.filter _
        exact ((List.pairwise_append.mp sorted).2.2 last (List.mem_of_getLast? newest) row
          List.mem_cons_self).le
  have none : rest.filter (fun row =>
      (⟨cursorOf fromMs front, stop⟩ : TimeRange).contains row.ts) = [] := by
    refine List.filter_eq_nil_iff.mpr fun later member inside => ?_
    have := beyond later member
    have := (TimeRange.contains_iff.mp inside).2
    simp only at this
    omega
  rw [regroup, List.filter_append, List.filter_cons,
    if_pos (TimeRange.contains_iff.mpr ⟨cursor, reached⟩), none, List.getLast?_concat]

end Answer

/-! ## Steps -/

variable {system : HostStreamSystem} {connection : HostConnection}

theorem exists_sent_rows (run : connection.sent <+: system.due connection) :
    ∃ front, front <+: (system.rows connection.resolution).filter
        (fun row => connection.fromMs ≤ row.ts) ∧
      connection.sent = front.map HostPoint.fromSample := by
  refine ⟨_, List.take_prefix connection.sent.length _, ?_⟩
  rw [List.map_take]
  exact List.prefix_iff_eq_take.mp run

private theorem sent_ts (front : List HostSample) :
    (front.map HostPoint.fromSample).map HostPoint.ts = front.map HostSample.ts := by
  simp [Function.comp_def]

private theorem cursor_sent (front : List HostSample) (fromMs : Int) :
    ((front.map HostPoint.fromSample).getLast?.map HostPoint.ts).getD fromMs =
      cursorOf fromMs front := by
  rw [cursorOf, List.getLast?_map, Option.map_map]
  rfl

/-- Of the rows a connection is due those up to the last one sent were sent. -/
theorem mem_sent_iff (run : connection.sent <+: system.due connection) {last : HostPoint}
    (newest : connection.sent.getLast? = some last) {row : HostSample}
    (stored : row ∈ system.rows connection.resolution) (start : connection.fromMs ≤ row.ts) :
    row.ts ∈ connection.sent.map HostPoint.ts ↔ row.ts ≤ last.ts := by
  have ordered := ordered_due system connection
  have member : HostPoint.fromSample row ∈ system.due connection :=
    List.mem_map_of_mem (List.mem_filter.mpr ⟨stored, decide_eq_true start⟩)
  obtain ⟨back, split⟩ := run
  rw [← split] at ordered member
  obtain ⟨sentOrdered, -, apart⟩ := List.pairwise_append.mp ordered
  constructor
  · intro sent
    obtain ⟨point, present, same⟩ := List.mem_map.mp sent
    rw [← same]
    exact Paging.Ascending.le_getLast? sentOrdered newest present
  · intro early
    rcases List.mem_append.mp member with sent | later
    · exact List.mem_map.mpr ⟨_, sent, rfl⟩
    · exact absurd early (not_le.mpr (apart last (List.mem_of_getLast? newest) _ later))

theorem unsent_of_sent (run : connection.sent <+: system.due connection) {last : HostPoint}
    (newest : connection.sent.getLast? = some last) (stop : Int) :
    system.unsent connection stop = (system.rows connection.resolution).filter fun row =>
      last.ts < row.ts ∧ row.ts ≤ stop := by
  have sent : HostPoint.ts last ∈ connection.sent.map HostPoint.ts :=
    List.mem_map_of_mem (List.mem_of_getLast? newest)
  obtain ⟨front, due, shape⟩ := exists_sent_rows run
  have start : connection.fromMs ≤ last.ts := by
    rw [shape, sent_ts] at sent
    obtain ⟨row, member, same⟩ := List.mem_map.mp sent
    rw [← same]
    simpa using (List.mem_filter.mp (due.subset member)).2
  refine List.filter_congr fun row stored => ?_
  rw [decide_eq_decide]
  constructor
  · rintro ⟨from_, reached, fresh⟩
    rw [mem_sent_iff run newest stored from_, not_le] at fresh
    exact ⟨fresh, reached⟩
  · rintro ⟨later, reached⟩
    have from_ := start.trans later.le
    rw [mem_sent_iff run newest stored from_, not_le]
    exact ⟨from_, reached, later⟩

theorem unsent_of_none (nothing : connection.sent = []) (stop : Int) :
    system.unsent connection stop = (system.rows connection.resolution).filter fun row =>
      connection.fromMs ≤ row.ts ∧ row.ts ≤ stop := by
  simp [unsent, nothing]

theorem Tracks.snapshot (tracks : system.Tracks connection) {range : TimeRange}
    (initial : connection.state = .initial range) :
    system.Tracks (connection.snapshot range
      (system.store.queryHost range connection.resolution)) where
  due := by
    have same := tracks.cursor
    rw [initial] at same
    have cut : selectHost system.store.db connection.resolution range =
        ((system.rows connection.resolution).filter fun row => connection.fromMs ≤ row.ts).filter
          fun row => row.ts ≤ range.toMs := by
      rw [List.filter_filter, selectHost, KeyedTable.select, rows]
      refine List.filter_congr fun row _ => ?_
      rw [Bool.eq_iff_iff, TimeRange.contains_iff, Bool.and_eq_true, decide_eq_true_eq,
        decide_eq_true_eq, same.2]
      exact and_comm
    have cutPrefix : Partitioned (fun row : HostSample => decide (row.ts ≤ range.toMs))
        ((system.rows connection.resolution).filter fun row => connection.fromMs ≤ row.ts) :=
      Partitioned.of_sorted ((system.store.db.host connection.resolution).ordered.filter _)
        fun below holds => by
          simp only [decide_eq_true_eq] at holds ⊢
          exact below.le.trans holds
    rw [HostConnection.snapshot, SqliteMetricsStore.queryHost, cut,
      ← cutPrefix.takeWhile_eq_filter]
    exact (List.takeWhile_prefix _).map _
  seen := tracks.seen
  stored := tracks.stored
  bounded := tracks.bounded
  cursor := by
    have same := tracks.cursor
    rw [initial] at same
    simp only [HostConnection.snapshot, same.2]
  quiet := by
    intro unchanged
    have none := tracks.quiet unchanged
    rw [initial] at none
    simp only [HostConnection.snapshot]
    rw [none]
    intro _ changed
    cases changed

theorem Tracks.wake (tracks : system.Tracks connection) {lastSent : Int}
    (waiting : connection.state = .waiting lastSent)
    (news : (system.channel connection.resolution).tx.value ≤ lastSent →
      system.unsent connection (system.channel connection.resolution).tx.value = []) :
    system.Tracks (connection.wake (system.channel connection.resolution).tx lastSent) where
  due := tracks.due
  seen := le_refl _
  stored := tracks.stored
  bounded := tracks.bounded
  cursor := by
    have same := tracks.cursor
    rw [waiting] at same
    unfold HostConnection.wake
    split
    · next stale => split at stale <;> cases stale
    · next shown =>
        split at shown
        · cases shown
          exact same
        · cases shown
    · next shown =>
        split at shown
        · cases shown
        · next fresh =>
            cases shown
            exact ⟨not_le.mp fresh, same⟩
  quiet := by
    intro _
    unfold HostConnection.wake
    split
    · next stale => split at stale <;> cases stale
    · next shown =>
        split at shown
        · next stale =>
            cases shown
            intro ts member start
            obtain ⟨row, present, rfl⟩ := tracks.stored ts member
            by_contra absent
            have unsent := List.filter_eq_nil_iff.mp (news stale) row present
            exact unsent (decide_eq_true ⟨start, tracks.bounded _ member, absent⟩)
        · cases shown
    · next shown =>
        split at shown
        · cases shown
        · cases shown
          exact tracks.bounded

theorem Tracks.query (tracks : system.Tracks connection) {lastSent stop : Int}
    (querying : connection.state = .querying lastSent stop)
    (single : (system.unsent connection stop).length = 1 ∨
      system.store.queryHost ⟨lastSent, stop⟩ connection.resolution = []) :
    system.Tracks (connection.answer lastSent
      (system.store.queryHost ⟨lastSent, stop⟩ connection.resolution)) := by
  have ordered := (system.store.db.host connection.resolution).ordered
  obtain ⟨front, run, sent⟩ := exists_sent_rows tracks.due
  have cursor := tracks.cursor
  have quiet := tracks.quiet
  rw [querying] at cursor quiet
  rw [sent, cursor_sent] at cursor
  obtain ⟨before, rfl⟩ := cursor
  rcases single with one | none
  · obtain ⟨row, shape⟩ := List.length_eq_one_iff.mp one
    rw [unsent, sent, sent_ts] at shape
    obtain ⟨rest, split, reached, beyond⟩ := split_at_unsent ordered run shape
    have answer : (system.store.queryHost ⟨cursorOf connection.fromMs front, stop⟩
        connection.resolution).getLast? = some (HostPoint.fromSample row) := by
      rw [SqliteMetricsStore.queryHost, List.getLast?_map, selectHost, KeyedTable.select,
        getLast?_answer ordered run split reached beyond]
      rfl
    rw [HostConnection.answer, answer]
    refine ⟨?_, tracks.seen, tracks.stored, tracks.bounded, ?_, ?_⟩
    · have due : system.due connection = (front ++ row :: rest).map HostPoint.fromSample :=
        congrArg (List.map HostPoint.fromSample) split
      change connection.sent ++ [HostPoint.fromSample row] <+: system.due connection
      rw [due, sent]
      exact ⟨rest.map HostPoint.fromSample, by simp⟩
    · simp
    · intro unchanged ts member start
      obtain ⟨other, present, rfl⟩ := tracks.stored ts member
      have inDue : other ∈ front ++ row :: rest := by
        rw [← split]
        exact List.mem_filter.mpr ⟨present, decide_eq_true start⟩
      have upToStop := quiet unchanged _ member
      rw [sent, List.map_append, sent_ts]
      rcases List.mem_append.mp inDue with earlier | later
      · exact List.mem_append_left _ (List.mem_map_of_mem earlier)
      · rcases List.mem_cons.mp later with rfl | afterwards
        · simp
        · exact absurd upToStop (not_le.mpr (beyond other afterwards))
  · have outside : ∀ row ∈ system.rows connection.resolution,
        ¬ (cursorOf connection.fromMs front ≤ row.ts ∧ row.ts ≤ stop) := by
      intro row member inside
      have empty := List.map_eq_nil_iff.mp none
      exact List.filter_eq_nil_iff.mp empty row member (TimeRange.contains_iff.mpr inside)
    have nothing : front = [] := by
      cases newest : front.getLast? with
      | none => exact List.getLast?_eq_none_iff.mp newest
      | some last =>
          have member := (List.mem_filter.mp (run.subset (List.mem_of_getLast? newest))).1
          have shape : cursorOf connection.fromMs front = last.ts := by simp [cursorOf, newest]
          exact absurd ⟨shape.le, shape ▸ before.le⟩ (outside last member)
    have silent : connection.answer (cursorOf connection.fromMs front) [] =
        { connection with state := .waiting (cursorOf connection.fromMs front) } := rfl
    rw [none, silent]
    refine ⟨tracks.due, tracks.seen, tracks.stored, tracks.bounded, ?_, ?_⟩
    · simp only [sent, cursor_sent]
    · intro unchanged ts member start
      obtain ⟨other, present, rfl⟩ := tracks.stored ts member
      have upToStop := quiet unchanged _ member
      refine absurd ⟨?_, upToStop⟩ (outside other present)
      simpa [nothing, cursorOf] using start

theorem Tracks.announce (tracks : system.Tracks connection) (after : HostStreamSystem)
    (sameStore : after.store = system.store)
    (moved : after.channel connection.resolution = system.channel connection.resolution ∨
      (after.channel connection.resolution).tx.version =
        (system.channel connection.resolution).tx.version + 1) :
    after.Tracks (connection.announce (system.channel connection.resolution)
      (after.channel connection.resolution) (system.rows connection.resolution)) := by
  have sameRows : after.rows = system.rows := by
    funext resolution
    rw [rows, rows, sameStore]
  have sameDue : after.due = system.due := by
    funext other
    rw [HostStreamSystem.due, HostStreamSystem.due, sameRows]
  have seen := tracks.seen
  rcases moved with same | sent
  · rw [HostConnection.announce, if_pos (by rw [same])]
    exact ⟨sameDue ▸ tracks.due, same ▸ seen, sameRows ▸ tracks.stored, same ▸ tracks.bounded,
      tracks.cursor, same ▸ tracks.quiet⟩
  · rw [HostConnection.announce, if_neg (by omega)]
    refine ⟨sameDue ▸ tracks.due, ?_, ?_, ?_, tracks.cursor, ?_⟩
    · change connection.rx ≤ (after.channel connection.resolution).tx.version
      omega
    · intro ts member
      rw [sameRows]
      exact List.mem_map.mp (List.mem_filter.mp member).1
    · intro ts member
      simpa using (List.mem_filter.mp member).2
    · intro unchanged
      change connection.rx = (after.channel connection.resolution).tx.version at unchanged
      omega

/-- What is written after the last row sent leaves the rows up to it as they were. -/
theorem sent_isPrefix_of_writes {after : HostStreamSystem}
    (run : connection.sent <+: system.due connection)
    {touched : MetricsResolution → Int → Prop}
    (writes : HostWrites touched system.store.db after.store.db)
    (ahead : ∀ last ∈ connection.sent.getLast?, ∀ ts, touched connection.resolution ts →
      last.ts < ts) : connection.sent <+: after.due connection := by
  cases newest : connection.sent.getLast? with
  | none =>
      rw [List.getLast?_eq_none_iff.mp newest]
      exact List.nil_prefix
  | some last =>
      have sentIsCut : connection.sent =
          (system.due connection).filter fun point => point.ts ≤ last.ts := by
        have ordered := ordered_due system connection
        obtain ⟨back, split⟩ := run
        rw [← split] at ordered ⊢
        obtain ⟨sentOrdered, -, apart⟩ := List.pairwise_append.mp ordered
        rw [List.filter_append, List.filter_eq_self.mpr, List.filter_eq_nil_iff.mpr,
          List.append_nil]
        · intro later member
          simpa using apart last (List.mem_of_getLast? newest) later member
        · intro point member
          simpa using Paging.Ascending.le_getLast? sentOrdered newest member
      have sameCut : ((after.due connection).filter fun point => point.ts ≤ last.ts) =
          (system.due connection).filter fun point => point.ts ≤ last.ts := by
        simp only [due, List.filter_map, List.filter_filter]
        congr 1
        apply Paging.Ascending.eq_of_mem_iff
          ((after.store.db.host connection.resolution).ordered.filter _)
          ((system.store.db.host connection.resolution).ordered.filter _)
        intro row
        rw [List.mem_filter, List.mem_filter]
        refine and_congr_left fun inside => ?_
        have early : row.ts ≤ last.ts := of_decide_eq_true (Bool.and_eq_true_iff.mp inside).1
        exact writes.untouched fun touches => absurd early (not_le.mpr (ahead last newest _ touches))
      have cutPrefix : Partitioned (fun point : HostPoint => decide (point.ts ≤ last.ts))
          (after.due connection) :=
        Partitioned.of_sorted (ordered_due after connection) fun below holds => by
          simp only [decide_eq_true_eq] at holds ⊢
          exact below.le.trans holds
      rw [sentIsCut, ← sameCut, ← cutPrefix.takeWhile_eq_filter]
      exact List.takeWhile_prefix _

theorem Tracks.insert (tracks : system.Tracks connection) {search : PartitionPoint}
    {sample : HostSample} {after : HostStreamSystem}
    (inserted : system.insert search sample = some after)
    (ahead : ∀ last ∈ connection.sent.getLast?, ∀ ts,
      system.store.WritesAt sample connection.resolution ts → last.ts < ts) :
    after.connection = system.connection ∧ after.Tracks connection := by
  unfold HostStreamSystem.insert at inserted
  split at inserted
  · next store _ result =>
      cases inserted
      have writes := HostWrites.storeInsertHost result
      refine ⟨rfl, sent_isPrefix_of_writes tracks.due writes ahead, tracks.seen,
        fun ts member => ?_, tracks.bounded, tracks.cursor, tracks.quiet⟩
      obtain ⟨row, present, rfl⟩ := tracks.stored ts member
      exact writes.keeps present
  · cases inserted

theorem Tracks.connect {fromMs now : Int} {after : HostStreamSystem}
    (opened : system.connect fromMs now = some after) :
    ∀ connection, after.connection = some connection → after.Tracks connection := by
  unfold HostStreamSystem.connect at opened
  split at opened
  · cases opened
  · cases opened
    rintro connection ⟨⟩
    exact ⟨List.nil_prefix, le_refl _, nofun, nofun, ⟨rfl, rfl⟩, fun _ => rfl⟩

/-- The connection slot itself is no part of what is tracked. -/
theorem Tracks.setConnection (tracks : system.Tracks connection) (slot : Option HostConnection) :
    ({ system with connection := slot } : HostStreamSystem).Tracks connection :=
  ⟨tracks.due, tracks.seen, tracks.stored, tracks.bounded, tracks.cursor, tracks.quiet⟩

/-- A notification that is no news leaves nothing unsent. -/
theorem unsent_eq_nil_of_stale (tracks : system.Tracks connection) {lastSent stop : Int}
    (waiting : connection.state = .waiting lastSent) (stale : stop ≤ lastSent)
    (unasked : connection.sent = [] → stop = connection.fromMs →
      ∀ row ∈ system.rows connection.resolution, row.ts ≠ connection.fromMs) :
    system.unsent connection stop = [] := by
  have cursor := tracks.cursor
  rw [waiting] at cursor
  cases newest : connection.sent.getLast? with
  | none =>
      have nothing := List.getLast?_eq_none_iff.mp newest
      rw [newest, Option.map_none, Option.getD_none] at cursor
      rw [unsent_of_none nothing, List.filter_eq_nil_iff]
      intro row stored inside
      obtain ⟨start, reached⟩ := of_decide_eq_true inside
      exact unasked nothing (by omega) row stored (by omega)
  | some last =>
      rw [newest, Option.map_some, Option.getD_some] at cursor
      rw [unsent_of_sent tracks.due newest, List.filter_eq_nil_iff]
      intro row _ inside
      obtain ⟨later, reached⟩ := of_decide_eq_true inside
      omega

/-- An answer with one row too many or too few is no answer of the condition. -/
theorem single_of_count (tracks : system.Tracks connection) {lastSent stop : Int}
    (querying : connection.state = .querying lastSent stop)
    (count : if connection.sent = [] then
        ((system.rows connection.resolution).filter fun row =>
          lastSent ≤ row.ts ∧ row.ts ≤ stop).length ≤ 1
      else
        ((system.rows connection.resolution).filter fun row =>
          lastSent < row.ts ∧ row.ts ≤ stop).length = 1) :
    (system.unsent connection stop).length = 1 ∨
      system.store.queryHost ⟨lastSent, stop⟩ connection.resolution = [] := by
  have cursor := tracks.cursor
  rw [querying] at cursor
  obtain ⟨-, cursor⟩ := cursor
  cases newest : connection.sent.getLast? with
  | none =>
      have nothing := List.getLast?_eq_none_iff.mp newest
      rw [newest, Option.map_none, Option.getD_none] at cursor
      rw [if_pos nothing, cursor] at count
      rw [unsent_of_none nothing, cursor]
      rcases Nat.le_one_iff_eq_zero_or_eq_one.mp count with none | one
      · right
        have empty := List.eq_nil_of_length_eq_zero none
        rw [SqliteMetricsStore.queryHost, selectHost, KeyedTable.select, List.map_eq_nil_iff,
          List.filter_eq_nil_iff]
        intro row stored inside
        exact List.filter_eq_nil_iff.mp empty row stored
          (decide_eq_true (TimeRange.contains_iff.mp inside))
      · exact .inl one
  | some last =>
      have something : connection.sent ≠ [] := by
        rintro nothing
        simp [nothing] at newest
      rw [newest, Option.map_some, Option.getD_some] at cursor
      rw [if_neg something, cursor] at count
      rw [unsent_of_sent tracks.due newest]
      exact .inl count

theorem Tracks.poll (tracks : system.Tracks connection) {action : HostStreamAction}
    (open_ : system.connection = some connection) (single : system.OneNewRow action)
    {polled : HostConnection} (answered : system.poll action connection = some polled) :
    system.Tracks polled := by
  have condition := single connection open_
  unfold HostStreamSystem.poll at answered
  split at answered
  · next shown =>
      cases answered
      exact tracks.snapshot shown
  · next lastSent shown =>
      simp only at answered
      split at answered
      · cases answered
        refine tracks.wake shown fun stale => unsent_eq_nil_of_stale tracks shown stale ?_
        intro nothing asked
        have cursor := tracks.cursor
        rw [shown] at cursor
        have same : lastSent = connection.fromMs := by simpa [nothing] using cursor
        exact condition nothing (same ▸ shown) asked
      · cases answered
  · next lastSent stop shown =>
      cases answered
      exact tracks.query shown (single_of_count tracks shown (condition lastSent stop shown))
  · cases answered

theorem step_tracks {search : PartitionPoint} {before after : HostStreamSystem}
    {action : HostStreamAction}
    (tracks : ∀ connection, before.connection = some connection → before.Tracks connection)
    (single : before.OneNewRow action) (taken : before.step search action = some after) :
    ∀ connection, after.connection = some connection → after.Tracks connection := by
  intro connection opened
  cases action with
  | insert sample =>
      cases present : before.connection with
      | none =>
          have kept : after.connection = before.connection := by
            simp only [step, insert] at taken
            split at taken
            · cases taken
              rfl
            · cases taken
          rw [kept, present] at opened
          cases opened
      | some current =>
          obtain ⟨kept, tracked⟩ :=
            (tracks current present).insert taken (single current present)
          rw [kept, present] at opened
          cases opened
          exact tracked
  | observe =>
      obtain ⟨ts, -, rfl⟩ := Option.map_eq_some_iff.mp taken
      obtain ⟨current, present, rfl⟩ := Option.map_eq_some_iff.mp opened
      exact ((tracks current present).announce
        { before with
          watcher := before.watcher.observeSample .host ts
          unannounced := none } rfl
        (ResolutionChannel.observe_cases _ _ _)).setConnection _
  | restart =>
      cases taken
      cases opened
  | connect fromMs now => exact Tracks.connect taken connection opened
  | disconnect =>
      cases taken
      cases opened
  | snapshot | wake | query =>
      obtain ⟨current, present, rest⟩ := Option.bind_eq_some_iff.mp taken
      obtain ⟨polled, answered, shape⟩ := Option.bind_eq_some_iff.mp rest
      cases shape
      cases opened
      exact ((tracks current present).poll present single answered).setConnection _

end HostStreamSystem

open HostStreamSystem

/-- A run in which every wake-up finds one new row delivers every bucket once and in
order. -/
theorem hostStream_delivers_exactly {search : PartitionPoint} {maxGapPct : Nat}
    {system : HostStreamSystem}
    (reached : (hostStream search maxGapPct).Reachable
      HostStreamSystem.OneNewRow system)
    {connection : HostConnection} (opened : system.connection = some connection) :
    system.DeliversExactly connection := by
  have tracks : ∀ connection, system.connection = some connection → system.Tracks connection :=
    reached.invariant
      (fun system => ∀ connection, system.connection = some connection → system.Tracks connection)
      nofun step_tracks
  exact (tracks connection opened).delivers

theorem hostStream_delivers_snapshot_and_append : ∃ system : HostStreamSystem,
    ∃ connection, system.connection = some connection ∧
      connection.sent.map HostPoint.ts = [10000, 20000] ∧
        system.DeliversExactly connection := by
  have begun : (hostStream .binarySearch 100).Reachable OneNewRow _ := .start
  have connected := ((begun.step (.insert (idleHost 10000)) nofun rfl).step .observe nofun rfl).step
    (.connect 0 15000) nofun rfl
  have snapshot := connected.step .snapshot (fun _ _ => trivial) rfl
  have inserted := snapshot.step (.insert (idleHost 20000))
    (by
      rintro _ ⟨⟩ _ ⟨⟩ ts writes
      exact (by decide : (10000 : Int) < 20000).trans_eq (writesAt_tenSeconds.mp writes).symm) rfl
  have woken := (inserted.step .observe (fun _ _ => trivial) rfl).step .wake
    (by rintro _ ⟨⟩ ⟨⟩) rfl
  have answered := woken.step .query (by rintro _ ⟨⟩ _ _ ⟨⟩; decide) rfl
  exact ⟨_, _, rfl, rfl, hostStream_delivers_exactly answered rfl⟩

/-- Two samples are inserted and announced before the connection wakes. -/
def coalescedNotifications : List HostStreamAction := [
  .insert (idleHost 10000), .observe, .connect 0 15000, .snapshot,
  .insert (idleHost 20000), .observe, .insert (idleHost 30000), .observe, .wake, .query]

theorem hostStream_loses_row :
    ¬ ∀ (search : PartitionPoint) (maxGapPct : Nat) (system : HostStreamSystem),
        (hostStream search maxGapPct).Reachable Machine.anyStep system →
          ∀ connection, system.connection = some connection →
            system.DeliversExactly connection := by
  intro exact
  have delivered := exact .binarySearch 100 _
    (Machine.Reachable.of_run coalescedNotifications rfl) _ rfl
  have lost := delivered.announced ⟨⟨30000, rfl⟩, rfl⟩ 20000 (by decide) (by decide)
  revert lost
  decide

end Vpsiner.Api
