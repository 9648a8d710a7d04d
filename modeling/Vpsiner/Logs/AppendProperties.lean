import Vpsiner.Logs.StoreProperties

/-! What an append leaves in the store: the lines of the weeks that were committed, each
with a row id above all earlier ones of its week, and nothing else. -/

set_option autoImplicit false

namespace Vpsiner.Logs

open Vpsiner.Lib

def storedLine (service : String) (line : LogLine) : LogLine :=
  { line with service, level := detectLevel line.line }

/-- The entries grew by one new entry for each of the lines. -/
def Grown (service : String) (before : List StoredLog) (lines : List LogLine)
    (after : List StoredLog) : Prop :=
  ∃ added, after.Perm (before ++ added) ∧ added.map StoredLog.line = lines.map (storedLine service) ∧
    ∀ entry ∈ added, ∀ old ∈ before, old.week = entry.week → old.id < entry.id

namespace Grown

variable {service : String} {before middle after : List StoredLog} {lines more : List LogLine}

theorem refl (service : String) (before : List StoredLog) : Grown service before [] before :=
  ⟨[], by rw [List.append_nil], rfl, nofun⟩

theorem trans (first : Grown service before lines middle) (second : Grown service middle more after) :
    Grown service before (lines ++ more) after := by
  obtain ⟨added, entries, stored, fresh⟩ := first
  obtain ⟨addedLater, entriesLater, storedLater, freshLater⟩ := second
  refine ⟨added ++ addedLater, ?_, ?_, ?_⟩
  · rw [← List.append_assoc]
    exact entriesLater.trans (entries.append_right addedLater)
  · rw [List.map_append, List.map_append, stored, storedLater]
  · intro entry member old oldMember
    cases List.mem_append.mp member with
    | inl earlier => exact fresh entry earlier old oldMember
    | inr later =>
        exact freshLater entry later old
          (entries.mem_iff.mpr (List.mem_append_left _ oldMember))

theorem subset (grown : Grown service before lines after) : before ⊆ after := by
  obtain ⟨added, entries, _⟩ := grown
  intro entry member
  exact entries.mem_iff.mpr (List.mem_append_left _ member)

end Grown

/-! ## One week -/

theorem insertLines_eq_append (weekStart : Int) (lines : List LogLine) (rows : List LogRow) :
    ∃ added, insertLines weekStart lines rows = rows ++ added ∧
      List.Forall₂ (fun row line => ∃ id, row = LogRow.ofLine weekStart id line) added lines := by
  induction lines generalizing rows with
  | nil => exact ⟨[], (List.append_nil rows).symm, .nil⟩
  | cons line rest ih =>
      obtain ⟨added, inserted, each⟩ :=
        ih (rows ++ [LogRow.ofLine weekStart (nextId rows) line])
      refine ⟨LogRow.ofLine weekStart (nextId rows) line :: added, ?_, .cons ⟨_, rfl⟩ each⟩
      rw [insertLines, inserted, List.append_assoc, List.singleton_append]

theorem decodeRow_ofLine (service week : String) (weekStart id : Int) (line : LogLine) :
    decodeRow service week weekStart (LogRow.ofLine weekStart id line) =
      some ⟨line.ts, week, id, storedLine service line⟩ := by
  have code : (LogRow.ofLine weekStart id line).stream = line.stream.storageCode := rfl
  rw [decodeRow_eq_some code]
  have time : line.ts - weekStart + weekStart = line.ts := Int.sub_add_cancel _ _
  have level : ((detectLevel line.line).map LogLevel.storageCode).bind LogLevel.fromStorageCode =
      detectLevel line.line := by
    cases detectLevel line.line with
    | none => rfl
    | some level => exact LogLevel.fromStorageCode_storageCode level
  simp only [LogRow.ofLine, time, level, storedLine]

theorem lines_of_decoded {service week : String} {weekStart : Int} {rows : List LogRow}
    {lines : List LogLine}
    (each : List.Forall₂ (fun row line => ∃ id, row = LogRow.ofLine weekStart id line) rows lines) :
    (rows.filterMap (decodeRow service week weekStart)).map StoredLog.line =
      lines.map (storedLine service) := by
  induction each with
  | nil => rfl
  | cons head _ ih =>
      obtain ⟨id, rfl⟩ := head
      rw [List.filterMap_cons_some (decodeRow_ofLine _ _ _ _ _), List.map_cons, List.map_cons, ih]

theorem WeekDb.grown_insertAll (service : String) (db : WeekDb) {weekStart : Int}
    (start : databaseWeekStartMs db.name = some weekStart) (lines : List LogLine)
    (named : ∀ line ∈ lines, weekDatabaseName line.ts = some db.name) :
    ∃ added, (db.insertAll start lines named).entries service = db.entries service ++ added ∧
      added.map StoredLog.line = lines.map (storedLine service) ∧
      ∀ entry ∈ added, entry.week = db.name ∧ ∀ old ∈ db.entries service, old.id < entry.id := by
  have same : db.start = weekStart := by
    rw [WeekDb.start, start, Option.getD_some]
  obtain ⟨rows, inserted, each⟩ := insertLines_eq_append weekStart lines db.logs.rows
  have entries : (db.insertAll start lines named).entries service =
      db.entries service ++ rows.filterMap (decodeRow service db.name db.start) := by
    rw [WeekDb.entries, WeekDb.entries, ← List.filterMap_append, ← inserted]
    rfl
  refine ⟨_, entries, lines_of_decoded (same ▸ each), fun entry member => ?_⟩
  obtain ⟨row, present, decoded⟩ := List.mem_filterMap.mp member
  have ordered := (db.insertAll start lines named).logs.ordered
  have shape : (db.insertAll start lines named).logs.rows = db.logs.rows ++ rows := inserted
  have fits := (db.insertAll start lines named).fits row
    (shape ▸ List.mem_append_right _ present)
  obtain ⟨other, decode, _, id, week, _⟩ := decodeRow_of_fits fits service db.name db.start
  rw [decoded, Option.some.injEq] at decode
  subst decode
  refine ⟨week, fun old oldMember => ?_⟩
  obtain ⟨_, _, _, oldRow, oldPresent, _, _, oldId⟩ := WeekDb.of_mem_entries oldMember
  rw [shape] at ordered
  have above := (List.pairwise_append.mp ordered).2.2 oldRow oldPresent row present
  omega

theorem ServiceDir.entries_openWeek (service : String) (dir : ServiceDir) (name : String)
    (named : ∃ tsMs, weekDatabaseName tsMs = some name) :
    (dir.openWeek name named).entries service = dir.entries service := by
  rw [openWeek]
  split
  · rfl
  · rfl

theorem ServiceDir.mem_openWeek (dir : ServiceDir) (name : String)
    (named : ∃ tsMs, weekDatabaseName tsMs = some name) :
    ∃ db ∈ (dir.openWeek name named).weeks, db.name = name := by
  rw [openWeek]
  split
  · exact ⟨_, List.mem_cons_self, rfl⟩
  · next present => exact List.mem_map.mp (not_not.mp present)

theorem grown_commitInto (service : String) {batch : WeekBatch} {weekStart : Int}
    (start : databaseWeekStartMs batch.week = some weekStart) {weeks : List WeekDb}
    (distinct : (weeks.map WeekDb.name).Nodup) (opened : ∃ db ∈ weeks, db.name = batch.week) :
    ∃ added, ((weeks.map (commitInto batch start)).flatMap (WeekDb.entries service)).Perm
        (weeks.flatMap (WeekDb.entries service) ++ added) ∧
      added.map StoredLog.line = batch.lines.map (storedLine service) ∧
      ∀ entry ∈ added, entry.week = batch.week ∧ ∀ old ∈ weeks.flatMap (WeekDb.entries service),
        old.week = batch.week → old.id < entry.id := by
  induction weeks with
  | nil =>
      obtain ⟨db, member, _⟩ := opened
      cases member
  | cons db rest ih =>
      obtain ⟨absent, distinctRest⟩ := List.nodup_cons.mp distinct
      rw [List.map_cons, List.flatMap_cons, List.flatMap_cons]
      by_cases same : db.name = batch.week
      · have unchanged : rest.map (commitInto batch start) = rest := by
          refine (List.map_congr_left fun other member => ?_).trans (List.map_id rest)
          refine dif_neg fun duplicate => absent ?_
          exact List.mem_map.mpr ⟨other, member, duplicate.trans same.symm⟩
        have grown : commitInto batch start db =
            db.insertAll (same ▸ start) batch.lines (same ▸ batch.named) := dif_pos same
        obtain ⟨added, entries, stored, fresh⟩ :=
          db.grown_insertAll service (same ▸ start) batch.lines (same ▸ batch.named)
        rw [unchanged, grown, entries]
        refine ⟨added, ?_, stored, fun entry member => ?_⟩
        · rw [List.append_assoc, List.append_assoc]
          exact List.perm_append_comm.append_left _
        obtain ⟨week, above⟩ := fresh entry member
        refine ⟨week.trans same, fun old oldMember sameWeek => ?_⟩
        cases List.mem_append.mp oldMember with
        | inl here => exact above old here
        | inr elsewhere =>
            obtain ⟨other, otherMember, present⟩ := List.mem_flatMap.mp elsewhere
            have name := (WeekDb.of_mem_entries present).1.symm.trans sameWeek
            exact absurd (List.mem_map.mpr ⟨other, otherMember, name.trans same.symm⟩) absent
      · have kept : commitInto batch start db = db := dif_neg same
        have later : ∃ other ∈ rest, other.name = batch.week := by
          obtain ⟨other, member, name⟩ := opened
          cases List.mem_cons.mp member with
          | inl first => exact absurd (first ▸ name) same
          | inr present => exact ⟨other, present, name⟩
        obtain ⟨added, entries, stored, fresh⟩ := ih distinctRest later
        rw [kept]
        refine ⟨added, ?_, stored, fun entry member => ?_⟩
        · rw [List.append_assoc]
          exact entries.append_left _
        obtain ⟨week, above⟩ := fresh entry member
        refine ⟨week, fun old oldMember sameWeek => ?_⟩
        cases List.mem_append.mp oldMember with
        | inl here => exact absurd ((WeekDb.of_mem_entries here).1.symm.trans sameWeek) same
        | inr elsewhere => exact above old elsewhere sameWeek

/-! ## All weeks of a batch -/

theorem appendWeek_grown (service : String) (dir : ServiceDir) (batch : WeekBatch)
    (fate : WeekFate) :
    (appendWeek dir batch fate).2 = .ok () ∧ fate = .commits ∧
        Grown service (dir.entries service) batch.lines
          ((appendWeek dir batch fate).1.entries service) ∨
      (∃ fault, (appendWeek dir batch fate).2 = .error fault) ∧ fate ≠ .commits ∧
        (appendWeek dir batch fate).1.entries service = dir.entries service := by
  obtain ⟨tsMs, named⟩ := batch.week_named
  have start := databaseWeekStartMs_weekDatabaseName named
  have opened := dir.entries_openWeek service batch.week batch.week_named
  unfold appendWeek
  split
  · next missing =>
      rw [start] at missing
      cases missing
  · next weekStart present =>
      cases fate with
      | openFails detail created =>
          refine .inr ⟨⟨_, rfl⟩, nofun, ?_⟩
          cases created with
          | false => rfl
          | true => exact opened
      | insertFails detail => exact .inr ⟨⟨_, rfl⟩, nofun, opened⟩
      | commitFails detail => exact .inr ⟨⟨_, rfl⟩, nofun, opened⟩
      | commits =>
          refine .inl ⟨rfl, rfl, ?_⟩
          obtain ⟨added, entries, stored, fresh⟩ := grown_commitInto service present
            (dir.openWeek batch.week batch.week_named).distinct
            (dir.mem_openWeek batch.week batch.week_named)
          rw [← opened]
          refine ⟨added, entries, stored, fun entry member old oldMember same => ?_⟩
          obtain ⟨week, above⟩ := fresh entry member
          exact above old oldMember (same.trans week)

/-- The weeks before the first failing one are committed, the others are not. -/
theorem appendWeeks_grown (service : String) (fate : String → WeekFate)
    (batches : List WeekBatch) (dir : ServiceDir) :
    Grown service (dir.entries service)
        ((batches.takeWhile fun batch => fate batch.week = .commits).flatMap WeekBatch.lines)
        ((appendWeeks fate batches dir).1.entries service) ∧
      ((appendWeeks fate batches dir).2 = .ok () ↔
        ∀ batch ∈ batches, fate batch.week = .commits) := by
  induction batches generalizing dir with
  | nil => exact ⟨.refl _ _, iff_of_true rfl nofun⟩
  | cons batch rest ih =>
      obtain ⟨done, commits, grown⟩ | ⟨⟨fault, failed⟩, commits, unchanged⟩ :=
        appendWeek_grown service dir batch (fate batch.week)
      · have later : appendWeeks fate (batch :: rest) dir =
            appendWeeks fate rest (appendWeek dir batch (fate batch.week)).1 := by
          rw [appendWeeks]
          split
          · next next same => rw [same]
          · next same =>
              rw [same] at done
              cases done
        have taken : (batch :: rest).takeWhile (fun batch => fate batch.week = .commits) =
            batch :: rest.takeWhile fun batch => fate batch.week = .commits :=
          List.takeWhile_cons_of_pos (decide_eq_true commits)
        obtain ⟨grownLater, ok⟩ := ih (appendWeek dir batch (fate batch.week)).1
        rw [later, taken, List.flatMap_cons, ok, List.forall_mem_cons]
        exact ⟨grown.trans grownLater, (and_iff_right commits).symm⟩
      · have stopped : appendWeeks fate (batch :: rest) dir =
            ((appendWeek dir batch (fate batch.week)).1, .error fault) := by
          rw [appendWeeks]
          split
          · next same =>
              rw [same] at failed
              cases failed
          · next same =>
              rw [same] at failed ⊢
              cases failed
              rfl
        have taken : (batch :: rest).takeWhile (fun batch => fate batch.week = .commits) = [] :=
          List.takeWhile_cons_of_neg (by simp [commits])
        rw [stopped, taken, List.forall_mem_cons, unchanged]
        exact ⟨.refl _ _, iff_of_false nofun fun all => commits all.1⟩

/-! ## The whole batch -/

/-- Lines whose date has a week file. -/
def dated (lines : List LogLine) : List LogLine :=
  lines.filter fun line => (weekDatabaseName line.ts).isSome

theorem byWeek_perm (lines : List LogLine) :
    ((byWeek lines).flatMap WeekBatch.lines).Perm (dated lines) := by
  have groups := perm_flatMap_groups (fun line : LogLine => weekDatabaseName line.ts) lines
    (List.nodup_dedup (lines.filterMap fun line => weekDatabaseName line.ts))
  have collected : (byWeek lines).flatMap WeekBatch.lines =
      ((lines.filterMap fun line => weekDatabaseName line.ts).dedup).flatMap fun week =>
        lines.filter fun line => weekDatabaseName line.ts = some week := by
    conv_rhs => rw [← List.attach_map_subtype_val (List.dedup _), List.flatMap_map]
    rw [byWeek, List.flatMap_map]
  rw [collected]
  refine groups.trans (List.Perm.of_eq (List.filter_congr fun line member => ?_))
  rw [Bool.eq_iff_iff, List.any_eq_true, Option.isSome_iff_exists]
  simp only [List.mem_dedup, List.mem_filterMap, decide_eq_true_eq]
  constructor
  · intro found
    obtain ⟨week, _, named⟩ := found
    exact ⟨week, named⟩
  · intro found
    obtain ⟨week, named⟩ := found
    exact ⟨week, ⟨line, member, named⟩, named⟩

theorem WeekBatch.eq_of_lines {left right : WeekBatch} (week : left.week = right.week)
    (lines : left.lines = right.lines) : left = right := by
  cases left
  cases right
  cases week
  cases lines
  rfl

theorem mem_byWeek {lines : List LogLine} {batch : WeekBatch} : batch ∈ byWeek lines ↔
    batch.lines = lines.filter fun line => weekDatabaseName line.ts = some batch.week := by
  rw [byWeek, List.mem_map]
  constructor
  · intro found
    obtain ⟨week, _, same⟩ := found
    subst same
    rfl
  · intro same
    obtain ⟨line, held⟩ := List.exists_mem_of_ne_nil _ batch.nonempty
    have named := batch.named line held
    rw [same] at held
    have present : batch.week ∈ (lines.filterMap fun line => weekDatabaseName line.ts).dedup :=
      List.mem_dedup.mpr (List.mem_filterMap.mpr ⟨line, (List.mem_filter.mp held).1, named⟩)
    refine ⟨⟨batch.week, present⟩, List.mem_attach _ _, ?_⟩
    exact WeekBatch.eq_of_lines rfl same.symm

theorem byWeek_distinct (lines : List LogLine) : ((byWeek lines).map WeekBatch.week).Nodup := by
  have weeks : (byWeek lines).map WeekBatch.week =
      (lines.filterMap fun line => weekDatabaseName line.ts).dedup := by
    rw [byWeek, List.map_map]
    exact List.attach_map_subtype_val _
  rw [weeks]
  exact List.nodup_dedup _

theorem entries_setServiceDir (store : SqliteLogStore) (service : String) (dir : ServiceDir) :
    (store.setServiceDir service dir).entries service = dir.entries service := by
  rw [SqliteLogStore.entries, SqliteLogStore.serviceDir?, SqliteLogStore.setServiceDir,
    List.lookup_cons_self]
  rfl

/-- The lines of the weeks that an append commits when it visits them in this order. -/
def committedLines (fates : AppendFates) (lines : List LogLine) : List LogLine :=
  if fates.directory.isSome then []
  else
    ((fates.order.arrange (byWeek lines)).takeWhile fun batch =>
      fates.week batch.week = .commits).flatMap WeekBatch.lines

/-- An append succeeds when there is nothing to do or nothing fails. -/
def Succeeds (fates : AppendFates) (lines : List LogLine) : Prop :=
  byWeek lines = [] ∨
    fates.directory = none ∧ ∀ batch ∈ byWeek lines, fates.week batch.week = .commits

theorem entries_getD_serviceDir (store : SqliteLogStore) (service : String) :
    ((store.serviceDir? service).getD .empty).entries service = store.entries service := by
  rw [SqliteLogStore.entries]
  cases store.serviceDir? service with
  | none => rfl
  | some dir => rfl

private theorem byWeek_eq_nil_of_arrange {fates : AppendFates} {lines : List LogLine}
    (nothing : fates.order.arrange (byWeek lines) = []) : byWeek lines = [] := by
  have same := fates.order.perm (byWeek lines)
  rw [nothing] at same
  exact List.nil_perm.mp same

/-- An append adds the lines of the weeks it committed, whether it succeeds or not. -/
theorem append_grown (store : SqliteLogStore) (fates : AppendFates) (service : String)
    (lines : List LogLine) :
    Grown service (store.entries service) (committedLines fates lines)
        ((store.append fates service lines).1.entries service) ∧
      ((store.append fates service lines).2 = .ok () ↔ Succeeds fates lines) := by
  cases arranged : fates.order.arrange (byWeek lines) with
  | nil =>
      simp only [SqliteLogStore.append, committedLines, arranged, List.takeWhile_nil,
        List.flatMap_nil, ite_self]
      exact ⟨.refl _ _, iff_of_true trivial (.inl (byWeek_eq_nil_of_arrange arranged))⟩
  | cons batch rest =>
      have present : byWeek lines ≠ [] := by
        intro nothing
        rw [nothing, List.perm_nil.mp (fates.order.perm [])] at arranged
        cases arranged
      cases directory : fates.directory with
      | some detail =>
          simp only [SqliteLogStore.append, committedLines, arranged, directory, Option.isSome_some,
            if_true]
          refine ⟨.refl _ _, iff_of_false nofun fun succeeds => ?_⟩
          cases succeeds with
          | inl nothing => exact present nothing
          | inr fine =>
              rw [directory] at fine
              cases fine.1
      | none =>
          obtain ⟨grown, ok⟩ := appendWeeks_grown service fates.week (batch :: rest)
            ((store.serviceDir? service).getD .empty)
          rw [entries_getD_serviceDir] at grown
          simp only [SqliteLogStore.append, committedLines, arranged, directory,
            entries_setServiceDir, Option.isSome_none, Bool.false_eq_true, if_false]
          refine ⟨grown, ok.trans ?_⟩
          rw [← arranged]
          simp only [Succeeds, present, directory, false_or, true_and, HashOrder.mem_arrange]

theorem committedLines_of_succeeds {fates : AppendFates} {lines : List LogLine}
    (succeeds : Succeeds fates lines) : (committedLines fates lines).Perm (dated lines) := by
  have all := byWeek_perm lines
  cases succeeds with
  | inl nothing =>
      have noBatch : fates.order.arrange (byWeek lines) = [] := by
        rw [nothing]
        exact List.perm_nil.mp (fates.order.perm [])
      rw [nothing, List.flatMap_nil] at all
      rw [committedLines, noBatch, List.takeWhile_nil, List.flatMap_nil, ite_self]
      exact all
  | inr fine =>
      obtain ⟨directory, commits⟩ := fine
      have whole : (fates.order.arrange (byWeek lines)).takeWhile
          (fun batch => decide (fates.week batch.week = .commits)) =
            fates.order.arrange (byWeek lines) := by
        refine List.takeWhile_eq_self_iff.mpr fun batch member => ?_
        exact decide_eq_true (commits batch ((fates.order.mem_arrange).mp member))
      rw [committedLines, directory, whole]
      exact ((fates.order.perm _).flatMap_right _).trans all

private theorem lookup_filter_ne {α : Type} {key dropped : String} (different : key ≠ dropped)
    (entries : List (String × α)) :
    (entries.filter fun entry => entry.1 ≠ dropped).lookup key = entries.lookup key := by
  induction entries with
  | nil => rfl
  | cons entry rest ih =>
      by_cases same : key = entry.1
      · have kept : (entry :: rest).filter (fun entry => entry.1 ≠ dropped) =
            entry :: rest.filter fun entry => entry.1 ≠ dropped :=
          List.filter_cons_of_pos (decide_eq_true (same ▸ different))
        rw [kept, List.lookup_cons, List.lookup_cons, beq_iff_eq.mpr same]
      · have skip : (entry :: rest).lookup key = rest.lookup key := by
          rw [List.lookup_cons, beq_eq_false_iff_ne.mpr same]
        rw [skip, ← ih, List.filter_cons]
        split
        · rw [List.lookup_cons, beq_eq_false_iff_ne.mpr same]
        · rfl

theorem serviceDir?_setServiceDir (store : SqliteLogStore) (service reader : String)
    (dir : ServiceDir) :
    (store.setServiceDir service dir).serviceDir? reader =
      if safeServicePath reader = safeServicePath service then some dir
      else store.serviceDir? reader := by
  rw [SqliteLogStore.serviceDir?, SqliteLogStore.setServiceDir, List.lookup_cons]
  split
  · next same => rw [if_pos (beq_iff_eq.mp same)]
  · next different =>
      rw [if_neg (beq_eq_false_iff_ne.mp different),
        lookup_filter_ne (beq_eq_false_iff_ne.mp different), SqliteLogStore.serviceDir?]

theorem setServiceDir_setServiceDir (store : SqliteLogStore) (service : String)
    (first second : ServiceDir) : (store.setServiceDir service first).setServiceDir service second =
      store.setServiceDir service second := by
  simp [SqliteLogStore.setServiceDir, List.filter_filter]

theorem SqliteLogStore.of_mem_entries {store : SqliteLogStore} {service : String}
    {entry : StoredLog} (member : entry ∈ store.entries service) :
    ∃ db : WeekDb, entry.week = db.name ∧ weekStartOf entry.ts = db.start ∧
      entry.line.ts = entry.ts := by
  rw [SqliteLogStore.entries] at member
  cases found : store.serviceDir? service with
  | none =>
      rw [found] at member
      cases member
  | some dir =>
      rw [found] at member
      obtain ⟨db, _, present⟩ := List.mem_flatMap.mp member
      obtain ⟨week, start, time, _⟩ := WeekDb.of_mem_entries present
      exact ⟨db, week, start, time⟩

/-- A new entry comes after every entry that is not younger than it. -/
theorem Grown.above {before after : SqliteLogStore} {service : String} {lines : List LogLine}
    (grown : Grown service (before.entries service) lines (after.entries service))
    {entry : StoredLog} (member : entry ∈ after.entries service) :
    entry ∈ before.entries service ∨ ∃ line ∈ lines, entry.line = storedLine service line ∧
      ∀ old ∈ before.entries service, old.ts ≤ entry.ts → old.position < entry.position := by
  obtain ⟨added, entries, stored, fresh⟩ := grown
  cases List.mem_append.mp (entries.mem_iff.mp member) with
  | inl old => exact .inl old
  | inr new =>
      have line : entry.line ∈ lines.map (storedLine service) := by
        rw [← stored]
        exact List.mem_map_of_mem new
      obtain ⟨line, committed, same⟩ := List.mem_map.mp line
      refine .inr ⟨line, committed, same.symm, fun old oldMember before => ?_⟩
      rw [position_lt_iff]
      cases Int.lt_or_eq_of_le before with
      | inl earlier => exact .inl earlier
      | inr tied =>
          obtain ⟨oldDb, oldWeek, oldStart, _⟩ := SqliteLogStore.of_mem_entries oldMember
          obtain ⟨newDb, newWeek, newStart, _⟩ := SqliteLogStore.of_mem_entries member
          have weeks : old.week = entry.week := by
            rw [oldWeek, newWeek]
            apply WeekDb.start_injective
            rw [← oldStart, ← newStart, tied]
          exact .inr ⟨tied, fresh entry new old oldMember weeks⟩

/-- What the work on one week leaves in the store. -/
theorem store_appendWeek (store : SqliteLogStore) (service : String) (batch : WeekBatch)
    (fate : WeekFate) {dir : ServiceDir} {result : AppResult Unit}
    (appended : appendWeek ((store.serviceDir? service).getD .empty) batch fate = (dir, result)) :
    result = .ok () ∧ fate = .commits ∧ Grown service (store.entries service) batch.lines
        ((store.setServiceDir service dir).entries service) ∨
      (∃ fault, result = .error fault) ∧ fate ≠ .commits ∧
        (store.setServiceDir service dir).entries service = store.entries service := by
  have grown := appendWeek_grown service ((store.serviceDir? service).getD .empty) batch fate
  rw [appended, entries_getD_serviceDir] at grown
  rw [entries_setServiceDir]
  exact grown

/-- Appending under one service name never removes an entry of any service. -/
theorem append_subset (store : SqliteLogStore) (fates : AppendFates) (service reader : String)
    (lines : List LogLine) {entry : StoredLog} (member : entry ∈ store.entries reader) :
    entry ∈ (store.append fates service lines).1.entries reader := by
  simp only [SqliteLogStore.append]
  cases fates.order.arrange (byWeek lines) with
  | nil => exact member
  | cons batch rest =>
      cases fates.directory with
      | some detail => exact member
      | none =>
          simp only []
          rw [SqliteLogStore.entries, serviceDir?_setServiceDir]
          split
          · next same =>
              have grown := (appendWeeks_grown reader fates.week (batch :: rest)
                ((store.serviceDir? service).getD .empty)).1.subset
              have source : store.serviceDir? service = store.serviceDir? reader := by
                rw [SqliteLogStore.serviceDir?, SqliteLogStore.serviceDir?, same]
              rw [source, entries_getD_serviceDir] at grown
              rw [source]
              exact grown member
          · exact member

end Vpsiner.Logs
