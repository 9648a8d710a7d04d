import Vpsiner.Logs.AppendProperties
import Vpsiner.Logs.Retention
import Vpsiner.Retention.Cutoff

/-! Removing whole week files removes exactly the lines before the cutoff. -/

set_option autoImplicit false

namespace Vpsiner.Logs

open Vpsiner.Lib

theorem pathExtension_append {stem : List Char} (nonempty : stem ≠ []) :
    pathExtension (String.ofList (stem ++ ['.', 'd', 'b'])) = some "db" := by
  obtain ⟨front, last, rfl⟩ := List.eq_nil_or_concat stem |>.resolve_left nonempty
  unfold pathExtension
  simp [List.dropWhile, List.takeWhile]

/-- Every week file is a database for the walks. -/
theorem WeekDb.pathExtension_name (db : WeekDb) : pathExtension db.name = some "db" := by
  obtain ⟨tsMs, named⟩ := db.named
  obtain ⟨date, _, shape⟩ := Option.bind_eq_some_iff.mp named
  rw [← Option.some.inj shape]
  refine pathExtension_append ?_
  simp

theorem expired_iff (cutoffMs : Int) (db : WeekDb) :
    expired cutoffMs db.name = true ↔ db.start < cutoffMs := by
  simp [expired, db.pathExtension_name, db.databaseWeekStartMs_name]

theorem deleteWeeks_ok {cutoffMs : Int} {serviceName : String} {fails : String → Option String}
    {weeks : List WeekDb} {removed : List String}
    (done : (deleteWeeks cutoffMs serviceName fails weeks).2 = .ok removed) :
    (deleteWeeks cutoffMs serviceName fails weeks).1 =
      weeks.filter fun db => cutoffMs ≤ db.start := by
  induction weeks generalizing removed with
  | nil => rfl
  | cons db rest ih =>
      unfold deleteWeeks at done ⊢
      by_cases old : expired cutoffMs db.name = true
      · rw [if_pos old] at done ⊢
        rw [List.filter_cons_of_neg (by
          rw [decide_eq_true_eq, not_le]
          exact (expired_iff cutoffMs db).mp old)]
        cases failed : fails db.name with
        | some detail =>
            rw [failed] at done
            cases done
        | none =>
            rw [failed] at done
            dsimp only at done ⊢
            cases later : (deleteWeeks cutoffMs serviceName fails rest).2 with
            | error fault =>
                rw [later] at done
                cases done
            | ok names => exact ih later
      · rw [if_neg old] at done ⊢
        rw [List.filter_cons_of_pos (by
          rw [decide_eq_true_eq, ← not_lt, ← expired_iff]
          exact old)]
        exact congrArg (db :: ·) (ih done)

def ServiceDir.since (dir : ServiceDir) (cutoffMs : Int) : ServiceDir where
  weeks := dir.weeks.filter fun db => cutoffMs ≤ db.start
  distinct := dir.distinct.sublist (List.filter_sublist.map WeekDb.name)

theorem ServiceDir.deleteBefore_ok {dir : ServiceDir} {cutoffMs : Int} {serviceName : String}
    {fails : String → Option String} {after : ServiceDir} {removed : List String}
    (done : dir.deleteBefore cutoffMs serviceName fails = (after, .ok removed)) :
    after = dir.since cutoffMs := by
  have result : (deleteWeeks cutoffMs serviceName fails dir.weeks).2 = .ok removed :=
    congrArg Prod.snd done
  have shape : (dir.deleteBefore cutoffMs serviceName fails).1 = after := congrArg Prod.fst done
  rw [← shape]
  unfold ServiceDir.deleteBefore ServiceDir.since
  simp only [deleteWeeks_ok result]

theorem deleteDirectories_ok {cutoffMs : Int} {fates : WalkFates}
    {directories : List (String × ServiceDir)} {removed : List String}
    (done : (deleteDirectories cutoffMs fates directories).2 = .ok removed) :
    (deleteDirectories cutoffMs fates directories).1 = directories.map fun entry =>
      if isSubdirectory entry.1 then (entry.1, entry.2.since cutoffMs) else entry := by
  induction directories generalizing removed with
  | nil => rfl
  | cons entry rest ih =>
      obtain ⟨name, dir⟩ := entry
      unfold deleteDirectories at done ⊢
      rw [List.map_cons]
      by_cases sub : isSubdirectory name = true
      · rw [sub] at done ⊢
        simp only [Bool.not_true, Bool.false_eq_true, if_false, if_true] at done ⊢
        cases failed : fates.directory name with
        | some detail =>
            rw [failed] at done
            cases done
        | none =>
            rw [failed] at done
            dsimp only at done ⊢
            cases here : dir.deleteBefore cutoffMs name (fates.file name) with
            | mk after result =>
                rw [here] at done
                cases result with
                | error fault => cases done
                | ok names =>
                    dsimp only at done ⊢
                    rw [ServiceDir.deleteBefore_ok here]
                    cases later : (deleteDirectories cutoffMs fates rest).2 with
                    | error fault =>
                        rw [later] at done
                        cases done
                    | ok others => exact congrArg ((name, dir.since cutoffMs) :: ·) (ih later)
      · rw [Bool.not_eq_true] at sub
        rw [sub] at done ⊢
        simp only [Bool.not_false, if_true, Bool.false_eq_true, if_false] at done ⊢
        exact congrArg ((name, dir) :: ·) (ih done)

theorem lookup_map_since {cutoffMs : Int} {path : String} (sub : isSubdirectory path = true)
    (directories : List (String × ServiceDir)) :
    (directories.map fun entry =>
        if isSubdirectory entry.1 then (entry.1, entry.2.since cutoffMs) else entry).lookup path =
      (directories.lookup path).map fun dir => dir.since cutoffMs := by
  induction directories with
  | nil => rfl
  | cons entry rest ih =>
      obtain ⟨name, dir⟩ := entry
      rw [List.map_cons]
      by_cases same : path = name
      · subst same
        rw [if_pos sub, List.lookup_cons_self, List.lookup_cons_self]
        rfl
      · have other : (path == name) = false := beq_false_of_ne same
        have unchanged : ((name, dir) :: rest).lookup path = rest.lookup path := by
          rw [List.lookup_cons, other]
        rw [unchanged, ← ih]
        split
        · rw [List.lookup_cons, other]
        · rw [List.lookup_cons, other]

theorem SqliteLogStore.serviceDir_deleteBefore {store after : SqliteLogStore} {fates : WalkFates}
    {cutoffMs : Int} {removed : List String}
    (done : store.deleteBefore fates cutoffMs = (after, .ok removed)) {service : String}
    (sub : isSubdirectory (safeServicePath service) = true) :
    after.serviceDir? service = (store.serviceDir? service).map fun dir => dir.since cutoffMs := by
  unfold SqliteLogStore.deleteBefore at done
  cases root : fates.root with
  | some detail =>
      rw [root] at done
      cases done
  | none =>
      rw [root] at done
      obtain ⟨rfl, result⟩ := Prod.mk.inj done
      cases deleted : (deleteDirectories cutoffMs fates store.directories).2 with
      | error fault =>
          rw [deleted] at result
          cases result
      | ok names =>
          have shape := deleteDirectories_ok deleted
          unfold SqliteLogStore.serviceDir?
          dsimp only
          rw [shape]
          exact lookup_map_since sub store.directories

/-! ## The lines that are left -/

/-- Weeks and cutoff are aligned, so a week lies on one side of the cutoff. -/
theorem WeekDb.cutoff_le_start_iff {cutoffMs : Int} (aligned : cutoffMs % weekMs = 4 * dayMs)
    {service : String} {db : WeekDb} {entry : StoredLog} (member : entry ∈ db.entries service) :
    cutoffMs ≤ db.start ↔ cutoffMs ≤ entry.ts := by
  have week := (WeekDb.of_mem_entries member).2.1
  have started := weekStartOf_le entry.ts
  have unfinished := lt_weekStartOf_add entry.ts
  have monday := db.start_spec.1
  rw [week] at started unfinished
  simp only [weekMs, dayMs] at aligned monday unfinished
  omega

theorem ServiceDir.entries_since {cutoffMs : Int} (aligned : cutoffMs % weekMs = 4 * dayMs)
    (service : String) (dir : ServiceDir) :
    (dir.since cutoffMs).entries service =
      (dir.entries service).filter fun entry => cutoffMs ≤ entry.ts := by
  unfold ServiceDir.entries ServiceDir.since
  dsimp only
  generalize dir.weeks = weeks
  induction weeks with
  | nil => rfl
  | cons db rest ih =>
      rw [List.flatMap_cons, List.filter_append, ← ih]
      by_cases kept : cutoffMs ≤ db.start
      · have all : (db.entries service).filter (fun entry => cutoffMs ≤ entry.ts) =
            db.entries service := by
          refine List.filter_eq_self.mpr fun entry member => decide_eq_true ?_
          exact (WeekDb.cutoff_le_start_iff aligned member).mp kept
        rw [List.filter_cons_of_pos (by rwa [decide_eq_true_eq]), List.flatMap_cons, all]
      · have none : (db.entries service).filter (fun entry => cutoffMs ≤ entry.ts) = [] := by
          refine List.filter_eq_nil_iff.mpr fun entry member after => kept ?_
          exact (WeekDb.cutoff_le_start_iff aligned member).mpr (of_decide_eq_true after)
        rw [List.filter_cons_of_neg (by rwa [decide_eq_true_eq]), none, List.nil_append]

/-! ## A removal that stops half-way -/

/-- Week files are only removed, and none from the cutoff on. -/
structure ServiceDir.Shrinks (cutoffMs : Int) (before after : ServiceDir) : Prop where
  subset : after.weeks ⊆ before.weeks
  recent : ∀ db ∈ before.weeks, cutoffMs ≤ db.start → db ∈ after.weeks

theorem ServiceDir.Shrinks.refl (cutoffMs : Int) (dir : ServiceDir) : dir.Shrinks cutoffMs dir :=
  ⟨List.Subset.refl _, fun _ member _ => member⟩

theorem mem_deleteWeeks {cutoffMs : Int} {serviceName : String} {fails : String → Option String}
    {weeks : List WeekDb} {db : WeekDb} (member : db ∈ weeks) (recent : cutoffMs ≤ db.start) :
    db ∈ (deleteWeeks cutoffMs serviceName fails weeks).1 := by
  induction weeks with
  | nil => cases member
  | cons head rest ih =>
      unfold deleteWeeks
      split
      · next old =>
          cases fails head.name with
          | some detail => exact member
          | none =>
              rcases List.mem_cons.mp member with rfl | later
              · exact absurd ((expired_iff cutoffMs db).mp old) (not_lt.mpr recent)
              · exact ih later
      · rcases List.mem_cons.mp member with rfl | later
        · exact List.mem_cons_self
        · exact List.mem_cons_of_mem _ (ih later)

theorem ServiceDir.shrinks_deleteBefore (dir : ServiceDir) (cutoffMs : Int) (serviceName : String)
    (fails : String → Option String) :
    dir.Shrinks cutoffMs (dir.deleteBefore cutoffMs serviceName fails).1 where
  subset := (deleteWeeks_sublist _ _ _ _).subset
  recent _ member recent := mem_deleteWeeks member recent

theorem deleteDirectories_shrinks (cutoffMs : Int) (fates : WalkFates)
    (directories : List (String × ServiceDir)) :
    List.Forall₂ (fun before after => before.1 = after.1 ∧ before.2.Shrinks cutoffMs after.2)
      directories (deleteDirectories cutoffMs fates directories).1 := by
  induction directories with
  | nil => exact .nil
  | cons entry rest ih =>
      obtain ⟨name, dir⟩ := entry
      have same : ∀ others : List (String × ServiceDir), List.Forall₂
          (fun before after => before.1 = after.1 ∧ before.2.Shrinks cutoffMs after.2)
            others others := by
        intro others
        exact List.forall₂_same.mpr fun other _ => ⟨rfl, .refl cutoffMs other.2⟩
      unfold deleteDirectories
      split
      · exact .cons ⟨rfl, .refl cutoffMs dir⟩ ih
      · cases fates.directory name with
        | some detail => exact same _
        | none =>
            have shrinks := dir.shrinks_deleteBefore cutoffMs name (fates.file name)
            dsimp only
            cases deleted : dir.deleteBefore cutoffMs name (fates.file name) with
            | mk after result =>
                rw [deleted] at shrinks
                cases result with
                | error fault => exact .cons ⟨rfl, shrinks⟩ (same rest)
                | ok names => exact .cons ⟨rfl, shrinks⟩ ih

theorem lookup_shrunk {cutoffMs : Int} {before after : List (String × ServiceDir)}
    (each : List.Forall₂ (fun before after => before.1 = after.1 ∧
      before.2.Shrinks cutoffMs after.2) before after) (path : String) :
    Option.Rel (ServiceDir.Shrinks cutoffMs) (before.lookup path) (after.lookup path) := by
  induction each with
  | nil => exact .none
  | cons head _ ih =>
      obtain ⟨same, shrinks⟩ := head
      rw [List.lookup_cons, List.lookup_cons, same]
      split
      · exact .some shrinks
      · exact ih

/-- Whatever fails on the walk, no line appears, and none from the cutoff on is gone. -/
theorem entries_deleteBefore {cutoffMs : Int} (aligned : cutoffMs % weekMs = 4 * dayMs)
    (store : SqliteLogStore) (fates : WalkFates) (service : String) :
    (store.deleteBefore fates cutoffMs).1.entries service ⊆ store.entries service ∧
      ∀ entry ∈ store.entries service, cutoffMs ≤ entry.ts →
        entry ∈ (store.deleteBefore fates cutoffMs).1.entries service := by
  unfold SqliteLogStore.deleteBefore
  cases fates.root with
  | some detail => exact ⟨List.Subset.refl _, fun _ member _ => member⟩
  | none =>
      have related := lookup_shrunk (deleteDirectories_shrinks cutoffMs fates store.directories)
        (safeServicePath service)
      simp only [SqliteLogStore.entries, SqliteLogStore.serviceDir?]
      generalize store.directories.lookup (safeServicePath service) = before at related ⊢
      generalize (deleteDirectories cutoffMs fates store.directories).1.lookup
        (safeServicePath service) = after at related ⊢
      cases related with
      | none => exact ⟨List.Subset.refl _, fun _ member _ => member⟩
      | some shrinks =>
          constructor
          · intro entry member
            obtain ⟨db, present, stored⟩ := List.mem_flatMap.mp member
            exact List.mem_flatMap.mpr ⟨db, shrinks.subset present, stored⟩
          · intro entry member recent
            obtain ⟨db, present, stored⟩ := List.mem_flatMap.mp member
            have kept := (WeekDb.cutoff_le_start_iff aligned stored).mpr recent
            exact List.mem_flatMap.mpr ⟨db, shrinks.recent db present kept, stored⟩

/-- Exactly the lines before the cutoff are gone, and the cutoff never moves back. -/
theorem delete_before_exact {now cutoffMs : Int} {retentionWeeks : Nat}
    (cutoff : Retention.retentionCutoffMs now retentionWeeks = some cutoffMs)
    {store after : SqliteLogStore} {fates : WalkFates} {removed : List String}
    (done : store.deleteBefore fates cutoffMs = (after, .ok removed)) :
    (∀ service, safeServicePath service ≠ "" →
      after.entries service =
        (store.entries service).filter fun entry => cutoffMs ≤ entry.ts) ∧
    ∀ later laterCutoff, now ≤ later →
      Retention.retentionCutoffMs later retentionWeeks = some laterCutoff →
        cutoffMs ≤ laterCutoff := by
  constructor
  · intro service nonempty
    have found := SqliteLogStore.serviceDir_deleteBefore done (decide_eq_true nonempty)
    unfold SqliteLogStore.entries
    rw [found]
    cases store.serviceDir? service with
    | none => rfl
    | some dir =>
        exact ServiceDir.entries_since (Retention.retentionCutoffMs_aligned cutoff) service dir
  · intro later laterCutoff le laterFound
    exact Retention.retentionCutoffMs_mono le cutoff laterFound

def mondayLine (ts : Int) : LogLine := ⟨ts, "shop", ⟨1⟩, .stdout, none, "started"⟩

/-- The last line of one week and the first line of the next. -/
def aroundMonday : SqliteLogStore :=
  (SqliteLogStore.empty.append {} "shop" [mondayLine 1784505599999, mondayLine 1784505600000]).1

theorem delete_before_at_monday :
    (aroundMonday.deleteBefore {} 1784505600000).2 = .ok ["shop/2026_w29.db"] ∧
      ((aroundMonday.deleteBefore {} 1784505600000).1.entries "shop") =
        (aroundMonday.entries "shop").filter fun entry => 1784505600000 ≤ entry.ts := by
  have cutoff : Retention.retentionCutoffMs 1787443200000 4 = some 1784505600000 := by
    decide +kernel
  have removed : (aroundMonday.deleteBefore {} 1784505600000).2 = .ok ["shop/2026_w29.db"] := by
    decide +kernel
  have left := (delete_before_exact cutoff (Prod.ext rfl removed)).1 "shop" (by decide)
  exact ⟨removed, left⟩

end Vpsiner.Logs
