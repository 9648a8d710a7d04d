import Mathlib.Algebra.Ring.Nat
import Vpsiner.Logs.Paging
import Vpsiner.Logs.RetentionProperties

/-! What separates the services in the store: the directory name computed from the name of
the service. -/

set_option autoImplicit false

namespace Vpsiner.Logs

open Vpsiner.Lib Vpsiner.Lib.Paging

/-- What `get_container_service` takes from a label: trimmed and not empty. -/
def IsServiceName (service : String) : Prop :=
  service ≠ "" ∧ service.toList.head?.all (!isWhitespace ·) ∧
    service.toList.getLast?.all (!isWhitespace ·)

instance (service : String) : Decidable (IsServiceName service) := inferInstanceAs (Decidable (_ ∧ _))

/-- Calls that fail may have changed the store as well. -/
def afterAppends (calls : List AppendCall) : SqliteLogStore := appendAll .empty calls

/-- Queries for the second service answer as if nothing had been appended under the first. Left out
is a file system that refuses the calls: a service in the root directory whose week file bears the
name of another service's directory ("/" and "2023_w46.db"), where that service's calls fail. -/
def Isolated (first second : String) : Prop :=
  ∀ (calls : List AppendCall) (backend : LogBackend) (filter : LogFilter),
    (afterAppends calls).query backend second filter =
      (afterAppends (calls.filter fun call => call.service ≠ first)).query backend second filter

/-- A walk that fails nowhere removes every week of the service that began before the cutoff,
and counts every week file of the service. -/
def ReachedByWalks (service : String) : Prop :=
  ∀ (calls : List AppendCall) (fates : WalkFates),
    (∀ cutoffMs after removed,
      (afterAppends calls).deleteBefore fates cutoffMs = (after, .ok removed) →
        ∀ entry ∈ after.entries service, cutoffMs ≤ weekStartOf entry.ts) ∧
    ∀ size total, (afterAppends calls).databaseSizeBytes size fates = .ok total →
      ∀ dir ∈ (afterAppends calls).serviceDir? service, (dir.weeks.map size).sum ≤ total

/-- The components of a name that make up the directory name. -/
def pathComponents (service : String) : List (List Char) :=
  (service.toList.splitOnP fun char => char == '/' || char == '\\').filter fun part =>
    part ≠ [] ∧ part ≠ ['.'] ∧ part ≠ ['.', '.']

/-- The components, cut again at the character that joins them. -/
def namePieces (service : String) : List (List Char) :=
  (pathComponents service).flatMap fun part => part.splitOnP (· == '_')

/-! ## Directory names -/

theorem safeServicePath_eq (service : String) :
    safeServicePath service = String.ofList (['_'].intercalate (pathComponents service)) := rfl

theorem pathComponents_ne_nil {service : String} :
    ∀ part ∈ pathComponents service, part ≠ [] := by
  intro part member
  exact (of_decide_eq_true (List.mem_filter.mp member).2).1

theorem namePieces_eq_nil_iff {service : String} :
    namePieces service = [] ↔ pathComponents service = [] := by
  unfold namePieces
  constructor
  · intro none
    rw [List.flatMap_eq_nil_iff] at none
    refine List.eq_nil_iff_forall_not_mem.mpr fun part member => ?_
    exact List.splitOnP_ne_nil _ _ (none part member)
  · intro none
    rw [none]
    rfl

theorem safeServicePath_eq_empty_iff {service : String} :
    safeServicePath service = "" ↔ namePieces service = [] := by
  rw [namePieces_eq_nil_iff, safeServicePath_eq]
  constructor
  · intro empty
    by_contra nonempty
    exact Text.intercalate_ne_nil nonempty pathComponents_ne_nil (String.ofList_injective empty)
  · intro none
    rw [none]
    rfl

/-- Two names share a directory exactly when they are cut into the same pieces. -/
theorem safeServicePath_eq_iff {first second : String} :
    safeServicePath first = safeServicePath second ↔ namePieces first = namePieces second := by
  by_cases firstNone : namePieces first = []
  · rw [firstNone, safeServicePath_eq_empty_iff.mpr firstNone, eq_comm,
      safeServicePath_eq_empty_iff, eq_comm]
  · by_cases secondNone : namePieces second = []
    · rw [secondNone, safeServicePath_eq_empty_iff.mpr secondNone, safeServicePath_eq_empty_iff]
    · rw [namePieces_eq_nil_iff] at firstNone secondNone
      have cut := fun {service : String} (some : pathComponents service ≠ []) =>
        Text.splitOnP_intercalate '_' some
      rw [safeServicePath_eq, safeServicePath_eq, String.ofList_inj]
      unfold namePieces
      rw [← cut firstNone, ← cut secondNone]
      refine ⟨fun same => by rw [same], fun same => ?_⟩
      rw [← Text.intercalate_splitOnP '_' (['_'].intercalate (pathComponents first)), same,
        Text.intercalate_splitOnP]

/-! ## Appends and queries by directory -/

def appendedDir (fates : AppendFates) (lines : List LogLine) (dir : Option ServiceDir) :
    Option ServiceDir :=
  match fates.order.arrange (byWeek lines), fates.directory with
  | [], _ => dir
  | _ :: _, some _ => dir
  | batch :: rest, none => some (appendWeeks fates.week (batch :: rest) (dir.getD .empty)).1

theorem directory_setServiceDir (store : SqliteLogStore) (service path : String) (dir : ServiceDir) :
    (store.setServiceDir service dir).directories.lookup path =
      if safeServicePath service = path then some dir else store.directories.lookup path := by
  unfold SqliteLogStore.setServiceDir
  dsimp only
  split
  · next same => rw [same, List.lookup_cons_self]
  · next different =>
      rw [List.lookup_cons, beq_false_of_ne (Ne.symm different)]
      dsimp only
      generalize store.directories = directories
      induction directories with
      | nil => rfl
      | cons entry rest ih =>
          by_cases found : path = entry.1
          · rw [List.filter_cons_of_pos (by
              rw [decide_eq_true_eq, ← found]
              exact Ne.symm different), List.lookup_cons, List.lookup_cons, found,
              beq_self_eq_true]
          · have missed : (path == entry.1) = false := beq_false_of_ne found
            rw [List.filter_cons]
            split
            · rw [List.lookup_cons, List.lookup_cons, missed]
              exact ih
            · rw [List.lookup_cons, missed]
              exact ih

/-- An append changes one directory, and by what was in that directory alone. -/
theorem directory_append (store : SqliteLogStore) (fates : AppendFates) (service path : String)
    (lines : List LogLine) :
    (store.append fates service lines).1.directories.lookup path =
      if safeServicePath service = path then
        appendedDir fates lines (store.directories.lookup path)
      else store.directories.lookup path := by
  unfold SqliteLogStore.append appendedDir
  cases arranged : fates.order.arrange (byWeek lines) with
  | nil => exact (ite_self _).symm
  | cons batch rest =>
      cases failed : fates.directory with
      | some detail => exact (ite_self _).symm
      | none =>
          dsimp only
          rw [directory_setServiceDir]
          split
          · next same =>
              subst same
              rfl
          · rfl

/-- Dropping calls that work on other directories does not change a directory. -/
theorem directory_appendAll {path : String} {keep : AppendCall → Bool}
    (others : ∀ call, keep call = false → safeServicePath call.service ≠ path)
    (calls : List AppendCall) {left right : SqliteLogStore}
    (same : left.directories.lookup path = right.directories.lookup path) :
    (appendAll left (calls.filter keep)).directories.lookup path =
      (appendAll right calls).directories.lookup path := by
  induction calls generalizing left right with
  | nil => exact same
  | cons call rest ih =>
      cases kept : keep call with
      | true =>
          rw [List.filter_cons_of_pos kept]
          refine ih ?_
          rw [directory_append, directory_append, same]
      | false =>
          rw [List.filter_cons_of_neg (by rw [kept]; exact Bool.false_ne_true)]
          refine ih ?_
          rw [directory_append, if_neg (others call kept), same]

theorem query_congr {backend : LogBackend} {left right : SqliteLogStore} {service : String}
    (same : left.serviceDir? service = right.serviceDir? service) (filter : LogFilter) :
    left.query backend service filter = right.query backend service filter := by
  unfold SqliteLogStore.query
  rw [same]

theorem isolated_of_apart {first second : String} (apart : namePieces first ≠ namePieces second) :
    Isolated first second := by
  intro calls backend filter
  refine (query_congr (directory_appendAll (fun call dropped same => apart ?_) calls rfl) filter).symm
  have service : call.service = first := not_not.mp (of_decide_eq_false dropped)
  rw [← safeServicePath_eq_iff, ← same, service]

/-- The stored lines of a directory are read back under every name. -/
theorem ServiceDir.entries_under {dir : ServiceDir} {first : String} (second : String)
    {entry : StoredLog} (member : entry ∈ dir.entries first) :
    ∃ other ∈ dir.entries second, other.ts = entry.ts := by
  obtain ⟨db, present, inWeek⟩ := List.mem_flatMap.mp member
  obtain ⟨_, _, _, row, stored, _, time, _⟩ := WeekDb.of_mem_entries inWeek
  obtain ⟨other, decoded, otherTime, _⟩ :=
    decodeRow_of_fits (db.fits row stored) second db.name db.start
  refine ⟨other, List.mem_flatMap.mpr ⟨db, present, ?_⟩, otherTime.trans time.symm⟩
  exact List.mem_filterMap.mpr ⟨row, stored, decoded⟩

/-- A line of the first moment of Unix time. -/
def epochLine : LogLine := ⟨0, "", ⟨1⟩, .stdout, none, "started"⟩

def appendEpoch (service : String) : List AppendCall := [⟨service, [epochLine], {}⟩]

theorem exists_entry_appendEpoch (service : String) :
    ∃ entry, entry ∈ (afterAppends (appendEpoch service)).entries service := by
  obtain ⟨added, stored, lines, _⟩ := (append_grown .empty {} service [epochLine]).1
  have committed : (committedLines {} [epochLine]).Perm [epochLine] :=
    committedLines_of_succeeds (.inr ⟨rfl, fun _ _ => rfl⟩)
  have some : added ≠ [] := by
    intro none
    rw [none, List.map_nil, eq_comm, List.map_eq_nil_iff] at lines
    rw [lines] at committed
    exact List.cons_ne_nil _ _ (List.nil_perm.mp committed)
  obtain ⟨entry, member⟩ := List.exists_mem_of_ne_nil added some
  exact ⟨entry, stored.mem_iff.mpr (List.mem_append_right _ member)⟩

theorem query_nonempty {backend : LogBackend} {store : SqliteLogStore} {service : String}
    {entry : StoredLog} (member : entry ∈ store.entries service) :
    ∃ page, store.query backend service {} = .ok page ∧ page.items ≠ [] := by
  have fit : BoundsFit {} := by
    intro bound given
    rcases given with given | given
    · cases given
    · cases given
  have genuine : ∀ bound ∈ (none : Option LogCursor), GenuineCursor bound := by
    intro bound given
    cases given
  obtain ⟨page, answered, answers, _⟩ :=
    @query_older backend store service {} fit rfl none rfl genuine
  refine ⟨page, answered, fun empty => ?_⟩
  rw [answers.items, List.map_eq_nil_iff, List.rtake_eq_reverse_take_reverse,
    List.reverse_eq_nil_iff, List.take_eq_nil_iff] at empty
  have present : entry ∈ below StoredLog.position none (store.matching backend service {}) :=
    mem_below.mpr ⟨mem_matching.mpr ⟨member, rfl⟩, fun limit none => by cases none⟩
  rcases empty with noRoom | nothing
  · exact absurd noRoom (Nat.ne_of_gt (one_le_pageLimit {}))
  · rw [List.reverse_eq_nil_iff] at nothing
    exact List.ne_nil_of_mem present nothing

/-- One line under a name shows up under every other name of the directory. -/
theorem not_isolated_of_shared {first second : String}
    (shared : namePieces first = namePieces second) : ¬ Isolated first second := by
  intro isolated
  obtain ⟨entry, member⟩ := exists_entry_appendEpoch first
  have sameDir : (afterAppends (appendEpoch first)).serviceDir? second =
      (afterAppends (appendEpoch first)).serviceDir? first := by
    unfold SqliteLogStore.serviceDir?
    rw [safeServicePath_eq_iff.mpr shared]
  have visible : ∃ other, other ∈ (afterAppends (appendEpoch first)).entries second := by
    unfold SqliteLogStore.entries at member ⊢
    rw [sameDir]
    cases found : (afterAppends (appendEpoch first)).serviceDir? first with
    | none =>
        rw [found] at member
        cases member
    | some dir =>
        rw [found] at member
        obtain ⟨other, present, _⟩ := ServiceDir.entries_under second member
        exact ⟨other, present⟩
  obtain ⟨other, present⟩ := visible
  obtain ⟨page, answered, items⟩ := @query_nonempty jsonBackend _ _ _ present
  have same := isolated (appendEpoch first) jsonBackend {}
  have dropped : (appendEpoch first).filter (fun call => call.service ≠ first) = [] := by
    simp [appendEpoch]
  rw [dropped, answered] at same
  rw [Except.ok.inj same] at items
  exact items rfl

/-! ## The walks -/

theorem weekFilesSize_ok {size : WeekDb → Nat} {fails : String → Option String}
    {weeks : List WeekDb} {total : Nat} (done : weekFilesSize size fails weeks = .ok total) :
    total = (weeks.map size).sum := by
  induction weeks generalizing total with
  | nil =>
      cases done
      rfl
  | cons db rest ih =>
      unfold weekFilesSize at done
      rw [if_neg (not_not.mpr db.pathExtension_name)] at done
      cases failed : fails db.name with
      | some detail =>
          rw [failed] at done
          cases done
      | none =>
          rw [failed] at done
          dsimp only at done
          cases others : weekFilesSize size fails rest with
          | error fault =>
              rw [others] at done
              cases done
          | ok later =>
              rw [others] at done
              cases done
              rw [List.map_cons, List.sum_cons, ih others]

theorem le_directoriesSize {size : WeekDb → Nat} {fates : WalkFates}
    {directories : List (String × ServiceDir)} {total : Nat}
    (done : directoriesSize size fates directories = .ok total) {path : String} {dir : ServiceDir}
    (found : directories.lookup path = some dir) (sub : isSubdirectory path = true) :
    (dir.weeks.map size).sum ≤ total := by
  induction directories generalizing total with
  | nil => cases found
  | cons entry rest ih =>
      obtain ⟨name, here⟩ := entry
      unfold directoriesSize at done
      rw [List.lookup_cons] at found
      by_cases inside : isSubdirectory name = true
      · rw [inside] at done
        simp only [Bool.not_true, Bool.false_eq_true, if_false] at done
        cases failed : fates.directory name with
        | some detail =>
            rw [failed] at done
            cases done
        | none =>
            rw [failed] at done
            dsimp only at done
            cases first : weekFilesSize size (fates.file name) here.weeks with
            | error fault =>
                rw [first] at done
                cases done
            | ok size =>
                cases others : directoriesSize _ fates rest with
                | error fault =>
                    rw [first, others] at done
                    cases done
                | ok later =>
                    rw [first, others] at done
                    cases done
                    split at found
                    · cases found
                      exact (weekFilesSize_ok first).symm.trans_le (Nat.le_add_right _ _)
                    · exact (ih others found).trans (Nat.le_add_left _ _)
      · rw [Bool.not_eq_true] at inside
        rw [inside] at done
        split at found
        · next same =>
            rw [eq_of_beq same, inside] at sub
            cases sub
        · exact ih done found

theorem reached_of_subdirectory {service : String} (pieces : namePieces service ≠ []) :
    ReachedByWalks service := by
  have sub : isSubdirectory (safeServicePath service) = true :=
    decide_eq_true (mt safeServicePath_eq_empty_iff.mp pieces)
  intro calls fates
  constructor
  · intro cutoffMs after removed done entry member
    have left := SqliteLogStore.serviceDir_deleteBefore done sub
    unfold SqliteLogStore.entries at member
    rw [left] at member
    cases found : (afterAppends calls).serviceDir? service with
    | none =>
        rw [found] at member
        cases member
    | some dir =>
        rw [found] at member
        obtain ⟨db, kept, inWeek⟩ := List.mem_flatMap.mp member
        rw [(WeekDb.of_mem_entries inWeek).2.1]
        exact of_decide_eq_true (List.mem_filter.mp kept).2
  · intro size total done dir found
    unfold SqliteLogStore.databaseSizeBytes at done
    split at done
    · cases done
    · exact le_directoriesSize done found sub

theorem mem_directories_append {store : SqliteLogStore} {fates : AppendFates} {service : String}
    {lines : List LogLine} {entry : String × ServiceDir}
    (member : entry ∈ (store.append fates service lines).1.directories) :
    entry.1 = safeServicePath service ∨ entry ∈ store.directories := by
  unfold SqliteLogStore.append at member
  split at member
  · exact .inr member
  · split at member
    · exact .inr member
    · rcases List.mem_cons.mp member with rfl | old
      · exact .inl rfl
      · exact .inr (List.mem_filter.mp old).1

theorem deleteDirectories_root (cutoffMs : Int) (fates : WalkFates)
    {directories : List (String × ServiceDir)}
    (root : ∀ entry ∈ directories, isSubdirectory entry.1 = false) :
    deleteDirectories cutoffMs fates directories = (directories, .ok []) := by
  induction directories with
  | nil => rfl
  | cons entry rest ih =>
      unfold deleteDirectories
      rw [root entry List.mem_cons_self, ih fun other member => root other (.tail _ member)]
      rfl

/-- Files in the root are no directories, so the walks pass them by. -/
theorem not_reached_of_root {service : String} (pieces : namePieces service = []) :
    ¬ ReachedByWalks service := by
  intro reached
  obtain ⟨entry, member⟩ := exists_entry_appendEpoch service
  have root : ∀ entry ∈ (afterAppends (appendEpoch service)).directories,
      isSubdirectory entry.1 = false := by
    intro entry member
    rcases mem_directories_append member with named | nothing
    · rw [named, safeServicePath_eq_empty_iff.mpr pieces]
      rfl
    · cases nothing
  have passed := deleteDirectories_root (weekStartOf entry.ts + 1) {} root
  have done : (afterAppends (appendEpoch service)).deleteBefore {} (weekStartOf entry.ts + 1) =
      (afterAppends (appendEpoch service), .ok []) := by
    unfold SqliteLogStore.deleteBefore
    simp only [passed]
    rfl
  have started := (reached (appendEpoch service) {}).1 _ _ _ done entry member
  omega

/-- Services are apart exactly when their names are cut into different pieces, and are
reached exactly when there is a piece. -/
theorem services_apart_iff (first second : String) :
    (Isolated first second ↔ namePieces first ≠ namePieces second) ∧
      (ReachedByWalks first ↔ namePieces first ≠ []) := by
  refine ⟨⟨fun isolated shared => ?_, isolated_of_apart⟩, ⟨fun reached none => ?_, ?_⟩⟩
  · exact not_isolated_of_shared shared isolated
  · exact not_reached_of_root none reached
  · exact reached_of_subdirectory

theorem separators_are_lost :
    (¬ ∀ first second, IsServiceName first → IsServiceName second → first ≠ second →
      Isolated first second) ∧ ¬ ∀ service, IsServiceName service → ReachedByWalks service := by
  constructor
  · intro always
    exact not_isolated_of_shared (by decide)
      (always "shop/web" "shop_web" (by decide) (by decide) (by decide))
  · intro always
    exact not_reached_of_root (by decide) (always "/" (by decide))

end Vpsiner.Logs
