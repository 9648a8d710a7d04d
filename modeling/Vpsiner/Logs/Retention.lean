import Vpsiner.Logs.Store

/-! The two walks over the root directory of the store: the size of all databases, and the
removal of the week files that lie before a cutoff. -/

set_option autoImplicit false

namespace Vpsiner.Logs

open Vpsiner.Lib

/-- `Path::extension`: what follows the last dot, unless nothing is before it. -/
def pathExtension (fileName : String) : Option String :=
  let reversed := fileName.toList.reverse
  match reversed.dropWhile (· ≠ '.') with
  | [] | [_] => none
  | _ => some (String.ofList (reversed.takeWhile (· ≠ '.')).reverse)

/-- What can fail on a walk: reading the root, a directory in it, or a file. -/
structure WalkFates where
  root : Option String := none
  directory : String → Option String := fun _ => none
  file : String → String → Option String := fun _ _ => none

/-- A service whose path is empty has its files in the root, which are no directories. -/
def isSubdirectory (name : String) : Bool := name ≠ ""

/-! ## Size -/

def weekFilesSize (size : WeekDb → Nat) (fails : String → Option String) :
    List WeekDb → AppResult Nat
  | [] => .ok 0
  | db :: rest =>
      if pathExtension db.name ≠ some "db" then weekFilesSize size fails rest
      else
        match fails db.name with
        | some detail => .error (storage detail)
        | none => (weekFilesSize size fails rest).map (size db + ·)

def directoriesSize (size : WeekDb → Nat) (fates : WalkFates) :
    List (String × ServiceDir) → AppResult Nat
  | [] => .ok 0
  | (name, dir) :: rest =>
      if !isSubdirectory name then directoriesSize size fates rest
      else
        match fates.directory name with
        | some detail => .error (storage detail)
        | none => do
            let here ← weekFilesSize size (fates.file name) dir.weeks
            let others ← directoriesSize size fates rest
            return here + others

namespace SqliteLogStore

/-- `size` is the length of a database file. -/
def databaseSizeBytes (store : SqliteLogStore) (size : WeekDb → Nat) (fates : WalkFates) :
    AppResult Nat :=
  match fates.root with
  | some detail => .error (storage detail)
  | none => directoriesSize size fates store.directories

end SqliteLogStore

/-! ## Removal -/

/-- A week file that began before the cutoff. -/
def expired (cutoffMs : Int) (name : String) : Bool :=
  pathExtension name == some "db" && (databaseWeekStartMs name).any fun start => start < cutoffMs

/-- The week files that are left, and the names of the removed ones. -/
def deleteWeeks (cutoffMs : Int) (serviceName : String) (fails : String → Option String) :
    List WeekDb → List WeekDb × AppResult (List String)
  | [] => ([], .ok [])
  | db :: rest =>
      if expired cutoffMs db.name then
        match fails db.name with
        | some detail => (db :: rest, .error (storage detail))
        | none =>
            let (kept, removed) := deleteWeeks cutoffMs serviceName fails rest
            (kept, removed.map fun names => (serviceName ++ "/" ++ db.name) :: names)
      else
        let (kept, removed) := deleteWeeks cutoffMs serviceName fails rest
        (db :: kept, removed)

theorem deleteWeeks_sublist (cutoffMs : Int) (serviceName : String) (fails : String → Option String)
    (weeks : List WeekDb) : (deleteWeeks cutoffMs serviceName fails weeks).1.Sublist weeks := by
  induction weeks with
  | nil => exact .slnil
  | cons db rest ih =>
      unfold deleteWeeks
      split
      · cases fails db.name with
        | some detail => exact .refl _
        | none => exact ih.cons db
      · exact ih.cons_cons db

def ServiceDir.deleteBefore (dir : ServiceDir) (cutoffMs : Int) (serviceName : String)
    (fails : String → Option String) : ServiceDir × AppResult (List String) where
  fst := {
    weeks := (deleteWeeks cutoffMs serviceName fails dir.weeks).1
    distinct := dir.distinct.sublist ((deleteWeeks_sublist _ _ _ _).map WeekDb.name) }
  snd := (deleteWeeks cutoffMs serviceName fails dir.weeks).2

def deleteDirectories (cutoffMs : Int) (fates : WalkFates) :
    List (String × ServiceDir) → List (String × ServiceDir) × AppResult (List String)
  | [] => ([], .ok [])
  | (name, dir) :: rest =>
      if !isSubdirectory name then
        let (kept, removed) := deleteDirectories cutoffMs fates rest
        ((name, dir) :: kept, removed)
      else
        match fates.directory name with
        | some detail => ((name, dir) :: rest, .error (storage detail))
        | none =>
            match dir.deleteBefore cutoffMs name (fates.file name) with
            | (dir, .error fault) => ((name, dir) :: rest, .error fault)
            | (dir, .ok names) =>
                let (kept, removed) := deleteDirectories cutoffMs fates rest
                ((name, dir) :: kept, removed.map (names ++ ·))

theorem deleteDirectories_names (cutoffMs : Int) (fates : WalkFates)
    (directories : List (String × ServiceDir)) :
    (deleteDirectories cutoffMs fates directories).1.map Prod.fst = directories.map Prod.fst := by
  induction directories with
  | nil => rfl
  | cons entry rest ih =>
      unfold deleteDirectories
      split
      · exact congrArg (entry.1 :: ·) ih
      · cases fates.directory entry.1 with
        | some detail => rfl
        | none =>
            dsimp only
            cases entry.2.deleteBefore cutoffMs entry.1 (fates.file entry.1) with
            | mk dir result =>
                cases result with
                | error fault => rfl
                | ok names => exact congrArg (entry.1 :: ·) ih

namespace SqliteLogStore

def deleteBefore (store : SqliteLogStore) (fates : WalkFates) (cutoffMs : Int) :
    SqliteLogStore × AppResult (List String) :=
  match fates.root with
  | some detail => (store, .error (storage detail))
  | none => {
      fst := {
        directories := (deleteDirectories cutoffMs fates store.directories).1
        distinct := by
          rw [deleteDirectories_names]
          exact store.distinct }
      snd := (deleteDirectories cutoffMs fates store.directories).2.map fun names =>
        names.insertionSort (· ≤ ·) }

end SqliteLogStore

end Vpsiner.Logs
