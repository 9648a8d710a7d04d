import Vpsiner.Metrics.Store

/-! Deleting expired samples: one statement after the other, every table on its own. -/

set_option autoImplicit false

namespace Vpsiner.Metrics

inductive MetricsTable where
  | host (resolution : MetricsResolution)
  | containers (resolution : MetricsResolution)
deriving DecidableEq, Repr

/-- The order of the statements. -/
def deleteOrder : List MetricsTable :=
  [.tenSeconds, .oneMinute, .fiveMinutes, .oneHour].flatMap fun resolution =>
    [.host resolution, .containers resolution]

/-- The database after one statement, and the number of rows it affected. -/
def deleteFrom (cutoffMs : Int) (db : MetricsDb) : MetricsTable → MetricsDb × Nat
  | .host resolution =>
      (deleteHostBefore db resolution cutoffMs,
        ((db.host resolution).rows.filter fun sample => sample.ts < cutoffMs).length)
  | .containers resolution =>
      (deleteContainersBefore db resolution cutoffMs,
        ((db.containers resolution).rows.filter fun sample => sample.ts < cutoffMs).length)

/-- What was deleted before a failure stays deleted. -/
def deleteFromAll (cutoffMs : Int) (fails : MetricsTable → Option String) :
    List MetricsTable → MetricsDb → MetricsDb × AppResult Nat
  | [], db => (db, .ok 0)
  | table :: rest, db =>
      match fails table with
      | some detail => (db, .error (storage detail))
      | none =>
          let (db, here) := deleteFrom cutoffMs db table
          let (db, others) := deleteFromAll cutoffMs fails rest db
          (db, others.map (here + ·))

def SqliteMetricsStore.deleteBefore (store : SqliteMetricsStore)
    (fails : MetricsTable → Option String) (cutoffMs : Int) :
    SqliteMetricsStore × AppResult Nat :=
  let (db, deleted) := deleteFromAll cutoffMs fails deleteOrder store.db
  ({ store with db }, deleted)

theorem containers_deleteFrom (cutoffMs : Int) (db : MetricsDb) (table : MetricsTable)
    (resolution : MetricsResolution) :
    ((deleteFrom cutoffMs db table).1.containers resolution).rows =
      if .containers resolution = table then
        (db.containers resolution).rows.filter fun sample => !decide (sample.ts < cutoffMs)
      else (db.containers resolution).rows := by
  cases table with
  | host other => rfl
  | containers other =>
      unfold deleteFrom deleteContainersBefore
      rw [MetricsDb.containers_setContainers]
      by_cases same : resolution = other
      · subst same
        rw [if_pos rfl, if_pos rfl]
        rfl
      · rw [if_neg same, if_neg fun named => same (MetricsTable.containers.inj named)]

theorem containers_deleteFromAll {cutoffMs : Int} {fails : MetricsTable → Option String}
    {tables : List MetricsTable} {db : MetricsDb} {deleted : Nat}
    (done : (deleteFromAll cutoffMs fails tables db).2 = .ok deleted) (resolution : MetricsResolution)
    (row : ContainerSample) :
    row ∈ ((deleteFromAll cutoffMs fails tables db).1.containers resolution).rows ↔
      row ∈ (db.containers resolution).rows ∧
        (.containers resolution ∈ tables → cutoffMs ≤ row.ts) := by
  induction tables generalizing db deleted with
  | nil => simp [deleteFromAll]
  | cons table rest ih =>
      unfold deleteFromAll at done ⊢
      cases failed : fails table with
      | some detail =>
          rw [failed] at done
          cases done
      | none =>
          rw [failed] at done
          dsimp only at done ⊢
          cases later : (deleteFromAll cutoffMs fails rest (deleteFrom cutoffMs db table).1).2 with
          | error fault =>
              rw [later] at done
              cases done
          | ok others =>
              rw [ih later, containers_deleteFrom, List.mem_cons]
              split
              · next same =>
                  simp only [same, true_or, forall_const, List.mem_filter, Bool.not_eq_true',
                    decide_eq_false_iff_not, not_lt]
                  exact ⟨fun both => both.1, fun kept => ⟨kept, fun _ => kept.2⟩⟩
              · next different => simp [different]

/-- When it succeeds exactly the rows from the cutoff on are left in every table. -/
theorem containers_deleteBefore {store after : SqliteMetricsStore}
    {fails : MetricsTable → Option String} {cutoffMs : Int} {deleted : Nat}
    (done : store.deleteBefore fails cutoffMs = (after, .ok deleted))
    (resolution : MetricsResolution) (row : ContainerSample) :
    row ∈ (after.db.containers resolution).rows ↔
      row ∈ (store.db.containers resolution).rows ∧ cutoffMs ≤ row.ts := by
  have result : (deleteFromAll cutoffMs fails deleteOrder store.db).2 = .ok deleted :=
    congrArg Prod.snd done
  have shape : (deleteFromAll cutoffMs fails deleteOrder store.db).1 = after.db :=
    congrArg (fun outcome => outcome.1.db) done
  have listed : MetricsTable.containers resolution ∈ deleteOrder := by
    cases resolution <;> decide
  rw [← shape, containers_deleteFromAll result]
  exact and_congr_right fun _ => forall_prop_of_true listed

end Vpsiner.Metrics
