/-! A worker that coalesces requests. Requests go through a channel that holds one token; the
worker takes a token, sleeps, drains what came in the meantime, and then does one update. -/

set_option autoImplicit false

namespace Vpsiner.Lib

inductive WorkerPhase where
  | receiving
  | sleeping
  | draining
  /-- The channel was found empty. -/
  | drained
  | updating
  | stopped
deriving DecidableEq, Repr

/-- `requests` counts the requests ever made, and `served` those that were made before the last
update started; the program keeps neither. -/
structure Coalescer where
  token : Bool := false
  phase : WorkerPhase := .receiving
  requests : Nat := 0
  served : Nat := 0
deriving DecidableEq, Repr

namespace Coalescer

variable (worker : Coalescer)

/-- `try_send`, which does not mind a full channel. -/
def request : Coalescer := { worker with token := true, requests := worker.requests + 1 }

/-- The worker sleeps on an empty channel. -/
def receive : Option Coalescer :=
  if worker.phase = .receiving ∧ worker.token then
    some { worker with token := false, phase := .sleeping }
  else none

def wake : Option Coalescer :=
  if worker.phase = .sleeping then some { worker with phase := .draining } else none

/-- One `try_recv`; the first that finds nothing ends the loop. -/
def drain : Option Coalescer :=
  if worker.phase = .draining then
    some (if worker.token then { worker with token := false } else { worker with phase := .drained })
  else none

def start : Option Coalescer :=
  if worker.phase = .drained then
    some { worker with phase := .updating, served := worker.requests }
  else none

def finish : Option Coalescer :=
  if worker.phase = .updating then some { worker with phase := .receiving } else none

/-- The worker ends: the channel is closed and empty, or what it should update is gone. -/
def stop : Option Coalescer :=
  if worker.phase = .drained ∨ worker.phase = .receiving ∧ ¬ worker.token then
    some { worker with phase := .stopped }
  else none

def Pending : Prop := worker.served < worker.requests

/-- The worker has taken a token and has not started the update. -/
def Taken : Prop :=
  worker.phase = .sleeping ∨ worker.phase = .draining ∨ worker.phase = .drained

/-- A pending request has left a token, or the worker has one. -/
def Covered : Prop :=
  worker.Pending → worker.token = true ∨ worker.Taken ∨ worker.phase = .stopped

variable {worker} {after : Coalescer}

theorem receive_phase (taken : worker.receive = some after) :
    after.phase = .sleeping := by
  unfold Coalescer.receive at taken
  split at taken
  · cases taken
    rfl
  · cases taken

theorem wake_phase (taken : worker.wake = some after) :
    after.phase = .draining := by
  unfold Coalescer.wake at taken
  split at taken
  · cases taken
    rfl
  · cases taken

theorem drain_phase (taken : worker.drain = some after) :
    after.phase = .draining ∨ after.phase = .drained := by
  unfold Coalescer.drain at taken
  split at taken
  · next phase =>
      cases taken
      split
      · exact .inl phase
      · exact .inr rfl
  · cases taken

theorem start_phase (taken : worker.start = some after) :
    after.phase = .updating := by
  unfold Coalescer.start at taken
  split at taken
  · cases taken
    rfl
  · cases taken

theorem finish_phase (taken : worker.finish = some after) :
    after.phase = .receiving := by
  unfold Coalescer.finish at taken
  split at taken
  · cases taken
    rfl
  · cases taken

theorem covered_new : ({} : Coalescer).Covered := fun pending => absurd pending (Nat.lt_irrefl 0)

theorem Covered.request (worker : Coalescer) : worker.request.Covered := fun _ => .inl rfl

theorem Covered.receive (taken : worker.receive = some after) : after.Covered := by
  unfold Coalescer.receive at taken
  split at taken
  · cases taken
    exact fun _ => .inr (.inl (.inl rfl))
  · cases taken

theorem Covered.wake (taken : worker.wake = some after) : after.Covered := by
  unfold Coalescer.wake at taken
  split at taken
  · cases taken
    exact fun _ => .inr (.inl (.inr (.inl rfl)))
  · cases taken

theorem Covered.drain (taken : worker.drain = some after) : after.Covered := by
  unfold Coalescer.drain at taken
  split at taken
  · next phase =>
      cases taken
      split
      · exact fun _ => .inr (.inl (.inr (.inl phase)))
      · exact fun _ => .inr (.inl (.inr (.inr rfl)))
  · cases taken

theorem Covered.start (taken : worker.start = some after) : after.Covered := by
  unfold Coalescer.start at taken
  split at taken
  · cases taken
    exact fun pending => absurd pending (Nat.lt_irrefl _)
  · cases taken

/-- A request made during the update has left a token. -/
theorem Covered.finish (covered : worker.Covered) (taken : worker.finish = some after) :
    after.Covered := by
  unfold Coalescer.finish at taken
  split at taken
  · next phase =>
      cases taken
      intro pending
      rcases covered pending with token | busy | stopped
      · exact .inl token
      · unfold Taken at busy
        rw [phase] at busy
        rcases busy with other | other | other <;> cases other
      · rw [phase] at stopped
        cases stopped
  · cases taken

theorem Covered.stop (taken : worker.stop = some after) : after.Covered := by
  unfold Coalescer.stop at taken
  split at taken
  · cases taken
    exact fun _ => .inr (.inr rfl)
  · cases taken

/-- A worker that sleeps on an empty channel has served every request. -/
theorem Covered.not_pending (covered : worker.Covered) (waits : worker.phase = .receiving)
    (empty : worker.token = false) : ¬ worker.Pending := by
  intro pending
  rcases covered pending with token | busy | stopped
  · rw [empty] at token
    cases token
  · unfold Taken at busy
    rw [waits] at busy
    rcases busy with other | other | other <;> cases other
  · rw [waits] at stopped
    cases stopped

end Coalescer

end Vpsiner.Lib
