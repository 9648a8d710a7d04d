import Vpsiner.Lib.Machine
import Vpsiner.Model.ContainerId
import Vpsiner.Model.Containers

/-! Starting, stopping and restarting containers, and the probe that decides whether that is
possible. -/

set_option autoImplicit false

namespace Vpsiner

inductive DockerControlsMode where
  | auto
  | enabled
  | disabled
deriving DecidableEq, Repr

inductive ContainerCommandResult where
  | submitted
  | noop
deriving DecidableEq, Repr

def ContainerSummary.logId (container : ContainerSummary) : String :=
  s!"{String.ofList container.id.toHex}@{container.service}"

/-- How `{:?}` prints a state. -/
def ContainerState.debug : ContainerState → String
  | .created => "Created"
  | .restarting => "Restarting"
  | .running => "Running"
  | .removing => "Removing"
  | .paused => "Paused"
  | .exited => "Exited"
  | .dead => "Dead"
  | .stopping => "Stopping"
  | .empty => "Empty"

/-- The status of the response to a failed request. -/
def AppError.status : AppError → Nat
  | .notFound _ => 404
  | .badRequest _ => 400
  | .conflict _ => 409
  | .forbidden _ => 403
  | .unimplemented _ => 501
  | .docker _ => 502
  | .storage _ => 500
  | .host _ => 500

/-- The `error` of its body. -/
def AppError.text : AppError → String
  | .docker detail => s!"docker error: {detail}"
  | .storage detail => s!"storage error: {detail}"
  | .host detail => s!"host metrics error: {detail}"
  | .notFound detail => s!"not found: {detail}"
  | .badRequest detail => s!"invalid request: {detail}"
  | .conflict detail => s!"conflict: {detail}"
  | .forbidden detail => s!"forbidden: {detail}"
  | .unimplemented detail => s!"not implemented: {detail}"

namespace Docker

/-- The pings and whatever could change a container. Reads (lists, inspections, events, logs and
statistics) are left out. -/
inductive DockerRequest where
  | ping
  | start (id : String)
  | stop (id : String)
  | restart (id : String)
deriving DecidableEq, Repr

/-- The fields of the service that the controls use. -/
structure DockerService where
  connected : Bool := true
  controlsAvailable : Bool
  containersInfo : List ContainerSummary := []
deriving DecidableEq, Repr

namespace DockerService

def containerInfo (docker : DockerService) (id : ContainerId) : Option ContainerSummary :=
  docker.containersInfo.find? fun container => container.id = id

end DockerService

private def fail {α : Type} (err : AppError) : AppResult α := .error (.error err)

def ensureConnected (connected : Bool) : AppResult Unit :=
  if connected then .ok () else fail (.docker "docker socket/proxy is unreachable")

inductive ContainerAction where
  | start
  | stop
  | restart
deriving DecidableEq, Repr

def ContainerAction.text : ContainerAction → String
  | .start => "start"
  | .stop => "stop"
  | .restart => "restart"

/-- What an action does with a container in a given state: it has nothing to do, it sends a request
or not, or it is refused. -/
inductive Reaction where
  | noop
  | submit (request : Option (String → DockerRequest))
  | conflict

/-- The checks shared by the three commands, up to the reaction to the state. The request is sent
by a task of its own, whose failure is only logged. -/
def command (action : ContainerAction) (react : ContainerState → Reaction)
    (docker : DockerService) (id : ContainerId) :
    AppResult (ContainerCommandResult × List DockerRequest) := do
  ensureConnected docker.connected
  if docker.controlsAvailable then
    match docker.containerInfo id with
    | none => fail (.notFound s!"container not found: {String.ofList id.toHex}")
    | some container =>
        match container.state with
        | none => fail (.docker s!"container state unknown: {container.logId}")
        | some state =>
            match react state with
            | .noop => .ok (.noop, [])
            | .submit request =>
                .ok (.submitted, (request.map fun send => send container.fullId).toList)
            | .conflict =>
                fail (.conflict
                  s!"cannot {action.text} container while state is Some({state.debug})")
  else fail (.forbidden "container controls are disabled or unavailable on this backend")

def startContainer : DockerService → ContainerId →
    AppResult (ContainerCommandResult × List DockerRequest) :=
  command .start fun
    | .running => .noop
    | .removing | .dead | .restarting => .conflict
    | _ => .submit (some .start)

def stopContainer : DockerService → ContainerId →
    AppResult (ContainerCommandResult × List DockerRequest) :=
  command .stop fun
    | .created | .exited => .noop
    | .removing | .dead => .conflict
    | _ => .submit (some .stop)

/-- A container that has ended is started instead. -/
def restartContainer : DockerService → ContainerId →
    AppResult (ContainerCommandResult × List DockerRequest) :=
  command .restart fun
    | .created | .exited => .submit (some .start)
    | .running | .paused => .submit (some .restart)
    | .removing | .dead | .restarting => .conflict
    | _ => .submit none

def runAction (docker : DockerService) (id : String) (action : ContainerAction) :
    AppResult (ContainerCommandResult × List DockerRequest) :=
  match ContainerId.parse id with
  | none => fail (.badRequest "invalid container id")
  | some id =>
      match action with
      | .start => startContainer docker id
      | .stop => stopContainer docker id
      | .restart => restartContainer docker id

/-- The response and the requests that go to the daemon. -/
def respond (docker : DockerService) (id : String) (action : ContainerAction) :
    Nat × List DockerRequest :=
  match runAction docker id action with
  | .ok (_, requests) => (204, requests)
  | .error (.error err) => (err.status, [])
  | .error (.panic _) => (500, [])

/-! ## The probe -/

def probeId : String := "vpsiner-write-probe-0000000000000000000000000000000000000000"

/-- How the daemon or the proxy answers the write probe. -/
inductive ProbeAnswer where
  | timeout
  | started
  | serverError (statusCode : Nat)
  | otherError
deriving DecidableEq, Repr

/-- None when the probe itself failed. -/
def supportsWriteOperations : ProbeAnswer → Option Bool
  | .timeout => none
  | .started => some true
  | .serverError statusCode => some (statusCode = 404)
  | .otherError => none

/-- `sent` are the pings and the state-changing requests ever sent, `answers` the answers to the write probe and `pings` the
outcomes of the pings, the latest first in both. The program keeps none of them. -/
structure DockerControls where
  mode : DockerControlsMode
  docker : DockerService
  /-- The write probe is on its way. -/
  probing : Bool := false
  sent : List DockerRequest := []
  answers : List ProbeAnswer := []
  pings : List Bool := []
deriving DecidableEq, Repr

inductive ControlsAction where
  | ping (reachable : Bool)
  | answer (answer : ProbeAnswer)
  /-- The registry has listed the containers anew; the reads it does for that are left out. -/
  | refresh (containers : List ContainerSummary)
  | command (id : String) (action : ContainerAction)
deriving DecidableEq, Repr

namespace DockerControls

variable (state : DockerControls)

def step : ControlsAction → Option DockerControls
  | .ping reachable =>
      if state.probing then none
      else some { state with
        docker := { state.docker with connected := reachable }
        probing := reachable ∧ state.mode = .auto
        sent := state.sent ++ .ping ::
          if reachable ∧ state.mode = .auto then [.start probeId] else []
        pings := reachable :: state.pings }
  | .answer answer =>
      if state.probing then
        some { state with
          docker := match supportsWriteOperations answer with
            | some available => { state.docker with controlsAvailable := available }
            | none => state.docker
          probing := false
          answers := answer :: state.answers }
      else none
  | .refresh containers =>
      some { state with docker := { state.docker with containersInfo := containers } }
  | .command id action =>
      some { state with sent := state.sent ++ (respond state.docker id action).2 }

end DockerControls

def dockerControls (mode : DockerControlsMode) : Lib.Machine DockerControls ControlsAction where
  start := { mode, docker := { controlsAvailable := mode = .enabled } }
  step := DockerControls.step

end Docker

end Vpsiner
