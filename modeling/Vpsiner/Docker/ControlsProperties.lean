import Vpsiner.Docker.Controls

/-! When a container may be commanded, over every run of the probe and the commands. -/

set_option autoImplicit false

namespace Vpsiner.Docker

open Lib

/-- Which request an action sends in which state, `none` where the action is refused, has nothing
to do or does nothing. -/
def requestIn : ContainerAction → ContainerState → Option (String → DockerRequest)
  | .start, .created | .start, .paused | .start, .exited | .start, .stopping | .start, .empty =>
      some .start
  | .stop, .running | .stop, .restarting | .stop, .paused | .stop, .stopping | .stop, .empty =>
      some .stop
  | .restart, .created | .restart, .exited => some .start
  | .restart, .running | .restart, .paused => some .restart
  | _, _ => none

/-- The service would send this request for a command. -/
structure Commands (docker : DockerService) (request : DockerRequest) : Prop where
  connected : docker.connected = true
  controls : docker.controlsAvailable = true
  listed : ∃ container ∈ docker.containersInfo, ∃ action state send,
    container.state = some state ∧ requestIn action state = some send ∧
      request = send container.fullId

theorem bind_eq_ok {α β : Type} {first : AppResult α} {next : α → AppResult β} {result : β}
    (ok : (first >>= next) = .ok result) : ∃ value, first = .ok value ∧ next value = .ok result := by
  cases first with
  | error err => cases ok
  | ok value => exact ⟨value, rfl, ok⟩

theorem command_sends {action : ContainerAction} {react : ContainerState → Reaction}
    {docker : DockerService} {id : ContainerId} {result : ContainerCommandResult}
    {requests : List DockerRequest} {request : DockerRequest}
    (tables : ∀ state send, react state = .submit (some send) → requestIn action state = some send)
    (done : command action react docker id = .ok (result, requests)) (sent : request ∈ requests) :
    Commands docker request := by
  unfold command at done
  obtain ⟨_, reachable, done⟩ := bind_eq_ok done
  have connected : docker.connected = true := by
    unfold ensureConnected at reachable
    split at reachable
    · assumption
    · cases reachable
  split at done
  · next controls =>
      split at done
      · cases done
      · next container found =>
          split at done
          · cases done
          · next state known =>
              split at done
              · cases done
                cases sent
              · next choice reacts =>
                  cases done
                  cases choice with
                  | none => cases sent
                  | some send =>
                      refine ⟨connected, controls, container, List.mem_of_find?_eq_some found,
                        action, state, send, known, tables state send reacts, ?_⟩
                      simpa using sent
              · cases done
  · cases done

/-- Only a command that is answered with 204 sends anything, and what it sends is for a container
that is listed in a state that calls for it. -/
theorem respond_sends {docker : DockerService} {id : String} {action : ContainerAction}
    {request : DockerRequest} (sent : request ∈ (respond docker id action).2) :
    (respond docker id action).1 = 204 ∧ Commands docker request := by
  unfold respond at sent ⊢
  split at sent
  · next result requests done =>
      refine ⟨rfl, ?_⟩
      unfold runAction at done
      split at done
      · cases done
      · cases action with
        | start =>
            refine command_sends ?_ done sent
            intro state send reacts
            cases state <;> simp_all [requestIn]
        | stop =>
            refine command_sends ?_ done sent
            intro state send reacts
            cases state <;> simp_all [requestIn]
        | restart =>
            refine command_sends ?_ done sent
            intro state send reacts
            cases state <;> simp_all [requestIn]
  · cases sent
  · cases sent

namespace DockerControls

variable {mode : DockerControlsMode} {state after : DockerControls} {action : ControlsAction}

/-- The latest answer to the write probe that said anything. -/
def lastAnswer (state : DockerControls) : Option Bool :=
  state.answers.findSome? supportsWriteOperations

/-- The flag is set by the configuration, or by the latest answer. -/
def controlsKnown (mode : DockerControlsMode) (state : DockerControls) : Bool :=
  match mode with
  | .auto => state.lastAnswer.getD false
  | .enabled => true
  | .disabled => false

/-- What is known of the flags and of the pings and state-changing requests sent at any time. -/
structure ControlsInv (mode : DockerControlsMode) (state : DockerControls) : Prop where
  configured : state.mode = mode
  connected : state.docker.connected = state.pings.head?.getD true
  controls : state.docker.controlsAvailable = controlsKnown mode state
  probing : state.probing = true → mode = .auto
  sent : ∀ request ∈ state.sent, request = .ping ∨
    (request = .start probeId ∧ mode = .auto) ∨
      ∃ before, (dockerControls mode).Reachable Machine.anyStep before ∧
        Commands before.docker request

theorem ControlsInv.ping (inv : ControlsInv mode state) (reachable : Bool) :
    ControlsInv mode { state with
      docker := { state.docker with connected := reachable }
      probing := reachable ∧ state.mode = .auto
      sent := state.sent ++ .ping :: if reachable ∧ state.mode = .auto then [.start probeId] else []
      pings := reachable :: state.pings } where
  configured := inv.configured
  connected := rfl
  controls := inv.controls
  probing probes := by
    rw [← inv.configured]
    exact (of_decide_eq_true probes).2
  sent request member := by
    rcases List.mem_append.mp member with older | newer
    · exact inv.sent request older
    · rcases List.mem_cons.mp newer with rfl | probe
      · exact .inl rfl
      · split at probe
        · next auto =>
            rw [List.mem_singleton.mp probe]
            exact .inr (.inl ⟨rfl, inv.configured ▸ auto.2⟩)
        · cases probe

theorem ControlsInv.answer (inv : ControlsInv mode state) (probing : state.probing = true)
    (answer : ProbeAnswer) :
    ControlsInv mode { state with
      docker := match supportsWriteOperations answer with
        | some available => { state.docker with controlsAvailable := available }
        | none => state.docker
      probing := false
      answers := answer :: state.answers } := by
  have auto := inv.probing probing
  subst auto
  have controls := inv.controls
  refine ⟨inv.configured, ?_, ?_, (fun again => nomatch again), inv.sent⟩
  · rw [← inv.connected]
    dsimp only
    split <;> rfl
  · cases said : supportsWriteOperations answer with
    | none => simpa [controlsKnown, lastAnswer, said] using controls
    | some available => simp [controlsKnown, lastAnswer, said]

theorem ControlsInv.command (inv : ControlsInv mode state)
    (reached : (dockerControls mode).Reachable Machine.anyStep state) (id : String)
    (action : ContainerAction) :
    ControlsInv mode { state with sent := state.sent ++ (respond state.docker id action).2 } where
  configured := inv.configured
  connected := inv.connected
  controls := inv.controls
  probing := inv.probing
  sent request member := by
    rcases List.mem_append.mp member with older | newer
    · exact inv.sent request older
    · exact .inr (.inr ⟨state, reached, (respond_sends newer).2⟩)

end DockerControls

end Vpsiner.Docker
