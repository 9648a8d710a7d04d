import Vpsiner.Model.Basic

/-! Containers as the registry lists them. -/

set_option autoImplicit false

namespace Vpsiner

inductive ContainerState where
  | created
  | restarting
  | running
  | removing
  | paused
  | exited
  | dead
  | stopping
  | empty
deriving DecidableEq, Repr

/-- The full id is never sent to a client. -/
structure ContainerSummary where
  id : ContainerId
  fullId : String
  name : String
  service : String
  image : String
  imageSha : String
  ports : List String
  labels : List String
  state : Option ContainerState
  startedAt : Option Int
deriving DecidableEq, Repr

end Vpsiner
