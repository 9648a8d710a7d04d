/-! A watch channel keeps only the newest value; a receiver remembers which version
of it was read last. -/

set_option autoImplicit false

namespace Vpsiner.Lib

structure Watch (α : Type) where
  value : α
  version : Nat := 0
deriving DecidableEq, Repr

namespace Watch

variable {α : Type}

def send (channel : Watch α) (value : α) : Watch α := ⟨value, channel.version + 1⟩

/-- A new receiver has seen the current version. -/
def subscribe (channel : Watch α) : Nat := channel.version

def hasChanged (channel : Watch α) (seen : Nat) : Bool := seen != channel.version

end Watch

end Vpsiner.Lib
