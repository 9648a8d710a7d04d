import Vpsiner.Model.Basic

/-! Log lines, the filter of a log query and the page that answers it. -/

set_option autoImplicit false

namespace Vpsiner

inductive LogStream where
  | stdout
  | stderr
deriving DecidableEq, Repr

namespace LogStream

def storageCode : LogStream → Int
  | stdout => 0
  | stderr => 1

def fromStorageCode (code : Int) : Option LogStream :=
  if code = 0 then some stdout
  else if code = 1 then some stderr
  else none

@[simp] theorem fromStorageCode_storageCode (stream : LogStream) :
    fromStorageCode stream.storageCode = some stream := by
  cases stream <;> rfl

end LogStream

inductive LogLevel where
  | debug
  | info
  | warn
  | error
deriving DecidableEq, Repr

namespace LogLevel

def storageCode : LogLevel → Int
  | debug => 20
  | info => 30
  | warn => 40
  | error => 50

def fromStorageCode (code : Int) : Option LogLevel :=
  if code = 20 then some debug
  else if code = 30 then some info
  else if code = 40 then some warn
  else if code = 50 then some error
  else none

@[simp] theorem fromStorageCode_storageCode (level : LogLevel) :
    fromStorageCode level.storageCode = some level := by
  cases level <;> rfl

end LogLevel

structure LogLine where
  ts : Int
  service : String
  cid : ContainerId
  stream : LogStream
  level : Option LogLevel
  line : String
deriving DecidableEq, Repr

structure LogCursor where
  ts : Int
  week : String
  id : Int
deriving DecidableEq, Repr

structure LogPage where
  items : List LogLine
  olderCursor : Option String
  newerCursor : Option String
  hasOlder : Bool
  hasNewer : Bool
deriving DecidableEq, Repr

structure LogFilter where
  fromMs : Option Int := none
  toMs : Option Int := none
  query : Option String := none
  levels : List LogLevel := []
  streams : List LogStream := []
  limit : Option Nat := none
  before : Option String := none
  after : Option String := none
deriving DecidableEq, Repr

end Vpsiner
