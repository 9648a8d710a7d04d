import Vpsiner.Metrics.Snapshot

/-! The latest values of the host, with the rates that the server computes from two consecutive
samples. -/

set_option autoImplicit false

namespace Vpsiner.Metrics

open Lib.Binary64

/-- The totals of memory and storage are copied from the sample and left out, as there. -/
structure CurrentHostPoint where
  ts : Int
  cpuPct : Option ℚ
  memUsed : Nat
  storageUsed : Nat
  metricsSize : Nat
  logsSize : Nat
  netRxRate : Option ℚ
  netTxRate : Option ℚ
  diskReadRate : Option ℚ
  diskWriteRate : Option ℚ
  logPressurePct : Option ℚ
  appRssBytes : Option Nat
deriving DecidableEq

/-- The rate of one counter since the previous sample of the host. -/
def hostRateSince (previous : Option HostRawSample) (sample : HostRawSample)
    (counter : HostRawSample → Nat) : Option ℚ := do
  let previous ← previous
  optionalRate (counter sample) (counter previous) (sample.ts - previous.ts)

def currentHostPoint (previous : Option HostRawSample) (sample : HostRawSample) :
    CurrentHostPoint where
  ts := sample.ts
  cpuPct := sample.cpuPct
  memUsed := sample.memUsed
  storageUsed := sample.storageUsed
  metricsSize := sample.metricsSize
  logsSize := sample.logsSize
  netRxRate := hostRateSince previous sample HostRawSample.netRx
  netTxRate := hostRateSince previous sample HostRawSample.netTx
  diskReadRate := hostRateSince previous sample HostRawSample.diskRead
  diskWriteRate := hostRateSince previous sample HostRawSample.diskWrite
  logPressurePct := some (rounded (rounded sample.logPressurePctMill / 1000))
  appRssBytes := sample.appRssBytes

structure HostState where
  current : Option CurrentHostPoint := none
  previous : Option HostRawSample := none
deriving DecidableEq

namespace HostState

def recordHost (state : HostState) (sample : HostRawSample) : HostState where
  current := some (currentHostPoint state.previous sample)
  previous := some sample

/-- A point older than the cutoff is not shown. -/
def currentHostAt (state : HostState) (cutoff : Int) : Option CurrentHostPoint :=
  state.current.filter fun point => cutoff ≤ point.ts

end HostState

end Vpsiner.Metrics
