import Vpsiner.Lib.Watch
import Vpsiner.Metrics.Downsampling

/-! Turns "a raw sample was persisted" into "a resolution's bucket just finished". -/

set_option autoImplicit false

namespace Vpsiner.Metrics

open Lib

structure ResolutionChannel where
  lastBucketEnd : Int := 0
  tx : Watch Int := ⟨0, 0⟩
deriving DecidableEq, Repr

def ResolutionChannel.observe (channel : ResolutionChannel) (ts bucketMs : Int) :
    ResolutionChannel :=
  let stop := bucketEnd ts bucketMs
  if channel.lastBucketEnd < stop then ⟨stop, channel.tx.send stop⟩ else channel

/-- Observing a sample sends at most one notification. -/
theorem ResolutionChannel.observe_cases (channel : ResolutionChannel) (ts bucketMs : Int) :
    channel.observe ts bucketMs = channel ∨
      (channel.observe ts bucketMs).tx.version = channel.tx.version + 1 := by
  simp only [observe]
  split
  · exact .inr rfl
  · exact .inl rfl

inductive MetricsSource where
  | host
  | containers
deriving DecidableEq, Repr

structure BucketWatcher where
  host : MetricsResolution → ResolutionChannel := fun _ => {}
  containers : MetricsResolution → ResolutionChannel := fun _ => {}

namespace BucketWatcher

def channels (watcher : BucketWatcher) : MetricsSource → MetricsResolution → ResolutionChannel
  | .host => watcher.host
  | .containers => watcher.containers

/-- A single sample can complete buckets across multiple resolutions at once. -/
def observeSample (watcher : BucketWatcher) (source : MetricsSource) (ts : Int) : BucketWatcher :=
  let observed := fun resolution : MetricsResolution =>
    (watcher.channels source resolution).observe ts resolution.bucketMs
  match source with
  | .host => { watcher with host := observed }
  | .containers => { watcher with containers := observed }

end BucketWatcher

end Vpsiner.Metrics
