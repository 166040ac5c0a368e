import FileMonitor.Domain.Models
import FileMonitor.Library.Dict
import Mathlib.Data.List.Sort
import Mathlib.Data.Rat.Defs
import Mathlib.Algebra.Order.Ring.Rat

/-!
# The sender registry

`services/registry.py`: which senders are connected and alive.  A method that reads the clock takes
the time it reads as an argument; times are exact rationals.
-/

namespace FileMonitor

/-- `MISSED_HEARTBEAT_LIMIT`. -/
def missedHeartbeatLimit : ℚ := 3

/-- `HEARTBEAT_INTERVAL_SECONDS`. -/
def heartbeatIntervalSeconds : ℚ := 5

/-- `SenderRegistry`. -/
structure SenderRegistry where
  timeoutSeconds : ℚ
  lastSeen : Dict SenderId ℚ
deriving DecidableEq

namespace SenderRegistry

/-- `SenderRegistry.__init__`. -/
def create (heartbeatInterval : ℚ) : SenderRegistry where
  timeoutSeconds := heartbeatInterval * missedHeartbeatLimit
  lastSeen := ∅

def register (registry : SenderRegistry) (senderId : SenderId) (now : ℚ) : SenderRegistry :=
  { registry with lastSeen := registry.lastSeen.insert senderId now }

def refresh (registry : SenderRegistry) (senderId : SenderId) (now : ℚ) : SenderRegistry :=
  registry.register senderId now

def remove (registry : SenderRegistry) (senderId : SenderId) : SenderRegistry :=
  { registry with lastSeen := registry.lastSeen.erase senderId }

/-- The list `expired` of `_purge_expired`. -/
def expired (registry : SenderRegistry) (now : ℚ) : List SenderId :=
  (registry.lastSeen.entries.filter fun entry =>
    decide (registry.timeoutSeconds ≤ now - entry.2)).map Sigma.fst

/-- `_purge_expired`. -/
def purgeExpired (registry : SenderRegistry) (now : ℚ) : SenderRegistry :=
  { registry with
    lastSeen := (registry.expired now).foldl (fun lastSeen senderId => lastSeen.erase senderId)
      registry.lastSeen }

/-- `active_senders`: the sorted ids, and the registry after the purge. -/
def activeSenders (registry : SenderRegistry) (now : ℚ) : List SenderId × SenderRegistry :=
  let purged := registry.purgeExpired now
  (purged.lastSeen.keys.insertionSort (· ≤ ·), purged)

end SenderRegistry

end FileMonitor
