/-
  Nse.Core.TraceHarvester — the methods of a `TraceHarvester` that wait: `start` and
  `aclose` (`nse/core/trace_harvester.py`). The read loop they start and end is part of
  the world the pipeline runs in (`Nse.Core.World`).
-/

import Nse.Core.Effects

namespace Nse.TraceHarvester

def start (netns : String) (timeout : Nat) (useNsenter : Bool) : Prog Unit := do
  perform .reset
  perform (.spawnMonitor (execPrefix useNsenter netns ++ [.bin "nft", .str "monitor", .str "trace"]))
  perform (.launch timeout)

/-- The wait of `aclose`: let the loop drain; past the timeout, cancel it and wait. -/
def drain (timeout : Nat) : Prog Unit :=
  (perform (.awaitTask timeout)).tryCatch fun e =>
    if e.cls = .timeoutError then do
      perform .cancelTask
      suppress (fun _ => true) (perform .joinTask)
    else if e.cls = .cancelledError then perform .setStopped
    else raise e

def aclose (timeout : Nat) : Prog HarvestState := do
  perform .stop
  let pending ← perform .taskPending
  ifSo pending (drain timeout)
  let st ← perform .harvestState
  ifSo (st = .running) (perform .setStopped)
  perform .harvestState

end Nse.TraceHarvester
