/-
  Nse.Core.Naming — the names of a run's namespaces and interfaces (`nse/core/naming.py`).
-/

import Nse.Lib.PyStr

namespace Nse

structure NamespaceNames where
  netns : String
  routerNs : String
  serverNs : String
  vethHost : String
  vethRouterHost : String
  vethRouterServer : String
  vethServer : String
  deriving DecidableEq, Repr

def deriveNames (testId : String) : NamespaceNames :=
  let suffix := PyStr.take 8 testId
  { netns := "nse_" ++ testId
    routerNs := "nsr_" ++ testId
    serverNs := "nss_" ++ testId
    vethHost := "vhr-" ++ suffix
    vethRouterHost := "vrh-" ++ suffix
    vethRouterServer := "vrs-" ++ suffix
    vethServer := "vsr-" ++ suffix }

def netnsSweepPrefixes : List String := ["nse_", "nsr_", "nss_"]
def vethSweepPrefixes : List String := ["vhr-", "vrh-", "vrs-", "vsr-"]

example : (deriveNames "a1b2c3d4e5f6").vethHost = "vhr-a1b2c3d4" := by decide

end Nse
