/-
  Nse.Core.Duration — how long a run can keep waiting.

  The run gives most of its commands a timeout, and most of its other waits a time in
  milliseconds. `Req.patience` is what a request is given; the bill of a run
  (`Nse.Lib.Credits`) is what all of its requests so far were given. `worstCase` is the sum over
  the longest path: every command times out, no canary is ever seen, the rules are refused after
  the monitor was closed, and no listener ends.

  Some requests are given no time and may never be answered: `put` on a full queue, `joinTask`,
  a frame on its way, a monitor that is starting, the two readings of the conntrack table and
  the last deletion. They are not billed.

  Proved, for a run that is given its controller, whatever is answered (`granted_le`): the bill
  never exceeds `worstCase`, which is linear in the number of packets; what the run waits for
  now fits into it too, or is one of those requests.
-/

import Nse.Lib.Credits
import Nse.Core.Cleanup
import Nse.Core.Callers

namespace Nse

open Coroutine

variable [U : PyStr.Unicode]

/-! ## What a request is given -/

omit U in
/-- In milliseconds, or `none` where the wait has no limit. A new listener is given a slice to
    bind. -/
def Req.patience : Req → Option Nat
  | .run c => c.timeout
  | .popen _ => some 150
  | .wait _ ms | .sleep ms | .waitReady ms | .waitForEvent ms | .awaitTask ms => some ms
  | .put _ | .joinTask | .sendp _ _ | .spawnMonitor _ => none
  | _ => some 0

omit U in
/-- The requests that may wait for ever, with these commands. -/
def Req.openEnded (untimed : List (List Arg)) : Req → Bool
  | .put _ | .joinTask | .sendp _ _ | .spawnMonitor _ => true
  | .run c => c.timeout.isNone && decide (c.argv ∈ untimed)
  | _ => false

omit U in
/-- What a request adds to the bill. Without a limit it has to be one of those. -/
def Req.charge (untimed : List (List Arg)) (a : Req) : Option Nat :=
  match a.patience with
  | some ms => some ms
  | none => if a.openEnded untimed then some 0 else none

omit U in
/-- No more listeners are there than this. -/
def fewListeners (n : Nat) : (a : Req) → Except PyExc (Reply a) → Prop
  | .listeners, .ok procs => procs.length ≤ n
  | _, _ => True

section WorstCase

variable (cfg : Pipeline.Config) (req : TestRequest) (testId : String) (c : NetnsController)

/-- 30 commands, or 12. -/
def setupTime : TopologyType → Nat
  | .gateway => 300000
  | .simple => 120000

/-- The attempts at `ip netns del`, and the delays between them. -/
def retryTime : List Nat → Nat
  | [] => 0
  | delay :: delays => 10000 + (if delays = [] then 0 else delay) + retryTime delays

def probeTime : Nat := cfg.canaryAttempts * (30000 + cfg.canaryInterval)

/-- What each packet adds: a listener started and stopped, and an injection. -/
def packetTime : Nat := 150 + (30000 + cfg.injectSettle) + 500

/-- In the default timing 1727700 for one packet in the simple topology, and 1938300 in the
    gateway's. -/
def worstCase : Nat :=
  setupTime req.topology + (30000 + 2000) + 2 * probeTime cfg + cfg.drainDelay + (2000 + 2000) +
    (Pipeline.namespaces req testId).length * retryTime [100, 500, 1000] + req.packets.length * packetTime cfg

/-- Reading the conntrack table, and deleting the host's link. -/
def untimedArgvs : List (List Arg) :=
  let t := Pipeline.target req testId c
  [Nse.execPrefix c.useNsenter t.netns ++ [.bin "cat", .str "/proc/net/nf_conntrack"],
    Nse.execPrefix c.useNsenter t.netns ++ [.bin "cat", .str "/proc/net/ip_conntrack"],
    NetnsController.ip ["link", "del", (deriveNames testId).vethHost]]

end WorstCase

/-! ## The steps of a run -/

section Steps

variable {α : Type} {untimed : List (List Arg)} {listening n m : Nat}

abbrev Patient (untimed : List (List Arg)) (listening n : Nat) (x : Prog α) : Prop :=
  Enough (Req.charge untimed) (fewListeners listening) n x

omit U in
theorem patient_of_only {p : Req → Prop} {x : Prog α} (hx : Only p x) (hp : ∀ a, p a → a.charge untimed = some 0) :
    Patient untimed listening 0 x :=
  enough_of_only (only_mono hp hx)

omit U in
theorem untimed_free {argv : List Arg} {check : Bool} (h : argv ∈ untimed) :
    Req.charge untimed (.run { argv, check, timeout := none }) = some 0 := by
  show (if Req.openEnded untimed (.run { argv, check, timeout := none }) then some 0 else none) = some 0
  exact if_pos (by simpa [Req.openEnded] using h)

omit U in
/-- Nothing more is asked. -/
theorem patient_done {x : Prog α} (hx : Patient untimed listening 0 x) : Patient untimed listening n x :=
  enough_mono (Nat.zero_le n) hx

omit U in
theorem patient_command (argv : List Arg) : Patient untimed listening 10000 (NetnsController.run argv) :=
  enough_bind (m := 0) (enough_request (by rfl)) fun _ => enough_ret

omit U in
theorem patient_runAll {argvs : List (List Arg)} (hn : argvs.length = n) :
    Patient untimed listening (n * 10000) (NetnsController.runAll argvs) :=
  enough_mono (Nat.le_of_eq (congrArg (· * 10000) hn)) (enough_forEach fun argv _ => patient_command argv)

variable (c : NetnsController)

omit U in
theorem patient_createNetns (name : String) : Patient untimed listening 30000 (c.createNetns name) := by
  have hdad : Patient untimed listening 20000 (suppress (·.cls == .calledProcessError) do
      NetnsController.run (c.inNetns name (NetnsController.sysctl "net.ipv6.conf.all.accept_dad=0"))
      NetnsController.run (c.inNetns name (NetnsController.sysctl "net.ipv6.conf.default.accept_dad=0"))) := by
    refine enough_tryCatch (n := 20000) (m := 0)
      (enough_bind (patient_command _) fun _ => patient_command _) fun e => ?_
    split <;> exact Nat.zero_le _
  have hactive : Patient untimed listening 0 (perform (.addActive name)) := enough_request (by rfl)
  exact enough_bind (n := 10000) (patient_command _) fun _ => enough_bind (n := 0) hactive fun _ => hdad

omit U in
theorem patient_setupTopology (req : TestRequest) (testId : String) :
    Patient untimed listening (setupTime req.topology) (Pipeline.setupTopology req testId c) := by
  have hmade : ∀ name, Patient untimed listening 30000 (c.createNetns name) := patient_createNetns c
  cases htop : req.topology with
  | gateway =>
    have hsetup : Pipeline.setupTopology req testId c = c.createGateway (gatewayOf testId) {} := by
      rw [Pipeline.setupTopology, htop]
      rfl
    rw [hsetup, NetnsController.createGateway_eq]
    refine enough_bind (n := 30000) (m := 270000) (hmade _) fun _ => enough_bind (n := 30000)
      (m := 240000) (hmade _) fun _ => ?_
    refine enough_bind (n := 2 * 10000) (m := 220000) (patient_runAll (by rfl)) fun _ => ?_
    refine enough_bind (n := 8 * 10000) (m := 140000) (patient_runAll (by rfl)) fun _ => ?_
    exact enough_bind (n := 10 * 10000) (m := 4 * 10000) (patient_runAll (by rfl)) fun _ => patient_runAll (by rfl)
  | simple =>
    rw [Pipeline.setupTopology, htop]
    show Patient untimed listening 120000 ((c.createNetns _).bind fun _ =>
      NetnsController.runAll (c.vethArgvs _ (deriveNames testId).vethHost "veth-nse" ["10.0.0.1/24"] ["10.0.0.2/24"]))
    exact enough_bind (n := 30000) (m := 9 * 10000) (hmade _) fun _ => patient_runAll (by rfl)

omit U in
theorem patient_spawnListeners (req : TestRequest) (testId : String) :
    Patient untimed listening (req.packets.length * 150) (Pipeline.spawnListeners req testId c) := by
  refine enough_forEach fun pkt _ => ?_
  split
  · exact enough_bind (n := 150) (m := 0) (enough_request (by rfl)) fun proc => enough_request (by rfl)
  · exact enough_ret

theorem patient_load (useNsenter : Bool) (rules netns : String) :
    Patient untimed listening 30000 (RuleEngine.load useNsenter rules netns) := by
  have hcheck : ∀ result, Patient untimed listening 0 (RuleEngine.checkResult result) := fun result =>
    patient_of_only (p := fun _ => False) (only_checkResult result) fun _ h => h.elim
  unfold RuleEngine.load
  split
  · exact enough_throw
  · refine enough_free (by rfl) fun path => ?_
    exact enough_tryFinally (n := 30000) (m := 0) (enough_request (by rfl))
      (enough_bind (n := 30000) (m := 0) (enough_request (by rfl)) hcheck)

theorem patient_startMonitor (cfg : Pipeline.Config) (req : TestRequest) (testId : String) :
    Patient untimed listening (30000 + 2000) (Pipeline.startMonitor cfg req testId c) := by
  have hstart : ∀ netns initial, Patient untimed listening 0 (TraceHarvester.start netns initial c.useNsenter) := by
    intro netns initial
    exact enough_free (by rfl) fun _ => enough_free (by rfl) fun _ => enough_request (by rfl)
  refine enough_bind (patient_load _ _ _) fun _ => enough_bind (n := 0) (m := 2000) (hstart _ _) fun _ => ?_
  exact enough_bind (n := 2000) (m := 0) (enough_request (by rfl)) fun _ => enough_ret

/-! ## Sending -/

variable (t : Pipeline.Target) (spec : PacketSpec) (cfg : Pipeline.Config)

theorem patient_inject (useNsenter : Bool) (netns vethHost vethPeer : String) (hostNetns : Option String) :
    Patient untimed listening 30000 (ScapyInjector.inject useNsenter spec netns vethHost vethPeer hostNetns) := by
  have hmac : ∀ iface netns, Patient untimed listening 10000 (ScapyInjector.getMacAddress iface netns useNsenter) := by
    intro iface netns
    refine enough_bind (n := 10000) (m := 0) (enough_request (by rfl)) fun result => ?_
    split <;> exact Nat.zero_le _
  have hwrap : ∀ {β : Type} {n : Nat} {message : String} {x : Prog β}, Patient untimed listening n x →
      Patient untimed listening n (ScapyInjector.orRuntimeError message x) := by
    intro β n message x hx
    refine enough_tryCatch (m := 0) hx fun e => ?_
    split <;> exact Nat.zero_le _
  refine enough_bind (n := 20000) (m := 10000) (hwrap (enough_bind (n := 10000) (m := 10000) (hmac _ _) fun _ => ?_))
    fun macs => ?_
  · exact enough_bind (m := 0) (hmac _ _) fun _ => enough_ret
  · dsimp only
    split
    · exact hwrap (patient_done (enough_request (by rfl)))
    · refine enough_bind (n := 10000) (m := 0) (enough_request (by rfl)) fun result => ?_
      split <;> exact Nat.zero_le _

theorem patient_injectPacket (p : Packet) : Patient untimed listening 30000 (Pipeline.injectPacket t p spec) := by
  have hmark : ∀ m, Patient untimed listening 0 (perform (.mark m)) := fun _ => enough_request (by rfl)
  exact enough_free (by rfl) fun _ => enough_bind (n := 30000) (m := 0) (patient_inject _ _ _ _ _ _) fun _ => hmark _

/-- A canary that was sent leaves the time to look for it; one that was not waits that time. -/
theorem patient_injectCanary (label : Label) (attempt : Nat) :
    Suffices (Req.charge untimed) (fewListeners listening)
      (before (fun injected => if injected then cfg.canaryInterval else 0) fun _ => 0)
      (30000 + cfg.canaryInterval) (Pipeline.injectCanary cfg t label spec attempt) := by
  refine suffices_tryCatch (m := fun _ => cfg.canaryInterval) (fun e => ?_) ?_
  · split
    · refine ⟨cfg.canaryInterval, rfl, Nat.le_refl _, fun r _ => ?_⟩
      cases r <;> exact Nat.zero_le _
    · exact Nat.zero_le _
  · refine suffices_bind (m := fun _ => cfg.canaryInterval) (fun _ => Nat.le_refl _)
      (enough_leaves (patient_injectPacket t spec _) fun r => ?_)
    cases r <;> exact Nat.le_refl _

theorem patient_probeAttempt (label : Label) (attempt : Nat) :
    Patient untimed listening (30000 + cfg.canaryInterval) (Pipeline.probeAttempt cfg t label spec attempt) := by
  refine enough_free (by rfl) fun _ => enough_free (by rfl) fun _ => ?_
  refine suffices_bind (m := fun injected => if injected then cfg.canaryInterval else 0) (fun injected => ?_)
    (patient_injectCanary t spec cfg label attempt)
  cases injected with
  | true => exact enough_request (by rfl)
  | false => exact enough_ret

theorem patient_probeFrom (label : Label) : ∀ left attempt : Nat,
    Patient untimed listening (left * (30000 + cfg.canaryInterval)) (Pipeline.probeFrom cfg t label spec attempt left)
  | 0, _ => enough_ret
  | left + 1, attempt => by
    have hrest := patient_probeFrom label left (attempt + 1)
    refine enough_mono ?_ (enough_bind (m := left * (30000 + cfg.canaryInterval))
      (patient_probeAttempt t spec cfg label attempt) fun seen => ?_)
    · rw [Nat.add_mul, Nat.one_mul]
      omega
    · cases seen with
      | true => exact enough_ret
      | false => exact hrest

theorem patient_probeOracle (label : Label) :
    Patient untimed listening (probeTime cfg) (Pipeline.probeOracle cfg t label spec) :=
  enough_bind (m := 0) (patient_probeFrom t spec cfg label _ _) fun _ => enough_free (by rfl) fun _ => enough_ret

theorem patient_injectFrom : ∀ (pkts : List PacketSpec) (i : Nat),
    Patient untimed listening (pkts.length * (30000 + cfg.injectSettle)) (Pipeline.injectFrom cfg t i pkts)
  | [], _ => enough_ret
  | pkt :: pkts, i => by
    have hrest := patient_injectFrom pkts (i + 1)
    have hsettle : Patient untimed listening (cfg.injectSettle + pkts.length * (30000 + cfg.injectSettle))
        ((perform (.sleep cfg.injectSettle)).bind fun _ => Pipeline.injectFrom cfg t (i + 1) pkts) :=
      enough_bind (enough_request (by rfl)) fun _ => hrest
    refine enough_free (by rfl) fun _ => enough_mono ?_
      (enough_bind (patient_injectPacket t pkt (.test i)) fun _ => hsettle)
    simp only [List.length_cons, Nat.add_mul, Nat.one_mul]
    omega

/-! ## Closing and cleaning up -/

variable (testId : String) (req : TestRequest)

omit U in
theorem patient_aclose (timeout : Nat) : Patient untimed listening timeout (TraceHarvester.aclose timeout) := by
  have hdrain : Patient untimed listening timeout (TraceHarvester.drain timeout) := by
    refine enough_tryCatch (m := 0) (enough_request (by rfl)) fun e => ?_
    split
    · refine enough_free (by rfl) fun _ => enough_tryCatch (n := 0) (m := 0) (enough_request (by rfl))
        fun _ => enough_ret
    · split
      · exact enough_request (by rfl)
      · exact enough_throw
  have hifSo : ∀ {p : Prop} [Decidable p] {n : Nat} {x : Prog Unit}, Patient untimed listening n x →
      Patient untimed listening n (ifSo p x) := by
    intro p _ n x hx
    unfold ifSo
    split
    · exact hx
    · exact enough_ret
  refine enough_free (by rfl) fun _ => enough_free (by rfl) fun pending => ?_
  refine enough_bind (m := 0) (hifSo hdrain) fun _ => enough_free (by rfl) fun st => ?_
  exact enough_bind (n := 0) (m := 0) (hifSo (enough_request (by rfl))) fun _ => enough_request (by rfl)

omit U in
theorem patient_emitEvent (item : Option TraceEvent) : Patient untimed listening 0 (Pipeline.emitEvent item) := by
  cases item with
  | some e => exact enough_free (by rfl) fun _ => enough_request (by rfl)
  | none => exact enough_request (by rfl)

omit U in
theorem patient_emitOracleError (message : String) :
    Patient untimed listening 0 (Pipeline.emitOracleError testId message) :=
  enough_free (by rfl) fun _ => patient_emitEvent _

omit U in
theorem patient_forEach_free {β : Type} {f : β → Prog Unit} (hf : ∀ x, Patient untimed listening 0 (f x))
    (xs : List β) :
    Patient untimed listening 0 (Co.forEach xs f) :=
  enough_mono (Nat.le_of_eq (Nat.mul_zero _)) (enough_forEach fun x _ => hf x)

theorem patient_reportConntrack :
    Patient (untimedArgvs req testId c) listening 0 (Pipeline.reportConntrack req testId c) := by
  have hcat : ∀ file, (file = "/proc/net/nf_conntrack" ∨ file = "/proc/net/ip_conntrack") →
      Patient (untimedArgvs req testId c) listening 0
      (Conntrack.catTable (execPrefix c.useNsenter (Pipeline.target req testId c).netns) file) := by
    intro file hfile
    refine enough_free (untimed_free ?_) fun _ => enough_ret
    rcases hfile with rfl | rfl <;> simp [untimedArgvs]
  have helse : ∀ {x y : Prog (List String)}, Patient (untimedArgvs req testId c) listening 0 x →
      Patient (untimedArgvs req testId c) listening 0 y →
      Patient (untimedArgvs req testId c) listening 0 (Conntrack.orElseOnFailure x y) := by
    intro x y hx hy
    refine enough_tryCatch (n := 0) (m := 0) hx fun e => ?_
    split
    · exact hy
    · exact enough_throw
  have hread : Patient (untimedArgvs req testId c) listening 0
      (Conntrack.readConntrackTable (Pipeline.target req testId c).netns c.useNsenter) := by
    refine enough_free (by rfl) fun _ => enough_bind (n := 0) (m := 0)
      (helse (hcat _ (.inl rfl)) (helse (hcat _ (.inr rfl)) enough_ret)) fun lines => ?_
    unfold Conntrack.liftExcept
    split <;> exact Nat.zero_le _
  exact enough_bind (n := 0) (m := 0) hread fun entries => enough_free (by rfl) fun _ =>
    patient_forEach_free (fun ct => patient_emitEvent _) entries

omit U in
theorem patient_reportHealth : Patient untimed listening 2000 (Pipeline.reportHealth testId) := by
  refine enough_bind (n := 2000) (m := 0) (patient_aclose 2000) fun _ => enough_free (by rfl) fun problems => ?_
  refine enough_bind (n := 0) (m := 0) (patient_forEach_free (patient_emitOracleError testId) problems) fun _ =>
    enough_free (by rfl) fun st => ?_
  unfold ifSo
  split
  · exact enough_request (by rfl)
  · exact enough_ret

omit U in
theorem patient_result : Patient untimed listening 0 Pipeline.result :=
  enough_free (by rfl) fun _ => enough_free (by rfl) fun _ => enough_ret

omit U in
theorem patient_giveUp : Patient untimed listening 0 (Pipeline.giveUp testId) :=
  enough_bind (n := 0) (m := 0) (patient_emitOracleError testId _) fun _ => enough_bind (n := 0) (m := 0)
    (patient_emitEvent none) fun _ =>
    enough_bind (n := 0) (m := 0) patient_result fun _ => enough_ret

/-- From the canary ids on. -/
def measureTime : Nat := req.packets.length * (30000 + cfg.injectSettle) + (cfg.drainDelay + (probeTime cfg + 2000))

theorem patient_measure :
    Patient (untimedArgvs req testId c) listening (measureTime cfg req) (Pipeline.measure cfg req testId c) := by
  have hlive :
      Patient (untimedArgvs req testId c) listening (probeTime cfg) (Pipeline.checkLiveness cfg req testId c) := by
    refine enough_free (by rfl) fun before => enough_bind (m := 0) (patient_probeOracle _ _ cfg _) fun alive => ?_
    have hlost : Patient (untimedArgvs req testId c) listening 0
        (ifSo (alive = false) (Pipeline.emitOracleError testId Pipeline.livenessLost)) := by
      unfold ifSo
      split
      · exact patient_emitOracleError testId _
      · exact enough_ret
    exact enough_bind (n := 0) (m := 0) hlost fun _ => enough_free (by rfl) fun now => enough_request (by rfl)
  have hreports : Patient (untimedArgvs req testId c) listening 2000 (do
      Pipeline.reportConntrack req testId c
      Pipeline.reportHealth testId
      pure none : Prog (Option Pipeline.ListRef)) :=
    enough_bind (n := 0) (m := 2000) (patient_reportConntrack c testId req) fun _ =>
      enough_bind (n := 2000) (m := 0) (patient_reportHealth testId) fun _ => enough_ret
  refine enough_free (by rfl) fun ids => enough_free (by rfl) fun _ =>
    enough_bind (patient_injectFrom _ cfg _ _) fun _ => ?_
  exact enough_bind (enough_request (by rfl)) fun _ => enough_bind hlive fun _ => hreports

theorem patient_body : Patient (untimedArgvs req testId c) listening
    (setupTime req.topology + (req.packets.length * 150 + ((30000 + 2000) + (probeTime cfg + measureTime cfg req))))
    (Pipeline.body cfg req testId c) := by
  refine enough_bind (patient_setupTopology c req testId) fun _ =>
    enough_bind (patient_spawnListeners c req testId) fun _ => ?_
  refine enough_bind (patient_startMonitor c cfg req testId) fun _ => enough_bind (patient_probeOracle _ _ cfg _)
    fun ready => ?_
  split
  · exact patient_measure c cfg testId req
  · exact patient_done (patient_giveUp testId)

theorem patient_handle (e : PyExc) : Patient untimed listening 2000 (Pipeline.handle testId e) := by
  have hreport : ∀ message, Patient untimed listening 2000 (Pipeline.reportException testId message) := by
    intro message
    refine enough_free (by rfl) fun _ => enough_bind (n := 0) (m := 2000) (patient_emitEvent _) fun _ => ?_
    exact enough_bind (n := 0) (m := 2000) (patient_emitEvent _) fun _ => enough_bind (n := 2000) (m := 0)
      (patient_aclose 2000) fun _ => enough_ret
  unfold Pipeline.handle
  split
  · exact hreport _
  · split
    · exact hreport _
    · exact enough_throw

omit U in
theorem patient_stopListener (proc : Nat) : Patient untimed listening 500 (Pipeline.stopListener proc) := by
  refine enough_tryCatch (n := 500) (m := 0) (enough_free (by rfl) fun _ => enough_request (by rfl)) fun e => ?_
  split
  · refine enough_tryCatch (n := 0) (m := 0) (enough_request (by rfl)) fun e => ?_
    split <;> exact Nat.zero_le _
  · exact enough_throw

omit U in
theorem patient_destroyAttempts (name : String) :
    ∀ delays, Patient untimed listening (retryTime delays) (NetnsController.destroyAttempts name delays)
  | [] => enough_ret
  | delay :: delays => by
    have hdel : Patient untimed listening 10000
        (do NetnsController.run (NetnsController.ip ["netns", "del", name]); pure false : Prog Bool) :=
      enough_bind (n := 10000) (m := 0) (patient_command _) fun _ => enough_ret
    have hagain : ∀ e : PyExc, Patient untimed listening (if delays = [] then 0 else delay)
        (if NetnsController.alreadyGone e then pure false
        else if delays = [] then pure true
        else do
          perform (.sleep delay)
          pure true : Prog Bool) := by
      intro e
      by_cases hlast : delays = []
      · simp only [hlast, if_true]
        split <;> exact Nat.zero_le _
      · simp only [hlast, if_false]
        split
        · exact enough_ret
        · exact enough_bind (m := 0) (enough_request (by rfl)) fun _ => enough_ret
    refine enough_bind (enough_tryCatch hdel fun e => ?_) fun again => ?_
    · by_cases hcalled : e.cls = .calledProcessError
      · rw [if_pos hcalled]
        exact hagain e
      · rw [if_neg hcalled]
        by_cases hexpired : e.cls = .timeoutExpired
        · rw [if_pos hexpired]
          exact enough_ret
        · rw [if_neg hexpired]
          exact enough_throw
    · split
      · exact patient_destroyAttempts name delays
      · exact enough_ret

omit U in
theorem patient_teardown : Patient (untimedArgvs req testId c) listening
    (listening * 500 + ((Pipeline.namespaces req testId).length * retryTime [100, 500, 1000] + 0))
      (Pipeline.teardown req testId) := by
  have hdestroy : ∀ name, Patient (untimedArgvs req testId c) listening (retryTime [100, 500, 1000])
      (NetnsController.destroyNetns name) :=
    fun name => enough_bind (n := retryTime [100, 500, 1000]) (m := 0) (patient_destroyAttempts name _)
      fun _ => enough_request (by rfl)
  have hlink :
      Patient (untimedArgvs req testId c) listening 0 (Pipeline.deleteHostVeth (deriveNames testId).vethHost) :=
    enough_free (untimed_free (by simp [untimedArgvs])) fun _ => enough_ret
  have hstops : ∀ procs : List Nat, procs.length ≤ listening →
      Patient (untimedArgvs req testId c) listening (listening * 500) (Co.forEach procs Pipeline.stopListener) :=
    fun procs hprocs => enough_mono (Nat.mul_le_mul_right 500 hprocs)
      (enough_forEach fun proc _ => patient_stopListener proc)
  refine enough_answered (by rfl) fun procs hprocs => ?_
  exact enough_bind (hstops procs hprocs) fun _ => enough_bind (enough_forEach fun name _ => hdestroy name)
    fun _ => hlink

theorem patient_runWith : Patient (untimedArgvs req testId c) req.packets.length (worstCase cfg req testId)
    (Pipeline.runWith cfg req testId c) := by
  have hbody : Patient (untimedArgvs req testId c) req.packets.length _ (Pipeline.body cfg req testId c) :=
    patient_body c cfg testId req
  have hguarded := enough_tryFinally (patient_teardown c testId req) (enough_tryCatch hbody (patient_handle testId))
  refine enough_free (by rfl) fun _ => enough_mono ?_ (enough_bind (m := 0) hguarded fun early => ?_)
  · simp only [worstCase, measureTime, packetTime, Nat.mul_add]
    omega
  · cases early with
    | some ref => exact enough_ret
    | none => exact patient_result

end Steps

/-! ## The listeners of a run -/

section Listeners

omit U in
/-- One for each listener that is registered. -/
def Req.registers : Req → Option Nat
  | .addListener _ => some 1
  | _ => some 0

omit U in
theorem Req.unspawning.registers {a : Req} (h : a.unspawning) : a.registers = some 0 := by
  cases a <;> first | rfl | exact h.elim

abbrev Registers {α : Type} (n : Nat) (x : Prog α) : Prop := Enough Req.registers (fun _ _ => True) n x

variable {env : Env} {cfg : Pipeline.Config} {req : TestRequest} {testId : String} {c : NetnsController}

omit U in
theorem registers_none {α : Type} {n : Nat} {q : Req → Prop} {x : Prog α} (hx : Only q x)
    (hq : ∀ a, q a → a.unspawning) : Registers n x :=
  enough_mono (Nat.zero_le n) (enough_of_only (only_mono (fun a h => (hq a h).registers) hx))

theorem registers_runWith : Registers req.packets.length (Pipeline.runWith cfg req testId c) := by
  have hspawn : Registers req.packets.length (Pipeline.spawnListeners req testId c) := by
    refine enough_mono (Nat.le_of_eq (Nat.mul_one _)) (enough_forEach fun pkt _ => ?_)
    split
    · exact enough_free (by rfl) fun proc => enough_request (by rfl)
    · exact enough_ret
  have hprobe : Registers 0 (Pipeline.probeOracle cfg (Pipeline.target req testId c) .readiness
      (Pipeline.canarySpec req.firstPacket)) :=
    registers_none (q := Req.measuring testId)
      (only_probeOracle cfg _ _ (fun _ => Req.sending.measuring) fun _ => trivial)
      fun _ => Req.measuring.unspawning
  have hrest :
      ∀ ready : Bool, Registers 0 (if ready then Pipeline.measure cfg req testId c else Pipeline.giveUp testId) := by
    intro ready
    split
    · exact registers_none (only_measure c req testId cfg) fun _ => Req.measuring.unspawning
    · exact registers_none (only_giveUp testId) fun _ h => h.measuring.unspawning
  have hbody : Registers req.packets.length (Pipeline.body cfg req testId c) := by
    refine enough_mono (Nat.le_of_eq (Nat.zero_add _)) (enough_bind
      (registers_none (only_setupTopology c req testId) fun _ => Req.aside.unspawning) fun _ => ?_)
    refine enough_bind (m := 0) hspawn fun _ => enough_bind (n := 0) (m := 0) ?_ fun _ =>
      enough_bind (n := 0) (m := 0) hprobe hrest
    exact registers_none (only_startMonitor c req testId cfg) fun _ => Req.opening.unspawning
  have hguarded := enough_tryFinally (m := 0) (registers_none (only_teardown req testId) fun _ => Req.aside.unspawning)
    (enough_tryCatch (m := 0) hbody fun e => registers_none (only_handle_measuring testId e) fun _ =>
      Req.measuring.unspawning)
  refine enough_free (by rfl) fun _ => enough_bind (m := 0) hguarded fun early => ?_
  cases early with
  | some ref => exact enough_ret
  | none => exact registers_none (only_result testId) fun _ h => h.measuring.unspawning

theorem listeners_kept {procs : List Nat} :
    Kept env (fun a => ∀ i, a ≠ .addListener i) fun s => s.listeners = procs := by
  refine ⟨fun s s' h hm => hm.listeners.trans h, fun s a r ha h _ => ?_⟩
  cases a with
  | addListener i => exact absurd rfl (ha i)
  | run c =>
    cases r with
    | ok _ => exact h
    | error e =>
      simp only [effect]
      split <;> exact h
  | cancelTask =>
    have hsame : (Loop.cancel env s).listeners = s.listeners := by
      unfold Loop.cancel Loop.close
      split <;> (try dsimp only) <;> (try split) <;> rfl
    rw [effect_cancelTask]
    exact hsame.trans h
  | _ => cases r <;> exact h

/-- No more listeners than packets. -/
theorem listeners_le {s₀ s : St} {p : Prog Pipeline.ListRef} (hs : s₀.listeners = [])
    (h : Steps (world env) (Pipeline.runWith cfg req testId c, s₀) (p, s)) :
      s.listeners.length ≤ req.packets.length := by
  obtain ⟨m, hbill⟩ := metered_steps (w := Req.registers) h 0
  obtain ⟨n, hsum, -⟩ :=
    suffices_steps (P := fun _ => True) (fun _ _ _ _ _ _ => trivial) (fun _ _ => trivial) registers_runWith hbill
  have hcount : s.listeners.length ≤ m := by
    have hstable : Stable ((world env).metered Req.registers) fun t => t.1.listeners.length ≤ t.2 := by
      intro t e t' ht he
      have hsame : t'.1.listeners = t.1.listeners := listeners_kept.stable t.1 e t'.1 rfl he.1
      rw [hsame, he.2]
      exact ht
    refine (only_steps hstable (fun t a r t' _ ht hr => ?_) (only_anything _) (Nat.le_of_eq (by rw [hs]; rfl)) hbill).2
    rw [hr.2]
    by_cases hadd : ∃ i, a = .addListener i
    · obtain ⟨i, rfl⟩ := hadd
      have heffect : t'.1.listeners = t.1.listeners ++ [i] := by rw [← hr.1.2]; rfl
      rw [heffect, List.length_append, List.length_singleton]
      exact Nat.add_le_add_right ht 1
    · have hsame : t'.1.listeners = t.1.listeners := by
        rw [← hr.1.2]
        exact listeners_kept.answer t.1 a r (fun i ha => hadd ⟨i, ha⟩) rfl hr.1.1
      rw [hsame]
      exact Nat.le_trans ht (Nat.le_add_right _ _)
  omega

omit U in
theorem patience_or_openEnded {untimed : List (List Arg)} {a : Req} {ms : Nat} (h : a.charge untimed = some ms) :
    a.patience = some ms ∨ a.openEnded untimed = true := by
  unfold Req.charge at h
  split at h
  · cases h
    exact .inl ‹_›
  · split at h
    · exact .inr ‹_›
    · cases h

/-- What a run has been given to wait never exceeds `worstCase`. Nor does it with what the run
    waits for now, unless that is one of the requests without a limit. -/
theorem granted_le {s₀ s : St} {spent : Nat} {p : Prog Pipeline.ListRef} (hs : s₀.listeners = [])
    (hrun : Steps ((world env).metered (Req.charge (untimedArgvs req testId c)))
      (Pipeline.runWith cfg req testId c, (s₀, 0)) (p, (s, spent))) :
    spent ≤ worstCase cfg req testId ∧ ∀ a k, p = .ask a k →
      (∃ ms, a.patience = some ms ∧ spent + ms ≤ worstCase cfg req testId) ∨
        a.openEnded (untimedArgvs req testId c) = true := by
  have hok : ∀ (t : St × Nat) a r t', t.1.listeners.length ≤ req.packets.length →
      ((world env).metered (Req.charge (untimedArgvs req testId c))).answer t a r t' →
        fewListeners req.packets.length a r := by
    intro t a r t' ht hr
    cases a with
    | listeners =>
      cases r with
      | ok procs =>
        have hprocs : procs = t.1.listeners := of_decide_eq_true hr.1.1
        rw [hprocs]
        exact ht
      | error e => exact trivial
    | _ => exact trivial
  obtain ⟨n, hsum, hleft⟩ := suffices_steps hok (fun x hx => listeners_le hs (projects_metered.steps hx))
    (patient_runWith c cfg testId req) hrun
  refine ⟨by omega, ?_⟩
  rintro a k rfl
  obtain ⟨ms, hms, hle, -⟩ := hleft
  refine (patience_or_openEnded hms).imp_left fun hgiven => ⟨ms, hgiven, ?_⟩
  omega

end Listeners

end Nse

namespace Nse

open Coroutine

attribute [local instance] PyStr.Unicode.ascii

/-- With the default timing, half an hour is enough for one packet in the simple topology. -/
theorem granted_le_sample : ∃ ref s spent,
    Steps ((world {}).metered (Req.charge (untimedArgvs sampleRequest "a1b2c3d4e5f6" { useNsenter := false })))
      (Pipeline.runWith {} sampleRequest "a1b2c3d4e5f6" { useNsenter := false }, ({}, 0)) (.ret ref, (s, spent)) ∧
        s.status = .done ∧ spent ≤ 1727700 := by
  have hplay : Script.returned (fun _ s => s.status == .done)
      ((obliging {}).play 200 (Pipeline.runWith {} sampleRequest "a1b2c3d4e5f6" { useNsenter := false }) {}) =
        true := by
    decide +kernel
  obtain ⟨ref, s, hrun, hdone⟩ := Script.returned_steps (schedule_fits _ _ _) hplay
  obtain ⟨spent, hbill⟩ := metered_steps hrun 0
  have hworst : worstCase {} sampleRequest "a1b2c3d4e5f6" = 1727700 := by decide
  exact ⟨ref, s, spent, hbill, beq_iff_eq.mp hdone, hworst ▸ (granted_le rfl hbill).1⟩

example : worstCase {} { sampleRequest with topology := .gateway } "a1b2c3d4e5f6" = 1938300 := by decide

end Nse
