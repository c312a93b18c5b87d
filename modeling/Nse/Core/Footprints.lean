/-
  Nse.Core.Footprints — what each request can touch, and which requests each step of a run
  can make.

  A request is `aside` when nothing the oracle reads depends on it: it runs commands, or
  ends mock listeners. Topology, rules, injection, the conntrack read and the whole
  teardown make no other requests, and only `spawnListeners` starts listeners. What every move and every such
  request keeps, these steps keep (`Kept.wp_only`).
-/

import Nse.Core.Moves
import Nse.Core.Pipeline

namespace Nse

open Coroutine
open Relation (ReflTransGen)

variable {env : Env}

/-! ## The effect of an answer, field by field -/

/-- The marks a request leaves. -/
def Req.marks (s : St) : Req → List Mark
  | .mark m => [m]
  | .seenTraceIds => [.snapshot s.h.seenTraceIds.length]
  | .healthErrors => [.health s.h]
  | _ => []

def Req.collects : Req → List TraceEvent
  | .collect e => [e]
  | _ => []

def Req.canaries : Req → List String
  | .addCanaryIds ids => ids
  | _ => []

section Effect

variable (s : St)

theorem cancel_frame : (Loop.cancel env s).out = s.out ∧ (Loop.cancel env s).nread = s.nread ∧
    (Loop.cancel env s).h.seenTraceIds = s.h.seenTraceIds ∧ (Loop.cancel env s).collected = s.collected ∧
    (Loop.cancel env s).canaryIds = s.canaryIds ∧ (Loop.cancel env s).marks = s.marks ∧
    (Loop.cancel env s).h.stopRequested = s.h.stopRequested := by
  unfold Loop.cancel Loop.close
  split <;> (try dsimp only) <;> (try split) <;> simp

theorem cancel_state (hs : s.h.state ≠ .running) : (Loop.cancel env s).h.state ≠ .running := by
  unfold Loop.cancel Loop.close
  split <;> (try dsimp only) <;> (try split) <;> first | exact hs | (intro h; cases h)

variable (a : Req) (r : Except PyExc (Reply a))

theorem effect_cancelTask (r : Except PyExc Unit) : effect env s .cancelTask r = Loop.cancel env s := by
  cases r <;> rfl

@[simp] theorem effect_out : (effect env s a r).out = s.out := by
  cases a <;> cases r <;> simp only [effect, cancel_frame]
  split <;> rfl

@[simp] theorem effect_nread : (effect env s a r).nread = s.nread := by
  cases a <;> cases r <;> simp only [effect, cancel_frame]
  split <;> rfl

@[simp] theorem effect_seen : (effect env s a r).h.seenTraceIds = s.h.seenTraceIds := by
  cases a <;> cases r <;> simp only [effect, cancel_frame] <;> first | rfl | (split <;> rfl)

@[simp] theorem effect_collected : (effect env s a r).collected = s.collected ++ a.collects := by
  cases a <;> cases r <;> simp only [effect, cancel_frame, Req.collects, List.append_nil]
  split <;> rfl

@[simp] theorem effect_canaryIds : (effect env s a r).canaryIds = s.canaryIds ++ a.canaries := by
  cases a <;> cases r <;> simp only [effect, cancel_frame, Req.canaries, List.append_nil]
  split <;> rfl

@[simp] theorem effect_marks : (effect env s a r).marks = s.marks ++ a.marks s := by
  cases a <;> cases r <;> simp only [effect, cancel_frame, Req.marks, List.append_nil]
  split <;> rfl

end Effect

/-! ## Kinds of requests -/

/-- Requests that touch nothing the oracle reads, and start no listener. -/
def Req.aside : Req → Prop
  | .resolve _ | .run _ | .spawnMonitor _ | .tempFile _ | .unlink _ | .inContainer | .sendp _ _ | .terminate _
  | .wait _ _ | .kill _ | .sleep _ | .addActive _ | .discardActive _ | .activeNs | .waitReady _ | .listeners => True
  | _ => False

/-- Starting listeners. -/
def Req.spawning : Req → Prop
  | .popen _ | .addListener _ => True
  | a => a.aside

theorem Req.aside.spawning {a : Req} (h : a.aside) : a.spawning := by
  cases a <;> first | exact h | exact False.elim h

/-- What sending packets asks besides. -/
def Req.sending (which : Packet → Prop) : Req → Prop
  | .armEventSignal | .extendDeadline _ | .waitForEvent _ => True
  | .mark (.injecting p _) | .mark (.injected p) => which p
  | a => a.aside

theorem Req.aside.sending {which : Packet → Prop} {a : Req} (h : a.aside) : a.sending which := by
  cases a <;> first | exact h | trivial

theorem Req.sending.mono {which which' : Packet → Prop} (hw : ∀ p, which p → which' p) {a : Req}
    (h : a.sending which) : a.sending which' := by
  cases a with
  | mark m => cases m <;> first | exact hw _ h | exact h
  | _ => exact h

/-- An event the pipeline makes up itself. -/
def Own (testId : String) (e : TraceEvent) : Prop := e.traced = false ∧ e.traceId = some testId ∧ e.table = none

/-- Telling the caller something. -/
def Req.reporting (testId : String) : Req → Prop
  | .collect e | .put (some e) => Own testId e
  | .put none | .setStatus _ | .status | .collected | .canaryIds | .mark (.conntrack _) => True
  | a => a.aside

/-- Loading the rules and starting the harvester. -/
def Req.opening : Req → Prop
  | .reset | .launch _ => True
  | a => a.aside

/-- Closing the harvester. -/
def Req.closing : Req → Prop
  | .stop | .taskPending | .awaitTask _ | .cancelTask | .joinTask | .setStopped | .harvestState => True
  | _ => False

/-- Everything a run asks for once the harvester has started. -/
def Req.measuring (testId : String) : Req → Prop
  | .popen _ | .addListener _ | .reset | .launch _ | .mark (.snapshot _) | .mark (.health _) => False
  | .collect e | .put (some e) => Own testId e
  | _ => True

/-- Everything a run asks for. -/
def Req.ofRun (testId : String) : Req → Prop
  | .popen _ | .addListener _ | .reset | .launch _ => True
  | a => a.measuring testId

section OfRun

variable {testId : String} {a : Req}

theorem Req.measuring.ofRun (h : a.measuring testId) : a.ofRun testId := by
  cases a <;> first | exact h | trivial

theorem Req.reporting.measuring (h : a.reporting testId) : a.measuring testId := by
  cases a with
  | mark m => cases m <;> trivial
  | put item => cases item <;> exact h
  | collect e => exact h
  | _ => trivial

theorem Req.aside.reporting (h : a.aside) : a.reporting testId := by
  cases a <;> first | exact h | exact False.elim h

theorem Req.aside.opening (h : a.aside) : a.opening := by
  cases a <;> first | exact h | exact False.elim h

theorem Req.aside.measuring (h : a.aside) : a.measuring testId := h.reporting.measuring

theorem Req.sending.measuring {which : Packet → Prop} (h : a.sending which) : a.measuring testId := by
  cases a with
  | mark m => cases m <;> trivial
  | _ => trivial

theorem Req.closing.measuring (h : a.closing) : a.measuring testId := by
  cases a <;> trivial

theorem Req.opening.ofRun (h : a.opening) : a.ofRun testId := by
  cases a <;> trivial

theorem Req.spawning.ofRun (h : a.spawning) : a.ofRun testId := by
  cases a <;> trivial

end OfRun

/-- The canaries of one probe. -/
def CanaryOf (label : Label) (p : Packet) : Prop := ∃ attempt, p = .canary label attempt

/-- `s`, with everything outside the oracle as it is in `t`. -/
def St.beside (s t : St) : St :=
  { s with
    cmds := t.cmds, active := t.active, listeners := t.listeners, spawned := t.spawned, terminated := t.terminated
    killed := t.killed }

theorem spawning_effect {a : Req} (ha : a.spawning) (s : St) (r : Except PyExc (Reply a)) :
    effect env s a r = s.beside (effect env s a r) := by
  cases a <;> first | exact False.elim ha | (cases r <;> first | rfl | (simp only [effect]; split <;> rfl))

section Kept

variable [U : PyStr.Unicode]

/-- Every move keeps `P`, and so does every answer to a request that satisfies `p`. -/
structure Kept (env : Env) (p : Req → Prop) (P : St → Prop) : Prop where
  move : ∀ s s', P s → Move env s s' → P s'
  answer : ∀ s a r, p a → P s → allows env s a r = true → P (effect env s a r)

variable {p q : Req → Prop} {P Q : St → Prop} {E α : Type}

theorem Kept.stable (h : Kept env p P) : Stable (world env) P := stable_of_moves h.move

theorem Kept.mono (h : Kept env p P) (hpq : ∀ a, q a → p a) : Kept env q P :=
  ⟨h.move, fun s a r ha => h.answer s a r (hpq a ha)⟩

theorem Kept.and (h : Kept env p P) (h' : Kept env p Q) : Kept env p fun s => P s ∧ Q s :=
  ⟨fun s s' hs hm => ⟨h.move s s' hs.1 hm, h'.move s s' hs.2 hm⟩,
    fun s a r ha hs hr => ⟨h.answer s a r ha hs.1 hr, h'.answer s a r ha hs.2 hr⟩⟩

theorem Kept.or (h : Kept env p P) (h' : Kept env p Q) : Kept env p fun s => P s ∨ Q s :=
  ⟨fun s s' hs hm => hs.imp (fun hs => h.move s s' hs hm) fun hs => h'.move s s' hs hm,
    fun s a r ha hs hr => hs.imp (fun hs => h.answer s a r ha hs hr) fun hs => h'.answer s a r ha hs hr⟩

theorem Kept.const {b : Prop} : Kept env p fun _ => b := ⟨fun _ _ h _ => h, fun _ _ _ _ h _ => h⟩

theorem Kept.forall {ι : Type} {P : ι → St → Prop} (h : ∀ i, Kept env p (P i)) : Kept env p fun s => ∀ i, P i s :=
  ⟨fun s s' hs hm i => (h i).move s s' (hs i) hm, fun s a r ha hs hr i => (h i).answer s a r ha (hs i) hr⟩

theorem Kept.imp {b : Prop} (h : Kept env p P) : Kept env p fun s => b → P s :=
  ⟨fun s s' hs hm hb => h.move s s' (hs hb) hm, fun s a r ha hs hr hb => h.answer s a r ha (hs hb) hr⟩

/-- Every event keeps `P`, and so does every answer to a request that satisfies `p`. -/
structure Lasting (env : Env) (p : Req → Prop) (P : St → Prop) : Prop where
  stable : Stable (world env) P
  answer : ∀ s a r, p a → P s → allows env s a r = true → P (effect env s a r)

theorem Kept.lasting (h : Kept env p P) : Lasting env p P := ⟨h.stable, h.answer⟩

theorem Lasting.and (h : Lasting env p P) (h' : Lasting env p Q) : Lasting env p fun s => P s ∧ Q s :=
  ⟨h.stable.and h'.stable, fun s a r ha hs hr => ⟨h.answer s a r ha hs.1 hr, h'.answer s a r ha hs.2 hr⟩⟩

/-- A coroutine that makes no other requests keeps what they keep. -/
theorem Lasting.wp_only {I : St → Req → Prop} (h : Lasting env p P) (hI : ∀ s a, p a → P s → I s a) {c : Prog α}
    (hc : Only p c) {s : St} (hs : P s) : wp (world env) I (fun _ s => P s) c s :=
  wp_of_only h.stable hI (fun s a r _ ha hP hr => hr.2 ▸ h.answer s a r ha hP hr.1) c s hc hs

theorem Kept.wp_only {I : St → Req → Prop} (h : Kept env p P) (hI : ∀ s a, p a → P s → I s a) {c : Prog α}
    (hc : Only p c) {s : St} (hs : P s) : wp (world env) I (fun _ s => P s) c s := h.lasting.wp_only hI hc hs

end Kept

/-! ## What a coroutine ends with -/

section Ends

variable [U : PyStr.Unicode] {α : Type} {P : St → Prop} {V : α → St → Prop} {X : PyExc → St → Prop}

/-- Whatever happens, the coroutine ends, if it does, with `V` of its value or `X` of its
    exception. -/
abbrev Ends (env : Env) (V : α → St → Prop) (X : PyExc → St → Prop) (c : Prog α) (s : St) : Prop :=
  wp (world env) (fun _ _ => True) (Post V X) c s

theorem ends_perform (hP : Stable (world env) P) {a : Req} {V : Reply a → St → Prop} {s : St} (hs : P s)
    (hv : ∀ t v, P t → allows env t a (.ok v) = true → V v (effect env t a (.ok v)))
    (hx : ∀ t e, P t → allows env t a (.error e) = true → X e (effect env t a (.error e))) :
    Ends env V X (perform a) s := by
  refine wp_request hP hs (fun _ _ => trivial) fun t r t' ht hr => ?_
  obtain ⟨hal, rfl⟩ := hr
  cases r with
  | ok v => exact hv t v ht hal
  | error e => exact hx t e ht hal

/-- A request that does not park is answered in the state it is made in. -/
theorem ends_now {a : Req} {V : Reply a → St → Prop} {s : St} (hn : parked env s a = false)
    (hv : ∀ v, allows env s a (.ok v) = true → V v (effect env s a (.ok v)))
    (hx : ∀ e, allows env s a (.error e) = true → X e (effect env s a (.error e))) : Ends env V X (perform a) s := by
  refine wp_request_now (Bool.eq_false_iff.mp hn) trivial fun r t hr => ?_
  obtain ⟨hal, rfl⟩ := hr
  cases r with
  | ok v => exact hv v hal
  | error e => exact hx e hal

theorem Lasting.ends {p : Req → Prop} (h : Lasting env p P) {c : Prog α} (hc : Only p c) {s : St} (hs : P s) :
    Ends env (fun _ => P) (fun _ => P) c s := by
  refine wp_mono (fun r t ht => ?_) c s (h.wp_only (fun _ _ _ _ => trivial) hc hs)
  cases r <;> exact ht

theorem Kept.ends {p : Req → Prop} (h : Kept env p P) {c : Prog α} (hc : Only p c) {s : St} (hs : P s) :
    Ends env (fun _ => P) (fun _ => P) c s := h.lasting.ends hc hs

theorem ends_ifSo {b : Prop} [Decidable b] {x : Prog Unit} {V : Unit → St → Prop} {s : St}
    (hx : b → Ends env V X x s) (hn : ¬ b → V () s) : Ends env V X (ifSo b x) s := by
  unfold ifSo
  split
  · exact hx ‹_›
  · exact hn ‹_›

end Ends

/-! ## The requests of each step -/

section Only

theorem only_runAll (cmds : List (List Arg)) : Only Req.aside (NetnsController.runAll cmds) :=
  NetnsController.asks_runAll fun _ _ => by trivial

theorem only_ifSo {p : Req → Prop} {b : Prop} [Decidable b] {x : Prog Unit} (hx : Only p x) : Only p (ifSo b x) := by
  unfold ifSo
  split
  · exact hx
  · exact only_ret

variable (c : NetnsController)

theorem only_createNetns (name : String) : Only Req.aside (c.createNetns name) :=
  c.asks_createNetns (by trivial) (by trivial) fun _ => by trivial

theorem only_createGatewayTopology (r s v1 v2 v3 v4 : String) (a : NetnsController.GatewayAddresses) :
    Only Req.aside (c.createGatewayTopology r s v1 v2 v3 v4 a) := by
  refine only_bind (fun _ => only_bind (fun _ => ?_) (only_createNetns c s)) (only_createNetns c r)
  refine only_bind (fun _ => only_bind (fun _ => ?_) (only_runAll _)) (only_runAll _)
  exact only_bind (fun _ => only_runAll _) (only_runAll _)

theorem only_destroyNetns (name : String) : Only Req.aside (NetnsController.destroyNetns name) :=
  NetnsController.asks_destroyNetns (by trivial) (fun _ => by trivial) (by trivial)

variable (req : TestRequest) (testId : String)

theorem only_setupTopology : Only Req.aside (Pipeline.setupTopology req testId c) := by
  unfold Pipeline.setupTopology
  dsimp only
  split
  · exact only_createGatewayTopology c _ _ _ _ _ _ _
  · exact only_bind (fun _ => only_runAll _) (only_createNetns c _)

theorem only_spawnListeners : Only Req.spawning (Pipeline.spawnListeners req testId c) := by
  have hadd : ∀ proc, Only Req.spawning (perform (.addListener proc)) := fun _ => only_request (by trivial)
  refine only_forEach fun pkt _ => ?_
  split
  · exact only_bind hadd (only_request (by trivial))
  · exact trivial

theorem only_stopListener (proc : Nat) : Only Req.aside (Pipeline.stopListener proc) := by
  have hwait : Only Req.aside (perform (.wait proc 500)) := only_request (by trivial)
  refine only_tryCatch (fun e => ?_) (only_bind (fun _ => hwait) (only_request (by trivial)))
  split
  · exact only_suppress (only_request (by trivial))
  · exact trivial

theorem only_deleteHostVeth (veth : String) : Only Req.aside (Pipeline.deleteHostVeth veth) :=
  only_bind (fun _ => only_ret) (only_request (by trivial))

theorem only_teardown : Only Req.aside (Pipeline.teardown req testId) := by
  refine only_bind (fun procs => ?_) (only_request (by trivial))
  refine only_bind (fun _ => ?_) (only_forEach fun proc _ => only_stopListener proc)
  exact only_bind (fun _ => only_deleteHostVeth _) (only_forEach fun ns _ => only_destroyNetns ns)

theorem only_sweepListing (words : List String) {each : String → Prog Unit} (h : ∀ l, Only Req.aside (each l)) :
    Only Req.aside (NetnsController.sweepListing words each) := by
  refine only_suppress (only_bind (fun res => ?_) (only_request (by trivial)))
  split
  · exact only_forEach fun l _ => h l
  · exact trivial

variable [U : PyStr.Unicode]

theorem only_startupSweep : Only Req.aside NetnsController.startupSweep := by
  have hquiet : ∀ argv, Only Req.aside (NetnsController.quietly argv) := fun _ => only_request (by trivial)
  refine only_bind (fun _ => only_sweepListing _ fun l => ?_) (only_sweepListing _ fun l => ?_)
  · unfold NetnsController.sweepLink
    split
    · split
      · exact only_bind (fun _ => only_ret) (hquiet _)
      · exact trivial
    · exact trivial
  · unfold NetnsController.sweepNetns
    split
    · exact only_bind (fun _ => only_ret) (hquiet _)
    · exact trivial

theorem only_new (useNsenter : Option Bool) : Only Req.aside (NetnsController.new useNsenter) := by
  have hrest : ∀ b, Only Req.aside (NetnsController.startupSweep.bind fun _ => .ret (NetnsController.mk b)) :=
    fun _ => only_bind (fun _ => only_ret) only_startupSweep
  cases useNsenter with
  | some b => exact hrest b
  | none => exact only_bind hrest (only_request (by trivial))

/-- Nothing more is asked once `nft` is done. -/
theorem only_checkResult {p : Req → Prop} (result : Completed) : Only p (RuleEngine.checkResult result) := by
  unfold RuleEngine.checkResult
  split
  · split <;> exact trivial
  · exact trivial

theorem only_load (useNsenter : Bool) (rules netns : String) :
    Only Req.aside (RuleEngine.load useNsenter rules netns) := by
  unfold RuleEngine.load
  split
  · exact trivial
  · refine only_bind (fun path => only_tryFinally (only_request (by trivial)) ?_) (only_request (by trivial))
    exact only_bind only_checkResult (only_request (by trivial))

theorem only_getMacAddress (iface : String) (netns : Option String) (useNsenter : Bool) :
    Only Req.aside (ScapyInjector.getMacAddress iface netns useNsenter) := by
  refine only_bind (fun result => ?_) (only_request (by trivial))
  split <;> exact trivial

omit U in
theorem only_orRuntimeError {α : Type} {p : Req → Prop} {message : String} {x : Prog α} (hx : Only p x) :
    Only p (ScapyInjector.orRuntimeError message x) :=
  only_tryCatch (fun e => by split <;> trivial) hx

theorem only_inject (useNsenter : Bool) (spec : PacketSpec) (netns vethHost vethPeer : String)
    (hostNetns : Option String) :
    Only Req.aside (ScapyInjector.inject useNsenter spec netns vethHost vethPeer hostNetns) := by
  refine only_bind (fun macs => ?_) (only_orRuntimeError ?_)
  · have hsend : ∀ f iface, Only Req.aside (perform (.sendp f iface)) := fun _ _ => only_request (by trivial)
    split
    split
    · exact only_orRuntimeError (hsend _ _)
    · refine only_bind (fun result => ?_) (only_request (by trivial))
      split <;> exact trivial
  · exact only_bind (fun _ => only_bind (fun _ => only_ret) (only_getMacAddress _ _ _)) (only_getMacAddress _ _ _)

theorem only_readConntrackTable (netns : String) (useNsenter : Bool) :
    Only Req.aside (Conntrack.readConntrackTable netns useNsenter) := by
  have hcat : ∀ entry file, Only Req.aside (Conntrack.catTable entry file) := fun _ _ =>
    only_bind (fun _ => only_ret) (only_request (by trivial))
  have helse : ∀ {x y : Prog (List String)}, Only Req.aside x → Only Req.aside y →
      Only Req.aside (Conntrack.orElseOnFailure x y) := fun hx hy =>
    only_tryCatch (fun e => by split <;> first | exact hy | trivial) hx
  refine only_bind (fun _ => only_bind (fun lines => ?_) ?_) (only_request (by trivial))
  · unfold Conntrack.liftExcept
    split <;> exact trivial
  · exact helse (hcat _ _) (helse (hcat _ _) trivial)

/-! ## The whole run -/

variable (cfg : Pipeline.Config) (t : Pipeline.Target) (spec : PacketSpec)

theorem only_injectPacket (p : Packet) : Only (Req.sending (· = p)) (Pipeline.injectPacket t p spec) := by
  have hdone : Only (Req.sending (· = p)) (perform (.mark (.injected p))) := only_request rfl
  refine only_bind (fun _ => only_bind (fun _ => hdone) ?_) (only_request rfl)
  exact only_mono (fun _ => Req.aside.sending) (only_inject _ _ _ _ _ _)

theorem only_injectCanary (label : Label) (attempt : Nat) :
    Only (Req.sending (CanaryOf label)) (Pipeline.injectCanary cfg t label spec attempt) := by
  have hsleep : Only (Req.sending (CanaryOf label)) (perform (.sleep cfg.canaryInterval)) := only_request (by trivial)
  refine only_tryCatch (fun e => ?_) (only_bind (fun _ => only_ret) ?_)
  · split
    · exact only_bind (fun _ => only_ret) hsleep
    · exact trivial
  · exact only_mono (fun _ => Req.sending.mono fun p hp => ⟨attempt, hp⟩) (only_injectPacket t spec _)

theorem only_probeAttempt (label : Label) (attempt : Nat) :
    Only (Req.sending (CanaryOf label)) (Pipeline.probeAttempt cfg t label spec attempt) := by
  have hask : ∀ {a : Req}, a.sending (CanaryOf label) → Only (Req.sending (CanaryOf label)) (perform a) := only_request
  refine only_bind (fun _ => only_bind (fun _ => only_bind (fun injected => ?_) ?_) (hask (by trivial)))
    (hask (by trivial))
  · split
    · exact hask trivial
    · exact trivial
  · exact only_injectCanary cfg t spec label attempt

theorem only_probeFrom (label : Label) :
    ∀ (left attempt : Nat), Only (Req.sending (CanaryOf label)) (Pipeline.probeFrom cfg t label spec attempt left)
  | 0, _ => trivial
  | left + 1, attempt => by
    refine only_bind (fun seen => ?_) (only_probeAttempt cfg t spec label attempt)
    split
    · exact trivial
    · exact only_probeFrom label left (attempt + 1)

theorem only_probeOracle {p : Req → Prop} {label : Label} (hp : ∀ a, a.sending (CanaryOf label) → p a)
    (hmark : ∀ seen, p (.mark (.probed label seen))) : Only p (Pipeline.probeOracle cfg t label spec) :=
  only_bind (fun seen => only_bind (fun _ => only_ret) (only_request (hmark seen)))
    (only_mono hp (only_probeFrom cfg t spec label _ _))

theorem only_injectFrom : ∀ (pkts : List PacketSpec) (i : Nat),
    Only (Req.sending fun p => ∃ i, p = .test i) (Pipeline.injectFrom cfg t i pkts)
  | [], _ => trivial
  | pkt :: pkts, i => by
    have hask : ∀ {a : Req}, a.sending (fun p => ∃ i, p = .test i) → Only (Req.sending _) (perform a) := only_request
    refine only_bind (fun _ => only_bind (fun _ => only_bind (fun _ => ?_) (hask (by trivial))) ?_) (hask (by trivial))
    · exact only_injectFrom pkts (i + 1)
    · exact only_mono (fun _ => Req.sending.mono fun p hp => ⟨i, hp⟩) (only_injectPacket t pkt _)

omit U in
theorem only_drain (timeout : Nat) : Only Req.closing (TraceHarvester.drain timeout) := by
  have hask : ∀ {a : Req}, a.closing → Only Req.closing (perform a) := only_request
  refine only_tryCatch (fun e => ?_) (hask (by trivial))
  split
  · exact only_bind (fun _ => only_suppress (hask (by trivial))) (hask (by trivial))
  · split
    · exact hask (by trivial)
    · exact trivial

omit U in
theorem only_aclose (timeout : Nat) : Only Req.closing (TraceHarvester.aclose timeout) := by
  have hask : ∀ {a : Req}, a.closing → Only Req.closing (perform a) := only_request
  have hstop : ∀ st : HarvestState, Only Req.closing (ifSo (st = .running) (perform .setStopped)) :=
    fun _ => only_ifSo (hask (by trivial))
  refine only_bind (fun _ => only_bind (fun pending => ?_) (hask (by trivial))) (hask (by trivial))
  refine only_bind (fun _ => only_bind (fun st => ?_) (hask (by trivial))) (only_ifSo (only_drain timeout))
  exact only_bind (fun _ => hask (by trivial)) (hstop st)

section Reporting

omit U in
theorem only_emitEvent {e : TraceEvent} (he : Own testId e) :
    Only (Req.reporting testId) (Pipeline.emitEvent (some e)) := by
  have hput : Only (Req.reporting testId) (perform (.put (some e))) := only_request he
  exact only_bind (fun _ => hput) (only_request he)

omit U in
theorem only_emitNone : Only (Req.reporting testId) (Pipeline.emitEvent none) := only_request trivial

omit U in
theorem own_errorEvent (message : String) : Own testId (Pipeline.errorEvent testId message) := ⟨rfl, rfl, rfl⟩

omit U in
theorem own_conntrackEvent (ct : Conntrack.Entry) : Own testId (Pipeline.conntrackEvent testId ct) := ⟨rfl, rfl, rfl⟩

omit U in
theorem only_emitOracleError (message : String) :
    Only (Req.reporting testId) (Pipeline.emitOracleError testId message) :=
  only_bind (fun _ => only_emitEvent testId (own_errorEvent testId _)) (only_request trivial)

omit U in
theorem only_result : Only (Req.reporting testId) Pipeline.result := by
  have hids : Only (Req.reporting testId) (perform .canaryIds) := only_request (by trivial)
  exact only_bind (fun _ => only_bind (fun _ => only_ret) hids) (only_request (by trivial))

theorem only_reportConntrack : Only (Req.reporting testId) (Pipeline.reportConntrack req testId c) := by
  refine only_bind (fun entries => only_bind (fun _ => ?_) ?_) ?_
  · exact only_forEach fun ct _ => only_emitEvent testId (own_conntrackEvent testId ct)
  · exact only_request trivial
  · exact only_mono (fun _ => Req.aside.reporting) (only_readConntrackTable _ _)

end Reporting

theorem only_startMonitor : Only Req.opening (Pipeline.startMonitor cfg req testId c) := by
  have hask : ∀ {a : Req}, a.opening → Only Req.opening (perform a) := only_request
  refine only_bind (fun _ => only_bind (fun _ => only_bind (fun _ => only_ret) (hask (by trivial))) ?_) ?_
  · exact only_bind (fun _ => only_bind (fun _ => hask (by trivial)) (hask (by trivial))) (hask (by trivial))
  · exact only_mono (fun _ => Req.aside.opening) (only_load _ _ _)

theorem only_checkLiveness : Only (Req.measuring testId) (Pipeline.checkLiveness cfg req testId c) := by
  have hseen : Only (Req.measuring testId) (perform .seenTraceIds) := only_request (by trivial)
  refine only_bind (fun before => only_bind (fun alive => only_bind (fun _ => ?_) ?_) ?_) hseen
  · refine only_bind (fun now => ?_) hseen
    exact only_request (by trivial)
  · exact only_ifSo (only_mono (fun _ => Req.reporting.measuring) (only_emitOracleError testId _))
  · exact only_probeOracle cfg _ _ (fun _ => Req.sending.measuring) fun _ => trivial

omit U in
theorem only_reportHealth : Only (Req.measuring testId) (Pipeline.reportHealth testId) := by
  have hask : ∀ {a : Req}, a.measuring testId → Only (Req.measuring testId) (perform a) := only_request
  refine only_bind (fun _ => only_bind (fun problems => only_bind (fun _ => ?_) ?_) (hask (by trivial))) ?_
  · exact only_bind (fun st => only_ifSo (hask (by trivial))) (hask (by trivial))
  · exact only_forEach fun message _ => only_mono (fun _ => Req.reporting.measuring)
      (only_emitOracleError testId message)
  · exact only_mono (fun _ => Req.closing.measuring) (only_aclose _)

theorem only_measure : Only (Req.measuring testId) (Pipeline.measure cfg req testId c) := by
  have hask : ∀ {a : Req}, a.measuring testId → Only (Req.measuring testId) (perform a) := only_request
  refine only_bind (fun ids => only_bind (fun _ => only_bind (fun _ => only_bind (fun _ => ?_) ?_) ?_) ?_)
    (hask (by trivial))
  · refine only_bind (fun _ => only_bind (fun _ => only_bind (fun _ => only_ret) ?_) ?_)
      (only_checkLiveness c req testId cfg)
    · exact only_reportHealth testId
    · exact only_mono (fun _ => Req.reporting.measuring) (only_reportConntrack c req testId)
  · exact hask (by trivial)
  · exact only_mono (fun _ => Req.sending.measuring) (only_injectFrom cfg _ _ _)
  · exact hask (by trivial)

omit U in
theorem only_giveUp : Only (Req.reporting testId) (Pipeline.giveUp testId) := by
  refine only_bind (fun _ => only_bind (fun _ => ?_) (only_emitNone testId)) (only_emitOracleError testId _)
  exact only_bind (fun _ => only_ret) (only_result testId)

theorem only_body : Only (Req.ofRun testId) (Pipeline.body cfg req testId c) := by
  refine only_bind (fun _ => only_bind (fun _ => only_bind (fun _ => only_bind (fun ready => ?_) ?_) ?_) ?_) ?_
  · split
    · exact only_mono (fun _ => Req.measuring.ofRun) (only_measure c req testId cfg)
    · exact only_mono (fun _ h => h.measuring.ofRun) (only_giveUp testId)
  · exact only_probeOracle cfg _ _ (fun _ h => h.measuring.ofRun) fun _ => trivial
  · exact only_mono (fun _ => Req.opening.ofRun) (only_startMonitor c req testId cfg)
  · exact only_mono (fun _ => Req.spawning.ofRun) (only_spawnListeners c req testId)
  · exact only_mono (fun _ h => h.measuring.ofRun) (only_setupTopology c req testId)

theorem only_handle (e : PyExc) : Only (fun a => a.reporting testId ∨ a.closing) (Pipeline.handle testId e) := by
  have hreports : ∀ {α : Type} {x : Prog α}, Only (Req.reporting testId) x →
      Only (fun a => a.reporting testId ∨ a.closing) x :=
    fun h => only_mono (fun _ => .inl) h
  have hreport : ∀ m, Only (fun a => a.reporting testId ∨ a.closing) (Pipeline.reportException testId m) := by
    intro m
    refine only_bind (fun _ => only_bind (fun _ => only_bind (fun _ => ?_) (hreports (only_emitNone testId))) ?_)
      (only_request (.inl trivial))
    · exact only_bind (fun _ => only_ret) (only_mono (fun _ => .inr) (only_aclose _))
    · exact hreports (only_emitEvent testId (own_errorEvent testId _))
  unfold Pipeline.handle
  split
  · exact hreport _
  · split
    · exact hreport _
    · exact trivial

theorem only_handle_measuring (e : PyExc) : Only (Req.measuring testId) (Pipeline.handle testId e) :=
  only_mono (fun _ h => h.elim Req.reporting.measuring Req.closing.measuring) (only_handle testId e)

theorem only_runTestPipeline (controller : Option NetnsController) :
    Only (Req.ofRun testId) (Pipeline.runTestPipeline cfg req controller testId) := by
  have hrest : ∀ c : NetnsController, Only (Req.ofRun testId) (Pipeline.runWith cfg req testId c) := by
    intro c
    refine only_bind (fun _ => only_bind (fun early => ?_) (only_tryFinally ?_ ?_)) (only_request (by trivial))
    · cases early with
      | some ref => exact trivial
      | none => exact only_mono (fun _ h => h.measuring.ofRun) (only_result testId)
    · exact only_mono (fun _ h => h.measuring.ofRun) (only_teardown req testId)
    · exact only_tryCatch (fun e => only_mono (fun _ => Req.measuring.ofRun) (only_handle_measuring testId e))
        (only_body c req testId cfg)
  cases controller with
  | some c => exact hrest c
  | none => exact only_bind hrest (only_mono (fun _ h => h.measuring.ofRun) (only_new none))

end Only

/-- What a run returns is read off the state it ends in. -/
theorem ends_result [PyStr.Unicode] (s : St) :
    Ends env (fun ref t => t = s ∧ ref = Pipeline.withoutCanaries s.collected s.canaryIds) (fun _ _ => False)
      Pipeline.result s := by
  have hcollected :
      Ends env (fun events t => t = s ∧ events = s.collected) (fun _ _ => False) (perform .collected) s := by
    refine ends_now rfl (fun events hr => ⟨rfl, ?_⟩) (fun _ hr => by cases hr)
    exact of_decide_eq_true hr
  have hids : Ends env (fun ids t => t = s ∧ ids = s.canaryIds) (fun _ _ => False) (perform .canaryIds) s := by
    refine ends_now rfl (fun ids hr => ⟨rfl, ?_⟩) (fun _ hr => by cases hr)
    exact of_decide_eq_true hr
  refine wp_seq hcollected (fun events t ht => ?_) fun _ _ h => h
  obtain ⟨rfl, rfl⟩ := ht
  refine wp_seq hids (fun ids u hu => ?_) fun _ _ h => h
  obtain ⟨rfl, rfl⟩ := hu
  exact ⟨rfl, rfl⟩

/-! ## Closing -/

/-- The harvester was told to stop and has a terminal state. -/
def Terminal (s : St) : Prop := s.h.stopRequested = true ∧ s.h.state ≠ .running

section Closing

variable [U : PyStr.Unicode] {s : St}

theorem stopRequested_kept : Kept env Req.closing fun s => s.h.stopRequested = true := by
  refine ⟨fun s s' hs hm => hm.stopRequested.trans hs, fun s a r ha hs _ => ?_⟩
  cases a with
  | cancelTask =>
    rw [effect_cancelTask]
    exact (cancel_frame s).2.2.2.2.2.2.trans hs
  | stop => cases r <;> rfl
  | _ => first | exact False.elim ha | (cases r <;> exact hs)

theorem terminal_kept : Kept env Req.closing Terminal := by
  refine stopRequested_kept.and ⟨fun s s' hs hm => ?_, fun s a r ha hs _ => ?_⟩
  · rw [hm.state hs]
    exact hs
  · cases a with
    | cancelTask => exact effect_cancelTask s r ▸ cancel_state s hs
    | setStopped => cases r <;> (intro h; cases h)
    | _ => first | exact False.elim ha | (cases r <;> exact hs)

theorem ends_aclose {timeout : Nat} {P : St → Prop} (hP : Kept env Req.closing P) (hs : P s) :
    Ends env (fun _ u => P u ∧ Terminal u) (fun _ => P) (TraceHarvester.aclose timeout) s := by
  have hstopped := hP.and stopRequested_kept
  have hdone := hP.and terminal_kept
  have hstop : Ends env (fun _ u => P u ∧ u.h.stopRequested = true) (fun _ => P) (perform .stop) s :=
    ends_perform hP.stable hs (fun u v hu hr => ⟨hP.answer u .stop (.ok v) trivial hu hr, rfl⟩)
      (fun u _ _ hr => by cases hr)
  have hwait : ∀ {u : St}, P u ∧ u.h.stopRequested = true →
      Ends env (fun st v => (P v ∧ v.h.stopRequested = true) ∧ (st ≠ .running → v.h.state ≠ .running)) (fun _ => P)
        (perform .harvestState) u := by
    intro u hu
    refine ends_perform hstopped.stable hu (fun v st hv hr => ⟨hv, fun hst => ?_⟩) (fun v _ _ hr => by cases hr)
    have : st = v.h.state := by simpa [allows, exactly] using hr
    exact this ▸ hst
  have hset : ∀ {st : HarvestState} {u : St},
      (P u ∧ u.h.stopRequested = true) ∧ (st ≠ .running → u.h.state ≠ .running) →
      Ends env (fun _ v => P v ∧ Terminal v) (fun _ => P) (ifSo (st = .running) (perform .setStopped)) u := by
    intro st u hu
    refine ends_ifSo (fun _ => ?_) fun hst => ⟨hu.1.1, hu.1.2, hu.2 hst⟩
    refine ends_perform hstopped.stable hu.1 (fun v w hv hr => ?_) (fun v _ _ hr => by cases hr)
    exact ⟨hP.answer v .setStopped (.ok w) trivial hv.1 hr, hv.2, fun h => by cases h⟩
  refine wp_seq hstop (fun _ u hu => ?_) fun _ _ h => h
  refine wp_seq (hstopped.ends (only_request (by trivial)) hu) (fun pending v hv => ?_) fun _ _ h => h.1
  refine wp_seq (hstopped.ends (only_ifSo (only_drain timeout)) hv) (fun _ w hw => ?_) fun _ _ h => h.1
  refine wp_seq (hwait hw) (fun st x hx => ?_) fun _ _ h => h
  refine wp_seq (hset hx) (fun _ y hy => ?_) fun _ _ h => h
  exact post_mono (hdone.ends (only_request (by trivial)) hy) (fun _ _ h => h) fun _ _ h => h.1

end Closing

/-! ## Runs -/

/-- The events of the list the pipeline returned, at a given moment. -/
def Pipeline.ListRef.read (s : St) : ListRef → List TraceEvent
  | .collected => s.collected
  | .fresh events => events

/-- What the requests of a run and every move keep holds in every state a run reaches. -/
theorem run_kept [PyStr.Unicode] {p : Req → Prop} {P : St → Prop} (hk : Kept env p P) {testId : String}
    (hp : ∀ a, a.ofRun testId → p a) {cfg : Pipeline.Config} {req : TestRequest} {controller : Option NetnsController}
    {s t : St} {c : Prog Pipeline.ListRef} (hs : P s)
    (h : Steps (world env) (Pipeline.runTestPipeline cfg req controller testId, s) (c, t)) : P t :=
  (only_steps hk.stable (fun s a r _ ha hP hr => hr.2 ▸ hk.answer s a r (hp a ha) hP hr.1)
    (only_runTestPipeline req testId cfg controller) hs h).2

end Nse
