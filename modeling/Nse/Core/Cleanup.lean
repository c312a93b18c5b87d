/-
  Nse.Core.Cleanup — what a run leaves behind.

  Whatever fails in the `try` block is caught, reported, and followed by `aclose`; the
  `finally` block then stops every listener that was started and asks for the deletion of
  every namespace and of the host's end of the veth pair (`cleaned_up`). That holds as long
  as nobody cancels the run, the readiness canary is seen, and `ip` itself can be started
  in the teardown. A run whose readiness canary is missed returns without closing the
  harvester, and its list grows afterwards
  (`a_missed_readiness_canary_leaves_the_monitor_running`).
-/

import Nse.Core.Closing
import Nse.Core.Rehearsal

namespace Nse

open Coroutine
open Pipeline (ListRef)

/-! ## The teardown's commands -/

/-- `ip netns del`, as `destroy_netns` runs it. -/
def delNetns (name : String) : Cmd :=
  { argv := NetnsController.ip ["netns", "del", name], check := true, timeout := some 10000 }

/-- `ip link del`, as the `finally` block runs it. -/
def delLink (name : String) : Cmd :=
  { argv := NetnsController.ip ["link", "del", name], check := false, timeout := none }

/-- Nobody cancels the run, the readiness probe does not fail, and in the teardown `ip` can
    be started and fails as a command fails. -/
structure Orderly (s : St) (a : Req) (r : Except PyExc (Reply a)) : Prop where
  quiet : cancels s a r = false
  ready : a ≠ .mark (.probed .readiness false)
  netns : ∀ name e, a = .run (delNetns name) → r = .error e → e.cls = .calledProcessError ∨ e.cls = .timeoutExpired
  link : ∀ name e, a = .run (delLink name) → r = .error e → unresolved e = false

theorem orderly_quiet : Quiet Orderly := fun _ _ _ h => h.quiet

/-- One of these two. -/
def Deletion (argv : List Arg) : Prop := ∃ name, argv = (delNetns name).argv ∨ argv = (delLink name).argv

/-- `c` was executed, and nothing but deletions afterwards. -/
def Deleted (c : Cmd) (s : St) : Prop :=
  ∃ before after, s.cmds = before ++ c.argv :: after ∧ ∀ argv ∈ after, Deletion argv

/-- Listener `i` was terminated or killed. -/
def Stopped (s : St) (i : Nat) : Prop := i ∈ s.terminated ∨ i ∈ s.killed

/-- Everything of the run is gone, or was asked to go. -/
structure CleanedUp (req : TestRequest) (testId : String) (s : St) : Prop where
  closed : Closed s
  listeners : ∀ i < s.spawned, Stopped s i
  namespaces : ∀ ns ∈ Pipeline.namespaces req testId, Deleted (delNetns ns) s
  hostVeth : Deleted (delLink (deriveNames testId).vethHost) s

/-- Every listener that was started is known to the run. -/
def Registered (s : St) : Prop := ∀ i < s.spawned, i ∈ s.listeners

variable [U : PyStr.Unicode] {env : Env}

section Move

variable {s s' : St}

theorem Move.cmds (h : Move env s s') : s'.cmds = s.cmds := by cases h <;> rfl
theorem Move.spawned (h : Move env s s') : s'.spawned = s.spawned := by cases h <;> rfl
theorem Move.listeners (h : Move env s s') : s'.listeners = s.listeners := by cases h <;> rfl
theorem Move.terminated (h : Move env s s') : s'.terminated = s.terminated := by cases h <;> rfl
theorem Move.killed (h : Move env s s') : s'.killed = s.killed := by cases h <;> rfl

end Move

/-! ## The listeners -/

/-- Requests that start no listener. -/
def Req.unspawning : Req → Prop
  | .popen _ | .addListener _ => False
  | _ => True

section Kept

omit U in
theorem Req.measuring.unspawning {testId : String} {a : Req} (h : a.measuring testId) : a.unspawning := by
  cases a <;> first | exact h | trivial

omit U in
theorem Req.aside.unspawning {a : Req} (h : a.aside) : a.unspawning := by
  cases a <;> first | exact h | trivial

omit U in
theorem Req.sending.unspawning {which : Packet → Prop} {a : Req} (h : a.sending which) : a.unspawning := by
  cases a <;> first | exact h | trivial

omit U in
theorem Req.closing.unspawning {a : Req} (h : a.closing) : a.unspawning := by
  cases a <;> first | exact h | trivial

omit U in
theorem Req.opening.unspawning {a : Req} (h : a.opening) : a.unspawning := by
  cases a <;> first | exact h | trivial

theorem registered_kept : Kept env Req.unspawning Registered := by
  refine ⟨fun s s' h hm => ?_, fun s a r ha h _ => ?_⟩
  · rw [Registered, hm.spawned, hm.listeners]
    exact h
  · cases a with
    | popen argv => exact False.elim ha
    | addListener i => exact False.elim ha
    | run c =>
      cases r with
      | ok _ => exact h
      | error e =>
        simp only [effect]
        split <;> exact h
    | cancelTask =>
      have : (Loop.cancel env s).spawned = s.spawned ∧ (Loop.cancel env s).listeners = s.listeners := by
        unfold Loop.cancel Loop.close
        split <;> (try dsimp only) <;> (try split) <;> exact ⟨rfl, rfl⟩
      rw [effect_cancelTask, Registered, this.1, this.2]
      exact h
    | _ => cases r <;> exact h

variable {s : St} {req : TestRequest} {c : NetnsController} {testId : String} {α : Type}

theorem registered_only {p : Req → Prop} (hp : ∀ a, p a → a.unspawning) {x : Prog α} (hx : Only p x)
    (hs : Registered s) : Ends env (fun _ => Registered) (fun _ => Registered) x s :=
  registered_kept.ends (only_mono hp hx) hs

/-- A listener that was just started is registered at once. -/
theorem registered_spawnListeners (hs : Registered s) :
    Ends env (fun _ => Registered) (fun _ => Registered) (Pipeline.spawnListeners req testId c) s := by
  have hpopen : ∀ {u : St} {argv : List Arg}, Registered u →
      Ends env (fun i t => ∀ j < t.spawned, j ∈ t.listeners ∨ j = i) (fun _ => Registered)
        (perform (.popen argv)) u := by
    intro u argv hu
    refine ends_now rfl (fun i hr j hj => ?_) fun e hr => hu
    have hi : i = u.spawned := by simpa [allows] using hr
    rcases Nat.lt_succ_iff_lt_or_eq.mp hj with hj | hj
    · exact .inl (hu j hj)
    · exact .inr (hj.trans hi.symm)
  have hadd : ∀ {i : Nat} {u : St}, (∀ j < u.spawned, j ∈ u.listeners ∨ j = i) →
      Ends env (fun _ => Registered) (fun _ => Registered) (perform (.addListener i)) u := by
    intro i u hu
    refine ends_now rfl (fun v hr j hj => ?_) fun e hr => by cases hr
    rcases hu j hj with hj | hj
    · exact List.mem_append_left _ hj
    · exact List.mem_append_right _ (List.mem_singleton.mpr hj)
  refine wp_forEach (P := fun _ => Registered) (X := fun _ => Registered) (fun pkt rest u hu => ?_) (fun _ h => h)
    (fun _ _ h => h) hs
  split
  · exact wp_seq (hpopen hu) (fun i v hv => hadd hv) fun _ _ h => h
  · exact hu

end Kept

/-! ## The `try` block and its handlers -/

section Try

variable {s : St} {cfg : Pipeline.Config} {req : TestRequest} {c : NetnsController} {testId : String}

theorem registered_measure (hs : Registered s) :
    EndsIf env Orderly (fun r t => r = none ∧ Registered t ∧ Closed t) (fun _ => Registered)
      (Pipeline.measure cfg req testId c) s := by
  have hkeep : ∀ {α : Type} {p : Req → Prop} {x : Prog α} {u : St}, (∀ a, p a → a.measuring testId) → Only p x →
      Registered u → EndsIf env Orderly (fun _ => Registered) (fun _ => Registered) x u := fun hp hx hu =>
    (registered_only (fun a h => (hp a h).unspawning) hx hu).endsIf
  have hask : ∀ {a : Req}, a.measuring testId → Only (Req.measuring testId) (perform a) := only_request
  have hhealth : ∀ {u : St}, Registered u →
      EndsIf env Orderly (fun _ t => Registered t ∧ Closed t) (fun _ => Registered)
      (Pipeline.reportHealth testId) u := by
    intro u hu
    have hclosed : Kept env (Req.measuring testId) fun t => Registered t ∧ Closed t :=
      (registered_kept.mono fun _ => Req.measuring.unspawning).and (closed_kept.mono fun _ => Req.measuring.unopening)
    have hrest : ∀ problems : List String, Only (Req.measuring testId) (do
        Co.forEach problems (Pipeline.emitOracleError testId)
        let st ← perform .status
        ifSo (st ≠ .error) (perform (.setStatus .done)) : Prog Unit) := by
      intro problems
      refine only_bind (fun _ => only_bind (fun st => only_ifSo (hask (by trivial))) (hask (by trivial))) ?_
      exact only_forEach fun m _ => only_mono (fun _ => Req.reporting.measuring) (only_emitOracleError testId m)
    refine wp_seq (endsIf_aclose orderly_quiet (registered_kept.mono fun _ => Req.closing.unspawning).closes hu)
      (fun _ v hv => ?_) fun _ _ h => h.elim
    have hkept : ∀ {β : Type} {x : Prog β} {w : St}, Only (Req.measuring testId) x → Registered w ∧ Closed w →
        EndsIf env Orderly (fun _ t => Registered t ∧ Closed t) (fun _ t => Registered t ∧ Closed t) x w := fun hx hw =>
      (hclosed.ends hx hw).endsIf
    refine wp_seq (hkept (hask (by trivial)) hv) (fun problems w hw => ?_) fun _ _ h => h.1
    exact post_mono (hkept (hrest problems) hw) (fun _ _ h => h) fun _ _ h => h.1
  refine wp_seq (hkeep (fun _ h => h) (hask (by trivial)) hs) (fun ids u hu => ?_) fun _ _ h => h
  refine wp_seq (hkeep (fun _ h => h) (hask (by trivial)) hu) (fun _ u hu => ?_) fun _ _ h => h
  refine wp_seq (hkeep (fun _ => Req.sending.measuring) (only_injectFrom cfg _ _ _) hu)
    (fun _ u hu => ?_) fun _ _ h => h
  refine wp_seq (hkeep (fun _ h => h) (hask (by trivial)) hu) (fun _ u hu => ?_) fun _ _ h => h
  refine wp_seq (hkeep (fun _ h => h) (only_checkLiveness c req testId cfg) hu) (fun _ u hu => ?_) fun _ _ h => h
  refine wp_seq (hkeep (fun _ => Req.reporting.measuring) (only_reportConntrack c req testId) hu) (fun _ u hu => ?_)
    fun _ _ h => h
  exact wp_seq (hhealth hu) (fun _ _ h => ⟨rfl, h⟩) fun _ _ h => h

theorem registered_body (hs : Registered s) :
    EndsIf env Orderly (fun r t => r = none ∧ Registered t ∧ Closed t) (fun e t => e.isException = true ∧ Registered t)
      (Pipeline.body cfg req testId c) s := by
  refine endsIf_raises orderly_quiet (tame_body c req testId cfg) ?_
  have hprobe : ∀ {u : St}, Registered u → EndsIf env Orderly (fun ready t => ready = true ∧ Registered t)
      (fun _ => Registered)
      (Pipeline.probeOracle cfg (Pipeline.target req testId c) .readiness (Pipeline.canarySpec req.firstPacket)) u := by
    intro u hu
    have hsend : EndsIf env Orderly (fun _ => Registered) (fun _ => Registered)
        (Pipeline.probeFrom cfg (Pipeline.target req testId c) .readiness (Pipeline.canarySpec req.firstPacket) 1
          cfg.canaryAttempts) u :=
      (registered_only (fun _ => Req.sending.unspawning) (only_probeFrom cfg _ _ _ _ _) hu).endsIf
    refine wp_seq hsend (fun seen v hv => ?_) fun _ _ h => h
    have hmark : EndsIf env Orderly (fun _ t => seen = true ∧ Registered t) (fun _ => Registered)
        (perform (.mark (.probed .readiness seen))) v := by
      refine endsIf_now rfl (fun w hr hans => ⟨?_, hv⟩) fun e hr _ => by cases hr
      cases seen with
      | true => rfl
      | false => exact absurd rfl hans.ready
    exact wp_seq hmark (fun _ _ h => h) fun _ _ h => h
  refine wp_seq (registered_only (fun _ => Req.aside.unspawning) (only_setupTopology c req testId) hs).endsIf
    (fun _ u hu => ?_) fun _ _ h => h
  refine wp_seq (registered_spawnListeners hu).endsIf (fun _ u hu => ?_) fun _ _ h => h
  refine wp_seq (registered_only (fun _ => Req.opening.unspawning) (only_startMonitor c req testId cfg) hu).endsIf
    (fun _ u hu => ?_) fun _ _ h => h
  refine wp_seq (hprobe hu) (fun ready u hu => ?_) fun _ _ h => h
  obtain ⟨rfl, hu⟩ := hu
  exact registered_measure hu

theorem registered_handle {e : PyExc} (he : e.isException = true) (hs : Registered s) :
    EndsIf env Orderly (fun r t => r = none ∧ Registered t ∧ Closed t) (fun _ _ => False)
      (Pipeline.handle testId e) s := by
  have hclosing : Kept env Req.closing Registered :=
    registered_kept.mono fun _ => Req.closing.unspawning
  have hstatus : ∀ {u : St} {a : Req}, a.unspawning → (∀ t e, allows env t a (.error e) = false) → Registered u →
      EndsIf env Orderly (fun _ => Registered) (fun _ _ => False) (perform a) u := by
    intro u a ha hnone hu
    refine endsIf_perform registered_kept.stable hu (fun t v ht hr _ => registered_kept.answer t a (.ok v) ha ht hr)
      fun t e _ hr _ => ?_
    rw [hnone t e] at hr
    cases hr
  have hput : ∀ {u : St} {item : Option TraceEvent}, Registered u →
      EndsIf env Orderly (fun _ => Registered) (fun _ _ => False) (perform (.put item)) u := by
    intro u item hu
    refine endsIf_perform registered_kept.stable hu
      (fun t v ht hr _ => registered_kept.answer t _ (.ok v) trivial ht hr)
      fun t e _ hr hans => ?_
    -- only a cancelled put fails
    have hcls : e.cls = .cancelledError := by
      simp only [allows] at hr
      split at hr
      · simpa [whenReady] using hr
      · cases hr
    have := hans.quiet
    simp [cancels, hcls] at this
  have hreport : ∀ m, EndsIf env Orderly (fun r t => r = none ∧ Registered t ∧ Closed t) (fun _ _ => False)
      (Pipeline.reportException testId m) s := by
    intro m
    refine wp_seq (hstatus trivial (fun _ _ => rfl) hs) (fun _ u hu => ?_) fun _ _ h => h
    refine wp_seq (V := fun _ => Registered) (X := fun _ _ => False) ?_ (fun _ u hu => ?_) fun _ _ h => h
    · exact wp_seq (hstatus trivial (fun _ _ => rfl) hu) (fun _ _ h => hput h) fun _ _ h => h
    refine wp_seq (hput hu) (fun _ u hu => ?_) fun _ _ h => h
    exact wp_seq (endsIf_aclose orderly_quiet hclosing.closes hu) (fun _ _ h => ⟨rfl, h⟩) fun _ _ h => h
  unfold Pipeline.handle
  split
  · exact hreport _
  · exact hreport _

end Try

/-! ## The `finally` block -/

section Finally

variable {s : St} {req : TestRequest} {testId : String}

/-- What the teardown asks for. -/
def Req.deleting : Req → Prop
  | .run c => Deletion c.argv
  | a => a.aside

omit U in
theorem Req.deleting.aside {a : Req} (h : a.deleting) : a.aside := by
  cases a <;> first | exact h | trivial

omit U in
theorem deleting_delNetns (name : String) : (Req.run (delNetns name)).deleting := ⟨name, .inl rfl⟩

omit U in
theorem deleting_delLink (name : String) : (Req.run (delLink name)).deleting := ⟨name, .inr rfl⟩

omit U in
theorem Deleted.run {c d : Cmd} (h : Deleted c s) (hd : Deletion d.argv) (t : St) :
    Deleted c { t with cmds := s.cmds ++ [d.argv] } := by
  obtain ⟨before, after, hcmds, hafter⟩ := h
  refine ⟨before, after ++ [d.argv], by simp [hcmds], fun argv hargv => ?_⟩
  rcases List.mem_append.mp hargv with hargv | hargv
  · exact hafter argv hargv
  · exact List.mem_singleton.mp hargv ▸ hd

omit U in
theorem deleted_now (c : Cmd) (s t : St) : Deleted c { t with cmds := s.cmds ++ [c.argv] } :=
  ⟨s.cmds, [], rfl, fun _ h => absurd h List.not_mem_nil⟩

/-- A deletion stays the last thing done but for other deletions. -/
theorem deleted_kept {c : Cmd} : Kept env Req.deleting (Deleted c) := by
  refine ⟨fun s s' h hm => ?_, fun s a r ha h _ => ?_⟩
  · rw [Deleted, hm.cmds]
    exact h
  · cases a with
    | run d =>
      cases r with
      | ok _ => exact h.run ha s
      | error e =>
        simp only [effect]
        split
        · exact h
        · exact h.run ha s
    | _ => first | exact False.elim ha | (cases r <;> exact h)

theorem stopped_kept {i : Nat} : Kept env Req.aside fun s => Stopped s i := by
  refine ⟨fun s s' h hm => ?_, fun s a r ha h _ => ?_⟩
  · rw [Stopped, hm.terminated, hm.killed]
    exact h
  · cases a with
    | terminate j =>
      cases r with
      | ok _ => exact h.imp_left (List.mem_append_left _)
      | error _ => exact h
    | kill j => cases r <;> exact h.imp_right (List.mem_append_left _)
    | run c =>
      cases r with
      | ok _ => exact h
      | error e =>
        simp only [effect]
        split <;> exact h
    | _ => first | exact False.elim ha | (cases r <;> exact h)

theorem kept_spawned {n : Nat} : Kept env Req.aside fun s => s.spawned = n := by
  refine ⟨fun s s' h hm => hm.spawned.trans h, fun s a r ha h _ => ?_⟩
  cases a with
  | run c =>
    cases r with
    | ok _ => exact h
    | error e =>
      simp only [effect]
      split <;> exact h
  | _ => first | exact False.elim ha | (cases r <;> exact h)

/-- Stopping a listener never raises. -/
theorem stopped_stopListener {proc : Nat} {P : St → Prop} (hP : Kept env Req.deleting P) (hs : P s) :
    Ends env (fun _ t => P t ∧ Stopped t proc) (fun _ _ => False) (Pipeline.stopListener proc) s := by
  have hboth := hP.and ((stopped_kept (i := proc)).mono fun _ => Req.deleting.aside)
  have hterm : Ends env (fun _ t => P t ∧ Stopped t proc) (fun e t => P t ∧ Pipeline.isProcessError e = true)
      (perform (.terminate proc)) s := by
    refine ends_perform hP.stable hs (fun t v ht hr => ⟨hP.answer t _ (.ok v) trivial ht hr, ?_⟩) fun t e ht hr =>
      ⟨ht, ?_⟩
    · exact .inl (List.mem_append_right _ (List.mem_singleton.mpr rfl))
    · have hcls : e.cls = .osError := by simpa [allows, orRaises] using hr
      simp [Pipeline.isProcessError, PyExc.isOSError, hcls]
  have hwait : ∀ {u : St}, P u ∧ Stopped u proc →
      Ends env (fun _ t => P t ∧ Stopped t proc) (fun e t => P t ∧ Pipeline.isProcessError e = true)
        (perform (.wait proc 500)) u := by
    intro u hu
    refine ends_perform hboth.stable hu (fun t v ht _ => ht) fun t e ht hr => ⟨ht.1, ?_⟩
    have hcls : e.cls = .osError ∨ e.cls = .timeoutExpired := by simpa [allows, orRaises] using hr
    rcases hcls with hcls | hcls <;>
      simp [Pipeline.isProcessError, PyExc.isOSError, PyExc.isSubprocessError, hcls]
  have hkill : ∀ {u : St}, P u → Ends env (fun _ t => P t ∧ Stopped t proc) (fun _ _ => False)
      (suppress Pipeline.isProcessError (perform (.kill proc))) u := by
    intro u hu
    have hasked : Ends env (fun _ t => P t ∧ Stopped t proc)
        (fun e t => (P t ∧ Stopped t proc) ∧ Pipeline.isProcessError e = true) (perform (.kill proc)) u := by
      refine ends_perform hP.stable hu (fun t v ht hr => ?_) fun t e ht hr => ⟨?_, ?_⟩
      · exact ⟨hP.answer t _ (.ok v) trivial ht hr, .inr (List.mem_append_right _ (List.mem_singleton.mpr rfl))⟩
      · exact ⟨hP.answer t _ (.error e) trivial ht hr, .inr (List.mem_append_right _ (List.mem_singleton.mpr rfl))⟩
      · have hcls : e.cls = .osError := by simpa [allows, orRaises] using hr
        simp [Pipeline.isProcessError, PyExc.isOSError, hcls]
    refine wp_try hasked (fun _ _ h => h) fun e t ht => ?_
    rw [if_pos ht.2]
    exact ht.1
  refine wp_try (wp_seq hterm (fun _ _ h => hwait h) fun _ _ h => h) (fun _ _ h => h) fun e t ht => ?_
  rw [if_pos ht.2]
  exact hkill ht.1

/-- The deletion was executed, whether it succeeded or not. -/
theorem ran_delNetns {name : String} {P : St → Prop} (hP : Kept env Req.deleting P) (hs : P s) :
    EndsIf env Orderly (fun _ t => P t ∧ Deleted (delNetns name) t)
      (fun e t => (P t ∧ Deleted (delNetns name) t) ∧ (e.cls = .calledProcessError ∨ e.cls = .timeoutExpired))
      (NetnsController.run (NetnsController.ip ["netns", "del", name])) s := by
  have hrun : EndsIf env Orderly (fun _ t => P t ∧ Deleted (delNetns name) t)
      (fun e t => (P t ∧ Deleted (delNetns name) t) ∧ (e.cls = .calledProcessError ∨ e.cls = .timeoutExpired))
      (perform (.run (delNetns name))) s := by
    refine endsIf_perform hP.stable hs (fun t v ht hr _ => ?_) fun t e ht hr hans => ?_
    · exact ⟨hP.answer t _ (.ok v) (deleting_delNetns name) ht hr, deleted_now _ _ _⟩
    · have hcls := hans.netns name e rfl rfl
      refine ⟨⟨hP.answer t _ (.error e) (deleting_delNetns name) ht hr, ?_⟩, hcls⟩
      have hran : unresolved e = false := by
        rcases hcls with hcls | hcls <;> simp [unresolved, hcls]
      simp only [effect, hran]
      exact deleted_now _ _ _
  exact wp_seq hrun (fun _ _ h => h) fun _ _ h => h

theorem ran_destroyAttempts {name : String} : ∀ (delays : List Nat) {P : St → Prop} {s : St},
    Kept env Req.deleting P → P s →
    EndsIf env Orderly (fun _ t => P t ∧ (delays ≠ [] → Deleted (delNetns name) t)) (fun _ _ => False)
      (NetnsController.destroyAttempts name delays) s
  | [], _, _, _, hs => ⟨hs, fun h => absurd rfl h⟩
  | delay :: delays, P, s, hP, hs => by
    have hran : Kept env Req.deleting fun t => P t ∧ Deleted (delNetns name) t := hP.and deleted_kept
    have hsleep : ∀ {v : St}, P v ∧ Deleted (delNetns name) v →
        EndsIf env Orderly (fun _ t => P t ∧ Deleted (delNetns name) t) (fun _ _ => False)
          (perform (.sleep delay)) v := by
      intro v hv
      refine endsIf_perform hran.stable hv (fun t w ht _ _ => ht) fun t e _ hr hans => ?_
      have hcls : e.cls = .cancelledError := by simpa [allows, orRaises] using hr
      have := hans.quiet
      simp [cancels, hcls] at this
    refine wp_seq (V := fun _ t => P t ∧ Deleted (delNetns name) t) (X := fun _ _ => False) ?_
      (fun again v hv => ?_) fun _ _ h => h
    · have hdel : EndsIf env Orderly (fun _ t => P t ∧ Deleted (delNetns name) t) (fun e t =>
          (P t ∧ Deleted (delNetns name) t) ∧ (e.cls = .calledProcessError ∨ e.cls = .timeoutExpired))
          (do NetnsController.run (NetnsController.ip ["netns", "del", name]); pure false : Prog Bool) s :=
        wp_seq (ran_delNetns hP hs) (fun _ _ h => h) fun _ _ h => h
      refine wp_try hdel (fun _ _ h => h) fun e t ht => ?_
      obtain ⟨ht, hcls | hcls⟩ := ht
      · rw [if_pos hcls]
        split
        · exact ht
        · split
          · exact ht
          · exact wp_seq (hsleep ht) (fun _ _ h => h) fun _ _ h => h
      · rw [if_neg (by rw [hcls]; decide), if_pos hcls]
        exact ht
    · cases again with
      | false => exact ⟨hv.1, fun _ => hv.2⟩
      | true =>
        exact post_mono (ran_destroyAttempts delays hran hv) (fun _ _ h => ⟨h.1.1, fun _ => h.1.2⟩) fun _ _ h => h

/-- `destroy_netns` asks for the deletion and, when `ip` can be started, never raises. -/
theorem ran_destroyNetns {name : String} {P : St → Prop} (hP : Kept env Req.deleting P) (hs : P s) :
    EndsIf env Orderly (fun _ t => P t ∧ Deleted (delNetns name) t) (fun _ _ => False)
      (NetnsController.destroyNetns name) s := by
  have hran : Kept env Req.deleting fun t => P t ∧ Deleted (delNetns name) t := hP.and deleted_kept
  refine wp_seq (ran_destroyAttempts [100, 500, 1000] hP hs) (fun _ u hu => ?_) fun _ _ h => h
  refine endsIf_perform hran.stable ⟨hu.1, hu.2 nofun⟩ (fun t v ht hr _ => hran.answer t _ (.ok v) trivial ht hr)
    fun t e _ hr _ => by cases hr

/-- Part of the teardown is done: `procs` and `nss` are still to go. -/
structure Going (req : TestRequest) (testId : String) (n : Nat) (procs : List Nat)
    (nss : List String) (s : St) : Prop where
  closed : Closed s
  spawned : s.spawned = n
  listeners : ∀ i, i < n → i ∈ procs ∨ Stopped s i
  namespaces : ∀ ns, ns ∈ Pipeline.namespaces req testId → ns ∈ nss ∨ Deleted (delNetns ns) s

theorem going_kept {n : Nat} {procs : List Nat} {nss : List String} :
    Kept env Req.deleting (Going req testId n procs nss) := by
  have hclosed : Kept env Req.deleting Closed := closed_kept.mono fun _ h => h.aside.unopening
  have hlisteners : Kept env Req.deleting fun s => ∀ i, i < n → i ∈ procs ∨ Stopped s i :=
    .forall fun i => .imp (.or .const (stopped_kept.mono fun _ => Req.deleting.aside))
  have hnamespaces : Kept env Req.deleting fun s => ∀ ns, ns ∈ Pipeline.namespaces req testId → ns ∈ nss ∨
      Deleted (delNetns ns) s := .forall fun ns => .imp (.or .const deleted_kept)
  exact ⟨fun s s' h hm => ⟨hclosed.move s s' h.closed hm, (kept_spawned (n := n)).move s s' h.spawned hm,
      hlisteners.move s s' h.listeners hm, hnamespaces.move s s' h.namespaces hm⟩,
    fun s a r ha h hr => ⟨hclosed.answer s a r ha h.closed hr, kept_spawned.answer s a r ha.aside h.spawned hr,
      hlisteners.answer s a r ha h.listeners hr, hnamespaces.answer s a r ha h.namespaces hr⟩⟩

/-- The `finally` block asks for everything to go, whatever fails in it. -/
theorem cleanedUp_teardown (hs : Registered s) (hclosed : Closed s) :
    EndsIf env Orderly (fun _ => CleanedUp req testId) (fun _ => CleanedUp req testId)
      (Pipeline.teardown req testId) s := by
  have hlist : EndsIf env Orderly (fun procs t => t = s ∧ procs = s.listeners) (fun _ _ => False)
      (perform .listeners) s := by
    refine endsIf_now rfl (fun procs hr _ => ⟨rfl, ?_⟩) fun e hr _ => by cases hr
    simpa [allows, exactly] using hr
  refine wp_seq hlist (fun procs t ht => ?_) fun _ _ h => h.elim
  obtain ⟨rfl, rfl⟩ := ht
  have hbegin : Going req testId t.spawned t.listeners (Pipeline.namespaces req testId) t :=
    ⟨hclosed, rfl, fun i hi => .inl (hs i hi), fun ns hns => .inl hns⟩
  refine wp_seq (V := fun _ => Going req testId t.spawned [] (Pipeline.namespaces req testId))
    (X := fun _ _ => False) ?_
    (fun _ u hu => ?_) fun _ _ h => h.elim
  · refine wp_forEach (P := fun rest => Going req testId t.spawned rest (Pipeline.namespaces req testId))
      (X := fun _ _ => False) (fun proc rest u hu => ?_) (fun _ h => h) (fun _ _ h => h) hbegin
    refine Ends.endsIf (post_mono (stopped_stopListener going_kept hu) (fun _ v hv => ?_) fun _ _ h => h)
    refine ⟨hv.1.closed, hv.1.spawned, fun i hi => ?_, hv.1.namespaces⟩
    rcases hv.1.listeners i hi with hi | hi
    · rcases List.mem_cons.mp hi with rfl | hi
      · exact .inr hv.2
      · exact .inl hi
    · exact .inr hi
  refine wp_seq (V := fun _ => Going req testId t.spawned [] []) (X := fun _ _ => False) ?_ (fun _ v hv => ?_)
    fun _ _ h => h.elim
  · refine wp_forEach (P := fun rest => Going req testId t.spawned [] rest) (X := fun _ _ => False)
      (fun ns rest v hv => ?_) (fun _ h => h) (fun _ _ h => h) hu
    refine post_mono (ran_destroyNetns going_kept hv) (fun _ w hw => ?_) fun _ _ h => h
    refine ⟨hw.1.closed, hw.1.spawned, hw.1.listeners, fun ns' hns => ?_⟩
    rcases hw.1.namespaces ns' hns with hns | hns
    · rcases List.mem_cons.mp hns with rfl | hns
      · exact .inr hw.2
      · exact .inl hns
    · exact .inr hns
  have hclean : ∀ {w : St}, Going req testId t.spawned [] [] w → Deleted (delLink (deriveNames testId).vethHost) w →
      CleanedUp req testId w := fun hw hveth =>
    ⟨hw.closed, fun i hi => (hw.listeners i (hw.spawned ▸ hi)).resolve_left List.not_mem_nil,
      fun ns hns => (hw.namespaces ns hns).resolve_left List.not_mem_nil, hveth⟩
  have hdel : EndsIf env Orderly (fun _ => CleanedUp req testId) (fun _ => CleanedUp req testId)
      (perform (.run (delLink (deriveNames testId).vethHost))) v := by
    refine endsIf_perform going_kept.stable hv (fun w r hw hr _ => ?_) fun w e hw hr hans => ?_
    · exact hclean (going_kept.answer w _ (.ok r) (deleting_delLink _) hw hr) (deleted_now _ _ _)
    · refine hclean (going_kept.answer w _ (.error e) (deleting_delLink _) hw hr) ?_
      simp only [effect, hans.link _ e rfl rfl]
      exact deleted_now _ _ _
  exact wp_seq hdel (fun _ _ h => h) fun _ _ h => h

end Finally

/-! ## Whole runs -/

section Run

variable {s t : St} {cfg : Pipeline.Config} {req : TestRequest} {controller : Option NetnsController} {testId : String}

theorem CleanedUp.move {s s' : St} (h : CleanedUp req testId s) (hm : Move env s s') : CleanedUp req testId s' := by
  refine ⟨closed_kept.move s s' h.closed hm, fun i hi => ?_, fun ns hns => ?_, ?_⟩
  · exact stopped_kept.move s s' (h.listeners i (hm.spawned ▸ hi)) hm
  · exact deleted_kept.move s s' (h.namespaces ns hns) hm
  · exact deleted_kept.move s s' h.hostVeth hm

theorem cleanedUp_guarded {c : NetnsController} (hs : Registered s) :
    EndsIf env Orderly (fun r t => r = none ∧ CleanedUp req testId t) (fun _ => CleanedUp req testId)
      (Pipeline.guarded cfg req testId c) s := by
  have htry : EndsIf env Orderly (fun r t => r = none ∧ Registered t ∧ Closed t) (fun _ _ => False)
      ((Pipeline.body cfg req testId c).tryCatch (Pipeline.handle testId)) s :=
    wp_try (registered_body hs) (fun _ _ h => h) fun e _ h => registered_handle h.1 h.2
  refine wp_finally htry (fun r u hu => ?_) fun _ _ h => h.elim
  obtain ⟨rfl, hreg, hclosed⟩ := hu
  exact post_mono (cleanedUp_teardown hreg hclosed) (fun _ _ h => ⟨rfl, h⟩) fun _ _ h => h

theorem cleanedUp_run :
    EndsIf env Orderly (fun _ => CleanedUp req testId) (fun _ => CleanedUp req testId)
      (Pipeline.runTestPipeline cfg req controller testId) {} := by
  have hrest : ∀ {c : NetnsController} {u : St}, Registered u →
      EndsIf env Orderly (fun _ => CleanedUp req testId) (fun _ => CleanedUp req testId)
        (Pipeline.runWith cfg req testId c)
        u := by
    intro c u hu
    have hstatus : EndsIf env Orderly (fun _ => Registered) (fun _ _ => False) (perform (.setStatus .running)) u :=
      endsIf_now rfl (fun _ _ _ => hu) fun _ hr _ => by cases hr
    refine wp_seq hstatus (fun _ v hv => ?_) fun _ _ h => h.elim
    refine wp_seq (cleanedUp_guarded hv) (fun r w hw => ?_) fun _ _ h => h
    obtain ⟨rfl, hw⟩ := hw
    refine post_mono (ends_result w).endsIf (fun _ x hx => ?_) fun _ _ h => h.elim
    exact hx.1 ▸ hw
  have hinit : Registered {} := fun i hi => absurd hi (Nat.not_lt_zero i)
  cases controller with
  | some c => exact hrest hinit
  | none =>
    refine wp_seq (endsIf_new orderly_quiet (registered_kept.mono fun _ => Req.aside.unspawning) hinit)
      (fun _ _ h => hrest h) fun _ _ h => h.elim

/-- However an orderly run ends, the harvester is closed, every listener was terminated or
    killed, every deletion was asked for, and the list it returned does not change. -/
theorem cleaned_up {c : Prog ListRef}
    (hrun : Steps (answering env Orderly) (Pipeline.runTestPipeline cfg req controller testId, {}) (c, s))
    (hend : (∃ ref, c = .ret ref) ∨ ∃ e, c = .throw e) (hafter : After (world env) s t) :
    CleanedUp req testId t ∧ ∀ ref, c = .ret ref → ref.read t = ref.read s := by
  have hw := wp_steps hrun cleanedUp_run
  have hs : CleanedUp req testId s := by
    rcases hend with ⟨ref, rfl⟩ | ⟨e, rfl⟩ <;> exact hw
  refine ⟨(stable_of_moves fun u u' hu hm => CleanedUp.move hu hm).after hafter hs, fun ref _ => ?_⟩
  cases ref with
  | collected => exact (hs.closed.after hafter).2
  | fresh events => rfl

end Run

end Nse

namespace Nse

open Coroutine
open Pipeline (ListRef)

attribute [local instance] PyStr.Unicode.ascii

/-- Success, and the readiness probe's mark only when it succeeded. -/
def orderlyAnswer (_ : St) (a : Req) (r : Except PyExc (Reply a)) : Bool :=
  (match r with | .ok _ => true | .error _ => false) && !decide (a = .mark (.probed .readiness false))

theorem orderlyAnswer_orderly {s : St} {a : Req} {r : Except PyExc (Reply a)} (h : orderlyAnswer s a r = true) :
    Orderly s a r := by
  simp only [orderlyAnswer, Bool.and_eq_true, Bool.not_eq_true', decide_eq_false_iff_not] at h
  cases r with
  | ok v => exact ⟨rfl, h.2, nofun, nofun⟩
  | error e => cases h.1

theorem cleaned_up_sample : ∃ ref s,
    Steps (answering {} Orderly) (Pipeline.runTestPipeline {} sampleRequest none "a1b2c3d4e5f6", {}) (.ret ref, s) ∧
      CleanedUp sampleRequest "a1b2c3d4e5f6" s ∧ s.spawned = 1 := by
  have hplay : Script.returned (fun _ s => s.spawned == 1)
      (((obliging {}).guarded orderlyAnswer fun _ _ => true).play 200
        (Pipeline.runTestPipeline {} sampleRequest none "a1b2c3d4e5f6") {}) = true := by
    decide +kernel
  have hfits : ((obliging {}).guarded orderlyAnswer fun _ _ => true).Fits (answering {} Orderly) :=
    (schedule_fits {} obligingReply obligingEvents).guarded (fun _ _ _ => orderlyAnswer_orderly) fun _ _ _ => trivial
  obtain ⟨ref, s, hrun, hp⟩ := Script.returned_steps hfits hplay
  exact ⟨ref, s, hrun, (cleaned_up hrun (.inl ⟨ref, rfl⟩) .refl).1, by simpa using hp⟩

/-- Nothing is traced while the run lasts. -/
def silent (_ : St) : Req → List Ev
  | .waitReady _ => [.begin]
  | _ => []

/-- The readiness canary is missed: the run returns, nobody has told the monitor to stop,
    and a line that comes later is added to the list the caller holds. -/
theorem a_missed_readiness_canary_leaves_the_monitor_running : ∃ ref s t,
    Steps (world {}) (Pipeline.runTestPipeline {} sampleRequest none "a1b2c3d4e5f6", {}) (.ret ref, s) ∧
      s.h.stopRequested = false ∧ s.loop = .reading ∧ After (world {}) s t ∧ ref.read t ≠ ref.read s := by
  have hplay : Script.returned
      (fun ref s => s.h.stopRequested == false && s.loop == .reading &&
        match (event {} s (.write (.foreign 0) (lineOf (.foreign 0)))).bind fun u => event {} u .line with
        | some t => decide (ref.read t ≠ ref.read s)
        | none => false)
      ((schedule {} obligingReply silent).play 700
        (Pipeline.runTestPipeline {} sampleRequest none "a1b2c3d4e5f6") {}) = true := by
    decide +kernel
  obtain ⟨ref, s, hrun, hp⟩ := Script.returned_steps (schedule_fits _ _ _) hplay
  simp only [Bool.and_eq_true, beq_iff_eq] at hp
  obtain ⟨⟨hstop, hloop⟩, hp⟩ := hp
  split at hp
  · rename_i t ht
    obtain ⟨u, hwrite, hline⟩ := Option.bind_eq_some_iff.mp ht
    have hafter : After (world {}) s t := (Relation.ReflTransGen.single ⟨_, hwrite⟩).tail ⟨_, hline⟩
    exact ⟨ref, s, t, hrun, hstop, hloop, hafter, of_decide_eq_true hp⟩
  · cases hp

end Nse
