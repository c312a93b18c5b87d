/-
  Nse.Core.Failures — the failures a step of a run can produce, and which of them leave it.

  The `try` block's handlers catch every `Exception`, and what they ask for themselves does
  not fail. The `finally` block deletes namespaces and an interface: a command that fails or
  times out is dealt with there, an `OSError` (a missing `ip` among them) leaves the run, and
  so does `UnsafeBinaryError`, which is not an `OSError`.

  Proved: `raises_runWith`, a run raises only `RuntimeError`, `OSError` and `ValueError`, as
  long as no command of its `finally` block finds the binary unsafe.
-/

import Nse.Core.Exceptions

namespace Nse

open Coroutine

/-! ## Failures -/

/-- The exceptions the world can answer a request with. -/
def Possible [PyStr.Unicode] (env : Env) (a : Req) (e : PyExc) : Prop := ∃ s, allows env s a (.error e) = true

/-- One of the failures a step can really produce: the run is not cancelled, and nothing
    raises an exception of a class of its own. The read loop's cancellation is `aclose`'s. -/
def Ordinary (a : Req) (e : PyExc) : Prop := (e.cls ≠ .otherError ∧ e.cls ≠ .cancelledError) ∨ a = .joinTask

/-- The commands of the `finally` block: `ip netns del`, `ip link del`. -/
def Req.deletes : Req → Bool
  | .run c =>
    ((c.argv.drop 1).take 2) == [.str "netns", .str "del"] || ((c.argv.drop 1).take 2) == [.str "link", .str "del"]
  | _ => false

/-- `resolve` does not find the binary of a deletion unsafe. -/
def SafeDeletion (a : Req) (e : PyExc) : Prop := a.deletes = true → e.cls ≠ .unsafeBinaryError

/-- Caught by `except (RuntimeError, OSError, ValueError)`. -/
def PyExc.crash (e : PyExc) : Bool := e.cls == .runtimeError || e.isOSError || e.cls == .valueError

variable [U : PyStr.Unicode]

/-- What a step may raise. -/
def Failure (a : Req) (e : PyExc) : Prop := (∃ env, Possible env a e) ∧ Ordinary a e ∧ SafeDeletion a e

theorem Failure.uncancelled {a : Req} {e : PyExc} (h : Failure a e) : Uncancelled a e := by
  rcases h.2.1 with ⟨-, hcls⟩ | ha
  · left
    simpa [PyExc.isException] using hcls
  · exact .inr ha

/-- Raises nothing. -/
abbrev Silent {α : Type} (c : Prog α) : Prop := Raises Failure (fun _ => False) c

/-- Raises only what the suite's handler catches. -/
abbrev Crashes {α : Type} (c : Prog α) : Prop := Raises Failure (fun e => e.crash = true) c

section Silent

theorem silent_perform {a : Req} (h : ∀ env s e, allows env s a (.error e) = true → ¬Ordinary a e) :
    Silent (perform a) := by
  refine raises_request ?_
  rintro e ⟨⟨env, s, hs⟩, hord, -⟩
  exact h env s e hs hord

theorem Silent.crashes {α : Type} {c : Prog α} (h : Silent c) : Crashes c :=
  raises_mono (fun _ _ h => h) (fun _ h => h.elim) h

theorem silent_now {a : Req} (h : ∀ env s e, allows env s a (.error e) = false) : Silent (perform a) :=
  silent_perform fun env s e hs => absurd hs (by rw [h env s e]; simp)

variable (testId : String)

theorem silent_put (item : Option TraceEvent) : Silent (perform (.put item)) := by
  refine silent_perform ?_
  intro env s e hs hord
  simp only [allows] at hs
  split at hs
  · rcases hord with ⟨-, hcls⟩ | ha
    · simp [whenReady, hcls] at hs
    · cases ha
  · simp [orRaises] at hs

theorem silent_emitEvent (item : Option TraceEvent) : Silent (Pipeline.emitEvent item) := by
  cases item with
  | none => exact silent_put none
  | some e => exact raises_bind (fun _ => silent_put _) (silent_now fun _ _ _ => rfl)

theorem silent_drain (timeout : Nat) : Silent (TraceHarvester.drain timeout) := by
  have htimeout : Raises Failure (fun e => e.cls = .timeoutError) (perform (.awaitTask timeout)) := by
    refine raises_request ?_
    rintro e ⟨⟨env, s, hs⟩, hord, -⟩
    rcases hord with ⟨-, hcls⟩ | ha
    · simpa [allows, whenReady, hcls] using hs
    · cases ha
  refine raises_tryCatch ?_ htimeout
  intro e he
  rw [if_pos he]
  exact raises_bind (fun _ => raises_tryCatch (fun _ _ => raises_ret) (raises_anything _)) (silent_now fun _ _ _ => rfl)

theorem silent_aclose (timeout : Nat) : Silent (TraceHarvester.aclose timeout) := by
  have hstop : ∀ b : Prop, ∀ [Decidable b], Silent (ifSo b (perform .setStopped)) := by
    intro b _
    unfold ifSo
    split
    · exact silent_now fun _ _ _ => rfl
    · exact raises_ret
  have hwait : ∀ pending : Bool, Silent (ifSo (pending = true) (TraceHarvester.drain timeout)) := by
    intro pending
    unfold ifSo
    split
    · exact silent_drain timeout
    · exact raises_ret
  refine raises_bind (fun _ => raises_bind (fun pending => ?_) (silent_now fun _ _ _ => rfl))
    (silent_now fun _ _ _ => rfl)
  refine raises_bind (fun _ => raises_bind (fun st => ?_) (silent_now fun _ _ _ => rfl)) (hwait pending)
  exact raises_bind (fun _ => silent_now fun _ _ _ => rfl) (hstop _)

/-- The handlers catch every `Exception`, and raise nothing themselves. -/
theorem silent_handle {e : PyExc} (he : e.isException = true) : Silent (Pipeline.handle testId e) := by
  have hreport : ∀ message, Silent (Pipeline.reportException testId message) := by
    intro message
    refine raises_bind (fun _ => raises_bind (fun _ => raises_bind (fun _ => ?_) (silent_emitEvent none))
      (silent_emitEvent _))
      (silent_now fun _ _ _ => rfl)
    exact raises_bind (fun _ => raises_ret) (silent_aclose _)
  unfold Pipeline.handle
  split
  · exact hreport _
  · exact hreport _

theorem silent_result : Silent Pipeline.result :=
  raises_bind (fun _ => raises_bind (fun _ => raises_ret) (silent_now fun _ _ _ => rfl)) (silent_now fun _ _ _ => rfl)

end Silent

/-! ## The `finally` block -/

section Teardown

variable (req : TestRequest) (testId : String)

theorem silent_stopListener (proc : Nat) : Silent (Pipeline.stopListener proc) := by
  have hprocess : ∀ {a : Req}, (∀ env s e, allows env s a (.error e) = true → Pipeline.isProcessError e = true) →
      Raises Failure (fun e => Pipeline.isProcessError e = true) (perform a) := by
    intro a h
    refine raises_request ?_
    rintro e ⟨⟨env, s, hs⟩, -⟩
    exact h env s e hs
  have hclass : ∀ e : PyExc, e.cls = .osError ∨ e.cls = .timeoutExpired → Pipeline.isProcessError e = true := by
    rintro e (h | h) <;> simp [Pipeline.isProcessError, PyExc.isOSError, PyExc.isSubprocessError, h]
  have hterminate := hprocess (a := .terminate proc) fun env s e hs =>
    hclass e (.inl (by simpa [allows, orRaises] using hs))
  have hwait := hprocess (a := .wait proc 500) fun env s e hs => hclass e (by simpa [allows, orRaises] using hs)
  have hkill := hprocess (a := .kill proc) fun env s e hs => hclass e (.inl (by simpa [allows, orRaises] using hs))
  have hdone : Raises Failure (fun e => Pipeline.isProcessError e = true)
      ((do perform (.terminate proc); perform (.wait proc 500) : Prog Unit)) := raises_bind (fun _ => hwait) hterminate
  refine raises_tryCatch (y := fun e => Pipeline.isProcessError e = true) ?_ hdone
  intro e he
  rw [if_pos he]
  refine raises_tryCatch (y := fun e => Pipeline.isProcessError e = true) ?_ hkill
  intro e he
  rw [if_pos he]
  exact raises_ret

/-- What a command of the `finally` block raises, other than its own failure or timeout. -/
theorem crash_of_deletion {c : Cmd} {e : PyExc} (hdel : (Req.run c).deletes = true) (h : Failure (.run c) e)
    (hfailed : e.cls ≠ .calledProcessError) (htime : e.cls ≠ .timeoutExpired) : e.crash = true := by
  obtain ⟨⟨env, s, hs⟩, hord, hsafe⟩ := h
  have hunsafe := hsafe hdel
  rcases hord with ⟨hother, hcancel⟩ | ha
  · simp only [allows, Cmd.raises] at hs
    cases hcls : e.cls <;> simp_all [PyExc.crash, PyExc.isOSError]
  · cases ha

theorem crashes_destroyAttempts (name : String) :
    ∀ delays : List Nat, Crashes (NetnsController.destroyAttempts name delays)
  | [] => trivial
  | delay :: delays => by
    have hdel : ∀ e, Failure (.run
        { argv := NetnsController.ip ["netns", "del", name], check := true, timeout := some 10000 }) e →
        e.crash = true ∨ e.cls = .calledProcessError ∨ e.cls = .timeoutExpired := by
      intro e he
      by_cases hfailed : e.cls = .calledProcessError
      · exact .inr (.inl hfailed)
      · by_cases htime : e.cls = .timeoutExpired
        · exact .inr (.inr htime)
        · exact .inl (crash_of_deletion rfl he hfailed htime)
    have hrun : Raises Failure (fun e => e.crash = true ∨ e.cls = .calledProcessError ∨ e.cls = .timeoutExpired)
        (do NetnsController.run (NetnsController.ip ["netns", "del", name]); pure false : Prog Bool) :=
      raises_bind (fun _ => raises_ret) (raises_bind (fun _ => raises_ret) (raises_request hdel))
    have hsleep : Crashes (perform (.sleep delay)) := by
      refine (silent_perform ?_).crashes
      intro env s e hs hord
      rcases hord with ⟨-, hcls⟩ | ha
      · simp [allows, orRaises, hcls] at hs
      · cases ha
    refine raises_bind (fun again => ?_) (raises_tryCatch ?_ hrun)
    · cases again
      · exact raises_ret
      · exact crashes_destroyAttempts name delays
    · intro e he
      split
      · split
        · exact raises_ret
        · split
          · exact raises_ret
          · exact raises_bind (fun _ => raises_ret) hsleep
      · rename_i hfailed
        split
        · exact raises_ret
        · rename_i htime
          exact he.resolve_right fun h => h.elim hfailed htime

theorem crashes_destroyNetns (name : String) : Crashes (NetnsController.destroyNetns name) :=
  raises_bind (fun _ => (silent_now fun _ _ _ => rfl).crashes) (crashes_destroyAttempts name _)

theorem crashes_deleteHostVeth (veth : String) : Crashes (Pipeline.deleteHostVeth veth) := by
  refine raises_bind (fun _ => raises_ret) (raises_request ?_)
  intro e he
  refine crash_of_deletion rfl he ?_ ?_
  · intro hcls
    obtain ⟨⟨env, s, hs⟩, -⟩ := he
    simp [allows, Cmd.raises, hcls] at hs
  · intro hcls
    obtain ⟨⟨env, s, hs⟩, -⟩ := he
    simp [allows, Cmd.raises, hcls] at hs

theorem crashes_teardown : Crashes (Pipeline.teardown req testId) := by
  refine raises_bind (fun procs => ?_) (silent_now fun _ _ _ => rfl).crashes
  refine raises_bind (fun _ => ?_) (raises_forEach fun proc => (silent_stopListener proc).crashes)
  exact raises_bind (fun _ => crashes_deleteHostVeth _) (raises_forEach crashes_destroyNetns)

/-- A run raises nothing but what `run_suite` catches. -/
theorem crashes_runWith (cfg : Pipeline.Config) (c : NetnsController) :
    Crashes (Pipeline.runWith cfg req testId c) := by
  have hbody : Raises Failure (fun e => e.isException = true) (Pipeline.body cfg req testId c) :=
    raises_mono (fun _ _ h => h.uncancelled) (fun _ h => h) (tame_body c req testId cfg)
  have hguarded : Crashes (Pipeline.guarded cfg req testId c) :=
    raises_tryFinally (crashes_teardown req testId)
      (raises_tryCatch (fun e he => (silent_handle testId he).crashes) hbody)
  refine raises_bind (fun _ => raises_bind (fun early => ?_) hguarded) (silent_now fun _ _ _ => rfl).crashes
  cases early with
  | some ref => exact raises_ret
  | none => exact silent_result.crashes

end Teardown

end Nse
