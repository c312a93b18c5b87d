/-
  Nse.Core.Exceptions — what a run raises when nobody cancels it.

  The cancellation of the read loop, which `aclose` asks for and suppresses, is the one
  `CancelledError` that does not come from outside. So as long as no other request is
  answered by one, every exception of the `try` block is caught by its handlers
  (`tame_body`).
-/

import Nse.Core.Footprints

namespace Nse

open Coroutine

/-- What the answer to a request raises when nobody cancels the run. -/
def Uncancelled (a : Req) (e : PyExc) : Prop := e.isException = true ∨ a = .joinTask

/-- Raises nothing but subclasses of `Exception`. -/
abbrev Tame {α : Type} (c : Prog α) : Prop := Raises Uncancelled (fun e => e.isException = true) c

theorem not_cancels {s : St} {a : Req} {e : PyExc} (h : cancels s a (.error e) = false) : Uncancelled a e := by
  by_cases he : e.isException = true
  · exact .inl he
  · right
    have hcls : e.cls = .cancelledError := by simpa [PyExc.isException] using he
    simp only [cancels, hcls, beq_self_eq_true, Bool.true_and, Bool.not_eq_false', Bool.and_eq_true, beq_iff_eq] at h
    exact h.1

theorem tame_perform {a : Req} (ha : a ≠ .joinTask) : Tame (perform a) :=
  raises_request fun _ he => he.resolve_right ha

theorem tame_suppress {caught : PyExc → Bool} {x : Prog Unit} (hx : Tame x) : Tame (suppress caught x) := by
  refine raises_tryCatch (fun e he => ?_) hx
  split
  · exact raises_ret
  · exact he

theorem tame_ifSo {b : Prop} [Decidable b] {x : Prog Unit} (hx : Tame x) : Tame (ifSo b x) := by
  unfold ifSo
  split
  · exact hx
  · exact raises_ret

/-! ## The parsers -/

section Parsers

variable [U : PyStr.Unicode] {α β : Type}

/-- Fails with a subclass of `Exception`, if it fails. -/
def TameResult (r : Except PyExc α) : Prop := ∀ e, r = .error e → e.isException = true

omit U in
theorem TameResult.bind {r : Except PyExc α} {f : α → Except PyExc β} (hr : TameResult r) (hf : ∀ v, TameResult (f v)) :
    TameResult (r.bind f) := by
  cases r with
  | ok v => exact hf v
  | error e =>
    intro e' he
    cases he
    exact hr e rfl

omit U in
theorem TameResult.map {r : Except PyExc α} {f : α → β} (hr : TameResult r) : TameResult (r.map f) := by
  cases r with
  | ok v => exact nofun
  | error e =>
    intro e' he
    cases he
    exact hr e rfl

theorem tame_intOf (s : String) : TameResult (intOf s) := by
  unfold intOf
  split
  · split
    · exact nofun
    · intro e he
      cases he
      rfl
  · intro e he
    cases he
    rfl

theorem tame_scanWord (f : Conntrack.Found) (p : String) : TameResult (Conntrack.scanWord f p) := by
  unfold Conntrack.scanWord
  split
  · exact nofun
  · split
    · exact nofun
    · split
      · exact (tame_intOf _).map
      · split
        · exact (tame_intOf _).map
        · exact nofun

theorem tame_scanWords : ∀ (ps : List String) (f : Conntrack.Found), TameResult (Conntrack.scanWords f ps)
  | [], _ => nofun
  | p :: ps, f => (tame_scanWord f p).bind fun f => tame_scanWords ps f

theorem tame_parseConntrackLine (line : String) : TameResult (Conntrack.parseConntrackLine line) := by
  unfold Conntrack.parseConntrackLine
  dsimp only
  split
  · exact nofun
  · exact (tame_scanWords _ _).map

theorem tame_parseLines : ∀ lines : List String, TameResult (Conntrack.parseLines lines)
  | [] => nofun
  | line :: lines => by
    unfold Conntrack.parseLines
    split
    · exact tame_parseLines lines
    · exact (tame_parseConntrackLine line).bind fun _ => (tame_parseLines lines).map

theorem tame_readConntrackTable (netns : String) (useNsenter : Bool) :
    Tame (Conntrack.readConntrackTable netns useNsenter) := by
  have hcat : ∀ entry file, Tame (Conntrack.catTable entry file) := fun _ _ =>
    raises_bind (fun _ => raises_ret) (tame_perform (by nofun))
  have helse : ∀ {x y : Prog (List String)}, Tame x → Tame y → Tame (Conntrack.orElseOnFailure x y) := by
    intro x y hx hy
    refine raises_tryCatch (fun e he => ?_) hx
    split
    · exact hy
    · exact he
  refine raises_bind (fun _ => raises_bind (fun lines => ?_) ?_) (tame_perform (by nofun))
  · unfold Conntrack.liftExcept
    split
    · exact raises_ret
    · exact tame_parseLines _ _ ‹_›
  · exact helse (hcat _ _) (helse (hcat _ _) raises_ret)

theorem tame_parseNftLine (errors : List NftError) (line : String) :
    TameResult (RuleEngine.parseNftLine errors line) := by
  unfold RuleEngine.parseNftLine
  split
  · exact (tame_intOf _).map
  · split <;> exact nofun

theorem tame_parseNftLines : ∀ (lines : List String) (errors : List NftError),
    TameResult (RuleEngine.parseNftLines errors lines)
  | [], _ => nofun
  | line :: lines, errors => by
    unfold RuleEngine.parseNftLines
    dsimp only
    split
    · exact tame_parseNftLines lines errors
    · exact (tame_parseNftLine errors _).bind fun errors => tame_parseNftLines lines errors

theorem tame_checkResult (result : Completed) : Tame (RuleEngine.checkResult result) := by
  unfold RuleEngine.checkResult
  split
  · split
    · exact rfl
    · exact tame_parseNftLines _ _ _ ‹_›
  · exact raises_ret

end Parsers

/-! ## The steps of a run -/

section Steps

variable (c : NetnsController) (req : TestRequest) (testId : String)

theorem tame_run (argv : List Arg) : Tame (NetnsController.run argv) :=
  raises_bind (fun _ => raises_ret) (tame_perform (by nofun))

theorem tame_runAll (cmds : List (List Arg)) : Tame (NetnsController.runAll cmds) := raises_forEach tame_run

theorem tame_createNetns (name : String) : Tame (c.createNetns name) := by
  refine raises_bind (fun _ => raises_bind (fun _ => ?_) (tame_perform (by nofun))) (tame_run _)
  exact tame_suppress (raises_bind (fun _ => tame_run _) (tame_run _))

theorem tame_setupTopology : Tame (Pipeline.setupTopology req testId c) := by
  unfold Pipeline.setupTopology
  dsimp only
  split
  · refine raises_bind (fun _ => raises_bind (fun _ => ?_) (tame_createNetns c _)) (tame_createNetns c _)
    refine raises_bind (fun _ => raises_bind (fun _ => ?_) (tame_runAll _)) (tame_runAll _)
    exact raises_bind (fun _ => tame_runAll _) (tame_runAll _)
  · exact raises_bind (fun _ => tame_runAll _) (tame_createNetns c _)

theorem tame_spawnListeners : Tame (Pipeline.spawnListeners req testId c) := by
  have hpopen : ∀ ns proto port, Tame (MockListener.startMockListener ns proto port c.useNsenter) := fun _ _ _ =>
    tame_perform nofun
  have hadd : ∀ proc, Tame (perform (.addListener proc)) := fun _ => tame_perform nofun
  refine raises_forEach fun pkt => ?_
  split
  · exact raises_bind hadd (hpopen _ _ _)
  · exact raises_ret

theorem tame_aclose (timeout : Nat) : Tame (TraceHarvester.aclose timeout) := by
  have hdrain : Tame (TraceHarvester.drain timeout) := by
    refine raises_tryCatch (fun e he => ?_) (tame_perform (by nofun))
    split
    · exact raises_bind (fun _ => raises_tryCatch (fun _ _ => raises_ret) (raises_anything _)) (tame_perform (by nofun))
    · split
      · exact tame_perform (by nofun)
      · exact he
  refine raises_bind (fun _ => raises_bind (fun pending => ?_) (tame_perform (by nofun))) (tame_perform (by nofun))
  refine raises_bind (fun _ => raises_bind (fun st => ?_) (tame_perform (by nofun))) (tame_ifSo hdrain)
  exact raises_bind (fun _ => tame_perform (by nofun)) (tame_ifSo (tame_perform (by nofun)))

theorem tame_emitEvent (e : TraceEvent) : Tame (Pipeline.emitEvent (some e)) :=
  raises_bind (fun _ => tame_perform (by nofun)) (tame_perform (by nofun))

theorem tame_emitOracleError (message : String) : Tame (Pipeline.emitOracleError testId message) :=
  raises_bind (fun _ => tame_emitEvent _) (tame_perform (by nofun))

theorem tame_result : Tame Pipeline.result :=
  raises_bind (fun _ => raises_bind (fun _ => raises_ret) (tame_perform (by nofun))) (tame_perform (by nofun))

variable [U : PyStr.Unicode] (cfg : Pipeline.Config) (t : Pipeline.Target) (spec : PacketSpec)

theorem tame_startMonitor : Tame (Pipeline.startMonitor cfg req testId c) := by
  refine raises_bind (fun _ => raises_bind (fun _ => raises_bind (fun _ => raises_ret) (tame_perform (by nofun))) ?_) ?_
  · exact raises_bind (fun _ => raises_bind (fun _ => tame_perform (by nofun)) (tame_perform (by nofun)))
      (tame_perform (by nofun))
  · unfold RuleEngine.load
    split
    · exact rfl
    · refine raises_bind (fun path => raises_tryFinally (tame_perform (by nofun)) ?_) (tame_perform (by nofun))
      exact raises_bind (fun result => tame_checkResult result) (tame_perform (by nofun))

theorem tame_inject (useNsenter : Bool) (netns vethHost vethPeer : String) (hostNetns : Option String) :
    Tame (ScapyInjector.inject useNsenter spec netns vethHost vethPeer hostNetns) := by
  have hor : ∀ {α : Type} {m : String} {x : Prog α}, Tame x → Tame (ScapyInjector.orRuntimeError m x) := by
    intro α m x hx
    refine raises_tryCatch (fun e he => ?_) hx
    rw [if_pos he]
    exact rfl
  have hmac : ∀ iface ns, Tame (ScapyInjector.getMacAddress iface ns useNsenter) := by
    intro iface ns
    refine raises_bind (fun result => ?_) (tame_perform (by nofun))
    split
    · exact raises_ret
    · exact rfl
  refine raises_bind (fun macs => ?_)
    (hor (raises_bind (fun _ => raises_bind (fun _ => raises_ret) (hmac _ _)) (hmac _ _)))
  split
  split
  · exact hor (tame_perform (by nofun))
  · refine raises_bind (fun result => ?_) (tame_perform (by nofun))
    split
    · exact rfl
    · exact raises_ret

theorem tame_injectPacket (p : Packet) : Tame (Pipeline.injectPacket t p spec) :=
  raises_bind (fun _ => raises_bind (fun _ => tame_perform (by nofun)) (tame_inject _ _ _ _ _ _))
    (tame_perform (by nofun))

theorem tame_probeAttempt (label : Label) (attempt : Nat) : Tame (Pipeline.probeAttempt cfg t label spec attempt) := by
  have hcanary : Tame (Pipeline.injectCanary cfg t label spec attempt) := by
    refine raises_tryCatch (fun e he => ?_) (raises_bind (fun _ => raises_ret) (tame_injectPacket t spec _))
    rw [if_pos he]
    exact raises_bind (fun _ => raises_ret) (tame_perform (by nofun))
  refine raises_bind (fun _ => raises_bind (fun _ => raises_bind (fun injected => ?_) hcanary)
    (tame_perform (by nofun)))
    (tame_perform (by nofun))
  split
  · exact tame_perform (by nofun)
  · exact raises_ret

theorem tame_probeFrom (label : Label) :
    ∀ left attempt : Nat, Tame (Pipeline.probeFrom cfg t label spec attempt left)
  | 0, _ => raises_ret
  | left + 1, attempt => by
    refine raises_bind (fun seen => ?_) (tame_probeAttempt cfg t spec label attempt)
    split
    · exact raises_ret
    · exact tame_probeFrom label left (attempt + 1)

theorem tame_probeOracle (label : Label) : Tame (Pipeline.probeOracle cfg t label spec) :=
  raises_bind (fun _ => raises_bind (fun _ => raises_ret) (tame_perform (by nofun)))
    (tame_probeFrom cfg t spec label _ _)

theorem tame_injectFrom : ∀ (pkts : List PacketSpec) (i : Nat), Tame (Pipeline.injectFrom cfg t i pkts)
  | [], _ => raises_ret
  | pkt :: pkts, i => by
    refine raises_bind (fun _ => raises_bind (fun _ => raises_bind (fun _ => ?_) (tame_perform (by nofun))) ?_)
      (tame_perform (by nofun))
    · exact tame_injectFrom pkts (i + 1)
    · exact tame_injectPacket t pkt _

theorem tame_measure : Tame (Pipeline.measure cfg req testId c) := by
  have hlive : Tame (Pipeline.checkLiveness cfg req testId c) := by
    have hseen : Tame (perform .seenTraceIds) := tame_perform nofun
    refine raises_bind (fun _ => raises_bind (fun _ => raises_bind (fun _ => ?_) ?_) ?_) hseen
    · refine raises_bind (fun now => ?_) hseen
      exact tame_perform (by nofun)
    · exact tame_ifSo (tame_emitOracleError testId _)
    · exact tame_probeOracle cfg _ _ _
  have hconntrack : Tame (Pipeline.reportConntrack req testId c) :=
    raises_bind (fun _ => raises_bind (fun _ => raises_forEach fun _ => tame_emitEvent _) (tame_perform (by nofun)))
      (tame_readConntrackTable _ _)
  have hhealth : Tame (Pipeline.reportHealth testId) := by
    refine raises_bind (fun _ => raises_bind (fun _ => raises_bind (fun _ => ?_) ?_) (tame_perform (by nofun)))
      (tame_aclose _)
    · exact raises_bind (fun _ => tame_ifSo (tame_perform (by nofun))) (tame_perform (by nofun))
    · exact raises_forEach fun _ => tame_emitOracleError testId _
  refine raises_bind (fun _ => raises_bind (fun _ => raises_bind (fun _ => raises_bind (fun _ => ?_) ?_) ?_)
    (tame_perform (by nofun))) (tame_perform (by nofun))
  · exact raises_bind (fun _ => raises_bind (fun _ => raises_bind (fun _ => raises_ret) hhealth) hconntrack) hlive
  · exact tame_perform (by nofun)
  · exact tame_injectFrom cfg _ _ _

/-- Whatever the `try` block raises, its handlers catch. -/
theorem tame_body : Tame (Pipeline.body cfg req testId c) := by
  have hgiveUp : Tame (Pipeline.giveUp testId) := by
    have hnone : Tame (Pipeline.emitEvent none) := tame_perform (a := .put none) nofun
    refine raises_bind (fun _ => raises_bind (fun _ => ?_) hnone) (tame_emitOracleError testId _)
    exact raises_bind (fun _ => raises_ret) tame_result
  refine raises_bind (fun _ => raises_bind (fun _ => raises_bind (fun _ => raises_bind (fun ready => ?_) ?_) ?_) ?_) ?_
  · cases ready with
    | true => exact tame_measure c req testId cfg
    | false => exact hgiveUp
  · exact tame_probeOracle cfg _ _ _
  · exact tame_startMonitor c req testId cfg
  · exact tame_spawnListeners c req testId
  · exact tame_setupTopology c req testId

/-- The startup sweep suppresses whatever goes wrong in it. -/
theorem startupSweep_raises_nothing : Raises Uncancelled (fun _ => False) NetnsController.startupSweep := by
  have hquiet : ∀ argv, Tame (NetnsController.quietly argv) := fun _ => tame_perform nofun
  have hlisting : ∀ {words : List String} {each : String → Prog Unit}, (∀ l, Tame (each l)) →
      Raises Uncancelled (fun _ => False) (NetnsController.sweepListing words each) := by
    intro words each heach
    refine raises_tryCatch (y := fun e => e.isException = true) (fun e he => ?_)
      (raises_bind (fun res => ?_) (hquiet _))
    · rw [if_pos he]
      exact raises_ret
    · split
      · exact raises_forEach heach
      · exact raises_ret
  refine raises_bind (fun _ => hlisting fun l => ?_) (hlisting fun l => ?_)
  · unfold NetnsController.sweepLink
    split
    · split
      · exact raises_bind (fun _ => raises_ret) (hquiet _)
      · exact raises_ret
    · exact raises_ret
  · unfold NetnsController.sweepNetns
    split
    · exact raises_bind (fun _ => raises_ret) (hquiet _)
    · exact raises_ret

end Steps

end Nse
