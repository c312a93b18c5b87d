/-
  Nse.Cli.Main — `nse-runner` on a host (`load_suite`, `run_suite` and `main`,
  `nse/cli/runner.py`).

  Actors. An earlier run may have been killed. `main`, its arguments parsed, is given what the
  suite file holds once it was read and parsed; it makes one controller, whose sweep comes first,
  and then takes the entries in order: one that `build_case` rejects is a failed case, for any
  other the pipeline runs with that controller. Others use the host all the while, and keep apart
  from the run that is there.

  Proved:
  - `suite_restores`: whichever cases fail, crash or end the suite, each of them starts on a
    host where its names are free, and in the end the host is what the others' commands would
    have made of it without either process.
  - `main_exits_zero_iff`: the exit status is 0 exactly when the file holds a non-empty list of
    tests and the run of every entry backs what the entry expects.
  - `exit_zero_measured`: and then each of these runs passed every gate of the pipeline.
-/

import Nse.Cli.Gates
import Nse.Core.Recovery

namespace Nse.Runner

open Coroutine
open NetHost (Host)

variable [U : PyStr.Unicode]

/-! ## The suite file -/

inductive LoadError where
  /-- `SuiteConfigError`. -/
  | config (message : String)
  /-- Reading or parsing raised. -/
  | raised (e : PyExc)

/-- `load_suite`, from what the file was read as. -/
def loadSuite : Except PyExc PyValue → Except LoadError (List PyValue)
  | .error e => .error (.raised e)
  | .ok (.dict items) =>
    let cases := PyValue.get items "tests" .none
    if cases.truthy then
      match cases with
      | .list entries => .ok entries
      | _ => .error (.config "'tests' must be a list of test cases")
    else .error (.config "suite file contains no test cases under 'tests'")
  | .ok _ => .error (.config "suite file must contain a mapping with a 'tests' key")

/-! ## The cases on the host -/

/-- The host between two cases. -/
structure Bench where
  host : Host (Option Caller)
  deeds : List Deed
  /-- `_active_ns` of the controller. -/
  active : List String

def Bench.stage (b : Bench) : Stage := { st := { active := b.active }, host := b.host, deeds := b.deeds }

/-- A run of the pipeline for one case. -/
structure Trial where
  env : Env
  call : RunCall
  start : Bench
  result : Except PyExc (List TraceEvent)
  final : St

/-- The run has ended with this result. -/
def EndsWith (p : Prog Pipeline.ListRef) (s : St) : Except PyExc (List TraceEvent) → Prop
  | .ok events => ∃ ref, p = .ret ref ∧ ref.read s = events
  | .error e => p = .throw e

section Cases

variable (P : Pydantic) (cfg : Pipeline.Config) (c : NetnsController) (r : Caller)
  (ok : Stage → (a : Req) → Except PyExc (Reply a) → Prop) (ev : Happening → Prop)

def callFor (request : TestRequest) (testId : String) : RunCall := { cfg, req := request, testId, source := .given c }

abbrev serving (env : Env) (x : RunCall) : World Req Reply PyExc Stage Happening :=
  (hosted env x r).restrict ok fun _ e => ev e

/-- One entry of the suite: its run, if it has one, and its outcome. -/
inductive CaseOn (index : Nat) (raw : PyValue) : Bench → Option Trial → Except Escape CaseOutcome → Bench → Prop
  | rejected {b : Bench} : (∀ v, buildCase P raw index ≠ .ok v) →
      CaseOn index raw b none (runCase P (fun _ _ => .ok []) index raw) b
  | ran {b : Bench} {name testId : String} {request : TestRequest} {expected : List String} {env : Env}
    {p : Prog Pipeline.ListRef} {s t : Stage}
      {result : Except PyExc (List TraceEvent)} : buildCase P raw index = .ok (name, request, expected) →
      Steps (serving r ok ev env (callFor cfg c request testId)) ((callFor cfg c request testId).prog, b.stage) (p, s) →
        EndsWith p s.st result → After (serving r ok ev env (callFor cfg c request testId)) s t →
          CaseOn index raw b (some ⟨env, callFor cfg c request testId, b, result, s.st⟩)
            (runCase P (fun _ _ => result) index raw)
            { host := t.host, deeds := t.deeds, active := s.st.active }

/-- `run_suite` from this entry on. -/
inductive SuiteOn : Nat → SuiteOutcome → List PyValue → Bench → List (Option Trial) →
    Except Escape SuiteOutcome → Bench → Prop
  | finished {index : Nat} {o : SuiteOutcome} {b : Bench} : SuiteOn index o [] b [] (.ok o) b
  | recorded {index : Nat} {o : SuiteOutcome} {raw : PyValue} {cases : List PyValue}
    {b b₁ b₂ : Bench} {trial : Option Trial}
      {trials : List (Option Trial)} {out : CaseOutcome} {result : Except Escape SuiteOutcome} :
      CaseOn P cfg c r ok ev index raw b trial (.ok out) b₁ →
        SuiteOn (index + 1) (o.record out) cases b₁ trials result b₂ →
        SuiteOn index o (raw :: cases) b (trial :: trials) result b₂
  | escaped {index : Nat} {o : SuiteOutcome} {raw : PyValue} {cases : List PyValue} {b b₁ : Bench}
    {trial : Option Trial} {e : Escape} :
      CaseOn P cfg c r ok ev index raw b trial (.error e) b₁ → SuiteOn index o (raw :: cases) b [trial] (.error e) b₁

end Cases

/-! ## What a suite leaves -/

section Left

variable {P : Pydantic} {cfg : Pipeline.Config} {c : NetnsController} {r : Caller}
    {h₀ : Host (Option Caller)} {b b' : Bench}

/-- Nothing of the runner is left, and the host is what the others made of `h₀`. -/
structure Vacant (r : Caller) (h₀ : Host (Option Caller)) (b : Bench) : Prop where
  sound : b.host.Sound
  spaces : ∀ sp ∈ b.host.spaces, sp.owner ≠ some r
  pairs : ∀ p ∈ b.host.pairs, p.owner ≠ some r
  others : NoOrphans b.host
  told : Deed.performed h₀ b.deeds = some b.host

omit U in
theorem Vacant.clear (hb : Vacant r h₀ b) (x : RunCall) : Clear x r b.host where
  sound := hb.sound
  spaces := hb.spaces
  pairs := hb.pairs
  netns n hn := hb.others.netns n (swept_ofRun hn)
  link := hb.others.links _ swept_vethHost

omit U in
theorem Vacant.known (hb : Vacant r h₀ b) (x : RunCall) : Known x r h₀ b.stage := by
  have hbegin := keeping_start (hb.clear x)
  have htheirs : b.host.part (theirs r) = b.host := (Option.some.inj hbegin.told).symm
  refine ⟨⟨hbegin.sound, hbegin.own, hbegin.rest, fun hl => (by cases hl), hb.told.trans (congrArg some htheirs.symm)⟩,
    ?_⟩
  show NoOrphans (b.host.part (theirs r))
  rw [htheirs]
  exact hb.others

omit U in
theorem vacant_of_cleared {x : RunCall} {s : Stage} {active : List String} (hc : Cleared x r h₀ s)
    (ho : NoOrphans (s.host.part (theirs r))) :
    Vacant r h₀ { host := s.host, deeds := s.deeds, active } := by
  have htold := hc.keeping.told
  rw [hc.host] at ho htold
  exact ⟨hc.keeping.sound, hc.unowned.1, hc.unowned.2, ho, htold⟩

/-- However its run ends, a case leaves nothing. -/
theorem vacant_case {index : Nat} {raw : PyValue} {trial : Option Trial} {out : Except Escape CaseOutcome}
    (hb : Vacant r h₀ b)
    (hcase : CaseOn P cfg c r (Carried r) Unswept index raw b trial out b') :
    Vacant r h₀ b' ∧ ∀ t ∈ trial, Clear t.call r t.start.host := by
  cases hcase with
  | rejected hnot => exact ⟨hb, by simp⟩
  | @ran name testId request expected env p s t result hbuild hrun hend hafter =>
    have hknown := hb.known (callFor cfg c request testId)
    have hkept : Known (callFor cfg c request testId) r h₀ s :=
      known_run rfl hknown ((projects_restrict (fun _ _ _ h => h.attended) fun _ _ h => h).steps hrun)
    have hcleared : Cleared (callFor cfg c request testId) r h₀ s := by
      have hw := wp_steps ((projects_restrict (fun _ _ _ h => h) fun _ _ _ => trivial).steps hrun)
          (cleared_runWith c hknown.keeping)
      cases result with
      | ok events =>
        obtain ⟨ref, rfl, -⟩ := hend
        exact hw
      | error e =>
        cases hend
        exact hw
    exact ⟨vacant_of_cleared (cleared_stable.restrict.after hafter hcleared)
      (known_stable.after hafter hkept).others, by simpa using hb.clear _⟩

theorem vacant_suite {index : Nat} {o : SuiteOutcome} {cases : List PyValue} {trials : List (Option Trial)}
    {result : Except Escape SuiteOutcome}
      (hsuite : SuiteOn P cfg c r (Carried r) Unswept index o cases b trials result b')
    (hb : Vacant r h₀ b) : Vacant r h₀ b' ∧ ∀ t, some t ∈ trials → Clear t.call r t.start.host := by
  induction hsuite with
  | finished => exact ⟨hb, by simp⟩
  | recorded hcase _ ih =>
    obtain ⟨hnext, hfirst⟩ := vacant_case hb hcase
    obtain ⟨hlast, hrest⟩ := ih hnext
    refine ⟨hlast, fun t ht => ?_⟩
    rcases List.mem_cons.mp ht with rfl | ht
    · exact hfirst t rfl
    · exact hrest t ht
  | escaped hcase =>
    obtain ⟨hnext, hfirst⟩ := vacant_case hb hcase
    refine ⟨hnext, fun t ht => ?_⟩
    rw [List.mem_singleton] at ht
    subst ht
    exact hfirst t rfl

end Left

/-! ## The process -/

omit U in
/-- `sys.exit(outcome.exit_code)`, or the status of a process that ends with an exception. -/
def exitStatus : Except Escape SuiteOutcome → Nat
  | .ok o => o.exitCode
  | .error _ => 1

/-- `main`, with the status it exits with and the runs it made. `sweep` says which answers the
    controller's sweep may get, `ok` which the runs may. -/
inductive MainOn (P : Pydantic) (cfg : Pipeline.Config) (r : Caller) (x : RunCall)
    (sweep ok : Stage → (a : Req) → Except PyExc (Reply a) → Prop)
    (ev : Happening → Prop) (hasYaml : Bool) (parsed : Except PyExc PyValue) (b : Bench) :
      Nat → List (Option Trial) → Bench → Prop
  /-- `check_cli_dependencies`. -/
  | unequipped : hasYaml = false → MainOn P cfg r x sweep ok ev hasYaml parsed b 1 [] b
  | unread {e : LoadError} : hasYaml = true → loadSuite parsed = .error e →
    MainOn P cfg r x sweep ok ev hasYaml parsed b 1 [] b
  | uncontrolled {cases : List PyValue} {env : Env} {e : PyExc} {t : Stage} : hasYaml = true →
    loadSuite parsed = .ok cases →
      Steps (serving r sweep ev env x) (NetnsController.new none, b.stage) (.throw e, t) →
        MainOn P cfg r x sweep ok ev hasYaml parsed b 1 [] { host := t.host, deeds := t.deeds, active := [] }
  | served {cases : List PyValue} {env : Env} {c : NetnsController} {t t' : Stage} {trials : List (Option Trial)}
      {result : Except Escape SuiteOutcome} {b' : Bench} : hasYaml = true → loadSuite parsed = .ok cases →
      Steps (serving r sweep ev env x) (NetnsController.new none, b.stage) (.ret c, t) →
        After (serving r sweep ev env x) t t' →
        SuiteOn P cfg c r ok ev 0 {} cases
          { host := t'.host, deeds := t'.deeds, active := t.st.active } trials result b' →
          MainOn P cfg r x sweep ok ev hasYaml parsed b (exitStatus result) trials b'

section Process

variable {P : Pydantic} {cfg : Pipeline.Config} {c : NetnsController} {r : Caller} {x : RunCall} {hasYaml : Bool}
  {parsed : Except PyExc PyValue} {b b' : Bench} {status : Nat} {trials : List (Option Trial)} {cases : List PyValue}

/-- After a run that was killed, `main` leaves the host as the others' commands would have made
    it without either, and each of its cases starts where its names are free. -/
theorem suite_restores {env : Env} {h₀ : Host (Option Caller)} (hgiven : x.source = .given c)
    (hid : HexId x) (hstart : Clear x r h₀)
    (hnone : NoOrphans h₀) {p : Prog Pipeline.ListRef} {s s₁ : Stage}
      (hrun : Steps (running env x r) (x.prog, { host := h₀ }) (p, s))
    (hkilled : After (running env x r) s s₁) (hyaml : hasYaml = true) (hread : loadSuite parsed = .ok cases)
    (hmain : MainOn P cfg r x (Swept r) (Carried r) Unswept hasYaml parsed
      { host := s₁.host, deeds := s₁.deeds, active := [] } status trials b') :
    Deed.performed h₀ b'.deeds = some b'.host ∧ ∀ t, some t ∈ trials → Clear t.call r t.start.host := by
  have hknown := known_killed hgiven hstart hnone hrun hkilled
  cases hmain with
  | unequipped hnot =>
    rw [hyaml] at hnot
    cases hnot
  | unread _ hnot =>
    rw [hread] at hnot
    cases hnot
  | uncontrolled _ _ hsweep => exact absurd rfl ((cleared_sweep hid hknown hsweep).1 _)
  | served _ _ hsweep hafter hsuite =>
    obtain ⟨hcleared, hkept⟩ := (cleared_sweep hid hknown hsweep).2 _ rfl
    obtain ⟨hvacant, hfree⟩ := vacant_suite hsuite
      (vacant_of_cleared (cleared_stable.restrict.after hafter hcleared) (known_stable.after hafter hkept).others)
    exact ⟨hvacant.told, hfree⟩

/-! ## The exit status -/

section Status

variable {ok sweep : Stage → (a : Req) → Except PyExc (Reply a) → Prop} {ev : Happening → Prop}
    {index : Nat} {o : SuiteOutcome}
  {result : Except Escape SuiteOutcome}

/-- The run of an entry is evidence for what the entry expects. -/
def Backs (P : Pydantic) (index : Nat) (raw : PyValue) (t : Trial) : Prop :=
  ∃ name expected events, buildCase P raw index = .ok (name, t.call.req, expected) ∧ t.result =
    .ok events ∧ Clean events ∧
    reduceVerdicts events = expected

/-- The calls of the pipeline are those of the trials. -/
def AnsweredBy (run : Run) (index : Nat) (trials : List (Option Trial)) : Prop :=
  ∀ j t, trials[j]? = some (some t) → ∀ request, run (index + j) request = t.result

omit U in
theorem AnsweredBy.tail {run : Run} {trial : Option Trial} (h : AnsweredBy run index (trial :: trials)) :
    AnsweredBy run (index + 1) trials := by
  intro j t hj request
  rw [Nat.add_assoc, Nat.add_comm 1 j]
  exact h (j + 1) t hj request

omit U in
theorem answeredBy_trials (trials : List (Option Trial)) : ∃ run : Run, AnsweredBy run 0 trials := by
  refine ⟨fun i _ => ((trials[i]?).join.map Trial.result).getD (.ok []), fun j t hj request => ?_⟩
  simp only [Nat.zero_add]
  rw [hj]
  rfl

theorem runCase_congr {run run' : Run} {raw : PyValue}
    (h : ∀ name request expected, buildCase P raw index = .ok (name, request, expected) →
    run index request = run' index request) : runCase P run index raw = runCase P run' index raw := by
  unfold runCase
  cases hb : buildCase P raw index with
  | error e => cases e <;> rfl
  | ok built =>
    obtain ⟨name, request, expected⟩ := built
    simp only [h name request expected hb]

theorem caseOn_runCase {raw : PyValue} {trial : Option Trial} {out : Except Escape CaseOutcome} {run : Run}
    (hcase : CaseOn P cfg c r ok ev index raw b trial out b') (hrun : AnsweredBy run index (trial :: trials)) :
    runCase P run index raw = out := by
  cases hcase with
  | rejected hnot => exact runCase_congr fun name request expected hb => absurd hb (hnot _)
  | ran hbuild hsteps hend hafter => exact runCase_congr fun _ request _ _ => hrun 0 _ rfl request

/-- What the suite does on the host is what `runSuite` says. -/
theorem suiteOn_runFrom (hsuite : SuiteOn P cfg c r ok ev index o cases b trials result b') :
    ∀ {run : Run}, AnsweredBy run index trials → runFrom P run index o cases = result := by
  induction hsuite with
  | finished => exact fun _ => rfl
  | recorded hcase _ ih =>
    intro run hrun
    rw [runFrom, caseOn_runCase hcase hrun]
    exact ih hrun.tail
  | escaped hcase =>
    intro run hrun
    rw [runFrom, caseOn_runCase hcase hrun]
    rfl

/-- An entry that is accepted has a run of its own request. -/
theorem caseOn_trial {raw : PyValue} {trial : Option Trial} {out : Except Escape CaseOutcome}
    {name : String} {request : TestRequest}
    {expected : List String} (hcase : CaseOn P cfg c r ok ev index raw b trial out b')
    (hbuild : buildCase P raw index = .ok (name, request, expected)) : ∃ t, trial = some t ∧ t.call.req = request := by
  cases hcase with
  | rejected hnot => exact absurd hbuild (hnot _)
  | ran hbuild' hsteps hend hafter =>
    cases hbuild'.symm.trans hbuild
    exact ⟨_, rfl, rfl⟩

theorem suiteOn_trial (hsuite : SuiteOn P cfg c r ok ev index o cases b trials result b') {raw : PyValue}
    {trial : Option Trial} {name : String}
    {request : TestRequest} {expected : List String} : ∀ {j : Nat}, cases[j]? = some raw → trials[j]? = some trial →
      buildCase P raw (index + j) = .ok (name, request, expected) → ∃ t, trial = some t ∧ t.call.req = request := by
  induction hsuite with
  | finished => exact fun hraw => absurd hraw (by simp)
  | recorded hcase _ ih =>
    intro j hraw htrial hbuild
    cases j with
    | zero =>
      cases hraw
      cases htrial
      exact caseOn_trial hcase hbuild
    | succ j => exact ih hraw htrial (by rwa [Nat.add_assoc, Nat.add_comm 1 j])
  | escaped hcase =>
    intro j hraw htrial hbuild
    cases j with
    | zero =>
      cases hraw
      cases htrial
      exact caseOn_trial hcase hbuild
    | succ j => exact absurd htrial (by simp)

theorem suiteOn_length (hsuite : SuiteOn P cfg c r ok ev index o cases b trials result b') {o' : SuiteOutcome}
    (hok : result = .ok o') :
    trials.length = cases.length := by
  induction hsuite with
  | finished => rfl
  | recorded _ _ ih => exact congrArg (· + 1) (ih hok)
  | escaped _ => cases hok

/-- The trials back every entry of the file. -/
def BacksAll (P : Pydantic) (trials : List (Option Trial)) (cases : List PyValue) : Prop :=
  trials.length = cases.length ∧ ∀ i raw, cases[i]? = some raw → ∃ t, trials[i]? = some (some t) ∧ Backs P i raw t

/-- What is evidence for one call is evidence for the trial that answered it. -/
theorem evidence_iff_backs {run : Run} (hanswered : AnsweredBy run 0 trials)
    (hsuite : SuiteOn P cfg c r ok ev 0 o cases b trials result b')
    {i : Nat} {raw : PyValue} (hraw : cases[i]? = some raw) {trial : Option Trial} (htrial : trials[i]? = some trial) :
    Evidence P run i raw ↔ ∃ t, trial = some t ∧ Backs P i raw t := by
  constructor
  · rintro ⟨name, request, expected, events, hbuild, hrun, hclean, hreduce, -⟩
    obtain ⟨t, rfl, hreq⟩ := suiteOn_trial hsuite hraw htrial (by rwa [Nat.zero_add])
    have hresult := hanswered i t htrial request
    rw [Nat.zero_add, hrun] at hresult
    exact ⟨t, rfl, name, expected, events, by rw [hreq]; exact hbuild, hresult.symm, hclean, hreduce⟩
  · rintro ⟨t, rfl, name, expected, events, hbuild, hresult, hclean, hreduce⟩
    have hrun := hanswered i t htrial t.call.req
    rw [Nat.zero_add, hresult] at hrun
    obtain ⟨hlength, hne⟩ := buildCase_shape hbuild
    exact ⟨name, t.call.req, expected, events, hbuild, hrun, hclean, hreduce, hlength, hne⟩

/-- The suite's status is 0 exactly when every entry is backed. -/
theorem suite_status (hsuite : SuiteOn P cfg c r ok ev 0 {} cases b trials result b') :
    exitStatus result = 0 ↔ BacksAll P trials cases := by
  obtain ⟨run, hanswered⟩ := answeredBy_trials trials
  have hrun := suiteOn_runFrom hsuite hanswered
  have hevidence : (∃ o', result = .ok o' ∧ o'.failed = 0) ↔
      ∀ (i : Nat) (h : i < cases.length), Evidence P run (0 + i) (cases.get ⟨i, h⟩) := by
    rw [← runFrom_all_passed (o := {}) rfl, hrun]
  have hstatus : exitStatus result = 0 ↔ ∃ o', result = .ok o' ∧ o'.failed = 0 := by
    cases result with
    | ok o' =>
      have htally : Tally (0 + cases.length) o' := runFrom_tally ⟨rfl, Nat.le_refl _⟩ hrun
      simpa [exitStatus] using exitCode_zero htally
    | error e => simp [exitStatus]
  rw [hstatus]
  constructor
  · intro hpassed
    have hlength : trials.length = cases.length := by
      obtain ⟨o', hok, -⟩ := hpassed
      exact suiteOn_length hsuite hok
    refine ⟨hlength, fun i raw hraw => ?_⟩
    obtain ⟨hi, rfl⟩ := List.getElem?_eq_some_iff.mp hraw
    have htrial : trials[i]? = some trials[i] := List.getElem?_eq_getElem (by omega)
    have hthis := hevidence.mp hpassed i hi
    rw [Nat.zero_add] at hthis
    obtain ⟨t, ht, hbacks⟩ := (evidence_iff_backs hanswered hsuite hraw htrial).mp hthis
    exact ⟨t, by rw [htrial, ht], hbacks⟩
  · rintro ⟨-, hall⟩
    refine hevidence.mpr fun i hi => ?_
    rw [Nat.zero_add]
    have hraw : cases[i]? = some cases[i] := List.getElem?_eq_getElem hi
    obtain ⟨t, htrial, hbacks⟩ := hall i _ hraw
    exact (evidence_iff_backs hanswered hsuite hraw htrial).mpr ⟨t, rfl, hbacks⟩

omit U in
theorem loadSuite_ok : loadSuite parsed = .ok cases ↔
    ∃ items, parsed = .ok (.dict items) ∧ PyValue.get items "tests" .none = .list cases ∧ cases ≠ [] := by
  constructor
  · intro h
    unfold loadSuite at h
    split at h
    · cases h
    · rename_i items
      dsimp only at h
      split at h
      · rename_i htruthy
        split at h
        · rename_i entries hentries
          cases h
          refine ⟨items, rfl, hentries, ?_⟩
          rintro rfl
          rw [hentries] at htruthy
          cases htruthy
        · cases h
      · cases h
    · cases h
  · rintro ⟨items, rfl, htests, hne⟩
    have htruthy : (PyValue.list cases).truthy = true := by simp [PyValue.truthy, hne]
    simp only [loadSuite, htests, htruthy, if_true]

/-- `main` exits with 0 exactly when the file held a mapping with a non-empty list of tests,
    and a run backed every entry of it. -/
theorem main_exits_zero_iff (hmain : MainOn P cfg r x sweep ok ev hasYaml parsed b status trials b') :
    status = 0 ↔ hasYaml = true ∧ ∃ items cases, parsed = .ok (.dict items) ∧ PyValue.get items "tests" .none =
      .list cases ∧ cases ≠ [] ∧
      BacksAll P trials cases := by
  have hfile : (∃ items cases, parsed = .ok (.dict items) ∧ PyValue.get items "tests" .none = .list cases ∧ cases ≠ [] ∧
      BacksAll P trials cases) ↔ ∃ cases, loadSuite parsed = .ok cases ∧ BacksAll P trials cases := by
    simp only [loadSuite_ok]
    constructor
    · rintro ⟨items, cases, hparsed, htests, hne, hall⟩
      exact ⟨cases, ⟨items, hparsed, htests, hne⟩, hall⟩
    · rintro ⟨cases, ⟨items, hparsed, htests, hne⟩, hall⟩
      exact ⟨items, cases, hparsed, htests, hne, hall⟩
  rw [hfile]
  cases hmain with
  | unequipped hnot => simp [hnot]
  | unread hyaml hnot => simp [hnot]
  | uncontrolled hyaml hread hsweep =>
    -- no entry was run
    obtain ⟨-, -, -, hne⟩ := loadSuite_ok.mp hread
    refine iff_of_false (by decide) ?_
    rintro ⟨-, cases, hread', hall⟩
    cases hread.symm.trans hread'
    exact hne (List.eq_nil_of_length_eq_zero hall.1.symm)
  | served hyaml hread hsweep hafter hsuite =>
    rw [suite_status hsuite]
    constructor
    · exact fun hall => ⟨hyaml, _, hread, hall⟩
    · rintro ⟨-, cases, hread', hall⟩
      cases hread.symm.trans hread'
      exact hall

end Status

/-! ## Every gate -/

section Gates

variable {ok sweep : Stage → (a : Req) → Except PyExc (Reply a) → Prop} {ev : Happening → Prop}

/-- Beside the host, a run moves as in its own world. -/
theorem projects_serving {env : Env} : Projects (serving r ok ev env x) (world env) Stage.st where
  answer s a reply s' h := by
    obtain ⟨⟨hal, -⟩, -⟩ := h
    exact ⟨hal, rfl⟩
  event s e s' h := by
    obtain ⟨he, -⟩ := h
    cases he with
    | ev hev => exact .inr ⟨_, hev⟩
    | deed hd hperform => exact .inl rfl
  parked _ _ h := h

/-- How the run of a trial went. -/
theorem caseOn_steps {index : Nat} {raw : PyValue} {t : Trial} {out : Except Escape CaseOutcome}
    (hcase : CaseOn P cfg c r ok ev index raw b (some t) out b') : ∃ p, EndsWith p t.final t.result ∧
      Steps (world t.env) (Pipeline.runWith t.call.cfg t.call.req t.call.testId c, { active := t.start.active })
        (p, t.final) := by
  cases hcase with
  | ran hbuild hsteps hend hafter => exact ⟨_, hend, projects_serving.steps hsteps⟩

theorem suiteOn_steps {index : Nat} {o : SuiteOutcome} {result : Except Escape SuiteOutcome} {t : Trial}
    (hsuite : SuiteOn P cfg c r ok ev index o cases b trials result b') (ht : some t ∈ trials) :
      ∃ p, EndsWith p t.final t.result ∧
      Steps (world t.env) (Pipeline.runWith t.call.cfg t.call.req t.call.testId c, { active := t.start.active })
        (p, t.final) := by
  induction hsuite with
  | finished => cases ht
  | recorded hcase _ ih =>
    rcases List.mem_cons.mp ht with rfl | ht
    · exact caseOn_steps hcase
    · exact ih ht
  | escaped hcase =>
    rw [List.mem_singleton] at ht
    subst ht
    exact caseOn_steps hcase

/-- The run passed every gate, in order. -/
def Measured (t : Trial) : Prop :=
  ∃ h : Harvester, gates t.final =
    .probed .readiness true :: (injections 0 t.call.req.packets ++ [.probed .liveness true, .health h]) ∧
    h.healthErrors = [] ∧ h.stopRequested = true ∧ h.state = .stopped ∧ h.unparsedTraceLines = 0

theorem measured_of_backs {index : Nat} {raw : PyValue} {t : Trial} (hids : ShortIds t.env)
    (hlen : 8 < t.call.testId.length)
    (hbacks : Backs P index raw t) {p : Prog Pipeline.ListRef} (hend : EndsWith p t.final t.result)
    (hrun : Steps (world t.env) (Pipeline.runWith t.call.cfg t.call.req t.call.testId c, { active := t.start.active })
      (p, t.final)) :
    Measured t := by
  obtain ⟨name, expected, events, -, hresult, hclean, -⟩ := hbacks
  rw [hresult] at hend
  obtain ⟨ref, rfl, hread⟩ := hend
  have hheard : Heard t.env { active := t.start.active } := { heard_init with }
  have hinit : Gated t.env t.call.testId [] { active := t.start.active } :=
    ⟨⟨hheard, by simp, by simp⟩, .inr rfl⟩
  have hret : Returned t.env t.call.testId (Checked (gatesOf t.call.req)) ref t.final :=
    wp_result (gates_runWith hids hlen hinit) hrun
  rcases hret.2 with ⟨e, he, hfailed, -⟩ | ⟨h, hg, hhealth, hstop, hst⟩
  · rw [hread] at he
    exact absurd hfailed (hclean e he)
  · obtain ⟨hstate, hunparsed⟩ := Harvester.healthErrors_nil hhealth hst
    exact ⟨h, by simpa [gatesOf] using hg, hhealth, hstop, hstate, hunparsed⟩

/-- Only a suite that was served exits with 0. -/
theorem served_of_zero (hmain : MainOn P cfg r x sweep ok ev hasYaml parsed b status trials b') (hzero : status = 0)
    (hread : loadSuite parsed = .ok cases) :
    ∃ c b₀ result, SuiteOn P cfg c r ok ev 0 {} cases b₀ trials result b' ∧ exitStatus result = 0 := by
  cases hmain with
  | unequipped => cases hzero
  | unread => cases hzero
  | uncontrolled => cases hzero
  | served _ hread' _ _ hsuite =>
    cases hread'.symm.trans hread
    exact ⟨_, _, _, hsuite, hzero⟩

/-- An exit status of 0 means that every entry of the file was measured. -/
theorem exit_zero_measured (hmain : MainOn P cfg r x sweep ok ev hasYaml parsed b 0 trials b')
    (hread : loadSuite parsed = .ok cases)
    (hids : ∀ t, some t ∈ trials → ShortIds t.env ∧ t.call.testId.length = 12) {i : Nat} {raw : PyValue}
      (hraw : cases[i]? = some raw) :
    ∃ t, trials[i]? = some (some t) ∧ Backs P i raw t ∧ Measured t := by
  obtain ⟨c, b₀, result, hsuite, hstatus⟩ := served_of_zero hmain rfl hread
  obtain ⟨t, htrial, hbacks⟩ := ((suite_status hsuite).mp hstatus).2 i raw hraw
  have hmem : some t ∈ trials := List.mem_of_getElem? htrial
  obtain ⟨hshort, hlength⟩ := hids t hmem
  obtain ⟨p, hend, hrun⟩ := suiteOn_steps hsuite hmem
  exact ⟨t, htrial, hbacks, measured_of_backs hshort (by omega) hbacks hend hrun⟩

end Gates

end Process

end Nse.Runner

/-! ## A suite after a kill -/

namespace Nse.Runner

open Coroutine

attribute [local instance] PyStr.Unicode.ascii

def sampleFile : PyValue := .dict [(.str "tests", .list [sampleEntry])]

/-- The lab goes on while the case runs. -/
def suiteSchedule (x : RunCall) : Script Req Reply PyExc Stage Happening :=
  (staged quietEnv x .first (hostReply .first) (meanwhileDone [(4, ⟨none, some "lab", .linkUp "lab1"⟩)])).guarded
    (Nse.carries .first)
    fun _ e => unswept e

theorem suiteSchedule_fits {x : RunCall} :
    (suiteSchedule x).Fits (serving .first (Carried .first) Unswept quietEnv x) :=
  staged_fits.guarded (fun _ _ _ => carried_of_carries) fun _ _ h => unswept_iff.mp h

/-- A run is killed; then a suite of one case passes. -/
theorem sample_main : ∃ p s trial b', Steps (running {} labCall .first) (labCall.prog, { host := killedHost }) (p, s) ∧
    MainOn plainPydantic {} .first labCall (Swept .first) (Carried .first) Unswept true (.ok sampleFile)
      { host := s.host, deeds := s.deeds, active := [] } 0 [some trial] b' ∧
    (trial.env = quietEnv ∧ trial.call.testId.length = 12) ∧ b'.deeds.length = 4 := by
  have hplay : Script.waiting (fun _ s => Script.returned (fun c t => Script.returned
        (fun ref u => (evaluateCase "web" ["ACCEPT"] (ref.read u.st)).passed && u.deeds.length == 4)
          ((suiteSchedule (callFor {} c sampleRequest "b2c3d4e5f6a1")).play 200
            (callFor {} c sampleRequest "b2c3d4e5f6a1").prog
            { st := { active := t.st.active }, host := t.host, deeds := t.deeds }))
        (sweptSchedule.play 20 (NetnsController.new none) { host := s.host, deeds := s.deeds }))
      (killedSchedule.play 6 labCall.prog { host := killedHost }) = true := by
    decide +kernel
  obtain ⟨a, k, s, hrun, hswept⟩ := Script.waiting_steps killedSchedule_fits hplay
  obtain ⟨c, t, hsweep, hserved⟩ := Script.returned_steps sweptSchedule_fits hswept
  obtain ⟨ref, u, hcase, hp⟩ := Script.returned_steps suiteSchedule_fits hserved
  obtain ⟨hpassed, hdeeds⟩ := Bool.and_eq_true_iff.mp hp
  have hbuild : buildCase plainPydantic sampleEntry 0 = .ok ("web", sampleRequest, ["ACCEPT"]) := rfl
  have hend : EndsWith (.ret ref) u.st (.ok (ref.read u.st)) := ⟨ref, rfl, rfl⟩
  have hsuite := SuiteOn.recorded (CaseOn.ran (b := ⟨t.host, t.deeds, t.st.active⟩) hbuild hcase hend .refl)
    (SuiteOn.finished (o := SuiteOutcome.record {} (evaluateCase "web" ["ACCEPT"] (ref.read u.st))))
  have hstatus : exitStatus (.ok (SuiteOutcome.record {} (evaluateCase "web" ["ACCEPT"] (ref.read u.st)))) = 0 := by
    simp [exitStatus, SuiteOutcome.record, hpassed, SuiteOutcome.exitCode]
  have hread : loadSuite (.ok sampleFile) = .ok [sampleEntry] := rfl
  have hmain := MainOn.served (b := ⟨s.host, s.deeds, []⟩) rfl hread hsweep .refl hsuite
  rw [hstatus] at hmain
  have hlength : "b2c3d4e5f6a1".length = 12 := by decide
  exact ⟨_, s, _, _, hrun, hmain, ⟨rfl, hlength⟩, beq_iff_eq.mp hdeeds⟩

/-- Of the killed run nothing is left either. -/
theorem suite_restores_sample :
    ∃ p s trials b', Steps (running {} labCall .first) (labCall.prog, { host := killedHost }) (p, s) ∧
    MainOn plainPydantic {} .first labCall (Swept .first) (Carried .first) Unswept true (.ok sampleFile)
      { host := s.host, deeds := s.deeds, active := [] } 0 trials b' ∧
    b'.deeds.length = 4 ∧ Deed.performed killedHost b'.deeds = some b'.host := by
  obtain ⟨p, s, trial, b', hrun, hmain, -, hdeeds⟩ := sample_main
  exact ⟨p, s, _, b', hrun, hmain, hdeeds,
    (suite_restores rfl labCall_hexId killedHost_clear killedHost_noOrphans hrun .refl rfl rfl hmain).1⟩

theorem main_exits_zero_sample : ∃ b trials b',
    MainOn plainPydantic {} .first labCall (Swept .first) (Carried .first) Unswept true (.ok sampleFile) b 0 trials b' ∧
      BacksAll plainPydantic trials [sampleEntry] := by
  obtain ⟨p, s, trial, b', -, hmain, -⟩ := sample_main
  obtain ⟨-, items, cases, hparsed, htests, -, hall⟩ := (main_exits_zero_iff hmain).mp rfl
  cases hparsed
  cases htests
  exact ⟨_, _, b', hmain, hall⟩

theorem exit_zero_measured_sample : ∃ b t b',
    MainOn plainPydantic {} .first labCall (Swept .first) (Carried .first) Unswept true
      (.ok sampleFile) b 0 [some t] b' ∧
      Backs plainPydantic 0 sampleEntry t ∧ Measured t := by
  obtain ⟨p, s, trial, b', -, hmain, ⟨henv, hlength⟩, -⟩ := sample_main
  have hids : ∀ t, some t ∈ [some trial] → ShortIds t.env ∧ t.call.testId.length = 12 := by
    intro t ht
    cases List.mem_singleton.mp ht
    exact ⟨by rw [henv]; exact quietEnv_shortIds, hlength⟩
  obtain ⟨t, ht, hbacks, hmeasured⟩ :=
    exit_zero_measured hmain (show loadSuite (.ok sampleFile) = .ok [sampleEntry] from rfl) hids
    (show [sampleEntry][0]? = some sampleEntry from rfl)
  cases ht
  exact ⟨_, _, b', hmain, hbacks, hmeasured⟩

end Nse.Runner
