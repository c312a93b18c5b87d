/-
  Nse.Cli.RunnerProofs — what an exit code of 0 is evidence of.

  A case passes exactly when its events hold no error and reduce to what was expected
  (`evaluateCase_passed`); an entry that builds has one expectation for each packet and at
  least one packet (`buildCase_shape`). Neither a rejected entry nor a crash nor a missing
  verdict can be recorded as passed (`runCase_passed`), so the exit code is 0 only with
  evidence for every entry (`exit_zero_iff_evidence`).
-/

import Nse.Cli.Runner

namespace Nse.Runner

variable [U : PyStr.Unicode]

/-! ## One case -/

/-- No error event. -/
def Clean (events : List TraceEvent) : Prop := ∀ e ∈ events, e.type ≠ .error

omit U in
theorem collectOracleErrors_nil {events : List TraceEvent} : collectOracleErrors events = [] ↔ Clean events := by
  unfold collectOracleErrors Clean
  simp [List.filter_eq_nil_iff]

omit U in
theorem zip_all_beq : ∀ {xs ys : List String}, xs.length = ys.length →
    (((xs.zip ys).all fun p => p.1 == p.2) = true ↔ xs = ys)
  | [], [], _ => by simp
  | x :: xs, y :: ys, h => by
    have h' : xs.length = ys.length := by simpa using h
    simp only [List.zip_cons_cons, List.all_cons, Bool.and_eq_true, beq_iff_eq, zip_all_beq h', List.cons.injEq]

theorem evaluateCase_passed {name : String} {expected : List String} {events : List TraceEvent} :
    (evaluateCase name expected events).passed = true ↔ Clean events ∧ reduceVerdicts events = expected := by
  rw [← collectOracleErrors_nil]
  unfold evaluateCase
  by_cases herr : collectOracleErrors events = []
  · simp only [herr, ne_eq, not_true_eq_false, if_false, true_and]
    by_cases hlen : (reduceVerdicts events).length = expected.length
    · simp only [hlen, not_true_eq_false, if_false]
      rw [zip_all_beq hlen.symm, eq_comm]
    · simp only [hlen, not_false_eq_true, if_true, Bool.false_eq_true, false_iff]
      rintro rfl
      exact hlen rfl
  · simp [herr]

/-! ## Suite entries -/

omit U in
theorem testRequest_packets {P : Pydantic} {rules : PyValue} {packets : List PacketSpec} {topology : TopologyType}
    {request : TestRequest} (h : testRequest P rules packets topology = some request) : request.packets = packets := by
  simp only [testRequest, Option.bind_eq_bind, Option.bind_eq_some_iff] at h
  obtain ⟨_, -, h⟩ := h
  split at h
  · cases h
    rfl
  · cases h

omit U in
theorem bind_ok {ε α β : Type} {x : Except ε α} {f : α → Except ε β} {w : β} :
    (x >>= f) = .ok w ↔ ∃ v, x = .ok v ∧ f v = .ok w := by
  cases x with
  | ok v =>
    constructor
    · intro h
      exact ⟨v, rfl, h⟩
    · intro ⟨_, hv, h⟩
      cases hv
      exact h
  | error e =>
    constructor
    · intro h
      cases h
    · intro ⟨_, hv, _⟩
      cases hv

/-- What an entry that builds has gone through. -/
structure Built (P : Pydantic) (items : List (PyValue × PyValue)) (index : Nat) (name : String) (request : TestRequest)
    (topology : TopologyType) (entries : List PyValue) (built : List (PacketSpec × String)) : Prop where
  named : caseName items index = .ok name
  known : checkKeys items caseKeys (fun rest => name ++ ": unknown key(s) " ++ rest) = .ok ()
  placed : topologyOf name items = .ok topology
  truthy : (PyValue.get items "packets" .none).truthy = true
  iterated : iterate (PyValue.get items "packets" .none) = some entries
  packets : buildPackets P name topology 1 entries = .ok built
  requested : testRequest P (PyValue.get items "rules" (.str "")) (built.map (·.1)) topology = some request

theorem buildCase_ok {P : Pydantic} {raw : PyValue} {index : Nat} {name : String} {request : TestRequest}
    {expected : List String} (h : buildCase P raw index = .ok (name, request, expected)) :
    ∃ items topology entries built, raw = .dict items ∧ Built P items index name request topology entries built ∧
      expected = built.map (·.2) := by
  cases raw with
  | dict items =>
    obtain ⟨n, hname, h⟩ := bind_ok.mp h
    obtain ⟨_, hkeys, h⟩ := bind_ok.mp h
    obtain ⟨topology, htop, h⟩ := bind_ok.mp h
    dsimp only at h
    split at h
    · rename_i htruthy
      cases hentries : iterate (PyValue.get items "packets" .none) with
      | none =>
        rw [hentries] at h
        cases h
      | some entries =>
        rw [hentries] at h
        obtain ⟨built, hbuilt, h⟩ := bind_ok.mp h
        split at h
        · rename_i hreq
          cases h
          exact ⟨items, topology, entries, built, rfl, ⟨hname, hkeys, htop, htruthy, hentries, hbuilt, hreq⟩, rfl⟩
        · cases h
    · cases h
  | _ => cases h

/-- An entry that builds comes from its packets, one expectation each. -/
theorem buildCase_built {P : Pydantic} {raw : PyValue} {index : Nat} {name : String} {request : TestRequest}
    {expected : List String} (h : buildCase P raw index = .ok (name, request, expected)) :
    ∃ built : List (PacketSpec × String), request.packets = built.map (·.1) ∧ expected = built.map (·.2) := by
  obtain ⟨_, _, _, built, -, hbuilt, hexpected⟩ := buildCase_ok h
  exact ⟨built, testRequest_packets hbuilt.requested, hexpected⟩

theorem buildCase_shape {P : Pydantic} {raw : PyValue} {index : Nat} {name : String} {request : TestRequest}
    {expected : List String} (h : buildCase P raw index = .ok (name, request, expected)) :
    expected.length = request.packets.length ∧ request.packets ≠ [] := by
  obtain ⟨built, hp, he⟩ := buildCase_built h
  exact ⟨by simp [hp, he], request.packets_ne⟩

/-! ## A suite -/

/-- What a passed case rests on: the entry was built, the pipeline returned, its events
    hold no error and reduce to the entry's own expectations, one for each packet. -/
def Evidence (P : Pydantic) (run : Run) (index : Nat) (raw : PyValue) : Prop :=
  ∃ name request expected events,
    buildCase P raw index = .ok (name, request, expected) ∧ run index request = .ok events ∧ Clean events ∧
      reduceVerdicts events = expected ∧ expected.length = request.packets.length ∧ request.packets ≠ []

theorem runCase_passed {P : Pydantic} {run : Run} {index : Nat} {raw : PyValue} :
    (∃ c, runCase P run index raw = .ok c ∧ c.passed = true) ↔ Evidence P run index raw := by
  unfold runCase Evidence
  cases hb : buildCase P raw index with
  | error e => cases e <;> simp
  | ok built =>
    obtain ⟨name, request, expected⟩ := built
    have hshape := buildCase_shape hb
    cases hr : run index request with
    | error e =>
      refine ⟨?_, ?_⟩
      · rintro ⟨c, hc, hp⟩
        simp only [hr] at hc
        split at hc
        · cases hc
          cases hp
        · cases hc
      · rintro ⟨_, _, _, events, hb', hr', -⟩
        cases hb'
        rw [hr] at hr'
        cases hr'
    | ok events =>
      refine ⟨?_, ?_⟩
      · rintro ⟨c, hc, hp⟩
        simp only [hr] at hc
        cases hc
        obtain ⟨hclean, hred⟩ := evaluateCase_passed.mp hp
        exact ⟨_, _, _, _, rfl, hr, hclean, hred, hshape⟩
      · rintro ⟨_, _, _, events', hb', hr', hclean, hred, -⟩
        cases hb'
        rw [hr] at hr'
        cases hr'
        exact ⟨evaluateCase name expected events, by simp only [hr], evaluateCase_passed.mpr ⟨hclean, hred⟩⟩

/-- One outcome per entry is recorded, and an oracle error only with a failure. -/
structure Tally (n : Nat) (o : SuiteOutcome) : Prop where
  total : o.passed + o.failed = n
  oracle : o.oracleErrors ≤ o.failed

omit U in
theorem Tally.record {n : Nat} {o : SuiteOutcome} (h : Tally n o) (c : CaseOutcome) : Tally (n + 1) (o.record c) := by
  obtain ⟨ht, ho⟩ := h
  unfold SuiteOutcome.record
  split
  · exact ⟨by simp only; omega, ho⟩
  · refine ⟨by simp only; omega, ?_⟩
    simp only
    split <;> omega

theorem runFrom_tally {P : Pydantic} {run : Run} :
    ∀ {cases : List PyValue} {index n : Nat} {o o' : SuiteOutcome}, Tally n o →
      runFrom P run index o cases = .ok o' → Tally (n + cases.length) o'
  | [], index, n, o, o', hn, h => by
    cases h
    exact hn
  | raw :: cases, index, n, o, o', hn, h => by
    simp only [runFrom, bind, Except.bind] at h
    split at h
    · cases h
    · rename_i c _
      have := runFrom_tally (hn.record c) h
      simpa [Nat.add_comm, Nat.add_left_comm] using this

omit U in
theorem exitCode_zero {n : Nat} {o : SuiteOutcome} (h : Tally n o) : o.exitCode = 0 ↔ o.failed = 0 := by
  have := h.oracle
  unfold SuiteOutcome.exitCode
  split <;> omega

omit U in
theorem record_failed_le (o : SuiteOutcome) (c : CaseOutcome) : o.failed ≤ (o.record c).failed := by
  unfold SuiteOutcome.record
  split <;> simp

omit U in
theorem record_failed_zero {o : SuiteOutcome} {c : CaseOutcome} :
    (o.record c).failed = 0 ↔ o.failed = 0 ∧ c.passed = true := by
  unfold SuiteOutcome.record
  cases hp : c.passed <;> simp

theorem runFrom_failed_le {P : Pydantic} {run : Run} :
    ∀ {cases : List PyValue} {index : Nat} {o o' : SuiteOutcome},
      runFrom P run index o cases = .ok o' → o.failed ≤ o'.failed
  | [], index, o, o', h => by
    cases h
    exact Nat.le_refl _
  | raw :: cases, index, o, o', h => by
    simp only [runFrom, bind, Except.bind] at h
    split at h
    · cases h
    · exact Nat.le_trans (record_failed_le o _) (runFrom_failed_le h)

theorem runFrom_all_passed {P : Pydantic} {run : Run} :
    ∀ {cases : List PyValue} {index : Nat} {o : SuiteOutcome}, o.failed = 0 →
      ((∃ o', runFrom P run index o cases = .ok o' ∧ o'.failed = 0) ↔
        ∀ (i : Nat) (h : i < cases.length), Evidence P run (index + i) (cases.get ⟨i, h⟩))
  | [], index, o, ho => by
    refine ⟨fun _ i h => absurd h (Nat.not_lt_zero i), fun _ => ⟨o, rfl, ho⟩⟩
  | raw :: cases, index, o, ho => by
    have hsplit :
        (∀ (i : Nat) (h : i < (raw :: cases).length), Evidence P run (index + i) ((raw :: cases).get ⟨i, h⟩)) ↔
        Evidence P run index raw ∧
          ∀ (i : Nat) (h : i < cases.length), Evidence P run (index + 1 + i) (cases.get ⟨i, h⟩) := by
      refine ⟨fun h => ⟨h 0 (by simp), fun i hi => ?_⟩, fun h i hi => ?_⟩
      · have := h (i + 1) (by simpa using hi)
        rwa [show index + (i + 1) = index + 1 + i by omega] at this
      · cases i with
        | zero => exact h.1
        | succ i =>
          rw [show index + (i + 1) = index + 1 + i by omega]
          exact h.2 i (by simpa using hi)
    rw [hsplit, ← runCase_passed]
    constructor
    · rintro ⟨o', h, hz⟩
      simp only [runFrom, bind, Except.bind] at h
      split at h
      · cases h
      · rename_i c hc
        have hrec : (o.record c).failed = 0 := by
          have := runFrom_failed_le h
          omega
        exact ⟨⟨c, hc, (record_failed_zero.mp hrec).2⟩, (runFrom_all_passed hrec).mp ⟨o', h, hz⟩⟩
    · rintro ⟨⟨c, hc, hp⟩, hrest⟩
      have hrec : (o.record c).failed = 0 := record_failed_zero.mpr ⟨ho, hp⟩
      obtain ⟨o', h, hz⟩ := (runFrom_all_passed hrec).mpr hrest
      refine ⟨o', ?_, hz⟩
      simp only [runFrom, bind, Except.bind, hc]
      exact h

/-- The suite exits with 0 exactly when every entry has its evidence, and whenever it
    returns, each entry is counted once. -/
theorem exit_zero_iff_evidence (P : Pydantic) (run : Run) (cases : List PyValue) :
    ((∃ o, runSuite P run cases = .ok o ∧ o.exitCode = 0) ↔
        ∀ (i : Nat) (h : i < cases.length), Evidence P run i (cases.get ⟨i, h⟩)) ∧
      ∀ o, runSuite P run cases = .ok o → o.passed + o.failed = cases.length ∧ o.oracleErrors ≤ o.failed := by
  have htally : ∀ o, runSuite P run cases = .ok o → Tally cases.length o := fun o h => by
    have := runFrom_tally (n := 0) ⟨rfl, Nat.le_refl _⟩ h
    simpa using this
  refine ⟨?_, fun o h => ⟨(htally o h).total, (htally o h).oracle⟩⟩
  have hall : (∃ o, runFrom P run 0 {} cases = .ok o ∧ o.failed = 0) ↔
      ∀ (i : Nat) (h : i < cases.length), Evidence P run (0 + i) (cases.get ⟨i, h⟩) := runFrom_all_passed rfl
  simp only [Nat.zero_add] at hall
  rw [← hall]
  constructor
  · rintro ⟨o, h, hz⟩
    exact ⟨o, h, (exitCode_zero (htally o h)).mp hz⟩
  · rintro ⟨o, h, hz⟩
    exact ⟨o, h, (exitCode_zero (htally o h)).mpr hz⟩

end Nse.Runner
