/-
  Nse.Cli.Entries — what `build_case` makes of one raw suite entry.

  An entry that builds: `expectations_stay_aligned` says which value of the entry each
  packet and each expectation comes from, position by position.

  An entry that does not build: `only_config_errors_iff` says when the exception is the
  `SuiteConfigError` that `run_suite` reports. Sorting the unknown keys, going through the
  packets and writing a value as text can each raise something else first; as built, a
  suite with `packets: 5` ends in a `TypeError` (`packets_that_are_a_number`).
-/

import Mathlib.Data.List.Forall2
import Nse.Cli.Gates

namespace Nse.Runner

variable [U : PyStr.Unicode]

/-! ## Errors -/

/-- It raises nothing but `SuiteConfigError`. -/
def Contained {α : Type} (x : Except BuildError α) : Prop := ∀ e, x = .error e → ∃ message, e = .config message

section Contained

omit U

variable {α β : Type} {x : Except BuildError α}

theorem contained_iff : Contained x ↔ (∃ v, x = .ok v) ∨ ∃ message, x = .error (.config message) := by
  unfold Contained
  cases x with
  | ok v => simp
  | error e => simp

theorem contained_ok (v : α) : Contained (.ok v) := by
  intro e h
  cases h

theorem contained_config (message : String) : Contained (.error (.config message) : Except BuildError α) := by
  intro e h
  cases h
  exact ⟨message, rfl⟩

theorem not_contained_typeError : ¬ Contained (.error .typeError : Except BuildError α) := by
  intro h
  obtain ⟨message, hm⟩ := h _ rfl
  cases hm

theorem not_contained_valueError : ¬ Contained (.error .valueError : Except BuildError α) := by
  intro h
  obtain ⟨message, hm⟩ := h _ rfl
  cases hm

theorem contained_bind {f : α → Except BuildError β} :
    Contained (x >>= f) ↔ Contained x ∧ ∀ v, x = .ok v → Contained (f v) := by
  cases x with
  | ok v =>
    constructor
    · intro h
      refine ⟨contained_ok v, ?_⟩
      intro w hw
      cases hw
      exact h
    · intro ⟨_, h⟩
      exact h v rfl
  | error e =>
    constructor
    · intro h
      refine ⟨?_, ?_⟩
      · intro e' he'
        cases he'
        exact h e rfl
      · intro w hw
        cases hw
    · intro ⟨h, _⟩ e' he'
      cases he'
      exact h e rfl

end Contained

/-! ## Keys and texts -/

/-- `sorted` and `repr` name these keys: every two of them compare, and every number among
    them can be written. -/
def Nameable (keys : List PyValue) : Prop := keys.Pairwise PyValue.Comparable ∧ ∀ k ∈ keys, k.printable = true

theorem strOf_ok {v : PyValue} {s : String} : strOf v = .ok s ↔ v.printable = true ∧ v.toStr = s := by
  unfold strOf
  split <;> simp_all

theorem contained_strOf {v : PyValue} : Contained (strOf v) ↔ v.printable = true := by
  unfold strOf
  split
  · rename_i h
    simp [h, contained_ok]
  · rename_i h
    simp [h, not_contained_valueError]

section Keys

variable {items : List (PyValue × PyValue)} {allowed : List String} {m : String → String}

theorem checkKeys_ok {u : Unit} : checkKeys items allowed m = .ok u ↔ PyValue.unknownKeys allowed items = [] := by
  unfold checkKeys
  dsimp only
  split
  · rename_i h
    simp [h]
  · rename_i h
    simp only [h, iff_false]
    intro hok
    split at hok
    · split at hok <;> cases hok
    · cases hok

theorem contained_checkKeys : Contained (checkKeys items allowed m) ↔ Nameable (PyValue.unknownKeys allowed items) := by
  unfold checkKeys Nameable
  dsimp only
  split
  · rename_i h
    simp [h, contained_ok]
  · rw [← PyValue.sorted_isSome_iff]
    cases hsort : PyValue.sorted (PyValue.unknownKeys allowed items) with
    | none => simp [not_contained_typeError]
    | some keys =>
      have hperm := PyValue.sorted_perm hsort
      have hprint : (PyValue.list keys).printable = true ↔ ∀ k ∈ PyValue.unknownKeys allowed items,
          k.printable = true := by
        rw [PyValue.printable, PyValue.printables_iff]
        simp only [hperm.mem_iff]
      simp only [Option.isSome_some, true_and, ← hprint]
      split
      · rename_i h
        simp [h, contained_config]
      · rename_i h
        simp [h, not_contained_valueError]

end Keys

/-! ## One packet -/

/-- The value under `expected_verdict`. -/
def verdictValue (items : List (PyValue × PyValue)) : PyValue := PyValue.get items "expected_verdict" (.str "ACCEPT")

/-- The verdict the entry expects, before `REJECT` becomes `DROP`. -/
def verdictOf (items : List (PyValue × PyValue)) : String := PyStr.upper (verdictValue items).toStr

/-- What is compared with the reduced stream. -/
def normalised (verdict : String) : String := if verdict = "REJECT" then "DROP" else verdict

section Packet

variable {P : Pydantic} {name : String} {topology : TopologyType} {idx : Nat} {items : List (PyValue × PyValue)}

theorem expectedVerdict_ok {v : String} : expectedVerdict name idx items = .ok v ↔
    (verdictValue items).printable = true ∧ verdictOf items ∈ validVerdicts ∧ v = normalised (verdictOf items) := by
  refine bind_ok.trans ?_
  constructor
  · intro ⟨text, htext, h⟩
    obtain ⟨hprint, htext⟩ := strOf_ok.mp htext
    dsimp only at h
    split at h
    · cases h
    · rename_i hmem
      cases h
      rw [← htext] at hmem ⊢
      exact ⟨hprint, not_not.mp hmem, rfl⟩
  · intro ⟨hprint, hmem, hv⟩
    refine ⟨_, strOf_ok.mpr ⟨hprint, rfl⟩, ?_⟩
    rw [hv]
    exact if_neg (not_not.mpr hmem)

theorem contained_expectedVerdict : Contained (expectedVerdict name idx items) ↔
    (verdictValue items).printable = true := by
  refine contained_bind.trans ?_
  rw [contained_strOf]
  constructor
  · intro h
    exact h.1
  · intro h
    refine ⟨h, ?_⟩
    intro text _
    dsimp only
    split
    · exact contained_config _
    · exact contained_ok _

/-- A packet entry that becomes a packet. -/
structure Admitted (P : Pydantic) (topology : TopologyType) (items : List (PyValue × PyValue)) : Prop where
  known : PyValue.unknownKeys packetKeys items = []
  written : (verdictValue items).printable = true
  verdict : verdictOf items ∈ validVerdicts
  valid : (packetSpec P (packetArgs topology items)).isSome = true

/-- A packet entry that is admitted or rejected: its unknown keys can be named, and if there
    are none, its verdict can be written. -/
def Judgeable (entry : PyValue) : Prop :=
  ∀ items, entry = .dict items → Nameable (PyValue.unknownKeys packetKeys items) ∧
    (PyValue.unknownKeys packetKeys items = [] → (verdictValue items).printable = true)

theorem buildPacket_ok {entry : PyValue} {p : PacketSpec × String} : buildPacket P name topology idx entry = .ok p ↔
    ∃ items, entry = .dict items ∧ Admitted P topology items ∧ packetSpec P (packetArgs topology items) = some p.1 ∧
      p.2 = normalised (verdictOf items) := by
  cases entry with
  | dict items =>
    refine bind_ok.trans ?_
    constructor
    · intro ⟨u, hkeys, h⟩
      obtain ⟨v, hv, h⟩ := bind_ok.mp h
      obtain ⟨hprint, hmem, rfl⟩ := expectedVerdict_ok.mp hv
      cases hspec : packetSpec P (packetArgs topology items) with
      | none =>
        rw [hspec] at h
        cases h
      | some spec =>
        rw [hspec] at h
        cases h
        exact ⟨items, rfl, ⟨checkKeys_ok.mp hkeys, hprint, hmem, by simp [hspec]⟩, hspec, rfl⟩
    · intro ⟨items', heq, hadm, hspec, hv⟩
      cases heq
      refine ⟨(), checkKeys_ok.mpr hadm.known,
        bind_ok.mpr ⟨_, expectedVerdict_ok.mpr ⟨hadm.written, hadm.verdict, rfl⟩, ?_⟩⟩
      rw [hspec, ← hv]
  | _ =>
    constructor
    · intro h
      cases h
    · intro ⟨_, heq, _⟩
      cases heq

theorem contained_buildPacket {entry : PyValue} :
    Contained (buildPacket P name topology idx entry) ↔ Judgeable entry := by
  cases entry with
  | dict items =>
    refine contained_bind.trans ?_
    rw [contained_checkKeys]
    constructor
    · intro ⟨hkeys, h⟩ items' heq
      cases heq
      refine ⟨hkeys, ?_⟩
      intro hnone
      exact contained_expectedVerdict.mp (contained_bind.mp (h () (checkKeys_ok.mpr hnone))).1
    · intro h
      obtain ⟨hkeys, hwritten⟩ := h items rfl
      refine ⟨hkeys, ?_⟩
      intro u hu
      refine contained_bind.mpr ⟨contained_expectedVerdict.mpr (hwritten (checkKeys_ok.mp hu)), ?_⟩
      intro v _
      split
      · exact contained_ok _
      · exact contained_config _
  | _ =>
    constructor
    · intro _ items heq
      cases heq
    · intro _
      exact contained_config _

end Packet

/-! ## The packets -/

/-- The packet and the expectation that one packet entry becomes. -/
def Becomes (P : Pydantic) (topology : TopologyType) (entry : PyValue) (p : PacketSpec × String) : Prop :=
  ∃ items, entry = .dict items ∧ Admitted P topology items ∧ packetSpec P (packetArgs topology items) = some p.1 ∧
    p.2 = normalised (verdictOf items)

def Accepted (P : Pydantic) (topology : TopologyType) (entry : PyValue) : Prop :=
  ∃ items, entry = .dict items ∧ Admitted P topology items

theorem accepted_iff {P : Pydantic} {topology : TopologyType} {entry : PyValue} :
    Accepted P topology entry ↔ ∃ p, Becomes P topology entry p := by
  constructor
  · intro ⟨items, heq, hadm⟩
    obtain ⟨spec, hspec⟩ := Option.isSome_iff_exists.mp hadm.valid
    exact ⟨(spec, normalised (verdictOf items)), items, heq, hadm, hspec, rfl⟩
  · intro ⟨_, items, heq, hadm, _⟩
    exact ⟨items, heq, hadm⟩

/-- The first entry that is not accepted, if there is one, can be rejected. -/
def FirstJudgeable (P : Pydantic) (topology : TopologyType) (entries : List PyValue) : Prop :=
  ∀ before entry after, entries = before ++ entry :: after → (∀ e ∈ before, Accepted P topology e) → Judgeable entry

section Packets

variable {P : Pydantic} {name : String} {topology : TopologyType}

theorem buildPackets_ok : ∀ {entries : List PyValue} {idx : Nat} {built : List (PacketSpec × String)},
    buildPackets P name topology idx entries = .ok built ↔ List.Forall₂ (Becomes P topology) entries built
  | [], _, built => by
    constructor
    · intro h
      cases h
      exact .nil
    · intro h
      cases h
      rfl
  | entry :: entries, idx, built => by
    refine bind_ok.trans ?_
    constructor
    · intro ⟨p, hp, h⟩
      obtain ⟨ps, hps, h⟩ := bind_ok.mp h
      cases h
      exact .cons (buildPacket_ok.mp hp) (buildPackets_ok.mp hps)
    · intro h
      cases h with
      | cons hp hps => exact ⟨_, buildPacket_ok.mpr hp, bind_ok.mpr ⟨_, buildPackets_ok.mpr hps, rfl⟩⟩

theorem firstJudgeable_cons {entry : PyValue} {entries : List PyValue} : FirstJudgeable P topology (entry :: entries) ↔
    Judgeable entry ∧ (Accepted P topology entry → FirstJudgeable P topology entries) := by
  constructor
  · intro h
    refine ⟨h [] entry entries rfl (by simp), ?_⟩
    intro hentry before e after heq hbefore
    refine h (entry :: before) e after (by rw [heq]; rfl) ?_
    intro e' he'
    rcases List.mem_cons.mp he' with rfl | he'
    · exact hentry
    · exact hbefore e' he'
  · intro ⟨hentry, hrest⟩ before e after heq hbefore
    cases before with
    | nil =>
      cases heq
      exact hentry
    | cons b before =>
      cases heq
      exact hrest (hbefore _ List.mem_cons_self) before e after rfl fun e' he' =>
        hbefore e' (List.mem_cons_of_mem _ he')

theorem contained_buildPackets : ∀ {entries : List PyValue} {idx : Nat},
    Contained (buildPackets P name topology idx entries) ↔ FirstJudgeable P topology entries
  | [], _ => by
    constructor
    · intro _ before e after heq
      cases before <;> cases heq
    · intro _
      exact contained_ok _
  | entry :: entries, idx => by
    refine contained_bind.trans ?_
    rw [contained_buildPacket, firstJudgeable_cons]
    refine and_congr_right fun _ => ?_
    constructor
    · intro h hentry
      obtain ⟨p, hp⟩ := accepted_iff.mp hentry
      exact contained_buildPackets.mp (contained_bind.mp (h p (buildPacket_ok.mpr hp))).1
    · intro h p hp
      refine contained_bind.mpr ⟨contained_buildPackets.mpr (h (accepted_iff.mpr ⟨p, buildPacket_ok.mp hp⟩)), ?_⟩
      intro ps _
      exact contained_ok _

end Packets

/-! ## The entry -/

/-- The text under `topology`, in lower case, names this topology. -/
def Placed (items : List (PyValue × PyValue)) (topology : TopologyType) : Prop :=
  U.lower (PyValue.get items "topology" (.str "simple")).toStr =
    match topology with
    | .gateway => "gateway"
    | .simple => "simple"

section Entry

variable {P : Pydantic} {name : String} {topology : TopologyType} {items : List (PyValue × PyValue)}

theorem topologyOf_ok : topologyOf name items = .ok topology ↔
    (PyValue.get items "topology" (.str "simple")).printable = true ∧ Placed items topology := by
  refine bind_ok.trans ?_
  constructor
  · intro ⟨text, htext, h⟩
    obtain ⟨hprint, rfl⟩ := strOf_ok.mp htext
    refine ⟨hprint, ?_⟩
    dsimp only at h
    split at h
    · rename_i hlower
      cases h
      exact hlower
    · split at h
      · rename_i hlower
        cases h
        exact hlower
      · cases h
  · intro ⟨hprint, hplaced⟩
    refine ⟨_, strOf_ok.mpr ⟨hprint, rfl⟩, ?_⟩
    cases topology with
    | gateway => exact if_pos hplaced
    | simple =>
      have hlower : U.lower (PyValue.get items "topology" (.str "simple")).toStr = "simple" := hplaced
      dsimp only
      rw [hlower]
      rfl

theorem contained_topologyOf : Contained (topologyOf name items) ↔
    (PyValue.get items "topology" (.str "simple")).printable = true := by
  refine contained_bind.trans ?_
  rw [contained_strOf]
  constructor
  · intro h
    exact h.1
  · intro h
    refine ⟨h, ?_⟩
    intro text _
    dsimp only
    split
    · exact contained_ok _
    · split
      · exact contained_ok _
      · exact contained_config _

theorem contained_caseName {index : Nat} :
    Contained (caseName items index) ↔ ∀ v, PyValue.lookup "name" items = some v → v.printable = true := by
  refine contained_strOf.trans ?_
  cases hname : PyValue.lookup "name" items with
  | none => simp [PyValue.get_default hname, PyValue.printable]
  | some v => simp [PyValue.get_eq hname]

/-- The packets of an entry whose other keys are in order: a value that counts as false is
    rejected; another one is gone through, up to the first packet entry that is not
    accepted. -/
def PacketsJudgeable (P : Pydantic) (topology : TopologyType) (packets : PyValue) : Prop :=
  packets.truthy = true → ∃ entries, iterate packets = some entries ∧ FirstJudgeable P topology entries

/-- What `build_case` looks at, in its order: the name can be written; the unknown keys can
    be named; if there are none, the topology can be written; if it is one of the two, the
    packets can be judged. -/
structure Digestible (P : Pydantic) (items : List (PyValue × PyValue)) : Prop where
  named : ∀ v, PyValue.lookup "name" items = some v → v.printable = true
  known : Nameable (PyValue.unknownKeys caseKeys items)
  placed : PyValue.unknownKeys caseKeys items = [] → (PyValue.get items "topology" (.str "simple")).printable = true
  packets : PyValue.unknownKeys caseKeys items = [] → ∀ topology, Placed items topology →
    PacketsJudgeable P topology (PyValue.get items "packets" .none)

omit U in
theorem contained_requested {rules : PyValue} {built : List (PacketSpec × String)} : Contained
    (match testRequest P rules (built.map (·.1)) topology with
      | some request => .ok (name, request, built.map (·.2))
      | none => .error (.config (name ++ ": invalid test request:\n" ++ P.requestMessage rules)) :
      Except BuildError (String × TestRequest × List String)) := by
  split
  · exact contained_ok _
  · exact contained_config _

theorem contained_buildCase {raw : PyValue} {index : Nat} :
    Contained (buildCase P raw index) ↔ ∀ items, raw = .dict items → Digestible P items := by
  cases raw with
  | dict items =>
    refine contained_bind.trans ?_
    rw [contained_caseName]
    constructor
    · intro ⟨hname, h⟩ items' heq
      cases heq
      have hprint : (PyValue.get items "name" (.str ("Test case " ++ toString (index + 1)))).printable = true :=
        contained_strOf.mp (contained_caseName.mpr hname)
      obtain ⟨hkeys, h⟩ := contained_bind.mp (h _ (strOf_ok.mpr ⟨hprint, rfl⟩))
      have hplaces : PyValue.unknownKeys caseKeys items = [] → _ := fun hnone =>
        contained_bind.mp (h () (checkKeys_ok.mpr hnone))
      refine ⟨hname, contained_checkKeys.mp hkeys, fun hnone => contained_topologyOf.mp (hplaces hnone).1, ?_⟩
      intro hnone topology hplaced htruthy
      have hprint := contained_topologyOf.mp (hplaces hnone).1
      have h := (hplaces hnone).2 topology (topologyOf_ok.mpr ⟨hprint, hplaced⟩)
      dsimp only at h
      rw [if_pos htruthy] at h
      cases hentries : iterate (PyValue.get items "packets" .none) with
      | none =>
        rw [hentries] at h
        exact absurd h not_contained_typeError
      | some entries =>
        rw [hentries] at h
        exact ⟨entries, rfl, contained_buildPackets.mp (contained_bind.mp h).1⟩
    · intro h
      have h := h items rfl
      refine ⟨h.named, ?_⟩
      intro name _
      refine contained_bind.mpr ⟨contained_checkKeys.mpr h.known, ?_⟩
      intro u hu
      have hnone := checkKeys_ok.mp hu
      refine contained_bind.mpr ⟨contained_topologyOf.mpr (h.placed hnone), ?_⟩
      intro topology htop
      dsimp only
      split
      · rename_i htruthy
        obtain ⟨entries, hentries, hfirst⟩ := h.packets hnone topology (topologyOf_ok.mp htop).2 htruthy
        rw [hentries]
        refine contained_bind.mpr ⟨contained_buildPackets.mpr hfirst, ?_⟩
        intro built _
        exact contained_requested
      · exact contained_config _
  | _ =>
    constructor
    · intro _ items heq
      cases heq
    · intro _
      exact contained_config _

end Entry

/-- `build_case` returns or raises `SuiteConfigError` exactly on the entries that are no
    mapping or digestible. -/
theorem only_config_errors_iff (P : Pydantic) (raw : PyValue) (index : Nat) :
    ((∃ built, buildCase P raw index = .ok built) ∨ ∃ message, buildCase P raw index = .error (.config message)) ↔
      ∀ items, raw = .dict items → Digestible P items := by
  rw [← contained_iff]
  exact contained_buildCase

/-! ## Alignment -/

/-- The packet carries the entry's own values, each coerced by itself, and the defaults of
    the topology for what the entry leaves out. -/
structure Carries (P : Pydantic) (topology : TopologyType) (items : List (PyValue × PyValue))
    (spec : PacketSpec) : Prop where
  protocol : P.protocol (PyValue.get items "protocol" (.str "tcp")) = some spec.protocol
  srcIp : P.str (PyValue.get items "src_ip" (.str (defaultSrc topology))) = some spec.srcIp
  dstIp : P.str (PyValue.get items "dst_ip" (.str (defaultDst topology))) = some spec.dstIp
  srcPort : P.optInt (PyValue.get items "src_port" .none) = some spec.srcPort
  dstPort : P.optInt (PyValue.get items "dst_port" .none) = some spec.dstPort
  tcpFlags : ∃ flags, P.strList (PyValue.get items "tcp_flags" (.list [])) = some flags ∧
    spec.tcpFlags = flags.map PyStr.upper

theorem packetSpec_carries {P : Pydantic} {topology : TopologyType} {items : List (PyValue × PyValue)}
    {spec : PacketSpec}
    (h : packetSpec P (packetArgs topology items) = some spec) : Carries P topology items spec := by
  simp only [packetSpec, Option.bind_eq_bind, Option.bind_eq_some_iff] at h
  obtain ⟨protocol, hprotocol, srcIp, hsrc, dstIp, hdst, srcPort, hsport, dstPort, hdport, flags,
    ⟨given, hgiven, hflags⟩, h⟩ := h
  split at h
  · cases h
    refine ⟨hprotocol, hsrc, hdst, hsport, hdport, given, hgiven, ?_⟩
    unfold validateTcpFlags at hflags
    dsimp only at hflags
    split at hflags
    · cases hflags
      rfl
    · cases hflags
  · cases h

/-- What one position of an entry that builds holds. -/
structure Aligned (P : Pydantic) (topology : TopologyType) (items : List (PyValue × PyValue)) (spec : PacketSpec)
    (expected : String) : Prop where
  known : PyValue.unknownKeys packetKeys items = []
  verdict : verdictOf items ∈ validVerdicts
  expected : expected = normalised (verdictOf items)
  carries : Carries P topology items spec

theorem Becomes.aligned {P : Pydantic} {topology : TopologyType} {entry : PyValue} {p : PacketSpec × String}
    (h : Becomes P topology entry p) : ∃ items, entry = .dict items ∧ Aligned P topology items p.1 p.2 := by
  obtain ⟨items, heq, hadm, hspec, hexp⟩ := h
  exact ⟨items, heq, hadm.known, hadm.verdict, hexp, packetSpec_carries hspec⟩

theorem aligned_all {P : Pydantic} {topology : TopologyType} {entries : List PyValue}
    {built : List (PacketSpec × String)}
    (h : List.Forall₂ (Becomes P topology) entries built) : ∃ mappings : List (List (PyValue × PyValue)),
      entries = mappings.map .dict ∧ List.Forall₂ (fun items p => Aligned P topology items p.1 p.2) mappings built := by
  induction h with
  | nil => exact ⟨[], rfl, .nil⟩
  | cons hp _ ih =>
    obtain ⟨items, rfl, haligned⟩ := hp.aligned
    obtain ⟨mappings, rfl, hall⟩ := ih
    exact ⟨items :: mappings, rfl, .cons haligned hall⟩

omit U in
theorem testRequest_topology {P : Pydantic} {rules : PyValue} {packets : List PacketSpec} {topology : TopologyType}
    {request : TestRequest} (h : testRequest P rules packets topology = some request) :
      request.topology = topology := by
  simp only [testRequest, Option.bind_eq_bind, Option.bind_eq_some_iff] at h
  obtain ⟨_, -, h⟩ := h
  split at h
  · cases h
    rfl
  · cases h

omit U in
/-- Only a list holds mappings: the keys of a mapping are scalars. -/
theorem iterate_mappings {v : PyValue} {mappings : List (List (PyValue × PyValue))} (hkeys : v.scalarKeys = true)
    (hne : mappings ≠ []) (h : iterate v = some (mappings.map .dict)) : v = .list (mappings.map .dict) := by
  cases mappings with
  | nil => exact absurd rfl hne
  | cons m ms =>
    cases v with
    | list xs =>
      cases h
      rfl
    | dict items =>
      cases items with
      | nil => cases h
      | cons kv items =>
        have hscalar := (PyValue.scalarKeysItems_iff.mp hkeys kv List.mem_cons_self).1
        have hkey : kv.1 = .dict m := (List.cons.inj (Option.some.inj h)).1
        rw [hkey] at hscalar
        cases hscalar
    | str s =>
      have hchars := Option.some.inj h
      cases hs : s.toList with
      | nil =>
        rw [hs] at hchars
        cases hchars
      | cons c cs =>
        rw [hs] at hchars
        cases (List.cons.inj hchars).1
    | _ => cases h

/-- An entry that builds: its `packets` is a list of mappings, none of them unaccounted for;
    the packet and the expectation at each position come from the mapping at that position. -/
theorem expectations_stay_aligned {P : Pydantic} {raw : PyValue} {index : Nat} {name : String} {request : TestRequest}
    {expected : List String} (hkeys : raw.scalarKeys = true)
    (h : buildCase P raw index = .ok (name, request, expected)) :
    ∃ (items : List (PyValue × PyValue)) (mappings : List (List (PyValue × PyValue))), raw = .dict items ∧
      PyValue.unknownKeys caseKeys items = [] ∧ Placed items request.topology ∧
      PyValue.lookup "packets" items = some (.list (mappings.map .dict)) ∧ mappings ≠ [] ∧
      request.packets.length = mappings.length ∧ expected.length = mappings.length ∧
      ∀ (i : Nat) (entry : List (PyValue × PyValue)) (spec : PacketSpec) (verdict : String), mappings[i]? = some entry →
        request.packets[i]? = some spec → expected[i]? = some verdict →
          Aligned P request.topology entry spec verdict := by
  obtain ⟨items, topology, entries, built, rfl, hb, rfl⟩ := buildCase_ok h
  have hpackets := testRequest_packets hb.requested
  have htop := testRequest_topology hb.requested
  obtain ⟨mappings, rfl, hall⟩ := aligned_all (buildPackets_ok.mp hb.packets)
  have hlength : mappings.length = built.length := hall.length_eq
  have hne : mappings ≠ [] := by
    intro hnil
    have hempty : built = [] := List.eq_nil_of_length_eq_zero (by rw [← hlength, hnil]; rfl)
    exact request.packets_ne (by rw [hpackets, hempty]; rfl)
  have hlookup : PyValue.lookup "packets" items = some (.list (mappings.map .dict)) := by
    have hiter := hb.iterated
    cases hv : PyValue.lookup "packets" items with
    | none =>
      rw [PyValue.get_default hv] at hiter
      cases hiter
    | some v =>
      rw [PyValue.get_eq hv] at hiter
      obtain ⟨k, hmem⟩ := PyValue.lookup_mem hv
      have hscalar : v.scalarKeys = true := (PyValue.scalarKeysItems_iff.mp hkeys _ hmem).2
      rw [iterate_mappings hscalar hne hiter]
  refine ⟨items, mappings, rfl, checkKeys_ok.mp hb.known, ?_, hlookup, hne, ?_, ?_, ?_⟩
  · rw [htop]
    exact (topologyOf_ok.mp hb.placed).2
  · rw [hpackets, List.length_map, hlength]
  · rw [List.length_map, hlength]
  · intro i entry spec verdict hentry hspec hverdict
    rw [hpackets, List.getElem?_map] at hspec
    rw [List.getElem?_map] at hverdict
    obtain ⟨p, hp, rfl⟩ := Option.map_eq_some_iff.mp hspec
    rw [hp] at hverdict
    cases hverdict
    rw [htop]
    obtain ⟨hi, rfl⟩ := List.getElem?_eq_some_iff.mp hentry
    obtain ⟨hj, rfl⟩ := List.getElem?_eq_some_iff.mp hp
    exact (List.forall₂_iff_get.mp hall).2 i hi hj

end Nse.Runner

namespace Nse

attribute [local instance] PyStr.Unicode.ascii

/-- A suite entry whose packets are no list. -/
def numberOfPackets : PyValue :=
  .dict [(.str "name", .str "web"), (.str "rules", .str "table ip filter"), (.str "packets", .int 5)]

/-- `enumerate(5)` raises `TypeError`, and nothing catches it. -/
theorem packets_that_are_a_number :
    ¬ ∀ (P : Runner.Pydantic) (raw : PyValue) (index : Nat), (∃ built, Runner.buildCase P raw index = .ok built) ∨
      ∃ message, Runner.buildCase P raw index = .error (.config message) := by
  intro h
  have htype : Runner.buildCase plainPydantic numberOfPackets 0 = .error .typeError := rfl
  rcases h plainPydantic numberOfPackets 0 with ⟨built, hb⟩ | ⟨message, hm⟩
  · cases htype.symm.trans hb
  · cases htype.symm.trans hm

/-- Two packet entries, each with a default where the other gives a value. -/
def openedEntry : List (PyValue × PyValue) := [(.str "src_ip", .str "10.0.0.1"), (.str "dst_port", .int 80)]

def refusedEntry : List (PyValue × PyValue) := [(.str "protocol", .str "udp"), (.str "expected_verdict", .str "reject")]

def twoPackets : PyValue :=
  .dict [(.str "name", .str "web"), (.str "rules", .str "table ip filter"),
    (.str "packets", .list [.dict openedEntry, .dict refusedEntry])]

def refusedPacket : PacketSpec where
  protocol := .udp
  srcIp := "10.0.0.1"
  dstIp := "10.0.0.2"
  srcIp_valid := first_address_valid
  dstIp_valid := second_address_valid
  srcPort_valid := noPort_valid
  dstPort_valid := noPort_valid
  flags_valid := noFlags_valid

theorem buildCase_twoPackets : ∃ request, Runner.buildCase plainPydantic twoPackets 0 =
    .ok ("web", request, ["ACCEPT", "DROP"]) ∧
    request.packets = [samplePacket, refusedPacket] ∧ request.topology = .simple := by
  refine ⟨⟨"table ip filter", [samplePacket, refusedPacket], .simple, by decide, by simp⟩, ?_, rfl, rfl⟩
  rfl

theorem expectations_stay_aligned_sample : Runner.Aligned plainPydantic .simple openedEntry samplePacket "ACCEPT" ∧
    Runner.Aligned plainPydantic .simple refusedEntry refusedPacket "DROP" := by
  obtain ⟨request, hcase, hpackets, htop⟩ := buildCase_twoPackets
  obtain ⟨items, mappings, hraw, -, -, hlookup, -, -, -, haligned⟩ := Runner.expectations_stay_aligned rfl hcase
  cases hraw
  have hlist : [PyValue.dict openedEntry, .dict refusedEntry] = mappings.map .dict :=
    PyValue.list.inj (Option.some.inj hlookup)
  obtain ⟨first, rest, rfl, hfirst, hrest⟩ := List.map_eq_cons_iff.mp hlist.symm
  obtain ⟨second, tail, rfl, hsecond, -⟩ := List.map_eq_cons_iff.mp hrest
  cases hfirst
  cases hsecond
  rw [hpackets, htop] at haligned
  exact ⟨haligned 0 _ _ _ rfl rfl rfl, haligned 1 _ _ _ rfl rfl rfl⟩

end Nse
