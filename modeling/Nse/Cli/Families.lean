/-
  Nse.Cli.Families — the address families of the packets of a suite entry.

  The layer-3 header of a packet is chosen from its source alone, and each address is
  validated and defaulted alone. `same_family_iff`: the two addresses of every packet of an
  accepted entry belong to one family exactly when each packet entry that gives an IPv6
  source gives an IPv6 destination and the other way round: the defaults are IPv4. As built,
  an IPv6 source with the default destination is admitted (`an_ipv6_source_without_a_destination`).
-/

import Nse.Cli.Entries
import Nse.Core.Script
import Nse.Lib.AddressText

namespace Nse.Runner

open IpAddress (ipAddress Address)

variable [U : PyStr.Unicode]

/-! ## Packets -/

/-- Both addresses of a packet belong to one family. -/
def SameFamily (p : PacketSpec) : Prop := (ipAddress p.srcIp).map Address.isV6 = (ipAddress p.dstIp).map Address.isV6

/-- The layer-3 header is one for the packet's source and destination, in the frame and in the
    script. -/
def HeaderFits (p : PacketSpec) : Prop := ∀ interface srcMac dstMac, ∀ address ∈ [p.srcIp, p.dstIp], ∃ v6,
  (ipAddress address).map Address.isV6 = some v6 ∧ (ScapyInjector.frame p srcMac dstMac).ipv6 = v6 ∧
    ScapyInjector.buildScapyScript p interface srcMac dstMac =
      ScapyInjector.scriptText { ScapyInjector.frame p srcMac dstMac with ipv6 := v6 } interface

omit U in
theorem family_of_valid {s : String} (h : validateIp s = true) :
    (ipAddress s).map Address.isV6 = some (PyStr.contains ':' s) := by
  obtain ⟨a, ha⟩ := Option.isSome_iff_exists.mp h
  rw [ha, Option.map_some, Option.some_inj, Bool.eq_iff_iff, PyStr.contains_iff, IpAddress.colon_iff ha]

omit U in
theorem sameFamily_iff {p : PacketSpec} : SameFamily p ↔ PyStr.contains ':' p.srcIp = PyStr.contains ':' p.dstIp := by
  unfold SameFamily
  rw [family_of_valid p.srcIp_valid, family_of_valid p.dstIp_valid, Option.some_inj]

/-- The header fits where the families agree. -/
theorem headerFits_iff {p : PacketSpec} : HeaderFits p ↔ SameFamily p := by
  have hheader : ∀ srcMac dstMac, (ScapyInjector.frame p srcMac dstMac).ipv6 = PyStr.contains ':' p.srcIp :=
    fun _ _ => rfl
  rw [sameFamily_iff]
  constructor
  · intro h
    obtain ⟨v6, hdst, hv6, -⟩ := h "" "" "" p.dstIp (by simp)
    rw [family_of_valid p.dstIp_valid, ← hv6, hheader, Option.some_inj] at hdst
    exact hdst.symm
  · intro h interface srcMac dstMac address haddress
    refine ⟨(ScapyInjector.frame p srcMac dstMac).ipv6, ?_, rfl,
      ScapyInjector.buildScapyScript_eq p interface srcMac dstMac⟩
    rw [hheader]
    simp only [List.mem_cons, List.not_mem_nil, or_false] at haddress
    rcases haddress with rfl | rfl
    · exact family_of_valid p.srcIp_valid
    · rw [family_of_valid p.dstIp_valid, h]

/-! ## Packet entries -/

omit U in
def mappingOf : PyValue → Option (List (PyValue × PyValue))
  | .dict items => some items
  | _ => none

omit U in
/-- The packet entries of a suite entry. -/
def packetEntries : PyValue → List (List (PyValue × PyValue))
  | .dict items => ((iterate (PyValue.get items "packets" .none)).getD []).filterMap mappingOf
  | _ => []

omit U in
/-- The entry gives an IPv6 address under this key. -/
def GivesV6 (P : Pydantic) (key : String) (entry : List (PyValue × PyValue)) : Prop :=
  ∃ v s, PyValue.lookup key entry = some v ∧ P.str v = some s ∧ PyStr.contains ':' s = true

omit U in
theorem givesV6_iff {P : Pydantic} (hstr : ∀ s, P.str (.str s) = some s) {key default s : String}
    {entry : List (PyValue × PyValue)} (hdefault : PyStr.contains ':' default = false)
    (h : P.str (PyValue.get entry key (.str default)) = some s) :
      GivesV6 P key entry ↔ PyStr.contains ':' s = true := by
  unfold GivesV6
  cases hlookup : PyValue.lookup key entry with
  | none =>
    rw [PyValue.get_default hlookup, hstr] at h
    cases h
    simp [hdefault]
  | some v =>
    rw [PyValue.get_eq hlookup] at h
    constructor
    · intro ⟨w, t, hw, ht, hcolon⟩
      cases hw
      cases h.symm.trans ht
      exact hcolon
    · intro hcolon
      exact ⟨v, s, rfl, h, hcolon⟩

omit U in
theorem default_is_v4 (topology : TopologyType) :
    PyStr.contains ':' (defaultSrc topology) = false ∧ PyStr.contains ':' (defaultDst topology) = false := by
  cases topology <;> decide

theorem Aligned.sameFamily_iff {P : Pydantic} (hstr : ∀ s, P.str (.str s) = some s) {topology : TopologyType}
    {entry : List (PyValue × PyValue)} {spec : PacketSpec} {verdict : String}
      (h : Aligned P topology entry spec verdict) :
    SameFamily spec ↔ (GivesV6 P "src_ip" entry ↔ GivesV6 P "dst_ip" entry) := by
  rw [Runner.sameFamily_iff, givesV6_iff hstr (default_is_v4 topology).1 h.carries.srcIp,
    givesV6_iff hstr (default_is_v4 topology).2 h.carries.dstIp, Bool.eq_iff_iff]

omit U in
theorem forall₂_all_iff {α β : Type} {R : α → β → Prop} {A : α → Prop} {B : β → Prop} (hAB : ∀ x y, R x y → (B y ↔ A x))
    {xs : List α} {ys : List β} (h : List.Forall₂ R xs ys) : (∀ y ∈ ys, B y) ↔ ∀ x ∈ xs, A x := by
  induction h with
  | nil => simp
  | cons hxy _ ih => simp [hAB _ _ hxy, ih]

omit U in
theorem packetEntries_eq {items : List (PyValue × PyValue)} {mappings : List (List (PyValue × PyValue))}
    (h : iterate (PyValue.get items "packets" .none) = some (mappings.map .dict)) :
    packetEntries (.dict items) = mappings := by
  unfold packetEntries
  dsimp only
  rw [h, Option.getD_some, List.filterMap_map]
  exact List.filterMap_some

/-- The addresses of each packet belong to one family, and the header chosen from the source
    fits both, exactly when no packet entry gives an IPv6 address for one of them alone. -/
theorem same_family_iff {P : Pydantic} (hstr : ∀ s, P.str (.str s) = some s) {raw : PyValue}
    {index : Nat} {name : String}
    {request : TestRequest} {expected : List String} (h : buildCase P raw index = .ok (name, request, expected)) :
    (∀ p ∈ request.packets, SameFamily p ∧ HeaderFits p) ↔
      ∀ entry ∈ packetEntries raw, (GivesV6 P "src_ip" entry ↔ GivesV6 P "dst_ip" entry) := by
  obtain ⟨items, topology, entries, built, rfl, hb, -⟩ := buildCase_ok h
  obtain ⟨mappings, rfl, hall⟩ := aligned_all (buildPackets_ok.mp hb.packets)
  rw [packetEntries_eq hb.iterated, testRequest_packets hb.requested]
  simp only [headerFits_iff, and_self, List.forall_mem_map]
  exact forall₂_all_iff (fun _ _ haligned => haligned.sameFamily_iff hstr) hall

end Nse.Runner

namespace Nse

attribute [local instance] PyStr.Unicode.ascii

/-- An IPv6 source, and the destination left to its default. -/
def ipv6Source : PyValue :=
  .dict [(.str "name", .str "web"), (.str "rules", .str "table ip filter"),
    (.str "packets", .list [.dict [(.str "src_ip", .str "fd00::1")]])]

theorem host_v6_valid : validateIp "fd00::1" = true := by decide +kernel

def mixedPacket : PacketSpec where
  protocol := .tcp
  srcIp := "fd00::1"
  dstIp := "10.0.0.2"
  srcIp_valid := host_v6_valid
  dstIp_valid := second_address_valid
  srcPort_valid := noPort_valid
  dstPort_valid := noPort_valid
  flags_valid := noFlags_valid

theorem plainPydantic_str (s : String) : plainPydantic.str (.str s) = some s := rfl

theorem buildCase_ipv6Source : ∃ request, Runner.buildCase plainPydantic ipv6Source 0 =
    .ok ("web", request, ["ACCEPT"]) ∧
    request.packets = [mixedPacket] := by
  refine ⟨⟨"table ip filter", [mixedPacket], .simple, by decide, by simp⟩, ?_, rfl⟩
  rfl

theorem an_ipv6_source_without_a_destination :
    ¬ ∀ (P : Runner.Pydantic) (raw : PyValue) (index : Nat) (name : String) (request : TestRequest)
      (expected : List String),
      (∀ s, P.str (.str s) = some s) → Runner.buildCase P raw index = .ok (name, request, expected) →
        ∀ p ∈ request.packets, Runner.SameFamily p := by
  intro h
  obtain ⟨request, hcase, hpackets⟩ := buildCase_ipv6Source
  have hsame : Runner.SameFamily mixedPacket := h _ _ _ _ _ _ plainPydantic_str hcase _ (by simp [hpackets])
  have hdiffer : PyStr.contains ':' mixedPacket.srcIp ≠ PyStr.contains ':' mixedPacket.dstIp := by decide
  exact hdiffer (Runner.sameFamily_iff.mp hsame)

theorem same_family_iff_sample : Runner.SameFamily samplePacket ∧ Runner.HeaderFits samplePacket := by
  have hcase : Runner.buildCase plainPydantic sampleEntry 0 = .ok ("web", sampleRequest, ["ACCEPT"]) := rfl
  refine (Runner.same_family_iff plainPydantic_str hcase).mpr ?_ samplePacket (List.mem_singleton.mpr rfl)
  intro entry hentry
  have heq : entry = [(.str "src_ip", .str "10.0.0.1"), (.str "dst_port", .int 80)] := by
    simpa using List.mem_singleton.mp hentry
  rw [heq]
  constructor
  · intro ⟨v, s, hv, hs, hcolon⟩
    cases hv
    cases hs
    exact absurd hcolon (by decide)
  · intro ⟨v, s, hv, _⟩
    cases hv

end Nse
