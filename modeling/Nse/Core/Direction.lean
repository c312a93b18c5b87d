/-
  Nse.Core.Direction — from which side `inject` sends a packet.

  `inject_plan`: the direction fixes the interface and the two hardware addresses; nothing
  else about the packet does. The direction is decided by comparing the text of the source
  with four texts. An IPv4 address has one text, an IPv6 address has many, so
  `plan_iff`: two packets with one source address are sent alike exactly when the address is
  not one of the sandbox's IPv6 addresses, or both texts are the compared one or neither is.
  As built, `FD00::2` is sent from outside (`an_address_in_capitals_is_sent_from_outside`).
-/

import Nse.Core.ScapyInjector
import Nse.Lib.AddressText

namespace Nse.ScapyInjector

open IpAddress (ipAddress Address)

variable [U : PyStr.Unicode]

/-! ## What the direction decides -/

structure Plan where
  /-- From inside the namespace. -/
  inside : Bool
  interface : String
  srcMac : String
  dstMac : String
  deriving DecidableEq, Repr

/-- The plan for a packet, given the two interfaces and their hardware addresses. -/
def plan (spec : PacketSpec) (vethHost vethPeer hostMac peerMac : String) : Plan :=
  if isIncoming spec then ⟨false, vethHost, hostMac, peerMac⟩ else ⟨true, vethPeer, peerMac, hostMac⟩

def carryOut (useNsenter : Bool) (spec : PacketSpec) (netns : String) (p : Plan) : Prog Unit :=
  if p.inside then do
    let script := buildScapyScript spec p.interface p.srcMac p.dstMac
    let result ← perform (.run
      { argv := execPrefix useNsenter netns ++ [.python, .str "-c", .str script]
        check := false
        timeout := some 10000 })
    if result.returncode ≠ 0 then
      raise (runtimeError ("Packet injection failed: " ++ PyStr.strip result.stderr))
    else pure ()
  else
    orRuntimeError "Packet injection failed: " (perform (.sendp (frame spec p.srcMac p.dstMac) p.interface))

def readMacs (useNsenter : Bool) (netns vethHost vethPeer : String) (hostNetns : Option String) :
    Prog (String × String) :=
  orRuntimeError "Failed to retrieve MAC addresses: " do
    let hostMac ← getMacAddress vethHost hostNetns useNsenter
    let peerMac ← getMacAddress vethPeer (some netns) useNsenter
    pure (hostMac, peerMac)

/-- `inject` reads the hardware addresses and carries out the plan. -/
theorem inject_plan (useNsenter : Bool) (spec : PacketSpec) (netns vethHost vethPeer : String)
    (hostNetns : Option String) :
    inject useNsenter spec netns vethHost vethPeer hostNetns =
      (readMacs useNsenter netns vethHost vethPeer hostNetns).bind
      fun macs => carryOut useNsenter spec netns (plan spec vethHost vethPeer macs.1 macs.2) := by
  unfold inject readMacs
  refine congrArg _ (funext fun macs => ?_)
  obtain ⟨hostMac, peerMac⟩ := macs
  unfold plan
  dsimp only
  split
  · rfl
  · rfl

/-! ## Addresses and texts -/

omit U

/-- The addresses of the sandbox. -/
def ownAddresses : List Address := sandboxAddresses.filterMap ipAddress

/-- The IPv6 texts a source is compared with. -/
def ownV6Texts : List String := sandboxAddresses.filter isIpv6

example : ownV6Texts = ["fd00::2", "fd00:2::2"] := by decide

theorem own_of_text {s : String} (h : s ∈ sandboxAddresses) : ∃ a ∈ ownAddresses, ipAddress s = some a := by
  have hvalid : ∀ t ∈ sandboxAddresses, validateIp t = true := by decide +kernel
  obtain ⟨a, ha⟩ := Option.isSome_iff_exists.mp (hvalid s h)
  exact ⟨a, List.mem_filterMap.mpr ⟨s, h, ha⟩, ha⟩

/-- A text is one of the four exactly when it denotes an address of the sandbox and, should
    the address be an IPv6 one, is the text it is compared with. -/
theorem mem_sandboxAddresses {s : String} {a : Address} (h : ipAddress s = some a) :
    s ∈ sandboxAddresses ↔ a ∈ ownAddresses ∧ (a.isV6 = true → s ∈ ownV6Texts) := by
  constructor
  · intro hs
    obtain ⟨b, hb, hsb⟩ := own_of_text hs
    cases h.symm.trans hsb
    refine ⟨hb, ?_⟩
    intro hv6
    exact List.mem_filter.mpr ⟨hs, PyStr.contains_iff.mpr ((IpAddress.colon_iff h).mpr hv6)⟩
  · intro ⟨ha, hv6⟩
    cases a with
    | v4 n =>
      obtain ⟨t, ht, hta⟩ := List.mem_filterMap.mp ha
      rwa [IpAddress.parseV4_injective (IpAddress.ipAddress_v4 h) (IpAddress.ipAddress_v4 hta)]
    | v6 n scope => exact (List.mem_filter.mp (hv6 rfl)).1

theorem plan_inside {spec : PacketSpec} {vethHost vethPeer hostMac peerMac : String} :
    (plan spec vethHost vethPeer hostMac peerMac).inside = true ↔ spec.srcIp ∈ sandboxAddresses := by
  unfold plan isIncoming
  by_cases h : spec.srcIp ∈ sandboxAddresses <;> simp [h]

/-- The same plan on every pair of interfaces. -/
def SamePlan (p q : PacketSpec) : Prop :=
  ∀ vethHost vethPeer hostMac peerMac, plan p vethHost vethPeer hostMac peerMac =
    plan q vethHost vethPeer hostMac peerMac

theorem samePlan_iff {p q : PacketSpec} : SamePlan p q ↔ (p.srcIp ∈ sandboxAddresses ↔ q.srcIp ∈ sandboxAddresses) := by
  constructor
  · intro h
    have hp : (plan p "" "" "" "").inside = true ↔ p.srcIp ∈ sandboxAddresses := plan_inside
    have hq : (plan q "" "" "" "").inside = true ↔ q.srcIp ∈ sandboxAddresses := plan_inside
    rw [← hp, ← hq, h "" "" "" ""]
  · intro h vethHost vethPeer hostMac peerMac
    have hincoming : isIncoming p = isIncoming q := by
      unfold isIncoming
      rw [Bool.not_inj_iff, Bool.eq_iff_iff]
      simpa using h
    unfold plan
    rw [hincoming]

/-- The source is an IPv6 address of the sandbox, in whatever spelling. -/
def OwnV6 (p : PacketSpec) : Prop := ∃ a ∈ ownAddresses, a.isV6 = true ∧ ipAddress p.srcIp = some a

/-- `inject` carries out the plan. Two packets whose sources denote one address are sent
    alike exactly when the address is not an IPv6 address of the sandbox, or both sources are
    written as it is compared or neither is; and a packet from an address of the sandbox is
    sent from inside exactly when an IPv6 source is written so. -/
theorem plan_iff [PyStr.Unicode] {p q : PacketSpec} (h : ipAddress p.srcIp = ipAddress q.srcIp) :
    (∀ useNsenter netns vethHost vethPeer hostNetns, inject useNsenter p netns vethHost vethPeer hostNetns =
      (readMacs useNsenter netns vethHost vethPeer hostNetns).bind fun macs =>
        carryOut useNsenter p netns (plan p vethHost vethPeer macs.1 macs.2)) ∧
      (SamePlan p q ↔ (OwnV6 p → (p.srcIp ∈ ownV6Texts ↔ q.srcIp ∈ ownV6Texts))) ∧
      ((∃ a ∈ ownAddresses, ipAddress p.srcIp = some a) →
        ((∀ vethHost vethPeer hostMac peerMac, (plan p vethHost vethPeer hostMac peerMac).inside = true) ↔
          (OwnV6 p → p.srcIp ∈ ownV6Texts))) := by
  obtain ⟨a, ha⟩ := Option.isSome_iff_exists.mp p.srcIp_valid
  have hq : ipAddress q.srcIp = some a := h ▸ ha
  have hown : OwnV6 p ↔ a ∈ ownAddresses ∧ a.isV6 = true := by
    constructor
    · intro ⟨b, hb, hv6, hpb⟩
      cases ha.symm.trans hpb
      exact ⟨hb, hv6⟩
    · intro ⟨hmem, hv6⟩
      exact ⟨a, hmem, hv6, ha⟩
  rw [samePlan_iff, mem_sandboxAddresses ha, mem_sandboxAddresses hq, hown]
  refine ⟨fun useNsenter => inject_plan useNsenter p, ?_, ?_⟩
  · by_cases hmem : a ∈ ownAddresses
    · by_cases hv6 : a.isV6 = true
      · simp [hmem, hv6]
      · simp [hmem, hv6]
    · simp [hmem]
  · intro ⟨b, hb, hpb⟩
    cases ha.symm.trans hpb
    simp only [plan_inside, mem_sandboxAddresses ha, hb, true_and, forall_const]

end Nse.ScapyInjector

namespace Nse

attribute [local instance] PyStr.Unicode.ascii

/-- A packet from the sandbox's own IPv6 address, as `inject` compares it. -/
def plainSource : PacketSpec where
  protocol := .udp
  srcIp := "fd00::2"
  dstIp := "fd00::1"
  srcIp_valid := by decide +kernel
  dstIp_valid := by decide +kernel

/-- The same packet, its source in capitals. -/
def capitalSource : PacketSpec where
  protocol := .udp
  srcIp := "FD00::2"
  dstIp := "fd00::1"
  srcIp_valid := by decide +kernel
  dstIp_valid := plainSource.dstIp_valid

theorem capitals_denote_the_same : IpAddress.ipAddress plainSource.srcIp = IpAddress.ipAddress capitalSource.srcIp := by
  decide +kernel

theorem plan_iff_sample : ScapyInjector.SamePlan plainSource capitalSource ↔
    (ScapyInjector.OwnV6 plainSource →
      (plainSource.srcIp ∈ ScapyInjector.ownV6Texts ↔ capitalSource.srcIp ∈ ScapyInjector.ownV6Texts)) :=
  (ScapyInjector.plan_iff capitals_denote_the_same).2.1

theorem an_address_in_capitals_is_sent_from_outside :
    ¬ ∀ p q : PacketSpec, IpAddress.ipAddress p.srcIp = IpAddress.ipAddress q.srcIp →
      IpAddress.ipAddress p.dstIp = IpAddress.ipAddress q.dstIp → p.protocol = q.protocol → p.srcPort = q.srcPort →
        p.dstPort = q.dstPort → p.tcpFlags = q.tcpFlags → ScapyInjector.SamePlan p q := by
  intro h
  have hsame := h plainSource capitalSource capitals_denote_the_same rfl rfl rfl rfl rfl "vhr" "vrh" "a" "b"
  have hinside : (ScapyInjector.plan plainSource "vhr" "vrh" "a" "b").inside = true := by decide
  have houtside : (ScapyInjector.plan capitalSource "vhr" "vrh" "a" "b").inside = false := by decide
  rw [hsame, houtside] at hinside
  cases hinside

end Nse
