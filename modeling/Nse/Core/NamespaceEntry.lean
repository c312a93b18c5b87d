/-
  Nse.Core.NamespaceEntry — how the commands of a controller enter its namespaces.

  Every operation of the controller, and every step of a run, enters a namespace with
  `nsenter` or with `ip netns exec` as the controller says (`commands_operation`). The
  sandbox's `inject_packet` builds its own injector, in the default mode: under a
  controller that uses `nsenter`, its lookup of the interface inside the namespace goes
  through `ip netns exec` (`a_sandbox_injects_through_the_other_mode`).

  Proved: `one_entry_mode_iff`, the operations of a sequence all keep to the controller's
  mode exactly when it does not use `nsenter` or none of them is such an injection.
-/

import Nse.Core.Commands
import Nse.Core.NamespaceSandbox

namespace Nse

open Coroutine

/-! ## Operations -/

inductive Operation where
  | createNetns (name : String)
  | createVethPair (netns vethHost vethPeer : String) (hostIps peerIps : List String)
  | createGatewayTopology (routerNs serverNs vethHost vethRouterHost vethRouterServer vethServer : String)
      (a : NetnsController.GatewayAddresses)
  /-- `NamespaceSandbox.exec` and `inject_packet`, of the sandbox of this name. -/
  | exec (name command : String)
  | injectPacket (name protocol : String) (dstPort : Int) (dstIp : String) (srcIp : Option String)
  | runTestPipeline (cfg : Pipeline.Config) (req : TestRequest) (testId : String)

namespace Operation

def namespaces : Operation → List String
  | .createNetns name | .exec name _ | .injectPacket name _ _ _ _ => [name]
  | .createVethPair netns _ _ _ _ => [netns]
  | .createGatewayTopology routerNs serverNs _ _ _ _ _ => [routerNs, serverNs]
  | .runTestPipeline _ req testId => Pipeline.namespaces req testId

/-- It sends a packet of a sandbox, and has to look or go inside the namespace for it. -/
def injects : Operation → Prop
  | .injectPacket name protocol dstPort dstIp srcIp =>
    ∃ spec, NamespaceSandbox.packet protocol dstPort dstIp srcIp = some spec ∧
      (name ≠ "" ∨ ScapyInjector.isIncoming spec = false)
  | _ => False

variable [U : PyStr.Unicode]

def perform (c : NetnsController) : Operation → Prog Unit
  | .createNetns name => c.createNetns name
  | .createVethPair netns vethHost vethPeer hostIps peerIps => c.createVethPair netns vethHost vethPeer hostIps peerIps
  | .createGatewayTopology r s v1 v2 v3 v4 a => c.createGatewayTopology r s v1 v2 v3 v4 a
  | .exec name command => do
    let _ ← NamespaceSandbox.exec ⟨c, name⟩ command
    pure ()
  | .injectPacket name protocol dstPort dstIp srcIp =>
    NamespaceSandbox.injectPacket ⟨c, name⟩ protocol dstPort dstIp srcIp
  | .runTestPipeline cfg req testId => do
    let _ ← Pipeline.runTestPipeline cfg req (some c) testId
    pure ()

end Operation

variable [U : PyStr.Unicode]

/-- Every command of the operation is one of the root namespace, or enters a namespace it
    was given, in the mode of the controller. -/
def KeepsMode (c : NetnsController) (op : Operation) : Prop :=
  Only (Req.commands c.useNsenter (· ∈ op.namespaces) fun _ => True) (op.perform c)

/-! ## Operations that keep to the mode -/

section Keeps

variable {c : NetnsController} {op : Operation}

theorem keeps_injectPacket {name protocol dstIp : String} {dstPort : Int} {srcIp : Option String}
    (h : c.useNsenter = false ∨ ¬(Operation.injectPacket name protocol dstPort dstIp srcIp).injects) :
    KeepsMode c (.injectPacket name protocol dstPort dstIp srcIp) := by
  show Only (Req.commands c.useNsenter (· ∈ [name]) fun _ => True)
    (NamespaceSandbox.injectPacket ⟨c, name⟩ protocol dstPort dstIp srcIp)
  unfold NamespaceSandbox.injectPacket
  cases hp : NamespaceSandbox.packet protocol dstPort dstIp srcIp with
  | none => exact trivial
  | some spec =>
    refine commands_inject ?_ trivial trivial
    intro hin
    refine ⟨List.mem_singleton.mpr rfl, ?_⟩
    rcases h with h | h
    · exact h.symm
    · exact absurd ⟨spec, hp, hin⟩ h

theorem commands_operation (h : c.useNsenter = false ∨ ¬op.injects) : KeepsMode c op := by
  cases op with
  | createNetns name => exact commands_createNetns c (List.mem_singleton.mpr rfl)
  | createVethPair netns vethHost vethPeer hostIps peerIps =>
    exact commands_createVethPair c (List.mem_singleton.mpr rfl) trivial trivial _ _
  | createGatewayTopology r s v1 v2 v3 v4 a =>
    exact commands_createGatewayTopology c (List.mem_cons_self ..) (List.mem_cons_of_mem _ (List.mem_singleton.mpr rfl))
      trivial trivial _ _ _
  | exec name command =>
    refine only_bind (fun _ => only_ret) (only_bind (fun result => ?_) ?_)
    · split <;> exact trivial
    · exact only_request (runs_enters (List.mem_singleton.mpr rfl) _)
  | injectPacket name protocol dstPort dstIp srcIp => exact keeps_injectPacket h
  | runTestPipeline cfg req testId =>
    have hrun : Only (Req.commands c.useNsenter (OfRun req testId) fun _ => True)
        (Pipeline.runTestPipeline cfg req (some c) testId) := by
      refine only_mono ?_ (commands_runWith c cfg req testId)
      intro a ha
      cases a with
      | run cmd =>
        rcases ha with ha | ⟨words, hwords, hargv⟩
        · exact .inl ha
        · exact .inr ⟨words, hwords.mono fun _ _ => trivial, hargv⟩
      | _ => exact ha
    exact only_bind (fun _ => only_ret) hrun

end Keeps

/-! ## The injection of a sandbox -/

section Strays

variable {ns links : String → Prop}

omit U in
/-- A command that enters through `ip netns exec` is none of a controller that uses `nsenter`. -/
theorem not_runs {name : String} {rest : List Arg} : ¬Runs true ns links (execPrefix false name ++ rest) := by
  rintro (⟨n, -, rest', h⟩ | ⟨words, hwords, h⟩)
  · simp [execPrefix] at h
  · cases hwords <;> simp [execPrefix, NetnsController.ip] at h

theorem mac_found : ∃ out mac, (ScapyInjector.macRe.search out).bind (·.get "1") = some mac := by
  have hspace : U.isSpace ' ' = true := PyStr.isSpace_blank
  have ha : U.isSpace 'a' = false := PyStr.isSpace_char (by decide)
  have hrun : ScapyInjector.macRe.run ⟨none, "link/ether".toList ++ (' ' :: List.replicate 17 'a'), []⟩
      (fun a => some a.groups) =
      some [("1", List.replicate 17 'a')] := by
    refine (Backtrack.run_lit "link/ether" _ none _ []).trans ?_
    simp only [Backtrack.Re.seqs, Backtrack.Re.run, hspace, if_true, List.replicate_succ, Backtrack.greedy, ha,
      Bool.false_eq_true, if_false]
    rfl
  refine ⟨String.ofList ("link/ether".toList ++ (' ' :: List.replicate 17 'a')),
    String.ofList (List.replicate 17 'a'), ?_⟩
  unfold Backtrack.Re.search
  rw [String.toList_ofList]
  have hsearch : ∀ cs m, ScapyInjector.macRe.run ⟨none, cs, []⟩ (fun a => some a.groups) = some m →
      Backtrack.searchFrom ScapyInjector.macRe none cs = some m := by
    intro cs m h
    cases cs with
    | nil => exact h
    | cons c cs => exact (congrArg (Option.or · _) h).trans Option.some_or
  rw [hsearch _ _ hrun]
  rfl

theorem getMacAddress_canReturn (iface : String) (netns : Option String) (useNsenter : Bool) :
    ∃ mac, CanReturn (ScapyInjector.getMacAddress iface netns useNsenter) mac := by
  obtain ⟨out, mac, hmac⟩ := mac_found
  refine ⟨mac, .ok ⟨0, out, ""⟩, ?_⟩
  simp only [Co.bind, hmac]
  rfl

/-- The injector in the default mode runs a command that a controller which uses `nsenter`
    would not. -/
theorem inject_strays {spec : PacketSpec} {name vethHost vethPeer : String}
    (h : name ≠ "" ∨ ScapyInjector.isIncoming spec = false) :
    ¬Only (Req.commands true ns links) (ScapyInjector.inject false spec name vethHost vethPeer none) := by
  intro honly
  obtain ⟨hostMac, hhost⟩ := getMacAddress_canReturn vethHost none false
  obtain ⟨peerMac, hpeer⟩ := getMacAddress_canReturn vethPeer (some name) false
  have hmacs := honly.left.attempt
  by_cases hname : name = ""
  · -- no namespace is entered for the address, but one is to send the packet
    have hout : ScapyInjector.isIncoming spec = false := h.resolve_left fun hne => hne hname
    have hpair :
        CanReturn (ScapyInjector.getMacAddress vethPeer (some name) false >>= fun peerMac => pure (hostMac, peerMac))
        (hostMac, peerMac) := canReturn_bind (f := fun peerMac => .ret (hostMac, peerMac)) rfl hpeer
    have hboth : CanReturn (ScapyInjector.getMacAddress vethHost none false >>= fun hostMac =>
        ScapyInjector.getMacAddress vethPeer (some name) false >>= fun peerMac => pure (hostMac, peerMac))
          (hostMac, peerMac) :=
      canReturn_bind (f := fun hostMac => ScapyInjector.getMacAddress vethPeer (some name) false >>= fun peerMac =>
        pure (hostMac, peerMac)) hpair hhost
    have hsend := honly.right (canReturn_tryCatch hboth)
    simp only [hout, Bool.false_eq_true, if_false] at hsend
    exact not_runs hsend.left.1
  · have hlookup := (hmacs.right hhost).left
    have hstray : Runs true ns links
        (execPrefix false name ++ [.bin "ip", .str "-o", .str "link", .str "show", .str "dev", .str vethPeer]) := by
      have hrequest := hlookup.left.1
      simp only [hname, if_false] at hrequest
      exact hrequest
    exact not_runs hstray

end Strays

/-- The commands of a sequence of operations all enter their namespaces in the mode of the
    controller exactly when it does not use `nsenter`, or no sandbox has to look or go inside
    its namespace to send a packet. -/
theorem one_entry_mode_iff (c : NetnsController) (ops : List Operation) :
    (∀ op ∈ ops, KeepsMode c op) ↔ c.useNsenter = false ∨ ∀ op ∈ ops, ¬op.injects := by
  constructor
  · intro h
    by_cases hmode : c.useNsenter = false
    · exact .inl hmode
    · refine .inr ?_
      intro op hop hin
      have hkeeps := h op hop
      have hmode : c.useNsenter = true := by simpa using hmode
      cases op with
      | injectPacket name protocol dstPort dstIp srcIp =>
        obtain ⟨spec, hspec, hsends⟩ := hin
        have honly : Only (Req.commands c.useNsenter (· ∈ [name]) fun _ => True)
            (NamespaceSandbox.injectPacket ⟨c, name⟩ protocol dstPort dstIp srcIp) := hkeeps
        unfold NamespaceSandbox.injectPacket at honly
        rw [hspec, hmode] at honly
        exact inject_strays hsends honly
      | _ => exact hin
  · rintro (hmode | hnone) op hop
    · exact commands_operation (.inl hmode)
    · exact commands_operation (.inr (hnone op hop))

end Nse

/-! ## A stray command -/

namespace Nse

attribute [local instance] PyStr.Unicode.ascii

/-- The sandbox of a controller that uses `nsenter` looks for the address of its interface
    through `ip netns exec`. -/
theorem a_sandbox_injects_through_the_other_mode :
    ¬∀ (c : NetnsController) (ops : List Operation), ∀ op ∈ ops, KeepsMode c op := by
  have hspec : ∃ spec, NamespaceSandbox.packet "udp" 53 "10.0.0.2" none = some spec :=
    Option.isSome_iff_exists.mp (by decide +kernel)
  obtain ⟨spec, hspec⟩ := hspec
  intro h
  have honly : Coroutine.Only (Req.commands true (· ∈ ["sandbox"]) fun _ => True)
      (NamespaceSandbox.injectPacket ⟨⟨true⟩, "sandbox"⟩ "udp" 53 "10.0.0.2" none) :=
    h ⟨true⟩ [.injectPacket "sandbox" "udp" 53 "10.0.0.2" none] _ (List.mem_singleton.mpr rfl)
  unfold NamespaceSandbox.injectPacket at honly
  rw [hspec] at honly
  exact inject_strays (.inl (by decide)) honly

end Nse
