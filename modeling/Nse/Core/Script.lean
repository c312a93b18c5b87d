/-
  Nse.Core.Script — the program `_build_scapy_script` writes.

  `script_is_skeleton`: read by Python's grammar, the text is the fixed program whose calls
  build the frame of the in-process branch and send it on the given interface, whatever the
  texts that go into it. What is assumed of Python is that the `repr` of a string is one
  literal that denotes it; `PyProgram.quoted_literal` shows such a `repr`.
-/

import Nse.Core.ScapyInjector
import Nse.Lib.PyProgram

namespace Nse.ScapyInjector

open PyProgram

/-! ## The program -/

def keywords (args : List (String × Expr)) : List (Option String × Expr) := args.map fun a => (some a.1, a.2)

/-- The call that builds the layer-4 part. -/
def l4Call : L4 → Expr
  | .tcp sport dport flags =>
    .call (.name "TCP") (keywords [("sport", .int sport), ("dport", .int dport), ("flags", .str flags)])
  | .udp sport dport => .call (.name "UDP") (keywords [("sport", .int sport), ("dport", .int dport)])
  | .icmp => .call (.name "ICMP") []
  | .icmpv6EchoRequest => .call (.name "ICMPv6EchoRequest") []

/-- `Ether(…) / l3(…) / l4(…)`. -/
def frameExpr (f : Frame) : Expr :=
  .div
    (.div (.call (.name "Ether") (keywords [("src", .str f.etherSrc), ("dst", .str f.etherDst)]))
      (.call (.name (if f.ipv6 then "IPv6" else "IP")) (keywords [("src", .str f.src), ("dst", .str f.dst)])))
    (l4Call f.l4)

/-- The program that sends one frame. -/
def skeleton (f : Frame) (interface : String) : List Statement :=
  [.fromImport ["scapy", "all"] ["Ether", "IP", "IPv6", "TCP", "UDP", "ICMP", "ICMPv6EchoRequest", "sendp", "conf"],
    .assign (.attr (.name "conf") "verb") (.int 0),
    .assign (.name "pkt") (frameExpr f),
    .expr (.call (.name "sendp") [(none, .name "pkt"), (some "iface", .str interface)]),
    .expr (.call (.name "print") [(none, .str "Packet sent:"), (none, .call (.attr (.name "pkt") "summary") [])])]

/-! ## Its tokens -/

def headTokens : List Token :=
  [.newline, .name "from", .name "scapy", .punct '.', .name "all", .name "import",
    .name "Ether", .punct ',', .name "IP",
    .punct ',', .name "IPv6", .punct ',', .name "TCP", .punct ',', .name "UDP", .punct ',', .name "ICMP", .punct ',',
    .name "ICMPv6EchoRequest", .punct ',', .name "sendp", .punct ',', .name "conf", .newline, .name "conf", .punct '.',
    .name "verb", .punct '=', .int 0, .newline]

def argTokens (key : String) (value : Token) : List Token := [.name key, .punct '=', value]

def portTokens (sport dport : Int) : List Token :=
  argTokens "sport" (.int sport.toNat) ++ .punct ',' :: argTokens "dport" (.int dport.toNat)

def l4Tokens : L4 → List Token
  | .tcp sport dport flags =>
    [.name "TCP", .punct '('] ++ portTokens sport dport ++ .punct ',' :: argTokens "flags" (.str flags) ++ [.punct ')']
  | .udp sport dport => [.name "UDP", .punct '('] ++ portTokens sport dport ++ [.punct ')']
  | .icmp => [.name "ICMP", .punct '(', .punct ')']
  | .icmpv6EchoRequest => [.name "ICMPv6EchoRequest", .punct '(', .punct ')']

def addressTokens (src dst : String) : List Token :=
  .punct '(' :: argTokens "src" (.str src) ++ .punct ',' :: argTokens "dst" (.str dst) ++ [.punct ')']

def frameTokens (f : Frame) : List Token :=
  .name "Ether" :: addressTokens f.etherSrc f.etherDst ++ .punct '/' :: .name (if f.ipv6 then "IPv6" else "IP") ::
    addressTokens f.src f.dst ++ .punct '/' :: l4Tokens f.l4

def tailTokens (interface : String) : List Token :=
  [.newline, .name "sendp", .punct '(', .name "pkt", .punct ','] ++ argTokens "iface" (.str interface) ++
    [.punct ')', .newline, .name "print", .punct '(', .str "Packet sent:", .punct ',', .name "pkt", .punct '.',
      .name "summary", .punct '(', .punct ')', .punct ')', .newline]

def scriptTokens (f : Frame) (interface : String) : List Token :=
  headTokens ++ .name "pkt" :: .punct '=' :: frameTokens f ++ tailTokens interface

/-- Ports are no negative numbers. -/
def Natural : L4 → Prop
  | .tcp sport dport _ => 0 ≤ sport ∧ 0 ≤ dport
  | .udp sport dport => 0 ≤ sport ∧ 0 ≤ dport
  | _ => True

theorem program_scriptTokens {f : Frame} (hf : Natural f.l4) (interface : String) :
    program (scriptTokens f interface) = some (skeleton f interface) := by
  obtain ⟨etherSrc, etherDst, ipv6, src, dst, l4⟩ := f
  cases l4 with
  | tcp sport dport flags =>
    obtain ⟨s, rfl⟩ := Int.eq_ofNat_of_zero_le hf.1
    obtain ⟨d, rfl⟩ := Int.eq_ofNat_of_zero_le hf.2
    cases ipv6 <;> rfl
  | udp sport dport =>
    obtain ⟨s, rfl⟩ := Int.eq_ofNat_of_zero_le hf.1
    obtain ⟨d, rfl⟩ := Int.eq_ofNat_of_zero_le hf.2
    cases ipv6 <;> rfl
  | icmp => cases ipv6 <;> rfl
  | icmpv6EchoRequest => cases ipv6 <;> rfl

/-! ## The text -/

section Text

variable [U : PyStr.Unicode]

/-- What is assumed of `repr`: it writes one literal, which denotes the string. -/
def ReprIsLiteral : Prop := ∀ s, Literal (U.repr s) s

theorem reads_repr (hrepr : ReprIsLiteral) (s : String) {t : String} {cs : List Char} {ts us : List Token} {m m' : Mode}
    (ht : run .between t.toList = some (ts, m)) (hq : Unquoted t.toList) (hr : Reads m cs us m') :
    Reads .between ((U.repr s).toList ++ (t.toList ++ cs)) (.str s :: (ts ++ us)) m' := by
  obtain ⟨c, rest, hc, hquote⟩ := hq
  exact Reads.literal (hrepr s) ⟨c, rest ++ cs, by rw [hc, List.cons_append], hquote⟩ (Reads.chunk ht hr)

omit U in
theorem reads_number {n : Nat} (hn : n ≠ 0) {t : String} {cs : List Char} {ts us : List Token} {m m' : Mode}
    (ht : run .between t.toList = some (ts, m)) (ha : Apart t.toList) (hr : Reads m cs us m') :
    Reads .between ((toString n).toList ++ (t.toList ++ cs)) (.int n :: (ts ++ us)) m' := by
  obtain ⟨c, rest, hc, happart⟩ := ha
  exact Reads.number hn ⟨c, rest ++ cs, by rw [hc, List.cons_append], happart⟩ (Reads.chunk ht hr)

theorem reads_tail (hrepr : ReprIsLiteral) (interface : String) :
    Reads .between ("\nsendp(pkt, iface=".toList ++ ((U.repr interface).toList ++
      (")\nprint(\"Packet sent:\", pkt.summary())\n".toList ++ []))) (tailTokens interface) .line := by
  have hsend : run .between "\nsendp(pkt, iface=".toList =
      some ([.newline, .name "sendp", .punct '(', .name "pkt", .punct ',', .name "iface", .punct '='], .between) := by
    decide +kernel
  have hprint : run .between ")\nprint(\"Packet sent:\", pkt.summary())\n".toList =
      some ([.punct ')', .newline, .name "print", .punct '(', .str "Packet sent:", .punct ',', .name "pkt", .punct '.',
        .name "summary", .punct '(', .punct ')', .punct ')', .newline], .line) := by
    decide +kernel
  have hend : Reads .line [] [] .line := rfl
  have h := Reads.chunk hsend (reads_repr hrepr interface hprint ⟨')', _, rfl, rfl⟩ hend)
  exact h

/-- The text of the layer-4 call, up to the line break after it. -/
def l4Text : L4 → String
  | .tcp sport dport flags =>
    "TCP(" ++ ("sport=" ++ toString sport ++ ", dport=" ++ toString dport) ++ ", flags=" ++ U.repr flags ++ ")"
  | .udp sport dport => "UDP(" ++ ("sport=" ++ toString sport ++ ", dport=" ++ toString dport) ++ ")"
  | .icmp => "ICMP()"
  | .icmpv6EchoRequest => "ICMPv6EchoRequest()"

/-- Ports are numbers above zero. -/
def Positive : L4 → Prop
  | .tcp sport dport _ => 0 < sport ∧ 0 < dport
  | .udp sport dport => 0 < sport ∧ 0 < dport
  | _ => True

omit U in
theorem positive_nat {p : Int} (h : 0 < p) : ∃ n : Nat, n ≠ 0 ∧ p = n := ⟨p.toNat, by omega, by omega⟩

omit U in
theorem toString_ofNat (n : Nat) : toString (n : Int) = toString n := rfl

theorem reads_l4 (hrepr : ReprIsLiteral) {l4 : L4} (hl4 : Positive l4) {cs : List Char} {us : List Token} {m : Mode}
    (hr : Reads .between cs us m) : Reads .between ((l4Text l4).toList ++ cs) (l4Tokens l4 ++ us) m := by
  have hdport : run .between ", dport=".toList = some ([.punct ',', .name "dport", .punct '='], .between) := by
    decide +kernel
  cases l4 with
  | tcp sport dport flags =>
    obtain ⟨s, hs, rfl⟩ := positive_nat hl4.1
    obtain ⟨d, hd, rfl⟩ := positive_nat hl4.2
    have hopen : run .between "TCP(sport=".toList =
        some ([.name "TCP", .punct '(', .name "sport", .punct '='], .between) := by decide +kernel
    have hflags : run .between ", flags=".toList = some ([.punct ',', .name "flags", .punct '='], .between) := by
      decide +kernel
    have hclose : run .between ")".toList = some ([.punct ')'], .between) := by decide +kernel
    have h := Reads.chunk hopen (reads_number hs hdport ⟨',', _, rfl, rfl, rfl⟩
        (reads_number hd hflags ⟨',', _, rfl, rfl, rfl⟩
      (reads_repr hrepr flags hclose ⟨')', _, rfl, rfl⟩ hr)))
    have htext : (l4Text (.tcp s d flags)).toList ++ cs = "TCP(sport=".toList ++
        ((toString s).toList ++ (", dport=".toList ++
        ((toString d).toList ++ (", flags=".toList ++ ((U.repr flags).toList ++ (")".toList ++ cs)))))) := by
      rw [l4Text, toString_ofNat, toString_ofNat]
      simp only [String.toList_append, List.append_assoc]
      rfl
    rw [htext]
    exact h
  | udp sport dport =>
    obtain ⟨s, hs, rfl⟩ := positive_nat hl4.1
    obtain ⟨d, hd, rfl⟩ := positive_nat hl4.2
    have hopen : run .between "UDP(sport=".toList =
        some ([.name "UDP", .punct '(', .name "sport", .punct '='], .between) := by decide +kernel
    have hclose : run .between ")".toList = some ([.punct ')'], .between) := by decide +kernel
    have h := Reads.chunk hopen (reads_number hs hdport ⟨',', _, rfl, rfl, rfl⟩
        (reads_number hd hclose ⟨')', _, rfl, rfl, rfl⟩ hr))
    have htext : (l4Text (.udp s d)).toList ++ cs = "UDP(sport=".toList ++ ((toString s).toList ++ (", dport=".toList ++
        ((toString d).toList ++ (")".toList ++ cs)))) := by
      rw [l4Text, toString_ofNat, toString_ofNat]
      simp only [String.toList_append, List.append_assoc]
      rfl
    rw [htext]
    exact h
  | icmp =>
    have hicmp : run .between "ICMP()".toList = some ([.name "ICMP", .punct '(', .punct ')'], .between) := by
      decide +kernel
    exact Reads.chunk hicmp hr
  | icmpv6EchoRequest =>
    have hicmp : run .between "ICMPv6EchoRequest()".toList =
        some ([.name "ICMPv6EchoRequest", .punct '(', .punct ')'], .between) := by decide +kernel
    exact Reads.chunk hicmp hr

def headText : String :=
  "\nfrom scapy.all import Ether, IP, IPv6, TCP, UDP, ICMP, ICMPv6EchoRequest, sendp, conf\nconf.verb = 0\n"

def l3Name (ipv6 : Bool) : String := if ipv6 then "IPv6" else "IP"

/-- The script for a frame. -/
def scriptText (f : Frame) (interface : String) : String :=
  headText ++ "pkt = Ether(src=" ++ U.repr f.etherSrc ++ ", dst=" ++ U.repr f.etherDst ++ ") / " ++ l3Name f.ipv6 ++
    "(src=" ++ U.repr f.src ++ ", dst=" ++ U.repr f.dst ++ ") / " ++ l4Text f.l4 ++ "\nsendp(pkt, iface=" ++
    U.repr interface ++ ")\nprint(\"Packet sent:\", pkt.summary())\n"

omit U in
theorem address_ne {s : String} (h : validateIp s = true) : s ≠ "" := by
  rintro rfl
  revert h
  decide

/-- The script is written for the frame the in-process branch sends. -/
theorem buildScapyScript_eq (spec : PacketSpec) (interface srcMac dstMac : String) :
    buildScapyScript spec interface srcMac dstMac = scriptText (frame spec srcMac dstMac) interface := by
  unfold buildScapyScript scriptText
  rw [if_neg (address_ne spec.srcIp_valid), if_neg (address_ne spec.dstIp_valid)]
  unfold frame l4Text headText l3Name
  cases hproto : spec.protocol with
  | tcp => simp only [String.append_assoc]
  | udp => simp only [String.append_assoc]
  | icmp =>
    cases h6 : isIpv6 spec.srcIp with
    | true => simp only [h6, String.append_assoc, if_true]
    | false => simp only [h6, String.append_assoc, Bool.false_eq_true, if_false]

omit U in
theorem positive_frame (spec : PacketSpec) (srcMac dstMac : String) : Positive (frame spec srcMac dstMac).l4 := by
  have hport : ∀ (p : Option Int) (d : Int), 0 < d → p.all validPort = true → 0 < p.getD d := by
    intro p d hd hp
    cases p with
    | none => exact hd
    | some n =>
      simp only [Option.all_some, validPort, Bool.and_eq_true, decide_eq_true_eq] at hp
      show 0 < n
      omega
  have hsrc := hport spec.srcPort 12345 (by decide) spec.srcPort_valid
  have hdst := hport spec.dstPort 80 (by decide) spec.dstPort_valid
  unfold frame
  cases spec.protocol with
  | tcp => exact ⟨hsrc, hdst⟩
  | udp => exact ⟨hsrc, hdst⟩
  | icmp =>
    dsimp only
    split <;> exact trivial

omit U in
theorem Positive.natural {l4 : L4} (h : Positive l4) : Natural l4 := by
  cases l4 with
  | tcp sport dport flags => exact ⟨by have := h.1; omega, by have := h.2; omega⟩
  | udp sport dport => exact ⟨by have := h.1; omega, by have := h.2; omega⟩
  | icmp => trivial
  | icmpv6EchoRequest => trivial

theorem reads_script (hrepr : ReprIsLiteral) {f : Frame} (hf : Positive f.l4) (interface : String) :
    Reads .line (scriptText f interface).toList (scriptTokens f interface) .line := by
  have hhead : run .line headText.toList = some (headTokens, .line) := by decide +kernel
  have hether : run .line "pkt = Ether(src=".toList =
      some ([.name "pkt", .punct '=', .name "Ether", .punct '(', .name "src", .punct '='], .between) := by
        decide +kernel
  have hdst : run .between ", dst=".toList = some ([.punct ',', .name "dst", .punct '='], .between) := by decide +kernel
  have hslash : run .between ") / ".toList = some ([.punct ')', .punct '/'], .between) := by decide +kernel
  have hl3 : run .between (l3Name f.ipv6 ++ "(src=").toList =
      some ([.name (l3Name f.ipv6), .punct '(', .name "src", .punct '='], .between) := by
    cases f.ipv6 <;> decide +kernel
  have hbody := Reads.chunk hl3 (reads_repr hrepr f.src hdst ⟨',', _, rfl, rfl⟩
      (reads_repr hrepr f.dst hslash ⟨')', _, rfl, rfl⟩
    (reads_l4 hrepr hf (reads_tail hrepr interface))))
  have h := Reads.chunk hhead (Reads.chunk hether (reads_repr hrepr f.etherSrc hdst ⟨',', _, rfl, rfl⟩
    (reads_repr hrepr f.etherDst hslash ⟨')', _, rfl, rfl⟩ hbody)))
  have htext : (scriptText f interface).toList = headText.toList ++
      ("pkt = Ether(src=".toList ++ ((U.repr f.etherSrc).toList ++
      (", dst=".toList ++ ((U.repr f.etherDst).toList ++ (") / ".toList ++ ((l3Name f.ipv6 ++ "(src=").toList ++
        ((U.repr f.src).toList ++ (", dst=".toList ++
          ((U.repr f.dst).toList ++ (") / ".toList ++ ((l4Text f.l4).toList ++
          ("\nsendp(pkt, iface=".toList ++ ((U.repr interface).toList ++
            (")\nprint(\"Packet sent:\", pkt.summary())\n".toList ++ [])))))))))))))) := by
    simp only [scriptText, String.toList_append, List.append_assoc, List.append_nil]
  have htokens :
      scriptTokens f interface = headTokens ++ ([.name "pkt", .punct '=', .name "Ether", .punct '(', .name "src",
      .punct '='] ++ .str f.etherSrc ::
        ([.punct ',', .name "dst", .punct '='] ++ .str f.etherDst :: ([.punct ')', .punct '/'] ++
        ([.name (l3Name f.ipv6), .punct '(', .name "src", .punct '='] ++
          .str f.src :: ([.punct ',', .name "dst", .punct '='] ++
          .str f.dst :: ([.punct ')', .punct '/'] ++ (l4Tokens f.l4 ++ tailTokens interface))))))) := by
    simp [scriptTokens, frameTokens, addressTokens, argTokens, l3Name]
  rw [htext, htokens]
  exact h

end Text

/-- The script tells which addresses the packet has. -/
theorem script_addresses [U : PyStr.Unicode] (hrepr : ReprIsLiteral) {spec spec' : PacketSpec}
    {interface interface' srcMac srcMac' dstMac dstMac' : String}
    (h : buildScapyScript spec interface srcMac dstMac = buildScapyScript spec' interface' srcMac' dstMac') :
    spec.srcIp = spec'.srcIp ∧ spec.dstIp = spec'.dstIp := by
  have hpos := positive_frame spec srcMac dstMac
  have hpos' := positive_frame spec' srcMac' dstMac'
  have hreads := reads_script hrepr hpos interface
  rw [← buildScapyScript_eq, h, buildScapyScript_eq] at hreads
  -- one text has one reading, and so one program
  have htokens := (reads_script hrepr hpos' interface').symm.trans hreads
  simp only [Option.some.injEq, Prod.mk.injEq, and_true] at htokens
  have hprogram := program_scriptTokens hpos.natural interface
  rw [← htokens, program_scriptTokens hpos'.natural interface'] at hprogram
  simp only [skeleton, frameExpr, keywords, List.map_cons, List.map_nil, Option.some.injEq, List.cons.injEq,
    Statement.assign.injEq, Expr.div.injEq, Expr.call.injEq, Prod.mk.injEq, Expr.str.injEq] at hprogram
  obtain ⟨-, -, ⟨-, ⟨-, -, ⟨-, hsrc⟩, ⟨-, hdst⟩, -⟩, -⟩, -⟩ := hprogram
  exact ⟨hsrc.symm, hdst.symm⟩

/-- Whatever texts go into it, the script is the fixed program, and sends the frame of the
    in-process branch on the interface. -/
theorem script_is_skeleton [U : PyStr.Unicode] (hrepr : ReprIsLiteral) (spec : PacketSpec)
    (interface srcMac dstMac : String) : PyProgram.read (buildScapyScript spec interface srcMac dstMac) =
      some (skeleton (frame spec srcMac dstMac) interface) := by
  have hpositive := positive_frame spec srcMac dstMac
  have hreads := reads_script hrepr hpositive interface
  unfold Reads at hreads
  rw [buildScapyScript_eq, PyProgram.read, tokens, hreads]
  exact program_scriptTokens hpositive.natural interface

end Nse.ScapyInjector

namespace Nse

/-- The table outside ASCII knows nothing; a `repr` is a quoted text. -/
@[reducible] def quotingUnicode : PyStr.Unicode := { PyStr.Unicode.ascii with repr := PyProgram.quoted }

attribute [local instance] quotingUnicode

theorem quotingRepr_literal : ScapyInjector.ReprIsLiteral := PyProgram.quoted_literal

theorem scoped_address_valid : validateIp "fe80::1%'); print(1)\n" = true := by decide +kernel

theorem sandbox_v6_valid : validateIp "fd00::2" = true := by decide +kernel

theorem syn_valid : ["S"].all validFlags.contains = true := by decide

/-- Its scope id is a quote, a call and a line break. -/
def scopedPacket : PacketSpec where
  protocol := .tcp
  srcIp := "fe80::1%'); print(1)\n"
  dstIp := "fd00::2"
  tcpFlags := ["S"]
  srcIp_valid := scoped_address_valid
  dstIp_valid := sandbox_v6_valid
  srcPort_valid := noPort_valid
  dstPort_valid := noPort_valid
  flags_valid := syn_valid

theorem script_is_skeleton_sample :
    PyProgram.read (ScapyInjector.buildScapyScript scopedPacket "veth'-nse" "02:00:00:00:00:01" "02:00:00:00:00:02") =
      some (ScapyInjector.skeleton (ScapyInjector.frame scopedPacket "02:00:00:00:00:01" "02:00:00:00:00:02")
        "veth'-nse") :=
  ScapyInjector.script_is_skeleton quotingRepr_literal scopedPacket _ _ _

end Nse
