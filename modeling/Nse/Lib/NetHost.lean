/-
  Nse.Lib.NetHost — the namespaces, interfaces and routes of one host, and what `ip` does
  to them.

  The root stack is `none`, the stack of a namespace is `some` of its name. An interface is
  one of the two ends of a pair, the loopback of a namespace, or one that no command here
  makes or removes. Whoever runs a command owns what it makes. `perform` is `none` where the
  command is refused, and nothing changes then. Addresses are kept as they were written and
  are read when packets are routed. Names are taken to be ones that `ip` accepts. What an
  accepted command did is said once, by `perform_iff`, and every frame follows from that.

  A namespace that is deleted is gone at once with the interfaces in it; the kernel keeps it,
  without a name, for as long as a process is left inside. A gateway is judged as Linux does from
  5.14 on, for addresses outside the ranges it treats apart (loopback, link-local, multicast):
  the lowest address of an IPv4 network is like any other, and where an interface has an address
  that is another one's broadcast address it is taken as its own.
-/

import Nse.Lib.Subnet

namespace NetHost

open IpAddress (Subnet parseSubnet plainAddress)

/-! ## The host -/

structure End where
  name : String
  stack : Option String
  isUp : Bool := false
  addrs : List String := []
  deriving DecidableEq, Repr

structure Space (ω : Type) where
  name : String
  owner : ω
  lo : End
  deriving DecidableEq, Repr

structure Pair (ω : Type) where
  owner : ω
  near : End
  far : End
  deriving DecidableEq, Repr

structure Route where
  stack : Option String
  dest : Subnet
  via : Nat
  dev : String
  deriving DecidableEq, Repr

structure Host (ω : Type) where
  spaces : List (Space ω) := []
  pairs : List (Pair ω) := []
  fixed : List End := []
  routes : List Route := []
  deriving DecidableEq, Repr

variable {ω : Type}

def End.at (stack : Option String) (name : String) (e : End) : Bool := e.stack == stack && e.name == name

def End.touches (space : String) (e : End) : Bool := e.stack == some space

namespace Pair

def ends (p : Pair ω) : List End := [p.near, p.far]

def any (q : End → Bool) (p : Pair ω) : Bool := q p.near || q p.far

def map (f : End → End) (p : Pair ω) : Pair ω := { p with near := f p.near, far := f p.far }

end Pair

/-- Change the end that has this name in this stack. -/
def onEnd (stack : Option String) (name : String) (f : End → End) (e : End) : End := if e.at stack name then f e else e

namespace Host

variable (h : Host ω)

def hasSpace (name : String) : Bool := h.spaces.any (·.name == name)

def hasStack : Option String → Bool
  | none => true
  | some name => h.hasSpace name

/-- Every interface. -/
def ends : List End := h.spaces.map (·.lo) ++ h.fixed ++ h.pairs.flatMap Pair.ends

def has (stack : Option String) (name : String) : Bool := h.ends.any (·.at stack name)

/-- An end of a pair, which can be moved and removed. -/
def hasPair (stack : Option String) (name : String) : Bool := h.pairs.any (·.any (·.at stack name))

def mapEnds (f : End → End) : Host ω :=
  { h with
    spaces := h.spaces.map fun s => { s with lo := f s.lo }, fixed := h.fixed.map f, pairs := h.pairs.map (·.map f) }

def mapPairs (f : End → End) : Host ω := { h with pairs := h.pairs.map (·.map f) }

/-- Without the routes whose interface is gone. -/
def prune : Host ω := { h with routes := h.routes.filter fun r => h.has r.stack r.dev }

/-! ## Routing -/

/-- The interface is up and has an address in the network of this one. -/
def onLink (stack : Option String) (dev : String) (v6 : Bool) (n : Nat) : Bool :=
  h.ends.any fun e => e.at stack dev && (e.isUp && (e.addrs.filterMap parseSubnet).any (·.covers v6 n))

/-- The address is one of the stack's own. -/
def isOwn (stack : Option String) (v6 : Bool) (n : Nat) : Bool :=
  h.ends.any fun e => e.stack == stack && (e.addrs.filterMap parseSubnet).any fun s => s.v6 == v6 && s.addr == n

/-- The interface itself has this address. -/
def hasAddr (stack : Option String) (dev : String) (v6 : Bool) (n : Nat) : Bool :=
  h.ends.any fun e => e.at stack dev && (e.addrs.filterMap parseSubnet).any fun s => s.v6 == v6 && s.addr == n

/-- The interface is up in a network that has this broadcast address. -/
def isBroadcast (stack : Option String) (dev : String) (n : Nat) : Bool :=
  h.ends.any fun e => e.at stack dev && (e.isUp && (e.addrs.filterMap parseSubnet).any (·.broadcasts n))

/-- A gateway that is refused though it can be reached: in IPv6 any address of the stack's own, in
    IPv4 a broadcast address that is not the interface's own. -/
def refusesVia (stack : Option String) (dev : String) (v6 : Bool) (n : Nat) : Bool :=
  if v6 then h.isOwn stack v6 n else h.isBroadcast stack dev n && !h.hasAddr stack dev v6 n

/-- There is a route to the same network; an IPv4 address of an interface is one. -/
def hasRoute (stack : Option String) (dest : Subnet) : Bool :=
  h.routes.any (fun r => r.stack == stack && r.dest.same dest) ||
    h.ends.any fun e => e.stack == stack && e.isUp && (e.addrs.filterMap parseSubnet).any fun s => !s.v6 && s.same dest

def addRoute (stack : Option String) (dest : Subnet) (via : Bool × Nat) (dev : String) : Option (Host ω) :=
  if dest.v6 = via.1 ∧ h.onLink stack dev via.1 via.2 = true ∧ h.refusesVia stack dev via.1 via.2 = false ∧
      h.hasRoute stack dest = false then
    some { h with routes := { stack, dest, via := via.2, dev } :: h.routes }
  else none

/-- The stack sends what is for this address to this gateway: of the routes that cover the
    address, those through a gateway and those of the interfaces' own addresses, none is more
    specific, and none of an interface is as specific. -/
structure RoutesVia (stack : Option String) (v6 : Bool) (n gateway : Nat) (dev : String) : Prop where
  best : ∃ r ∈ h.routes, r.stack = stack ∧ r.dest.covers v6 n = true ∧ r.via = gateway ∧ r.dev = dev ∧
    (∀ r' ∈ h.routes, r'.stack = stack → r'.dest.covers v6 n = true → r'.dest.len ≤ r.dest.len) ∧
    ∀ e ∈ h.ends, e.stack = stack → e.isUp = true → ∀ s ∈ e.addrs.filterMap parseSubnet,
      s.covers v6 n = true → s.len < r.dest.len

end Host

/-! ## Commands -/

inductive Act where
  | netnsAdd (name : String)
  | netnsDel (name : String)
  | linkAdd (near far : String)
  | linkMove (dev space : String)
  | linkUp (dev : String)
  | linkDel (dev : String)
  | addrAdd (addr dev : String)
  | routeAdd (v6 : Bool) (dest via dev : String)
  /-- Any other command, which changes nothing kept here. -/
  | other
  deriving DecidableEq, Repr

/-- Run in this stack, the command makes no pair in the root stack and moves no end. -/
def Act.staysPut (stack : Option String) : Act → Bool
  | .linkAdd _ _ => stack.isSome
  | .linkMove _ _ => false
  | _ => true

/-- The destination of a route of one family. -/
def parseDest (v6 : Bool) (dest : String) : Option Subnet :=
  if dest = "default" then some (Subnet.all v6) else (parseSubnet dest).filter (·.v6 == v6)

namespace Host

variable (who : ω) (h : Host ω)

/-- What the command does in a stack that is there. -/
def act (stack : Option String) : Act → Option (Host ω)
  | .netnsAdd name =>
    if h.hasSpace name then none
    else some { h with spaces := { name, owner := who, lo := { name := "lo", stack := some name } } :: h.spaces }
  | .netnsDel name =>
    if h.hasSpace name then
      some (prune { h with
        spaces := h.spaces.filter (·.name != name), pairs := h.pairs.filter fun p => !p.any (·.touches name) })
    else none
  | .linkAdd near far =>
    if near = far ∨ h.has stack near = true ∨ h.has stack far = true then none
    else
      some { h with
        pairs := { owner := who, near := { name := near, stack }, far := { name := far, stack } } :: h.pairs }
  | .linkMove dev space =>
    if h.hasPair stack dev = true ∧ h.hasSpace space = true ∧ h.has (some space) dev = false then
      some (prune (h.mapPairs (onEnd stack dev fun e => { e with stack := some space, isUp := false, addrs := [] })))
    else none
  | .linkUp dev => if h.has stack dev then some (h.mapEnds (onEnd stack dev fun e => { e with isUp := true })) else none
  | .linkDel dev =>
    if h.hasPair stack dev then some (prune { h with pairs := h.pairs.filter fun p => !p.any (·.at stack dev) })
    else none
  | .addrAdd addr dev =>
    if h.has stack dev then some (h.mapEnds (onEnd stack dev fun e => { e with addrs := e.addrs ++ [addr] })) else none
  | .routeAdd v6 dest via dev =>
    (parseDest v6 dest).bind fun dest => (plainAddress via).bind fun via => h.addRoute stack dest via dev
  | .other => some h

def perform (stack : Option String) (a : Act) : Option (Host ω) := if h.hasStack stack then h.act who stack a else none

/-- One command after another, each in its stack. -/
def performAll : Host ω → List (Option String × Act) → Option (Host ω)
  | h, [] => some h
  | h, (stack, a) :: rest => (h.perform who stack a).bind fun h => performAll h rest

/-! ## Namespaces and their owners -/

def titles : List (String × ω) := h.spaces.map fun s => (s.name, s.owner)

end Host

/-! ## Pairs and where their ends are -/

structure Seat (ω : Type) where
  owner : ω
  near : Option String × String
  far : Option String × String
  deriving DecidableEq, Repr

def End.place (e : End) : Option String × String := (e.stack, e.name)

def Pair.seat (p : Pair ω) : Seat ω := { owner := p.owner, near := p.near.place, far := p.far.place }

def Host.seats (h : Host ω) : List (Seat ω) := h.pairs.map Pair.seat

namespace Seat

/-- One of the ends satisfies `q`. -/
def any (q : Option String × String → Bool) (s : Seat ω) : Bool := q s.near || q s.far

def map (f : Option String × String → Option String × String) (s : Seat ω) : Seat ω :=
  { s with near := f s.near, far := f s.far }

end Seat

/-- The end that has this place goes into a namespace. -/
def moveTo (place : Option String × String) (space : String) (x : Option String × String) : Option String × String :=
  if x == place then (some space, x.2) else x

/-- The namespaces after a command that was accepted. -/
def Act.retitle (who : ω) (titles : List (String × ω)) : Act → List (String × ω)
  | .netnsAdd name => (name, who) :: titles
  | .netnsDel name => titles.filter (·.1 != name)
  | _ => titles

/-- The pairs after a command that was accepted. -/
def Act.reseat (who : ω) (stack : Option String) (seats : List (Seat ω)) : Act → List (Seat ω)
  | .netnsDel name => seats.filter fun s => !s.any (·.1 == some name)
  | .linkAdd near far => { owner := who, near := (stack, near), far := (stack, far) } :: seats
  | .linkMove dev space => seats.map (·.map (moveTo (stack, dev) space))
  | .linkDel dev => seats.filter fun s => !s.any (· == (stack, dev))
  | _ => seats

namespace Host

variable {who : ω} {h h' : Host ω} {stack : Option String} {a : Act}

/-! ### What a command can do -/

/-- A command that was accepted: what it was accepted on, and the host it leaves. -/
inductive Acted (who : ω) (h : Host ω) (stack : Option String) : Act → Host ω → Prop
  | netnsAdd {name : String} : h.hasSpace name = false → Acted who h stack (.netnsAdd name)
      { h with spaces := { name, owner := who, lo := { name := "lo", stack := some name } } :: h.spaces }
  | netnsDel {name : String} : h.hasSpace name = true → Acted who h stack (.netnsDel name)
      (prune { h with
        spaces := h.spaces.filter (·.name != name), pairs := h.pairs.filter fun p => !p.any (·.touches name) })
  | linkAdd {near far : String} : near ≠ far → h.has stack near = false → h.has stack far = false →
      Acted who h stack (.linkAdd near far)
        { h with pairs := { owner := who, near := { name := near, stack }, far := { name := far, stack } } :: h.pairs }
  | linkMove {dev space : String} : h.hasPair stack dev = true → h.hasSpace space = true →
    h.has (some space) dev = false →
      Acted who h stack (.linkMove dev space)
        (prune (h.mapPairs (onEnd stack dev fun e => { e with stack := some space, isUp := false, addrs := [] })))
  | linkUp {dev : String} : h.has stack dev = true →
      Acted who h stack (.linkUp dev) (h.mapEnds (onEnd stack dev fun e => { e with isUp := true }))
  | linkDel {dev : String} : h.hasPair stack dev = true → Acted who h stack (.linkDel dev)
      (prune { h with pairs := h.pairs.filter fun p => !p.any (·.at stack dev) })
  | addrAdd {addr dev : String} : h.has stack dev = true →
      Acted who h stack (.addrAdd addr dev) (h.mapEnds (onEnd stack dev fun e => { e with addrs := e.addrs ++ [addr] }))
  | routeAdd {v6 : Bool} {dest via dev : String} {d : Subnet} {n : Bool × Nat} : parseDest v6 dest = some d →
      plainAddress via = some n → d.v6 = n.1 → h.onLink stack dev n.1 n.2 = true →
        h.refusesVia stack dev n.1 n.2 = false →
        h.hasRoute stack d = false → Acted who h stack (.routeAdd v6 dest via dev)
          { h with routes := { stack, dest := d, via := n.2, dev } :: h.routes }
  | other : Acted who h stack .other h

theorem acted_of_act (hact : h.act who stack a = some h') : Acted who h stack a h' := by
  cases a with
  | netnsAdd name =>
    simp only [act] at hact
    split at hact
    · cases hact
    · cases hact
      exact .netnsAdd (by simpa using ‹¬h.hasSpace name = true›)
  | netnsDel name =>
    simp only [act] at hact
    split at hact
    · cases hact
      exact .netnsDel ‹_›
    · cases hact
  | linkAdd near far =>
    simp only [act] at hact
    split at hact
    · cases hact
    · rename_i hfree
      simp only [not_or, Bool.not_eq_true] at hfree
      cases hact
      exact .linkAdd hfree.1 hfree.2.1 hfree.2.2
  | linkMove dev space =>
    simp only [act] at hact
    split at hact
    · rename_i hok
      cases hact
      exact .linkMove hok.1 hok.2.1 hok.2.2
    · cases hact
  | linkUp dev =>
    simp only [act] at hact
    split at hact
    · cases hact
      exact .linkUp ‹_›
    · cases hact
  | linkDel dev =>
    simp only [act] at hact
    split at hact
    · cases hact
      exact .linkDel ‹_›
    · cases hact
  | addrAdd addr dev =>
    simp only [act] at hact
    split at hact
    · cases hact
      exact .addrAdd ‹_›
    · cases hact
  | routeAdd v6 dest via dev =>
    obtain ⟨d, hd, hact⟩ := Option.bind_eq_some_iff.mp hact
    obtain ⟨n, hn, hact⟩ := Option.bind_eq_some_iff.mp hact
    unfold addRoute at hact
    split at hact
    · rename_i hok
      cases hact
      exact .routeAdd hd hn hok.1 hok.2.1 hok.2.2.1 hok.2.2.2
    · cases hact
  | other =>
    cases hact
    exact .other

theorem act_of_acted (hacted : Acted who h stack a h') : h.act who stack a = some h' := by
  cases hacted with
  | netnsAdd hspace => simp [act, hspace]
  | netnsDel hspace => simp [act, hspace]
  | linkAdd hne hnear hfar => simp [act, hne, hnear, hfar]
  | linkMove hpair hspace hfree => simp [act, hpair, hspace, hfree]
  | linkUp hdev => simp [act, hdev]
  | linkDel hpair => simp [act, hpair]
  | addrAdd hdev => simp [act, hdev]
  | routeAdd hd hn hfamily hon hvia hroute => simp [act, hd, hn, addRoute, hfamily, hon, hvia, hroute]
  | other => rfl

/-- A command is accepted in a stack that is there, on the conditions of its kind. -/
theorem perform_iff : h.perform who stack a = some h' ↔ h.hasStack stack = true ∧ Acted who h stack a h' := by
  unfold perform
  split
  · rename_i hstack
    exact ⟨fun hact => ⟨hstack, acted_of_act hact⟩, fun hacted => act_of_acted hacted.2⟩
  · rename_i hstack
    constructor
    · intro hact
      cases hact
    · intro hacted
      exact absurd hacted.1 hstack

/-! ### Namespaces and pairs afterwards -/

theorem hasSpace_iff {name : String} : h.hasSpace name = true ↔ ∃ o, (name, o) ∈ h.titles := by
  simp only [hasSpace, titles, List.any_eq_true, List.mem_map, beq_iff_eq, Prod.mk.injEq]
  constructor
  · intro ⟨s, hs, hname⟩
    exact ⟨s.owner, s, hs, hname, rfl⟩
  · intro ⟨o, s, hs, hname, ho⟩
    exact ⟨s, hs, hname⟩

theorem titles_mapEnds (f : End → End) : (h.mapEnds f).titles = h.titles := by
  simp [titles, mapEnds]

/-- The namespaces change only as the command says. -/
theorem titles_perform (hperform : h.perform who stack a = some h') : h'.titles = a.retitle who h.titles := by
  cases (perform_iff.mp hperform).2 with
  | netnsDel hspace => simp [prune, titles, Act.retitle, List.filter_map, Function.comp_def]
  | linkUp hdev => exact titles_mapEnds _
  | addrAdd hdev => exact titles_mapEnds _
  | _ => rfl

theorem any_seat (q : Option String × String → Bool) (p : Pair ω) : p.seat.any q = p.any fun e => q e.place := rfl

theorem at_eq (stack : Option String) (name : String) (e : End) : e.at stack name = (e.place == (stack, name)) := rfl

theorem hasPair_eq (stack : Option String) (name : String) :
    h.hasPair stack name = h.seats.any (·.any (· == (stack, name))) := by
  rw [hasPair, seats, List.any_map]
  rfl

theorem seats_filter (pairs : List (Pair ω)) (q : Option String × String → Bool) :
    (pairs.filter fun p => !p.any fun e => q e.place).map Pair.seat =
      (pairs.map Pair.seat).filter fun s => !s.any q := by
  rw [List.filter_map]
  rfl

/-- What leaves every end in its place leaves every pair. -/
theorem seats_map {f : End → End} {g : Option String × String → Option String × String}
    (hf : ∀ e, (f e).place = g e.place)
    (pairs : List (Pair ω)) : (pairs.map (·.map f)).map Pair.seat = (pairs.map Pair.seat).map (·.map g) := by
  simp [Pair.map, Pair.seat, Seat.map, hf]

theorem seats_mapEnds {stack : Option String} {name : String} {f : End → End} (hf : ∀ e, (f e).place = e.place) :
    (h.mapEnds (onEnd stack name f)).seats = h.seats := by
  have honEnd : ∀ e, (onEnd stack name f e).place = id e.place := by
    intro e
    unfold onEnd
    split
    · exact hf e
    · rfl
  exact (seats_map honEnd h.pairs).trans ((List.map_congr_left fun s _ => rfl).trans (List.map_id h.seats))

theorem place_move (stack : Option String) (dev space : String) (e : End) :
    (onEnd stack dev (fun e => { e with stack := some space, isUp := false, addrs := [] }) e).place =
      moveTo (stack, dev) space e.place := by
  unfold onEnd moveTo
  rw [at_eq]
  split <;> rfl

/-- The pairs change only as the command says. -/
theorem seats_perform (hperform : h.perform who stack a = some h') : h'.seats = a.reseat who stack h.seats := by
  cases (perform_iff.mp hperform).2 with
  | @netnsDel name _ => exact seats_filter h.pairs (·.1 == some name)
  | @linkMove dev space _ _ _ => exact seats_map (place_move stack dev space) h.pairs
  | linkUp hdev => exact seats_mapEnds fun _ => rfl
  | @linkDel dev _ => exact seats_filter h.pairs (· == (stack, dev))
  | addrAdd hdev => exact seats_mapEnds fun _ => rfl
  | _ => rfl

/-- A namespace that is there is not made again. -/
theorem no_space_of_netnsAdd {name : String} (hperform : h.perform who stack (.netnsAdd name) = some h') :
    h.hasSpace name = false := by
  cases (perform_iff.mp hperform).2 with
  | netnsAdd hspace => exact hspace

/-- A pair is made of names that are free. -/
theorem free_of_linkAdd {near far : String} (hperform : h.perform who stack (.linkAdd near far) = some h') :
    h.has stack near = false ∧ h.has stack far = false := by
  cases (perform_iff.mp hperform).2 with
  | linkAdd hne hnear hfar => exact ⟨hnear, hfar⟩

/-- A namespace that is there can be deleted, from a stack that is there. -/
theorem perform_netnsDel {name : String} (hstack : h.hasStack stack = true) (hspace : h.hasSpace name = true) :
    ∃ h', h.perform who stack (.netnsDel name) = some h' :=
  ⟨_, perform_iff.mpr ⟨hstack, .netnsDel hspace⟩⟩

/-! ## Ends stand in namespaces that are there -/

def Placed (h : Host ω) : Prop := ∀ s ∈ h.seats, ∀ space, s.any (·.1 == some space) = true → h.hasSpace space = true

theorem hasSpace_congr (htitles : h'.titles = h.titles) (name : String) : h'.hasSpace name = h.hasSpace name := by
  rw [Bool.eq_iff_iff, hasSpace_iff, hasSpace_iff, htitles]

/-- An end that was moved stood there before, or it was moved there. -/
theorem moved_into {place : Option String × String} {target space : String} {s : Seat ω}
    (h : (s.map (moveTo place target)).any (·.1 == some space) = true) :
      s.any (·.1 == some space) = true ∨ target = space := by
  have hmoved : ∀ x : Option String × String, (moveTo place target x).1 = some space →
      x.1 = some space ∨ target = space := by
    intro x hx
    unfold moveTo at hx
    split at hx
    · exact .inr (by simpa using hx)
    · exact .inl hx
  simp only [Seat.any, Seat.map, Bool.or_eq_true, beq_iff_eq] at h ⊢
  rcases h with hnear | hfar
  · rcases hmoved _ hnear with h | h
    · exact .inl (.inl h)
    · exact .inr h
  · rcases hmoved _ hfar with h | h
    · exact .inl (.inr h)
    · exact .inr h

theorem placed_perform (hp : h.Placed) (hperform : h.perform who stack a = some h') : h'.Placed := by
  have htitles := titles_perform hperform
  intro s hs space htouches
  rw [seats_perform hperform] at hs
  obtain ⟨hstack, hacted⟩ := perform_iff.mp hperform
  cases hacted with
  | @netnsAdd name _ =>
    obtain ⟨o, ho⟩ := hasSpace_iff.mp (hp s hs space htouches)
    rw [hasSpace_iff, htitles]
    exact ⟨o, List.mem_cons_of_mem _ ho⟩
  | @netnsDel name _ =>
    obtain ⟨hmem, hspared⟩ := List.mem_filter.mp hs
    obtain ⟨o, ho⟩ := hasSpace_iff.mp (hp s hmem space htouches)
    rw [hasSpace_iff, htitles]
    have hne : space ≠ name := by
      rintro rfl
      rw [htouches] at hspared
      cases hspared
    exact ⟨o, List.mem_filter.mpr ⟨ho, by simpa using hne⟩⟩
  | @linkAdd near far _ _ _ =>
    rw [hasSpace_congr htitles]
    rcases List.mem_cons.mp hs with rfl | hmem
    · have heq : stack = some space := by simpa [Seat.any] using htouches
      rw [heq] at hstack
      exact hstack
    · exact hp s hmem space htouches
  | linkMove hpair hspace hfree =>
    rw [hasSpace_congr htitles]
    obtain ⟨t, hmem, rfl⟩ := List.mem_map.mp hs
    rcases moved_into htouches with hbefore | rfl
    · exact hp t hmem space hbefore
    · exact hspace
  | linkDel hpair =>
    rw [hasSpace_congr htitles]
    exact hp s (List.mem_filter.mp hs).1 space htouches
  | linkUp hdev =>
    rw [hasSpace_congr htitles]
    exact hp s hs space htouches
  | addrAdd hdev =>
    rw [hasSpace_congr htitles]
    exact hp s hs space htouches
  | routeAdd hd hn hfamily hon hvia hroute =>
    rw [hasSpace_congr htitles]
    exact hp s hs space htouches
  | other =>
    rw [hasSpace_congr htitles]
    exact hp s hs space htouches

end Host

end NetHost
