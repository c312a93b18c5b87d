/-
  Nse.Lib.NetPairs — a pair built between two stacks.

  `performAll_veth`: eight commands make a pair in one stack, move its far end into a
  namespace, and give both ends their addresses; nothing else of the host changes.
-/

import Nse.Lib.NetHost

namespace NetHost

open IpAddress (Subnet parseSubnet plainAddress)

variable {ω : Type}

namespace Host

def withSpace (s : Space ω) (h : Host ω) : Host ω := { h with spaces := s :: h.spaces }

def withPair (p : Pair ω) (h : Host ω) : Host ω := { h with pairs := p :: h.pairs }

def withRoute (r : Route) (h : Host ω) : Host ω := { h with routes := r :: h.routes }

/-- Every route has its interface. -/
def Live (h : Host ω) : Prop := ∀ r ∈ h.routes, h.has r.stack r.dev = true

/-- Every interface stands in a stack that is there, and every route has its interface. -/
structure WellFormed (h : Host ω) : Prop where
  ends : ∀ e ∈ h.ends, h.hasStack e.stack = true
  live : h.Live

variable {who : ω} {h : Host ω} {stack : Option String} {dev : String} {s : Space ω} {p : Pair ω}

/-! ## One more namespace, one more pair -/

@[simp] theorem hasSpace_withSpace (name : String) :
    (h.withSpace s).hasSpace name = (s.name == name || h.hasSpace name) := rfl

@[simp] theorem hasSpace_withPair (name : String) : (h.withPair p).hasSpace name = h.hasSpace name := rfl

@[simp] theorem hasStack_withPair : (h.withPair p).hasStack stack = h.hasStack stack := by cases stack <;> rfl

@[simp] theorem hasPair_withPair :
    (h.withPair p).hasPair stack dev = (p.any (·.at stack dev) || h.hasPair stack dev) := rfl

theorem any_withSpace (q : End → Bool) : (h.withSpace s).ends.any q = (q s.lo || h.ends.any q) := rfl

theorem any_withPair (q : End → Bool) : (h.withPair p).ends.any q = (p.any q || h.ends.any q) := by
  rw [Bool.eq_iff_iff]
  simp only [ends, withPair, Pair.ends, Pair.any, List.any_append, List.any_flatMap, List.any_cons,
    List.any_nil, Bool.or_false,
    Bool.or_eq_true]
  exact or_left_comm

theorem mem_withSpace {e : End} : e ∈ (h.withSpace s).ends ↔ e = s.lo ∨ e ∈ h.ends := by
  simp [ends, withSpace]

theorem mem_withPair {e : End} : e ∈ (h.withPair p).ends ↔ (e = p.near ∨ e = p.far) ∨ e ∈ h.ends := by
  simp only [ends, withPair, List.mem_append, List.flatMap_cons, Pair.ends, List.mem_cons, List.not_mem_nil, or_false]
  exact or_left_comm

@[simp] theorem has_withSpace : (h.withSpace s).has stack dev = (s.lo.at stack dev || h.has stack dev) := rfl

@[simp] theorem has_withPair : (h.withPair p).has stack dev = (p.any (·.at stack dev) || h.has stack dev) :=
  any_withPair _

theorem Live.withSpace (hl : h.Live) (s : Space ω) : (h.withSpace s).Live := by
  intro r hr
  rw [has_withSpace, hl r hr, Bool.or_true]

theorem Live.withPair (hl : h.Live) (p : Pair ω) : (h.withPair p).Live := by
  intro r hr
  rw [has_withPair, hl r hr, Bool.or_true]

theorem Live.prune (hl : h.Live) : h.prune = h := by
  rw [Host.prune, List.filter_eq_self.mpr hl]

theorem WellFormed.any_vacant (hw : h.WellFormed) {name : String} (hspace : h.hasSpace name = false) (q : End → Bool) :
    h.ends.any (fun e => e.stack == some name && q e) = false := by
  rw [List.any_eq_false]
  intro e he hany
  have hstack := hw.ends e he
  have heq : e.stack = some name := by simpa using (Bool.and_eq_true_iff.mp hany).1
  rw [heq] at hstack
  exact absurd (hspace.symm.trans hstack) (by decide)

/-- Nothing stands in a namespace that is not there. -/
theorem WellFormed.vacant (hw : h.WellFormed) {name : String} (hspace : h.hasSpace name = false) (dev : String) :
    h.has (some name) dev = false := by
  exact hw.any_vacant hspace (·.name == dev)

theorem WellFormed.placed (hw : h.WellFormed) : h.Placed := by
  intro s hs space htouches
  obtain ⟨p, hp, rfl⟩ := List.mem_map.mp hs
  have hends : ∀ e ∈ p.ends, e.stack = some space → h.hasSpace space = true := by
    intro e he heq
    have hstack := hw.ends e (List.mem_append_right _ (List.mem_flatMap.mpr ⟨p, hp, he⟩))
    rw [heq] at hstack
    exact hstack
  rw [any_seat, Pair.any, Bool.or_eq_true] at htouches
  rcases htouches with h | h
  · exact hends p.near (by simp [Pair.ends]) (beq_iff_eq.mp h)
  · exact hends p.far (by simp [Pair.ends]) (beq_iff_eq.mp h)

theorem hasPair_of_has (hdev : h.has stack dev = false) : h.hasPair stack dev = false := by
  rw [hasPair, List.any_eq_false]
  intro p hp hany
  have hends : ∀ e ∈ p.ends, e.at stack dev = false := by
    intro e he
    simpa using List.any_eq_false.mp hdev e (List.mem_append_right _ (List.mem_flatMap.mpr ⟨p, hp, he⟩))
  rw [Pair.any, hends p.near (by simp [Pair.ends]), hends p.far (by simp [Pair.ends])] at hany
  cases hany

/-- No end stands there. -/
theorem hasPair_eq_false : h.hasPair stack dev = false ↔ ∀ s ∈ h.seats, s.any (· == (stack, dev)) = false := by
  rw [hasPair_eq, List.any_eq_false]
  simp

/-- Only a new pair puts an end where none was in the root stack. -/
theorem no_pair_perform {h' : Host ω} {a : Act} {st : Option String} (hput : a.staysPut st = true)
    (hperform : h.perform who st a = some h') (hno : h.hasPair none dev = false) : h'.hasPair none dev = false := by
  have hseats := seats_perform hperform
  rw [hasPair_eq_false] at hno ⊢
  intro s hs
  rw [hseats] at hs
  cases a with
  | linkAdd near far =>
    rcases List.mem_cons.mp hs with rfl | hmem
    · cases st with
      | none => cases hput
      | some n => simp [Seat.any]
    · exact hno s hmem
  | linkMove d space => cases hput
  | netnsDel name => exact hno s (List.mem_filter.mp hs).1
  | linkDel d => exact hno s (List.mem_filter.mp hs).1
  | _ => exact hno s hs

/-- An interface that was deleted is not there. -/
theorem no_pair_linkDel {h' : Host ω} (hperform : h.perform who stack (.linkDel dev) = some h') :
    h'.hasPair stack dev = false := by
  have hseats := seats_perform hperform
  rw [hasPair_eq_false]
  intro s hs
  rw [hseats] at hs
  simpa using (List.mem_filter.mp hs).2

/-- An interface that cannot be deleted is not there. -/
theorem no_pair_of_refused (hstack : h.hasStack stack = true) (hrefused : h.perform who stack (.linkDel dev) = none) :
    h.hasPair stack dev = false := by
  simpa [perform, hstack, act] using hrefused

/-- Nothing stands in a namespace that is not there. -/
theorem Placed.vacant (hp : h.Placed) {name : String} (hspace : h.hasSpace name = false) (dev : String) :
    h.hasPair (some name) dev = false := by
  rw [hasPair_eq_false]
  intro s hs
  rw [Bool.eq_false_iff]
  intro hany
  have htouches : s.any (·.1 == some name) = true := by
    simp only [Seat.any, Bool.or_eq_true, beq_iff_eq] at hany ⊢
    rcases hany with hnear | hfar
    · exact .inl (congrArg Prod.fst hnear)
    · exact .inr (congrArg Prod.fst hfar)
  rw [hp s hs name htouches] at hspace
  cases hspace

/-! ## Several commands -/

theorem performAll_append : ∀ (xs ys : List (Option String × Act)) (h : Host ω),
    h.performAll who (xs ++ ys) = (h.performAll who xs).bind fun h' => h'.performAll who ys
  | [], _, _ => rfl
  | (st, a) :: xs, ys, h => by
    rw [List.cons_append, performAll, performAll]
    cases h.perform who st a with
    | none => rfl
    | some h' => exact performAll_append xs ys h'

theorem placed_performAll : ∀ {xs : List (Option String × Act)} {h h' : Host ω}, h.Placed →
    h.performAll who xs = some h' →
    h'.Placed
  | [], _, _, hp, hperform => by
    cases hperform
    exact hp
  | (st, a) :: xs, h, h', hp, hperform => by
    obtain ⟨h₁, hfirst, hrest⟩ := Option.bind_eq_some_iff.mp hperform
    exact placed_performAll (placed_perform hp hfirst) hrest

/-! ## A change of one end -/

theorem onEnd_absent (hdev : h.has stack dev = false) (f : End → End) {e : End} (he : e ∈ h.ends) :
    onEnd stack dev f e = e := by
  have hat : e.at stack dev = false := by simpa using List.any_eq_false.mp hdev e he
  rw [onEnd, hat]
  rfl

theorem map_self {α : Type} {f : α → α} {xs : List α} (hf : ∀ x ∈ xs, f x = x) : xs.map f = xs :=
  (List.map_congr_left fun x hx => hf x hx).trans (List.map_id xs)

theorem mapPairs_absent (hdev : h.has stack dev = false) (f : End → End) : h.mapPairs (onEnd stack dev f) = h := by
  have hpairs : h.pairs.map (·.map (onEnd stack dev f)) = h.pairs := by
    apply map_self
    intro p hp
    have hends : ∀ e ∈ p.ends, e ∈ h.ends := by
      intro e he
      exact List.mem_append_right _ (List.mem_flatMap.mpr ⟨p, hp, he⟩)
    have hnear := onEnd_absent hdev f (hends p.near (by simp [Pair.ends]))
    have hfar := onEnd_absent hdev f (hends p.far (by simp [Pair.ends]))
    rw [Pair.map, hnear, hfar]
  rw [mapPairs, hpairs]

theorem mapEnds_absent (hdev : h.has stack dev = false) (f : End → End) : h.mapEnds (onEnd stack dev f) = h := by
  have hspaces : h.spaces.map (fun s => { s with lo := onEnd stack dev f s.lo }) = h.spaces := by
    apply map_self
    intro s hs
    have hlo : s.lo ∈ h.ends := List.mem_append_left _ (List.mem_append_left _ (List.mem_map_of_mem hs))
    rw [onEnd_absent hdev f hlo]
  have hfixed : h.fixed.map (onEnd stack dev f) = h.fixed := by
    apply map_self
    intro e he
    exact onEnd_absent hdev f (List.mem_append_left _ (List.mem_append_right _ he))
  have hpairs : h.pairs.map (·.map (onEnd stack dev f)) = h.pairs := congrArg Host.pairs (mapPairs_absent hdev f)
  rw [mapEnds, hspaces, hfixed, hpairs]

theorem mapEnds_withPair (f : End → End) : (h.withPair p).mapEnds f = (h.mapEnds f).withPair (p.map f) := rfl

theorem mapPairs_withPair (f : End → End) : (h.withPair p).mapPairs f = (h.mapPairs f).withPair (p.map f) := rfl

theorem mapEnds_withSpace (f : End → End) :
    (h.withSpace s).mapEnds f = (h.mapEnds f).withSpace { s with lo := f s.lo } := rfl

theorem edit_near {f : End → End} (hnear : p.near.at stack dev = true) (hfar : p.far.at stack dev = false)
    (hdev : h.has stack dev = false) : (h.withPair p).mapEnds (onEnd stack dev f) =
      h.withPair { p with near := f p.near } := by
  rw [mapEnds_withPair, mapEnds_absent hdev, Pair.map, onEnd, if_pos hnear, onEnd, hfar]
  rfl

theorem edit_far {f : End → End} (hnear : p.near.at stack dev = false) (hfar : p.far.at stack dev = true)
    (hdev : h.has stack dev = false) : (h.withPair p).mapEnds (onEnd stack dev f) =
      h.withPair { p with far := f p.far } := by
  rw [mapEnds_withPair, mapEnds_absent hdev, Pair.map, onEnd, hnear, onEnd, if_pos hfar]
  rfl

/-- A pair without an end of this name in this stack. -/
theorem map_onEnd_absent {f : End → End} (hp : p.any (·.at stack dev) = false) : p.map (onEnd stack dev f) = p := by
  have hends : p.near.at stack dev = false ∧ p.far.at stack dev = false := Bool.or_eq_false_iff.mp hp
  rw [Pair.map, onEnd, hends.1, onEnd, hends.2]
  rfl

/-! ## One command -/

section Commands

variable (hstack : h.hasStack stack = true)

include hstack

theorem perform_linkUp (hdev : h.has stack dev = true) :
    h.perform who stack (.linkUp dev) = some (h.mapEnds (onEnd stack dev fun e => { e with isUp := true })) :=
  perform_iff.mpr ⟨hstack, .linkUp hdev⟩

theorem perform_addrAdd (hdev : h.has stack dev = true) (addr : String) :
    h.perform who stack (.addrAdd addr dev) =
      some (h.mapEnds (onEnd stack dev fun e => { e with addrs := e.addrs ++ [addr] })) :=
  perform_iff.mpr ⟨hstack, .addrAdd hdev⟩

theorem perform_netnsAdd {name : String} (hspace : h.hasSpace name = false) : h.perform who stack (.netnsAdd name) =
    some (h.withSpace { name, owner := who, lo := { name := "lo", stack := some name } }) :=
  perform_iff.mpr ⟨hstack, .netnsAdd hspace⟩

theorem perform_linkAdd {near far : String} (hne : near ≠ far) (hnear : h.has stack near = false)
    (hfar : h.has stack far = false) :
    h.perform who stack (.linkAdd near far) =
      some (h.withPair { owner := who, near := { name := near, stack }, far := { name := far, stack } }) :=
  perform_iff.mpr ⟨hstack, .linkAdd hne hnear hfar⟩

theorem perform_routeAdd {v6 : Bool} {dest via : String} {d : Subnet} {n : Nat} (hdest : parseDest v6 dest = some d)
    (hvia : plainAddress via = some (v6, n)) :
    h.perform who stack (.routeAdd v6 dest via dev) = h.addRoute stack d (v6, n) dev := by
  simp [perform, hstack, act, hdest, hvia]

omit hstack in
theorem addRoute_eq_some {dest : Subnet} {via : Bool × Nat} {h' : Host ω} : h.addRoute stack dest via dev = some h' ↔
    (dest.v6 = via.1 ∧ h.onLink stack dev via.1 via.2 = true ∧ h.refusesVia stack dev via.1 via.2 = false ∧
        h.hasRoute stack dest = false) ∧
      h' = h.withRoute { stack, dest, via := via.2, dev } := by
  unfold addRoute
  split
  · rename_i hok
    rw [Option.some.injEq]
    exact ⟨fun heq => ⟨hok, heq.symm⟩, fun heq => heq.2.symm⟩
  · rename_i hno
    constructor
    · intro heq
      cases heq
    · intro hok
      exact absurd hok.1 hno

omit hstack in
theorem has_of_onLink {v6 : Bool} {n : Nat} (hon : h.onLink stack dev v6 n = true) : h.has stack dev = true := by
  obtain ⟨e, he, hat⟩ := List.any_eq_true.mp hon
  exact List.any_eq_true.mpr ⟨e, he, (Bool.and_eq_true_iff.mp hat).1⟩

theorem perform_linkMove {space : String} (hdev : h.hasPair stack dev = true) (hspace : h.hasSpace space = true)
    (hfree : h.has (some space) dev = false) : h.perform who stack (.linkMove dev space) =
      some (prune (h.mapPairs (onEnd stack dev fun e => { e with stack := some space, isUp := false, addrs := [] }))) :=
  perform_iff.mpr ⟨hstack, .linkMove hdev hspace hfree⟩

end Commands

/-! ## The two ends of one pair -/

section Ends

variable {stack : Option String} {dev : String} {p : Pair ω} (hstack : h.hasStack stack = true)
    (hdev : h.has stack dev = false)

/-- Two addresses for an end, and the end brought up. -/
def endActs (stack : Option String) (dev addr4 addr6 : String) : List (Option String × Act) :=
  [(stack, .addrAdd addr4 dev), (stack, .addrAdd addr6 dev), (stack, .linkUp dev)]

def endSet (addr4 addr6 : String) (e : End) : End := { e with isUp := true, addrs := e.addrs ++ [addr4] ++ [addr6] }

include hstack

/-- Whatever changes this end in the pair changes nothing else, so the commands follow one another. -/
theorem performAll_end (q : End → Pair ω) (hat : ∀ e, e.at stack dev = true → (q e).any (·.at stack dev) = true)
    (hedit : ∀ e f, e.at stack dev = true → (h.withPair (q e)).mapEnds (onEnd stack dev f) = h.withPair (q (f e)))
    {e : End} (he : e.at stack dev = true) (addr4 addr6 : String) :
    (h.withPair (q e)).performAll who (endActs stack dev addr4 addr6) =
      some (h.withPair (q (endSet addr4 addr6 e))) := by
  have hin : ∀ x, (h.withPair (q x)).hasStack stack = true := fun x => hasStack_withPair.trans hstack
  have hhas : ∀ x : End, x.at stack dev = true → (h.withPair (q x)).has stack dev = true := by
    intro x hx
    rw [has_withPair, hat x hx, Bool.true_or]
  have haddr : ∀ x : End, x.at stack dev = true → ∀ addr, (h.withPair (q x)).perform who stack (.addrAdd addr dev) =
      some (h.withPair (q { x with addrs := x.addrs ++ [addr] })) := by
    intro x hx addr
    rw [perform_addrAdd (hin x) (hhas x hx), hedit x _ hx]
  have hup : ∀ x : End, x.at stack dev = true → (h.withPair (q x)).perform who stack (.linkUp dev) =
      some (h.withPair (q { x with isUp := true })) := by
    intro x hx
    rw [perform_linkUp (hin x) (hhas x hx), hedit x _ hx]
  have hat4 : End.at stack dev { e with addrs := e.addrs ++ [addr4] } = true := he
  have hat6 : End.at stack dev { e with addrs := e.addrs ++ [addr4] ++ [addr6] } = true := he
  simp only [endActs, performAll]
  rw [haddr e he, Option.bind_some, haddr _ hat4, Option.bind_some, hup _ hat6, Option.bind_some]
  rfl

include hdev

theorem performAll_near (hnear : p.near.at stack dev = true) (hfar : p.far.at stack dev = false)
    (addr4 addr6 : String) :
    (h.withPair p).performAll who (endActs stack dev addr4 addr6) =
      some (h.withPair { p with near := endSet addr4 addr6 p.near }) := by
  apply performAll_end hstack (fun e => { p with near := e })
  · intro e he
    simp only [Pair.any, he, Bool.true_or]
  · intro e f he
    exact edit_near he hfar hdev
  · exact hnear

theorem performAll_far (hnear : p.near.at stack dev = false) (hfar : p.far.at stack dev = true) (addr4 addr6 : String) :
    (h.withPair p).performAll who (endActs stack dev addr4 addr6) =
      some (h.withPair { p with far := endSet addr4 addr6 p.far }) := by
  apply performAll_end hstack (fun e => { p with far := e })
  · intro e he
    simp only [Pair.any, he, Bool.or_true]
  · intro e f he
    exact edit_far hnear he hdev
  · exact hfar

end Ends

/-! ## A pair between two stacks -/

section Veth

variable (who) {space near far : String} (hstack : h.hasStack stack = true) (hspace : h.hasSpace space = true)
    (hne : near ≠ far)
  (hnear : h.has stack near = false) (hfar : h.has stack far = false) (hfree : h.has (some space) far = false)
  (hapart : stack ≠ some space) (hlive : h.Live)

/-- The commands that build it, each in its stack. -/
def vethActs (stack : Option String) (space near far near4 near6 far4 far6 : String) : List (Option String × Act) :=
  [(stack, .linkAdd near far), (stack, .linkMove far space), (stack, .addrAdd near4 near), (stack, .addrAdd near6 near),
    (stack, .linkUp near), (some space, .addrAdd far4 far), (some space, .addrAdd far6 far), (some space, .linkUp far)]

def builtPair (who : ω) (stack : Option String) (space near far near4 near6 far4 far6 : String) : Pair ω where
  owner := who
  near := { name := near, stack, isUp := true, addrs := [near4, near6] }
  far := { name := far, stack := some space, isUp := true, addrs := [far4, far6] }

include hstack hspace hne hnear hfar hfree hapart hlive

/-- The pair is made in one stack, and its far end moved to the other. -/
theorem performAll_moved :
    h.performAll who [(stack, .linkAdd near far), (stack, .linkMove far space)] =
      some (h.withPair
        { owner := who, near := { name := near, stack }, far := { name := far, stack := some space } }) := by
  let made : Pair ω := { owner := who, near := { name := near, stack }, far := { name := far, stack } }
  have hpair : (h.withPair made).hasPair stack far = true := by
    simp [made, Pair.any, End.at]
  have hfree' : (h.withPair made).has (some space) far = false := by
    simp [made, Pair.any, End.at, hapart, hfree]
  rw [performAll, perform_linkAdd hstack hne hnear hfar, Option.bind_some, performAll,
    perform_linkMove (hasStack_withPair.trans hstack) hpair hspace hfree', Option.bind_some, mapPairs_withPair,
    mapPairs_absent hfar, (hlive.withPair _).prune, performAll]
  simp [made, Pair.map, onEnd, End.at, hne]

theorem performAll_veth (near4 near6 far4 far6 : String) :
    h.performAll who (vethActs stack space near far near4 near6 far4 far6) =
      some (h.withPair (builtPair who stack space near far near4 near6 far4 far6)) := by
  have hacts : vethActs stack space near far near4 near6 far4 far6 =
      [(stack, .linkAdd near far), (stack, .linkMove far space)] ++
        (endActs stack near near4 near6 ++ endActs (some space) far far4 far6) := rfl
  have hinside : h.hasStack (some space) = true := hspace
  have hnearAt : End.at stack near { name := near, stack } = true := by
    simp [End.at]
  have hfarAt : End.at (some space) far { name := far, stack := some space } = true := by
    simp [End.at]
  rw [hacts, performAll_append, performAll_moved who hstack hspace hne hnear hfar hfree hapart hlive, Option.bind_some,
    performAll_append, performAll_near hstack hnear hnearAt (by simp [End.at, Ne.symm hapart]), Option.bind_some,
    performAll_far hinside hfree (by simp [endSet, End.at, hapart]) hfarAt]
  rfl

end Veth

end Host

end NetHost
