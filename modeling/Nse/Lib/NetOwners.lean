/-
  Nse.Lib.NetOwners — what somebody has on a host, and the commands of somebody else.

  A command `Spares` an owner when it names none of the owner's namespaces and interfaces.
  Run by somebody else it leaves what the owner has as it is (`belongings_perform`), and it is
  not refused because of it: what is accepted on the host `without` the owner is accepted
  (`accepted_of_without`), a route as long as it is `Routable`. `ends_perform` is the invariant
  rule for the interfaces of an owner.
-/

import Nse.Lib.NetPairs

namespace NetHost

open IpAddress (parseSubnet plainAddress)

/-- The namespaces a command names. -/
def Act.spaceNames : Act → List String
  | .netnsAdd name => [name]
  | .netnsDel name => [name]
  | .linkMove _ space => [space]
  | _ => []

/-- The interfaces of its stack that a command names. -/
def Act.linkNames : Act → List String
  | .linkAdd near far => [near, far]
  | .linkMove dev _ => [dev]
  | .linkUp dev => [dev]
  | .linkDel dev => [dev]
  | .addrAdd _ dev => [dev]
  | .routeAdd _ _ _ dev => [dev]
  | _ => []

namespace Host

variable {ω : Type} [DecidableEq ω]

section Defs

variable (o : ω) (h : Host ω)

def endsOf : List End :=
  (h.spaces.filter (·.owner == o)).map (·.lo) ++ (h.pairs.filter (·.owner == o)).flatMap Pair.ends

/-- Namespaces, and pairs with the places of their ends. -/
def belongings : List (String × ω) × List (Seat ω) := (h.titles.filter (·.2 == o), h.seats.filter (·.owner == o))

/-- The host without the owner's namespaces, its pairs, and the routes through its interfaces. -/
def without : Host ω where
  spaces := h.spaces.filter (·.owner != o)
  pairs := h.pairs.filter (·.owner != o)
  fixed := h.fixed
  routes := h.routes.filter fun r => !(h.endsOf o).any (·.at r.stack r.dev)

structure Spares (stack : Option String) (a : Act) : Prop where
  spaces : ∀ n ∈ a.spaceNames, (n, o) ∉ h.titles ∧ ∀ e ∈ h.endsOf o, e.touches n = false
  links : ∀ d ∈ a.linkNames, ∀ e ∈ h.endsOf o, e.at stack d = false

/-- No route to the same network goes through an interface of the owner, and none of these
    has the gateway's address or an address in that network. -/
def Routable (stack : Option String) (a : Act) : Prop :=
  ∀ v6 dest via dev d n, a = .routeAdd v6 dest via dev → parseDest v6 dest = some d → plainAddress via = some n →
    (∀ r ∈ h.routes, r.stack = stack → r.dest.same d = true → ∀ e ∈ h.endsOf o, e.at r.stack r.dev = false) ∧
      ∀ e ∈ h.endsOf o, e.stack = stack → ∀ s ∈ e.addrs.filterMap parseSubnet,
        (s.v6 == n.1 && s.addr == n.2) = false ∧ (!s.v6 && s.same d) = false

end Defs

variable {o who : ω} {h h' : Host ω} {stack : Option String} {a : Act}

theorem mem_endsOf {e : End} : e ∈ h.endsOf o ↔
    (∃ s ∈ h.spaces, s.owner = o ∧ s.lo = e) ∨ ∃ p ∈ h.pairs, p.owner = o ∧ (e = p.near ∨ e = p.far) := by
  simp only [endsOf, List.mem_append, List.mem_map, List.mem_filter, List.mem_flatMap, beq_iff_eq,
    Pair.ends, List.mem_cons,
    List.not_mem_nil, or_false, and_assoc]

theorem mem_ends_of_endsOf {e : End} (he : e ∈ h.endsOf o) : e ∈ h.ends := by
  simp only [ends, List.mem_append, List.mem_map, List.mem_flatMap]
  rcases mem_endsOf.mp he with ⟨s, hs, -, hlo⟩ | ⟨p, hp, -, hend⟩
  · exact .inl (.inl ⟨s, hs, hlo⟩)
  · exact .inr ⟨p, hp, by simpa [Pair.ends] using hend⟩

/-- An owner's pair has an end where one of the owner's interfaces is. -/
theorem seat_any {q : Option String × String → Bool} (hq : ∀ e ∈ h.endsOf o, q e.place = false)
    {s : Seat ω} (hs : s ∈ h.seats)
    (ho : s.owner = o) : s.any q = false := by
  obtain ⟨p, hp, rfl⟩ := List.mem_map.mp hs
  have hnear := hq p.near (mem_endsOf.mpr (.inr ⟨p, hp, ho, .inl rfl⟩))
  have hfar := hq p.far (mem_endsOf.mpr (.inr ⟨p, hp, ho, .inr rfl⟩))
  rw [any_seat, Pair.any, hnear, hfar, Bool.or_false]

/-! ## What the owner has stays -/

omit [DecidableEq ω] in
theorem filter_kept {α : Type} {p q : α → Bool} {xs : List α} (h : ∀ x ∈ xs, q x = true → p x = true) :
    (xs.filter p).filter q = xs.filter q := by
  rw [List.filter_filter]
  apply List.filter_congr
  intro x hx
  cases hq : q x with
  | false => simp
  | true => simp [h x hx hq]

theorem titles_spared (hne : who ≠ o) (hs : h.Spares o stack a) :
    (a.retitle who h.titles).filter (·.2 == o) = h.titles.filter (·.2 == o) := by
  cases a with
  | netnsAdd name => simp [Act.retitle, hne]
  | netnsDel name =>
    apply filter_kept
    intro x hmem hq
    rw [bne_iff_ne]
    intro hname
    apply (hs.spaces name (List.mem_singleton.mpr rfl)).1
    rw [← hname, ← beq_iff_eq.mp hq]
    exact hmem
  | _ => rfl

theorem seats_spared (hne : who ≠ o) (hs : h.Spares o stack a) :
    (a.reseat who stack h.seats).filter (·.owner == o) = h.seats.filter (·.owner == o) := by
  cases a with
  | linkAdd near far => simp [Act.reseat, hne]
  | netnsDel name =>
    apply filter_kept
    intro s hmem ho
    have hany :=
      seat_any (q := (·.1 == some name)) (hs.spaces name (List.mem_singleton.mpr rfl)).2 hmem (beq_iff_eq.mp ho)
    rw [hany]
    rfl
  | linkDel dev =>
    apply filter_kept
    intro s hmem ho
    have hany := seat_any (q := (· == (stack, dev))) (hs.links dev (List.mem_singleton.mpr rfl)) hmem (beq_iff_eq.mp ho)
    rw [hany]
    rfl
  | linkMove dev space =>
    rw [Act.reseat, List.filter_map]
    have howner : ((fun s : Seat ω => s.owner == o) ∘ fun s : Seat ω => s.map (moveTo (stack, dev) space)) =
        fun s : Seat ω => s.owner == o := rfl
    rw [howner]
    apply map_self
    intro s hmem
    obtain ⟨hmem, ho⟩ := List.mem_filter.mp hmem
    have hany := seat_any (q := (· == (stack, dev))) (hs.links dev (List.mem_singleton.mpr rfl)) hmem (beq_iff_eq.mp ho)
    rw [Seat.any, Bool.or_eq_false_iff] at hany
    simp [Seat.map, moveTo, hany]
  | _ => rfl

/-- What the owner has stays as it is under a command of somebody else that names none of it. -/
theorem belongings_perform (hne : who ≠ o) (hs : h.Spares o stack a) (hperform : h.perform who stack a = some h') :
    h'.belongings o = h.belongings o := by
  rw [belongings, titles_perform hperform, seats_perform hperform, titles_spared hne hs, seats_spared hne hs]
  rfl

theorem seat_kept (hkept : h'.belongings o = h.belongings o) {s : Seat ω} (hs : s ∈ h.seats) (ho : s.owner = o) :
    s ∈ h'.seats := by
  have hseats : h'.seats.filter (·.owner == o) = h.seats.filter (·.owner == o) := congrArg Prod.snd hkept
  have hmem : s ∈ h'.seats.filter (·.owner == o) := by
    rw [hseats]
    exact List.mem_filter.mpr ⟨hs, beq_iff_eq.mpr ho⟩
  exact (List.mem_filter.mp hmem).1

/-! ## What the owner has stands in nobody's way -/

theorem hasSpace_of_without {name : String} (h' : (h.without o).hasSpace name = true) : h.hasSpace name = true := by
  obtain ⟨s, hs, hname⟩ := List.any_eq_true.mp h'
  exact List.any_eq_true.mpr ⟨s, (List.mem_filter.mp hs).1, hname⟩

theorem hasSpace_without {name : String} (hnot : (name, o) ∉ h.titles) (h' : (h.without o).hasSpace name = false) :
    h.hasSpace name = false := by
  rw [hasSpace, List.any_eq_false] at h' ⊢
  intro s hs hname
  rw [beq_iff_eq] at hname
  by_cases ho : s.owner = o
  · apply hnot
    rw [← hname, ← ho]
    exact List.mem_map.mpr ⟨s, hs, rfl⟩
  · exact h' s (List.mem_filter.mpr ⟨hs, by simpa using ho⟩) (beq_iff_eq.mpr hname)

theorem hasStack_of_without (h' : (h.without o).hasStack stack = true) : h.hasStack stack = true := by
  cases stack with
  | none => rfl
  | some name => exact hasSpace_of_without h'

theorem mem_of_without {e : End} (he : e ∈ (h.without o).ends) : e ∈ h.ends := by
  simp only [ends, without, List.mem_append, List.mem_map, List.mem_filter, List.mem_flatMap] at he ⊢
  rcases he with (⟨s, hs, hlo⟩ | hfixed) | ⟨p, hp, hend⟩
  · exact .inl (.inl ⟨s, hs.1, hlo⟩)
  · exact .inl (.inr hfixed)
  · exact .inr ⟨p, hp.1, hend⟩

/-- An interface is the owner's or is there without the owner. -/
theorem mem_without {e : End} (he : e ∈ h.ends) : e ∈ h.endsOf o ∨ e ∈ (h.without o).ends := by
  simp only [ends, without, List.mem_append, List.mem_map, List.mem_filter, List.mem_flatMap] at he ⊢
  rw [mem_endsOf]
  rcases he with (⟨s, hs, hlo⟩ | hfixed) | ⟨p, hp, hend⟩
  · by_cases ho : s.owner = o
    · exact .inl (.inl ⟨s, hs, ho, hlo⟩)
    · exact .inr (.inl (.inl ⟨s, ⟨hs, by simpa using ho⟩, hlo⟩))
  · exact .inr (.inl (.inr hfixed))
  · by_cases ho : p.owner = o
    · exact .inl (.inr ⟨p, hp, ho, by simpa [Pair.ends] using hend⟩)
    · exact .inr (.inr ⟨p, ⟨hp, by simpa using ho⟩, hend⟩)

theorem any_of_without {q : End → Bool} (h' : (h.without o).ends.any q = true) : h.ends.any q = true := by
  obtain ⟨e, he, hq⟩ := List.any_eq_true.mp h'
  exact List.any_eq_true.mpr ⟨e, mem_of_without he, hq⟩

theorem any_without {q : End → Bool} (hnot : ∀ e ∈ h.endsOf o, q e = false) (h' : (h.without o).ends.any q = false) :
    h.ends.any q = false := by
  rw [List.any_eq_false] at h' ⊢
  intro e he hq
  rcases mem_without he with hmine | hother
  · rw [hnot e hmine] at hq
    cases hq
  · exact h' e hother hq

theorem hasPair_of_without {dev : String} (h' : (h.without o).hasPair stack dev = true) :
    h.hasPair stack dev = true := by
  obtain ⟨p, hp, hend⟩ := List.any_eq_true.mp h'
  exact List.any_eq_true.mpr ⟨p, (List.mem_filter.mp hp).1, hend⟩

theorem isOwn_of_without {v6 : Bool} {n : Nat}
    (haddrs : ∀ e ∈ h.endsOf o, e.stack = stack → ∀ s ∈ e.addrs.filterMap parseSubnet,
    (s.v6 == v6 && s.addr == n) = false) (hown : (h.without o).isOwn stack v6 n = false) : h.isOwn stack v6 n =
      false := by
  apply any_without _ hown
  intro e he
  rw [Bool.and_eq_false_imp]
  intro hstack
  rw [List.any_eq_false]
  intro s hs
  rw [haddrs e he (beq_iff_eq.mp hstack) s hs]
  exact Bool.false_ne_true

/-- An interface that is not the owner's is as it is without the owner. -/
theorem any_at_without {dev : String} (hnot : ∀ e ∈ h.endsOf o, e.at stack dev = false) (q : End → Bool) :
    ((h.without o).ends.any fun e => e.at stack dev && q e) = h.ends.any fun e => e.at stack dev && q e := by
  rw [Bool.eq_iff_iff]
  refine ⟨any_of_without, fun hany => ?_⟩
  obtain ⟨e, he, hq⟩ := List.any_eq_true.mp hany
  rcases mem_without he with hmine | hother
  · rw [hnot e hmine] at hq
    cases hq
  · exact List.any_eq_true.mpr ⟨e, hother, hq⟩

theorem refusesVia_of_without {dev : String} {v6 : Bool} {n : Nat} (hnot : ∀ e ∈ h.endsOf o, e.at stack dev = false)
    (haddrs : ∀ e ∈ h.endsOf o, e.stack = stack → ∀ s ∈ e.addrs.filterMap parseSubnet,
      (s.v6 == v6 && s.addr == n) = false)
    (hvia : (h.without o).refusesVia stack dev v6 n = false) : h.refusesVia stack dev v6 n = false := by
  cases v6 with
  | true => exact isOwn_of_without haddrs hvia
  | false =>
    simp only [refusesVia, isBroadcast, hasAddr, any_at_without hnot] at hvia
    exact hvia

theorem hasRoute_of_without {d : IpAddress.Subnet}
    (hroutes : ∀ r ∈ h.routes, r.stack = stack → r.dest.same d = true → ∀ e ∈ h.endsOf o, e.at r.stack r.dev = false)
    (haddrs : ∀ e ∈ h.endsOf o, e.stack = stack → ∀ s ∈ e.addrs.filterMap parseSubnet, (!s.v6 && s.same d) = false)
    (hroute : (h.without o).hasRoute stack d = false) : h.hasRoute stack d = false := by
  rw [hasRoute, Bool.or_eq_false_iff] at hroute ⊢
  constructor
  · rw [List.any_eq_false]
    intro r hr hsame
    apply List.any_eq_false.mp hroute.1 r _ hsame
    obtain ⟨hstack, hdest⟩ := Bool.and_eq_true_iff.mp hsame
    apply List.mem_filter.mpr
    refine ⟨hr, ?_⟩
    rw [Bool.not_eq_true', List.any_eq_false]
    intro e he
    rw [hroutes r hr (beq_iff_eq.mp hstack) hdest e he]
    exact Bool.false_ne_true
  · apply any_without _ hroute.2
    intro e he
    rw [Bool.and_assoc, Bool.and_eq_false_imp]
    intro hstack
    rw [Bool.and_eq_false_imp]
    intro _
    rw [List.any_eq_false]
    intro s hs
    rw [haddrs e he (beq_iff_eq.mp hstack) s hs]
    exact Bool.false_ne_true

/-- What is accepted without the owner is accepted. -/
theorem accepted_of_without (hs : h.Spares o stack a) (hroutable : h.Routable o stack a) {h₁ : Host ω}
    (hperform : (h.without o).perform who stack a = some h₁) : ∃ h₂, h.perform who stack a = some h₂ := by
  obtain ⟨hstack, hacted⟩ := perform_iff.mp hperform
  have haccepted : ∀ {h₂ : Host ω}, Acted who h stack a h₂ → ∃ h₂, h.perform who stack a = some h₂ :=
    fun hacted => ⟨_, perform_iff.mpr ⟨hasStack_of_without hstack, hacted⟩⟩
  cases hacted with
  | netnsAdd hspace =>
    exact haccepted (.netnsAdd (hasSpace_without (hs.spaces _ (List.mem_singleton.mpr rfl)).1 hspace))
  | netnsDel hspace => exact haccepted (.netnsDel (hasSpace_of_without hspace))
  | linkAdd hne hnear hfar =>
    have hnear' : h.has stack _ = false := any_without (hs.links _ (by simp [Act.linkNames])) hnear
    have hfar' : h.has stack _ = false := any_without (hs.links _ (by simp [Act.linkNames])) hfar
    exact haccepted (.linkAdd hne hnear' hfar')
  | @linkMove dev space hpair hspace hfree =>
    have hvacant : h.has (some space) dev = false := by
      apply any_without _ hfree
      intro e he
      have htouches := (hs.spaces space (List.mem_singleton.mpr rfl)).2 e he
      rw [End.touches] at htouches
      rw [End.at, htouches, Bool.false_and]
    exact haccepted (.linkMove (hasPair_of_without hpair) (hasSpace_of_without hspace) hvacant)
  | linkUp hdev => exact haccepted (.linkUp (any_of_without hdev))
  | linkDel hpair => exact haccepted (.linkDel (hasPair_of_without hpair))
  | addrAdd hdev => exact haccepted (.addrAdd (any_of_without hdev))
  | routeAdd hd hn hfamily hon hvia hroute =>
    obtain ⟨hroutes, haddrs⟩ := hroutable _ _ _ _ _ _ rfl hd hn
    have hnot : ∀ e ∈ h.endsOf o, e.at stack _ = false := hs.links _ (List.mem_singleton.mpr rfl)
    have hvia' := refusesVia_of_without hnot (fun e he hstack s hs => (haddrs e he hstack s hs).1) hvia
    have hroute' := hasRoute_of_without hroutes (fun e he hstack s hs => (haddrs e he hstack s hs).2) hroute
    exact haccepted (.routeAdd hd hn hfamily (any_of_without hon) hvia' hroute')
  | other => exact haccepted .other

/-! ## The invariant rule for an owner's interfaces -/

/-- The command keeps `P` of these interfaces, the ones it makes included where they are the
    owner's. -/
def Keeps (P : End → Prop) (mine : Prop) (ends : List End) (stack : Option String) : Act → Prop
  | .netnsAdd name => mine → P { name := "lo", stack := some name }
  | .linkAdd near far => mine → P { name := near, stack } ∧ P { name := far, stack }
  | .linkMove dev space =>
    ∀ e ∈ ends, e.at stack dev = true → P e → P { e with stack := some space, isUp := false, addrs := [] }
  | .linkUp dev => ∀ e ∈ ends, e.at stack dev = true → P e → P { e with isUp := true }
  | .addrAdd addr dev => ∀ e ∈ ends, e.at stack dev = true → P e → P { e with addrs := e.addrs ++ [addr] }
  | _ => True

@[simp] theorem endsOf_prune : h.prune.endsOf o = h.endsOf o := rfl

theorem mem_mapEnds {f : End → End} {e : End} (he : e ∈ (h.mapEnds f).endsOf o) : ∃ e₀ ∈ h.endsOf o, e = f e₀ := by
  rcases mem_endsOf.mp he with ⟨s, hs, ho, rfl⟩ | ⟨p, hp, ho, hend⟩
  · obtain ⟨t, ht, rfl⟩ := List.mem_map.mp hs
    exact ⟨t.lo, mem_endsOf.mpr (.inl ⟨t, ht, ho, rfl⟩), rfl⟩
  · obtain ⟨q, hq, rfl⟩ := List.mem_map.mp hp
    rcases hend with rfl | rfl
    · exact ⟨q.near, mem_endsOf.mpr (.inr ⟨q, hq, ho, .inl rfl⟩), rfl⟩
    · exact ⟨q.far, mem_endsOf.mpr (.inr ⟨q, hq, ho, .inr rfl⟩), rfl⟩

theorem mem_mapPairs {f : End → End} {e : End} (he : e ∈ (h.mapPairs f).endsOf o) :
    e ∈ h.endsOf o ∨ ∃ e₀ ∈ h.endsOf o, e = f e₀ := by
  rcases mem_endsOf.mp he with ⟨s, hs, ho, rfl⟩ | ⟨p, hp, ho, hend⟩
  · exact .inl (mem_endsOf.mpr (.inl ⟨s, hs, ho, rfl⟩))
  · obtain ⟨q, hq, rfl⟩ := List.mem_map.mp hp
    rcases hend with rfl | rfl
    · exact .inr ⟨q.near, mem_endsOf.mpr (.inr ⟨q, hq, ho, .inl rfl⟩), rfl⟩
    · exact .inr ⟨q.far, mem_endsOf.mpr (.inr ⟨q, hq, ho, .inr rfl⟩), rfl⟩

/-- An owner that keeps fewer namespaces and pairs keeps no other interface. -/
theorem endsOf_mono {h' : Host ω} (hspaces : ∀ s ∈ h'.spaces, s ∈ h.spaces)
    (hpairs : ∀ p ∈ h'.pairs, p ∈ h.pairs) {e : End}
    (he : e ∈ h'.endsOf o) : e ∈ h.endsOf o := by
  rcases mem_endsOf.mp he with ⟨s, hs, ho, hlo⟩ | ⟨p, hp, ho, hend⟩
  · exact mem_endsOf.mpr (.inl ⟨s, hspaces s hs, ho, hlo⟩)
  · exact mem_endsOf.mpr (.inr ⟨p, hpairs p hp, ho, hend⟩)

section Invariant

variable {P : End → Prop}

theorem onEnd_kept {dev : String} {f : End → End} (hP : ∀ e ∈ h.endsOf o, P e)
    (hf : ∀ e ∈ h.endsOf o, e.at stack dev = true → P e → P (f e)) {e : End} (he : e ∈ h.endsOf o) :
      P (onEnd stack dev f e) := by
  unfold onEnd
  split
  · rename_i hat
    exact hf e he hat (hP e he)
  · exact hP e he

/-- What a command keeps of an owner's interfaces holds of them afterwards. -/
theorem ends_perform (hk : Keeps P (who = o) (h.endsOf o) stack a) (hP : ∀ e ∈ h.endsOf o, P e)
    (hperform : h.perform who stack a = some h') : ∀ e ∈ h'.endsOf o, P e := by
  intro e he
  cases (perform_iff.mp hperform).2 with
  | netnsAdd hspace =>
    rcases mem_endsOf.mp he with ⟨s, hs, ho, rfl⟩ | ⟨p, hp, ho, hend⟩
    · rcases List.mem_cons.mp hs with rfl | hs
      · exact hk ho
      · exact hP _ (mem_endsOf.mpr (.inl ⟨s, hs, ho, rfl⟩))
    · exact hP e (mem_endsOf.mpr (.inr ⟨p, hp, ho, hend⟩))
  | netnsDel hspace =>
    rw [endsOf_prune] at he
    exact hP e (endsOf_mono (fun s hs => (List.mem_filter.mp hs).1) (fun p hp => (List.mem_filter.mp hp).1) he)
  | linkAdd hne hnear hfar =>
    rcases mem_endsOf.mp he with ⟨s, hs, ho, hlo⟩ | ⟨p, hp, ho, hend⟩
    · exact hP e (mem_endsOf.mpr (.inl ⟨s, hs, ho, hlo⟩))
    · rcases List.mem_cons.mp hp with rfl | hp
      · rcases hend with rfl | rfl
        · exact (hk ho).1
        · exact (hk ho).2
      · exact hP e (mem_endsOf.mpr (.inr ⟨p, hp, ho, hend⟩))
  | linkMove hpair hspace hfree =>
    rw [endsOf_prune] at he
    rcases mem_mapPairs he with he | ⟨e₀, he₀, rfl⟩
    · exact hP e he
    · exact onEnd_kept hP hk he₀
  | linkUp hdev =>
    obtain ⟨e₀, he₀, rfl⟩ := mem_mapEnds he
    exact onEnd_kept hP hk he₀
  | linkDel hpair =>
    rw [endsOf_prune] at he
    apply hP e
    apply endsOf_mono _ _ he
    · exact fun s hs => hs
    · exact fun p hp => (List.mem_filter.mp hp).1
  | addrAdd hdev =>
    obtain ⟨e₀, he₀, rfl⟩ := mem_mapEnds he
    exact onEnd_kept hP hk he₀
  | routeAdd hd hn hfamily hon hvia hroute => exact hP e he
  | other => exact hP e he

end Invariant

end Host

end NetHost
