/-
  Nse.Lib.NetParts — a host as two sides have it.

  Every owner is on one of two sides, and so are the interfaces that have no owner. A command
  is `Within` a side when it runs in a stack of that side and names nothing of the other. Then

  - `part_inside`: it does to the side's part of the host what it does to the host;
  - `part_outside`: it leaves the other side's part as it is.

  So where the commands of two sides interleave, each part is what the commands of its own
  side alone would make of it. What is within a side is within every larger one
  (`Within.mono`), so a host may have more than two users.
-/

import Nse.Lib.NetOwners

namespace NetHost

/-- The namespaces a command makes. -/
def Act.newSpaces : Act → List String
  | .netnsAdd name => [name]
  | _ => []

/-- The interfaces a command makes in its stack, beside a loopback. -/
def Act.newLinks : Act → List String
  | .linkAdd near far => [near, far]
  | _ => []

structure Side (ω : Type) where
  owners : ω → Bool
  /-- The interfaces that have no owner are on this side. -/
  unowned : Bool

namespace Side

variable {ω : Type}

def other (s : Side ω) : Side ω := { owners := fun o => !s.owners o, unowned := !s.unowned }

@[simp] theorem other_other (s : Side ω) : s.other.other = s := by simp [other]

/-- All of `s` is on the side `t` too. -/
structure Le (s t : Side ω) : Prop where
  owners : ∀ o, s.owners o = true → t.owners o = true
  unowned : s.unowned = true → t.unowned = true

theorem Le.other {s t : Side ω} (h : s.Le t) : t.other.Le s.other where
  owners o ho := by
    have := h.owners o
    simp only [Side.other, Bool.not_eq_true'] at ho ⊢
    grind
  unowned hu := by
    have := h.unowned
    simp only [Side.other, Bool.not_eq_true'] at hu ⊢
    grind

end Side

namespace Host

variable {ω : Type}

section Defs

variable (s : Side ω) (h : Host ω)

/-- What this side has, and the routes through it. -/
def part : Host ω :=
  prune { h with
    spaces := h.spaces.filter fun sp => s.owners sp.owner, pairs := h.pairs.filter fun p => s.owners p.owner
    fixed := if s.unowned then h.fixed else [] }

structure Within (stack : Option String) (a : Act) : Prop where
  here : (h.part s).hasStack stack = true
  spaces : ∀ n ∈ a.spaceNames, (h.part s.other).hasSpace n = false ∧ ∀ e ∈ (h.part s.other).ends, e.touches n = false
  links : ∀ d ∈ a.linkNames, (h.part s.other).has stack d = false

end Defs

variable {s : Side ω} {who : ω} {h h' : Host ω} {stack : Option String} {dev name : String} {a : Act}

/-! ## What is in a part -/

theorem mem_part {e : End} : e ∈ (h.part s).ends ↔ (∃ sp ∈ h.spaces, s.owners sp.owner = true ∧ sp.lo = e) ∨
    (s.unowned = true ∧ e ∈ h.fixed) ∨ ∃ p ∈ h.pairs, s.owners p.owner = true ∧ e ∈ p.ends := by
  cases hu : s.unowned <;> simp [part, prune, ends, hu, and_assoc]

theorem mem_of_part {e : End} (he : e ∈ (h.part s).ends) : e ∈ h.ends := by
  simp only [ends, List.mem_append, List.mem_map, List.mem_flatMap]
  rcases mem_part.mp he with ⟨sp, hsp, -, hlo⟩ | ⟨-, hfixed⟩ | ⟨p, hp, -, hend⟩
  · exact .inl (.inl ⟨sp, hsp, hlo⟩)
  · exact .inl (.inr hfixed)
  · exact .inr ⟨p, hp, hend⟩

/-- Every interface is on one side. -/
theorem mem_sides {e : End} (he : e ∈ h.ends) : e ∈ (h.part s).ends ∨ e ∈ (h.part s.other).ends := by
  rw [mem_part, mem_part]
  simp only [ends, List.mem_append, List.mem_map, List.mem_flatMap] at he
  rcases he with (⟨sp, hsp, hlo⟩ | hfixed) | ⟨p, hp, hend⟩
  · cases ho : s.owners sp.owner with
    | true => exact .inl (.inl ⟨sp, hsp, ho, hlo⟩)
    | false => exact .inr (.inl ⟨sp, hsp, by simp [Side.other, ho], hlo⟩)
  · cases hu : s.unowned with
    | true => exact .inl (.inr (.inl ⟨rfl, hfixed⟩))
    | false => exact .inr (.inr (.inl ⟨by simp [Side.other, hu], hfixed⟩))
  · cases ho : s.owners p.owner with
    | true => exact .inl (.inr (.inr ⟨p, hp, ho, hend⟩))
    | false => exact .inr (.inr (.inr ⟨p, hp, by simp [Side.other, ho], hend⟩))

theorem any_of_part {q : End → Bool} (hq : (h.part s).ends.any q = true) : h.ends.any q = true := by
  obtain ⟨e, he, hq⟩ := List.any_eq_true.mp hq
  exact List.any_eq_true.mpr ⟨e, mem_of_part he, hq⟩

theorem any_part_eq_false {q : End → Bool} (hq : h.ends.any q = false) : (h.part s).ends.any q = false := by
  rw [Bool.eq_false_iff] at hq ⊢
  exact fun hpart => hq (any_of_part hpart)

/-- An interface that is not on the other side is as it is on this one. -/
theorem any_at_part (habsent : (h.part s.other).has stack dev = false) (q : End → Bool) :
    ((h.part s).ends.any fun e => e.at stack dev && q e) = h.ends.any fun e => e.at stack dev && q e := by
  rw [Bool.eq_iff_iff]
  refine ⟨any_of_part, fun hany => ?_⟩
  obtain ⟨e, he, hq⟩ := List.any_eq_true.mp hany
  rcases mem_sides (s := s) he with he | he
  · exact List.any_eq_true.mpr ⟨e, he, hq⟩
  · exact absurd (Bool.and_eq_true_iff.mp hq).1 (List.any_eq_false.mp habsent e he)

theorem has_of_part (hdev : (h.part s).has stack dev = true) : h.has stack dev = true := any_of_part hdev

theorem has_part (hother : (h.part s.other).has stack dev = false) (hdev : h.has stack dev = true) :
    (h.part s).has stack dev = true := by
  obtain ⟨e, he, hat⟩ := List.any_eq_true.mp hdev
  rcases mem_sides (s := s) he with he | he
  · exact List.any_eq_true.mpr ⟨e, he, hat⟩
  · exact absurd hat (List.any_eq_false.mp hother e he)

theorem hasSpace_of_part (hspace : (h.part s).hasSpace name = true) : h.hasSpace name = true := by
  obtain ⟨sp, hsp, hname⟩ := List.any_eq_true.mp hspace
  exact List.any_eq_true.mpr ⟨sp, (List.mem_filter.mp hsp).1, hname⟩

theorem hasSpace_part_eq_false (hspace : h.hasSpace name = false) : (h.part s).hasSpace name = false := by
  rw [Bool.eq_false_iff] at hspace ⊢
  exact fun hpart => hspace (hasSpace_of_part hpart)

theorem hasSpace_part (hother : (h.part s.other).hasSpace name = false) (hspace : h.hasSpace name = true) :
    (h.part s).hasSpace name = true := by
  obtain ⟨sp, hsp, hname⟩ := List.any_eq_true.mp hspace
  cases ho : s.owners sp.owner with
  | true => exact List.any_eq_true.mpr ⟨sp, List.mem_filter.mpr ⟨hsp, ho⟩, hname⟩
  | false =>
    have hmem : sp ∈ (h.part s.other).spaces := List.mem_filter.mpr ⟨hsp, by simp [Side.other, ho]⟩
    exact absurd hname (List.any_eq_false.mp hother sp hmem)

theorem hasPair_part (hother : (h.part s.other).has stack dev = false) (hpair : h.hasPair stack dev = true) :
    (h.part s).hasPair stack dev = true := by
  obtain ⟨p, hp, hany⟩ := List.any_eq_true.mp hpair
  cases ho : s.owners p.owner with
  | true => exact List.any_eq_true.mpr ⟨p, List.mem_filter.mpr ⟨hp, ho⟩, hany⟩
  | false =>
    have hmem : p ∈ (h.part s.other).pairs := List.mem_filter.mpr ⟨hp, by simp [Side.other, ho]⟩
    have hthere : (h.part s.other).hasPair stack dev = true := List.any_eq_true.mpr ⟨p, hmem, hany⟩
    rw [hasPair_of_has hother] at hthere
    cases hthere

/-! ## Larger sides -/

section Larger

variable {t : Side ω}

theorem mem_part_mono (hle : s.Le t) {e : End} (he : e ∈ (h.part s).ends) : e ∈ (h.part t).ends := by
  rcases mem_part.mp he with ⟨sp, hsp, ho, hlo⟩ | ⟨hu, hfixed⟩ | ⟨p, hp, ho, hend⟩
  · exact mem_part.mpr (.inl ⟨sp, hsp, hle.owners _ ho, hlo⟩)
  · exact mem_part.mpr (.inr (.inl ⟨hle.unowned hu, hfixed⟩))
  · exact mem_part.mpr (.inr (.inr ⟨p, hp, hle.owners _ ho, hend⟩))

theorem hasSpace_part_mono (hle : s.Le t) (hspace : (h.part s).hasSpace name = true) :
    (h.part t).hasSpace name = true := by
  obtain ⟨sp, hsp, hname⟩ := List.any_eq_true.mp hspace
  obtain ⟨hmem, ho⟩ := List.mem_filter.mp hsp
  exact List.any_eq_true.mpr ⟨sp, List.mem_filter.mpr ⟨hmem, hle.owners _ ho⟩, hname⟩

theorem has_part_mono (hle : s.Le t) (hdev : (h.part s).has stack dev = true) : (h.part t).has stack dev = true := by
  obtain ⟨e, he, hat⟩ := List.any_eq_true.mp hdev
  exact List.any_eq_true.mpr ⟨e, mem_part_mono hle he, hat⟩

theorem Within.mono (hle : s.Le t) (hw : h.Within s stack a) : h.Within t stack a where
  here := by
    cases stack with
    | none => rfl
    | some n => exact hasSpace_part_mono hle hw.here
  spaces n hn := by
    obtain ⟨hspace, hends⟩ := hw.spaces n hn
    refine ⟨?_, fun e he => hends e (mem_part_mono hle.other he)⟩
    rw [Bool.eq_false_iff] at hspace ⊢
    exact fun hlarge => hspace (hasSpace_part_mono hle.other hlarge)
  links d hd := by
    have hnone := hw.links d hd
    rw [Bool.eq_false_iff] at hnone ⊢
    exact fun hlarge => hnone (has_part_mono hle.other hlarge)

end Larger

/-! ## What changes on neither side -/

theorem filter_filter_of_imp {α : Type} {p q : α → Bool} {xs : List α} (hpq : ∀ x ∈ xs, p x = true → q x = true) :
    (xs.filter q).filter p = xs.filter p := by
  rw [List.filter_filter]
  apply List.filter_congr
  intro x hx
  cases hp : p x with
  | false => rfl
  | true => rw [hpq x hx hp, Bool.and_true]

theorem filter_swap {α : Type} {p q : α → Bool} (xs : List α) : (xs.filter p).filter q = (xs.filter q).filter p := by
  simp only [List.filter_filter, Bool.and_comm]

/-- A part keeps no route that the host drops. -/
theorem part_prune : h.prune.part s = h.part s := by
  have hroutes : (h.routes.filter fun r => h.has r.stack r.dev).filter (fun r => (h.part s).has r.stack r.dev) =
      h.routes.filter fun r => (h.part s).has r.stack r.dev :=
    filter_filter_of_imp fun r _ hr => has_of_part hr
  exact congrArg (fun routes => { h.part s with routes }) hroutes

theorem ext_of {h h' : Host ω} (hspaces : h'.spaces = h.spaces) (hpairs : h'.pairs = h.pairs)
    (hfixed : h'.fixed = h.fixed)
    (hroutes : h'.routes = h.routes) : h' = h := by
  cases h
  cases h'
  cases hspaces
  cases hpairs
  cases hfixed
  cases hroutes
  rfl

/-- Two hosts with the same interfaces on a side and the same routes through them. -/
theorem part_congr (hspaces : (h'.part s).spaces = (h.part s).spaces) (hpairs : (h'.part s).pairs = (h.part s).pairs)
    (hfixed : (h'.part s).fixed = (h.part s).fixed)
    (hroutes : h'.routes.filter (fun r => (h.part s).has r.stack r.dev) = h.routes.filter fun r =>
      (h.part s).has r.stack r.dev) :
    h'.part s = h.part s := by
  have hends : (h'.part s).ends = (h.part s).ends := by
    rw [ends, ends, hspaces, hpairs, hfixed]
  have hkept : (h'.part s).routes = (h.part s).routes := by
    have hall : (h'.part s).routes = h'.routes.filter fun r => (h'.part s).has r.stack r.dev := rfl
    rw [hall]
    unfold has at hroutes ⊢
    rw [hends]
    exact hroutes
  exact ext_of hspaces hpairs hfixed hkept

section Outside

/-- The change of an end that is not there changes nothing. -/
theorem pairs_absent {f : End → End} (hdev : (h.part s).has stack dev = false) :
    ((h.mapPairs (onEnd stack dev f)).part s).pairs = (h.part s).pairs := by
  have hsame : ((h.mapPairs (onEnd stack dev f)).part s).pairs = ((h.part s).mapPairs (onEnd stack dev f)).pairs := by
    simp only [part, prune, mapPairs, List.filter_map]
    rfl
  rw [hsame, mapPairs_absent hdev]

theorem mapEnds_part (f : End → End) : ((h.mapEnds f).part s).spaces = ((h.part s).mapEnds f).spaces ∧
    ((h.mapEnds f).part s).pairs = ((h.part s).mapEnds f).pairs ∧ ((h.mapEnds f).part s).fixed =
      ((h.part s).mapEnds f).fixed := by
  refine ⟨?_, ?_, ?_⟩
  · simp only [part, prune, mapEnds, List.filter_map]
    rfl
  · simp only [part, prune, mapEnds, List.filter_map]
    rfl
  · simp only [part, prune, mapEnds]
    split <;> rfl

theorem part_mapEnds_absent {f : End → End} (hdev : (h.part s).has stack dev = false) :
    (h.mapEnds (onEnd stack dev f)).part s = h.part s := by
  obtain ⟨hspaces, hpairs, hfixed⟩ := mapEnds_part (s := s) (h := h) (onEnd stack dev f)
  rw [mapEnds_absent hdev] at hspaces hpairs hfixed
  exact part_congr hspaces hpairs hfixed rfl

/-- A command within one side leaves the other side as it is. -/
theorem part_outside (hwho : s.owners who = true) (hw : h.Within s stack a)
    (hperform : h.perform who stack a = some h') :
    h'.part s.other = h.part s.other := by
  have hnot : s.other.owners who = false := by simp [Side.other, hwho]
  cases (perform_iff.mp hperform).2 with
  | netnsAdd hspace =>
    refine part_congr ?_ rfl rfl rfl
    simp [part, prune, hnot]
  | @netnsDel name hspace =>
    obtain ⟨habsent, hvacant⟩ := hw.spaces name (List.mem_singleton.mpr rfl)
    rw [part_prune]
    refine part_congr ?_ ?_ rfl rfl
    · show (h.spaces.filter (·.name != name)).filter (fun sp => s.other.owners sp.owner) =
        h.spaces.filter fun sp => s.other.owners sp.owner
      apply filter_filter_of_imp
      intro sp hsp ho
      rw [bne_iff_ne]
      rintro rfl
      exact absurd (beq_self_eq_true _) (List.any_eq_false.mp habsent sp (List.mem_filter.mpr ⟨hsp, ho⟩))
    · show (h.pairs.filter fun p => !p.any (·.touches name)).filter (fun p => s.other.owners p.owner) =
        h.pairs.filter fun p => s.other.owners p.owner
      apply filter_filter_of_imp
      intro p hp ho
      have hends : ∀ e ∈ p.ends, e.touches name = false :=
        fun e he => hvacant e (mem_part.mpr (.inr (.inr ⟨p, hp, ho, he⟩)))
      rw [Pair.any, hends p.near (by simp [Pair.ends]), hends p.far (by simp [Pair.ends])]
      rfl
  | linkAdd hne hnear hfar =>
    refine part_congr rfl ?_ rfl rfl
    simp [part, prune, hnot]
  | @linkMove dev space hpair hspace hfree =>
    rw [part_prune]
    exact part_congr rfl (pairs_absent (hw.links dev (List.mem_singleton.mpr rfl))) rfl rfl
  | @linkUp dev hdev => exact part_mapEnds_absent (hw.links dev (List.mem_singleton.mpr rfl))
  | @linkDel dev hpair =>
    have habsent := hw.links dev (List.mem_singleton.mpr rfl)
    rw [part_prune]
    refine part_congr rfl ?_ rfl rfl
    show (h.pairs.filter fun p => !p.any (·.at stack dev)).filter (fun p => s.other.owners p.owner) =
      h.pairs.filter fun p => s.other.owners p.owner
    apply filter_filter_of_imp
    intro p hp ho
    have hends : ∀ e ∈ p.ends, e.at stack dev = false := by
      intro e he
      simpa using List.any_eq_false.mp habsent e (mem_part.mpr (.inr (.inr ⟨p, hp, ho, he⟩)))
    rw [Pair.any, hends p.near (by simp [Pair.ends]), hends p.far (by simp [Pair.ends])]
    rfl
  | @addrAdd addr dev hdev => exact part_mapEnds_absent (hw.links dev (List.mem_singleton.mpr rfl))
  | @routeAdd v6 dest via dev d n hd hn hfamily hon hvia hroute =>
    have habsent := hw.links dev (List.mem_singleton.mpr rfl)
    refine part_congr rfl rfl rfl ?_
    rw [List.filter_cons_of_neg (by simp [habsent])]
  | other => rfl

end Outside

/-! ## What a command does on its own side -/

section Inside

theorem part_withSpace {sp : Space ω} (ho : s.owners sp.owner = true)
    (hfree : ∀ r ∈ h.routes, sp.lo.at r.stack r.dev = false) :
    (h.withSpace sp).part s = (h.part s).withSpace sp := by
  refine ext_of ?_ rfl rfl ?_
  · simp [part, prune, withSpace, ho]
  · apply List.filter_congr
    intro r hr
    have hhas : ((h.withSpace sp).part s).has r.stack r.dev =
        (sp.lo.at r.stack r.dev || (h.part s).has r.stack r.dev) := by
      simp [part, prune, withSpace, has, ends, ho]
    show ((h.withSpace sp).part s).has r.stack r.dev = _
    rw [hhas, hfree r hr, Bool.false_or]
    rfl

theorem part_withPair {p : Pair ω} (ho : s.owners p.owner = true)
    (hfree : ∀ r ∈ h.routes, p.any (·.at r.stack r.dev) = false) :
    (h.withPair p).part s = (h.part s).withPair p := by
  refine ext_of rfl ?_ rfl ?_
  · simp [part, prune, withPair, ho]
  · apply List.filter_congr
    intro r hr
    have hpairs : ((h.withPair p).part s).pairs = ((h.part s).withPair p).pairs := by
      simp [part, prune, withPair, ho]
    have hends : ((h.withPair p).part s).ends = ((h.part s).withPair p).ends := by
      rw [ends, ends, hpairs]
      rfl
    have hhas : ((h.withPair p).part s).has r.stack r.dev = ((h.part s).withPair p).has r.stack r.dev := by
      rw [has, has, hends]
    show ((h.withPair p).part s).has r.stack r.dev = _
    rw [hhas, has_withPair, hfree r hr, Bool.false_or]
    rfl

/-- A part from which interfaces were taken or moved, and then the routes that lost theirs. -/
theorem part_eq_prune {h₁ k : Host ω} (hroutes : h₁.routes = h.routes) (hkept : k.routes = (h.part s).routes)
    (hspaces : (h₁.part s).spaces = k.spaces) (hpairs : (h₁.part s).pairs = k.pairs)
      (hfixed : (h₁.part s).fixed = k.fixed)
    (hold : ∀ r ∈ h.routes, k.has r.stack r.dev = true → (h.part s).has r.stack r.dev = true) :
      h₁.part s = k.prune := by
  have hends : (h₁.part s).ends = k.ends := by
    rw [ends, ends, hspaces, hpairs, hfixed]
  have hall : (h₁.part s).routes = h.routes.filter fun r => k.has r.stack r.dev := by
    have hfilter : (h₁.part s).routes = h₁.routes.filter fun r => (h₁.part s).has r.stack r.dev := rfl
    rw [hfilter, hroutes]
    unfold has
    rw [hends]
  refine ext_of hspaces hpairs hfixed ?_
  rw [hall]
  show _ = k.routes.filter fun r => k.has r.stack r.dev
  rw [hkept]
  exact (filter_filter_of_imp hold).symm

theorem ends_mapEnds (f : End → End) : (h.mapEnds f).ends = h.ends.map f := by
  have hpair : ∀ p : Pair ω, (p.map f).ends = p.ends.map f := fun _ => rfl
  simp [ends, mapEnds, List.map_flatMap, List.flatMap_map, hpair]

/-- An end that is changed where it stands. -/
theorem has_mapEnds {stack' : Option String} {dev' : String} {f : End → End} (hf : ∀ e, (f e).place = e.place) :
    (h.mapEnds (onEnd stack dev f)).has stack' dev' = h.has stack' dev' := by
  have hsame : ∀ e : End, (onEnd stack dev f e).at stack' dev' = e.at stack' dev' := by
    intro e
    rw [at_eq, at_eq]
    unfold onEnd
    split
    · rw [hf]
    · rfl
  rw [has, ends_mapEnds, List.any_map]
  exact congrArg h.ends.any (funext hsame)

theorem part_mapEnds {f : End → End} (hf : ∀ e, (f e).place = e.place) :
    (h.mapEnds (onEnd stack dev f)).part s = (h.part s).mapEnds (onEnd stack dev f) := by
  obtain ⟨hspaces, hpairs, hfixed⟩ := mapEnds_part (s := s) (h := h) (onEnd stack dev f)
  refine ext_of hspaces hpairs hfixed ?_
  have hends : ((h.mapEnds (onEnd stack dev f)).part s).ends = ((h.part s).mapEnds (onEnd stack dev f)).ends := by
    rw [ends, ends, hspaces, hpairs, hfixed]
  have hhas : ∀ r : Route, ((h.mapEnds (onEnd stack dev f)).part s).has r.stack r.dev =
      (h.part s).has r.stack r.dev := by
    intro r
    have hsame : ((h.part s).mapEnds (onEnd stack dev f)).has r.stack r.dev = (h.part s).has r.stack r.dev :=
      has_mapEnds hf
    rw [← hsame, has, has, hends]
  exact List.filter_congr fun r _ => hhas r

/-- Fewer namespaces and pairs have no more interfaces. -/
theorem has_fewer {k : Host ω} (hhas : k.has stack dev = true) (hspaces : ∀ sp ∈ k.spaces, sp ∈ h.spaces)
    (hpairs : ∀ p ∈ k.pairs, p ∈ h.pairs) (hfixed : k.fixed = h.fixed) : h.has stack dev = true := by
  obtain ⟨e, he, hat⟩ := List.any_eq_true.mp hhas
  refine List.any_eq_true.mpr ⟨e, ?_, hat⟩
  simp only [ends, List.mem_append, List.mem_map, List.mem_flatMap, hfixed] at he ⊢
  rcases he with (⟨sp, hsp, hlo⟩ | he) | ⟨p, hp, hend⟩
  · exact .inl (.inl ⟨sp, hspaces sp hsp, hlo⟩)
  · exact .inl (.inr he)
  · exact .inr ⟨p, hpairs p hp, hend⟩

/-- An interface that is there after an end was moved was there before, or is that end. -/
theorem has_mapPairs {stack' : Option String} {dev' space : String}
    (hhas : (h.mapPairs (onEnd stack dev fun e => { e with stack := some space, isUp := false, addrs := [] })).has
      stack' dev' = true) :
    h.has stack' dev' = true ∨ (some space = stack' ∧ dev = dev') := by
  obtain ⟨e, he, hat⟩ := List.any_eq_true.mp hhas
  have hkeep : e ∈ h.ends → h.has stack' dev' = true := fun he => List.any_eq_true.mpr ⟨e, he, hat⟩
  simp only [ends, mapPairs, List.mem_append, List.mem_flatMap] at he
  rcases he with he | ⟨p, hp, hend⟩
  · exact .inl (hkeep (List.mem_append_left _ (by simpa using he)))
  · obtain ⟨p₀, hp₀, rfl⟩ := List.mem_map.mp hp
    obtain ⟨e₀, he₀, rfl⟩ : ∃ e₀ ∈ p₀.ends,
      onEnd stack dev (fun e => { e with stack := some space, isUp := false, addrs := [] }) e₀ = e :=
      List.mem_map.mp hend
    have hthere : e₀ ∈ h.ends := List.mem_append_right _ (List.mem_flatMap.mpr ⟨p₀, hp₀, he₀⟩)
    rw [at_eq, beq_iff_eq, place_move] at hat
    unfold moveTo at hat
    split at hat
    · rename_i hplace
      have hname : e₀.place.2 = dev := congrArg Prod.snd (beq_iff_eq.mp hplace)
      cases hat
      exact .inr ⟨rfl, hname.symm⟩
    · exact .inl (List.any_eq_true.mpr ⟨e₀, hthere, by rw [at_eq, beq_iff_eq]; exact hat⟩)

/-- A command within one side does to its part of the host what it does to the host. -/
theorem part_inside (hformed : h.WellFormed) (hwho : s.owners who = true) (hw : h.Within s stack a)
    (hperform : h.perform who stack a = some h') : (h.part s).perform who stack a = some (h'.part s) := by
  have hlink : ∀ {d : String}, d ∈ a.linkNames → h.has stack d = true → (h.part s).has stack d = true :=
    fun hd hdev => has_part (hw.links _ hd) hdev
  have hgone : ∀ {st : Option String} {d : String}, h.has st d = false → (h.part s).has st d = false :=
    any_part_eq_false
  have hclear : ∀ {st : Option String} {d : String}, h.has st d = false →
      ∀ r ∈ h.routes, ¬(st = r.stack ∧ d = r.dev) := by
    rintro st d hdev r hr ⟨rfl, rfl⟩
    rw [hformed.live r hr] at hdev
    cases hdev
  have haccepted : ∀ {k : Host ω}, Acted who (h.part s) stack a k → h'.part s = k →
      (h.part s).perform who stack a = some (h'.part s) := by
    intro k hacted heq
    rw [heq]
    exact perform_iff.mpr ⟨hw.here, hacted⟩
  cases (perform_iff.mp hperform).2 with
  | @netnsAdd name hspace =>
    refine haccepted (.netnsAdd (hasSpace_part_eq_false hspace)) (part_withSpace hwho fun r hr => ?_)
    simpa [End.at] using hclear (hformed.vacant hspace "lo") r hr
  | @netnsDel name hspace =>
    refine haccepted (.netnsDel (hasSpace_part (hw.spaces name (List.mem_singleton.mpr rfl)).1 hspace)) ?_
    rw [part_prune]
    refine part_eq_prune (h := h) rfl rfl ?_ ?_ rfl fun r _ hr => ?_
    · exact filter_swap _
    · exact filter_swap _
    · refine has_fewer hr ?_ ?_ rfl
      · exact fun sp hsp => (List.mem_filter.mp hsp).1
      · exact fun p hp => (List.mem_filter.mp hp).1
  | @linkAdd near far hne hnear hfar =>
    refine haccepted (.linkAdd hne (hgone hnear) (hgone hfar)) (part_withPair hwho fun r hr => ?_)
    simpa [Pair.any, End.at] using And.intro (not_and.mp (hclear hnear r hr)) (not_and.mp (hclear hfar r hr))
  | @linkMove dev space hpair hspace hfree =>
    have hd := hw.links dev (List.mem_singleton.mpr rfl)
    refine haccepted (.linkMove (hasPair_part hd hpair)
      (hasSpace_part (hw.spaces space (List.mem_singleton.mpr rfl)).1 hspace) (hgone hfree)) ?_
    rw [part_prune]
    refine part_eq_prune (h := h) rfl rfl rfl ?_ rfl fun r hr hhas => ?_
    · simp only [part, prune, mapPairs, List.filter_map]
      rfl
    · rcases has_mapPairs hhas with hbefore | hmoved
      · exact hbefore
      · exact absurd hmoved (hclear hfree r hr)
  | @linkUp dev hdev => exact haccepted (.linkUp (hlink (List.mem_singleton.mpr rfl) hdev)) (part_mapEnds fun _ => rfl)
  | @linkDel dev hpair =>
    refine haccepted (.linkDel (hasPair_part (hw.links dev (List.mem_singleton.mpr rfl)) hpair)) ?_
    rw [part_prune]
    refine part_eq_prune (h := h) rfl rfl rfl ?_ rfl fun r _ hr => ?_
    · exact filter_swap _
    · refine has_fewer hr ?_ ?_ rfl
      · exact fun sp hsp => hsp
      · exact fun p hp => (List.mem_filter.mp hp).1
  | @addrAdd addr dev hdev =>
    exact haccepted (.addrAdd (hlink (List.mem_singleton.mpr rfl) hdev)) (part_mapEnds fun _ => rfl)
  | @routeAdd v6 dest via dev d n hd hn hfamily hon hvia hroute =>
    have hdev : h.has stack dev = true := has_of_onLink hon
    have habsent := hw.links dev (List.mem_singleton.mpr rfl)
    have hon' : (h.part s).onLink stack dev n.1 n.2 = true := (any_at_part habsent _).trans hon
    have hvia' : (h.part s).refusesVia stack dev n.1 n.2 = false := by
      cases hfam : n.1 with
      | true =>
        rw [hfam] at hvia
        exact any_part_eq_false hvia
      | false =>
        rw [hfam] at hvia
        simp only [refusesVia, isBroadcast, hasAddr, any_at_part habsent] at hvia ⊢
        exact hvia
    have hroute' : (h.part s).hasRoute stack d = false := by
      rw [hasRoute, Bool.or_eq_false_iff] at hroute ⊢
      refine ⟨?_, any_part_eq_false hroute.2⟩
      rw [List.any_eq_false] at hroute ⊢
      exact fun r hr => hroute.1 r (List.mem_filter.mp hr).1
    refine haccepted (.routeAdd hd hn hfamily hon' hvia' hroute') ?_
    refine ext_of rfl rfl rfl ?_
    show List.filter (fun r => (h.part s).has r.stack r.dev) ({ stack, dest := d, via := n.2, dev } :: h.routes) = _
    rw [List.filter_cons, if_pos (has_part habsent hdev)]
    rfl
  | other => exact haccepted .other rfl

end Inside

/-! ## Names that are not there -/

/-- Only a new pair puts an interface where none was in the root stack. -/
theorem has_root_perform (hnew : stack = none → dev ∉ a.newLinks)
    (hperform : h.perform who stack a = some h') (hno : h.has none dev = false) : h'.has none dev = false := by
  have hfewer : ∀ {k : Host ω}, (∀ sp ∈ k.spaces, sp ∈ h.spaces) → (∀ p ∈ k.pairs, p ∈ h.pairs) → k.fixed = h.fixed →
      k.has none dev = false := by
    intro k hspaces hpairs hfixed
    rw [Bool.eq_false_iff] at hno ⊢
    exact fun hhas => hno (has_fewer hhas hspaces hpairs hfixed)
  cases (perform_iff.mp hperform).2 with
  | netnsAdd hspace => exact hno
  | netnsDel hspace =>
    exact hfewer (fun sp hsp => (List.mem_filter.mp hsp).1) (fun p hp => (List.mem_filter.mp hp).1) rfl
  | @linkAdd near far hne hnear hfar =>
    show (h.withPair _).has none dev = false
    rw [has_withPair, hno, Bool.or_false]
    cases stack with
    | none =>
      have hnot : ¬(dev = near ∨ dev = far) := by simpa [Act.newLinks] using hnew rfl
      rw [not_or] at hnot
      simp [Pair.any, End.at, Ne.symm hnot.1, Ne.symm hnot.2]
    | some n => simp [Pair.any, End.at]
  | linkMove hpair hspace hfree =>
    show (h.mapPairs _).has none dev = false
    rw [Bool.eq_false_iff] at hno ⊢
    intro hhas
    rcases has_mapPairs hhas with hbefore | ⟨hstack, -⟩
    · exact hno hbefore
    · cases hstack
  | linkUp hdev =>
    rw [has_mapEnds, hno]
    exact fun _ => rfl
  | linkDel hpair => exact hfewer (fun sp hsp => hsp) (fun p hp => (List.mem_filter.mp hp).1) rfl
  | addrAdd hdev =>
    rw [has_mapEnds, hno]
    exact fun _ => rfl
  | routeAdd hd hn hfamily hon hvia hroute => exact hno
  | other => exact hno

/-- No namespace of this name is made. -/
theorem no_space_perform (hnew : name ∉ a.newSpaces) (hperform : h.perform who stack a = some h')
    (hno : h.hasSpace name = false) : h'.hasSpace name = false := by
  have htitles := titles_perform hperform
  rw [Bool.eq_false_iff] at hno ⊢
  rw [ne_eq, hasSpace_iff] at hno ⊢
  rintro ⟨o, ho⟩
  rw [htitles] at ho
  cases a with
  | netnsAdd n =>
    rcases List.mem_cons.mp ho with heq | hmem
    · cases heq
      exact hnew (List.mem_singleton.mpr rfl)
    · exact hno ⟨o, hmem⟩
  | netnsDel n => exact hno ⟨o, (List.mem_filter.mp ho).1⟩
  | _ => exact hno ⟨o, ho⟩

/-! ## Sound hosts -/

/-- Every loopback is in its namespace, what nobody made is in the root stack, every end of a
    pair stands in a stack that is there, and every route has its interface. -/
structure Sound (h : Host ω) : Prop where
  live : h.Live
  loopbacks : ∀ sp ∈ h.spaces, sp.lo.stack = some sp.name
  fixed : ∀ e ∈ h.fixed, e.stack = none
  placed : h.Placed

theorem Sound.formed (hs : h.Sound) : h.WellFormed where
  live := hs.live
  ends e he := by
    simp only [ends, List.mem_append, List.mem_map, List.mem_flatMap] at he
    rcases he with (⟨sp, hmem, rfl⟩ | hfixed) | ⟨p, hp, hend⟩
    · rw [hs.loopbacks sp hmem]
      exact List.any_eq_true.mpr ⟨sp, hmem, beq_self_eq_true _⟩
    · rw [hs.fixed e hfixed]
      rfl
    · cases hstack : e.stack with
      | none => rfl
      | some name =>
        apply hs.placed p.seat (List.mem_map.mpr ⟨p, hp, rfl⟩) name
        rw [any_seat, Pair.any]
        simp only [Pair.ends, List.mem_cons, List.not_mem_nil, or_false] at hend
        rcases hend with rfl | rfl
        · simp [End.place, hstack]
        · simp [End.place, hstack]

/-- Nothing stands in a namespace that is not there. -/
theorem Sound.untouched (hs : h.Sound) (hspace : h.hasSpace name = false) : ∀ e ∈ h.ends, e.touches name = false := by
  intro e he
  rw [Bool.eq_false_iff]
  intro htouches
  have hstack := hs.formed.ends e he
  rw [beq_iff_eq.mp htouches] at hstack
  exact absurd (hspace.symm.trans hstack) (by decide)

theorem live_prune : h.prune.Live := fun _ hr => (List.mem_filter.mp hr).2

theorem stack_onEnd {f : End → End} (hf : ∀ e, (f e).place = e.place) (e : End) :
    (onEnd stack dev f e).stack = e.stack := by
  unfold onEnd
  split
  · exact congrArg Prod.fst (hf e)
  · rfl

theorem Sound.mapEnds (hs : h.Sound) {f : End → End} (hf : ∀ e, (f e).place = e.place) :
    (h.mapEnds (onEnd stack dev f)).Sound where
  live r hr := by
    rw [has_mapEnds hf]
    exact hs.live r hr
  loopbacks sp hsp := by
    obtain ⟨sp₀, hsp₀, rfl⟩ := List.mem_map.mp hsp
    rw [← hs.loopbacks sp₀ hsp₀]
    exact stack_onEnd hf sp₀.lo
  fixed e he := by
    obtain ⟨e₀, he₀, rfl⟩ := List.mem_map.mp he
    rw [← hs.fixed e₀ he₀]
    exact stack_onEnd hf e₀
  placed seat hseat space htouches := by
    rw [seats_mapEnds hf] at hseat
    rw [hasSpace_congr (titles_mapEnds _)]
    exact hs.placed seat hseat space htouches

/-- Every command keeps a host sound. -/
theorem Sound.perform (hs : h.Sound) (hperform : h.perform who stack a = some h') : h'.Sound := by
  have hplaced := placed_perform hs.placed hperform
  cases (perform_iff.mp hperform).2 with
  | netnsAdd hspace =>
    refine ⟨hs.live.withSpace _, fun sp hsp => ?_, hs.fixed, hplaced⟩
    rcases List.mem_cons.mp hsp with rfl | hsp
    · rfl
    · exact hs.loopbacks sp hsp
  | netnsDel hspace => exact ⟨live_prune, fun sp hsp => hs.loopbacks sp (List.mem_filter.mp hsp).1, hs.fixed, hplaced⟩
  | linkAdd hne hnear hfar => exact ⟨hs.live.withPair _, hs.loopbacks, hs.fixed, hplaced⟩
  | linkMove hpair hspace hfree => exact ⟨live_prune, hs.loopbacks, hs.fixed, hplaced⟩
  | linkUp hdev => exact hs.mapEnds fun _ => rfl
  | linkDel hpair => exact ⟨live_prune, hs.loopbacks, hs.fixed, hplaced⟩
  | addrAdd hdev => exact hs.mapEnds fun _ => rfl
  | routeAdd hd hn hfamily hon hvia hroute =>
    refine ⟨fun r hr => ?_, hs.loopbacks, hs.fixed, hplaced⟩
    rcases List.mem_cons.mp hr with rfl | hr
    · exact has_of_onLink hon
    · exact hs.live r hr
  | other => exact hs

/-- A host on which one side has nothing is what the other side has. -/
theorem part_of_empty (hs : h.Sound) (hspaces : (h.part s.other).spaces = []) (hpairs : (h.part s.other).pairs = [])
    (hu : s.unowned = true) : h.part s = h := by
  have hall : ∀ {α : Type} {owner : α → ω} {xs : List α}, xs.filter (fun x => s.other.owners (owner x)) = [] →
      xs.filter (fun x => s.owners (owner x)) = xs := by
    intro α owner xs hnone
    rw [List.filter_eq_nil_iff] at hnone
    rw [List.filter_eq_self]
    intro x hx
    simpa [Side.other] using hnone x hx
  have hsp : (h.part s).spaces = h.spaces := hall hspaces
  have hpr : (h.part s).pairs = h.pairs := hall hpairs
  have hfx : (h.part s).fixed = h.fixed := by simp [part, prune, hu]
  refine ext_of hsp hpr hfx ?_
  have hends : (h.part s).ends = h.ends := by
    rw [ends, ends, hsp, hpr, hfx]
  rw [show (h.part s).routes = h.routes.filter fun r => (h.part s).has r.stack r.dev from rfl, List.filter_eq_self]
  intro r hr
  rw [has, hends]
  exact hs.live r hr

end Host

end NetHost
