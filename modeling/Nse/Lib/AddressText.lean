/-
  Nse.Lib.AddressText — what the text of an address says about the address, and the other
  way round.

  A colon stands in the texts of the IPv6 addresses and in no other (`colon_iff`). An IPv4
  address has one text (`parseV4_injective`); an IPv6 address has many.
-/

import Nse.Lib.IpAddress
import Nse.Lib.PyFields
import Mathlib.Algebra.Group.Nat.Defs

namespace IpAddress

def Address.isV6 : Address → Bool
  | .v4 _ => false
  | .v6 _ _ => true

/-! ## Numbers -/

section Number

variable {base : Nat} {digit : Char → Option Nat}

theorem number_digits : ∀ {cs : List Char} {n v : Nat}, number base digit n cs = some v →
    ∀ c ∈ cs, (digit c).isSome = true
  | [], _, _, _, c, hc => by cases hc
  | d :: cs, n, v, h, c, hc => by
    obtain ⟨k, hk, h⟩ := Option.bind_eq_some_iff.mp h
    rcases List.mem_cons.mp hc with rfl | hc
    · simp [hk]
    · exact number_digits h c hc

theorem number_bounds (hlt : ∀ c d, digit c = some d → d < base) :
    ∀ {cs : List Char} {n v : Nat}, number base digit n cs = some v →
      n * base ^ cs.length ≤ v ∧ v < (n + 1) * base ^ cs.length
  | [], n, v, h => by
    cases h
    simp
  | c :: cs, n, v, h => by
    obtain ⟨d, hd, h⟩ := Option.bind_eq_some_iff.mp h
    obtain ⟨hlow, hhigh⟩ := number_bounds hlt h
    have hdb := hlt c d hd
    rw [List.length_cons, Nat.pow_succ']
    constructor
    · calc n * (base * base ^ cs.length) = base * n * base ^ cs.length := by rw [Nat.mul_left_comm, Nat.mul_assoc]
        _ ≤ (base * n + d) * base ^ cs.length := Nat.mul_le_mul_right _ (Nat.le_add_right _ _)
        _ ≤ v := hlow
    · calc v < (base * n + d + 1) * base ^ cs.length := hhigh
        _ ≤ (n + 1) * base * base ^ cs.length := by
          refine Nat.mul_le_mul_right _ ?_
          rw [Nat.add_mul, Nat.one_mul, Nat.mul_comm n base]
          omega
        _ = (n + 1) * (base * base ^ cs.length) := Nat.mul_assoc _ _ _

/-- Texts of one length denote different numbers. -/
theorem number_injective (hlt : ∀ c d, digit c = some d → d < base)
    (hinj : ∀ c c' d, digit c = some d → digit c' = some d → c = c') :
    ∀ {cs ds : List Char} {n m v : Nat}, cs.length = ds.length → number base digit n cs = some v →
      number base digit m ds = some v → n = m ∧ cs = ds
  | [], [], n, m, v, _, h, h' => by
    cases h
    cases h'
    exact ⟨rfl, rfl⟩
  | c :: cs, e :: ds, n, m, v, hlen, h, h' => by
    obtain ⟨d, hd, h⟩ := Option.bind_eq_some_iff.mp h
    obtain ⟨d', hd', h'⟩ := Option.bind_eq_some_iff.mp h'
    obtain ⟨hvalue, hrest⟩ := number_injective hlt hinj (by simpa using hlen) h h'
    have hb := hlt c d hd
    have hb' := hlt e d' hd'
    have hnm : n = m := by
      have hdiv := congrArg (· / base) hvalue
      simpa [Nat.mul_add_div (by omega : 0 < base), Nat.div_eq_of_lt hb, Nat.div_eq_of_lt hb'] using hdiv
    have hdd : d = d' := by
      rw [hnm] at hvalue
      omega
    rw [hdd] at hd
    exact ⟨hnm, by rw [hinj c e d' hd hd', hrest]⟩

end Number

theorem decDigit_some {c : Char} {d : Nat} (h : decDigit c = some d) : d < 10 ∧ c.toNat = 48 + d := by
  unfold decDigit at h
  split at h
  · rename_i hc
    have hlow : 48 ≤ c.toNat := hc.1
    have hhigh : c.toNat ≤ 57 := hc.2
    cases h
    omega
  · cases h

theorem decDigit_injective {c c' : Char} {d : Nat} (h : decDigit c = some d) (h' : decDigit c' = some d) : c = c' :=
  Char.toNat_inj.mp ((decDigit_some h).2.trans (decDigit_some h').2.symm)

/-! ## IPv4 -/

theorem parseOctet_some {s : String} {n : Nat} (h : parseOctet s = some n) : s.toList ≠ [] ∧ n ≤ 255 ∧
    (s.toList.head? = some '0' → s.toList = ['0']) ∧ number 10 decDigit 0 s.toList = some n := by
  unfold parseOctet at h
  dsimp only at h
  split at h
  · cases h
  · rename_i hshape
    obtain ⟨hnumber, hle⟩ := Option.filter_eq_some_iff.mp h
    refine ⟨fun he => hshape (.inl he), by simpa using hle, ?_, hnumber⟩
    intro hzero
    by_cases hone : s.toList = ['0']
    · exact hone
    · exact absurd (.inr (.inr ⟨hzero, hone⟩)) hshape

/-- A longer text without a leading zero denotes a larger number. -/
theorem octet_length_le {cs ds : List Char} {n : Nat} (hlead : ds.head? = some '0' → ds = ['0']) (hcs : cs ≠ [])
    (h : number 10 decDigit 0 cs = some n) (h' : number 10 decDigit 0 ds = some n) : ds.length ≤ cs.length := by
  refine Nat.le_of_not_lt fun hlt => ?_
  have hlt10 : ∀ c d, decDigit c = some d → d < 10 := fun c d hd => (decDigit_some hd).1
  cases ds with
  | nil => simp at hlt
  | cons e ds =>
    obtain ⟨d, hd, h'⟩ := Option.bind_eq_some_iff.mp h'
    have hcs' : 0 < cs.length := List.length_pos_iff.mpr hcs
    have hd0 : d ≠ 0 := by
      rintro rfl
      have he : e = '0' := decDigit_injective hd (by decide)
      have hds := hlead (by rw [he]; rfl)
      simp only [List.cons.injEq] at hds
      rw [hds.2] at hlt
      simp only [List.length_cons, List.length_nil] at hlt
      omega
    have hhigh : n < 10 ^ cs.length := by simpa using (number_bounds hlt10 h).2
    have hlow : 10 ^ ds.length ≤ n := by
      have hb := (number_bounds hlt10 h').1
      calc 10 ^ ds.length ≤ d * 10 ^ ds.length := Nat.le_mul_of_pos_left _ (Nat.pos_of_ne_zero hd0)
        _ ≤ n := by simpa using hb
    have hpow : 10 ^ cs.length ≤ 10 ^ ds.length := by
      refine Nat.pow_le_pow_right (by omega) ?_
      simp only [List.length_cons] at hlt
      omega
    omega

theorem parseOctet_injective {s t : String} {n : Nat} (hs : parseOctet s = some n)
    (ht : parseOctet t = some n) : s = t := by
  obtain ⟨hsne, -, hslead, hsnum⟩ := parseOctet_some hs
  obtain ⟨htne, -, htlead, htnum⟩ := parseOctet_some ht
  have hlen : s.toList.length = t.toList.length :=
    Nat.le_antisymm (octet_length_le hslead htne htnum hsnum) (octet_length_le htlead hsne hsnum htnum)
  exact String.toList_inj.mp
    (number_injective (fun c d hd => (decDigit_some hd).1) (fun c c' d => decDigit_injective) hlen hsnum htnum).2

theorem parseV4_some {s : String} {n : Nat} (h : parseV4 s = some n) : ∃ a b c d va vb vc vd,
    PyStr.splitOn '.' s = [a, b, c, d] ∧ parseOctet a = some va ∧ parseOctet b = some vb ∧ parseOctet c = some vc ∧
      parseOctet d = some vd ∧ n = ((va * 256 + vb) * 256 + vc) * 256 + vd := by
  unfold parseV4 at h
  split at h
  · rename_i a b c d hsplit
    obtain ⟨va, ha, h⟩ := Option.bind_eq_some_iff.mp h
    obtain ⟨vb, hb, h⟩ := Option.bind_eq_some_iff.mp h
    obtain ⟨vc, hc, h⟩ := Option.bind_eq_some_iff.mp h
    obtain ⟨vd, hd, h⟩ := Option.map_eq_some_iff.mp h
    exact ⟨a, b, c, d, va, vb, vc, vd, hsplit, ha, hb, hc, hd, h.symm⟩
  · cases h

/-- An IPv4 address has one text. -/
theorem parseV4_injective {s t : String} {n : Nat} (hs : parseV4 s = some n) (ht : parseV4 t = some n) : s = t := by
  obtain ⟨a, b, c, d, va, vb, vc, vd, hsplit, ha, hb, hc, hd, hn⟩ := parseV4_some hs
  obtain ⟨a', b', c', d', va', vb', vc', vd', hsplit', ha', hb', hc', hd', hn'⟩ := parseV4_some ht
  have hbound := fun {x : String} {v : Nat} (h : parseOctet x = some v) => (parseOctet_some h).2.1
  have hvalues : va = va' ∧ vb = vb' ∧ vc = vc' ∧ vd = vd' := by
    have := hbound ha
    have := hbound hb
    have := hbound hc
    have := hbound hd
    have := hbound ha'
    have := hbound hb'
    have := hbound hc'
    have := hbound hd'
    omega
  obtain ⟨rfl, rfl, rfl, rfl⟩ := hvalues
  refine PyStr.splitOn_injective (hsplit.trans (Eq.trans ?_ hsplit'.symm))
  rw [parseOctet_injective ha ha', parseOctet_injective hb hb', parseOctet_injective hc hc',
    parseOctet_injective hd hd']

theorem no_colon_of_parseV4 {s : String} {n : Nat} (h : parseV4 s = some n) : ':' ∉ s.toList := by
  obtain ⟨a, b, c, d, va, vb, vc, vd, hsplit, ha, hb, hc, hd, -⟩ := parseV4_some h
  intro hcolon
  have hpiece : ':' = '.' ∨ ∃ p ∈ PyStr.splitOn '.' s, ':' ∈ p.toList := PyStr.mem_splitOn hcolon
  rcases hpiece with hsep | ⟨p, hp, hmem⟩
  · cases hsep
  · have hdigit : (decDigit ':').isSome = true := by
      rw [hsplit] at hp
      simp only [List.mem_cons, List.not_mem_nil, or_false] at hp
      rcases hp with rfl | rfl | rfl | rfl
      · exact number_digits (parseOctet_some ha).2.2.2 _ hmem
      · exact number_digits (parseOctet_some hb).2.2.2 _ hmem
      · exact number_digits (parseOctet_some hc).2.2.2 _ hmem
      · exact number_digits (parseOctet_some hd).2.2.2 _ hmem
    cases hdigit

/-! ## IPv6 -/

theorem colon_of_v6Parts {s : String} {parts : List String} (h : v6Parts s = some parts) : ':' ∈ s.toList := by
  unfold v6Parts at h
  dsimp only at h
  split at h
  · cases h
  · rename_i hlen
    by_cases hcolon : ':' ∈ s.toList
    · exact hcolon
    · rw [PyStr.splitOn_whole hcolon] at hlen
      simp at hlen

theorem colon_of_parseV6 {s : String} {r : Nat × Option String} (h : parseV6 s = some r) : ':' ∈ s.toList := by
  have hprefix : ∀ c ∈ s.toList.takeWhile (· != '%'), c ∈ s.toList := fun c hc => List.takeWhile_subset _ hc
  unfold parseV6 at h
  dsimp only at h
  split at h
  · obtain ⟨n, hn, -⟩ := Option.map_eq_some_iff.mp h
    obtain ⟨parts, hparts, -⟩ := Option.bind_eq_some_iff.mp hn
    exact colon_of_v6Parts hparts
  · split at h
    · cases h
    · obtain ⟨n, hn, -⟩ := Option.map_eq_some_iff.mp h
      obtain ⟨parts, hparts, -⟩ := Option.bind_eq_some_iff.mp hn
      have hcolon := colon_of_v6Parts hparts
      rw [String.toList_ofList] at hcolon
      exact hprefix _ hcolon

/-! ## Families -/

theorem ipAddress_v4 {s : String} {n : Nat} (h : ipAddress s = some (.v4 n)) : parseV4 s = some n := by
  unfold ipAddress at h
  split at h
  · cases h
  · cases hv4 : parseV4 s with
    | some m =>
      rw [hv4] at h
      cases h
      rfl
    | none =>
      rw [hv4] at h
      obtain ⟨⟨n, scope⟩, -, heq⟩ := Option.map_eq_some_iff.mp h
      cases heq

theorem ipAddress_v6 {s : String} {n : Nat} {scope : Option String} (h : ipAddress s = some (.v6 n scope)) :
    parseV6 s = some (n, scope) := by
  unfold ipAddress at h
  split at h
  · cases h
  · cases hv4 : parseV4 s with
    | some m =>
      rw [hv4] at h
      cases h
    | none =>
      rw [hv4] at h
      obtain ⟨⟨n, scope⟩, hv6, heq⟩ := Option.map_eq_some_iff.mp h
      cases heq
      exact hv6

/-- The family of an address is read off its text. -/
theorem colon_iff {s : String} {a : Address} (h : ipAddress s = some a) : ':' ∈ s.toList ↔ a.isV6 = true := by
  cases a with
  | v4 n => simp [Address.isV6, no_colon_of_parseV4 (ipAddress_v4 h)]
  | v6 n scope => simp [Address.isV6, colon_of_parseV6 (ipAddress_v6 h)]

end IpAddress
