/-
  Nse.Lib.Subnet — an address with the length of its network's prefix, as `ip` writes it.

  A subnet covers what the same network covers (`covers_of_same`), and every address is
  covered when the prefix is empty (`covers_all`). Two subnets are apart as soon as the shorter
  prefix leaves out the other's address (`apart_of_covers`, `apart_of_overlaps`).
-/

import Nse.Lib.IpAddress
import Mathlib.Algebra.Group.Nat.Defs

namespace IpAddress

/-- The number of bits of an address. -/
def width (v6 : Bool) : Nat := if v6 then 128 else 32

structure Subnet where
  v6 : Bool
  addr : Nat
  len : Nat
  deriving DecidableEq, Repr

namespace Subnet

/-- The first bits of an address, as many as the prefix is long. -/
def block (s : Subnet) (n : Nat) : Nat := n % 2 ^ width s.v6 / 2 ^ (width s.v6 - s.len)

def covers (s : Subnet) (v6 : Bool) (n : Nat) : Bool := s.v6 == v6 && s.block n == s.block s.addr

/-- The same network, whatever the address in it. -/
def same (s t : Subnet) : Bool := s.v6 == t.v6 && s.len == t.len && s.block t.addr == s.block s.addr

/-- No address lies in both. -/
def Apart (s t : Subnet) : Prop := ∀ v6 n, ¬(s.covers v6 n = true ∧ t.covers v6 n = true)

/-- The last address of an IPv4 network with room for one besides a pair of ends. -/
def broadcasts (s : Subnet) (n : Nat) : Bool :=
  decide (s.len < 31) && s.covers false n && (n + 1) % 2 ^ (32 - s.len) == 0

/-- The shorter prefix covers the other's address. -/
def overlaps (s t : Subnet) : Bool := if s.len ≤ t.len then s.covers t.v6 t.addr else t.covers s.v6 s.addr

/-- Every address of one family. -/
def all (v6 : Bool) : Subnet := { v6, addr := 0, len := 0 }

end Subnet

/-- An address without a scope: its family and its number. -/
def plainAddress (s : String) : Option (Bool × Nat) :=
  match ipAddress s with
  | some (.v4 n) => some (false, n)
  | some (.v6 n none) => some (true, n)
  | _ => none

/-- `address/length`, or an address alone. -/
def parseSubnet (s : String) : Option Subnet :=
  match PyStr.splitOn '/' s with
  | [a] => (plainAddress a).map fun x => { v6 := x.1, addr := x.2, len := width x.1 }
  | [a, l] =>
    (plainAddress a).bind fun x =>
      if l = "" then none
      else ((number 10 decDigit 0 l.toList).filter (· ≤ width x.1)).map fun len => { v6 := x.1, addr := x.2, len }
  | _ => none

namespace Subnet

variable {s t : Subnet}

theorem covers_iff {v6 : Bool} {n : Nat} : s.covers v6 n = true ↔ s.v6 = v6 ∧ s.block n = s.block s.addr := by
  simp [covers]

@[simp] theorem covers_self (s : Subnet) : s.covers s.v6 s.addr = true := by simp [covers]

theorem same_iff : s.same t = true ↔ s.v6 = t.v6 ∧ s.len = t.len ∧ s.block t.addr = s.block s.addr := by
  simp [same, and_assoc]

theorem covers_of_same (h : s.same t = true) (v6 : Bool) (n : Nat) : s.covers v6 n = t.covers v6 n := by
  obtain ⟨hv6, hlen, hblock⟩ := same_iff.mp h
  have heq : ∀ m, t.block m = s.block m := by
    intro m
    simp [block, hv6, hlen]
  unfold covers
  rw [heq, heq, hblock, hv6]

theorem covers_addr (h : s.same t = true) : s.covers t.v6 t.addr = true := by
  obtain ⟨hv6, -, hblock⟩ := same_iff.mp h
  exact covers_iff.mpr ⟨hv6, hblock⟩

theorem block_empty (h : s.len = 0) (n : Nat) : s.block n = 0 := by
  rw [block, h, Nat.sub_zero]
  exact Nat.div_eq_of_lt (Nat.mod_lt _ (Nat.two_pow_pos _))

theorem covers_all (v6 : Bool) (n : Nat) : (all v6).covers v6 n = true :=
  covers_iff.mpr ⟨rfl, (block_empty rfl n).trans (block_empty rfl _).symm⟩

/-- The blocks of the shorter prefix are made of those of the longer one. -/
theorem block_of_le (hv6 : s.v6 = t.v6) (hlen : s.len ≤ t.len) (n : Nat) :
    s.block n = t.block n / 2 ^ ((width t.v6 - s.len) - (width t.v6 - t.len)) := by
  have hexp : (width t.v6 - t.len) + ((width t.v6 - s.len) - (width t.v6 - t.len)) = width t.v6 - s.len := by omega
  rw [block, block, hv6, Nat.div_div_eq_div_mul, ← Nat.pow_add, hexp]

/-- Subnets are apart when the one with the shorter prefix does not cover the other's address. -/
theorem apart_of_covers (hlen : s.len ≤ t.len) (hcovers : s.covers t.v6 t.addr = false) : s.Apart t := by
  intro v6 n ⟨hs, ht⟩
  obtain ⟨hsv6, hsn⟩ := covers_iff.mp hs
  obtain ⟨htv6, htn⟩ := covers_iff.mp ht
  have hv6 : s.v6 = t.v6 := hsv6.trans htv6.symm
  have hblock : s.block t.addr = s.block s.addr := by
    rw [← hsn, block_of_le hv6 hlen, block_of_le hv6 hlen n, htn]
  rw [covers_iff.mpr ⟨hv6, hblock⟩] at hcovers
  cases hcovers

theorem Apart.symm (h : s.Apart t) : t.Apart s := fun v6 n hmeet => h v6 n ⟨hmeet.2, hmeet.1⟩

theorem apart_of_overlaps (h : s.overlaps t = false) : s.Apart t := by
  unfold overlaps at h
  split at h
  · exact apart_of_covers ‹_› h
  · exact (apart_of_covers (by omega) h).symm

theorem broadcasts_v4 {n : Nat} (h : s.broadcasts n = true) : s.v6 = false := by
  simp only [broadcasts, Bool.and_eq_true] at h
  exact (covers_iff.mp h.1.2).1

end Subnet

end IpAddress
