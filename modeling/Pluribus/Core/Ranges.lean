import Mathlib.Algebra.Group.Nat.Defs
import Pluribus.Core.Net

namespace Pluribus.Core

def Ipv4Addr.leading (length : Nat) : Ipv4Addr → Nat
  | ⟨a, b, c, d⟩ => (a.toNat * 2 ^ 24 + b.toNat * 2 ^ 16 + c.toNat * 2 ^ 8 + d.toNat) / 2 ^ (32 - length)

def Ipv4Addr.inner (high low : UInt16) : Ipv4Addr :=
  ⟨(high >>> 8).toUInt8, high.toUInt8, (low >>> 8).toUInt8, low.toUInt8⟩

namespace Ipv6Addr

variable (address : Ipv6Addr)

def number : Nat :=
  address.s₀.toNat * 2 ^ 112 + address.s₁.toNat * 2 ^ 96 + address.s₂.toNat * 2 ^ 80 + address.s₃.toNat * 2 ^ 64 +
    address.s₄.toNat * 2 ^ 48 + address.s₅.toNat * 2 ^ 32 + address.s₆.toNat * 2 ^ 16 + address.s₇.toNat

def leading (length : Nat) : Nat := address.number / 2 ^ (128 - length)

/-- The IPv4 address an IPv6 address carries: IPv4-mapped, IPv4-compatible, translated by NAT64, or 6to4. -/
def embedded : Option Ipv4Addr :=
  if address.leading 96 = 0xffff ∨ address.leading 96 = 0 ∨ address.leading 96 = 0x64ff9b0000000000000000 then
    some (.inner address.s₆ address.s₇)
  else if address.leading 16 = 0x2002 then some (.inner address.s₁ address.s₂)
  else none

end Ipv6Addr

/-- Loopback, private, shared, link-local, multicast, unspecified, broadcast, reserved, benchmarking and documentation
blocks, each with its length and its leading bits. -/
def blocksV4 : List (Nat × Nat) :=
  [(8, 127), (8, 10), (12, 0xac1), (16, 0xc0a8), (10, 0x191), (16, 0xa9fe), (4, 0xe), (32, 0), (32, 0xffffffff),
    (8, 0), (24, 0xc00000), (4, 0xf), (15, 0x6309), (24, 0xc00002), (24, 0xc63364), (24, 0xcb0071)]

/-- Loopback, link-local, unique-local, multicast, unspecified, benchmarking and documentation blocks. -/
def blocksV6 : List (Nat × Nat) :=
  [(128, 1), (10, 0x3fa), (7, 0x7e), (8, 0xff), (128, 0), (48, 0x200100020000), (32, 0x20010db8), (20, 0x3fff0)]

def Guarded : IpAddr → Prop
  | .v4 address => ∀ block ∈ blocksV4, address.leading block.1 = block.2 → isPublicAddress (.v4 address) = false
  | .v6 address =>
    (∀ inner ∈ address.embedded, isPublicAddress (.v6 address) = true → isPublicAddress (.v4 inner) = true) ∧
    ∀ block ∈ blocksV6, address.leading block.1 = block.2 → isPublicAddress (.v6 address) = false

/-- The addresses `isPublicV6` should refuse and has no test for. -/
def Untested (address : Ipv6Addr) : Prop :=
  (address.leading 96 = 0 ∧ address.number ≠ 0 ∧ address.number ≠ 1 ∨
      address.leading 96 = 0x64ff9b0000000000000000 ∨ address.leading 16 = 0x2002) ∧
    (∃ inner ∈ address.embedded, isPublicV4 inner = false) ∨
  address.leading 48 = 0x200100020000 ∨ address.leading 20 = 0x3fff0

theorem isPublicV4_blocks (address : Ipv4Addr) (h : isPublicV4 address = true) :
    ∀ block ∈ blocksV4, address.leading block.1 ≠ block.2 := by
  obtain ⟨a, b, c, d⟩ := address
  have ha := a.toNat_lt
  have hb := b.toNat_lt
  have hc := c.toNat_lt
  have hd := d.toNat_lt
  simp only [isPublicV4, Ipv4Addr.isPrivate, Ipv4Addr.isLoopback, Ipv4Addr.isLinkLocal, Ipv4Addr.isMulticast,
    Ipv4Addr.isUnspecified, Ipv4Addr.mk.injEq, ← UInt8.toNat_inj, UInt8.le_iff_toNat_le, UInt8.reduceToNat,
    Bool.not_eq_true', Bool.or_eq_false_iff, Bool.and_eq_false_iff, decide_eq_false_iff_not, Bool.decide_and] at h
  simp only [blocksV4, List.forall_mem_cons, Ipv4Addr.leading]
  and_intros <;> grind

theorem land_high (x width shift : Nat) :
    x &&& ((2 ^ width - 1) <<< shift) = x / 2 ^ shift % 2 ^ width * 2 ^ shift := by
  rw [← Nat.shiftRight_eq_div_pow, ← Nat.and_two_pow_sub_one_eq_mod, ← Nat.shiftLeft_eq]
  apply Nat.eq_of_testBit_eq
  intro i
  by_cases hle : shift ≤ i <;> simp [hle, Bool.and_comm]

/-- The judgement in terms of the number of the address. -/
theorem isPublicV6_iff (address : Ipv6Addr) : isPublicV6 address = true ↔
    if address.number / 2 ^ 32 = 0xffff then isPublicV4 (.inner address.s₆ address.s₇) = true
    else address.number ≠ 1 ∧ address.number ≠ 0 ∧ address.number / 2 ^ 120 ≠ 0xff ∧
      address.number / 2 ^ 121 ≠ 0x7e ∧ address.number / 2 ^ 118 ≠ 0x3fa ∧ address.number / 2 ^ 96 ≠ 0x20010db8 := by
  obtain ⟨s₀, s₁, s₂, s₃, s₄, s₅, s₆, s₇⟩ := address
  have hmulticast : s₀.toNat &&& 0xff00 = _ := land_high _ 8 8
  have hlocal : s₀.toNat &&& 0xfe00 = _ := land_high _ 7 9
  have hlink : s₀.toNat &&& 0xffc0 = _ := land_high _ 10 6
  have h₀ := s₀.toNat_lt
  have h₁ := s₁.toNat_lt
  have h₂ := s₂.toNat_lt
  have h₃ := s₃.toNat_lt
  have h₄ := s₄.toNat_lt
  have h₅ := s₅.toNat_lt
  have h₆ := s₆.toNat_lt
  have h₇ := s₇.toNat_lt
  have hmapped : s₀ = 0 ∧ s₁ = 0 ∧ s₂ = 0 ∧ s₃ = 0 ∧ s₄ = 0 ∧ s₅ = 0xffff ↔
      (Ipv6Addr.mk s₀ s₁ s₂ s₃ s₄ s₅ s₆ s₇).number / 2 ^ 32 = 0xffff := by
    simp only [Ipv6Addr.number, ← UInt16.toNat_inj, UInt16.reduceToNat]
    omega
  rw [isPublicV6, Ipv6Addr.toIpv4Mapped]
  by_cases h : (Ipv6Addr.mk s₀ s₁ s₂ s₃ s₄ s₅ s₆ s₇).number / 2 ^ 32 = 0xffff
  · rw [if_pos h, if_pos (hmapped.mpr h), Ipv4Addr.inner]
  · rw [if_neg h, if_neg (mt hmapped.mp h), Bool.not_eq_true', ← Bool.not_eq_true]
    simp only [Bool.or_eq_true, Bool.and_eq_true, not_or, and_assoc, Ipv6Addr.isLoopback, Ipv6Addr.isUnspecified,
      Ipv6Addr.isMulticast, decide_eq_true_eq, Ipv6Addr.number, Ipv6Addr.mk.injEq, ← UInt16.toNat_inj, UInt16.toNat_and,
      UInt16.reduceToNat, hmulticast, hlocal, hlink]
    refine and_congr ?_ (and_congr ?_ (and_congr ?_ (and_congr ?_ (and_congr ?_ ?_)))) <;> omega

theorem guarded_iff (address : IpAddr) : Guarded address ↔ ∀ outer, address = .v6 outer → ¬ Untested outer := by
  cases address with
  | v4 address =>
    refine iff_of_true (fun block hblock h => ?_) fun _ h => by cases h
    rw [isPublicAddress, ← Bool.not_eq_true]
    exact fun hpublic => isPublicV4_blocks address hpublic block hblock h
  | v6 address =>
    have hpublic := isPublicV6_iff address
    simp only [Guarded, isPublicAddress, ← Bool.not_eq_true, hpublic, blocksV6, List.forall_mem_cons, List.not_mem_nil,
      IpAddr.v6.injEq, forall_eq', false_implies, implies_true, and_true]
    constructor
    · rintro ⟨hinner, hblocks⟩ (⟨hlead, inner, hsome, hprivate⟩ | hspecial)
      · have himp := hinner inner hsome
        simp only [Ipv6Addr.leading] at hlead
        rw [hprivate, if_neg (by omega)] at himp
        exact Bool.false_ne_true (himp (by omega))
      · simp only [Ipv6Addr.leading] at hspecial hblocks
        rw [if_neg (by omega)] at hblocks
        omega
    · intro hu
      rw [Untested, not_or] at hu
      constructor
      · intro inner hsome hp
        by_cases hmapped : address.number / 2 ^ 32 = 0xffff
        · rw [Ipv6Addr.embedded, if_pos (.inl hmapped)] at hsome
          cases hsome
          rwa [if_pos hmapped] at hp
        · rw [if_neg hmapped] at hp
          rw [← Bool.not_eq_false]
          intro hprivate
          apply hu.1
          refine ⟨?_, inner, hsome, hprivate⟩
          rw [Ipv6Addr.embedded] at hsome
          split at hsome
          · rename_i hlead
            rcases hlead with hlead | hlead | hlead
            · exact absurd hlead hmapped
            · exact .inl ⟨hlead, hp.2.1, hp.1⟩
            · exact .inr (.inl hlead)
          · split at hsome
            · exact .inr (.inr ‹_›)
            · cases hsome
      · simp only [Ipv6Addr.leading] at hu ⊢
        split <;> and_intros <;> omega

theorem nat64_loopback_public : ¬ Guarded (.v6 ⟨0x64, 0xff9b, 0, 0, 0, 0, 0x7f00, 1⟩) := by
  intro h
  exact absurd (h.1 ⟨127, 0, 0, 1⟩ (by decide) (by decide)) (by decide)

end Pluribus.Core
