import Mathlib.Data.Nat.Notation

namespace Pluribus.Core

structure Ipv4Addr where
  a : UInt8
  b : UInt8
  c : UInt8
  d : UInt8
deriving DecidableEq, Repr

structure Ipv6Addr where
  s₀ : UInt16
  s₁ : UInt16
  s₂ : UInt16
  s₃ : UInt16
  s₄ : UInt16
  s₅ : UInt16
  s₆ : UInt16
  s₇ : UInt16
deriving DecidableEq, Repr

inductive IpAddr where
  | v4 (address : Ipv4Addr)
  | v6 (address : Ipv6Addr)
deriving DecidableEq, Repr

namespace Ipv4Addr

variable (address : Ipv4Addr)

def isPrivate : Bool :=
  address.a = 10 || (address.a = 172 && 16 ≤ address.b && address.b ≤ 31) || (address.a = 192 && address.b = 168)

def isLoopback : Bool := address.a = 127

def isLinkLocal : Bool := address.a = 169 && address.b = 254

def isMulticast : Bool := 224 ≤ address.a && address.a ≤ 239

def isUnspecified : Bool := address = ⟨0, 0, 0, 0⟩

end Ipv4Addr

namespace Ipv6Addr

variable (address : Ipv6Addr)

def isUnspecified : Bool := address = ⟨0, 0, 0, 0, 0, 0, 0, 0⟩

def isLoopback : Bool := address = ⟨0, 0, 0, 0, 0, 0, 0, 1⟩

def isMulticast : Bool := address.s₀ &&& 0xff00 = 0xff00

def toIpv4Mapped : Option Ipv4Addr :=
  if address.s₀ = 0 ∧ address.s₁ = 0 ∧ address.s₂ = 0 ∧ address.s₃ = 0 ∧ address.s₄ = 0 ∧ address.s₅ = 0xffff then
    some ⟨(address.s₆ >>> 8).toUInt8, address.s₆.toUInt8, (address.s₇ >>> 8).toUInt8, address.s₇.toUInt8⟩
  else none

end Ipv6Addr

def isPublicV4 (address : Ipv4Addr) : Bool :=
  let ⟨a, b, c, _⟩ := address
  !(address.isPrivate
    || address.isLoopback
    || address.isLinkLocal
    || address.isMulticast
    || address.isUnspecified
    || address = ⟨255, 255, 255, 255⟩
    || a = 0
    || 240 ≤ a
    || (a = 100 && 64 ≤ b && b ≤ 127)
    || (a = 192 && b = 0 && c = 0)
    || (a = 192 && b = 0 && c = 2)
    || (a = 198 && (b = 18 || b = 19))
    || (a = 198 && b = 51 && c = 100)
    || (a = 203 && b = 0 && c = 113))

def isPublicV6 (address : Ipv6Addr) : Bool :=
  match address.toIpv4Mapped with
  | some mapped => isPublicV4 mapped
  | none =>
    !(address.isLoopback
      || address.isUnspecified
      || address.isMulticast
      || address.s₀ &&& 0xfe00 = 0xfc00
      || address.s₀ &&& 0xffc0 = 0xfe80
      || (address.s₀ = 0x2001 && address.s₁ = 0x0db8))

def isPublicAddress : IpAddr → Bool
  | .v4 address => isPublicV4 address
  | .v6 address => isPublicV6 address

end Pluribus.Core
