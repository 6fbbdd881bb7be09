import DatumSync.Python.Text

/-!
# IP addresses

The part of the module `ipaddress` that tells what an address is for: the networks of the special
registries and the properties that are read off them, as in CPython 3.11.10.  An IPv4-mapped IPv6
address is as private as the IPv4 address it maps, and global where it is not private; the other
properties read its own number.  So the shared space is not global, and its mapped form is.
-/

namespace DatumSync.Python

/-- `IPv4Address` and `IPv6Address`, without a scope. -/
inductive IpAddress where
  | v4 (n : BitVec 32)
  | v6 (n : BitVec 128)
  deriving DecidableEq

/-- A network: the number of its first address and the length of its prefix. -/
structure Network where
  base : ℕ
  prefixLen : ℕ

/-- `address in network`, for addresses of some width. -/
def Network.contains (network : Network) {width : ℕ} (n : BitVec width) : Bool :=
  n.toNat / 2 ^ (width - network.prefixLen) == network.base / 2 ^ (width - network.prefixLen)

/-- `IPv4Network("a.b.c.d/len")` -/
def net4 (a b c d len : ℕ) : Network := ⟨((a * 256 + b) * 256 + c) * 256 + d, len⟩

/-- `IPv6Network`, for its first groups of 16 bits. -/
def net6 (groups : List ℕ) (len : ℕ) : Network :=
  ⟨groups.foldl (fun n group ↦ n * 65536 + group) 0 * 65536 ^ (8 - groups.length), len⟩

/-! ## The registries -/

def privateNetworks4 : List Network :=
  [net4 0 0 0 0 8, net4 10 0 0 0 8, net4 127 0 0 0 8, net4 169 254 0 0 16, net4 172 16 0 0 12,
    net4 192 0 0 0 24, net4 192 0 0 170 31, net4 192 0 2 0 24, net4 192 168 0 0 16,
    net4 198 18 0 0 15, net4 198 51 100 0 24, net4 203 0 113 0 24, net4 240 0 0 0 4,
    net4 255 255 255 255 32]

/-- `_IPv4Constants._private_networks_exceptions` -/
def privateExceptions4 : List Network := [net4 192 0 0 9 32, net4 192 0 0 10 32]

def privateNetworks6 : List Network :=
  [net6 [0, 0, 0, 0, 0, 0, 0, 1] 128, net6 [] 128, net6 [0, 0, 0, 0, 0, 0xffff] 96,
    net6 [0x64, 0xff9b, 1] 48, net6 [0x100] 64, net6 [0x2001] 23, net6 [0x2001, 0xdb8] 32,
    net6 [0x2002] 16, net6 [0xfc00] 7, net6 [0xfe80] 10]

/-- `_IPv6Constants._private_networks_exceptions` -/
def privateExceptions6 : List Network :=
  [net6 [0x2001, 1, 0, 0, 0, 0, 0, 1] 128, net6 [0x2001, 1, 0, 0, 0, 0, 0, 2] 128,
    net6 [0x2001, 3] 32, net6 [0x2001, 4, 0x112] 48, net6 [0x2001, 0x20] 28, net6 [0x2001, 0x30] 28]

def reservedNetworks6 : List Network :=
  [net6 [] 8, net6 [0x100] 8, net6 [0x200] 7, net6 [0x400] 6, net6 [0x800] 5, net6 [0x1000] 4,
    net6 [0x4000] 3, net6 [0x6000] 3, net6 [0x8000] 3, net6 [0xa000] 3, net6 [0xc000] 3,
    net6 [0xe000] 4, net6 [0xf000] 5, net6 [0xf800] 6, net6 [0xfe00] 9]

def inAny (networks : List Network) {width : ℕ} (n : BitVec width) : Bool :=
  networks.any fun network ↦ network.contains n

def isPrivate4 (n : BitVec 32) : Bool := inAny privateNetworks4 n && !inAny privateExceptions4 n

/-- `_public_network`, the shared address space of carriers. -/
def isShared4 (n : BitVec 32) : Bool := (net4 100 64 0 0 10).contains n

def isMulticast4 (n : BitVec 32) : Bool := (net4 224 0 0 0 4).contains n

def isReserved4 (n : BitVec 32) : Bool := (net4 240 0 0 0 4).contains n

def isReserved6 (n : BitVec 128) : Bool := inAny reservedNetworks6 n

namespace IpAddress

def ipv4Mapped (n : BitVec 128) : Option (BitVec 32) :=
  if n.toNat / 2 ^ 32 = 0xffff then some (BitVec.ofNat 32 n.toNat) else none

def isPrivate : IpAddress → Bool
  | v4 n => isPrivate4 n
  | v6 n =>
    match ipv4Mapped n with
    | some m => isPrivate4 m
    | none => inAny privateNetworks6 n && !inAny privateExceptions6 n

def isGlobal : IpAddress → Bool
  | v4 n => !isShared4 n && !isPrivate4 n
  | v6 n => !isPrivate (v6 n)

def isLoopback : IpAddress → Bool
  | v4 n => (net4 127 0 0 0 8).contains n
  | v6 n => n == 1

def isLinkLocal : IpAddress → Bool
  | v4 n => (net4 169 254 0 0 16).contains n
  | v6 n => (net6 [0xfe80] 10).contains n

def isReserved : IpAddress → Bool
  | v4 n => isReserved4 n
  | v6 n => isReserved6 n

def isMulticast : IpAddress → Bool
  | v4 n => isMulticast4 n
  | v6 n => (net6 [0xff00] 8).contains n

def isUnspecified : IpAddress → Bool
  | v4 n => n == 0
  | v6 n => n == 0

/-- Whether an address is in the shared address space. -/
def isShared : IpAddress → Bool
  | v4 n => isShared4 n
  | v6 n => (ipv4Mapped n).any isShared4

/-- The address a connection goes to: a mapped address is the IPv4 address it maps. -/
def unmapped : IpAddress → IpAddress
  | v4 n => v4 n
  | v6 n =>
    match ipv4Mapped n with
    | some m => v4 m
    | none => v6 n

/-- Neither private, loopback, link-local, shared, reserved nor multicast. -/
def globallyRoutable (address : IpAddress) : Bool :=
  let a := address.unmapped
  !a.isPrivate && !a.isLoopback && !a.isLinkLocal && !a.isShared && !a.isReserved && !a.isMulticast

end IpAddress

/-! ## How the networks lie -/

/-- Loopback, link-local and reserved IPv4 addresses are private. -/
theorem isPrivate4_of_special {n : BitVec 32}
    (h : (net4 127 0 0 0 8).contains n = true ∨ (net4 169 254 0 0 16).contains n = true ∨
      (net4 240 0 0 0 4).contains n = true) : isPrivate4 n = true := by
  simp only [Network.contains, net4, beq_iff_eq] at h
  simp only [isPrivate4, inAny, privateNetworks4, privateExceptions4, Network.contains, net4,
    List.any_cons, List.any_nil, Bool.and_eq_true, Bool.or_eq_true, Bool.not_eq_true', beq_iff_eq,
    Bool.or_eq_false_iff, beq_eq_false_iff_ne, ne_eq, Bool.false_eq_true, or_false, and_true]
  omega

/-- An IPv4 address is routable unless it is private, shared or multicast. -/
theorem globallyRoutable_v4 (n : BitVec 32) :
    (IpAddress.v4 n).globallyRoutable =
      (!isPrivate4 n && !isShared4 n && !isMulticast4 n) := by
  cases hprivate : isPrivate4 n with
  | true =>
    simp only [IpAddress.globallyRoutable, IpAddress.unmapped, IpAddress.isPrivate, hprivate,
      Bool.not_true, Bool.false_and]
  | false =>
    have hspecial := mt isPrivate4_of_special (by rw [hprivate]; exact Bool.false_ne_true)
    simp only [not_or, Bool.not_eq_true] at hspecial
    obtain ⟨hloopback, hlink, hreserved⟩ := hspecial
    simp only [IpAddress.globallyRoutable, IpAddress.unmapped, IpAddress.isPrivate, hprivate,
      IpAddress.isLoopback, hloopback, IpAddress.isLinkLocal, hlink, IpAddress.isReserved,
      isReserved4, hreserved, IpAddress.isShared, IpAddress.isMulticast, Bool.not_false,
      Bool.true_and, Bool.and_true]

/-- A loopback or link-local IPv6 address that maps none is private. -/
theorem isPrivate_v6_of_special {n : BitVec 128} (hmapped : IpAddress.ipv4Mapped n = none)
    (h : (IpAddress.v6 n).isLoopback = true ∨ (IpAddress.v6 n).isLinkLocal = true) :
    (IpAddress.v6 n).isPrivate = true := by
  have hone : n = 1 ↔ n.toNat = 1 := ⟨fun h ↦ by rw [h]; rfl, fun h ↦ BitVec.eq_of_toNat_eq h⟩
  simp only [IpAddress.isLoopback, IpAddress.isLinkLocal, Network.contains, net6, beq_iff_eq, hone,
    List.foldl_cons, List.foldl_nil, List.length_cons, List.length_nil] at h
  simp only [IpAddress.isPrivate, hmapped, inAny, privateNetworks6, privateExceptions6,
    Network.contains, net6, List.any_cons, List.any_nil, Bool.and_eq_true, Bool.or_eq_true,
    Bool.not_eq_true', beq_iff_eq, Bool.or_eq_false_iff, beq_eq_false_iff_ne, ne_eq,
    Bool.false_eq_true, or_false, and_true, List.foldl_cons, List.foldl_nil, List.length_cons,
    List.length_nil]
  omega

/-- An IPv6 address that maps none is routable unless it is private, reserved or multicast. -/
theorem globallyRoutable_v6 {n : BitVec 128} (hmapped : IpAddress.ipv4Mapped n = none) :
    (IpAddress.v6 n).globallyRoutable =
      (!(IpAddress.v6 n).isPrivate && !isReserved6 n && !(IpAddress.v6 n).isMulticast) := by
  have hsame : (IpAddress.v6 n).unmapped = .v6 n := by
    simp only [IpAddress.unmapped, hmapped]
  have hshared : (IpAddress.v6 n).isShared = false := by
    rw [IpAddress.isShared, hmapped]
    rfl
  cases hprivate : (IpAddress.v6 n).isPrivate with
  | true => simp only [IpAddress.globallyRoutable, hsame, hprivate, Bool.not_true, Bool.false_and]
  | false =>
    have hspecial := mt (isPrivate_v6_of_special hmapped)
      (by rw [hprivate]; exact Bool.false_ne_true)
    simp only [not_or, Bool.not_eq_true] at hspecial
    simp only [IpAddress.globallyRoutable, hsame, hprivate, hspecial.1, hspecial.2, hshared,
      IpAddress.isReserved, Bool.not_false, Bool.true_and]

/-- A mapped address lies in a reserved block. -/
theorem isReserved6_of_mapped {n : BitVec 128} {m : BitVec 32}
    (h : IpAddress.ipv4Mapped n = some m) : isReserved6 n = true := by
  unfold IpAddress.ipv4Mapped at h
  split at h
  · next hmapped =>
    simp only [isReserved6, inAny, reservedNetworks6, Network.contains, net6, List.any_cons,
      List.foldl_nil, List.length_nil, Bool.or_eq_true, beq_iff_eq]
    left
    omega
  · cases h

/-- A mapped address is routable exactly when the IPv4 address it maps is. -/
theorem globallyRoutable_mapped {n : BitVec 128} {m : BitVec 32}
    (h : IpAddress.ipv4Mapped n = some m) :
    (IpAddress.v6 n).globallyRoutable = (IpAddress.v4 m).globallyRoutable := by
  simp only [IpAddress.globallyRoutable, IpAddress.unmapped, h]

end DatumSync.Python
