/-
# Tozalist.Theory.InternetAddress -- IPv4 and IPv6 addresses and their special ranges

An IPv4 address is four bytes, an IPv6 address eight groups of sixteen bits.  `Internal`
is the part of either space that no public service has: the unspecified address, loopback,
the private networks of RFC 1918, link-local, unique-local, multicast and reserved
addresses, and the IPv6 addresses that embed such an IPv4 address.
-/
import Mathlib.Tactic.Common

namespace Tozalist.Theory.InternetAddress

set_option autoImplicit false

/-! ## IPv4 -/

structure Ipv4 where
  a : Fin 256
  b : Fin 256
  c : Fin 256
  d : Fin 256
  deriving DecidableEq, Repr

namespace Ipv4

/-- 0.0.0.0 -/
def Unspecified (q : Ipv4) : Prop := q.a.val = 0 ∧ q.b.val = 0 ∧ q.c.val = 0 ∧ q.d.val = 0

/-- 127.0.0.0/8 -/
def Loopback (q : Ipv4) : Prop := q.a.val = 127

/-- 10.0.0.0/8, 172.16.0.0/12 and 192.168.0.0/16 -/
def Private (q : Ipv4) : Prop :=
  q.a.val = 10 ∨ (q.a.val = 172 ∧ 16 ≤ q.b.val ∧ q.b.val ≤ 31) ∨ (q.a.val = 192 ∧ q.b.val = 168)

/-- 169.254.0.0/16 -/
def LinkLocal (q : Ipv4) : Prop := q.a.val = 169 ∧ q.b.val = 254

/-- 224.0.0.0/4 -/
def Multicast (q : Ipv4) : Prop := 224 ≤ q.a.val ∧ q.a.val ≤ 239

/-- 240.0.0.0/4 -/
def Reserved (q : Ipv4) : Prop := 240 ≤ q.a.val

def Internal (q : Ipv4) : Prop :=
  q.Unspecified ∨ q.Loopback ∨ q.Private ∨ q.LinkLocal ∨ q.Multicast ∨ q.Reserved

instance (q : Ipv4) : Decidable q.Unspecified := inferInstanceAs (Decidable (_ ∧ _))
instance (q : Ipv4) : Decidable q.Loopback := inferInstanceAs (Decidable (_ = _))
instance (q : Ipv4) : Decidable q.Private := inferInstanceAs (Decidable (_ ∨ _))
instance (q : Ipv4) : Decidable q.LinkLocal := inferInstanceAs (Decidable (_ ∧ _))
instance (q : Ipv4) : Decidable q.Multicast := inferInstanceAs (Decidable (_ ∧ _))
instance (q : Ipv4) : Decidable q.Reserved := inferInstanceAs (Decidable (_ ≤ _))
instance (q : Ipv4) : Decidable q.Internal := inferInstanceAs (Decidable (_ ∨ _))

/-- The two groups of sixteen bits. -/
def high (q : Ipv4) : ℕ := q.a * 256 + q.b

def low (q : Ipv4) : ℕ := q.c * 256 + q.d

end Ipv4

/-! ## IPv6 -/

structure Ipv6 where
  g0 : Fin 65536
  g1 : Fin 65536
  g2 : Fin 65536
  g3 : Fin 65536
  g4 : Fin 65536
  g5 : Fin 65536
  g6 : Fin 65536
  g7 : Fin 65536
  deriving DecidableEq, Repr

namespace Ipv6

/-- The groups, first to last. -/
def groups (x : Ipv6) : List ℕ := [x.g0, x.g1, x.g2, x.g3, x.g4, x.g5, x.g6, x.g7]

/-- The address of eight groups. -/
def ofGroups (gs : List ℕ) : Ipv6 :=
  let group := fun i => Fin.ofNat 65536 (gs.getD i 0)
  ⟨group 0, group 1, group 2, group 3, group 4, group 5, group 6, group 7⟩

theorem groups_ofGroups {gs : List ℕ} (eight : gs.length = 8) (bounded : ∀ g ∈ gs, g < 65536) :
    (ofGroups gs).groups = gs := by
  match gs, eight with
  | [g0, g1, g2, g3, g4, g5, g6, g7], _ =>
      simp only [List.forall_mem_cons] at bounded
      obtain ⟨h0, h1, h2, h3, h4, h5, h6, h7, -⟩ := bounded
      simp only [groups, ofGroups, Fin.ofNat, List.getD_cons_zero, List.getD_cons_succ,
        Nat.mod_eq_of_lt h0, Nat.mod_eq_of_lt h1, Nat.mod_eq_of_lt h2, Nat.mod_eq_of_lt h3,
        Nat.mod_eq_of_lt h4, Nat.mod_eq_of_lt h5, Nat.mod_eq_of_lt h6, Nat.mod_eq_of_lt h7]

/-- The IPv4 address in the last 32 bits. -/
def embedded (x : Ipv6) : Ipv4 :=
  ⟨Fin.ofNat 256 (x.g6 / 256), Fin.ofNat 256 x.g6, Fin.ofNat 256 (x.g7 / 256), Fin.ofNat 256 x.g7⟩

/-- The first 96 bits. -/
def Begins (x : Ipv6) (gs : List ℕ) : Prop := x.groups.take 6 = gs

/-- :: -/
def Unspecified (x : Ipv6) : Prop := x.groups = [0, 0, 0, 0, 0, 0, 0, 0]

/-- ::1 -/
def Loopback (x : Ipv6) : Prop := x.groups = [0, 0, 0, 0, 0, 0, 0, 1]

/-- fc00::/7 -/
def UniqueLocal (x : Ipv6) : Prop := x.g0.val / 512 = 126

/-- fe80::/10 -/
def LinkLocal (x : Ipv6) : Prop := x.g0.val / 64 = 1018

/-- ff00::/8 -/
def Multicast (x : Ipv6) : Prop := x.g0.val / 256 = 255

/-- ::ffff:0:0/96 -/
def Mapped (x : Ipv6) : Prop := x.Begins [0, 0, 0, 0, 0, 65535]

/-- ::/96 -/
def Compatible (x : Ipv6) : Prop := x.Begins [0, 0, 0, 0, 0, 0]

/-- 64:ff9b::/96 -/
def Nat64 (x : Ipv6) : Prop := x.Begins [100, 65435, 0, 0, 0, 0]

/-- The blocks of the address space that are reserved by the IETF: the first group of each, and the
length of its prefix. -/
def reservedBlocks : List (ℕ × ℕ) :=
  [(0x0000, 8), (0x0100, 8), (0x0200, 7), (0x0400, 6), (0x0800, 5), (0x1000, 4), (0x4000, 3),
    (0x6000, 3), (0x8000, 3), (0xa000, 3), (0xc000, 3), (0xe000, 4), (0xf000, 5), (0xf800, 6),
    (0xfe00, 9), (0xfec0, 10)]

/-- The address is in the block. -/
def InBlock (x : Ipv6) (block : ℕ × ℕ) : Prop :=
  x.g0.val >>> (16 - block.2) = block.1 >>> (16 - block.2)

/-- In a reserved block, of which the prefixes that embed an IPv4 address are taken out. -/
def Reserved (x : Ipv6) : Prop :=
  (∃ block ∈ reservedBlocks, x.InBlock block) ∧ ¬ x.Mapped ∧ ¬ x.Compatible ∧ ¬ x.Nat64

def Internal (x : Ipv6) : Prop :=
  x.Unspecified ∨ x.Loopback ∨ x.UniqueLocal ∨ x.LinkLocal ∨ x.Multicast ∨ x.Reserved ∨
    ((x.Mapped ∨ x.Compatible ∨ x.Nat64) ∧ x.embedded.Internal)

instance (x : Ipv6) (gs : List ℕ) : Decidable (x.Begins gs) := inferInstanceAs (Decidable (_ = _))
instance (x : Ipv6) : Decidable x.Unspecified := inferInstanceAs (Decidable (_ = _))
instance (x : Ipv6) : Decidable x.Loopback := inferInstanceAs (Decidable (_ = _))
instance (x : Ipv6) : Decidable x.UniqueLocal := inferInstanceAs (Decidable (_ = _))
instance (x : Ipv6) : Decidable x.LinkLocal := inferInstanceAs (Decidable (_ = _))
instance (x : Ipv6) : Decidable x.Multicast := inferInstanceAs (Decidable (_ = _))
instance (x : Ipv6) : Decidable x.Mapped := inferInstanceAs (Decidable (x.Begins _))
instance (x : Ipv6) : Decidable x.Compatible := inferInstanceAs (Decidable (x.Begins _))
instance (x : Ipv6) : Decidable x.Nat64 := inferInstanceAs (Decidable (x.Begins _))
instance (x : Ipv6) (block : ℕ × ℕ) : Decidable (x.InBlock block) :=
  inferInstanceAs (Decidable (_ = _))
instance (x : Ipv6) : Decidable x.Reserved := inferInstanceAs (Decidable (_ ∧ _))
instance (x : Ipv6) : Decidable x.Internal := inferInstanceAs (Decidable (_ ∨ _))

end Ipv6

/-- An address of either family. -/
inductive Address where
  | v4 (q : Ipv4)
  | v6 (x : Ipv6)
  deriving DecidableEq, Repr

def Address.Internal : Address → Prop
  | .v4 q => q.Internal
  | .v6 x => x.Internal

instance : (x : Address) → Decidable x.Internal
  | .v4 q => inferInstanceAs (Decidable q.Internal)
  | .v6 x => inferInstanceAs (Decidable x.Internal)

end Tozalist.Theory.InternetAddress
