import CocoNet.Library.Cidr
import CocoNet.P2p.Multiaddr

/-!
# IPv4 networks

An IPv4 address as a 32-bit integer, and a network as an address with a prefix
length, with or without host bits set.
-/

namespace CocoNet

namespace Ipv4Addr

/-- `u32::from`. -/
def toU32 (ip : Ipv4Addr) : Nat :=
  ((ip.a.toNat * 256 + ip.b.toNat) * 256 + ip.c.toNat) * 256 + ip.d.toNat

/-- `Ipv4Addr::from`. -/
def ofU32 (value : Nat) : Ipv4Addr where
  a := UInt8.ofNat (value / 2 ^ 24)
  b := UInt8.ofNat (value / 2 ^ 16)
  c := UInt8.ofNat (value / 2 ^ 8)
  d := UInt8.ofNat value

theorem toU32_lt (ip : Ipv4Addr) : ip.toU32 < 2 ^ 32 := by
  have first := ip.a.toNat_lt
  have second := ip.b.toNat_lt
  have third := ip.c.toNat_lt
  have fourth := ip.d.toNat_lt
  unfold toU32
  omega

theorem toU32_ofU32 {value : Nat} (fits : value < 2 ^ 32) :
    (ofU32 value).toU32 = value := by
  simp only [toU32, ofU32, UInt8.toNat_ofNat']
  omega

theorem ofU32_toU32 (ip : Ipv4Addr) : ofU32 ip.toU32 = ip := by
  have second := ip.b.toNat_lt
  have third := ip.c.toNat_lt
  have fourth := ip.d.toNat_lt
  have octet : ∀ (value : Nat) (byte : UInt8), value % 256 = byte.toNat →
      UInt8.ofNat value = byte := by
    intro value byte same
    apply UInt8.toNat_inj.mp
    rw [UInt8.toNat_ofNat', same]
  have whole := ip.a.toNat_lt
  rcases ip with ⟨a, b, c, d⟩
  simp only [ofU32, toU32, Ipv4Addr.mk.injEq] at *
  refine ⟨octet _ _ ?_, octet _ _ ?_, octet _ _ ?_, octet _ _ ?_⟩ <;> omega

theorem ofU32_inj {left right : Nat} (leftFits : left < 2 ^ 32)
    (rightFits : right < 2 ^ 32) :
    ofU32 left = ofU32 right ↔ left = right := by
  constructor
  · intro same
    rw [← toU32_ofU32 leftFits, same, toU32_ofU32 rightFits]
  · exact congrArg ofU32

end Ipv4Addr

structure Ipv4Network where
  addr : Ipv4Addr
  prefixLen : Nat
  fits : prefixLen ≤ 32
  deriving DecidableEq, Repr

namespace Ipv4Network

/-- The address and the length of its prefix. -/
def ofLength (addr : Ipv4Addr) (length : Fin 33) : Ipv4Network :=
  ⟨addr, length, Nat.le_of_lt_succ length.isLt⟩

def hostBits (net : Ipv4Network) : Nat :=
  32 - net.prefixLen

def network (net : Ipv4Network) : Ipv4Addr :=
  .ofU32 (Cidr.network net.hostBits net.addr.toU32)

def broadcast (net : Ipv4Network) : Ipv4Addr :=
  .ofU32 (Cidr.broadcast net.hostBits net.addr.toU32)

/-- The address has the prefix of the network. -/
def Contains (net : Ipv4Network) (ip : Ipv4Addr) : Prop :=
  Cidr.network net.hostBits ip.toU32 =
    Cidr.network net.hostBits net.addr.toU32

instance (net : Ipv4Network) (ip : Ipv4Addr) : Decidable (net.Contains ip) :=
  inferInstanceAs (Decidable (_ = _))

theorem toU32_network (net : Ipv4Network) :
    net.network.toU32 = Cidr.network net.hostBits net.addr.toU32 := by
  apply Ipv4Addr.toU32_ofU32
  exact Nat.lt_of_le_of_lt (Cidr.network_le _ _) net.addr.toU32_lt

theorem toU32_broadcast (net : Ipv4Network) :
    net.broadcast.toU32 =
      net.network.toU32 + (2 ^ net.hostBits - 1) := by
  rw [toU32_network, ← Cidr.broadcast_eq]
  apply Ipv4Addr.toU32_ofU32
  exact Cidr.broadcast_lt (Nat.sub_le 32 _) net.addr.toU32_lt

end Ipv4Network

end CocoNet
