import CocoNet.Ipam.Ipv4Network

/-!
# The filter for private and reserved networks

The filter looks at the first two octets of an address.  Some of the networks
that it is meant for are told apart by the third octet only, and there it takes
more addresses than it should; it never takes fewer.
-/

namespace CocoNet

/-! ## Networks by their octets -/

namespace Ipv4Network

private theorem contains_iff (net : Ipv4Network) (ip : Ipv4Addr) :
    net.Contains ip ↔
      ip.toU32 / 2 ^ net.hostBits = net.addr.toU32 / 2 ^ net.hostBits :=
  Cidr.network_eq_network_iff net.hostBits ip.toU32 net.addr.toU32

end Ipv4Network

/-- Numbers that end in an octet agree above some of its lowest bits just when
they agree before the octet and their octets agree above those bits. -/
theorem octet_div_eq_iff {left right : Nat} (leftOctet rightOctet : UInt8)
    {low : Nat} (inside : low ≤ 8) :
    (left * 256 + leftOctet.toNat) / 2 ^ low =
        (right * 256 + rightOctet.toNat) / 2 ^ low ↔
      left = right ∧
        leftOctet.toNat / 2 ^ low = rightOctet.toNat / 2 ^ low := by
  have leftBound := leftOctet.toNat_lt
  have rightBound := rightOctet.toNat_lt
  have whole : 2 ^ low * 2 ^ (8 - low) = 256 := by
    rw [← Nat.pow_add, Nat.add_sub_cancel' inside]
  have shift : ∀ (front : Nat) (octet : UInt8),
      (front * 256 + octet.toNat) / 2 ^ low =
        front * 2 ^ (8 - low) + octet.toNat / 2 ^ low := by
    intro front octet
    rw [← whole, Nat.mul_left_comm, Nat.mul_add_div (Nat.two_pow_pos low)]
  constructor
  · intro same
    have fronts : left = right := by
      have divided := congrArg (· / 2 ^ (8 - low)) same
      simp only [Nat.div_div_eq_div_mul, whole] at divided
      omega
    rw [shift, shift, fronts, Nat.add_left_cancel_iff] at same
    exact ⟨fronts, same⟩
  · intro ⟨sameFront, sameOctet⟩
    rw [sameFront, shift, shift, sameOctet]

namespace Ipv4Network

variable {net : Ipv4Network}

private theorem contains_first_iff (short : net.prefixLen ≤ 8) (ip : Ipv4Addr) :
    net.Contains ip ↔
      ip.a.toNat / 2 ^ (8 - net.prefixLen) =
        net.addr.a.toNat / 2 ^ (8 - net.prefixLen) := by
  have shape : net.hostBits = 24 + (8 - net.prefixLen) := by
    unfold hostBits
    omega
  have first : ∀ addr : Ipv4Addr, addr.toU32 / 2 ^ 24 = addr.a.toNat := by
    intro addr
    have second := addr.b.toNat_lt
    have third := addr.c.toNat_lt
    have fourth := addr.d.toNat_lt
    unfold Ipv4Addr.toU32
    omega
  rw [contains_iff, shape, Nat.pow_add, ← Nat.div_div_eq_div_mul,
    ← Nat.div_div_eq_div_mul, first, first]

private theorem contains_second_iff (long : 8 ≤ net.prefixLen)
    (short : net.prefixLen ≤ 16) (ip : Ipv4Addr) :
    net.Contains ip ↔
      ip.a.toNat = net.addr.a.toNat ∧
        ip.b.toNat / 2 ^ (16 - net.prefixLen) =
          net.addr.b.toNat / 2 ^ (16 - net.prefixLen) := by
  have shape : net.hostBits = 16 + (16 - net.prefixLen) := by
    unfold hostBits
    omega
  have two : ∀ addr : Ipv4Addr,
      addr.toU32 / 2 ^ 16 = addr.a.toNat * 256 + addr.b.toNat := by
    intro addr
    have third := addr.c.toNat_lt
    have fourth := addr.d.toNat_lt
    unfold Ipv4Addr.toU32
    omega
  rw [contains_iff, shape, Nat.pow_add, ← Nat.div_div_eq_div_mul,
    ← Nat.div_div_eq_div_mul, two, two,
    octet_div_eq_iff _ _ (by omega)]

private theorem contains_twentyFour_iff (isPrefix : net.prefixLen = 24)
    (ip : Ipv4Addr) :
    net.Contains ip ↔
      ip.a.toNat = net.addr.a.toNat ∧ ip.b.toNat = net.addr.b.toNat ∧
        ip.c.toNat = net.addr.c.toNat := by
  have shape : net.hostBits = 8 := by
    unfold hostBits
    omega
  have three : ∀ addr : Ipv4Addr, addr.toU32 / 2 ^ 8 =
      (addr.a.toNat * 256 + addr.b.toNat) * 256 + addr.c.toNat := by
    intro addr
    have fourth := addr.d.toNat_lt
    unfold Ipv4Addr.toU32
    omega
  have second := ip.b.toNat_lt
  have third := ip.c.toNat_lt
  have netSecond := net.addr.b.toNat_lt
  have netThird := net.addr.c.toNat_lt
  rw [contains_iff, shape, three, three]
  omega

end Ipv4Network

/-! ## The networks of the filter -/

/-- The networks that the filter's comment lists. -/
def privateNetworks : List Ipv4Network :=
  [⟨⟨0, 0, 0, 0⟩, 8, by decide⟩, ⟨⟨10, 0, 0, 0⟩, 8, by decide⟩,
    ⟨⟨100, 64, 0, 0⟩, 10, by decide⟩, ⟨⟨127, 0, 0, 0⟩, 8, by decide⟩,
    ⟨⟨169, 254, 0, 0⟩, 16, by decide⟩, ⟨⟨172, 16, 0, 0⟩, 12, by decide⟩,
    ⟨⟨192, 0, 0, 0⟩, 24, by decide⟩, ⟨⟨192, 0, 2, 0⟩, 24, by decide⟩,
    ⟨⟨192, 168, 0, 0⟩, 16, by decide⟩, ⟨⟨198, 18, 0, 0⟩, 15, by decide⟩,
    ⟨⟨198, 51, 100, 0⟩, 24, by decide⟩, ⟨⟨203, 0, 113, 0⟩, 24, by decide⟩,
    ⟨⟨224, 0, 0, 0⟩, 4, by decide⟩, ⟨⟨240, 0, 0, 0⟩, 4, by decide⟩]

/-- The networks that the filter takes whole, whatever the third octet. -/
def coarseNetworks : List Ipv4Network :=
  [⟨⟨192, 0, 0, 0⟩, 16, by decide⟩, ⟨⟨192, 2, 0, 0⟩, 16, by decide⟩,
    ⟨⟨198, 51, 0, 0⟩, 16, by decide⟩, ⟨⟨203, 0, 0, 0⟩, 16, by decide⟩]

def Within (networks : List Ipv4Network) (ip : Ipv4Addr) : Prop :=
  ∃ net, net ∈ networks ∧ net.Contains ip

instance (networks : List Ipv4Network) (ip : Ipv4Addr) :
    Decidable (Within networks ip) :=
  inferInstanceAs (Decidable (∃ net, net ∈ networks ∧ _))

private theorem within_privateNetworks_iff (ip : Ipv4Addr) :
    Within privateNetworks ip ↔
      ip.a.toNat = 0 ∨ ip.a.toNat = 10 ∨
        (ip.a.toNat = 100 ∧ ip.b.toNat / 64 = 1) ∨ ip.a.toNat = 127 ∨
        (ip.a.toNat = 169 ∧ ip.b.toNat = 254) ∨
        (ip.a.toNat = 172 ∧ ip.b.toNat / 16 = 1) ∨
        (ip.a.toNat = 192 ∧ ip.b.toNat = 0 ∧ ip.c.toNat = 0) ∨
        (ip.a.toNat = 192 ∧ ip.b.toNat = 0 ∧ ip.c.toNat = 2) ∨
        (ip.a.toNat = 192 ∧ ip.b.toNat = 168) ∨
        (ip.a.toNat = 198 ∧ ip.b.toNat / 2 = 9) ∨
        (ip.a.toNat = 198 ∧ ip.b.toNat = 51 ∧ ip.c.toNat = 100) ∨
        (ip.a.toNat = 203 ∧ ip.b.toNat = 0 ∧ ip.c.toNat = 113) ∨
        ip.a.toNat / 16 = 14 ∨ ip.a.toNat / 16 = 15 := by
  simp only [Within, privateNetworks, List.mem_cons, List.not_mem_nil,
    or_false, exists_eq_or_imp, exists_eq_left]
  simp (disch := decide) only [Ipv4Network.contains_first_iff,
    Ipv4Network.contains_second_iff, Ipv4Network.contains_twentyFour_iff]
  simp

private theorem within_coarseNetworks_iff (ip : Ipv4Addr) :
    Within coarseNetworks ip ↔
      (ip.a.toNat = 192 ∧ ip.b.toNat = 0) ∨
        (ip.a.toNat = 192 ∧ ip.b.toNat = 2) ∨
        (ip.a.toNat = 198 ∧ ip.b.toNat = 51) ∨
        (ip.a.toNat = 203 ∧ ip.b.toNat = 0) := by
  simp only [Within, coarseNetworks, List.mem_cons, List.not_mem_nil,
    or_false, exists_eq_or_imp, exists_eq_left]
  simp (disch := decide) only [Ipv4Network.contains_second_iff]
  simp

/-! ## The filter -/

private theorem and_mask_eq_iff (octet : UInt8) :
    octet &&& 0b11000000 = 0b01000000 ↔ octet.toNat / 64 = 1 := by
  have masked : ∀ value, value < 256 →
      (value &&& 0b11000000 = 0b01000000 ↔ value / 64 = 1) := by
    decide +kernel
  rw [← UInt8.toNat_inj, UInt8.toNat_and]
  exact masked octet.toNat octet.toNat_lt

private theorem isPublicIpv4_eq_false_iff (ip : Ipv4Addr) :
    isPublicIpv4 ip = false ↔
      ip.a.toNat = 0 ∨ ip.a.toNat = 10 ∨
        (ip.a.toNat = 100 ∧ ip.b.toNat / 64 = 1) ∨ ip.a.toNat = 127 ∨
        (ip.a.toNat = 169 ∧ ip.b.toNat = 254) ∨
        (ip.a.toNat = 172 ∧ ip.b.toNat / 16 = 1) ∨
        (ip.a.toNat = 192 ∧ ip.b.toNat = 0) ∨
        (ip.a.toNat = 192 ∧ ip.b.toNat = 168) ∨
        (ip.a.toNat = 192 ∧ ip.b.toNat = 2) ∨
        (ip.a.toNat = 198 ∧ ip.b.toNat / 2 = 9) ∨
        (ip.a.toNat = 198 ∧ ip.b.toNat = 51) ∨
        (ip.a.toNat = 203 ∧ ip.b.toNat = 0) ∨
        ip.a.toNat / 16 = 14 ∨ ip.a.toNat / 16 = 15 := by
  have sixteen : ∀ octet : UInt8,
      (16 ≤ octet ∧ octet ≤ 31) ↔ octet.toNat / 16 = 1 := by
    intro octet
    rw [UInt8.le_iff_toNat_le, UInt8.le_iff_toNat_le]
    change 16 ≤ octet.toNat ∧ octet.toNat ≤ 31 ↔ _
    omega
  have eighteen : ∀ octet : UInt8,
      (octet = 18 ∨ octet = 19) ↔ octet.toNat / 2 = 9 := by
    intro octet
    rw [← UInt8.toNat_inj, ← UInt8.toNat_inj]
    change octet.toNat = 18 ∨ octet.toNat = 19 ↔ _
    omega
  have multicast : ∀ octet : UInt8, (224 ≤ octet ∧ octet ≤ 255) ↔
      (octet.toNat / 16 = 14 ∨ octet.toNat / 16 = 15) := by
    intro octet
    have bound := octet.toNat_lt
    rw [UInt8.le_iff_toNat_le, UInt8.le_iff_toNat_le]
    change 224 ≤ octet.toNat ∧ octet.toNat ≤ 255 ↔ _
    omega
  simp only [isPublicIpv4, Bool.or_eq_true, Bool.and_eq_true, beq_iff_eq,
    decide_eq_true_eq, and_mask_eq_iff, ite_eq_left_iff, Bool.true_eq_false,
    imp_false, not_not, or_assoc, sixteen, eighteen, multicast]
  simp only [← UInt8.toNat_inj]
  rfl

/-- What the filter takes is in the listed networks, or in the coarse ones. -/
theorem isPublicIpv4_eq_false_iff_within (ip : Ipv4Addr) :
    isPublicIpv4 ip = false ↔
      Within privateNetworks ip ∨ Within coarseNetworks ip := by
  rw [isPublicIpv4_eq_false_iff, within_privateNetworks_iff,
    within_coarseNetworks_iff]
  grind

/-- For every address, the filter takes it just when it is in a listed network
if and only if it is in none of the coarse networks or in a listed one. -/
theorem public_filter_exact_iff (ip : Ipv4Addr) :
    (isPublicIpv4 ip = false ↔ Within privateNetworks ip) ↔
      (Within coarseNetworks ip → Within privateNetworks ip) := by
  rw [isPublicIpv4_eq_false_iff_within]
  constructor
  · intro exact coarse
    exact exact.1 (Or.inr coarse)
  · intro listed
    constructor
    · intro taken
      rcases taken with isListed | coarse
      · exact isListed
      · exact listed coarse
    · exact Or.inl

/-- A public address is refused: 203.0.113.0/24 is listed, 203.0.1.1 is not in
it. -/
theorem public_address_refused :
    isPublicIpv4 ⟨203, 0, 1, 1⟩ = false ∧
      ¬ Within privateNetworks ⟨203, 0, 1, 1⟩ := by
  refine ⟨by decide, ?_⟩
  rw [within_privateNetworks_iff]
  decide

end CocoNet
