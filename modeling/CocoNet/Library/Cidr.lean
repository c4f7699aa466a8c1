import Mathlib.Data.Nat.Bitwise

/-!
# Blocks of addresses

An address is cut at a number of host bits.  Clearing the bits below the cut
gives the network of the address, setting them its broadcast address; the
addresses with one network are those between the two.
-/

namespace Cidr

def network (hostBits addr : Nat) : Nat :=
  addr >>> hostBits <<< hostBits

def broadcast (hostBits addr : Nat) : Nat :=
  network hostBits addr ||| (2 ^ hostBits - 1)

theorem network_eq (hostBits addr : Nat) :
    network hostBits addr = addr / 2 ^ hostBits * 2 ^ hostBits := by
  rw [network, Nat.shiftLeft_eq, Nat.shiftRight_eq_div_pow]

theorem broadcast_eq (hostBits addr : Nat) :
    broadcast hostBits addr =
      network hostBits addr + (2 ^ hostBits - 1) := by
  have below : 2 ^ hostBits - 1 < 2 ^ hostBits :=
    Nat.sub_lt (Nat.two_pow_pos hostBits) Nat.one_pos
  rw [broadcast, network, ← Nat.shiftLeft_add_eq_or_of_lt below]

theorem network_le (hostBits addr : Nat) : network hostBits addr ≤ addr := by
  rw [network_eq]
  exact Nat.div_mul_le_self addr (2 ^ hostBits)

/-- The broadcast address has the width of the addresses. -/
theorem broadcast_lt {width hostBits addr : Nat} (cut : hostBits ≤ width)
    (fits : addr < 2 ^ width) : broadcast hostBits addr < 2 ^ width := by
  have positive := Nat.two_pow_pos hostBits
  have split : 2 ^ width = 2 ^ (width - hostBits) * 2 ^ hostBits := by
    rw [← Nat.pow_add, Nat.sub_add_cancel cut]
  have quotient : addr / 2 ^ hostBits < 2 ^ (width - hostBits) := by
    rw [split] at fits
    exact Nat.div_lt_of_lt_mul (by rwa [Nat.mul_comm])
  have next : (addr / 2 ^ hostBits + 1) * 2 ^ hostBits ≤ 2 ^ width := by
    rw [split]
    exact Nat.mul_le_mul_right _ quotient
  rw [Nat.add_mul, Nat.one_mul] at next
  rw [broadcast_eq, network_eq]
  omega

theorem network_eq_network_iff (hostBits left right : Nat) :
    network hostBits left = network hostBits right ↔
      left / 2 ^ hostBits = right / 2 ^ hostBits := by
  rw [network_eq, network_eq,
    Nat.mul_left_inj (Nat.ne_of_gt (Nat.two_pow_pos hostBits))]

/-- The addresses with the network of `addr` are those from its network to its
broadcast address. -/
theorem network_eq_iff (hostBits addr other : Nat) :
    network hostBits other = network hostBits addr ↔
      network hostBits addr ≤ other ∧ other ≤ broadcast hostBits addr := by
  have positive := Nat.two_pow_pos hostBits
  rw [network_eq_network_iff, broadcast_eq, network_eq]
  constructor
  · intro same
    have split := Nat.div_add_mod' other (2 ^ hostBits)
    have below := Nat.mod_lt other positive
    rw [same] at split
    omega
  · intro ⟨above, below⟩
    apply Nat.div_eq_of_lt_le above
    rw [Nat.add_mul, Nat.one_mul]
    omega

end Cidr
