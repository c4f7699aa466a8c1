import CocoNet.Ipam.Ipv4Network
import CocoNet.Library.Checked

/-!
# Virtual addresses

A node takes its virtual address from the configured network by a hash of its
peer identity: the low half of the hash, modulo the number of hosts, counted
from the address after the network's.  Nothing asks whether another node has
the same address, so two nodes have different ones just when their hashes
differ modulo the number of hosts.
-/

namespace CocoNet

section

variable (parse : String → Except String Ipv4Network)
variable (xxh3 : Bytes → UInt64)

/-- `derive_ip_from_peerid`, in 32-bit arithmetic.  The text of a network is
parsed by `parse`, and `xxh3` hashes the bytes of the peer identity. -/
def deriveIpFromPeerid (cidr : String) (peer : PeerId) :
    Checked (Except String Ipv4Addr) :=
  match parse cidr with
  | .error text => .ok (.error ("invalid CIDR: " ++ text))
  | .ok net => do
      let hostBits ← Checked.sub 32 net.prefixLen
      if hostBits < 2 then
        .ok (.error "CIDR too small for host allocation (/31 or /32)")
      else do
        let base := net.network.toU32
        let bcast := net.broadcast.toU32
        let addresses ← Checked.sub bcast base
        -- `saturating_sub(1)`.
        let usable := addresses - 1
        if usable = 0 then .ok (.error "no usable host addresses")
        else do
          let hash := xxh3 peer.toBytes
          let offset ← Checked.add (2 ^ 32) (hash.toUInt32.toNat % usable) 1
          let ip ← Checked.add (2 ^ 32) base offset
          .ok (.ok (.ofU32 ip))

/-- What `main` configures the TUN device with: the derived address with the
prefix length of the network. -/
def fullAddr (cidr : String) (peer : PeerId) :
    Checked (Except String (Ipv4Addr × Nat)) := do
  let derived ← deriveIpFromPeerid parse xxh3 cidr peer
  match derived with
  | .error text => .ok (.error text)
  | .ok virtualIp =>
      match parse cidr with
      | .error text => .ok (.error text)
      | .ok net => .ok (.ok (virtualIp, net.prefixLen))

end

/-! ## The address and the hash -/

namespace Ipv4Network

/-- How many addresses are neither the network's nor the broadcast address. -/
def usableHosts (net : Ipv4Network) : Nat :=
  2 ^ net.hostBits - 2

/-- The host that a hash selects. -/
def hostOf (net : Ipv4Network) (hash : UInt64) : Nat :=
  hash.toUInt32.toNat % net.usableHosts

/-- There are at least two hosts in a network with a prefix of at most 30. -/
theorem two_le_usableHosts {net : Ipv4Network} (wide : net.prefixLen ≤ 30) :
    2 ≤ net.usableHosts := by
  have bits : 2 ≤ net.hostBits := by
    unfold hostBits
    omega
  have large := Nat.pow_le_pow_right Nat.zero_lt_two bits
  unfold usableHosts
  omega

theorem hostOf_lt {net : Ipv4Network} (wide : net.prefixLen ≤ 30)
    (hash : UInt64) : net.hostOf hash < net.usableHosts := by
  have positive := two_le_usableHosts wide
  exact Nat.mod_lt _ (by omega)

/-- Every host address is below the broadcast address, and so has 32 bits. -/
theorem host_lt {net : Ipv4Network} {host : Nat}
    (isHost : host < net.usableHosts) :
    net.network.toU32 + (host + 1) < net.broadcast.toU32 := by
  have small := isHost
  rw [toU32_broadcast]
  unfold usableHosts at small
  omega

end Ipv4Network

variable {parse : String → Except String Ipv4Network}
variable {xxh3 : Bytes → UInt64} {cidr : String} {net : Ipv4Network}

theorem deriveIpFromPeerid_eq (parses : parse cidr = .ok net)
    (wide : net.prefixLen ≤ 30) (peer : PeerId) :
    deriveIpFromPeerid parse xxh3 cidr peer =
      .ok (.ok (.ofU32 (net.network.toU32 +
        (net.hostOf (xxh3 peer.toBytes) + 1)))) := by
  have hosts := Ipv4Network.two_le_usableHosts wide
  have isHost := Ipv4Network.hostOf_lt wide (xxh3 peer.toBytes)
  have below := Ipv4Network.host_lt isHost
  have fits := net.broadcast.toU32_lt
  have addresses : net.broadcast.toU32 - net.network.toU32 - 1 =
      net.usableHosts := by
    rw [Ipv4Network.toU32_broadcast]
    unfold Ipv4Network.usableHosts
    omega
  simp only [deriveIpFromPeerid, parses]
  rw [Checked.sub_eq_ok (by omega), Checked.ok_bind, if_neg (by omega),
    Checked.sub_eq_ok (by omega), Checked.ok_bind, addresses,
    if_neg (by omega)]
  change Checked.add (2 ^ 32) (net.hostOf (xxh3 peer.toBytes)) 1 >>= _ = _
  rw [Checked.add_eq_ok (by omega), Checked.ok_bind,
    Checked.add_eq_ok (by omega), Checked.ok_bind]

theorem fullAddr_eq (parses : parse cidr = .ok net)
    (wide : net.prefixLen ≤ 30) (peer : PeerId) :
    fullAddr parse xxh3 cidr peer =
      .ok (.ok (.ofU32 (net.network.toU32 +
        (net.hostOf (xxh3 peer.toBytes) + 1)), net.prefixLen)) := by
  rw [fullAddr, deriveIpFromPeerid_eq parses wide, Checked.ok_bind]
  simp only [parses]

/-- Two nodes with the same network configure distinct addresses if and only
if their hashes select distinct hosts. -/
theorem virtual_ips_distinct_iff (parses : parse cidr = .ok net)
    (wide : net.prefixLen ≤ 30) (first second : PeerId) :
    ∃ firstIp secondIp,
      fullAddr parse xxh3 cidr first = .ok (.ok (firstIp, net.prefixLen)) ∧
      fullAddr parse xxh3 cidr second = .ok (.ok (secondIp, net.prefixLen)) ∧
      (firstIp ≠ secondIp ↔
        (xxh3 first.toBytes).toUInt32.toNat % (2 ^ (32 - net.prefixLen) - 2) ≠
          (xxh3 second.toBytes).toUInt32.toNat %
            (2 ^ (32 - net.prefixLen) - 2)) := by
  have below : ∀ hash, net.network.toU32 + (net.hostOf hash + 1) < 2 ^ 32 :=
    fun hash => Nat.lt_trans
      (Ipv4Network.host_lt (Ipv4Network.hostOf_lt wide hash))
      net.broadcast.toU32_lt
  refine ⟨_, _, fullAddr_eq parses wide first, fullAddr_eq parses wide second,
    ?_⟩
  rw [ne_eq, Ipv4Addr.ofU32_inj (below _) (below _), Nat.add_right_inj,
    Nat.add_right_cancel_iff]
  rfl

/-- The identity of a node with this Ed25519 key: the key's protobuf encoding as
a multihash. -/
def ed25519PeerId (key : Bytes) : PeerId :=
  ⟨[0, 36, 8, 1, 18, 32] ++ key⟩

/-- The public keys of the secret keys 168, 233 and 1. -/
def firstKey : Bytes :=
  [122, 76, 213, 18, 59, 194, 245, 194, 137, 251, 126, 184, 190, 68, 199,
    192, 0, 4, 253, 243, 234, 23, 208, 239, 87, 202, 172, 188, 175, 133, 18,
    174]

def secondKey : Bytes :=
  [205, 77, 94, 34, 6, 237, 101, 98, 97, 22, 74, 203, 207, 138, 205, 249,
    94, 9, 253, 185, 37, 114, 41, 154, 209, 220, 207, 181, 34, 140, 153, 126]

def thirdKey : Bytes :=
  [76, 181, 171, 246, 173, 121, 251, 245, 171, 188, 202, 252, 194, 105, 216,
    92, 210, 101, 30, 212, 184, 133, 181, 134, 159, 36, 26, 237, 240, 165,
    186, 41]

/-- The hashes of the three identities. -/
def knownHashes (bytes : Bytes) : UInt64 :=
  if bytes = (ed25519PeerId firstKey).toBytes then 0x9d8c6c92e0364ef8
  else if bytes = (ed25519PeerId secondKey).toBytes then 0xb55d77985a985a36
  else if bytes = (ed25519PeerId thirdKey).toBytes then 0x7658224e22073940
  else 0

/-- The default network. -/
def defaultNetwork : Ipv4Network :=
  .ofLength ⟨10, 99, 0, 0⟩ 16

theorem virtual_ips_distinct_default :
    ∃ firstIp secondIp,
      fullAddr (fun _ => .ok defaultNetwork) knownHashes "10.99.0.0/16"
          (ed25519PeerId firstKey) = .ok (.ok (firstIp, 16)) ∧
        fullAddr (fun _ => .ok defaultNetwork) knownHashes "10.99.0.0/16"
          (ed25519PeerId thirdKey) = .ok (.ok (secondIp, 16)) ∧
        firstIp ≠ secondIp := by
  obtain ⟨firstIp, secondIp, isFirst, isSecond, distinct⟩ :=
    @virtual_ips_distinct_iff (fun _ => .ok defaultNetwork) knownHashes
      "10.99.0.0/16" defaultNetwork rfl (by decide) (ed25519PeerId firstKey)
      (ed25519PeerId thirdKey)
  exact ⟨firstIp, secondIp, isFirst, isSecond, distinct.2 (by decide +kernel)⟩

/-- The smallest network that is accepted. -/
def smallNetwork : Ipv4Network :=
  .ofLength ⟨10, 99, 0, 0⟩ 30

/-- In the default network two nodes get the same address, and no hash would
keep all nodes apart in every network: the smallest has two hosts, so two of
three nodes share one. -/
theorem virtual_ips_conflict :
    (deriveIpFromPeerid (fun _ => .ok defaultNetwork) knownHashes
          "10.99.0.0/16" (ed25519PeerId firstKey) =
        .ok (.ok ⟨10, 99, 15, 105⟩) ∧
      deriveIpFromPeerid (fun _ => .ok defaultNetwork) knownHashes
          "10.99.0.0/16" (ed25519PeerId secondKey) =
        .ok (.ok ⟨10, 99, 15, 105⟩) ∧
      firstKey ≠ secondKey) ∧
    ¬ ∃ xxh3 : Bytes → UInt64, ∀ first second : Bytes,
      first.length = 32 → second.length = 32 → first ≠ second →
      deriveIpFromPeerid (fun _ => .ok smallNetwork) xxh3 "10.99.0.0/30"
          (ed25519PeerId first) ≠
        deriveIpFromPeerid (fun _ => .ok smallNetwork) xxh3 "10.99.0.0/30"
          (ed25519PeerId second) := by
  refine ⟨by decide +kernel, ?_⟩
  intro ⟨xxh3, distinct⟩
  have wide : smallNetwork.prefixLen ≤ 30 := Nat.le_refl 30
  have derived : ∀ peer, deriveIpFromPeerid (fun _ => .ok smallNetwork) xxh3
      "10.99.0.0/30" peer = _ :=
    fun peer => deriveIpFromPeerid_eq rfl wide peer
  have isHost : ∀ peer : PeerId,
      smallNetwork.hostOf (xxh3 peer.toBytes) < 2 :=
    fun peer => Ipv4Network.hostOf_lt wide _
  have apart : ∀ first second : Bytes, first.length = 32 →
      second.length = 32 → first ≠ second →
        smallNetwork.hostOf (xxh3 (ed25519PeerId first).toBytes) ≠
          smallNetwork.hostOf (xxh3 (ed25519PeerId second).toBytes) := by
    intro first second isKey isKeyToo different same
    apply distinct first second isKey isKeyToo different
    rw [derived, derived, same]
  have oneTwo := apart firstKey secondKey rfl rfl (by decide)
  have oneThree := apart firstKey thirdKey rfl rfl (by decide)
  have twoThree := apart secondKey thirdKey rfl rfl (by decide)
  have one := isHost (ed25519PeerId firstKey)
  have two := isHost (ed25519PeerId secondKey)
  have three := isHost (ed25519PeerId thirdKey)
  omega

end CocoNet
