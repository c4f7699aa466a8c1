import Mathlib.Data.List.Basic
import CocoNet.P2p.BatchBuilder

/-!
# Peers and addresses

A multiaddress is a list of protocol components.  The components the program
looks at have constructors of their own; any other component is `other`, with
its protocol code and data.
-/

namespace CocoNet

/-- A peer identity, as the bytes of its multihash. -/
structure PeerId where
  toBytes : Bytes
  deriving DecidableEq, Repr

structure Ipv4Addr where
  a : UInt8
  b : UInt8
  c : UInt8
  d : UInt8
  deriving DecidableEq, Repr

inductive Protocol where
  | ip4 (addr : Ipv4Addr)
  | udp (port : UInt16)
  | quicV1
  | p2p (peer : PeerId)
  | p2pCircuit
  | other (code : Nat) (data : Bytes)
  deriving DecidableEq, Repr

abbrev Multiaddr := List Protocol

/-- `addr.iter().any(|p| matches!(p, Protocol::P2pCircuit))`. -/
def hasCircuit (addr : Multiaddr) : Bool :=
  addr.any fun component => component == .p2pCircuit

/-- The filter for private and reserved networks, on the first two octets. -/
def isPublicIpv4 (ip : Ipv4Addr) : Bool :=
  let a := ip.a
  let b := ip.b
  if a == 0
      || a == 10
      || (a == 100 && (b &&& 0b11000000) == 0b01000000)
      || a == 127
      || (a == 169 && b == 254)
      || (a == 172 && (16 ≤ b && b ≤ 31))
      || (a == 192 && b == 0)
      || (a == 192 && b == 168)
      || (a == 192 && b == 2)
      || (a == 198 && (b == 18 || b == 19))
      || (a == 198 && b == 51)
      || (a == 203 && b == 0)
      || (224 ≤ a && a ≤ 255)
  then false
  else true

structure QuicScan where
  ip4 : Option Ipv4Addr
  udp : Bool
  quic : Bool
  deriving DecidableEq, Repr

/-- The scan of `is_public_udp_quic`; absent once a circuit is met. -/
def scanUdpQuic : QuicScan → Multiaddr → Option QuicScan
  | seen, [] => some seen
  | seen, .ip4 addr :: rest => scanUdpQuic { seen with ip4 := some addr } rest
  | seen, .udp _ :: rest => scanUdpQuic { seen with udp := true } rest
  | seen, .quicV1 :: rest => scanUdpQuic { seen with quic := true } rest
  | _, .p2pCircuit :: _ => none
  | seen, .p2p _ :: rest => scanUdpQuic seen rest
  | seen, .other _ _ :: rest => scanUdpQuic seen rest

def isPublicUdpQuic (addr : Multiaddr) : Bool :=
  match scanUdpQuic ⟨none, false, false⟩ addr with
  | some ⟨some ip, true, true⟩ => isPublicIpv4 ip
  | _ => false

/-- The scan of `udp_ip_port`, which stops at the first `quic-v1`. -/
def scanIpPort :
    Option Ipv4Addr → Option UInt16 → Multiaddr →
      Option Ipv4Addr × Option UInt16
  | ip, port, [] => (ip, port)
  | _, port, .ip4 addr :: rest => scanIpPort (some addr) port rest
  | ip, _, .udp found :: rest => scanIpPort ip (some found) rest
  | ip, port, .quicV1 :: _ => (ip, port)
  | ip, port, .p2p _ :: rest => scanIpPort ip port rest
  | ip, port, .p2pCircuit :: rest => scanIpPort ip port rest
  | ip, port, .other _ _ :: rest => scanIpPort ip port rest

def udpIpPort (addr : Multiaddr) : Option (Ipv4Addr × UInt16) :=
  match scanIpPort none none addr with
  | (some ip, some port) => some (ip, port)
  | _ => none

/-- The address `/ip4/<ip>/udp/<port>/quic-v1` that `rebuild_udp_quic` formats
and parses again; the text it formats always parses. -/
def rebuildUdpQuic (addr : Multiaddr) : Option Multiaddr :=
  match udpIpPort addr with
  | some (ip, port) => some [.ip4 ip, .udp port, .quicV1]
  | none => none

end CocoNet
