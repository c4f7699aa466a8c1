import CocoNet.Library.Framing
import CocoNet.Library.Reassembly
import CocoNet.P2p.BatchBuilder

/-!
# The fields of an IPv4 packet

The fields as RFC 791 lays them out, read from a byte string; bytes that are
not there read as zero.  They say what a packet means, not how the program
reads it.
-/

namespace CocoNet

namespace Ipv4

variable (pkt : Bytes)

def byteAt (position : Nat) : UInt8 :=
  pkt.getD position 0

def version : Nat :=
  (byteAt pkt 0).toNat >>> 4

/-- The header length in bytes: four times the IHL field. -/
def ihl : Nat :=
  ((byteAt pkt 0).toNat &&& 0x0F) * 4

def tos : UInt8 :=
  byteAt pkt 1

def totalLength : Nat :=
  BigEndian.word (byteAt pkt 2) (byteAt pkt 3)

def identification : Nat :=
  BigEndian.word (byteAt pkt 4) (byteAt pkt 5)

def flagsFragment : Nat :=
  BigEndian.word (byteAt pkt 6) (byteAt pkt 7)

def dontFragment : Bool :=
  flagsFragment pkt &&& 0x4000 != 0

def moreFragments : Bool :=
  flagsFragment pkt &&& 0x2000 != 0

/-- The fragment offset in units of eight bytes. -/
def fragmentOffset : Nat :=
  flagsFragment pkt &&& 0x1FFF

def ttl : UInt8 :=
  byteAt pkt 8

def protocol : UInt8 :=
  byteAt pkt 9

def source : Bytes :=
  (pkt.drop 12).take 4

def destination : Bytes :=
  (pkt.drop 16).take 4

def options : Bytes :=
  (pkt.drop 20).take (ihl pkt - 20)

/-- The bytes from the end of the header up to the total length, as far as the
packet goes. -/
def payload : Bytes :=
  (pkt.drop (ihl pkt)).take (totalLength pkt - ihl pkt)

/-- The packet as a piece of the payload of its datagram. -/
def piece : Piece UInt8 :=
  ⟨8 * fragmentOffset pkt, moreFragments pkt, payload pkt⟩

/-- What the fragments of one datagram have in common. -/
structure DatagramKey where
  source : Bytes
  destination : Bytes
  protocol : UInt8
  identification : Nat
  deriving DecidableEq, Repr

def datagramKey : DatagramKey :=
  ⟨source pkt, destination pkt, protocol pkt, identification pkt⟩

theorem ihl_eq : ihl pkt = (byteAt pkt 0).toNat % 16 * 4 :=
  congrArg (· * 4) (Nat.and_two_pow_sub_one_eq_mod (byteAt pkt 0).toNat 4)

theorem ihl_le : ihl pkt ≤ 60 := by
  rw [ihl_eq]
  omega

theorem totalLength_le : totalLength pkt ≤ 65535 :=
  Nat.le_of_lt_succ (BigEndian.word_lt _ _)

theorem length_payload_le : (payload pkt).length ≤ 65535 := by
  have := totalLength_le pkt
  rw [payload, List.length_take]
  omega

theorem payload_eq_slice :
    payload pkt =
      (pkt.take (min (totalLength pkt) pkt.length)).drop (ihl pkt) := by
  rw [payload, List.drop_take, List.take_eq_take_iff, List.length_drop]
  omega

end Ipv4

/-- Reassemble the datagram with the given key from packets in their order of
arrival. -/
def reassembleDatagram (key : Ipv4.DatagramKey) (arrivals : List Bytes) :
    Option Bytes :=
  Reassembly.reassemble
    ((arrivals.filter fun pkt => Ipv4.datagramKey pkt = key).map Ipv4.piece)

theorem reassembleDatagram_of_tiles {key : Ipv4.DatagramKey}
    {payload : Bytes} (nonempty : payload ≠ []) {pkts arrivals : List Bytes}
    (keys : ∀ pkt, pkt ∈ pkts → Ipv4.datagramKey pkt = key)
    (tiles : Reassembly.Tiles false 0 payload (pkts.map Ipv4.piece))
    (order : arrivals.Perm pkts) :
    reassembleDatagram key arrivals = some payload := by
  have sameKey :
      (arrivals.filter fun pkt => Ipv4.datagramKey pkt = key) = arrivals := by
    apply List.filter_eq_self.mpr
    intro pkt member
    exact decide_eq_true (keys pkt (order.mem_iff.mp member))
  rw [reassembleDatagram, sameKey]
  exact Reassembly.reassemble_of_tiles nonempty tiles (order.map Ipv4.piece)

theorem reassembleDatagram_append {key : Ipv4.DatagramKey}
    {arrivals : List Bytes} {payload : Bytes}
    (delivered : reassembleDatagram key arrivals = some payload)
    (later : List Bytes) :
    reassembleDatagram key (arrivals ++ later) = some payload := by
  rw [reassembleDatagram, List.filter_append, List.map_append]
  exact Reassembly.receive_append delivered _

end CocoNet
