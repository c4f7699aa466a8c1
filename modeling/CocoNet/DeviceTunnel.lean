import CocoNet.Routing.TunPipes
import CocoNet.Tunnel

/-!
# From device to device

Every node has its TUN side, whose tasks run in some order of their own.  What
the loop of the node takes is a first part of what they have pumped, and what
the loop delivers waits for them.  While the orders keep packets apart, a host
receives from the device of its node what the host at the other end has given
to the device of its own, as far as the network has carried it.
-/

namespace CocoNet

open StepMachine
open Reassembly

/-- The TUN side of a node: the packets that its host gives to the device, the
answers of the device to writes, its settings, and an order in which its tasks
have run. -/
structure DeviceRun where
  device : List Bytes
  accepts : List Bytes → Bytes → Bool
  mtu : Nat
  respectDf : Bool
  schedule : List TunTask

def DeviceRun.side (tun : DeviceRun) (incoming : List Bytes) : TunSide :=
  tunSideAfter tun.accepts tun.mtu tun.respectDf tun.device incoming
    tun.schedule

/-- Every write to a stream of the bridge found it empty. -/
structure DeviceRun.KeepsApart (tun : DeviceRun) (incoming : List Bytes) :
    Prop where
  uplink : UplinkFindsEmpty tun.accepts tun.mtu tun.respectDf tun.device
    incoming tun.schedule
  downlink : DownlinkFindsEmpty tun.accepts tun.mtu tun.respectDf tun.device
    incoming tun.schedule

section OneNode

variable {tun : DeviceRun} {incoming : List Bytes}

theorem DeviceRun.KeepsApart.pumped (apart : tun.KeepsApart incoming)
    (sized : PacketSized tun.device) :
    (tun.side incoming).pumped <+: tun.device := by
  have whole := (uplink_whole_iff tun.accepts tun.mtu tun.respectDf incoming
    sized tun.schedule).2 apart.uplink
  rw [Pipe.Whole, List.append_assoc] at whole
  exact ⟨_, whole⟩

theorem DeviceRun.KeepsApart.written (apart : tun.KeepsApart incoming)
    (sized : PacketSized incoming) :
    (tun.side incoming).written <+:
        incoming.flatMap (writesOf tun.mtu tun.respectDf) ∧
      ((tun.side incoming).Idle →
        (tun.side incoming).written =
          incoming.flatMap (writesOf tun.mtu tun.respectDf)) := by
  have whole : Pipe.Whole (incoming.flatMap (writesOf tun.mtu tun.respectDf))
      ((tun.side incoming).downlink tun.mtu tun.respectDf)
      (tun.side incoming).readByBridge :=
    (downlink_whole_iff tun.accepts tun.mtu tun.respectDf tun.device sized
      tun.schedule).2 apart.downlink
  constructor
  · rw [Pipe.Whole, TunSide.readByBridge, List.append_assoc,
      List.append_assoc] at whole
    exact ⟨_, whole⟩
  · intro idle
    rw [Pipe.whole_of_drained (idle.downlink_drained tun.mtu tun.respectDf),
      idle.readByBridge_eq] at whole
    exact whole

/-- Tasks that have come to rest with every packet passed on as a packet have
kept the packets apart. -/
theorem DeviceRun.keepsApart_of_idle (sized : PacketSized tun.device)
    (sizedIncoming : PacketSized incoming) (idle : (tun.side incoming).Idle)
    (pumped : (tun.side incoming).pumped = tun.device)
    (written : (tun.side incoming).written =
      incoming.flatMap (writesOf tun.mtu tun.respectDf)) :
    tun.KeepsApart incoming := by
  have keeps := idle_keeps_packets_iff tun.accepts tun.mtu tun.respectDf sized
    sizedIncoming idle
  exact ⟨keeps.1.1 pumped, keeps.2.1 written⟩

end OneNode

/-- A host that has received a first part of some packets has received a first
part of their datagrams. -/
theorem receivedDatagrams_mono {first pkts : List Bytes}
    (isFirst : first <+: pkts) :
    receivedDatagrams first <+: receivedDatagrams pkts := by
  rcases isFirst with ⟨rest, rfl⟩
  have arrivals : ipv4Arrivals (first ++ rest) =
      ipv4Arrivals first ++ ipv4Arrivals rest := by
    simp [ipv4Arrivals]
  rw [receivedDatagrams, receivedDatagrams, arrivals, outputsOf_append]
  exact List.prefix_append _ _

variable {config : PeerId → UplinkConfig} {sender receiver : PeerId}

/-- The datagrams that the host behind a node receives from its device. -/
def deviceReceives (config : PeerId → UplinkConfig) (run : List OverlayEvent)
    (tun : DeviceRun) (receiver : PeerId) :
    List (Delivery Ipv4.DatagramKey UInt8) :=
  receivedDatagrams
    (tun.side (deliveries (effectsAt config run receiver))).written

/-- What a host receives from its device, compared with what another one has
given to its own. -/
structure DevicesDeliver (config : PeerId → UplinkConfig)
    (run : List OverlayEvent) (devices : PeerId → DeviceRun)
    (sender receiver : PeerId)
    (received sent : List (Delivery Ipv4.DatagramKey UInt8)) : Prop where
  only : ∀ datagram, datagram ∈ received → datagram ∈ sent
  once : (handledPositions config sender receiver run).Nodup →
    received.Subperm sent
  inOrder : (handledPositions config sender receiver run).Pairwise (· < ·) →
    received.Sublist sent
  complete :
    takenAt config run sender = (devices sender).device →
    handledPositions config sender receiver run =
        List.range (transmissions (effectsAt config run sender)).length →
      ((overlay config).stateAfter run sender).batch.isEmpty = true →
        ((devices receiver).side
            (deliveries (effectsAt config run receiver))).Idle →
          received = sent

/-- In every run of any number of nodes over a network that loses, delays,
reorders and repeats messages at will, and in whatever order the tasks of each
TUN side run as long as they keep packets apart, a host receives from its
device only datagrams that the host at the other end has given to its own; each
at most as often if no transmission is handled twice, in that order if they are
handled in order, and all of them if all are taken, sent, handled and
written. -/
theorem devices_deliver {run : List OverlayEvent}
    (fits : ∀ peer, (config peer).Fits)
    (carried : EachStep (Carried config) run) (devices : PeerId → DeviceRun)
    (takes : ∀ peer, takenAt config run peer <+:
      ((devices peer).side (deliveries (effectsAt config run peer))).pumped)
    (apart : ∀ peer, (devices peer).KeepsApart
      (deliveries (effectsAt config run peer)))
    (packets : ∀ peer pkt, pkt ∈ (devices peer).device →
      IpLike pkt ∧ pkt.length ≤ 65535)
    (sender receiver : PeerId) (ours : Ipv4.DatagramKey → Bool)
    (whole : ∀ pkt, pkt ∈ (devices sender).device →
      isOurs ours pkt = true → WholeDatagram pkt)
    (alien : ∀ other, other ≠ sender →
      ∀ pkt, pkt ∈ (devices other).device → isOurs ours pkt = false) :
    DevicesDeliver config run devices sender receiver
      ((deviceReceives config run (devices receiver) receiver).filter
        fun delivery => ours delivery.key)
      (((devices sender).device.filter (isOurs ours)).map datagramOf) := by
  have sized : ∀ peer, PacketSized (devices peer).device := by
    intro peer pkt member
    rcases packets peer pkt member with ⟨⟨first, rest, rfl, _⟩, small⟩
    exact ⟨by simp, small⟩
  have takenPrefix : ∀ peer,
      takenAt config run peer <+: (devices peer).device :=
    fun peer => (takes peer).trans ((apart peer).pumped (sized peer))
  have links : ∀ other, LinkDelivers config run other receiver := by
    intro other
    apply link_delivers (fits other) carried
    exact fun pkt member =>
      (packets other pkt ((takenPrefix other).subset member)).1
  have incomingSized : PacketSized
      (deliveries (effectsAt config run receiver)) := by
    intro pkt member
    rcases exists_deliveredFrom carried member with ⟨other, _, delivered⟩
    have taken := (links other).only pkt delivered
    exact sized other pkt ((takenPrefix other).subset taken)
  rcases (apart receiver).written incomingSized with ⟨isFirst, isAll⟩
  have atHost := hostReceives_ours carried links
    (fun pkt member => whole pkt ((takenPrefix sender).subset member))
    (fun other different pkt member =>
      alien other different pkt ((takenPrefix other).subset member))
    (devices receiver).mtu (devices receiver).respectDf
  have received :
      ((deviceReceives config run (devices receiver) receiver).filter
          fun delivery => ours delivery.key) <+:
        ((deliveredFrom config sender receiver run).filter
          (isOurs ours)).map datagramOf := by
    rw [← atHost]
    exact (receivedDatagrams_mono isFirst).filter _
  have sent :
      ((takenAt config run sender).filter (isOurs ours)).map datagramOf <+:
        ((devices sender).device.filter (isOurs ours)).map datagramOf :=
    ((takenPrefix sender).filter _).map _
  have tunnel := (links sender).datagrams ours
  refine ⟨?_, ?_, ?_, ?_⟩
  · intro datagram member
    exact sent.subset (tunnel.only datagram (received.subset member))
  · intro nodup
    exact received.sublist.subperm.trans
      ((tunnel.once nodup).trans sent.sublist.subperm)
  · intro increasing
    exact received.sublist.trans ((tunnel.inOrder increasing).trans
      sent.sublist)
  · intro allTaken allHandled nothingWaits idle
    rw [deviceReceives, isAll idle, ← allTaken,
      ← tunnel.complete allHandled nothingWaits]
    exact atHost

/-! ## A small network -/

/-- The device of node 1 gives the two datagrams; every device takes what is
written to it. -/
def twoDatagramDevices (peer : PeerId) : DeviceRun where
  device := if peer = ⟨[1]⟩ then [smallDatagram, smallerDatagram] else []
  accepts _ _ := true
  mtu := 28
  respectDf := false
  schedule := (List.replicate 6 packetByPacket).flatten

private theorem mem_twoDatagramDevices {peer : PeerId} {pkt : Bytes}
    (member : pkt ∈ (twoDatagramDevices peer).device) :
    peer = ⟨[1]⟩ ∧ (pkt = smallDatagram ∨ pkt = smallerDatagram) := by
  simp only [twoDatagramDevices] at member
  split at member
  · rename_i isFirst
    exact ⟨isFirst, by simpa using member⟩
  · cases member

private theorem reorderedDatagrams_other {peer : PeerId}
    (notFirst : peer ≠ ⟨[1]⟩)
    (notSecond : peer ≠ ⟨[2]⟩) : inputsAt peer reorderedDatagrams = [] := by
  simp [inputsAt, eventsAt, reorderedDatagrams, reordered, twoPublished,
    heard, notFirst.symm, notSecond.symm]

private theorem datagrams_sized {pkts : List Bytes}
    (small : ∀ pkt, pkt ∈ pkts →
      pkt = smallDatagram ∨ pkt = smallerDatagram) : PacketSized pkts := by
  intro pkt member
  rcases small pkt member with same | same <;> rw [same] <;> decide

private theorem twoDatagramDevices_apart (peer : PeerId) :
    (twoDatagramDevices peer).KeepsApart
      (deliveries (effectsAt (fun _ => ⟨256, 8⟩) reorderedDatagrams
        peer)) := by
  have sized : PacketSized (twoDatagramDevices peer).device :=
    datagrams_sized fun _ member => (mem_twoDatagramDevices member).2
  by_cases isFirst : peer = ⟨[1]⟩
  · subst isFirst
    have delivered : deliveries
        (effectsAt (fun _ => ⟨256, 8⟩) reorderedDatagrams ⟨[1]⟩) = [] := by
      decide +kernel
    rw [delivered]
    refine DeviceRun.keepsApart_of_idle sized (datagrams_sized (by simp))
      ?_ ?_ ?_
    · constructor <;> decide +kernel
    · decide +kernel
    · decide +kernel
  by_cases isSecond : peer = ⟨[2]⟩
  · subst isSecond
    have delivered : deliveries
        (effectsAt (fun _ => ⟨256, 8⟩) reorderedDatagrams ⟨[2]⟩) =
          [smallerDatagram, smallDatagram, smallerDatagram] := by
      decide +kernel
    rw [delivered]
    refine DeviceRun.keepsApart_of_idle sized (datagrams_sized (by simp))
      ?_ ?_ ?_
    · constructor <;> decide +kernel
    · decide +kernel
    · decide +kernel
  · have delivered : deliveries
        (effectsAt (fun _ => ⟨256, 8⟩) reorderedDatagrams peer) = [] := by
      rw [effectsAt_eq, reorderedDatagrams_other isFirst isSecond]
      rfl
    rw [delivered]
    have device : twoDatagramDevices peer =
        ⟨[], fun _ _ => true, 28, false,
          (List.replicate 6 packetByPacket).flatten⟩ := by
      simp [twoDatagramDevices, isFirst]
    rw [device] at sized ⊢
    refine DeviceRun.keepsApart_of_idle sized (datagrams_sized nofun) ?_ ?_ ?_
    · constructor <;> decide +kernel
    · decide +kernel
    · decide +kernel

/-- The host behind node 2 receives the datagrams as the network reorders and
repeats them. -/
theorem devices_deliver_reordered :
    ((deviceReceives (fun _ => ⟨256, 8⟩) reorderedDatagrams
          (twoDatagramDevices ⟨[2]⟩) ⟨[2]⟩).filter fun _ => true) =
        [datagramOf smallerDatagram, datagramOf smallDatagram,
          datagramOf smallerDatagram] ∧
      DevicesDeliver (fun _ => ⟨256, 8⟩) reorderedDatagrams
        twoDatagramDevices ⟨[1]⟩ ⟨[2]⟩
        ((deviceReceives (fun _ => ⟨256, 8⟩) reorderedDatagrams
          (twoDatagramDevices ⟨[2]⟩) ⟨[2]⟩).filter fun _ => true)
        (((twoDatagramDevices ⟨[1]⟩).device.filter
          (isOurs fun _ => true)).map datagramOf) := by
  refine ⟨by decide +kernel, devices_deliver
    (fun _ => ⟨by decide, by decide⟩) reorderedDatagrams_carried
    twoDatagramDevices ?_ twoDatagramDevices_apart ?_ ⟨[1]⟩ ⟨[2]⟩
    (fun _ => true) ?_ ?_⟩
  · intro peer
    by_cases isFirst : peer = ⟨[1]⟩
    · subst isFirst
      decide +kernel
    · have taken :
          takenAt (fun _ => ⟨256, 8⟩) reorderedDatagrams peer = [] := by
        apply List.eq_nil_iff_forall_not_mem.2
        intro pkt member
        exact isFirst (taken_reordered member).1
      rw [taken]
      exact List.nil_prefix
  · intro peer pkt member
    rcases (mem_twoDatagramDevices member).2 with same | same
    · rw [same]
      exact ⟨⟨_, _, rfl, Or.inl (by decide)⟩, by decide⟩
    · rw [same]
      exact ⟨⟨_, _, rfl, Or.inl (by decide)⟩, by decide⟩
  · intro pkt member _
    rcases (mem_twoDatagramDevices member).2 with same | same
    · rw [same]
      exact smallDatagram_whole
    · rw [same]
      exact smallerDatagram_whole
  · intro other different pkt member
    exact absurd (mem_twoDatagramDevices member).1 different

end CocoNet
