import CocoNet.P2p.OverlayDelivery
import CocoNet.Routing.Datagrams

/-!
# From host to host

A host hands its datagrams to the TUN device of its node, the overlay carries
them, and the node at the other end writes them to its own TUN device, cut to
the MTU, where another host puts them together again.  What a host receives
from another one depends on the link between their nodes only: packets of third
nodes, and fragments on the way, make no difference.
-/

namespace CocoNet

open StepMachine
open Reassembly

variable {config : PeerId → UplinkConfig} {sender receiver : PeerId}

/-- The datagrams that the host behind a node receives. -/
def hostReceives (config : PeerId → UplinkConfig) (run : List OverlayEvent)
    (mtu : Nat) (respectDf : Bool) (receiver : PeerId) :
    List (Delivery Ipv4.DatagramKey UInt8) :=
  receivedDatagrams ((deliveries (effectsAt config run receiver)).flatMap
    (writesOf mtu respectDf))

/-- Packets that are delivered on behalf of one node only are found among all
deliveries as they are found among those of that node. -/
theorem filter_deliveries {run : List OverlayEvent}
    (carried : EachStep (Carried config) run) (keep : Bytes → Bool)
    (alien : ∀ other, other ≠ sender →
      ∀ pkt, pkt ∈ deliveredFrom config other receiver run →
        keep pkt = false) :
    (deliveries (effectsAt config run receiver)).filter keep =
      (deliveredFrom config sender receiver run).filter keep := by
  induction run using List.reverseRecOn with
  | nil =>
      rfl
  | append_singleton run event inductionHypothesis =>
      obtain ⟨carriedBefore, lastCarried⟩ := (eachStep_snoc_iff _ _ _).1 carried
      have before := inductionHypothesis carriedBefore (by
        intro other different pkt member
        apply alien other different pkt
        rw [deliveredFrom_snoc]
        exact List.mem_append_left _ member)
      rw [deliveredFrom_snoc, List.filter_append, ← before]
      by_cases here : event.node = receiver
      swap
      · rw [effectsAt_snoc_other config run here]
        simp [here]
      subst here
      rw [effectsAt_snoc_own, deliveries_append, List.filter_append]
      by_cases brings : (event.dataFrom sender).isSome = true
      · simp [brings]
      · have nothing :
            (deliveries (effectsOf config run event)).filter keep = [] := by
          apply List.filter_eq_nil_iff.2
          intro pkt member
          obtain ⟨other, _, otherBrings⟩ := exists_dataFrom lastCarried member
          have different : other ≠ sender := by
            intro same
            rw [same] at otherBrings
            exact brings otherBrings
          rw [alien other different pkt, Bool.false_eq_true]
          · exact not_false
          · rw [deliveredFrom_snoc]
            simp [otherBrings, member]
        rw [nothing]
        simp [brings]

/-- What a host receives from another one, compared with what that one has
sent. -/
structure TunnelDelivers (config : PeerId → UplinkConfig)
    (run : List OverlayEvent) (sender receiver : PeerId)
    (received sent : List (Delivery Ipv4.DatagramKey UInt8)) : Prop where
  only : ∀ datagram, datagram ∈ received → datagram ∈ sent
  once : (handledPositions config sender receiver run).Nodup →
    received.Subperm sent
  inOrder : (handledPositions config sender receiver run).Pairwise (· < ·) →
    received.Sublist sent
  complete :
    handledPositions config sender receiver run =
        List.range (transmissions (effectsAt config run sender)).length →
      ((overlay config).stateAfter run sender).batch.isEmpty = true →
        received = sent

/-- What a host receives under our keys is what its node has delivered on
behalf of the one node that takes packets under them. -/
theorem hostReceives_ours {run : List OverlayEvent}
    (carried : EachStep (Carried config) run)
    (links : ∀ other, LinkDelivers config run other receiver)
    {ours : Ipv4.DatagramKey → Bool}
    (whole : ∀ pkt, pkt ∈ takenAt config run sender →
      isOurs ours pkt = true → WholeDatagram pkt)
    (alien : ∀ other, other ≠ sender →
      ∀ pkt, pkt ∈ takenAt config run other → isOurs ours pkt = false)
    (mtu : Nat) (respectDf : Bool) :
    ((hostReceives config run mtu respectDf receiver).filter
        fun delivery => ours delivery.key) =
      ((deliveredFrom config sender receiver run).filter
        (isOurs ours)).map datagramOf := by
  have arrived :
      (deliveries (effectsAt config run receiver)).filter (isOurs ours) =
        (deliveredFrom config sender receiver run).filter (isOurs ours) := by
    apply filter_deliveries carried
    intro other different pkt member
    exact alien other different pkt ((links other).only pkt member)
  have wholeArrived : ∀ pkt,
      pkt ∈ (deliveries (effectsAt config run receiver)).filter
          (isOurs ours) →
        WholeDatagram pkt := by
    intro pkt member
    rw [arrived] at member
    obtain ⟨delivered, own⟩ := List.mem_filter.1 member
    exact whole pkt ((links sender).only pkt delivered) own
  rw [hostReceives, receivedDatagrams_whole mtu respectDf ours wholeArrived,
    arrived]

/-- The packets of a link, as datagrams. -/
theorem LinkDelivers.datagrams {run : List OverlayEvent}
    (link : LinkDelivers config run sender receiver)
    (ours : Ipv4.DatagramKey → Bool) :
    TunnelDelivers config run sender receiver
      (((deliveredFrom config sender receiver run).filter
        (isOurs ours)).map datagramOf)
      (((takenAt config run sender).filter (isOurs ours)).map datagramOf) := by
  constructor
  · intro datagram member
    obtain ⟨pkt, inFilter, same⟩ := List.mem_map.1 member
    obtain ⟨delivered, own⟩ := List.mem_filter.1 inFilter
    rw [← same]
    apply List.mem_map_of_mem
    exact List.mem_filter.2 ⟨link.only pkt delivered, own⟩
  · intro nodup
    obtain ⟨part, perm, sublist⟩ := (link.once nodup).filter (isOurs ours)
    exact ⟨part.map datagramOf, perm.map _, sublist.map _⟩
  · intro increasing
    exact ((link.inOrder increasing).filter _).map _
  · intro all empty
    rw [link.complete all empty]

/-- In every run over a network that loses, delays, reorders and repeats
messages at will, with any number of other nodes, a host receives only
datagrams that the host at the other end has sent; each at most as often as it
was sent if no transmission is handled twice, in the order of sending if they
are handled in order, and all of them if all are handled and none waits in the
builder.  Datagrams longer than the MTU count, although they arrive in
pieces. -/
theorem tunnel_delivers {run : List OverlayEvent}
    (fits : ∀ peer, (config peer).Fits)
    (carried : EachStep (Carried config) run)
    (ipLike : ∀ peer pkt, pkt ∈ takenAt config run peer → IpLike pkt)
    (sender receiver : PeerId) (ours : Ipv4.DatagramKey → Bool)
    (whole : ∀ pkt, pkt ∈ takenAt config run sender →
      isOurs ours pkt = true → WholeDatagram pkt)
    (alien : ∀ other, other ≠ sender →
      ∀ pkt, pkt ∈ takenAt config run other → isOurs ours pkt = false)
    (mtu : Nat) (respectDf : Bool) :
    TunnelDelivers config run sender receiver
      ((hostReceives config run mtu respectDf receiver).filter
        fun delivery => ours delivery.key)
      (((takenAt config run sender).filter (isOurs ours)).map datagramOf) := by
  have links : ∀ other, LinkDelivers config run other receiver :=
    fun other => link_delivers (fits other) carried (ipLike other)
  rw [hostReceives_ours carried links whole alien mtu respectDf]
  exact (links sender).datagrams ours

/-- Eight bytes of UDP between the hosts of `smallDatagram`. -/
def smallerDatagram : Bytes :=
  [0x45, 0, 0, 28, 0, 8, 0, 0, 64, 17, 0, 0, 10, 99, 0, 1, 10, 99, 0, 2] ++
    List.replicate 8 0xCD

theorem smallerDatagram_whole : WholeDatagram smallerDatagram :=
  ⟨⟨by decide, by decide, by decide, by decide⟩, by decide, by decide⟩

/-- Node 1 takes two datagrams, which reach node 2 in another order and one of
them twice; node 2 writes the longer one in two fragments. -/
def reorderedDatagrams : List OverlayEvent :=
  reordered smallDatagram smallerDatagram

theorem reorderedDatagrams_carried :
    EachStep (Carried fun _ => ⟨256, 8⟩) reorderedDatagrams :=
  reordered_carried (by decide +kernel)

theorem tunnel_delivers_reordered :
    ((hostReceives (fun _ => ⟨256, 8⟩) reorderedDatagrams 28 false
          ⟨[2]⟩).filter fun _ => true) =
        [datagramOf smallerDatagram, datagramOf smallDatagram,
          datagramOf smallerDatagram] ∧
      TunnelDelivers (fun _ => ⟨256, 8⟩) reorderedDatagrams ⟨[1]⟩ ⟨[2]⟩
        ((hostReceives (fun _ => ⟨256, 8⟩) reorderedDatagrams 28 false
          ⟨[2]⟩).filter fun _ => true)
        (((takenAt (fun _ => ⟨256, 8⟩) reorderedDatagrams ⟨[1]⟩).filter
          (isOurs fun _ => true)).map datagramOf) := by
  refine ⟨by decide +kernel, tunnel_delivers
    (fun _ => ⟨by decide, by decide⟩) reorderedDatagrams_carried ?_ ⟨[1]⟩
    ⟨[2]⟩ (fun _ => true) ?_ ?_ 28 false⟩
  · intro peer pkt member
    rcases (taken_reordered member).2 with isFirst | isSecond
    · exact ⟨_, _, isFirst, Or.inl (by decide)⟩
    · exact ⟨_, _, isSecond, Or.inl (by decide)⟩
  · intro pkt member _
    rcases (taken_reordered member).2 with isFirst | isSecond
    · rw [isFirst]
      exact smallDatagram_whole
    · rw [isSecond]
      exact smallerDatagram_whole
  · intro other different pkt member
    exact absurd (taken_reordered member).1 different

end CocoNet
