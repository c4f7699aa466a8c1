import CocoNet.P2p.BatchRoundTrip
import CocoNet.P2p.EventLoop

/-!
# What an inbound message delivers

Whatever bytes a peer sends, over gossipsub or in a request, the TUN side gets
either the message itself or the frames after its header: as many as there
are, and not more than the header counts.
-/

namespace CocoNet

/-! ## Deliveries of a round -/

def Effect.delivery : Effect → Option Bytes
  | .deliver packet => some packet
  | _ => none

def deliveries (effects : List Effect) : List Bytes :=
  effects.filterMap Effect.delivery

private theorem deliveries_map (packets : List Bytes) :
    deliveries (packets.map .deliver) = packets :=
  filterMap_map_some Effect.delivery (fun _ => rfl) packets

section Rounds

variable (config : NodeConfig) {state : LoopState}
variable (surroundings : Surroundings)
variable {data : Bytes} {unpacked : Unpacked}

theorem deliveries_gossip (running : state.status = .running)
    {source : Option PeerId}
    (notLocal : source ≠ some config.localPeer)
    (unpacks : unpackGossip data = .ok unpacked) :
    deliveries ((eventLoop config).step state
        (surroundings, .swarm (.gossip source (.packets data)))).2 =
      unpacked.packets := by
  have handled : onLoopEvent config surroundings state
      (.swarm (.gossip source (.packets data))) =
        .ok (state, unpacked.packets.map .deliver) := by
    simp only [onLoopEvent, onSwarmEvent, onGossip, if_neg notLocal, unpacks,
      Checked.ok_bind]
  rw [eventLoop_step_running config running, handled]
  exact deliveries_map unpacked.packets

theorem deliveries_request (running : state.status = .running)
    (sender : PeerId)
    (unpacks : unpackRequest data = .ok unpacked) :
    deliveries ((eventLoop config).step state
        (surroundings, .swarm (.request sender data))).2 =
      unpacked.packets := by
  have handled : onLoopEvent config surroundings state
      (.swarm (.request sender data)) =
        .ok (state, unpacked.packets.map .deliver ++ [.acknowledge sender]) := by
    simp only [onLoopEvent, onSwarmEvent, unpacks, Checked.ok_bind]
  rw [eventLoop_step_running config running, handled]
  have appended :
      deliveries (unpacked.packets.map .deliver ++ [.acknowledge sender]) =
        deliveries (unpacked.packets.map .deliver) ++ [] :=
    List.filterMap_append
  rw [appended, deliveries_map, List.append_nil]

end Rounds

/-! ## Exact unpacking -/

/-- The message begins with the letters, the version and a count. -/
theorem headed_iff (data : Bytes) :
    Headed data ↔ 5 ≤ data.length ∧ data.take 3 = [0x43, 0x4F, 0x01] := by
  constructor
  · intro ⟨high, low, rest, shape⟩
    rw [shape]
    simp
  · intro ⟨long, start⟩
    obtain ⟨tail, shape⟩ : ∃ tail, data = [0x43, 0x4F, 0x01] ++ tail :=
      ⟨data.drop 3, by rw [← start, List.take_append_drop]⟩
    subst shape
    cases tail with
    | nil =>
        simp at long
    | cons high others =>
        cases others with
        | nil =>
            simp at long
        | cons low rest =>
            exact ⟨high, low, rest, rfl⟩

/-- Each packet is a slice of the message, behind the header, and the slices
stand in order without overlapping. -/
def Slices (data : Bytes) (packets : List Bytes) : Prop :=
  ∃ extents : List (Nat × Nat),
    packets = extents.map (fun extent =>
      (data.drop extent.1).take (extent.2 - extent.1)) ∧
    (∀ extent, extent ∈ extents →
      5 < extent.1 ∧ extent.1 ≤ extent.2 ∧ extent.2 ≤ data.length) ∧
    extents.Pairwise fun first second => first.2 < second.1

/-- What a message unpacks to.  A message without the header is delivered
whole.  Behind a header with a count, the packets are those of the one maximal
framing; they are slices of the message, a message that is cut delivers the
first of them, and a full count of them encodes again to what was read. -/
structure UnpacksExactly (data : Bytes) (unpacked : Unpacked) : Prop where
  raw : ¬ (5 ≤ data.length ∧ data.take 3 = [0x43, 0x4F, 0x01]) →
    unpacked.packets = [data]
  framing : ∀ high low rest,
    data = 0x43 :: 0x4F :: 0x01 :: high :: low :: rest →
    (∃ after, Framing.Maximal (BigEndian.word high low) rest
        unpacked.packets after) ∧
      ∀ packets after,
        Framing.Maximal (BigEndian.word high low) rest packets after →
          packets = unpacked.packets
  slices : Headed data → Slices data unpacked.packets
  cut : Headed data → ∀ length, 5 ≤ length →
    ∃ shorter, unpackBatch (data.take length) = .ok shorter ∧
      shorter.packets <+: unpacked.packets
  reencodes : ∀ high low rest,
    data = 0x43 :: 0x4F :: 0x01 :: high :: low :: rest →
    unpacked.packets.length = BigEndian.word high low →
    batchMessage unpacked.packets = data.take unpacked.consumed

private theorem slices_of_maximal {count : Nat} (front : Bytes)
    {rest after : Bytes}
    {packets : List Bytes} (header : front.length = 5)
    (maximal : Framing.Maximal count rest packets after) :
    Slices (front ++ rest) packets := by
  have shape : front ++ rest =
      front ++ Framing.encodeFrames packets ++ after := by
    rw [List.append_assoc, ← maximal.shape]
  rw [shape]
  refine ⟨Framing.extents front.length packets, ?_, ?_,
    Framing.extents_pairwise _ packets⟩
  · exact (Framing.map_extents front packets after).symm
  · intro extent member
    have bounds := Framing.extents_bounds member
    rw [List.length_append, List.length_append]
    omega

/-- A message cut behind its header is a header with the same count and the
beginning of the rest. -/
theorem take_headed (high low : UInt8) (rest : Bytes) {length : Nat}
    (long : 5 ≤ length) :
    (0x43 :: 0x4F :: 0x01 :: high :: low :: rest).take length =
      0x43 :: 0x4F :: 0x01 :: high :: low :: rest.take (length - 5) := by
  obtain ⟨more, isMore⟩ := Nat.exists_eq_add_of_le' long
  subst isMore
  rw [Nat.add_sub_cancel]
  rfl

private theorem unpackBatch_headed_exactly (high low : UInt8) (rest : Bytes) :
    ∃ unpacked,
      unpackBatch (0x43 :: 0x4F :: 0x01 :: high :: low :: rest) =
          .ok unpacked ∧
        UnpacksExactly (0x43 :: 0x4F :: 0x01 :: high :: low :: rest)
          unpacked := by
  obtain ⟨unpacked, runs, packets, finish⟩ :=
    unpackBatch_of_headed high low rest
  have maximal :=
    Framing.takeFrames_maximal (BigEndian.word high low) rest
  rw [← packets] at maximal
  refine ⟨unpacked, runs, ?_, ?_, ?_, ?_, ?_⟩
  · intro notHeaded
    exact absurd ((headed_iff _).1 ⟨high, low, rest, rfl⟩) notHeaded
  · intro otherHigh otherLow others shape
    simp only [List.cons.injEq, true_and] at shape
    obtain ⟨sameHigh, sameLow, sameRest⟩ := shape
    subst sameHigh
    subst sameLow
    subst sameRest
    refine ⟨⟨_, maximal⟩, ?_⟩
    intro others after isMaximal
    rw [packets, isMaximal.eq_takeFrames]
  · intro _
    exact slices_of_maximal [0x43, 0x4F, 0x01, high, low] rfl maximal
  · intro _ length long
    rw [take_headed high low rest long]
    obtain ⟨shorter, shorterRuns, shorterPackets, _⟩ :=
      unpackBatch_of_headed high low (rest.take (length - 5))
    refine ⟨shorter, shorterRuns, ?_⟩
    rw [shorterPackets, packets]
    have cut := Framing.takeFrames_append_prefix (BigEndian.word high low)
      (rest.take (length - 5)) (rest.drop (length - 5))
    rwa [List.take_append_drop] at cut
  · intro otherHigh otherLow others shape complete
    simp only [List.cons.injEq, true_and] at shape
    obtain ⟨sameHigh, sameLow, _⟩ := shape
    subst sameHigh
    subst sameLow
    have stopped := finish complete
    have restLength := congrArg List.length maximal.shape
    rw [List.length_append] at restLength
    have header : batchHeader (BigEndian.word high low) =
        [0x43, 0x4F, 0x01, high, low] := by
      rw [batchHeader, BigEndian.bytes_word]
      rfl
    have behind : unpacked.consumed - 5 =
        (Framing.encodeFrames unpacked.packets).length := by
      omega
    rw [take_headed high low rest (by omega), behind, maximal.shape,
      List.take_left, batchMessage, complete, header]
    rfl

/-- Whatever bytes another node sends to a running loop, over gossipsub or in a
request, both handlers unpack them in the same way and without a fault,
deliver what they unpack, and unpack exactly. -/
theorem unpacking_exact (config : NodeConfig) {state : LoopState}
    (running : state.status = .running) (surroundings : Surroundings)
    (sender : PeerId) {source : Option PeerId}
    (notLocal : source ≠ some config.localPeer) (data : Bytes) :
    ∃ unpacked,
      unpackGossip data = .ok unpacked ∧ unpackRequest data = .ok unpacked ∧
      deliveries ((eventLoop config).step state
          (surroundings, .swarm (.gossip source (.packets data)))).2 =
        unpacked.packets ∧
      deliveries ((eventLoop config).step state
          (surroundings, .swarm (.request sender data))).2 =
        unpacked.packets ∧
      UnpacksExactly data unpacked := by
  obtain ⟨unpacked, runs, exactly⟩ :
      ∃ unpacked, unpackBatch data = .ok unpacked ∧
        UnpacksExactly data unpacked := by
    by_cases headed : Headed data
    · rcases headed with ⟨high, low, rest, shape⟩
      rw [shape]
      exact unpackBatch_headed_exactly high low rest
    · refine ⟨_, unpackBatch_of_not_headed headed, fun _ => rfl, ?_, ?_, ?_, ?_⟩
      · intro high low rest shape
        exact absurd ⟨high, low, rest, shape⟩ headed
      · intro isHeaded
        exact absurd isHeaded headed
      · intro isHeaded
        exact absurd isHeaded headed
      · intro high low rest shape
        exact absurd ⟨high, low, rest, shape⟩ headed
  exact ⟨unpacked, runs, runs,
    deliveries_gossip config surroundings running notLocal runs,
    deliveries_request config surroundings running sender runs, exactly⟩

/-- A count of two, a complete frame, and a frame that is cut. -/
theorem unpacking_exact_cut :
    ∃ unpacked,
      unpackGossip [0x43, 0x4F, 0x01, 0, 2, 0, 1, 0x60, 0, 9] =
          .ok unpacked ∧
        UnpacksExactly [0x43, 0x4F, 0x01, 0, 2, 0, 1, 0x60, 0, 9]
          unpacked := by
  obtain ⟨unpacked, runs, _, _, _, exactly⟩ :=
    unpacking_exact ⟨⟨[1]⟩, ⟨64, 8⟩⟩
      (rfl : (LoopState.initial ⟨⟨[1]⟩, ⟨64, 8⟩⟩).status = .running)
      ⟨0, 0, true⟩ ⟨[7]⟩ (by decide : (none : Option PeerId) ≠ some ⟨[1]⟩)
      [0x43, 0x4F, 0x01, 0, 2, 0, 1, 0x60, 0, 9]
  exact ⟨unpacked, runs, exactly⟩

end CocoNet
