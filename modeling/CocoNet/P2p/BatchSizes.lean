import CocoNet.P2p.BatchLimits

/-!
# How large a batch gets

Two tests keep a batch small.  A packet above half the byte limit is never
added; any other is added to a fresh batch without a second look, where a limit
of five bytes is the least that leaves room for it.  To a batch that is not
fresh a packet is added only if the result stays below the limit.  The count
is tested before the packet is added, so a limit of no packets at all still
lets one through.
-/

namespace CocoNet

open StepMachine

/-! ## One round -/

/-- The limits of a batch between two rounds. -/
structure WithinLimits (config : UplinkConfig) (batch : BatchBuilder) :
    Prop where
  bytes : batch.payloadSize < config.maxBatchBytes
  pkts : batch.pktCount ≤ max 1 config.maxBatchPkts

/-- An `add` grows the payload by a frame and the count by one, or changes
nothing. -/
theorem BatchBuilder.add_grows (batch : BatchBuilder) (pkt : Bytes) :
    (batch.add pkt).1.payloadSize ≤ batch.payloadSize + pkt.length + 2 ∧
      (batch.add pkt).1.pktCount ≤ batch.pktCount + 1 := by
  by_cases full : batch.pktCount = u16Max
  · simp only [add_of_full full]
    omega
  · obtain ⟨_, bytes, count⟩ := add_of_room full pkt
    have header := batch.header
    rw [payloadSize, payloadSize, bytes, count]
    simp only [List.length_append, BigEndian.length_bytes]
    omega

theorem Represents.sizes_nil {fresh : BatchBuilder}
    (represents : Represents fresh []) :
    fresh.payloadSize = 0 ∧ fresh.pktCount = 0 :=
  ⟨represents.payloadSize_eq, represents.count⟩

namespace WithinLimits

variable {config : UplinkConfig}

theorem of_fresh (atLeast : 5 ≤ config.maxBatchBytes) {fresh : BatchBuilder}
    (represents : Represents fresh []) : WithinLimits config fresh := by
  obtain ⟨payload, count⟩ := represents.sizes_nil
  exact ⟨by omega, by omega⟩

/-- A fresh batch has room for every packet up to half the limit. -/
theorem add_fresh (atLeast : 5 ≤ config.maxBatchBytes) {fresh : BatchBuilder}
    (represents : Represents fresh []) {pkt : Bytes}
    (small : pkt.length ≤ config.maxBatchBytes / 2) :
    WithinLimits config (fresh.add pkt).1 := by
  obtain ⟨payloadGrows, countGrows⟩ := fresh.add_grows pkt
  obtain ⟨payload, count⟩ := represents.sizes_nil
  exact ⟨by omega, by omega⟩

private theorem add_below {batch : BatchBuilder} {pkt : Bytes}
    (below : ¬ (batch.pktCount ≥ config.maxBatchPkts ∨
      batch.payloadSize + pkt.length + 2 ≥ config.maxBatchBytes)) :
    WithinLimits config (batch.add pkt).1 := by
  obtain ⟨payloadGrows, countGrows⟩ := batch.add_grows pkt
  exact ⟨by omega, by omega⟩

theorem of_round (atLeast : 5 ≤ config.maxBatchBytes)
    (directPeers : Finset PeerId) (event : UplinkEvent) {batch : BatchBuilder}
    {pending : List Bytes} (represents : Represents batch pending) :
    WithinLimits config (uplinkStep config directPeers batch event).1 := by
  have fresh := flushBatch_fresh directPeers represents
  rcases round_cases config directPeers batch event with
    ⟨_, after, _⟩ | ⟨pkt, _, small, _, ⟨_, after, _⟩ | ⟨below, after, _⟩⟩
  · rw [after]
    exact of_fresh atLeast fresh
  · rw [after]
    exact add_fresh atLeast fresh small
  · rw [after]
    exact add_below below

end WithinLimits

private theorem uplink_withinLimits {config : UplinkConfig}
    (atLeast : 5 ≤ config.maxBatchBytes)
    (events : List (Finset PeerId × UplinkEvent)) :
    WithinLimits config ((uplink config).stateAfter events).batch := by
  have both := uplink_batch_invariant config
    (fun batch =>
      (∃ pending, Represents batch pending) ∧ WithinLimits config batch)
    ⟨⟨[], Represents.withCapacity _⟩,
      WithinLimits.of_fresh atLeast (Represents.withCapacity _)⟩
    (fun directPeers event batch ⟨⟨_, represents⟩, _⟩ =>
      ⟨uplinkStep_represents config directPeers event represents,
        WithinLimits.of_round atLeast directPeers event represents⟩)
    events
  exact both.2

/-! ## What is sent -/

/-- The bytes of a transmission. -/
def Outgoing.data : Outgoing → Bytes
  | .publish _ data => data
  | .sendRequests _ data => data

/-- A message of packets that its receivers unpack and read to its end: it
holds at least one packet and no more than allowed, and its length is below the
limit and the header together. -/
def BatchWithin (config : UplinkConfig) (data : Bytes) : Prop :=
  ∃ packets, data = batchMessage packets ∧
    unpackBatch data = .ok ⟨packets, data.length⟩ ∧
    1 ≤ packets.length ∧ packets.length ≤ max 1 config.maxBatchPkts ∧
    data.length < hdrLen + config.maxBatchBytes

theorem flushBatch_within {config : UplinkConfig} {batch : BatchBuilder}
    {pending : List Bytes} (represents : Represents batch pending)
    (small : ∀ pkt, pkt ∈ pending → pkt.length ≤ u16Max)
    (within : WithinLimits config batch) (directPeers : Finset PeerId)
    {outgoing : Outgoing}
    (member : outgoing ∈ (flushBatch directPeers batch).2) :
    BatchWithin config outgoing.data := by
  by_cases empty : pending = []
  · rw [flushBatch_of_empty directPeers (represents.isEmpty_iff.2 empty)]
      at member
    cases member
  have message : outgoing.data = batchMessage pending := by
    have nonempty := represents.isEmpty_eq_false empty
    rw [flushBatch_of_nonempty directPeers nonempty] at member
    rw [List.mem_singleton.1 member, ← (represents.take empty).1]
    split
    · rfl
    · rfl
  have payload := within.bytes
  have count := within.pkts
  rw [represents.payloadSize_eq] at payload
  rw [represents.count] at count
  rw [message]
  refine ⟨pending, rfl, unpackBatch_batchMessage represents.length_le small,
    List.length_pos_of_ne_nil empty, count, ?_⟩
  rw [batchMessage, List.length_append, length_batchHeader]
  exact Nat.add_lt_add_left payload hdrLen

private theorem mem_flushBatch_of_mem_batchesAmong {config : UplinkConfig}
    {directPeers : Finset PeerId} {batch : BatchBuilder} {event : UplinkEvent}
    {outgoing : Outgoing}
    (member : outgoing ∈ event.batchesAmong config
      (uplinkStep config directPeers batch event).2) :
    outgoing ∈ (flushBatch directPeers batch).2 := by
  rcases round_cases config directPeers batch event with
    ⟨_, _, sends⟩ | ⟨_, _, _, _, ⟨_, _, sends⟩ | ⟨_, _, sends⟩⟩
  · rwa [sends] at member
  · rwa [sends] at member
  · rw [sends] at member
    cases member

section Runs

variable {config : UplinkConfig} (atLeast : 5 ≤ config.maxBatchBytes)
variable (atMost : config.maxBatchBytes ≤ 131071)

include atMost in
private theorem accounts_of_atMost
    (events : List (Finset PeerId × UplinkEvent)) :
    Accounts (acceptedPackets config events)
      ((uplink config).stateAfter events).batch
      (sentBatches config events) := by
  apply accounts_of_fits
  intro earlier event later _
  exact packetFits_of_le atMost earlier event

include atLeast atMost in
private theorem sentBatches_within (events : List (Finset PeerId × UplinkEvent))
    {outgoing : Outgoing} (member : outgoing ∈ sentBatches config events) :
    BatchWithin config outgoing.data := by
  rcases (mem_outputsOf_observe_iff _ _ _ _).1 member with
    ⟨earlier, ⟨directPeers, event⟩, _, _, noted⟩
  by_cases running : ((uplink config).stateAfter earlier).running = true
  · rw [uplink_step_running config running] at noted
    rcases (accounts_of_atMost atMost earlier).exists_split with
      ⟨_, pending, _, represents, small, _⟩
    exact flushBatch_within represents small
      (uplink_withinLimits atLeast earlier) directPeers
      (mem_flushBatch_of_mem_batchesAmong noted)
  · rw [uplink_step_stopped config running, batchesAmong_nil] at noted
    cases noted

end Runs

/-! ## The limits in every reachable state -/

/-- The buffer is a header and the frames of the pending packets, and the
numbers read off it stay within the limits. -/
structure KeepsLimits (config : UplinkConfig) (batch : BatchBuilder)
    (pending : List Bytes) : Prop where
  buffer : batch.buf.bytes = batchHeader 0 ++ Framing.encodeFrames pending
  lengths : ∀ pkt, pkt ∈ pending → pkt.length ≤ u16Max
  noUnderflow : hdrLen ≤ batch.buf.bytes.length
  payload :
    batch.payloadSize = (pending.map fun pkt => 2 + pkt.length).sum
  count : batch.pktCount = pending.length
  bytes : batch.payloadSize < config.maxBatchBytes
  pkts : batch.pktCount ≤ max 1 config.maxBatchPkts

private theorem length_encodeFrames (pending : List Bytes) :
    (Framing.encodeFrames pending).length =
      (pending.map fun pkt => 2 + pkt.length).sum := by
  simp [Framing.encodeFrames, List.length_flatMap, Nat.add_comm]

/-- A transmission is a batch that a round flushed, or a large packet that the
loop took. -/
theorem outputsOf_sent_or_large (config : UplinkConfig)
    {events : List (Finset PeerId × UplinkEvent)} {outgoing : Outgoing}
    (member : outgoing ∈ (uplink config).outputsOf events) :
    outgoing ∈ sentBatches config events ∨
      ∃ directPeers pkt, (directPeers, .recv (some pkt)) ∈ events ∧
        pkt.length > config.maxBatchBytes / 2 ∧
        outgoing = .publish .packets pkt := by
  obtain ⟨earlier, ⟨directPeers, event⟩, later, shape, output⟩ :=
    (mem_outputsOf_iff _ _ _).1 member
  by_cases running : ((uplink config).stateAfter earlier).running = true
  · rw [uplink_step_running config running] at output
    rcases mem_batchesAmong_or_large config directPeers
        ((uplink config).stateAfter earlier).batch event output with
      batch | ⟨pkt, large, isRecv, same⟩
    · apply Or.inl
      apply (mem_outputsOf_observe_iff _ _ _ _).2
      refine ⟨earlier, (directPeers, event), later, shape, ?_⟩
      rw [uplink_step_running config running]
      exact batch
    · refine Or.inr ⟨directPeers, pkt, ?_, large, same⟩
      rw [shape, isRecv]
      simp
  · rw [uplink_step_stopped config running] at output
    cases output

/-- With a limit of at least five and at most 131071 bytes, in every reachable
state the builder holds the packets added and not yet sent, within the limits;
every batch sent is within the limits, and nothing else leaves but a large
packet, raw. -/
theorem batch_limits (config : UplinkConfig)
    (atLeast : 5 ≤ config.maxBatchBytes)
    (atMost : config.maxBatchBytes ≤ 131071)
    (events : List (Finset PeerId × UplinkEvent)) :
    (∃ delivered pending,
        receivedAll (sentBatches config events) = .ok delivered ∧
          delivered ++ pending = acceptedPackets config events ∧
          KeepsLimits config ((uplink config).stateAfter events).batch
            pending) ∧
      (∀ outgoing, outgoing ∈ sentBatches config events →
        BatchWithin config outgoing.data) ∧
      ∀ outgoing, outgoing ∈ (uplink config).outputsOf events →
        outgoing ∈ sentBatches config events ∨
          ∃ directPeers pkt, (directPeers, .recv (some pkt)) ∈ events ∧
            pkt.length > config.maxBatchBytes / 2 ∧
            outgoing = .publish .packets pkt := by
  refine ⟨?_, fun _ => sentBatches_within atLeast atMost events,
    fun _ => outputsOf_sent_or_large config⟩
  · obtain ⟨delivered, pending, received, represents, small, split⟩ :=
      (accounts_of_atMost atMost events).exists_split
    have within := uplink_withinLimits atLeast events
    have payload := represents.payloadSize_eq
    rw [length_encodeFrames] at payload
    exact ⟨delivered, pending, received, split, represents.bytes, small,
      BatchBuilder.header _, payload, represents.count, within.bytes,
      within.pkts⟩

/-- The least limit, and no packets allowed: a packet of two bytes is still
added to the fresh batch, and leaves before the next one. -/
theorem batch_limits_least :
    sentBatches ⟨5, 0⟩
        [(∅, .recv (some [0x45, 0x00])), (∅, .recv (some [0x60, 0x00]))] =
      [.publish .packets (batchMessage [[0x45, 0x00]])] ∧
    BatchWithin ⟨5, 0⟩ (batchMessage [[0x45, 0x00]]) := by
  have sent : sentBatches ⟨5, 0⟩
      [(∅, .recv (some [0x45, 0x00])), (∅, .recv (some [0x60, 0x00]))] =
        [.publish .packets (batchMessage [[0x45, 0x00]])] := by
    rfl
  obtain ⟨_, within, _⟩ := batch_limits ⟨5, 0⟩ (by decide) (by decide)
    [(∅, .recv (some [0x45, 0x00])), (∅, .recv (some [0x60, 0x00]))]
  rw [sent] at within
  exact ⟨sent, within _ (List.mem_singleton.2 rfl)⟩

end CocoNet
