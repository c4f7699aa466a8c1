import CocoNet.P2p.BatchSizes
import CocoNet.P2p.DataPlane
import CocoNet.P2p.Gossip
import CocoNet.P2p.Recipients

/-!
# How much a node gets out by gossipsub

Every message that a node publishes has the same id, so gossipsub takes at most
one of them a minute, whatever its topic and contents, and a batch holds no
more packets than the configuration allows.  Together these bound the packets
that leave a node by gossipsub, which is the only way out as long as no peer is
direct.
-/

namespace CocoNet

open DuplicateCache StepMachine

/-! ## What one message carries -/

/-- The receivers unpack the transmission to at most as many packets as a batch
may hold. -/
def Outgoing.CarriesFew (config : UplinkConfig) (outgoing : Outgoing) : Prop :=
  ∃ packets, outgoing.received = .ok packets ∧
    packets.length ≤ max 1 config.maxBatchPkts

private theorem carriesFew_of_within {config : UplinkConfig}
    {outgoing : Outgoing}
    (within : BatchWithin config outgoing.data) :
    outgoing.CarriesFew config := by
  obtain ⟨packets, _, unpacks, _, few, _⟩ := within
  have nonempty : 1 ≤ max 1 config.maxBatchPkts := Nat.le_max_left _ _
  cases outgoing with
  | publish topic data =>
      cases topic with
      | packets =>
          refine ⟨packets, ?_, few⟩
          rw [Outgoing.received, unpackGossip]
          simp only [Outgoing.data] at unpacks
          rw [unpacks]
          rfl
      | announce =>
          exact ⟨[], rfl, Nat.zero_le _⟩
  | sendRequests peers data =>
      refine ⟨packets, ?_, few⟩
      rw [Outgoing.received, unpackRequest]
      simp only [Outgoing.data] at unpacks
      rw [unpacks]
      rfl

private theorem carriesFew_raw (config : UplinkConfig) {pkt : Bytes}
    (ipLike : IpLike pkt) :
    (Outgoing.publish .packets pkt).CarriesFew config := by
  refine ⟨[pkt], ?_, Nat.le_max_left _ _⟩
  rw [Outgoing.received, unpackGossip,
    unpackBatch_of_not_headed ipLike.not_headed]
  rfl

private theorem carriesFew_announce (config : UplinkConfig) (data : Bytes) :
    (Outgoing.publish .announce data).CarriesFew config :=
  ⟨[], rfl, Nat.zero_le _⟩

/-! ## What the loop transmits -/

section Loop

variable {config : NodeConfig}

private theorem loop_withinLimits (atLeast : 5 ≤ config.uplink.maxBatchBytes)
    (inputs : List (Surroundings × LoopEvent)) :
    WithinLimits config.uplink ((eventLoop config).stateAfter inputs).batch := by
  have both := loop_batch_invariant config
    (fun batch => (∃ pending, Represents batch pending) ∧
      WithinLimits config.uplink batch)
    ⟨⟨[], Represents.withCapacity _⟩,
      WithinLimits.of_fresh atLeast (Represents.withCapacity _)⟩
    (fun directPeers event batch ⟨⟨_, represents⟩, _⟩ =>
      ⟨uplinkStep_represents config.uplink directPeers event represents,
        WithinLimits.of_round atLeast directPeers event represents⟩)
    inputs
  exact both.2

private theorem mem_transmissions_iff (effects : List Effect)
    (outgoing : Outgoing) :
    outgoing ∈ transmissions effects ↔ .transmit outgoing ∈ effects := by
  rw [transmissions, List.mem_filterMap]
  constructor
  · intro found
    obtain ⟨effect, member, same⟩ := found
    cases effect with
    | transmit sent =>
        rw [← Option.some.inj same]
        exact member
    | _ =>
        cases same
  · intro member
    exact ⟨_, member, rfl⟩

private theorem loop_carriesFew (fits : config.uplink.Fits)
    (atLeast : 5 ≤ config.uplink.maxBatchBytes)
    {inputs : List (Surroundings × LoopEvent)}
    (ipLike : ∀ pkt, pkt ∈ packetsFromTun inputs → IpLike pkt)
    {outgoing : Outgoing}
    (sent : .transmit outgoing ∈ (eventLoop config).outputsOf inputs) :
    outgoing.CarriesFew config.uplink := by
  obtain ⟨earlier, ⟨surroundings, event⟩, later, shape, output⟩ :=
    (mem_outputsOf_iff _ _ _).1 sent
  by_cases running : ((eventLoop config).stateAfter earlier).status = .running
  swap
  · rw [eventLoop_step_stopped config running] at output
    cases output
  rw [← mem_transmissions_iff,
    transmissions_eventLoop_step config running] at output
  cases event with
  | swarm event =>
      cases output
  | uplink event =>
      rcases (mem_uplinkStep_iff _ _ _ _ _).1 output with
        ⟨_, flushed⟩ | ⟨pkt, ⟨isRecv, _⟩, same⟩
      · have ipLikeBefore : ∀ pkt, pkt ∈ takenPackets config earlier →
            IpLike pkt := by
          intro pkt taken
          apply ipLike
          have before := mem_packetsFromTun taken
          rw [shape]
          simp only [packetsFromTun, packetsOf, dataEvents,
            List.filterMap_append, List.flatMap_append, List.mem_append]
            at before ⊢
          exact Or.inl before
        obtain ⟨_, pending, _, represents, small, _⟩ :=
          (loop_accounts fits ipLikeBefore).exists_split
        exact carriesFew_of_within (flushBatch_within represents small
          (loop_withinLimits atLeast earlier) _ flushed)
      · rw [same]
        apply carriesFew_raw
        apply ipLike
        rw [shape, isRecv]
        simp [packetsFromTun, packetsOf, dataEvents, LoopEvent.dataEvent,
          DataEvent.packets, UplinkEvent.packets]

end Loop

/-! ## What gossipsub takes -/

def Round.packets (round : Round) : List Bytes :=
  packetsOf round.event.dataEvent.toList

section Node

variable {MessageId : Type} [DecidableEq MessageId]
variable (ids : MessageIds MessageId) (config : NodeConfig)

private theorem loopInputs_snoc (rounds : List Round) (round : Round) :
    ∃ accepted, loopInputs ids config (rounds ++ [round]) =
      loopInputs ids config rounds ++ [round.input accepted] := by
  rw [loopInputs, outputsOf_observe_snoc]
  exact ⟨_, rfl⟩

private theorem packetsFromTun_loopInputs (rounds : List Round) :
    packetsFromTun (loopInputs ids config rounds) =
      rounds.flatMap Round.packets := by
  induction rounds using List.reverseRecOn with
  | nil =>
      rfl
  | append_singleton before round inductionHypothesis =>
      obtain ⟨accepted, inputs⟩ := loopInputs_snoc ids config before round
      rw [inputs, packetsFromTun, dataEvents_snoc, packetsOf,
        List.flatMap_append, List.flatMap_append, List.flatMap_singleton,
        ← inductionHypothesis]
      rfl

/-- What a round makes its handler do is among the effects of the loop. -/
theorem mem_outputsOf_of_round {earlier later : List Round} {round : Round}
    {effect : Effect}
    (made : effect ∈ ((eventLoop config).step
      ((node ids config).stateAfter earlier).loop (round.input true)).2) :
    effect ∈ (eventLoop config).outputsOf
      (loopInputs ids config (earlier ++ round :: later)) := by
  have longer : loopInputs ids config (earlier ++ [round]) <+:
      loopInputs ids config (earlier ++ round :: later) := by
    rw [List.append_cons earlier round later]
    exact ⟨_, (outputsOf_append _ (earlier ++ [round]) later).symm⟩
  obtain ⟨rest, shape⟩ := longer
  obtain ⟨accepted, inputs⟩ := loopInputs_snoc ids config earlier round
  rw [← shape, inputs, outputsOf_append, outputsOf_snoc]
  apply List.mem_append_left
  apply List.mem_append_right
  rw [← node_loop, effects_input]
  exact made

/-- What the node publishes is among the effects of its loop. -/
theorem exists_effect_of_mem {rounds : List Round}
    {publication : Publication RawMessage}
    (member : publication ∈ (node ids config).outputsOf rounds) :
    ∃ effect serialise,
      effect ∈ (eventLoop config).outputsOf (loopInputs ids config rounds) ∧
        Effect.published serialise effect = some publication.message := by
  rw [(node_gossip ids config rounds).2] at member
  obtain ⟨takes, given⟩ := exists_publish_of_mem member
  obtain ⟨earlier, round, later, shape, inRound⟩ :=
    (mem_outputsOf_observe_iff _ _ _ _).1 given
  rcases List.mem_append.1 inRound with isHeard | isPassed
  · simp at isHeard
  · obtain ⟨message, isMessage, same⟩ := List.mem_map.1 isPassed
    obtain ⟨effect, made, isPublished⟩ := List.mem_filterMap.1 isMessage
    injection same with _ sameMessage _
    rw [sameMessage] at isPublished
    rw [shape]
    exact ⟨effect, round.serialise, mem_outputsOf_of_round ids config made,
      isPublished⟩

/-- A publication, as its receivers see it. -/
def outgoingOf (publication : Publication RawMessage) : Outgoing :=
  .publish publication.message.topic publication.message.data

private theorem publication_carriesFew (fits : config.uplink.Fits)
    (atLeast : 5 ≤ config.uplink.maxBatchBytes) {rounds : List Round}
    (ipLike : ∀ pkt, pkt ∈ rounds.flatMap Round.packets → IpLike pkt)
    {publication : Publication RawMessage}
    (member : publication ∈ (node ids config).outputsOf rounds) :
    (outgoingOf publication).CarriesFew config.uplink := by
  rw [← packetsFromTun_loopInputs ids config] at ipLike
  obtain ⟨effect, serialise, made, isPublished⟩ :=
    exists_effect_of_mem ids config member
  rw [outgoingOf]
  cases effect with
  | transmit outgoing =>
      have few := loop_carriesFew fits atLeast ipLike made
      cases outgoing with
      | publish topic data =>
          rw [← Option.some.inj isPublished]
          exact few
      | sendRequests peers data =>
          cases isPublished
  | announce announcement =>
      rw [← Option.some.inj isPublished]
      exact carriesFew_announce config.uplink _
  | _ =>
      cases isPublished

/-- What gossipsub takes in a window of time. -/
def takenWithin (start window : Nat)
    (publications : List (Publication RawMessage)) :
    List (Publication RawMessage) :=
  publications.filter fun publication =>
    publication.verdict = .taken ∧ start ≤ publication.time ∧
      publication.time < start + window

private theorem takenWithin_apart (rounds : List Round) (start window : Nat) :
    (takenWithin start window
        ((node ids config).outputsOf rounds)).Pairwise fun earlier later =>
      earlier.time + duplicateCacheTime ≤ later.time := by
  have apart : ((node ids config).outputsOf rounds).Pairwise
      fun earlier later =>
        earlier.verdict = .taken → later.verdict = .taken →
          ids.messageId earlier.message = ids.messageId later.message →
            earlier.time + duplicateCacheTime ≤ later.time := by
    rw [(node_gossip ids config rounds).2]
    exact taken_apart _
  rw [takenWithin]
  apply List.Pairwise.imp_of_mem _ (apart.filter _)
  intro earlier later isEarlier isLater apart
  obtain ⟨earlierMember, earlierTaken⟩ := List.mem_filter.1 isEarlier
  obtain ⟨laterMember, laterTaken⟩ := List.mem_filter.1 isLater
  rw [decide_eq_true_eq] at earlierTaken laterTaken
  apply apart earlierTaken.1 laterTaken.1
  rw [messageId_of_mem ids config earlierMember,
    messageId_of_mem ids config laterMember]

private theorem takenWithin_few (rounds : List Round) (start window : Nat) :
    (takenWithin start window
        ((node ids config).outputsOf rounds)).length * duplicateCacheTime <
      window + duplicateCacheTime := by
  have apart := takenWithin_apart ids config rounds start window
  rw [← List.length_map Publication.time]
  apply @Cooldown.length_mul_lt_of_apart _ start _ _ (by decide)
  · rw [List.pairwise_map]
    exact apart
  · intro time member
    obtain ⟨publication, taken, same⟩ := List.mem_map.1 member
    have within := (List.mem_filter.1 taken).2
    rw [decide_eq_true_eq] at within
    rw [← same]
    exact within.2

private theorem receivedAll_few {config : UplinkConfig} {sent : List Outgoing}
    (few : ∀ outgoing, outgoing ∈ sent → outgoing.CarriesFew config) :
    ∃ packets, receivedAll sent = .ok packets ∧
      packets.length ≤ sent.length * max 1 config.maxBatchPkts := by
  induction sent with
  | nil =>
      exact ⟨[], rfl, Nat.zero_le _⟩
  | cons outgoing rest inductionHypothesis =>
      obtain ⟨packets, received, length⟩ := few outgoing (by simp)
      obtain ⟨others, restReceived, restLength⟩ := inductionHypothesis
        fun other member => few other (List.mem_cons_of_mem outgoing member)
      refine ⟨packets ++ others, ?_, ?_⟩
      · rw [receivedAll, received, restReceived]
        rfl
      · rw [List.length_append, List.length_cons, Nat.succ_mul]
        omega

/-- In every run of a node, with any arrivals, clocks and other answers of
gossipsub: the messages that gossipsub takes in a window of time are at least
a minute apart, and fewer than one more than the minutes of the window; the
packets that their receivers unpack are at most as many as the batches of so
many messages may hold. -/
theorem gossip_capacity (fits : config.uplink.Fits)
    (atLeast : 5 ≤ config.uplink.maxBatchBytes) (rounds : List Round)
    (ipLike : ∀ pkt, pkt ∈ rounds.flatMap Round.packets → IpLike pkt)
    (start window : Nat) :
    (takenWithin start window
        ((node ids config).outputsOf rounds)).Pairwise
      (fun earlier later =>
        earlier.time + duplicateCacheTime ≤ later.time) ∧
    (takenWithin start window
        ((node ids config).outputsOf rounds)).length * duplicateCacheTime <
      window + duplicateCacheTime ∧
    ∃ packets,
      receivedAll ((takenWithin start window
          ((node ids config).outputsOf rounds)).map outgoingOf) =
        .ok packets ∧
      packets.length * duplicateCacheTime <
        (window + duplicateCacheTime) * max 1 config.uplink.maxBatchPkts := by
  have fewMessages := takenWithin_few ids config rounds start window
  obtain ⟨packets, received, fewPackets⟩ :=
    @receivedAll_few config.uplink ((takenWithin start window
      ((node ids config).outputsOf rounds)).map outgoingOf) (by
        intro outgoing member
        obtain ⟨publication, taken, same⟩ := List.mem_map.1 member
        rw [← same]
        exact publication_carriesFew ids config fits atLeast ipLike
          (List.mem_filter.1 taken).1)
  refine ⟨takenWithin_apart ids config rounds start window, fewMessages,
    packets, received, ?_⟩
  rw [List.length_map] at fewPackets
  have positive : 0 < max 1 config.uplink.maxBatchPkts :=
    Nat.lt_of_lt_of_le Nat.zero_lt_one (Nat.le_max_left _ _)
  generalize max 1 config.uplink.maxBatchPkts = limit at *
  generalize (takenWithin start window
    ((node ids config).outputsOf rounds)).length = messages at *
  calc
    packets.length * duplicateCacheTime ≤
        messages * limit * duplicateCacheTime :=
      Nat.mul_le_mul_right _ fewPackets
    _ = messages * duplicateCacheTime * limit := Nat.mul_right_comm _ _ _
    _ < (window + duplicateCacheTime) * limit :=
      Nat.mul_lt_mul_of_pos_right fewMessages positive

end Node

/-- The second of two batches within five milliseconds is not among what
leaves in their minute. -/
theorem gossip_capacity_twoBatches :
    receivedAll ((takenWithin 60000 60000
        ((node ⟨Prod.mk, ⟨[0, 1, 0]⟩⟩ ⟨⟨[1]⟩, ⟨49152, 128⟩⟩).outputsOf
          twoBatches)).map outgoingOf) = .ok [[0x60]] ∧
      [([0x60] : Bytes)].length * duplicateCacheTime <
        (60000 + duplicateCacheTime) * 128 := by
  have received : receivedAll ((takenWithin 60000 60000
      ((node ⟨Prod.mk, ⟨[0, 1, 0]⟩⟩ ⟨⟨[1]⟩, ⟨49152, 128⟩⟩).outputsOf
        twoBatches)).map outgoingOf) = .ok [[0x60]] := by
    decide +kernel
  obtain ⟨_, _, packets, same, few⟩ :=
    gossip_capacity ⟨Prod.mk, ⟨[0, 1, 0]⟩⟩ ⟨⟨[1]⟩, ⟨49152, 128⟩⟩
      ⟨by decide, by decide⟩ (by decide) twoBatches
      (by
        intro pkt member
        obtain rfl | rfl : pkt = [0x60] ∨ pkt = [0x61] := by
          simpa [Round.packets, packetsOf, twoBatches, LoopEvent.dataEvent,
            DataEvent.packets, UplinkEvent.packets] using member
        · exact ⟨0x60, [], rfl, Or.inr (by decide)⟩
        · exact ⟨0x61, [], rfl, Or.inr (by decide)⟩)
      60000 60000
  obtain rfl : [[0x60]] = packets := Except.ok.inj (received.symm.trans same)
  exact ⟨received, few⟩

end CocoNet
