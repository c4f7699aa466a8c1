import CocoNet.P2p.DataPlane

/-!
# What the traffic of a node depends on

The program does not look into the packets it takes from the TUN side.  When
they leave, in which batch, by gossipsub or to which peers, and how many bytes
go out depends on the lengths of the packets only.  In particular no packet is
sent to the peer it is addressed to: every recipient gets all packets.
-/

namespace CocoNet

open StepMachine

/-! ## Alike up to the contents of packets -/

/-- The same event, except for the contents of a packet from the TUN side. -/
inductive LoopEvent.Alike : LoopEvent → LoopEvent → Prop where
  | same (event : LoopEvent) : Alike event event
  | packet {first second : Bytes} (lengths : first.length = second.length) :
      Alike (.uplink (.recv (some first))) (.uplink (.recv (some second)))

/-- The same transmission, except for the contents of its message. -/
inductive Outgoing.Alike : Outgoing → Outgoing → Prop where
  | publish (topic : Topic) {first second : Bytes}
      (lengths : first.length = second.length) :
      Alike (.publish topic first) (.publish topic second)
  | sendRequests (peers : Finset PeerId) {first second : Bytes}
      (lengths : first.length = second.length) :
      Alike (.sendRequests peers first) (.sendRequests peers second)

inductive Effect.Alike : Effect → Effect → Prop where
  | same (effect : Effect) : Alike effect effect
  | transmit {first second : Outgoing} (outgoing : first.Alike second) :
      Alike (.transmit first) (.transmit second)

structure BatchBuilder.Alike (first second : BatchBuilder) : Prop where
  pktCount : first.pktCount = second.pktCount
  lengths : first.buf.bytes.length = second.buf.bytes.length

structure LoopState.Alike (first second : LoopState) : Prop where
  connections : first.connections = second.connections
  recentDials : first.recentDials = second.recentDials
  announcing : first.announcing = second.announcing
  batch : first.batch.Alike second.batch
  status : first.status = second.status

/-! ## The builder -/

section Builder

variable {first second : BatchBuilder}

theorem BatchBuilder.Alike.isEmpty (alike : first.Alike second) :
    first.isEmpty = second.isEmpty := by
  rw [BatchBuilder.isEmpty, BatchBuilder.isEmpty, alike.pktCount]

theorem BatchBuilder.Alike.payloadSize (alike : first.Alike second) :
    first.payloadSize = second.payloadSize := by
  rw [BatchBuilder.payloadSize, BatchBuilder.payloadSize, alike.lengths]

theorem BatchBuilder.Alike.add (alike : first.Alike second)
    {pkt other : Bytes} (lengths : pkt.length = other.length) :
    (first.add pkt).1.Alike (second.add other).1 := by
  by_cases full : first.pktCount = u16Max
  · have alsoFull : second.pktCount = u16Max := alike.pktCount ▸ full
    rw [BatchBuilder.add_of_full full, BatchBuilder.add_of_full alsoFull]
    exact alike
  · have alsoRoom : second.pktCount ≠ u16Max := alike.pktCount ▸ full
    obtain ⟨_, bytes, count⟩ := BatchBuilder.add_of_room full pkt
    obtain ⟨_, otherBytes, otherCount⟩ :=
      BatchBuilder.add_of_room alsoRoom other
    constructor
    · rw [count, otherCount, alike.pktCount]
    · rw [bytes, otherBytes, List.length_append, List.length_append,
        List.length_append, List.length_append, alike.lengths, lengths]

/-- What is taken is as long as the buffer, and a bare header stays. -/
theorem BatchBuilder.take_lengths {batch : BatchBuilder}
    (nonempty : batch.isEmpty = false) :
    batch.take.2.length = batch.buf.bytes.length ∧
      batch.take.1.pktCount = 0 ∧
      batch.take.1.buf.bytes.length = hdrLen := by
  have positive : batch.pktCount ≠ 0 := by
    simpa [BatchBuilder.isEmpty] using nonempty
  have long : 5 ≤ batch.buf.bytes.length := batch.header
  rw [BatchBuilder.take, if_neg positive]
  simp [long, BytesMut.split]

theorem BatchBuilder.Alike.take (alike : first.Alike second)
    (nonempty : first.isEmpty = false) :
    first.take.1.Alike second.take.1 ∧
      first.take.2.length = second.take.2.length := by
  have alsoNonempty : second.isEmpty = false := alike.isEmpty ▸ nonempty
  obtain ⟨length, count, left⟩ := BatchBuilder.take_lengths nonempty
  obtain ⟨otherLength, otherCount, otherLeft⟩ :=
    BatchBuilder.take_lengths alsoNonempty
  refine ⟨⟨?_, ?_⟩, ?_⟩
  · rw [count, otherCount]
  · rw [left, otherLeft]
  · rw [length, otherLength, alike.lengths]

theorem BatchBuilder.Alike.flushBatch (alike : first.Alike second)
    (directPeers : Finset PeerId) :
    (flushBatch directPeers first).1.Alike (flushBatch directPeers second).1 ∧
      List.Forall₂ Outgoing.Alike (CocoNet.flushBatch directPeers first).2
        (CocoNet.flushBatch directPeers second).2 := by
  cases empty : first.isEmpty with
  | true =>
      rw [flushBatch_of_empty directPeers empty,
        flushBatch_of_empty directPeers (alike.isEmpty ▸ empty)]
      exact ⟨alike, List.Forall₂.nil⟩
  | false =>
      obtain ⟨left, lengths⟩ := alike.take empty
      rw [flushBatch_of_nonempty directPeers empty,
        flushBatch_of_nonempty directPeers (alike.isEmpty ▸ empty)]
      refine ⟨left, ?_⟩
      apply List.Forall₂.cons _ List.Forall₂.nil
      split
      · exact Outgoing.Alike.publish _ lengths
      · exact Outgoing.Alike.sendRequests _ lengths

end Builder

/-! ## The loop -/

private theorem uplinkStep_alike (config : UplinkConfig)
    (directPeers : Finset PeerId) {first second : BatchBuilder}
    (alike : first.Alike second) {event other : UplinkEvent}
    (sameEvent : (LoopEvent.uplink event).Alike (.uplink other)) :
    (uplinkStep config directPeers first event).1.Alike
        (uplinkStep config directPeers second other).1 ∧
      List.Forall₂ Outgoing.Alike
        (uplinkStep config directPeers first event).2
        (uplinkStep config directPeers second other).2 := by
  have flushed := alike.flushBatch directPeers
  have received : ∀ {pkt otherPkt : Bytes}, pkt.length = otherPkt.length →
      (uplinkStep config directPeers first (.recv (some pkt))).1.Alike
          (uplinkStep config directPeers second (.recv (some otherPkt))).1 ∧
        List.Forall₂ Outgoing.Alike
          (uplinkStep config directPeers first (.recv (some pkt))).2
          (uplinkStep config directPeers second (.recv (some otherPkt))).2 := by
    intro pkt otherPkt lengths
    unfold uplinkStep
    dsimp only
    rw [← lengths, ← alike.pktCount, ← alike.payloadSize]
    split
    · refine ⟨flushed.1, List.rel_append flushed.2 ?_⟩
      exact List.Forall₂.cons (Outgoing.Alike.publish _ lengths)
        List.Forall₂.nil
    · split
      · exact ⟨flushed.1.add lengths, flushed.2⟩
      · exact ⟨alike.add lengths, List.Forall₂.nil⟩
  cases sameEvent with
  | packet lengths =>
      exact received lengths
  | same =>
      rcases event with _ | _ | pkt
      · exact flushed
      · exact flushed
      · exact received rfl

/-- The handlers of swarm events carry the builder along. -/
theorem onSwarmEvent_withBatch (config : NodeConfig)
    (surroundings : Surroundings) (state : LoopState) (batch : BatchBuilder)
    (event : SwarmEvent) :
    onSwarmEvent config surroundings { state with batch := batch } event =
      (onSwarmEvent config surroundings state event).map fun result =>
        ({ result.1 with batch := batch }, result.2) := by
  cases event with
  | gossip source message =>
      simp only [onSwarmEvent, onGossip]
      by_cases own : source = some config.localPeer
      · rw [if_pos own, if_pos own]
        rfl
      rw [if_neg own, if_neg own]
      cases message with
      | packets data =>
          dsimp only
          cases unpackGossip data <;> rfl
      | announce msg =>
          cases msg with
          | none =>
              rfl
          | some msg =>
              dsimp only
              cases onAnnounce config.localPeer surroundings.now
                state.recentDials msg <;> rfl
  | identifyReceived peer listenAddrs =>
      simp only [onSwarmEvent, onIdentifyReceived]
      cases onIdentify surroundings.now state.connections.directPeers
        state.recentDials peer listenAddrs <;> rfl
  | request peer request =>
      simp only [onSwarmEvent]
      cases unpackRequest request <;> rfl
  | connection event =>
      cases event with
      | closed peer id => rfl
      | established peer id endpoint => rfl
  | mdnsDiscovered found | autonat | newListenAddr address
  | externalAddrConfirmed address | externalAddrExpired address
  | listenerClosed addresses =>
      rfl

private theorem LoopState.Alike.eq_withBatch {first second : LoopState}
    (alike : first.Alike second) :
    second = { first with batch := second.batch } := by
  cases first
  cases second
  simpa using ⟨alike.connections.symm, alike.recentDials.symm,
    alike.announcing.symm, alike.status.symm⟩

private theorem effects_alike (effects : List Effect) :
    List.Forall₂ Effect.Alike effects effects :=
  List.forall₂_same.2 fun effect _ => Effect.Alike.same effect

/-- What one round of two alike loops leads to. -/
def AlikeResults (first second : LoopState × List Effect) : Prop :=
  first.1.Alike second.1 ∧ List.Forall₂ Effect.Alike first.2 second.2

private theorem onUplinkEvent_alike (config : NodeConfig)
    {first second : LoopState}
    (alike : first.Alike second) {event other : UplinkEvent}
    (sameEvent : (LoopEvent.uplink event).Alike (.uplink other)) :
    AlikeResults (onUplinkEvent config first event)
      (onUplinkEvent config second other) := by
  have closes : event = .recv none ↔ other = .recv none := by
    cases sameEvent <;> simp
  obtain ⟨batches, outgoing⟩ := uplinkStep_alike config.uplink
    first.connections.directPeers alike.batch sameEvent
  rw [AlikeResults, onUplinkEvent, onUplinkEvent, ← alike.connections]
  refine ⟨⟨rfl, alike.recentDials, alike.announcing, batches, ?_⟩, ?_⟩
  · simp only [closes, alike.status]
  · rw [List.forall₂_map_left_iff, List.forall₂_map_right_iff]
    exact outgoing.imp fun _ _ => Effect.Alike.transmit

/-- One round of two alike loops. -/
theorem eventLoop_step_alike (config : NodeConfig) (first second : LoopState)
    (input other : Surroundings × LoopEvent) (alike : first.Alike second)
    (sameInput : input.1 = other.1 ∧ input.2.Alike other.2) :
    AlikeResults ((eventLoop config).step first input)
      ((eventLoop config).step second other) := by
  rcases input with ⟨surroundings, event⟩
  rcases other with ⟨otherSurroundings, otherEvent⟩
  obtain ⟨sameSurroundings, sameEvent⟩ := sameInput
  dsimp only at sameSurroundings sameEvent
  subst sameSurroundings
  by_cases running : first.status = .running
  swap
  · have alsoStopped : second.status ≠ .running := alike.status ▸ running
    rw [eventLoop_step_stopped config running,
      eventLoop_step_stopped config alsoStopped]
    exact ⟨alike, List.Forall₂.nil⟩
  have alsoRunning : second.status = .running := alike.status ▸ running
  rw [eventLoop_step_running config running,
    eventLoop_step_running config alsoRunning]
  cases event with
  | uplink event =>
      obtain ⟨otherUplink, same⟩ :
          ∃ otherUplink, otherEvent = .uplink otherUplink := by
        cases sameEvent <;> exact ⟨_, rfl⟩
      subst same
      exact onUplinkEvent_alike config alike sameEvent
  | swarm event =>
      obtain rfl : otherEvent = .swarm event := by
        cases sameEvent
        rfl
      have carried := onSwarmEvent_withBatch config surroundings first
      rw [alike.eq_withBatch]
      simp only [onLoopEvent]
      rw [carried second.batch event]
      cases handled : onSwarmEvent config surroundings first event with
      | error fault =>
          exact ⟨⟨rfl, rfl, rfl, alike.batch, rfl⟩, List.Forall₂.nil⟩
      | ok result =>
          have same := handled.symm.trans (carried first.batch event)
          rw [handled] at same
          have batchKept : result.1.batch = first.batch :=
            congrArg (fun result => result.1.batch) (Except.ok.inj same)
          refine ⟨⟨rfl, rfl, rfl, ?_, rfl⟩, effects_alike _⟩
          dsimp only
          rw [batchKept]
          exact alike.batch

/-- In any two runs that differ only in the contents of the packets from the
TUN side, each packet being as long as its counterpart, the loop has the same
effects in the same order: the same dials, announcements, deliveries and
acknowledgements, and transmissions of the same length to the same peers.  Its
connections, recent dials, announcing and status are the same, too. -/
theorem traffic_shape (config : NodeConfig)
    {first second : List (Surroundings × LoopEvent)}
    (sameLengths : List.Forall₂
      (fun input other => input.1 = other.1 ∧ input.2.Alike other.2)
      first second) :
    ((eventLoop config).stateAfter first).Alike
        ((eventLoop config).stateAfter second) ∧
      List.Forall₂ Effect.Alike ((eventLoop config).outputsOf first)
        ((eventLoop config).outputsOf second) :=
  runFrom_alike (eventLoop config) (eventLoop_step_alike config)
    ⟨rfl, rfl, rfl, ⟨rfl, rfl⟩, rfl⟩ sameLengths

/-- A packet to one address or to another, and a direct peer by the tick. -/
def packetThenTick (pkt : Bytes) : List (Surroundings × LoopEvent) :=
  [(⟨0, 0, true⟩, .swarm (.connection (.established ⟨[7]⟩ 1 (.dialer [])))),
    (⟨0, 0, true⟩, .uplink (.recv (some pkt))),
    (⟨0, 0, true⟩, .uplink .tick)]

theorem traffic_shape_packetThenTick :
    List.Forall₂ Effect.Alike
      ((eventLoop ⟨⟨[1]⟩, ⟨64, 8⟩⟩).outputsOf (packetThenTick [0x45, 10, 1]))
      ((eventLoop ⟨⟨[1]⟩, ⟨64, 8⟩⟩).outputsOf
        (packetThenTick [0x45, 10, 2])) := by
  refine (traffic_shape ⟨⟨[1]⟩, ⟨64, 8⟩⟩ ?_).2
  refine List.Forall₂.cons ⟨rfl, .same _⟩ ?_
  refine List.Forall₂.cons ⟨rfl, .packet rfl⟩ ?_
  exact List.Forall₂.cons ⟨rfl, .same _⟩ List.Forall₂.nil

end CocoNet
