import CocoNet.P2p.EventLoop

/-!
# Whom the data reaches

A gossipsub message reaches every connected peer, a request reaches its peer
only.  A large packet always goes by gossipsub; a batch goes to the direct
peers when there are any.  So a flush misses the connected peers that are not
direct as soon as another peer is.
-/

namespace CocoNet

/-! ## What a round transmits -/

/-- The four triggers of a flush: the interval, the closed channel, a large
packet, and a packet that finds the batch at its limits. -/
def UplinkEvent.Flushes (config : UplinkConfig) (batch : BatchBuilder) :
    UplinkEvent → Prop
  | .tick => True
  | .recv none => True
  | .recv (some pkt) =>
      pkt.length > config.maxBatchBytes / 2 ∨
        batch.pktCount ≥ config.maxBatchPkts ∨
        batch.payloadSize + pkt.length + 2 ≥ config.maxBatchBytes

def UplinkEvent.LargePacket (config : UplinkConfig) (pkt : Bytes)
    (event : UplinkEvent) : Prop :=
  event = .recv (some pkt) ∧ pkt.length > config.maxBatchBytes / 2

theorem mem_uplinkStep_iff (config : UplinkConfig)
    (directPeers : Finset PeerId) (batch : BatchBuilder)
    (event : UplinkEvent) (outgoing : Outgoing) :
    outgoing ∈ (uplinkStep config directPeers batch event).2 ↔
      (event.Flushes config batch ∧
          outgoing ∈ (flushBatch directPeers batch).2) ∨
        ∃ pkt, event.LargePacket config pkt ∧
          outgoing = .publish .packets pkt := by
  cases event with
  | tick =>
      simp [uplinkStep, UplinkEvent.Flushes, UplinkEvent.LargePacket]
  | recv maybePkt =>
      cases maybePkt with
      | none =>
          simp [uplinkStep, UplinkEvent.Flushes, UplinkEvent.LargePacket]
      | some pkt =>
          by_cases large : pkt.length > config.maxBatchBytes / 2
          · simp [uplinkStep, UplinkEvent.Flushes, UplinkEvent.LargePacket,
              large]
          · simp only [uplinkStep, if_neg large, UplinkEvent.Flushes]
            have notLarge :
                ¬ ∃ found,
                  UplinkEvent.LargePacket config found (.recv (some pkt)) ∧
                    outgoing = .publish .packets found := by
              intro ⟨found, ⟨same, longer⟩, _⟩
              obtain rfl : pkt = found := by simpa using same
              exact large longer
            by_cases full :
                batch.pktCount ≥ config.maxBatchPkts ∨
                  batch.payloadSize + pkt.length + 2 ≥ config.maxBatchBytes
            · rw [if_pos full]
              constructor
              · exact fun member => Or.inl ⟨Or.inr full, member⟩
              · intro found
                rcases found with ⟨_, member⟩ | isLarge
                · exact member
                · exact absurd isLarge notLarge
            · rw [if_neg full]
              constructor
              · intro member
                cases member
              · intro found
                rcases found with ⟨tooLong | isFull, _⟩ | isLarge
                · exact absurd tooLong large
                · exact absurd isFull full
                · exact absurd isLarge notLarge

theorem transmissions_eventLoop_step (config : NodeConfig)
    {state : LoopState} (running : state.status = .running)
    (surroundings : Surroundings) (event : LoopEvent) :
    transmissions
        ((eventLoop config).step state (surroundings, event)).2 =
      match event with
      | .uplink event =>
          (uplinkStep config.uplink state.connections.directPeers
            state.batch event).2
      | .swarm _ => [] := by
  rw [eventLoop_step_running config running]
  cases event with
  | uplink event =>
      exact transmissions_map _
  | swarm event =>
      cases handled :
          onLoopEvent config surroundings state (.swarm event) with
      | error fault =>
          rfl
      | ok result =>
          rcases result with ⟨after, effects⟩
          by_cases isConnection : ∃ inner, event = .connection inner
          · rcases isConnection with ⟨inner, same⟩
            subst same
            have stepped :=
              onConnection_steps config surroundings state inner
            rw [Except.ok.inj handled] at stepped
            exact stepped.transmits
          · have quiet :=
              onSwarmEvent_quiet
                (fun inner same => isConnection ⟨inner, same⟩) handled
            exact transmissions_of_other quiet.others

/-! ## Recipients -/

def Connected (inputs : List (Surroundings × LoopEvent))
    (peer : PeerId) : Prop :=
  ∃ id, Live (connectionEvents inputs) peer id

/-- Gossipsub reaches every connected peer, a request its peer only. -/
def Outgoing.Reaches (connected : PeerId → Prop) (peer : PeerId) :
    Outgoing → Prop
  | .publish _ _ => connected peer
  | .sendRequests peers _ => peer ∈ peers

def ReachesConnected (config : NodeConfig)
    (inputs : List (Surroundings × LoopEvent))
    (input : Surroundings × LoopEvent) : Prop :=
  ∀ outgoing, outgoing ∈ transmissions
      ((eventLoop config).step ((eventLoop config).stateAfter inputs)
        input).2 →
    ∀ peer, Connected inputs peer →
      outgoing.Reaches (Connected inputs) peer

/-- If the round flushes a batch with packets, no peer is direct or every
connected peer is. -/
def FlushesUniformly (config : NodeConfig)
    (inputs : List (Surroundings × LoopEvent))
    (input : Surroundings × LoopEvent) : Prop :=
  ∀ event, input.2 = .uplink event →
    ((eventLoop config).stateAfter inputs).status = .running →
    event.Flushes config.uplink
      ((eventLoop config).stateAfter inputs).batch →
    ((eventLoop config).stateAfter inputs).batch.isEmpty = false →
      ((eventLoop config).stateAfter inputs).connections.directPeers = ∅ ∨
        ∀ peer, Connected inputs peer →
          peer ∈
            ((eventLoop config).stateAfter inputs).connections.directPeers

/-- A flush reaches every connected peer if and only if no peer is direct or
every connected peer is. -/
theorem flushBatch_reaches_iff {directPeers : Finset PeerId}
    {batch : BatchBuilder} (nonempty : batch.isEmpty = false)
    (connected : PeerId → Prop) :
    (∀ outgoing, outgoing ∈ (flushBatch directPeers batch).2 →
        ∀ peer, connected peer → outgoing.Reaches connected peer) ↔
      directPeers = ∅ ∨ ∀ peer, connected peer → peer ∈ directPeers := by
  rw [flushBatch_of_nonempty directPeers nonempty]
  simp only [List.mem_singleton, forall_eq]
  by_cases noDirect : directPeers = ∅
  · rw [if_pos noDirect]
    exact ⟨fun _ => Or.inl noDirect, fun _ _ isConnected => isConnected⟩
  · rw [if_neg noDirect]
    constructor
    · exact Or.inr
    · intro found
      rcases found with none | all
      · exact absurd none noDirect
      · exact all

/-- In every run and at every round, the transmissions reach every connected
peer if and only if the round flushes uniformly. -/
theorem data_reaches_connected_iff (config : NodeConfig)
    (inputs : List (Surroundings × LoopEvent))
    (input : Surroundings × LoopEvent) :
    ReachesConnected config inputs input ↔
      FlushesUniformly config inputs input := by
  unfold ReachesConnected FlushesUniformly
  generalize (eventLoop config).stateAfter inputs = state
  rcases input with ⟨surroundings, event⟩
  by_cases running : state.status = .running
  · rw [transmissions_eventLoop_step config running]
    cases event with
    | swarm event =>
        simp
    | uplink event =>
        constructor
        · intro reaches _ same _ flushes nonempty
          obtain rfl : event = _ := LoopEvent.uplink.inj same
          apply (flushBatch_reaches_iff nonempty _).1
          intro outgoing member
          exact reaches outgoing
            ((mem_uplinkStep_iff _ _ _ _ _).2 (Or.inl ⟨flushes, member⟩))
        · intro uniform outgoing member peer connected
          rcases (mem_uplinkStep_iff _ _ _ _ _).1 member with
            ⟨flushes, flushed⟩ | ⟨pkt, _, rfl⟩
          · cases isEmpty : state.batch.isEmpty with
            | true =>
                rw [flushBatch_of_empty _ isEmpty] at flushed
                cases flushed
            | false =>
                exact (flushBatch_reaches_iff isEmpty _).2
                  (uniform event rfl running flushes isEmpty)
                  outgoing flushed peer connected
          · exact connected
  · rw [eventLoop_step_stopped config running]
    constructor
    · intro _ _ _ runs
      exact absurd runs running
    · intro _ outgoing member
      cases member

/-- Peer 7 is direct and peer 8 relayed; a packet of one byte waits for the
tick. -/
def mixedMesh : List (Surroundings × LoopEvent) :=
  [(⟨0, 0, true⟩,
      .swarm (.connection (.established ⟨[7]⟩ 1 (.dialer [])))),
    (⟨0, 0, true⟩,
      .swarm (.connection (.established ⟨[8]⟩ 2 (.dialer [.p2pCircuit])))),
    (⟨0, 0, true⟩, .uplink (.recv (some [0x60])))]

/-- The tick sends the batch to peer 7 alone, although peer 8 is connected. -/
theorem batch_misses_relayed_peer :
    ∃ config,
      Connected mixedMesh ⟨[8]⟩ ∧
        ¬ ReachesConnected config mixedMesh (⟨0, 0, true⟩, .uplink .tick) ∧
        transmissions
            ((eventLoop config).step ((eventLoop config).stateAfter mixedMesh)
              (⟨0, 0, true⟩, .uplink .tick)).2 =
          [.sendRequests {⟨[7]⟩}
            [0x43, 0x4F, 0x01, 0, 1, 0, 1, 0x60]] := by
  have sent :
      transmissions
          ((eventLoop ⟨⟨[1]⟩, ⟨64, 8⟩⟩).step
            ((eventLoop ⟨⟨[1]⟩, ⟨64, 8⟩⟩).stateAfter mixedMesh)
            (⟨0, 0, true⟩, .uplink .tick)).2 =
        [.sendRequests {⟨[7]⟩} [0x43, 0x4F, 0x01, 0, 1, 0, 1, 0x60]] := by
    decide +kernel
  have connected : Connected mixedMesh ⟨[8]⟩ :=
    ⟨2, ⟨.dialer [.p2pCircuit], by decide⟩, by decide⟩
  refine ⟨⟨⟨[1]⟩, ⟨64, 8⟩⟩, connected, ?_, sent⟩
  intro reaches
  rw [ReachesConnected, sent] at reaches
  have reached :=
    reaches _ (List.mem_singleton.mpr rfl) ⟨[8]⟩ connected
  exact absurd reached (by decide : (⟨[8]⟩ : PeerId) ∉ ({⟨[7]⟩} : Finset _))

end CocoNet
