import CocoNet.P2p.UplinkDelivery

/-!
# The limits of a batch

The count of a batch and the length of each of its packets have two bytes.
Nothing checks that a packet's length fits, and nobody asks whether `add` took
the packet; only the two limits of the configuration, which come from the
environment as they are, keep a batch small enough.
-/

namespace CocoNet

open StepMachine

/-! ## What a round batches and sends -/

/-- The packets of an event that do not leave on their own. -/
def UplinkEvent.batched (config : UplinkConfig) (event : UplinkEvent) :
    List Bytes :=
  event.packets.filter fun pkt => pkt.length ≤ config.maxBatchBytes / 2

/-- What a round has transmitted, without the packet that leaves on its own. -/
def UplinkEvent.batchesAmong (config : UplinkConfig) (event : UplinkEvent)
    (outputs : List Outgoing) : List Outgoing :=
  match event with
  | .recv (some pkt) =>
      if pkt.length > config.maxBatchBytes / 2 then
        outputs.erase (.publish .packets pkt)
      else outputs
  | _ => outputs

theorem batchesAmong_nil (config : UplinkConfig) (event : UplinkEvent) :
    event.batchesAmong config [] = [] := by
  unfold UplinkEvent.batchesAmong
  split
  · split <;> rfl
  · rfl

section Rounds

variable (config : UplinkConfig) (directPeers : Finset PeerId)
variable (batch : BatchBuilder)

/-- A flush transmits one message at most, so the packet that leaves after it
can be told from it, or looks like it. -/
theorem erase_alone (pkt : Bytes) :
    ((flushBatch directPeers batch).2 ++
        [Outgoing.publish .packets pkt]).erase (.publish .packets pkt) =
      (flushBatch directPeers batch).2 := by
  cases isEmpty : batch.isEmpty with
  | true =>
      rw [flushBatch_of_empty directPeers isEmpty]
      simp
  | false =>
      rw [flushBatch_of_nonempty directPeers isEmpty]
      generalize (if directPeers = ∅ then
        Outgoing.publish .packets batch.take.2
        else .sendRequests directPeers batch.take.2) = message
      by_cases same : message = .publish .packets pkt
      · simp [same]
      · simp [same]

/-- A round flushes and batches no packet, or batches one, in a fresh batch if
the batch is at its limits and in the batch itself if not. -/
theorem round_cases (event : UplinkEvent) :
    (event.batched config = [] ∧
        (uplinkStep config directPeers batch event).1 =
          (flushBatch directPeers batch).1 ∧
        event.batchesAmong config
            (uplinkStep config directPeers batch event).2 =
          (flushBatch directPeers batch).2) ∨
      ∃ pkt, event = .recv (some pkt) ∧
        pkt.length ≤ config.maxBatchBytes / 2 ∧
        event.batched config = [pkt] ∧
        (((batch.pktCount ≥ config.maxBatchPkts ∨
              batch.payloadSize + pkt.length + 2 ≥ config.maxBatchBytes) ∧
            (uplinkStep config directPeers batch event).1 =
              ((flushBatch directPeers batch).1.add pkt).1 ∧
            event.batchesAmong config
                (uplinkStep config directPeers batch event).2 =
              (flushBatch directPeers batch).2) ∨
          (¬ (batch.pktCount ≥ config.maxBatchPkts ∨
              batch.payloadSize + pkt.length + 2 ≥ config.maxBatchBytes) ∧
            (uplinkStep config directPeers batch event).1 =
              (batch.add pkt).1 ∧
            event.batchesAmong config
                (uplinkStep config directPeers batch event).2 = [])) := by
  cases event with
  | tick =>
      exact Or.inl ⟨rfl, rfl, rfl⟩
  | recv maybePkt =>
      cases maybePkt with
      | none =>
          exact Or.inl ⟨rfl, rfl, rfl⟩
      | some pkt =>
          by_cases large : pkt.length > config.maxBatchBytes / 2
          · apply Or.inl
            refine ⟨?_, ?_, ?_⟩
            · simp [UplinkEvent.batched, UplinkEvent.packets, large]
            · simp [uplinkStep, large]
            · simp only [UplinkEvent.batchesAmong, uplinkStep, if_pos large]
              exact erase_alone directPeers batch pkt
          · have small := Nat.le_of_not_lt large
            refine Or.inr ⟨pkt, rfl, small, ?_, ?_⟩
            · simp [UplinkEvent.batched, UplinkEvent.packets, small]
            simp only [UplinkEvent.batchesAmong, uplinkStep, if_neg large]
            by_cases limits : batch.pktCount ≥ config.maxBatchPkts ∨
                batch.payloadSize + pkt.length + 2 ≥ config.maxBatchBytes
            · rw [if_pos limits]
              exact Or.inl ⟨limits, rfl, rfl⟩
            · rw [if_neg limits]
              exact Or.inr ⟨limits, rfl, rfl⟩

/-- Apart from batches, a round transmits at most a large packet. -/
theorem mem_batchesAmong_or_large (event : UplinkEvent) {outgoing : Outgoing}
    (member : outgoing ∈ (uplinkStep config directPeers batch event).2) :
    outgoing ∈ event.batchesAmong config
        (uplinkStep config directPeers batch event).2 ∨
      ∃ pkt, pkt.length > config.maxBatchBytes / 2 ∧
        event = .recv (some pkt) ∧ outgoing = .publish .packets pkt := by
  cases event with
  | tick =>
      exact Or.inl member
  | recv maybePkt =>
      cases maybePkt with
      | none =>
          exact Or.inl member
      | some pkt =>
          by_cases large : pkt.length > config.maxBatchBytes / 2
          · by_cases isAlone : outgoing = .publish .packets pkt
            · exact Or.inr ⟨pkt, large, rfl, isAlone⟩
            · apply Or.inl
              simp only [UplinkEvent.batchesAmong, if_pos large]
              exact (List.mem_erase_of_ne isAlone).2 member
          · apply Or.inl
            simpa only [UplinkEvent.batchesAmong, if_neg large] using member

end Rounds

/-- The packets that the loop has taken into a batch in a run, in order. -/
def acceptedPackets (config : UplinkConfig)
    (events : List (Finset PeerId × UplinkEvent)) : List Bytes :=
  ((uplink config).observe fun state event _ =>
    if state.running then event.2.batched config else []).outputsOf events

/-- The batches among the transmissions of a run, in order. -/
def sentBatches (config : UplinkConfig)
    (events : List (Finset PeerId × UplinkEvent)) : List Outgoing :=
  ((uplink config).observe fun _ event outputs =>
    event.2.batchesAmong config outputs).outputsOf events

/-! ## What it takes to add a packet exactly -/

/-- `add` returns true, and the two bytes it writes before the packet are its
length. -/
def BatchBuilder.AddsExactly (batch : BatchBuilder) (pkt : Bytes) : Prop :=
  (batch.add pkt).2 = true ∧ ∃ high low,
    (batch.add pkt).1.buf.bytes = batch.buf.bytes ++ high :: low :: pkt ∧
      BigEndian.word high low = pkt.length

private theorem BatchBuilder.addsExactly_iff (batch : BatchBuilder)
    (pkt : Bytes) :
    batch.AddsExactly pkt ↔
      batch.pktCount < u16Max ∧ pkt.length ≤ u16Max := by
  have fits := batch.countFits
  by_cases full : batch.pktCount = u16Max
  · simp [AddsExactly, add_of_full full, full]
  · obtain ⟨added, bytes, _⟩ := add_of_room full pkt
    have room : batch.pktCount < u16Max := Nat.lt_of_le_of_ne fits full
    rw [AddsExactly, bytes]
    constructor
    · intro ⟨_, high, low, same, isLength⟩
      refine ⟨room, ?_⟩
      rw [← isLength]
      exact Nat.le_of_lt_succ (BigEndian.word_lt high low)
    · intro ⟨_, small⟩
      refine ⟨added, _, _, rfl, ?_⟩
      exact BigEndian.word_bytes_of_lt (Nat.lt_succ_of_le small)

private theorem pktCount_flushBatch (directPeers : Finset PeerId)
    (batch : BatchBuilder) :
    (flushBatch directPeers batch).1.pktCount = 0 := by
  cases isEmpty : batch.isEmpty with
  | true =>
      rw [flushBatch_of_empty directPeers isEmpty]
      simpa [BatchBuilder.isEmpty] using isEmpty
  | false =>
      rw [flushBatch_of_nonempty directPeers isEmpty, BatchBuilder.take]
      split
      · assumption
      · rfl

/-! ## Runs -/

/-- Every packet added so far is recovered from the batches transmitted so far
and the one that is due. -/
def Recoverable (config : UplinkConfig)
    (events : List (Finset PeerId × UplinkEvent)) : Prop :=
  receivedAll (sentBatches config events ++
      (flushBatch ∅ ((uplink config).stateAfter events).batch).2) =
    .ok (acceptedPackets config events)

/-- What a round takes into a batch is added to the batch that it finds, or to
the one that its flush leaves, and added exactly. -/
def AddsPackets (config : UplinkConfig)
    (earlier : List (Finset PeerId × UplinkEvent))
    (event : Finset PeerId × UplinkEvent) : Prop :=
  ((uplink config).stateAfter earlier).running = true →
    ∀ pkt, pkt ∈ event.2.batched config →
      ∃ builder,
        (builder = ((uplink config).stateAfter earlier).batch ∨
          builder = (flushBatch event.1
            ((uplink config).stateAfter earlier).batch).1) ∧
        ((uplink config).stateAfter (earlier ++ [event])).batch =
          (builder.add pkt).1 ∧
        builder.AddsExactly pkt

/-- Every packet is added with its length, and recoverable at any time. -/
structure BatchesExactly (config : UplinkConfig)
    (events : List (Finset PeerId × UplinkEvent)) : Prop where
  adds : EachStep (AddsPackets config) events
  recoverable : EachPrefix (Recoverable config) events

/-- If a packet is taken that does not leave on its own, its length fits two
bytes, and the batch has room or is at its limits. -/
def PacketFits (config : UplinkConfig)
    (earlier : List (Finset PeerId × UplinkEvent))
    (event : Finset PeerId × UplinkEvent) : Prop :=
  ((uplink config).stateAfter earlier).running = true →
    ∀ pkt, event.2 = .recv (some pkt) →
      pkt.length ≤ config.maxBatchBytes / 2 →
      pkt.length ≤ u16Max ∧
        (((uplink config).stateAfter earlier).batch.pktCount < u16Max ∨
          ((uplink config).stateAfter earlier).batch.pktCount ≥
            config.maxBatchPkts ∨
          ((uplink config).stateAfter earlier).batch.payloadSize +
              pkt.length + 2 ≥ config.maxBatchBytes)

/-- A builder that has become what it is by an exact `add` has taken the packet
exactly. -/
theorem addsPackets_iff (config : UplinkConfig)
    (earlier : List (Finset PeerId × UplinkEvent))
    (event : Finset PeerId × UplinkEvent) :
    AddsPackets config earlier event ↔ PacketFits config earlier event := by
  rcases event with ⟨directPeers, event⟩
  unfold PacketFits AddsPackets
  rw [stateAfter_snoc]
  generalize (uplink config).stateAfter earlier = state
  by_cases running : state.running = true
  swap
  · simp [running]
  rw [uplink_step_running config running]
  simp only [running, forall_const]
  rcases round_cases config directPeers state.batch event with
    ⟨nothing, _⟩ | ⟨pkt, isRecv, small, isBatched, cases⟩
  · rw [nothing]
    constructor
    · intro _ pkt isRecv small
      have batched : pkt ∈ event.batched config := by
        simp [UplinkEvent.batched, UplinkEvent.packets, isRecv, small]
      rw [nothing] at batched
      cases batched
    · intro _ pkt member
      cases member
  · have only : ∀ other, other ∈ event.batched config → other = pkt := by
      intro other member
      rw [isBatched] at member
      exact List.mem_singleton.1 member
    have batched : pkt ∈ event.batched config := by
      simp [isBatched]
    rcases cases with ⟨limits, after, _⟩ | ⟨below, after, _⟩
    · rw [after]
      constructor
      · intro adds other isOther smallOther
        rw [isRecv] at isOther
        cases isOther
        rcases adds pkt batched with ⟨builder, _, _, exactly⟩
        exact ⟨((builder.addsExactly_iff pkt).1 exactly).2, Or.inr limits⟩
      · intro fits other member
        rw [only other member]
        refine ⟨_, Or.inr rfl, rfl, ?_⟩
        rw [BatchBuilder.addsExactly_iff, pktCount_flushBatch]
        exact ⟨by decide, (fits pkt isRecv small).1⟩
    · rw [after]
      constructor
      · intro adds other isOther smallOther
        rw [isRecv] at isOther
        cases isOther
        rcases adds pkt batched with ⟨builder, isEither, same, exactly⟩
        have fits := (builder.addsExactly_iff pkt).1 exactly
        refine ⟨fits.2, Or.inl ?_⟩
        rcases isEither with isBatch | isFresh
        · rw [← isBatch]
          exact fits.1
        · -- A full batch would have stayed full, and no fresh one is.
          have count := (BatchBuilder.add_of_room
            (Nat.ne_of_lt fits.1) pkt).2.2
          rw [← same, isFresh, pktCount_flushBatch] at count
          apply Nat.lt_of_le_of_ne state.batch.countFits
          intro full
          rw [BatchBuilder.add_of_full full, full] at count
          exact absurd count (by decide)
      · intro fits other member
        rw [only other member]
        refine ⟨_, Or.inl rfl, rfl, ?_⟩
        rw [BatchBuilder.addsExactly_iff]
        rcases fits pkt isRecv small with ⟨short, room | limits⟩
        · exact ⟨room, short⟩
        · exact absurd limits below

/-- What a round does to the account of the packets added: it may send the
batch, and it may add a packet. -/
theorem round_accounts {config : UplinkConfig} {accepted : List Bytes}
    {earlier : List (Finset PeerId × UplinkEvent)} {sent : List Outgoing}
    (accounts : Accounts accepted ((uplink config).stateAfter earlier).batch
      sent)
    {event : Finset PeerId × UplinkEvent}
    (running : ((uplink config).stateAfter earlier).running = true)
    (fits : PacketFits config earlier event) :
    Accounts (accepted ++ event.2.batched config)
      (uplinkStep config event.1 ((uplink config).stateAfter earlier).batch
        event.2).1
      (sent ++ event.2.batchesAmong config
        (uplinkStep config event.1 ((uplink config).stateAfter earlier).batch
          event.2).2) := by
  have fitsHere := fits running
  revert fitsHere accounts
  generalize ((uplink config).stateAfter earlier).batch = batch
  intro accounts fitsHere
  rcases event with ⟨directPeers, event⟩
  have flushes : Accounts accepted (flushBatch directPeers batch).1
      (sent ++ (flushBatch directPeers batch).2) := by
    rcases accounts.flush directPeers with ⟨fresh, runs⟩
    exact Accounts.of_flushed fresh runs
  rcases round_cases config directPeers batch event with
    ⟨nothing, after, sends⟩ | ⟨pkt, isRecv, small, isBatched, cases⟩
  · rw [nothing, after, sends, List.append_nil]
    exact flushes
  rcases fitsHere pkt isRecv small with ⟨short, room⟩
  rw [isBatched]
  rcases cases with ⟨_, after, sends⟩ | ⟨below, after, sends⟩
  · rw [after, sends]
    apply flushes.add _ short
    rw [pktCount_flushBatch]
    decide
  · rw [after, sends, List.append_nil]
    exact accounts.add (Nat.ne_of_lt (room.resolve_right below)) short

theorem accounts_of_fits {config : UplinkConfig}
    {events : List (Finset PeerId × UplinkEvent)}
    (fits : EachStep (PacketFits config) events) :
    Accounts (acceptedPackets config events)
      ((uplink config).stateAfter events).batch
      (sentBatches config events) := by
  induction events using List.reverseRecOn with
  | nil =>
      exact Accounts.of_flushed (Represents.withCapacity _) rfl
  | append_singleton earlier event inductionHypothesis =>
      obtain ⟨before, last⟩ := (eachStep_snoc_iff _ _ _).1 fits
      have accounts := inductionHypothesis before
      rw [acceptedPackets, sentBatches, outputsOf_observe_snoc,
        outputsOf_observe_snoc, stateAfter_snoc]
      by_cases running : ((uplink config).stateAfter earlier).running = true
      · rw [if_pos running, uplink_step_running config running]
        exact round_accounts accounts running last
      · rw [uplink_step_stopped config running, if_neg running,
          batchesAmong_nil, List.append_nil, List.append_nil]
        exact accounts

private theorem batchesExactly_iff (config : UplinkConfig)
    (events : List (Finset PeerId × UplinkEvent)) :
    BatchesExactly config events ↔ EachStep (PacketFits config) events := by
  constructor
  · intro exactly earlier event later shape
    exact (addsPackets_iff config earlier event).1
      (exactly.adds earlier event later shape)
  · intro fits
    constructor
    · intro earlier event later shape
      exact (addsPackets_iff config earlier event).2
        (fits earlier event later shape)
    · intro earlier later shape
      rw [shape] at fits
      exact ((accounts_of_fits fits.of_append).flush ∅).2

/-! ## Configurations -/

theorem uplinkStep_represents (config : UplinkConfig)
    (directPeers : Finset PeerId) (event : UplinkEvent) {batch : BatchBuilder}
    {pending : List Bytes} (represents : Represents batch pending) :
    ∃ after,
      Represents (uplinkStep config directPeers batch event).1 after := by
  have adds : ∀ {builder : BatchBuilder} {before : List Bytes} (pkt : Bytes),
      Represents builder before →
        ∃ after, Represents (builder.add pkt).1 after := by
    intro builder before pkt isBefore
    by_cases full : before.length = u16Max
    · rw [isBefore.add_full full]
      exact ⟨before, isBefore⟩
    · exact ⟨_, (isBefore.add full pkt).2⟩
  have fresh := flushBatch_fresh directPeers represents
  rcases round_cases config directPeers batch event with
    ⟨_, after, _⟩ | ⟨pkt, _, _, _, ⟨_, after, _⟩ | ⟨_, after, _⟩⟩
  · rw [after]
    exact ⟨[], fresh⟩
  · rw [after]
    exact adds pkt fresh
  · rw [after]
    exact adds pkt represents

/-- What holds of the first builder and survives every round holds of the
builder after every run. -/
theorem uplink_batch_invariant (config : UplinkConfig)
    (holds : BatchBuilder → Prop)
    (initial :
      holds (BatchBuilder.withCapacity (config.maxBatchBytes + 4096)))
    (preserved : ∀ directPeers event batch, holds batch →
      holds (uplinkStep config directPeers batch event).1)
    (events : List (Finset PeerId × UplinkEvent)) :
    holds ((uplink config).stateAfter events).batch := by
  induction events using List.reverseRecOn with
  | nil =>
      exact initial
  | append_singleton earlier event inductionHypothesis =>
      rw [stateAfter_snoc]
      by_cases running : ((uplink config).stateAfter earlier).running = true
      · rw [uplink_step_running config running]
        exact preserved event.1 event.2 _ inductionHypothesis
      · rw [uplink_step_stopped config running]
        exact inductionHypothesis

private theorem uplink_represents (config : UplinkConfig)
    (events : List (Finset PeerId × UplinkEvent)) :
    ∃ pending,
      Represents ((uplink config).stateAfter events).batch pending := by
  apply uplink_batch_invariant config
    (fun batch => ∃ pending, Represents batch pending)
  · exact ⟨[], Represents.withCapacity _⟩
  · intro directPeers event batch ⟨pending, represents⟩
    exact uplinkStep_represents config directPeers event represents

private theorem two_mul_length_le (pending : List Bytes) :
    2 * pending.length ≤ (Framing.encodeFrames pending).length := by
  induction pending with
  | nil =>
      exact Nat.le_refl 0
  | cons pkt rest inductionHypothesis =>
      rw [Framing.encodeFrames_cons, List.length_append,
        Framing.length_encodeFrame, List.length_cons]
      omega

/-- Below twice 65536 bytes, every packet of every run fits: one that does not
is more than half the limit, and the limit is met before the count is full. -/
theorem packetFits_of_le {config : UplinkConfig}
    (limited : config.maxBatchBytes ≤ 131071)
    (earlier : List (Finset PeerId × UplinkEvent))
    (event : Finset PeerId × UplinkEvent) :
    PacketFits config earlier event := by
  intro _ pkt _ notLarge
  rcases uplink_represents config earlier with ⟨pending, represents⟩
  have frames := two_mul_length_le pending
  rw [represents.payloadSize_eq, represents.count]
  unfold u16Max
  omega

/-- The packet lengths that `pump_tun_to_p2p` can send. -/
def UplinkEvent.FromTun (event : UplinkEvent) : Prop :=
  ∀ pkt, pkt ∈ event.packets → 1 ≤ pkt.length ∧ pkt.length ≤ 65536

private theorem fromTun_replicate :
    UplinkEvent.FromTun (.recv (some (List.replicate 65536 0x60))) := by
  intro pkt member
  rw [List.mem_singleton.1 member, List.length_replicate]
  exact ⟨by decide, Nat.le_refl _⟩

/-- From twice 65536 bytes on, a packet of 65536 bytes is added. -/
theorem not_packetFits_replicate {config : UplinkConfig}
    (unlimited : 131072 ≤ config.maxBatchBytes) :
    ¬ PacketFits config [] (∅, .recv (some (List.replicate 65536 0x60))) := by
  intro fits
  have small := (fits rfl _ rfl (by rw [List.length_replicate]; omega)).1
  rw [List.length_replicate] at small
  exact absurd small (by decide)

/-- A run batches exactly if and only if every packet that is added fits; a
configuration does so in every run if and only if its byte limit is below
twice 65536. -/
theorem batching_exact_iff (config : UplinkConfig) :
    (∀ events, BatchesExactly config events ↔
      EachStep (PacketFits config) events) ∧
    ((∀ events : List (Finset PeerId × UplinkEvent),
        (∀ event, event ∈ events → event.2.FromTun) →
          BatchesExactly config events) ↔
      config.maxBatchBytes ≤ 131071) := by
  refine ⟨batchesExactly_iff config, ?_, ?_⟩
  · intro always
    by_contra unlimited
    have exactly :=
      always [(∅, .recv (some (List.replicate 65536 0x60)))] (by
        intro event member
        rw [List.mem_singleton.1 member]
        exact fromTun_replicate)
    apply not_packetFits_replicate (Nat.lt_of_not_le unlimited)
    exact (batchesExactly_iff config _).1 exactly [] _ [] rfl
  · intro limited events _
    apply (batchesExactly_iff config events).2
    intro earlier event later _
    exact packetFits_of_le limited earlier event

/-- With a limit of 131072 bytes, a packet of 65536 bytes is added with a
length of zero. -/
theorem long_packet_misframed :
    ((BatchBuilder.withCapacity (131072 + 4096)).add
        (List.replicate 65536 0x60)).1.buf.bytes =
      batchHeader 0 ++ 0 :: 0 :: List.replicate 65536 0x60 ∧
    ¬ BatchesExactly ⟨131072, 128⟩
      [(∅, .recv (some (List.replicate 65536 0x60)))] := by
  constructor
  · have room : (BatchBuilder.withCapacity (131072 + 4096)).pktCount ≠
        u16Max := by
      decide
    obtain ⟨_, bytes, _⟩ :=
      BatchBuilder.add_of_room room (List.replicate 65536 0x60)
    have field : BigEndian.bytes 65536 = [0, 0] := by
      decide
    rw [bytes, List.length_replicate, field,
      (Represents.withCapacity _).bytes, Framing.encodeFrames_nil,
      List.append_nil, List.cons_append, List.cons_append, List.nil_append]
  · intro exactly
    have fits := (batchesExactly_iff _ _).1 exactly [] _ [] rfl
    exact not_packetFits_replicate (Nat.le_refl 131072) fits

end CocoNet
