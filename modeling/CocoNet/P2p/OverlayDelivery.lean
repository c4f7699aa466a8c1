import CocoNet.Library.Transport
import CocoNet.P2p.BatchSizes
import CocoNet.P2p.DataPlane
import CocoNet.P2p.Overlay
import CocoNet.P2p.Recipients

/-!
# What the overlay delivers

Every transmission of a node unpacks to the next few of the packets that the
node took from its TUN side.  So what a node delivers on behalf of another one
depends only on which transmissions of the latter the network hands over: each
of them once and in order gives the packets in order, whatever is lost, and
what was never taken anywhere is never delivered.
-/

namespace CocoNet

open StepMachine

/-! ## What a transmission carries -/

/-- The packets that a transmission unpacks to. -/
def Outgoing.packets (outgoing : Outgoing) : List Bytes :=
  match outgoing.received with
  | .ok packets => packets
  | .error _ => []

private theorem packets_of_received {outgoing : Outgoing} {packets : List Bytes}
    (received : outgoing.received = .ok packets) :
    outgoing.packets = packets := by
  rw [Outgoing.packets, received]

private theorem receivedAll_eq_ok {sent : List Outgoing}
    {delivered : List Bytes}
    (runs : receivedAll sent = .ok delivered) :
    (∀ outgoing, outgoing ∈ sent →
        outgoing.received = .ok outgoing.packets) ∧
      (sent.map Outgoing.packets).flatten = delivered := by
  induction sent generalizing delivered with
  | nil =>
      obtain rfl : [] = delivered := by
        simpa [receivedAll] using runs
      exact ⟨by simp, rfl⟩
  | cons outgoing rest inductionHypothesis =>
      rcases Checked.bind_eq_ok runs with ⟨first, received, others⟩
      rcases Checked.bind_eq_ok others with ⟨second, runsRest, joined⟩
      obtain rfl := Except.ok.inj joined
      obtain ⟨readable, flat⟩ := inductionHypothesis runsRest
      have same := packets_of_received received
      refine ⟨?_, ?_⟩
      · intro found member
        rcases List.mem_cons.1 member with isFirst | inRest
        · rw [isFirst, same]
          exact received
        · exact readable found inRest
      · rw [List.map_cons, List.flatten_cons, flat, same]

/-- The receivers unpack the transmission, and a request fits the length field
of the codec. -/
structure Readable (outgoing : Outgoing) : Prop where
  received : outgoing.received = .ok outgoing.packets
  fits : ∀ peers data, outgoing = .sendRequests peers data →
    data.length < 2 ^ 32

/-! ## Requests fit the codec -/

/-- The builder holds a few packets, and not more bytes than the limit, or than
one small packet takes if the limit is lower still. -/
structure Modest (config : UplinkConfig) (batch : BatchBuilder) : Prop where
  represents : ∃ pending, Represents batch pending
  bytes : batch.payloadSize < max 5 config.maxBatchBytes

theorem Modest.of_fresh (config : UplinkConfig) {fresh : BatchBuilder}
    (represents : Represents fresh []) : Modest config fresh := by
  refine ⟨⟨[], represents⟩, ?_⟩
  have empty := represents.sizes_nil.1
  omega

theorem Modest.round {config : UplinkConfig} (directPeers : Finset PeerId)
    (event : UplinkEvent) {batch : BatchBuilder}
    (modest : Modest config batch) :
    Modest config (uplinkStep config directPeers batch event).1 := by
  rcases modest.represents with ⟨pending, represents⟩
  refine ⟨uplinkStep_represents config directPeers event represents, ?_⟩
  have fresh := flushBatch_fresh directPeers represents
  have empty := fresh.sizes_nil.1
  rcases round_cases config directPeers batch event with
    ⟨_, after, _⟩ | ⟨pkt, _, small, _, ⟨_, after, _⟩ | ⟨below, after, _⟩⟩
  · rw [after]
    omega
  · rw [after]
    have grows := ((flushBatch directPeers batch).1.add_grows pkt).1
    omega
  · rw [after]
    have grows := (batch.add_grows pkt).1
    omega

private theorem loop_modest (config : NodeConfig)
    (inputs : List (Surroundings × LoopEvent)) :
    Modest config.uplink ((eventLoop config).stateAfter inputs).batch :=
  loop_batch_invariant config (Modest config.uplink)
    (Modest.of_fresh _ (Represents.withCapacity _))
    (fun directPeers event _ modest => modest.round directPeers event) inputs

private theorem flushBatch_request_length {config : UplinkConfig}
    {directPeers peers : Finset PeerId} {batch : BatchBuilder} {data : Bytes}
    (modest : Modest config batch)
    (member : .sendRequests peers data ∈ (flushBatch directPeers batch).2) :
    data.length < hdrLen + max 5 config.maxBatchBytes := by
  rcases modest.represents with ⟨pending, represents⟩
  by_cases empty : pending = []
  · subst empty
    rw [flushBatch_of_empty directPeers (represents.isEmpty_iff.2 rfl)]
      at member
    cases member
  · have message := (represents.take empty).1
    rw [flushBatch_of_nonempty directPeers (represents.isEmpty_eq_false empty),
      message, List.mem_singleton] at member
    split at member
    · cases member
    · obtain ⟨_, rfl⟩ := Outgoing.sendRequests.inj member
      have payload := represents.payloadSize_eq
      have bytes := modest.bytes
      rw [batchMessage, List.length_append, length_batchHeader]
      omega

private theorem request_length {config : NodeConfig} (fits : config.uplink.Fits)
    {inputs : List (Surroundings × LoopEvent)} {peers : Finset PeerId}
    {data : Bytes}
    (member : .sendRequests peers data ∈
      transmissions ((eventLoop config).outputsOf inputs)) :
    data.length < 2 ^ 32 := by
  obtain ⟨effect, isEffect, isTransmission⟩ := List.mem_filterMap.1 member
  obtain ⟨earlier, ⟨surroundings, event⟩, later, _, atStep⟩ :=
    (mem_outputsOf_iff _ _ _).1 isEffect
  have atRound : .sendRequests peers data ∈ transmissions
      ((eventLoop config).step ((eventLoop config).stateAfter earlier)
        (surroundings, event)).2 :=
    List.mem_filterMap.2 ⟨effect, atStep, isTransmission⟩
  by_cases running : ((eventLoop config).stateAfter earlier).status = .running
  swap
  · rw [eventLoop_step_stopped config running] at atRound
    cases atRound
  rw [transmissions_eventLoop_step config running] at atRound
  cases event with
  | swarm event =>
      cases atRound
  | uplink event =>
      rcases (mem_uplinkStep_iff _ _ _ _ _).1 atRound with
        ⟨_, flushed⟩ | ⟨pkt, _, isLarge⟩
      · have bound :=
          flushBatch_request_length (loop_modest config earlier) flushed
        have limit := fits.bytes
        unfold hdrLen at bound
        omega
      · cases isLarge

/-- The transmissions of a node unpack to what it has taken, up to what its
builder holds. -/
theorem transmissions_readable {config : NodeConfig}
    (fits : config.uplink.Fits) {inputs : List (Surroundings × LoopEvent)}
    (ipLike : ∀ pkt, pkt ∈ takenPackets config inputs → IpLike pkt) :
    (∀ outgoing,
        outgoing ∈ transmissions ((eventLoop config).outputsOf inputs) →
          Readable outgoing) ∧
      ∃ pending,
        Represents ((eventLoop config).stateAfter inputs).batch pending ∧
          ((transmissions ((eventLoop config).outputsOf inputs)).map
            Outgoing.packets).flatten ++ pending =
              takenPackets config inputs := by
  obtain ⟨delivered, pending, runs, represents, _, taken⟩ :=
    (loop_accounts fits ipLike).exists_split
  obtain ⟨received, flat⟩ := receivedAll_eq_ok runs
  refine ⟨?_, pending, represents, by rw [flat, taken]⟩
  intro outgoing member
  refine ⟨received outgoing member, ?_⟩
  intro peers data same
  subst same
  exact request_length fits member

/-! ## Deliveries of one message -/

/-- A transmission of another node, however it arrives, makes a running node
deliver the packets it carries. -/
theorem deliveries_arrival (config : NodeConfig) {state : LoopState}
    (running : state.status = .running) (surroundings : Surroundings)
    {sender : PeerId} {outgoing : Outgoing} {event : LoopEvent}
    (readable : Readable outgoing)
    (arrives : outgoing.ArrivesAs sender config.localPeer event) :
    deliveries ((eventLoop config).step state (surroundings, event)).2 =
      outgoing.packets := by
  cases arrives with
  | publish data =>
      obtain ⟨unpacked, unpacks, same⟩ :=
        Checked.bind_eq_ok readable.received
      rw [deliveries_gossip config surroundings running (by simp) unpacks]
      exact Except.ok.inj same
  | request addressed reads =>
      rename_i peers data request rest
      have back := DataCodec.request_framesExactly.readsBack data
        (readable.fits peers data rfl) []
      rw [List.append_nil, reads] at back
      obtain rfl := (Prod.mk.inj (Except.ok.inj back)).1
      obtain ⟨unpacked, unpacks, same⟩ :=
        Checked.bind_eq_ok readable.received
      rw [deliveries_request config surroundings running sender unpacks]
      exact Except.ok.inj same

private theorem deliveries_of_none {Item : Type} {wrap : Item → Effect}
    (others : ∀ item, (wrap item).delivery = none) (items : List Item) :
    deliveries (items.map wrap) = [] :=
  filterMap_map_none Effect.delivery others items

theorem deliveries_append (first second : List Effect) :
    deliveries (first ++ second) = deliveries first ++ deliveries second :=
  List.filterMap_append

private theorem deliveries_announceEffects
    (announced : AnnounceState × List Announcement) (state : LoopState) :
    deliveries (announceEffects announced state).2 = [] :=
  deliveries_of_none (fun _ => rfl) _

/-- Only gossipsub messages of the data topic and requests are delivered. -/
theorem deliveries_eq_nil (config : NodeConfig) (state : LoopState)
    (surroundings : Surroundings) {event : LoopEvent}
    (notData : event.bringsMessage = false ∨
      ∃ source msg, event = .swarm (.gossip source (.announce msg))) :
    deliveries ((eventLoop config).step state (surroundings, event)).2 =
      [] := by
  by_cases running : state.status = .running
  swap
  · rw [eventLoop_step_stopped config running]
    rfl
  rw [eventLoop_step_running config running]
  cases handled : onLoopEvent config surroundings state event with
  | error fault =>
      rfl
  | ok result =>
      rcases notData with noMessage | ⟨source, msg, isAnnounce⟩
      · cases event with
        | uplink event =>
            rw [← Except.ok.inj handled]
            exact deliveries_of_none (fun _ => rfl) _
        | swarm event =>
            cases event with
            | gossip source message =>
                cases noMessage
            | request peer request =>
                cases noMessage
            | identifyReceived peer listenAddrs =>
                rcases Checked.bind_eq_ok handled with ⟨dialed, _, rest⟩
                rw [← Except.ok.inj rest]
                have dials : deliveries (dialed.2.map .dial) = [] :=
                  deliveries_of_none (fun _ => rfl) dialed.2
                simp only [deliveries_append, deliveries_announceEffects,
                  dials, List.append_nil]
            | mdnsDiscovered found =>
                rw [← Except.ok.inj handled]
                exact deliveries_of_none (fun _ => rfl) _
            | connection event =>
                rw [← Except.ok.inj handled]
                cases event with
                | closed peer id =>
                    rfl
                | established peer id endpoint =>
                    simp only [onConnection, deliveries_append,
                      deliveries_announceEffects, List.nil_append]
                    exact deliveries_of_none (fun _ => rfl) _
            | autonat | newListenAddr address
            | externalAddrConfirmed address =>
                rw [← Except.ok.inj handled]
                exact deliveries_announceEffects _ _
            | externalAddrExpired address | listenerClosed addresses =>
                rw [← Except.ok.inj handled]
                rfl
      · subst isAnnounce
        simp only [onLoopEvent, onSwarmEvent, onGossip] at handled
        split at handled
        · rw [← Except.ok.inj handled]
          rfl
        · cases msg with
          | none =>
              rw [← Except.ok.inj handled]
              rfl
          | some msg =>
              rcases Checked.bind_eq_ok handled with ⟨dialed, _, rest⟩
              rw [← Except.ok.inj rest]
              exact deliveries_of_none (fun _ => rfl) _

/-! ## What one node delivers on behalf of another -/

/-- The transmission of `sender` that the event brings, by its position. -/
def OverlayEvent.dataFrom (sender : PeerId) (event : OverlayEvent) :
    Option Nat :=
  match event.origin with
  | some (.data origin position) =>
      if origin = sender then some position else none
  | _ => none

private theorem OverlayEvent.dataFrom_eq_some_iff (sender : PeerId)
    (event : OverlayEvent) (position : Nat) :
    event.dataFrom sender = some position ↔
      event.origin = some (.data sender position) := by
  unfold OverlayEvent.dataFrom
  cases event.origin with
  | none =>
      simp
  | some origin =>
      cases origin with
      | announcement other otherPosition =>
          simp
      | data other otherPosition =>
          by_cases same : other = sender <;> simp [same]

section Links

variable (config : PeerId → UplinkConfig)

/-- The transmissions of `sender` that `receiver` handles before it stops. -/
def handledPositions (sender receiver : PeerId) (run : List OverlayEvent) :
    List Nat :=
  ((overlay config).observe fun states event _ =>
    if event.node = receiver ∧ (states receiver).status = .running then
      (event.dataFrom sender).toList
    else []).outputsOf run

/-- What `receiver` delivers to its TUN side when transmissions of `sender`
arrive. -/
def deliveredFrom (sender receiver : PeerId) (run : List OverlayEvent) :
    List Bytes :=
  ((overlay config).observe fun _ event outputs =>
    if event.node = receiver ∧ (event.dataFrom sender).isSome then
      deliveries (outputs.map Prod.snd)
    else []).outputsOf run

/-- The packets of the transmissions that a node has made. -/
def sentLog (run : List OverlayEvent) (sender : PeerId) : List (List Bytes) :=
  (transmissions (effectsAt config run sender)).map Outgoing.packets

/-- The packets that a node has taken from its TUN side. -/
def takenAt (run : List OverlayEvent) (peer : PeerId) : List Bytes :=
  takenPackets ⟨peer, config peer⟩ (inputsAt peer run)

private theorem handledPositions_snoc (sender receiver : PeerId)
    (run : List OverlayEvent) (event : OverlayEvent) :
    handledPositions config sender receiver (run ++ [event]) =
      handledPositions config sender receiver run ++
        if event.node = receiver ∧
            ((overlay config).stateAfter run receiver).status = .running then
          (event.dataFrom sender).toList
        else [] :=
  outputsOf_observe_snoc _ _ _ _

theorem deliveredFrom_snoc (sender receiver : PeerId)
    (run : List OverlayEvent) (event : OverlayEvent) :
    deliveredFrom config sender receiver (run ++ [event]) =
      deliveredFrom config sender receiver run ++
        if event.node = receiver ∧ (event.dataFrom sender).isSome then
          deliveries (effectsOf config run event)
        else [] := by
  have named : ((overlay config).step ((overlay config).stateAfter run)
      event).2.map Prod.snd = effectsOf config run event := by
    simp only [overlay, family, List.map_map, Function.comp_def, List.map_id']
    rfl
  rw [← named]
  exact outputsOf_observe_snoc _ _ _ _

private theorem sentLog_extend (run later : List OverlayEvent)
    (sender : PeerId) :
    sentLog config run sender <+: sentLog config (run ++ later) sender :=
  ((effectsAt_extend config run later sender).filterMap _).map _

variable {config} {sender receiver : PeerId}

/-- A packet that a node has taken was received from its TUN side. -/
theorem exists_recv_of_mem_takenAt {run : List OverlayEvent} {peer : PeerId}
    {pkt : Bytes} (member : pkt ∈ takenAt config run peer) :
    ∃ event, event ∈ run ∧ event.node = peer ∧
      event.event = .uplink (.recv (some pkt)) := by
  obtain ⟨data, isData, carries⟩ :=
    List.mem_flatMap.1 (mem_packetsFromTun member)
  obtain ⟨input, isInput, reads⟩ := List.mem_filterMap.1 isData
  obtain ⟨event, inFilter, same⟩ := List.mem_map.1 isInput
  obtain ⟨inRun, isNode⟩ := List.mem_filter.1 inFilter
  refine ⟨event, inRun, by simpa using isNode, ?_⟩
  rw [← same, OverlayEvent.input] at reads
  cases shape : event.event with
  | swarm inner =>
      rw [shape] at reads
      cases inner <;> cases reads
      cases carries
  | uplink inner =>
      rw [shape] at reads
      obtain rfl := Option.some.inj reads
      rcases inner with _ | _ | found
      · cases carries
      · cases carries
      · rw [List.mem_singleton.1 carries]

/-- What was delivered on behalf of a node are the packets of those of its
transmissions that were handled. -/
theorem deliveredFrom_eq {run : List OverlayEvent}
    (carried : EachStep (Carried config) run)
    (readable : ∀ outgoing,
      outgoing ∈ transmissions (effectsAt config run sender) →
        Readable outgoing) :
    (∀ position, position ∈ handledPositions config sender receiver run →
        position < (sentLog config run sender).length) ∧
      deliveredFrom config sender receiver run =
        Transport.received (sentLog config run sender)
          (handledPositions config sender receiver run) := by
  induction run using List.reverseRecOn with
  | nil =>
      exact ⟨by simp [handledPositions], rfl⟩
  | append_singleton run event inductionHypothesis =>
      obtain ⟨carriedBefore, lastCarried⟩ := (eachStep_snoc_iff _ _ _).1 carried
      have past := effectsAt_extend config run [event] sender
      obtain ⟨sent, delivered⟩ := inductionHypothesis carriedBefore
        fun outgoing member =>
          readable outgoing ((past.filterMap _).subset member)
      obtain ⟨more, grown⟩ := sentLog_extend config run [event] sender
      rw [handledPositions_snoc, deliveredFrom_snoc, delivered, ← grown]
      have kept : ∀ position,
          position ∈ handledPositions config sender receiver run →
            position < (sentLog config run sender ++ more).length := by
        intro position member
        rw [List.length_append]
        exact Nat.lt_add_right _ (sent position member)
      cases brings : event.dataFrom sender with
      | none =>
          simp only [Option.toList_none, Option.isSome_none, Bool.false_eq_true,
            and_false, ite_self, if_false, List.append_nil]
          exact ⟨kept, (Transport.received_append sent more).symm⟩
      | some position =>
          have origin := (OverlayEvent.dataFrom_eq_some_iff _ _ _).1 brings
          rw [Carried, origin] at lastCarried
          obtain ⟨_, outgoing, atPosition, arrives⟩ := lastCarried
          by_cases here : event.node = receiver
          swap
          · simp only [here, false_and, if_false, List.append_nil]
            exact ⟨kept, (Transport.received_append sent more).symm⟩
          subst here
          by_cases running :
              ((overlay config).stateAfter run event.node).status = .running
          · have isReadable := readable outgoing
              ((past.filterMap _).subset (List.mem_of_getElem? atPosition))
            have now : deliveries (effectsOf config run event) =
                outgoing.packets :=
              deliveries_arrival ⟨event.node, config event.node⟩ running
                event.surroundings isReadable arrives
            have logged : (sentLog config run sender)[position]? =
                some outgoing.packets := by
              rw [sentLog, List.getElem?_map, atPosition]
              rfl
            have inLog := (List.getElem?_eq_some_iff.1 logged).1
            simp only [running, Option.toList_some, Option.isSome_some,
              and_self, if_true, now]
            have all : ∀ found,
                found ∈ handledPositions config sender event.node run ++
                    [position] →
                  found < (sentLog config run sender).length := by
              intro found member
              rcases List.mem_append.1 member with before | last
              · exact sent found before
              · rw [List.mem_singleton.1 last]
                exact inLog
            refine ⟨?_, ?_⟩
            · intro found member
              rw [List.length_append]
              exact Nat.lt_add_right _ (all found member)
            · rw [Transport.received_append all,
                Transport.received_snoc logged]
          · have nothing : deliveries (effectsOf config run event) = [] := by
              rw [effectsOf, eventLoop_step_stopped _ running]
              rfl
            simp only [running, Option.isSome_some, and_self, and_false,
              if_true, if_false, nothing, List.append_nil]
            exact ⟨kept, (Transport.received_append sent more).symm⟩

/-- What a node delivers on behalf of another one, compared with what the
latter has taken from its TUN side. -/
structure LinkDelivers (config : PeerId → UplinkConfig)
    (run : List OverlayEvent) (sender receiver : PeerId) : Prop where
  only : ∀ pkt, pkt ∈ deliveredFrom config sender receiver run →
    pkt ∈ takenAt config run sender
  once : (handledPositions config sender receiver run).Nodup →
    (deliveredFrom config sender receiver run).Subperm
      (takenAt config run sender)
  inOrder : (handledPositions config sender receiver run).Pairwise (· < ·) →
    (deliveredFrom config sender receiver run).Sublist
      (takenAt config run sender)
  complete :
    handledPositions config sender receiver run =
        List.range (transmissions (effectsAt config run sender)).length →
      ((overlay config).stateAfter run sender).batch.isEmpty = true →
        deliveredFrom config sender receiver run = takenAt config run sender

theorem link_delivers {run : List OverlayEvent}
    (fits : (config sender).Fits) (carried : EachStep (Carried config) run)
    (ipLike : ∀ pkt, pkt ∈ takenAt config run sender → IpLike pkt) :
    LinkDelivers config run sender receiver := by
  have senderFits : (⟨sender, config sender⟩ : NodeConfig).uplink.Fits := fits
  have sends := transmissions_readable senderFits ipLike
  rw [← effectsAt_eq] at sends
  obtain ⟨readable, pending, represents, taken⟩ := sends
  have corresponds :
      (∀ position, position ∈ handledPositions config sender receiver run →
          position < (sentLog config run sender).length) ∧
        deliveredFrom config sender receiver run =
          Transport.received (sentLog config run sender)
            (handledPositions config sender receiver run) :=
    deliveredFrom_eq carried readable
  obtain ⟨sent, delivered⟩ := corresponds
  change (sentLog config run sender).flatten ++ pending =
    takenAt config run sender at taken
  have part := (List.prefix_append
    (sentLog config run sender).flatten pending).sublist
  rw [taken] at part
  refine ⟨?_, ?_, ?_, ?_⟩
  · intro pkt member
    rw [delivered] at member
    exact part.subset (Transport.mem_flatten_of_mem_received member)
  · intro nodup
    rw [delivered]
    exact (Transport.received_subperm nodup sent).trans part.subperm
  · intro increasing
    rw [delivered]
    exact (Transport.received_sublist increasing sent).trans part
  · intro all empty
    rw [overlay_stateAfter] at empty
    rw [represents.isEmpty_iff.1 empty, List.append_nil] at taken
    have length : (transmissions (effectsAt config run sender)).length =
        (sentLog config run sender).length :=
      (List.length_map _).symm
    rw [delivered, all, length, Transport.received_range, taken]

/-- An event that makes its node deliver something brings it from another
node. -/
theorem exists_dataFrom {run : List OverlayEvent} {event : OverlayEvent}
    (carried : Carried config run event) {pkt : Bytes}
    (member : pkt ∈ deliveries (effectsOf config run event)) :
    ∃ sender, sender ≠ event.node ∧ (event.dataFrom sender).isSome = true := by
  have isData : ∃ sender position,
      event.origin = some (.data sender position) := by
    by_contra notData
    have noData : event.event.bringsMessage = false ∨
        ∃ source msg, event.event = .swarm (.gossip source (.announce msg)) := by
      rw [Carried] at carried
      cases isOrigin : event.origin with
      | none =>
          rw [isOrigin] at carried
          exact Or.inl carried
      | some origin =>
          cases origin with
          | data sender position =>
              exact absurd ⟨sender, position, isOrigin⟩ notData
          | announcement sender position =>
              rw [isOrigin] at carried
              obtain ⟨_, announcement, _, arrives⟩ := carried
              cases shape : event.event with
              | uplink inner =>
                  rw [shape] at arrives
                  cases arrives
              | swarm inner =>
                  rw [shape] at arrives
                  cases arrives
                  exact Or.inr ⟨_, _, rfl⟩
    rw [effectsOf, OverlayEvent.input, deliveries_eq_nil _ _ _ noData]
      at member
    cases member
  obtain ⟨sender, position, origin⟩ := isData
  rw [Carried, origin] at carried
  refine ⟨sender, carried.1, ?_⟩
  rw [(OverlayEvent.dataFrom_eq_some_iff sender event position).2 origin]
  rfl

/-- Whatever a node delivers, it delivers on behalf of another node. -/
theorem exists_deliveredFrom {run : List OverlayEvent}
    (carried : EachStep (Carried config) run) {pkt : Bytes}
    (member : pkt ∈ deliveries (effectsAt config run receiver)) :
    ∃ sender, sender ≠ receiver ∧
      pkt ∈ deliveredFrom config sender receiver run := by
  induction run using List.reverseRecOn with
  | nil =>
      simp [effectsAt, outputsAt, deliveries] at member
  | append_singleton run event inductionHypothesis =>
      obtain ⟨carriedBefore, lastCarried⟩ := (eachStep_snoc_iff _ _ _).1 carried
      have earlier : pkt ∈ deliveries (effectsAt config run receiver) →
          ∃ sender, sender ≠ receiver ∧
            pkt ∈ deliveredFrom config sender receiver (run ++ [event]) := by
        intro before
        obtain ⟨sender, other, found⟩ := inductionHypothesis carriedBefore before
        refine ⟨sender, other, ?_⟩
        rw [deliveredFrom_snoc]
        exact List.mem_append_left _ found
      by_cases here : event.node = receiver
      swap
      · rw [effectsAt_snoc_other config run here] at member
        exact earlier member
      subst here
      rw [effectsAt_snoc_own, deliveries_append] at member
      rcases List.mem_append.1 member with before | now
      · exact earlier before
      obtain ⟨sender, other, brings⟩ := exists_dataFrom lastCarried now
      refine ⟨sender, other, ?_⟩
      rw [deliveredFrom_snoc]
      simp [brings, now]

/-- In every run of any number of nodes over a network that loses, delays,
reorders and repeats messages at will, a node delivers only packets that
another node has taken from its TUN side.  From each node it delivers every
packet at most once if it handles no transmission twice, in the order in which
they were taken if it handles the transmissions in order, and all of them if it
handles all transmissions and none waits in the builder. -/
theorem overlay_delivers {run : List OverlayEvent}
    (fits : ∀ peer, (config peer).Fits)
    (carried : EachStep (Carried config) run)
    (ipLike : ∀ peer pkt, pkt ∈ takenAt config run peer → IpLike pkt)
    (receiver : PeerId) :
    (∀ pkt, pkt ∈ deliveries (effectsAt config run receiver) →
      ∃ sender, sender ≠ receiver ∧ pkt ∈ takenAt config run sender) ∧
    ∀ sender, LinkDelivers config run sender receiver := by
  have links : ∀ sender, LinkDelivers config run sender receiver :=
    fun sender => link_delivers (fits sender) carried (ipLike sender)
  refine ⟨?_, links⟩
  intro pkt member
  obtain ⟨sender, other, found⟩ := exists_deliveredFrom carried member
  exact ⟨sender, other, (links sender).only pkt found⟩

end Links

/-! ## A small network -/

/-- The batch of one short packet. -/
def batchOfOne (pkt : Bytes) : Bytes :=
  [0x43, 0x4F, 0x01, 0, 1, 0, UInt8.ofNat pkt.length] ++ pkt

/-- Node 1 takes two packets and publishes each at the next tick. -/
def twoPublished (first second : Bytes) : List OverlayEvent :=
  [⟨⟨[1]⟩, ⟨0, 0, true⟩, .uplink (.recv (some first)), none⟩,
    ⟨⟨[1]⟩, ⟨1, 0, true⟩, .uplink .tick, none⟩,
    ⟨⟨[1]⟩, ⟨2, 0, true⟩, .uplink (.recv (some second)), none⟩,
    ⟨⟨[1]⟩, ⟨3, 0, true⟩, .uplink .tick, none⟩]

/-- A batch of node 1 reaches node 2. -/
def heard (position : Nat) (pkt : Bytes) : OverlayEvent :=
  ⟨⟨[2]⟩, ⟨4, 0, true⟩,
    .swarm (.gossip none (.packets (batchOfOne pkt))),
    some (.data ⟨[1]⟩ position)⟩

/-- The second packet reaches node 2 first, and then once more. -/
def reordered (first second : Bytes) : List OverlayEvent :=
  twoPublished first second ++
    [heard 1 second, heard 0 first, heard 1 second]

private theorem twoPublished_carried (config : PeerId → UplinkConfig)
    (first second : Bytes) :
    EachStep (Carried config) (twoPublished first second) := by
  intro earlier event later shape
  have member : event ∈ twoPublished first second := by
    rw [shape]
    simp
  simp only [twoPublished, List.mem_cons, List.not_mem_nil, or_false]
    at member
  rcases member with same | same | same | same <;> rw [same] <;> rfl

theorem reordered_carried {config : PeerId → UplinkConfig}
    {first second : Bytes}
    (publishes :
      transmissions (effectsAt config (twoPublished first second) ⟨[1]⟩) =
        [.publish .packets (batchOfOne first),
          .publish .packets (batchOfOne second)]) :
    EachStep (Carried config) (reordered first second) := by
  have other : (⟨[2]⟩ : PeerId) ≠ ⟨[1]⟩ := by decide
  have distinct : (⟨[1]⟩ : PeerId) ≠ ⟨[2]⟩ := by decide
  -- What node 2 hears changes nothing in what node 1 has sent.
  have atOne : ∀ heards : List OverlayEvent,
      (∀ event, event ∈ heards → event.node = ⟨[2]⟩) →
        effectsAt config (twoPublished first second ++ heards) ⟨[1]⟩ =
          effectsAt config (twoPublished first second) ⟨[1]⟩ := by
    intro heards atTwo
    induction heards using List.reverseRecOn with
    | nil =>
        rw [List.append_nil]
    | append_singleton heards event inductionHypothesis =>
        have away : event.node ≠ ⟨[1]⟩ := by
          rw [atTwo event (by simp)]
          exact other
        rw [← List.append_assoc, effectsAt_snoc_other config _ away]
        exact inductionHypothesis fun found member =>
          atTwo found (by simp [member])
  have hears : ∀ heards : List OverlayEvent,
      (∀ event, event ∈ heards → event.node = ⟨[2]⟩) →
        Carried config (twoPublished first second ++ heards)
            (heard 0 first) ∧
          Carried config (twoPublished first second ++ heards)
            (heard 1 second) := by
    intro heards atTwo
    constructor
    · refine ⟨distinct, .publish .packets (batchOfOne first), ?_,
        .publish _⟩
      rw [atOne heards atTwo, publishes]
      rfl
    · refine ⟨distinct, .publish .packets (batchOfOne second), ?_,
        .publish _⟩
      rw [atOne heards atTwo, publishes]
      rfl
  have own := twoPublished_carried config first second
  have once := (eachStep_snoc_iff _ _ (heard 1 second)).2
    ⟨own, by simpa using (hears [] (by simp)).2⟩
  have twice := (eachStep_snoc_iff _ _ (heard 0 first)).2
    ⟨once, (hears [heard 1 second] (by simp [heard])).1⟩
  have thrice := (eachStep_snoc_iff _ _ (heard 1 second)).2
    ⟨twice, by
      simpa using (hears [heard 1 second, heard 0 first]
        (by simp [heard])).2⟩
  simpa [reordered] using thrice

theorem taken_reordered {config : PeerId → UplinkConfig}
    {first second pkt : Bytes} {peer : PeerId}
    (member : pkt ∈ takenAt config (reordered first second) peer) :
    peer = ⟨[1]⟩ ∧ (pkt = first ∨ pkt = second) := by
  obtain ⟨event, inRun, node, recv⟩ := exists_recv_of_mem_takenAt member
  simp only [reordered, twoPublished, heard, List.cons_append,
    List.nil_append, List.mem_cons, List.not_mem_nil, or_false] at inRun
  rcases inRun with same | same | same | same | same | same | same <;>
    subst same <;> cases recv
  · exact ⟨node.symm, Or.inl rfl⟩
  · exact ⟨node.symm, Or.inr rfl⟩

/-- What node 2 delivers are packets that node 1 has taken, here in another
order and one of them twice. -/
theorem overlay_delivers_reordered :
    deliveredFrom (fun _ => ⟨64, 8⟩) ⟨[1]⟩ ⟨[2]⟩
          (reordered [0x60, 1] [0x60, 2]) =
        [[0x60, 2], [0x60, 1], [0x60, 2]] ∧
      LinkDelivers (fun _ => ⟨64, 8⟩) (reordered [0x60, 1] [0x60, 2]) ⟨[1]⟩
        ⟨[2]⟩ := by
  refine ⟨by decide +kernel, (overlay_delivers
    (fun _ => ⟨by decide, by decide⟩)
    (reordered_carried (by decide +kernel)) ?_ ⟨[2]⟩).2 ⟨[1]⟩⟩
  intro peer pkt member
  rcases (taken_reordered member).2 with isFirst | isSecond
  · exact ⟨_, _, isFirst, Or.inr (by decide)⟩
  · exact ⟨_, _, isSecond, Or.inr (by decide)⟩

end CocoNet
