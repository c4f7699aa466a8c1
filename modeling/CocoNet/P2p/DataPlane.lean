import CocoNet.Library.Refinement
import CocoNet.P2p.EventLoop
import CocoNet.P2p.UplinkDelivery

/-!
# The data plane inside the event loop

The connections and the uplink make up a machine of their own: connection
events decide who is a direct peer, and a flush goes where the direct peers of
its moment are.  The loop refines this machine.  Announcements, dials, inbound
messages and the clock change neither what it transmits nor which connections
it closes, so what holds of every run of the data plane holds of the loop.
-/

namespace CocoNet

open StepMachine

/-! ## The machine -/

inductive DataEvent where
  | uplink (event : UplinkEvent)
  | connection (event : ConnectionEvent)
  deriving DecidableEq, Repr

inductive DataOutput where
  | transmit (outgoing : Outgoing)
  | closeConnection (id : ConnectionId)
  deriving DecidableEq

structure DataState where
  connections : ConnState
  batch : BatchBuilder
  running : Bool

def dataStep (config : UplinkConfig) (state : DataState) :
    DataEvent → DataState × List DataOutput
  | .uplink event =>
      let stepped :=
        uplinkStep config state.connections.directPeers state.batch event
      ({ state with batch := stepped.1, running := event != .recv none },
        stepped.2.map .transmit)
  | .connection event =>
      let stepped := connectionStep state.connections event
      ({ state with connections := stepped.1 },
        stepped.2.map .closeConnection)

def dataPlane (config : UplinkConfig) :
    StepMachine DataState DataEvent DataOutput where
  start :=
    ⟨connections.start, BatchBuilder.withCapacity (config.maxBatchBytes + 4096),
      true⟩
  step state event :=
    if state.running then dataStep config state event else (state, [])

/-! ## The loop as the data plane -/

def LoopEvent.dataEvent : LoopEvent → Option DataEvent
  | .uplink event => some (.uplink event)
  | .swarm (.connection event) => some (.connection event)
  | .swarm _ => none

def Effect.dataOutput : Effect → Option DataOutput
  | .transmit outgoing => some (.transmit outgoing)
  | .closeConnection id => some (.closeConnection id)
  | _ => none

/-- The loop read as the data plane: what a running loop handles. -/
def dataReading :
    Reading LoopState (Surroundings × LoopEvent) Effect DataState DataEvent
      DataOutput where
  state state := ⟨state.connections, state.batch, state.status != .ended⟩
  events state input :=
    if state.status = .running then input.2.dataEvent.toList else []
  output := Effect.dataOutput

private theorem dataOutput_of_other {effect : Effect} (other : effect.Other) :
    effect.dataOutput = none := by
  cases effect with
  | transmit outgoing =>
      cases other.2
  | closeConnection id =>
      cases other.1
  | _ =>
      rfl

private theorem dataOutputs_of_other {effects : List Effect}
    (others : ∀ effect, effect ∈ effects → effect.Other) :
    effects.filterMap Effect.dataOutput = [] :=
  List.filterMap_eq_nil_iff.2 fun effect member =>
    dataOutput_of_other (others effect member)

private theorem dataOutputs_map {Item : Type} {wrap : Item → Effect}
    {same : Item → DataOutput}
    (reads : ∀ item, (wrap item).dataOutput = some (same item))
    (items : List Item) :
    (items.map wrap).filterMap Effect.dataOutput = items.map same := by
  rw [List.filterMap_map, ← List.filterMap_eq_map]
  congr 1
  exact funext reads

private theorem dataOutputs_transmit (outgoing : List Outgoing) :
    (outgoing.map Effect.transmit).filterMap Effect.dataOutput =
      outgoing.map .transmit :=
  dataOutputs_map (fun _ => rfl) outgoing

private theorem dataOutputs_onConnection (config : NodeConfig)
    (surroundings : Surroundings) (state : LoopState)
    (event : ConnectionEvent) :
    (onConnection config surroundings state event).2.filterMap
        Effect.dataOutput =
      (connectionStep state.connections event).2.map .closeConnection := by
  cases event with
  | closed peer id =>
      rfl
  | established peer id endpoint =>
      have silent :=
        (announceEffects_quiet
          (announceFirst config.localPeer surroundings state.announcing)
          state).others
      simp only [onConnection, List.filterMap_append,
        dataOutputs_of_other silent, List.nil_append]
      exact dataOutputs_map (fun _ => rfl) _

private theorem dataStep_of_running (config : UplinkConfig) {state : DataState}
    (running : state.running = true) (event : DataEvent) :
    (dataPlane config).runFrom state [event] = dataStep config state event := by
  simp [runFrom, dataPlane, running]

/-- One round of a running loop is a step of the data plane if it has a data
event, and changes nothing of the data plane otherwise. -/
theorem dataReading_step_running (config : NodeConfig) {state : LoopState}
    (running : state.status = .running) (input : Surroundings × LoopEvent) :
    (dataPlane config.uplink).runFrom (dataReading.state state)
        input.2.dataEvent.toList =
      (dataReading.state ((eventLoop config).step state input).1,
        ((eventLoop config).step state input).2.filterMap
          Effect.dataOutput) := by
  rcases input with ⟨surroundings, event⟩
  have isOpen : (dataReading.state state).running = true := by
    simp [dataReading, running]
  rw [eventLoop_step_running config running]
  cases event with
  | uplink event =>
      simp only [LoopEvent.dataEvent, Option.toList_some,
        dataStep_of_running config.uplink isOpen, onLoopEvent, onUplinkEvent,
        dataOutputs_transmit]
      by_cases closes : event = .recv none
      · simp [dataStep, dataReading, closes]
      · have stillOpen := bne_iff_ne.2 closes
        simp only [dataStep, dataReading, if_neg closes, stillOpen, running]
        rfl
  | swarm event =>
      by_cases isConnection : ∃ inner, event = .connection inner
      · rcases isConnection with ⟨inner, same⟩
        subst same
        have stepped := onConnection_steps config surroundings state inner
        simp only [LoopEvent.dataEvent, Option.toList_some,
          dataStep_of_running config.uplink isOpen, onLoopEvent, onSwarmEvent,
          dataOutputs_onConnection]
        simp only [dataStep, dataReading, stepped.connections, stepped.batch,
          stepped.status]
      · have notConnection : ∀ inner, event ≠ .connection inner :=
          fun inner same => isConnection ⟨inner, same⟩
        have nothing : (LoopEvent.swarm event).dataEvent = none := by
          cases event with
          | connection inner =>
              exact absurd rfl (notConnection inner)
          | _ =>
              rfl
        rw [nothing]
        cases handled :
            onLoopEvent config surroundings state (.swarm event) with
        | error fault =>
            simp only [Option.toList_none, runFrom, dataReading, running]
            rfl
        | ok result =>
            have quiet := onSwarmEvent_quiet notConnection handled
            simp only [Option.toList_none, runFrom, dataReading,
              quiet.connections, quiet.batch, quiet.status,
              dataOutputs_of_other quiet.others]

private theorem dataReading_refines (config : NodeConfig) :
    dataReading.Refines (eventLoop config) (dataPlane config.uplink) where
  start := rfl
  step state input := by
    by_cases running : state.status = .running
    · have stepped := dataReading_step_running config running input
      simpa only [dataReading, if_pos running] using stepped
    · rw [eventLoop_step_stopped config running]
      simp [dataReading, running, runFrom]

/-! ## Runs -/

def dataEvents (inputs : List (Surroundings × LoopEvent)) : List DataEvent :=
  inputs.filterMap fun input => input.2.dataEvent

/-- The data events that the loop gets to handle before it stops. -/
def handledEvents (config : NodeConfig)
    (inputs : List (Surroundings × LoopEvent)) : List DataEvent :=
  dataReading.eventsOf (eventLoop config) inputs

private theorem handledEvents_first (config : NodeConfig)
    (inputs : List (Surroundings × LoopEvent)) :
    handledEvents config inputs <+: dataEvents inputs ∧
      (((eventLoop config).stateAfter inputs).status = .running →
        handledEvents config inputs = dataEvents inputs) := by
  rw [dataEvents, List.filterMap_eq_flatMap_toList]
  exact dataReading.eventsOf_while (fun _ _ => rfl)
    (eventLoop_runs_before config) inputs

theorem dataEvents_snoc (inputs : List (Surroundings × LoopEvent))
    (input : Surroundings × LoopEvent) :
    dataEvents (inputs ++ [input]) =
      dataEvents inputs ++ input.2.dataEvent.toList := by
  rw [dataEvents, List.filterMap_append]
  cases data : input.2.dataEvent <;> simp [dataEvents, data]

private theorem handledEvents_snoc_running {config : NodeConfig}
    {inputs : List (Surroundings × LoopEvent)}
    (running : ((eventLoop config).stateAfter inputs).status = .running)
    (input : Surroundings × LoopEvent) :
    handledEvents config (inputs ++ [input]) =
      handledEvents config inputs ++ input.2.dataEvent.toList := by
  rw [handledEvents, Reading.eventsOf_snoc]
  exact congrArg _ (if_pos running)

private theorem handledEvents_snoc_stopped {config : NodeConfig}
    {inputs : List (Surroundings × LoopEvent)}
    (stopped : ((eventLoop config).stateAfter inputs).status ≠ .running)
    (input : Surroundings × LoopEvent) :
    handledEvents config (inputs ++ [input]) =
      handledEvents config inputs := by
  rw [handledEvents, Reading.eventsOf_snoc]
  exact (congrArg _ (if_neg stopped)).trans (List.append_nil _)

private theorem handledEvents_of_running {config : NodeConfig}
    {inputs : List (Surroundings × LoopEvent)}
    (running : ((eventLoop config).stateAfter inputs).status = .running) :
    handledEvents config inputs = dataEvents inputs :=
  (handledEvents_first config inputs).2 running

private theorem handledEvents_append_left (config : NodeConfig)
    (inputs : List (Surroundings × LoopEvent)) :
    handledEvents config inputs <+: dataEvents inputs :=
  (handledEvents_first config inputs).1

/-- In every run, the loop's connections and batch, and all that it transmits
and closes, in this order, are those of the data plane alone on the first
data events of the run, and on all of them if the loop still runs. -/
theorem loop_refines_dataPlane (config : NodeConfig)
    (inputs : List (Surroundings × LoopEvent)) :
    ∃ handled, handled <+: dataEvents inputs ∧
      (((eventLoop config).stateAfter inputs).status = .running →
        handled = dataEvents inputs) ∧
      ((eventLoop config).stateAfter inputs).connections =
        ((dataPlane config.uplink).stateAfter handled).connections ∧
      ((eventLoop config).stateAfter inputs).batch =
        ((dataPlane config.uplink).stateAfter handled).batch ∧
      ((eventLoop config).outputsOf inputs).filterMap Effect.dataOutput =
        (dataPlane config.uplink).outputsOf handled := by
  have corresponds := (dataReading_refines config).run inputs
  exact ⟨handledEvents config inputs, handledEvents_append_left config inputs,
    handledEvents_of_running, congrArg DataState.connections corresponds.1,
    congrArg DataState.batch corresponds.1, corresponds.2⟩

/-- A round keeps the batch or steps it by an uplink event. -/
theorem eventLoop_step_batch (config : NodeConfig) (state : LoopState)
    (input : Surroundings × LoopEvent) :
    ((eventLoop config).step state input).1.batch = state.batch ∨
      ∃ directPeers event,
        ((eventLoop config).step state input).1.batch =
          (uplinkStep config.uplink directPeers state.batch event).1 := by
  by_cases running : state.status = .running
  swap
  · rw [eventLoop_step_stopped config running]
    exact Or.inl rfl
  have isOpen : (dataReading.state state).running = true := by
    simp [dataReading, running]
  have stepped := congrArg (fun result => result.1.batch)
    (dataReading_step_running config running input)
  simp only at stepped
  cases data : input.2.dataEvent with
  | none =>
      rw [data] at stepped
      exact Or.inl stepped.symm
  | some event =>
      rw [data, Option.toList_some, dataStep_of_running _ isOpen] at stepped
      cases event with
      | connection event =>
          exact Or.inl stepped.symm
      | uplink event =>
          exact Or.inr ⟨_, event, stepped.symm⟩

/-- What holds of a fresh builder and survives every uplink event holds of the
builder in every run of the loop. -/
theorem loop_batch_invariant (config : NodeConfig)
    (holds : BatchBuilder → Prop)
    (initial : holds
      (BatchBuilder.withCapacity (config.uplink.maxBatchBytes + 4096)))
    (preserved : ∀ directPeers event batch, holds batch →
      holds (uplinkStep config.uplink directPeers batch event).1)
    (inputs : List (Surroundings × LoopEvent)) :
    holds ((eventLoop config).stateAfter inputs).batch := by
  induction inputs using List.reverseRecOn with
  | nil =>
      exact initial
  | append_singleton before input inductionHypothesis =>
      rw [stateAfter_snoc]
      rcases eventLoop_step_batch config ((eventLoop config).stateAfter before)
        input with same | ⟨directPeers, event, stepped⟩
      · rw [same]
        exact inductionHypothesis
      · rw [stepped]
        exact preserved directPeers event _ inductionHypothesis

/-! ## Every packet has gone out by the next tick -/

def DataEvent.packets : DataEvent → List Bytes
  | .uplink event => event.packets
  | .connection _ => []

/-- The packets taken from the TUN side. -/
def packetsOf (events : List DataEvent) : List Bytes :=
  events.flatMap DataEvent.packets

def DataOutput.transmission : DataOutput → Option Outgoing
  | .transmit outgoing => some outgoing
  | .closeConnection _ => none

def transmitted (outputs : List DataOutput) : List Outgoing :=
  outputs.filterMap DataOutput.transmission

private theorem transmissions_append (first second : List Effect) :
    transmissions (first ++ second) =
      transmissions first ++ transmissions second :=
  List.filterMap_append

private theorem transmissions_eq_transmitted (effects : List Effect) :
    transmissions effects = transmitted (effects.filterMap Effect.dataOutput) := by
  rw [transmitted, List.filterMap_filterMap, transmissions]
  congr 1
  funext effect
  cases effect <;> rfl

private theorem transmitted_append (first second : List DataOutput) :
    transmitted (first ++ second) = transmitted first ++ transmitted second :=
  List.filterMap_append

private theorem transmitted_uplink (config : UplinkConfig) (state : DataState)
    (event : UplinkEvent) :
    transmitted (dataStep config state (.uplink event)).2 =
      (uplinkStep config state.connections.directPeers state.batch event).2 := by
  simp [transmitted, dataStep, List.filterMap_map, Function.comp_def,
    DataOutput.transmission]

private theorem transmitted_connection (config : UplinkConfig)
    (state : DataState)
    (event : ConnectionEvent) :
    transmitted (dataStep config state (.connection event)).2 = [] := by
  simp [transmitted, dataStep, List.filterMap_map, Function.comp_def,
    DataOutput.transmission]

/-- Connection events keep the accounts of the uplink, whoever becomes
direct. -/
theorem dataPlane_accounts {config : UplinkConfig} (fits : config.Fits)
    {events : List DataEvent}
    (isOpen : EachStep
      (fun earlier _ => ((dataPlane config).stateAfter earlier).running = true)
      events)
    (ipLike : ∀ pkt, pkt ∈ packetsOf events → IpLike pkt) :
    Accounts (packetsOf events) ((dataPlane config).stateAfter events).batch
      (transmitted ((dataPlane config).outputsOf events)) := by
  induction events using List.reverseRecOn with
  | nil =>
      exact Accounts.of_flushed (Represents.withCapacity _) rfl
  | append_singleton earlier event inductionHypothesis =>
      obtain ⟨openBefore, running⟩ := (eachStep_snoc_iff _ _ _).1 isOpen
      have split : packetsOf (earlier ++ [event]) =
          packetsOf earlier ++ event.packets := by
        simp [packetsOf]
      rw [split] at ipLike ⊢
      have accounts := inductionHypothesis openBefore fun pkt member =>
        ipLike pkt (List.mem_append_left _ member)
      have stepped : (dataPlane config).step
          ((dataPlane config).stateAfter earlier) event =
            dataStep config ((dataPlane config).stateAfter earlier) event :=
        if_pos running
      rw [stateAfter_snoc, outputsOf_snoc, transmitted_append, stepped]
      cases event with
      | uplink event =>
          rw [transmitted_uplink]
          exact uplinkStep_accounts fits accounts _ event fun pkt member =>
            ipLike pkt (List.mem_append_right _ member)
      | connection event =>
          rw [transmitted_connection, List.append_nil, DataEvent.packets,
            List.append_nil]
          exact accounts

private theorem handledEvents_open (config : NodeConfig)
    (inputs : List (Surroundings × LoopEvent)) :
    EachStep
      (fun earlier _ =>
        ((dataPlane config.uplink).stateAfter earlier).running = true)
      (handledEvents config inputs) := by
  induction inputs using List.reverseRecOn with
  | nil =>
      exact eachStep_nil _
  | append_singleton before input inductionHypothesis =>
      by_cases running :
          ((eventLoop config).stateAfter before).status = .running
      swap
      · rw [handledEvents_snoc_stopped running]
        exact inductionHypothesis
      rw [handledEvents_snoc_running running]
      cases data : input.2.dataEvent with
      | none =>
          rw [Option.toList_none, List.append_nil]
          exact inductionHypothesis
      | some event =>
          refine (eachStep_snoc_iff _ _ _).2 ⟨inductionHypothesis, ?_⟩
          have sameState := ((dataReading_refines config).run before).1
          rw [handledEvents, ← sameState]
          simp [dataReading, running]

/-- The packets that the loop gets to take from the TUN side. -/
def takenPackets (config : NodeConfig)
    (inputs : List (Surroundings × LoopEvent)) : List Bytes :=
  packetsOf (handledEvents config inputs)

/-- At every moment of every run, the packets taken are those that the
receivers unpack from the transmissions so far, followed by those in the
builder. -/
theorem loop_accounts {config : NodeConfig} (fits : config.uplink.Fits)
    {inputs : List (Surroundings × LoopEvent)}
    (ipLike : ∀ pkt, pkt ∈ takenPackets config inputs → IpLike pkt) :
    Accounts (takenPackets config inputs)
      ((eventLoop config).stateAfter inputs).batch
      (transmissions ((eventLoop config).outputsOf inputs)) := by
  have accounts :=
    dataPlane_accounts fits (handledEvents_open config inputs) ipLike
  have corresponds := (dataReading_refines config).run inputs
  rw [transmissions_eq_transmitted]
  change Accounts _ (dataReading.state _).batch (transmitted
    (((eventLoop config).outputsOf inputs).filterMap dataReading.output))
  rw [corresponds.1, corresponds.2]
  exact accounts

def packetsFromTun (inputs : List (Surroundings × LoopEvent)) : List Bytes :=
  packetsOf (dataEvents inputs)

private theorem takenPackets_of_running {config : NodeConfig}
    {inputs : List (Surroundings × LoopEvent)}
    (running : ((eventLoop config).stateAfter inputs).status = .running) :
    takenPackets config inputs = packetsFromTun inputs :=
  congrArg packetsOf (handledEvents_of_running running)

theorem mem_packetsFromTun {config : NodeConfig}
    {inputs : List (Surroundings × LoopEvent)} {pkt : Bytes}
    (taken : pkt ∈ takenPackets config inputs) :
    pkt ∈ packetsFromTun inputs := by
  obtain ⟨event, handled, carries⟩ := List.mem_flatMap.1 taken
  exact List.mem_flatMap.2
    ⟨event, (handledEvents_append_left config inputs).subset handled, carries⟩

/-- Whatever else happens in a running loop, in any order: when the interval
ticks or the channel closes, the receivers of everything transmitted so far
have unpacked exactly the packets taken from the TUN side, in order, and the
builder is empty. -/
theorem loop_delivers_by_tick (config : NodeConfig)
    (fits : config.uplink.Fits)
    (inputs : List (Surroundings × LoopEvent))
    (running : ((eventLoop config).stateAfter inputs).status = .running)
    (ipLike : ∀ pkt, pkt ∈ packetsFromTun inputs → IpLike pkt)
    (surroundings : Surroundings) (event : UplinkEvent)
    (tickOrClose : event = .tick ∨ event = .recv none) :
    receivedAll (transmissions ((eventLoop config).outputsOf
        (inputs ++ [(surroundings, .uplink event)]))) =
      .ok (packetsFromTun inputs) ∧
    ((eventLoop config).stateAfter
        (inputs ++ [(surroundings, .uplink event)])).batch.isEmpty = true := by
  rw [← takenPackets_of_running running] at ipLike ⊢
  have flushes : ∀ directPeers batch,
      uplinkStep config.uplink directPeers batch event =
        flushBatch directPeers batch := by
    rcases tickOrClose with rfl | rfl <;> exact fun _ _ => rfl
  obtain ⟨fresh, delivered⟩ :=
    (loop_accounts fits ipLike).flush
      ((eventLoop config).stateAfter inputs).connections.directPeers
  have stepped : (eventLoop config).step ((eventLoop config).stateAfter inputs)
      (surroundings, .uplink event) =
        onUplinkEvent config ((eventLoop config).stateAfter inputs) event :=
    eventLoop_step_running config running _
  rw [stateAfter_snoc, outputsOf_snoc, transmissions_append, stepped]
  simp only [onUplinkEvent, transmissions_map, flushes]
  exact ⟨delivered, fresh.isEmpty_iff.2 rfl⟩

/-- Two packets, with a peer that becomes direct in between. -/
def packetsAroundSwitch : List (Surroundings × LoopEvent) :=
  [(⟨0, 0, true⟩, .uplink (.recv (some [0x60, 1]))),
    (⟨0, 0, true⟩, .swarm (.connection (.established ⟨[7]⟩ 1 (.dialer [])))),
    (⟨0, 0, true⟩, .uplink (.recv (some [0x60, 2])))]

theorem loop_delivers_by_tick_around_switch :
    receivedAll (transmissions ((eventLoop ⟨⟨[1]⟩, ⟨64, 8⟩⟩).outputsOf
        (packetsAroundSwitch ++ [(⟨0, 0, true⟩, .uplink .tick)]))) =
      .ok [[0x60, 1], [0x60, 2]] := by
  refine (loop_delivers_by_tick ⟨⟨[1]⟩, ⟨64, 8⟩⟩ ⟨by decide, by decide⟩
    packetsAroundSwitch (by decide +kernel) ?_ ⟨0, 0, true⟩ .tick
    (Or.inl rfl)).1
  intro pkt member
  obtain rfl | rfl : pkt = [0x60, 1] ∨ pkt = [0x60, 2] := by
    simpa [packetsFromTun, packetsOf, dataEvents, packetsAroundSwitch,
      LoopEvent.dataEvent, DataEvent.packets, UplinkEvent.packets] using member
  · exact ⟨0x60, [1], rfl, Or.inr (by decide)⟩
  · exact ⟨0x60, [2], rfl, Or.inr (by decide)⟩

end CocoNet
