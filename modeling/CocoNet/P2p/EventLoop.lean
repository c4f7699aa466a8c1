import CocoNet.P2p.Announcing
import CocoNet.P2p.Connections
import CocoNet.P2p.Uplink

/-!
# The event loop

One task runs the node: each round takes a tick, a packet from the TUN side or
an event of the swarm, and its handler updates the loop's own variables and
acts on the swarm and on the channel to the TUN side.  The handlers are those
of the other modules; this one puts them together.

A handler that panics ends the program, and the closed channel ends the loop;
after either nothing happens any more.
-/

namespace CocoNet

/-! ## Events and effects -/

/-- A gossipsub message, by its topic; an announcement that does not parse is
absent. -/
inductive GossipMessage where
  | packets (data : Bytes)
  | announce (msg : Option AnnounceMsg)
  deriving DecidableEq, Repr

inductive SwarmEvent where
  | gossip (source : Option PeerId) (message : GossipMessage)
  | identifyReceived (peer : PeerId) (listenAddrs : List Multiaddr)
  | mdnsDiscovered (found : List (PeerId × Multiaddr))
  | autonat
  | request (peer : PeerId) (request : Bytes)
  | newListenAddr (address : Multiaddr)
  | externalAddrConfirmed (address : Multiaddr)
  | externalAddrExpired (address : Multiaddr)
  | listenerClosed (addresses : List Multiaddr)
  | connection (event : ConnectionEvent)
  deriving DecidableEq, Repr

inductive LoopEvent where
  | uplink (event : UplinkEvent)
  | swarm (event : SwarmEvent)
  deriving DecidableEq, Repr

/-- What a handler does to the swarm and to the channel to the TUN side. -/
inductive Effect where
  | transmit (outgoing : Outgoing)
  | announce (announcement : Announcement)
  | deliver (packet : Bytes)
  | acknowledge (peer : PeerId)
  | dial (addr : Multiaddr)
  | closeConnection (id : ConnectionId)
  deriving DecidableEq

/-! ## State -/

inductive LoopStatus where
  | running
  | ended
  | aborted
  deriving DecidableEq, Repr

structure NodeConfig where
  localPeer : PeerId
  uplink : UplinkConfig
  deriving DecidableEq, Repr

structure LoopState where
  connections : ConnState
  recentDials : RecentDials
  announcing : AnnounceState
  batch : BatchBuilder
  status : LoopStatus

def LoopState.initial (config : NodeConfig) : LoopState where
  connections := CocoNet.connections.start
  recentDials _ _ := none
  announcing := ⟨∅, none, false⟩
  batch := BatchBuilder.withCapacity (config.uplink.maxBatchBytes + 4096)
  status := .running

/-! ## Handlers -/

def announceEffects (announced : AnnounceState × List Announcement)
    (state : LoopState) : LoopState × List Effect :=
  ({ state with announcing := announced.1 }, announced.2.map .announce)

def onGossip (config : NodeConfig) (now : Instant) (state : LoopState)
    (source : Option PeerId) (message : GossipMessage) :
    Checked (LoopState × List Effect) :=
  if source = some config.localPeer then .ok (state, [])
  else
    match message with
    | .packets data => do
        let unpacked ← unpackGossip data
        .ok (state, unpacked.packets.map .deliver)
    | .announce (some msg) => do
        let dialed ← onAnnounce config.localPeer now state.recentDials msg
        .ok ({ state with recentDials := dialed.1 }, dialed.2.map .dial)
    | .announce none => .ok (state, [])

def onIdentifyReceived (config : NodeConfig) (surroundings : Surroundings)
    (state : LoopState) (peer : PeerId) (listenAddrs : List Multiaddr) :
    Checked (LoopState × List Effect) := do
  let dialed ←
    onIdentify surroundings.now state.connections.directPeers
      state.recentDials peer listenAddrs
  let announced :=
    announceEffects
      (publishAnnounce config.localPeer surroundings state.announcing)
      { state with recentDials := dialed.1 }
  .ok (announced.1, dialed.2.map .dial ++ announced.2)

def onConnection (config : NodeConfig) (surroundings : Surroundings)
    (state : LoopState) (event : ConnectionEvent) :
    LoopState × List Effect :=
  let announced :=
    match event with
    | .established _ _ _ =>
        announceEffects
          (announceFirst config.localPeer surroundings state.announcing) state
    | .closed _ _ => (state, [])
  let stepped := connectionStep state.connections event
  ({ announced.1 with connections := stepped.1 },
    announced.2 ++ stepped.2.map .closeConnection)

def onSwarmEvent (config : NodeConfig) (surroundings : Surroundings)
    (state : LoopState) : SwarmEvent → Checked (LoopState × List Effect)
  | .gossip source message =>
      onGossip config surroundings.now state source message
  | .identifyReceived peer listenAddrs =>
      onIdentifyReceived config surroundings state peer listenAddrs
  | .mdnsDiscovered found => .ok (state, (onMdnsDiscovered found).map .dial)
  | .autonat =>
      .ok (announceEffects
        (publishAnnounce config.localPeer surroundings state.announcing) state)
  | .request peer request => do
      let unpacked ← unpackRequest request
      .ok (state, unpacked.packets.map .deliver ++ [.acknowledge peer])
  | .newListenAddr address | .externalAddrConfirmed address =>
      .ok (announceEffects
        (onOwnAddr config.localPeer surroundings state.announcing address)
        state)
  -- Expired addresses and closed listeners are only logged.
  | .externalAddrExpired _ | .listenerClosed _ => .ok (state, [])
  | .connection event => .ok (onConnection config surroundings state event)

def onUplinkEvent (config : NodeConfig) (state : LoopState)
    (event : UplinkEvent) : LoopState × List Effect :=
  let stepped :=
    uplinkStep config.uplink state.connections.directPeers state.batch event
  ({ state with
      batch := stepped.1
      status := if event = .recv none then .ended else state.status },
    stepped.2.map .transmit)

def onLoopEvent (config : NodeConfig) (surroundings : Surroundings)
    (state : LoopState) : LoopEvent → Checked (LoopState × List Effect)
  | .uplink event => .ok (onUplinkEvent config state event)
  | .swarm event => onSwarmEvent config surroundings state event

/-- The loop.  Every event comes with the surroundings its handler reads. -/
def eventLoop (config : NodeConfig) :
    StepMachine LoopState (Surroundings × LoopEvent) Effect where
  start := LoopState.initial config
  step state input :=
    if state.status = .running then
      match onLoopEvent config input.1 state input.2 with
      | .ok result => result
      | .error _ => ({ state with status := .aborted }, [])
    else (state, [])

/-! ## What a round changes -/

def connectionEvents (inputs : List (Surroundings × LoopEvent)) :
    List ConnectionEvent :=
  inputs.filterMap fun input =>
    match input.2 with
    | .swarm (.connection event) => some event
    | _ => none

def Effect.closedConnection : Effect → Option ConnectionId
  | .closeConnection id => some id
  | _ => none

def closedConnections (effects : List Effect) : List ConnectionId :=
  effects.filterMap Effect.closedConnection

def Effect.transmission : Effect → Option Outgoing
  | .transmit outgoing => some outgoing
  | _ => none

def transmissions (effects : List Effect) : List Outgoing :=
  effects.filterMap Effect.transmission

/-- Neither a transmission of data nor the closing of a connection. -/
def Effect.Other (effect : Effect) : Prop :=
  effect.closedConnection = none ∧ effect.transmission = none

section Projections

variable {Item Other : Type} (project : Effect → Option Other)
variable {wrap : Item → Effect}

theorem filterMap_map_none (ignores : ∀ item, project (wrap item) = none)
    (items : List Item) : (items.map wrap).filterMap project = [] := by
  rw [List.filterMap_map]
  exact List.filterMap_eq_nil_iff.mpr fun item _ => ignores item

theorem filterMap_map_some {wrap : Other → Effect}
    (projects : ∀ item, project (wrap item) = some item)
    (items : List Other) : (items.map wrap).filterMap project = items := by
  have same : project ∘ wrap = some := funext projects
  rw [List.filterMap_map, same, List.filterMap_some]

end Projections

private theorem closedConnections_of_other {effects : List Effect}
    (others : ∀ effect, effect ∈ effects → effect.Other) :
    closedConnections effects = [] :=
  List.filterMap_eq_nil_iff.mpr fun effect member => (others effect member).1

theorem transmissions_of_other {effects : List Effect}
    (others : ∀ effect, effect ∈ effects → effect.Other) :
    transmissions effects = [] :=
  List.filterMap_eq_nil_iff.mpr fun effect member => (others effect member).2

private theorem other_of_mem_map {Item : Type} {wrap : Item → Effect}
    (wrapped : ∀ item, (wrap item).Other) {items : List Item} :
    ∀ effect, effect ∈ items.map wrap → effect.Other := by
  intro effect member
  rcases List.mem_map.mp member with ⟨item, _, same⟩
  subst same
  exact wrapped item

/-- What every handler but those of connections and of the uplink leaves as it
is. -/
structure Quiet (before after : LoopState) (effects : List Effect) :
    Prop where
  connections : after.connections = before.connections
  batch : after.batch = before.batch
  status : after.status = before.status
  others : ∀ effect, effect ∈ effects → effect.Other

theorem Quiet.nothing (state : LoopState) : Quiet state state [] :=
  ⟨rfl, rfl, rfl, by simp⟩

theorem announceEffects_quiet
    (announced : AnnounceState × List Announcement) (state : LoopState) :
    Quiet state (announceEffects announced state).1
      (announceEffects announced state).2 :=
  ⟨rfl, rfl, rfl, other_of_mem_map fun _ => ⟨rfl, rfl⟩⟩

section Handlers

variable {config : NodeConfig} {surroundings : Surroundings}
variable {state after : LoopState} {effects : List Effect}

private theorem onGossip_quiet {source : Option PeerId}
    {message : GossipMessage}
    (handled : onGossip config surroundings.now state source message =
      .ok (after, effects)) :
    Quiet state after effects := by
  unfold onGossip at handled
  split at handled
  · obtain ⟨rfl, rfl⟩ := Prod.mk.inj (Except.ok.inj handled)
    exact Quiet.nothing state
  · split at handled
    · rcases Checked.bind_eq_ok handled with ⟨unpacked, _, rest⟩
      obtain ⟨rfl, rfl⟩ := Prod.mk.inj (Except.ok.inj rest)
      exact ⟨rfl, rfl, rfl, other_of_mem_map fun _ => ⟨rfl, rfl⟩⟩
    · rcases Checked.bind_eq_ok handled with ⟨dialed, _, rest⟩
      obtain ⟨rfl, rfl⟩ := Prod.mk.inj (Except.ok.inj rest)
      exact ⟨rfl, rfl, rfl, other_of_mem_map fun _ => ⟨rfl, rfl⟩⟩
    · obtain ⟨rfl, rfl⟩ := Prod.mk.inj (Except.ok.inj handled)
      exact Quiet.nothing state

private theorem onIdentifyReceived_quiet {peer : PeerId}
    {listenAddrs : List Multiaddr}
    (handled : onIdentifyReceived config surroundings state peer listenAddrs =
      .ok (after, effects)) :
    Quiet state after effects := by
  rcases Checked.bind_eq_ok handled with ⟨dialed, _, rest⟩
  obtain ⟨rfl, rfl⟩ := Prod.mk.inj (Except.ok.inj rest)
  refine ⟨rfl, rfl, rfl, ?_⟩
  intro effect member
  rcases List.mem_append.mp member with isDial | isAnnouncement
  · exact other_of_mem_map (fun _ => ⟨rfl, rfl⟩) effect isDial
  · exact (announceEffects_quiet _ state).others effect isAnnouncement

theorem onSwarmEvent_quiet {event : SwarmEvent}
    (notConnection : ∀ inner, event ≠ .connection inner)
    (handled : onSwarmEvent config surroundings state event =
      .ok (after, effects)) :
    Quiet state after effects := by
  cases event with
  | gossip source message =>
      exact onGossip_quiet handled
  | identifyReceived peer listenAddrs =>
      exact onIdentifyReceived_quiet handled
  | mdnsDiscovered found =>
      obtain ⟨rfl, rfl⟩ := Prod.mk.inj (Except.ok.inj handled)
      exact ⟨rfl, rfl, rfl, other_of_mem_map fun _ => ⟨rfl, rfl⟩⟩
  | request peer request =>
      rcases Checked.bind_eq_ok handled with ⟨unpacked, _, rest⟩
      obtain ⟨rfl, rfl⟩ := Prod.mk.inj (Except.ok.inj rest)
      refine ⟨rfl, rfl, rfl, ?_⟩
      intro effect member
      rcases List.mem_append.mp member with isDelivery | isAck
      · exact other_of_mem_map (fun _ => ⟨rfl, rfl⟩) effect isDelivery
      · rw [List.mem_singleton.mp isAck]
        exact ⟨rfl, rfl⟩
  | autonat | newListenAddr address | externalAddrConfirmed address =>
      obtain ⟨rfl, rfl⟩ := Prod.mk.inj (Except.ok.inj handled)
      exact announceEffects_quiet _ state
  | externalAddrExpired address | listenerClosed addresses =>
      obtain ⟨rfl, rfl⟩ := Prod.mk.inj (Except.ok.inj handled)
      exact Quiet.nothing state
  | connection inner =>
      exact absurd rfl (notConnection inner)

end Handlers

private theorem closedConnections_append (first second : List Effect) :
    closedConnections (first ++ second) =
      closedConnections first ++ closedConnections second :=
  List.filterMap_append

private theorem closedConnections_map (ids : List ConnectionId) :
    closedConnections (ids.map .closeConnection) = ids :=
  filterMap_map_some Effect.closedConnection (fun _ => rfl) ids

theorem transmissions_map (outgoing : List Outgoing) :
    transmissions (outgoing.map .transmit) = outgoing :=
  filterMap_map_some Effect.transmission (fun _ => rfl) outgoing

structure StepsConnections (before after : LoopState)
    (event : ConnectionEvent) (effects : List Effect) : Prop where
  connections :
    after.connections = (connectionStep before.connections event).1
  batch : after.batch = before.batch
  status : after.status = before.status
  closes :
    closedConnections effects = (connectionStep before.connections event).2
  transmits : transmissions effects = []

theorem onConnection_steps (config : NodeConfig) (surroundings : Surroundings)
    (state : LoopState) (event : ConnectionEvent) :
    StepsConnections state (onConnection config surroundings state event).1
      event (onConnection config surroundings state event).2 := by
  obtain ⟨announced, quiet, shape⟩ :
      ∃ announced : LoopState × List Effect,
        Quiet state announced.1 announced.2 ∧
          onConnection config surroundings state event =
            ({ announced.1 with
                connections := (connectionStep state.connections event).1 },
              announced.2 ++
                (connectionStep state.connections event).2.map
                  .closeConnection) := by
    cases event with
    | established peer id endpoint =>
        exact ⟨_, announceEffects_quiet _ state, rfl⟩
    | closed peer id =>
        exact ⟨(state, []), Quiet.nothing state, rfl⟩
  rw [shape]
  refine ⟨rfl, quiet.batch, quiet.status, ?_, ?_⟩
  · rw [closedConnections_append, closedConnections_of_other quiet.others,
      closedConnections_map, List.nil_append]
  · rw [transmissions, List.filterMap_append]
    change transmissions announced.2 ++ _ = []
    rw [transmissions_of_other quiet.others, List.nil_append]
    exact filterMap_map_none Effect.transmission (fun _ => rfl) _

/-! ## Runs -/

theorem eventLoop_step_running (config : NodeConfig) {state : LoopState}
    (running : state.status = .running) (input : Surroundings × LoopEvent) :
    (eventLoop config).step state input =
      match onLoopEvent config input.1 state input.2 with
      | .ok result => result
      | .error _ => ({ state with status := .aborted }, []) :=
  if_pos running

theorem eventLoop_step_stopped (config : NodeConfig) {state : LoopState}
    (stopped : state.status ≠ .running) (input : Surroundings × LoopEvent) :
    (eventLoop config).step state input = (state, []) :=
  if_neg stopped

/-- A loop that runs after a round has been running before it. -/
theorem eventLoop_runs_before (config : NodeConfig) (state : LoopState)
    (input : Surroundings × LoopEvent)
    (runs : ((eventLoop config).step state input).1.status = .running) :
    state.status = .running := by
  by_contra stopped
  rw [eventLoop_step_stopped config stopped] at runs
  exact stopped runs

/-- A loop that runs has been running all along. -/
theorem running_of_append {config : NodeConfig}
    {first second : List (Surroundings × LoopEvent)}
    (running :
      ((eventLoop config).stateAfter (first ++ second)).status = .running) :
    ((eventLoop config).stateAfter first).status = .running := by
  induction second using List.reverseRecOn with
  | nil =>
      rwa [List.append_nil] at running
  | append_singleton earlier last inductionHypothesis =>
      apply inductionHypothesis
      rw [← List.append_assoc, StepMachine.stateAfter_snoc] at running
      by_contra stopped
      rw [eventLoop_step_stopped config stopped] at running
      exact stopped running

private theorem connectionEvents_snoc (inputs : List (Surroundings × LoopEvent))
    (input : Surroundings × LoopEvent) :
    connectionEvents (inputs ++ [input]) =
      connectionEvents inputs ++ connectionEvents [input] :=
  List.filterMap_append

/-- One round of a loop that keeps running steps the connections by the
connection event of the round, if it has one. -/
theorem eventLoop_step_connections (config : NodeConfig) {state : LoopState}
    (running : state.status = .running) (input : Surroundings × LoopEvent)
    (keepsRunning : ((eventLoop config).step state input).1.status = .running) :
    (((eventLoop config).step state input).1.connections,
        closedConnections ((eventLoop config).step state input).2) =
      CocoNet.connections.runFrom state.connections
        (connectionEvents [input]) := by
  rcases input with ⟨surroundings, event⟩
  rw [eventLoop_step_running config running] at keepsRunning ⊢
  cases handled : onLoopEvent config surroundings state event with
  | error fault =>
      simp only [handled] at keepsRunning
      cases keepsRunning
  | ok result =>
      rcases result with ⟨after, effects⟩
      simp only
      cases event with
      | uplink event =>
          obtain ⟨rfl, rfl⟩ := Prod.mk.inj (Except.ok.inj handled)
          have closes : closedConnections
              ((uplinkStep config.uplink state.connections.directPeers
                state.batch event).2.map .transmit) = [] :=
            filterMap_map_none Effect.closedConnection (fun _ => rfl) _
          exact Prod.ext rfl closes
      | swarm event =>
          by_cases isConnection : ∃ inner, event = .connection inner
          · rcases isConnection with ⟨inner, same⟩
            subst same
            have stepped :=
              onConnection_steps config surroundings state inner
            rw [Except.ok.inj handled] at stepped
            apply Prod.ext stepped.connections
            rw [stepped.closes]
            exact (List.append_nil _).symm
          · have notConnection : ∀ inner, event ≠ .connection inner :=
              fun inner same => isConnection ⟨inner, same⟩
            have quiet := onSwarmEvent_quiet notConnection handled
            have none : connectionEvents
                [(surroundings, .swarm event)] = [] := by
              cases event with
              | connection inner =>
                  exact absurd rfl (notConnection inner)
              | _ =>
                  rfl
            rw [none]
            exact Prod.ext quiet.connections
              (closedConnections_of_other quiet.others)

/-- The connections of a running loop are those of its connection events alone,
whatever else happened in between. -/
theorem eventLoop_connections (config : NodeConfig)
    (inputs : List (Surroundings × LoopEvent))
    (running : ((eventLoop config).stateAfter inputs).status = .running) :
    ((eventLoop config).stateAfter inputs).connections =
        CocoNet.connections.stateAfter (connectionEvents inputs) ∧
      closedConnections ((eventLoop config).outputsOf inputs) =
        CocoNet.connections.outputsOf (connectionEvents inputs) := by
  induction inputs using List.reverseRecOn with
  | nil =>
      exact ⟨rfl, rfl⟩
  | append_singleton earlier input inductionHypothesis =>
      have ranBefore := running_of_append running
      rw [StepMachine.stateAfter_snoc] at running ⊢
      rw [StepMachine.outputsOf_snoc]
      rcases inductionHypothesis ranBefore with ⟨sameState, sameCloses⟩
      have stepped :=
        eventLoop_step_connections config ranBefore input running
      rcases Prod.mk.inj stepped with ⟨nextState, nextCloses⟩
      rw [connectionEvents_snoc, closedConnections_append, sameCloses,
        nextState, nextCloses, sameState]
      simp [StepMachine.stateAfter, StepMachine.outputsOf,
        StepMachine.runFrom_append]

end CocoNet
