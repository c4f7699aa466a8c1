import CocoNet.Library.Refinement
import CocoNet.P2p.DialDiscipline

/-!
# The calls on the swarm

Besides dialing and announcing, the handlers tell Kademlia the addresses of
other peers, start its bootstrap, tell the swarm the node's own external
addresses, and map ports.  Only libp2p and the gateway read these calls back,
so the loop of the other modules leaves them out.  This loop has them in the
order of the handlers, and refines the other.
-/

namespace CocoNet

open StepMachine

/-! ## Calls, state and inputs -/

inductive SwarmCall where
  | effect (effect : Effect)
  | addAddress (peer : PeerId) (addr : Multiaddr)
  | addExternalAddress (addr : Multiaddr)
  | bootstrap
  | mapPort (ip : Ipv4Addr) (port : UInt16)
  deriving DecidableEq

structure SwarmState where
  loop : LoopState
  kadBootstrapped : Bool

/-- A round, with what else an Identify brings: the address that the peer
observed, and whether Kademlia is ready to bootstrap. -/
structure SwarmInput where
  surroundings : Surroundings
  event : LoopEvent
  observedAddr : Multiaddr
  kadReady : Bool
  deriving DecidableEq, Repr

def SwarmInput.core (input : SwarmInput) : Surroundings × LoopEvent :=
  (input.surroundings, input.event)

/-! ## Handlers -/

def announceCalls (now : Instant) (peer : PeerId) :
    RecentDials → List (Option Multiaddr) →
      Checked (RecentDials × List SwarmCall)
  | recent, [] => .ok (recent, [])
  | recent, none :: rest => announceCalls now peer recent rest
  | recent, some addr :: rest =>
      if isPublicUdpQuic addr then do
        let dialed ← dialUnlessRecent now recent peer addr
        let others ← announceCalls now peer dialed.1 rest
        .ok (others.1,
          dialed.2.flatMap
              (fun addr => [.addAddress peer addr, .effect (.dial addr)]) ++
            others.2)
      else announceCalls now peer recent rest

/-- Every listen address is added as it is, before the checks of its dial. -/
def identifyCalls (now : Instant) (peer : PeerId) (direct : Bool) :
    RecentDials → List Multiaddr → Checked (RecentDials × List SwarmCall)
  | recent, [] => .ok (recent, [])
  | recent, addr :: rest =>
      match if direct then none else identifyTarget addr with
      | none => do
          let others ← identifyCalls now peer direct recent rest
          .ok (others.1, .addAddress peer addr :: others.2)
      | some target => do
          let dialed ← dialUnlessRecent now recent peer target
          let others ← identifyCalls now peer direct dialed.1 rest
          .ok (others.1,
            .addAddress peer addr ::
              (dialed.2.map (fun addr => .effect (.dial addr)) ++ others.2))

def mdnsCalls (entry : PeerId × Multiaddr) : List SwarmCall :=
  [.addAddress entry.1 entry.2,
    .effect (.dial ((rebuildUdpQuic entry.2).getD entry.2))]

/-- `if !kad_bootstrapped`: a bootstrap that is not ready is tried again. -/
def bootstrapUnlessDone (kadBootstrapped kadReady : Bool) :
    Bool × List SwarmCall :=
  if kadBootstrapped then (true, []) else (kadReady, [.bootstrap])

def mapPortCalls (address : Multiaddr) : List SwarmCall :=
  match udpIpPort address with
  | some (ip, port) => [.mapPort ip port]
  | none => []

def onSwarmInput (config : NodeConfig) (state : SwarmState)
    (input : SwarmInput) : Checked (SwarmState × List SwarmCall) :=
  match input.event with
  | .swarm (.gossip source (.announce (some msg))) =>
      if source = some config.localPeer then .ok (state, [])
      else
        match msg.peer with
        | none => .ok (state, [])
        | some peer =>
            if peer = config.localPeer then .ok (state, [])
            else do
              let called ←
                announceCalls input.surroundings.now peer
                  state.loop.recentDials msg.addrs
              .ok ({ state with
                  loop := { state.loop with recentDials := called.1 } },
                called.2)
  | .swarm (.identifyReceived peer listenAddrs) => do
      let called ←
        identifyCalls input.surroundings.now peer
          (alreadyDirect state.loop.connections.directPeers peer)
          (pruneDials input.surroundings.now state.loop.recentDials peer)
          listenAddrs
      let announced :=
        announceEffects
          (publishAnnounce config.localPeer input.surroundings
            state.loop.announcing)
          { state.loop with recentDials := called.1 }
      let bootstrapped :=
        bootstrapUnlessDone state.kadBootstrapped input.kadReady
      .ok (⟨announced.1, bootstrapped.1⟩,
        called.2 ++ .addExternalAddress input.observedAddr ::
          (announced.2.map .effect ++ bootstrapped.2))
  | .swarm (.mdnsDiscovered found) => .ok (state, found.flatMap mdnsCalls)
  | .swarm (.newListenAddr address) =>
      let announced :=
        announceEffects
          (onOwnAddr config.localPeer input.surroundings
            state.loop.announcing address)
          state.loop
      .ok ({ state with loop := announced.1 },
        .addExternalAddress address ::
          (announced.2.map .effect ++ mapPortCalls address))
  | event => do
      let handled ← onLoopEvent config input.surroundings state.loop event
      .ok ({ state with loop := handled.1 }, handled.2.map .effect)

/-- The events whose handlers make no calls but those of the loop. -/
def LoopEvent.Plain : LoopEvent → Prop
  | .swarm (.gossip _ (.announce (some _))) => False
  | .swarm (.identifyReceived _ _) => False
  | .swarm (.mdnsDiscovered _) => False
  | .swarm (.newListenAddr _) => False
  | _ => True

/-- The rounds by what is handled in them. -/
inductive SwarmRound (config : NodeConfig) (state : SwarmState) :
    SwarmInput → SwarmState × List SwarmCall → Prop where
  /-- An announcement of the node itself, about it or about no one. -/
  | ignored (surroundings : Surroundings) {source : Option PeerId}
      {msg : AnnounceMsg} (observedAddr : Multiaddr) (kadReady : Bool)
      (own : source = some config.localPeer ∨ msg.peer = none ∨
        msg.peer = some config.localPeer) :
      SwarmRound config state
        ⟨surroundings, .swarm (.gossip source (.announce (some msg))),
          observedAddr, kadReady⟩
        (state, [])
  | announced {surroundings : Surroundings} {source : Option PeerId}
      {msg : AnnounceMsg} (observedAddr : Multiaddr) (kadReady : Bool)
      {peer : PeerId} {called : RecentDials × List SwarmCall}
      (foreign : source ≠ some config.localPeer ∧ peer ≠ config.localPeer)
      (about : msg.peer = some peer)
      (runs : announceCalls surroundings.now peer state.loop.recentDials
        msg.addrs = .ok called) :
      SwarmRound config state
        ⟨surroundings, .swarm (.gossip source (.announce (some msg))),
          observedAddr, kadReady⟩
        ({ state with loop := { state.loop with recentDials := called.1 } },
          called.2)
  | identified {surroundings : Surroundings} {peer : PeerId}
      {listenAddrs : List Multiaddr} (observedAddr : Multiaddr)
      (kadReady : Bool) {called : RecentDials × List SwarmCall}
      {announced : LoopState × List Effect}
      (runs : identifyCalls surroundings.now peer
        (alreadyDirect state.loop.connections.directPeers peer)
        (pruneDials surroundings.now state.loop.recentDials peer)
        listenAddrs = .ok called)
      (announces : announceEffects
        (publishAnnounce config.localPeer surroundings state.loop.announcing)
        { state.loop with recentDials := called.1 } = announced) :
      SwarmRound config state
        ⟨surroundings, .swarm (.identifyReceived peer listenAddrs),
          observedAddr, kadReady⟩
        (⟨announced.1, (bootstrapUnlessDone state.kadBootstrapped kadReady).1⟩,
          called.2 ++ .addExternalAddress observedAddr ::
            (announced.2.map .effect ++
              (bootstrapUnlessDone state.kadBootstrapped kadReady).2))
  | discovered (surroundings : Surroundings)
      (found : List (PeerId × Multiaddr)) (observedAddr : Multiaddr)
      (kadReady : Bool) :
      SwarmRound config state
        ⟨surroundings, .swarm (.mdnsDiscovered found), observedAddr, kadReady⟩
        (state, found.flatMap mdnsCalls)
  | listening {surroundings : Surroundings} {address : Multiaddr}
      (observedAddr : Multiaddr) (kadReady : Bool)
      {announced : LoopState × List Effect}
      (announces : announceEffects
        (onOwnAddr config.localPeer surroundings state.loop.announcing address)
        state.loop = announced) :
      SwarmRound config state
        ⟨surroundings, .swarm (.newListenAddr address), observedAddr, kadReady⟩
        ({ state with loop := announced.1 },
          .addExternalAddress address ::
            (announced.2.map .effect ++ mapPortCalls address))
  | plain {surroundings : Surroundings} {event : LoopEvent}
      (observedAddr : Multiaddr) (kadReady : Bool)
      {handled : LoopState × List Effect} (plain : event.Plain)
      (runs : onLoopEvent config surroundings state.loop event =
        .ok handled) :
      SwarmRound config state ⟨surroundings, event, observedAddr, kadReady⟩
        ({ state with loop := handled.1 }, handled.2.map .effect)

private theorem swarmRound_of_announce {config : NodeConfig}
    {state : SwarmState}
    {surroundings : Surroundings} {source : Option PeerId} {msg : AnnounceMsg}
    {observedAddr : Multiaddr} {kadReady : Bool}
    {result : SwarmState × List SwarmCall}
    (handled : onSwarmInput config state
      ⟨surroundings, .swarm (.gossip source (.announce (some msg))),
        observedAddr, kadReady⟩ = .ok result) :
    SwarmRound config state
      ⟨surroundings, .swarm (.gossip source (.announce (some msg))),
        observedAddr, kadReady⟩ result := by
  simp only [onSwarmInput] at handled
  split at handled
  · rename_i fromSelf
    cases handled
    exact .ignored surroundings observedAddr kadReady (Or.inl fromSelf)
  rename_i fromOther
  cases about : msg.peer with
  | none =>
      rw [about] at handled
      cases handled
      exact .ignored surroundings observedAddr kadReady
        (Or.inr (Or.inl about))
  | some peer =>
      rw [about] at handled
      dsimp only at handled
      split at handled
      · rename_i aboutSelf
        cases handled
        rw [aboutSelf] at about
        exact .ignored surroundings observedAddr kadReady
          (Or.inr (Or.inr about))
      · rename_i aboutOther
        rcases Checked.bind_eq_ok handled with ⟨called, runs, rest⟩
        cases rest
        exact .announced observedAddr kadReady ⟨fromOther, aboutOther⟩ about
          runs

theorem swarmRound_of_onSwarmInput {config : NodeConfig} {state : SwarmState}
    {input : SwarmInput} {result : SwarmState × List SwarmCall}
    (handled : onSwarmInput config state input = .ok result) :
    SwarmRound config state input result := by
  rcases input with ⟨surroundings, event, observedAddr, kadReady⟩
  have isPlain : event.Plain →
      (do
        let done ← onLoopEvent config surroundings state.loop event
        .ok ({ state with loop := done.1 }, done.2.map .effect)) =
          (.ok result : Checked (SwarmState × List SwarmCall)) →
      SwarmRound config state ⟨surroundings, event, observedAddr, kadReady⟩
        result := by
    intro plain does
    rcases Checked.bind_eq_ok does with ⟨done, runs, rest⟩
    cases rest
    exact .plain observedAddr kadReady plain runs
  cases event with
  | uplink event =>
      exact isPlain trivial handled
  | swarm event =>
      cases event with
      | gossip source message =>
          cases message with
          | packets data =>
              exact isPlain trivial handled
          | announce msg =>
              cases msg with
              | none =>
                  exact isPlain trivial handled
              | some msg =>
                  exact swarmRound_of_announce handled
      | identifyReceived peer listenAddrs =>
          rcases Checked.bind_eq_ok handled with ⟨called, runs, rest⟩
          cases rest
          exact .identified observedAddr kadReady runs rfl
      | mdnsDiscovered found =>
          cases handled
          exact .discovered surroundings found observedAddr kadReady
      | newListenAddr address =>
          cases handled
          exact .listening observedAddr kadReady rfl
      | request peer request | autonat | externalAddrConfirmed address
      | externalAddrExpired address | listenerClosed addresses
      | connection event =>
          exact isPlain trivial handled

def swarmLoop (config : NodeConfig) :
    StepMachine SwarmState SwarmInput SwarmCall where
  start := ⟨LoopState.initial config, false⟩
  step state input :=
    if state.loop.status = .running then
      match onSwarmInput config state input with
      | .ok result => result
      | .error _ =>
          ({ state with loop := { state.loop with status := .aborted } }, [])
    else (state, [])

/-! ## The loop without the calls -/

def SwarmCall.knownEffect : SwarmCall → Option Effect
  | .effect known => some known
  | _ => none

def knownEffects (calls : List SwarmCall) : List Effect :=
  calls.filterMap SwarmCall.knownEffect

def swarmReading :
    Reading SwarmState SwarmInput SwarmCall LoopState
      (Surroundings × LoopEvent) Effect where
  state := SwarmState.loop
  events _ input := [input.core]
  output := SwarmCall.knownEffect

private theorem knownEffects_append (first second : List SwarmCall) :
    knownEffects (first ++ second) =
      knownEffects first ++ knownEffects second :=
  List.filterMap_append

@[simp]
theorem knownEffects_map (effects : List Effect) :
    knownEffects (effects.map .effect) = effects := by
  have same : SwarmCall.knownEffect ∘ SwarmCall.effect = some := rfl
  rw [knownEffects, List.filterMap_map, same, List.filterMap_some]

/-- The handler with the calls does what the one without them does. -/
def SameDials (called : RecentDials × List SwarmCall)
    (dialed : RecentDials × List Multiaddr) : Prop :=
  called.1 = dialed.1 ∧ knownEffects called.2 = dialed.2.map .dial

theorem knownEffects_announced (peer : PeerId) (dialed : List Multiaddr) :
    knownEffects (dialed.flatMap fun addr =>
        [.addAddress peer addr, .effect (.dial addr)]) =
      dialed.map .dial := by
  induction dialed with
  | nil =>
      rfl
  | cons addr rest inductionHypothesis =>
      rw [List.flatMap_cons, knownEffects_append, inductionHypothesis]
      rfl

private theorem knownEffects_dials (dialed : List Multiaddr) :
    knownEffects (dialed.map fun addr => .effect (.dial addr)) =
      dialed.map .dial := by
  have shape : (dialed.map fun addr => SwarmCall.effect (.dial addr)) =
      (dialed.map Effect.dial).map .effect := by
    rw [List.map_map]
    rfl
  rw [shape, knownEffects_map]

private theorem announceCalls_sameDials (now : Instant) (peer : PeerId)
    (recent : RecentDials) (addrs : List (Option Multiaddr)) :
    Checked.Related SameDials (announceCalls now peer recent addrs)
      (dialEach now peer recent
        ((addrs.filterMap id).filter isPublicUdpQuic)) := by
  induction addrs generalizing recent with
  | nil =>
      exact Checked.Related.ok ⟨rfl, rfl⟩
  | cons first rest inductionHypothesis =>
      cases first with
      | none =>
          exact inductionHypothesis recent
      | some addr =>
          have parsed : (some addr :: rest).filterMap id =
              addr :: rest.filterMap id := rfl
          rw [announceCalls, parsed]
          by_cases isPublic : isPublicUdpQuic addr = true
          · rw [if_pos isPublic, List.filter_cons_of_pos isPublic, dialEach]
            apply Checked.Related.bind (Checked.Related.same _)
            intro dialed _ same
            subst same
            apply Checked.Related.bind (inductionHypothesis dialed.1)
            intro called others both
            refine Checked.Related.ok ⟨both.1, ?_⟩
            rw [knownEffects_append, knownEffects_announced, both.2,
              List.map_append]
          · rw [if_neg isPublic, List.filter_cons_of_neg isPublic]
            exact inductionHypothesis recent

/-- An announcement leads to pairs of an added address and its dial. -/
theorem announceCalls_shape {now : Instant} {peer : PeerId}
    {recent : RecentDials} {addrs : List (Option Multiaddr)}
    {called : RecentDials × List SwarmCall}
    (runs : announceCalls now peer recent addrs = .ok called) :
    ∃ dialed : List Multiaddr, called.2 = dialed.flatMap fun addr =>
      [.addAddress peer addr, .effect (.dial addr)] := by
  induction addrs generalizing recent called with
  | nil =>
      rw [← Except.ok.inj runs]
      exact ⟨[], rfl⟩
  | cons first rest inductionHypothesis =>
      cases first with
      | none =>
          exact inductionHypothesis runs
      | some addr =>
          rw [announceCalls] at runs
          by_cases isPublic : isPublicUdpQuic addr = true
          swap
          · rw [if_neg isPublic] at runs
            exact inductionHypothesis runs
          rw [if_pos isPublic] at runs
          obtain ⟨dialed, _, restRuns⟩ := Checked.bind_eq_ok runs
          obtain ⟨others, othersRun, joined⟩ := Checked.bind_eq_ok restRuns
          obtain ⟨otherDials, shape⟩ := inductionHypothesis othersRun
          rw [← Except.ok.inj joined]
          refine ⟨dialed.2 ++ otherDials, ?_⟩
          rw [List.flatMap_append, ← shape]

private theorem identifyCalls_sameDials (now : Instant) (peer : PeerId)
    (recent : RecentDials) (listenAddrs : List Multiaddr) :
    Checked.Related SameDials
      (identifyCalls now peer false recent listenAddrs)
      (dialEach now peer recent (listenAddrs.filterMap identifyTarget)) := by
  induction listenAddrs generalizing recent with
  | nil =>
      exact Checked.Related.ok ⟨rfl, rfl⟩
  | cons addr rest inductionHypothesis =>
      rw [identifyCalls]
      cases target : identifyTarget addr with
      | none =>
          rw [List.filterMap_cons_none target]
          rw [← bind_pure (dialEach now peer recent _)]
          apply Checked.Related.bind (inductionHypothesis recent)
          intro called others both
          exact Checked.Related.ok both
      | some dialedAs =>
          rw [List.filterMap_cons_some target, dialEach]
          apply Checked.Related.bind (Checked.Related.same _)
          intro dialed _ same
          subst same
          apply Checked.Related.bind (inductionHypothesis dialed.1)
          intro called others both
          refine Checked.Related.ok ⟨both.1, ?_⟩
          change knownEffects (_ ++ called.2) = _
          rw [knownEffects_append, knownEffects_dials, both.2, List.map_append]

/-- A direct peer is not dialed, though its addresses are added. -/
theorem identifyCalls_direct (now : Instant) (peer : PeerId)
    (recent : RecentDials) (listenAddrs : List Multiaddr) :
    identifyCalls now peer true recent listenAddrs =
      .ok (recent, listenAddrs.map (.addAddress peer)) := by
  induction listenAddrs with
  | nil =>
      rfl
  | cons addr rest inductionHypothesis =>
      rw [identifyCalls, if_pos rfl]
      simp only [inductionHypothesis, Checked.ok_bind, List.map_cons]

private theorem knownEffects_added (peer : PeerId) (addrs : List Multiaddr) :
    knownEffects (addrs.map (.addAddress peer)) = [] := by
  rw [knownEffects, List.filterMap_map]
  exact List.filterMap_eq_nil_iff.2 fun _ _ => rfl

private theorem knownEffects_mdnsCalls (found : List (PeerId × Multiaddr)) :
    knownEffects (found.flatMap mdnsCalls) =
      (onMdnsDiscovered found).map .dial := by
  induction found with
  | nil =>
      rfl
  | cons entry rest inductionHypothesis =>
      rw [List.flatMap_cons, knownEffects_append, inductionHypothesis]
      rfl

private theorem knownEffects_bootstrap (kadBootstrapped kadReady : Bool) :
    knownEffects (bootstrapUnlessDone kadBootstrapped kadReady).2 = [] := by
  cases kadBootstrapped <;> rfl

private theorem knownEffects_mapPort (address : Multiaddr) :
    knownEffects (mapPortCalls address) = [] := by
  rw [mapPortCalls]
  split <;> rfl

def SameRound (called : SwarmState × List SwarmCall)
    (handled : LoopState × List Effect) : Prop :=
  called.1.loop = handled.1 ∧ knownEffects called.2 = handled.2

section Rounds

variable (config : NodeConfig) (state : SwarmState)

private theorem onSwarmInput_announce (input : SwarmInput)
    (source : Option PeerId)
    (msg : AnnounceMsg)
    (isAnnounce : input.event = .swarm (.gossip source (.announce (some msg)))) :
    Checked.Related SameRound (onSwarmInput config state input)
      (onLoopEvent config input.surroundings state.loop input.event) := by
  unfold onSwarmInput
  rw [isAnnounce]
  simp only [onLoopEvent, onSwarmEvent, onGossip]
  by_cases fromSelf : source = some config.localPeer
  · rw [if_pos fromSelf, if_pos fromSelf]
    exact Checked.Related.ok ⟨rfl, rfl⟩
  rw [if_neg fromSelf, if_neg fromSelf, onAnnounce]
  cases msg.peer with
  | none =>
      exact Checked.Related.ok ⟨rfl, rfl⟩
  | some peer =>
      dsimp only
      by_cases aboutSelf : peer = config.localPeer
      · rw [if_pos aboutSelf, if_pos aboutSelf]
        exact Checked.Related.ok ⟨rfl, rfl⟩
      rw [if_neg aboutSelf, if_neg aboutSelf]
      apply Checked.Related.bind (announceCalls_sameDials _ _ _ _)
      intro called dialed both
      refine Checked.Related.ok ⟨?_, both.2⟩
      dsimp only
      rw [both.1]

private theorem onSwarmInput_identify (input : SwarmInput) (peer : PeerId)
    (listenAddrs : List Multiaddr)
    (isIdentify : input.event = .swarm (.identifyReceived peer listenAddrs)) :
    Checked.Related SameRound (onSwarmInput config state input)
      (onLoopEvent config input.surroundings state.loop input.event) := by
  have dials : Checked.Related SameDials
      (identifyCalls input.surroundings.now peer
        (alreadyDirect state.loop.connections.directPeers peer)
        (pruneDials input.surroundings.now state.loop.recentDials peer)
        listenAddrs)
      (onIdentify input.surroundings.now state.loop.connections.directPeers
        state.loop.recentDials peer listenAddrs) := by
    rw [onIdentify]
    cases alreadyDirect state.loop.connections.directPeers peer with
    | true =>
        rw [identifyCalls_direct, if_pos rfl]
        exact Checked.Related.ok ⟨rfl, knownEffects_added peer listenAddrs⟩
    | false =>
        exact identifyCalls_sameDials _ _ _ _
  unfold onSwarmInput
  rw [isIdentify]
  simp only [onLoopEvent, onSwarmEvent, onIdentifyReceived]
  apply Checked.Related.bind dials
  intro called dialed both
  refine Checked.Related.ok ⟨?_, ?_⟩
  · dsimp only
    rw [both.1]
  · dsimp only
    rw [knownEffects_append, both.2, ← both.1]
    congr 1
    change knownEffects (_ ++ _) = _
    rw [knownEffects_append, knownEffects_map, knownEffects_bootstrap,
      List.append_nil]

/-- A round with the calls is a round of the loop without them. -/
theorem onSwarmInput_sameRound (input : SwarmInput) :
    Checked.Related SameRound (onSwarmInput config state input)
      (onLoopEvent config input.surroundings state.loop input.event) := by
  rcases input with ⟨surroundings, event, observedAddr, kadReady⟩
  have lifted : Checked.Related SameRound
      (do
        let handled ← onLoopEvent config surroundings state.loop event
        .ok ({ state with loop := handled.1 }, handled.2.map .effect))
      (onLoopEvent config surroundings state.loop event) := by
    rw [← bind_pure (onLoopEvent config surroundings state.loop event),
      bind_assoc]
    apply Checked.Related.bind (Checked.Related.same _)
    intro handled _ same
    subst same
    exact Checked.Related.ok ⟨rfl, knownEffects_map handled.2⟩
  cases event with
  | uplink event =>
      exact lifted
  | swarm event =>
      cases event with
      | gossip source message =>
          cases message with
          | packets data =>
              exact lifted
          | announce msg =>
              cases msg with
              | none =>
                  exact lifted
              | some msg =>
                  exact onSwarmInput_announce config state _ source msg rfl
      | identifyReceived peer listenAddrs =>
          exact onSwarmInput_identify config state _ peer listenAddrs rfl
      | mdnsDiscovered found =>
          exact Checked.Related.ok ⟨rfl, knownEffects_mdnsCalls found⟩
      | newListenAddr address =>
          refine Checked.Related.ok ⟨rfl, ?_⟩
          change knownEffects (_ ++ _) = _
          rw [knownEffects_append, knownEffects_map, knownEffects_mapPort,
            List.append_nil]
      | _ =>
          exact lifted

end Rounds

private theorem swarmReading_refines (config : NodeConfig) :
    swarmReading.Refines (swarmLoop config) (eventLoop config) where
  start := rfl
  step state input := by
    have round := onSwarmInput_sameRound config state input
    simp only [swarmReading, runFrom, List.append_nil, SwarmInput.core,
      swarmLoop, eventLoop]
    by_cases running : state.loop.status = .running
    swap
    · simp only [if_neg running]
      rfl
    simp only [if_pos running]
    generalize onSwarmInput config state input = called at round ⊢
    generalize onLoopEvent config input.surroundings state.loop
      input.event = handled at round ⊢
    cases round with
    | error fault =>
        rfl
    | ok both =>
        exact Prod.ext both.1.symm both.2.symm

/-- The rounds of a run, without what only the calls need. -/
def cores (inputs : List SwarmInput) : List (Surroundings × LoopEvent) :=
  inputs.map SwarmInput.core

theorem swarmLoop_run (config : NodeConfig) (inputs : List SwarmInput) :
    ((swarmLoop config).stateAfter inputs).loop =
        (eventLoop config).stateAfter (cores inputs) ∧
      knownEffects ((swarmLoop config).outputsOf inputs) =
        (eventLoop config).outputsOf (cores inputs) := by
  have corresponds := (swarmReading_refines config).run inputs
  rw [Reading.eventsOf_eq_flatMap _ (fun _ _ => rfl)] at corresponds
  have flat : (inputs.flatMap fun input => [input.core]) = cores inputs :=
    List.flatMap_pure_eq_map SwarmInput.core inputs
  rw [flat] at corresponds
  exact corresponds

section LastRound

variable (config : NodeConfig)

theorem swarmLoop_step (state : SwarmState) (input : SwarmInput) :
    ((swarmLoop config).step state input).1.loop =
        ((eventLoop config).step state.loop input.core).1 ∧
      knownEffects ((swarmLoop config).step state input).2 =
        ((eventLoop config).step state.loop input.core).2 := by
  have step := (swarmReading_refines config).step state input
  simp only [swarmReading, runFrom, List.append_nil] at step
  exact ⟨(congrArg Prod.fst step).symm, (congrArg Prod.snd step).symm⟩

/-- The last round of a loop that still runs. -/
theorem swarmLoop_round {earlier : List SwarmInput} {input : SwarmInput}
    (running : ((swarmLoop config).stateAfter
      (earlier ++ [input])).loop.status = .running) :
    ((swarmLoop config).stateAfter earlier).loop.status = .running ∧
      onSwarmInput config ((swarmLoop config).stateAfter earlier) input =
        .ok ((swarmLoop config).step
          ((swarmLoop config).stateAfter earlier) input) := by
  rw [stateAfter_snoc] at running
  have before : ((swarmLoop config).stateAfter earlier).loop.status =
      .running := by
    apply eventLoop_runs_before config _ input.core
    rw [← (swarmLoop_step config _ input).1]
    exact running
  refine ⟨before, ?_⟩
  have stepped : (swarmLoop config).step
      ((swarmLoop config).stateAfter earlier) input =
        match onSwarmInput config ((swarmLoop config).stateAfter earlier)
          input with
        | .ok result => result
        | .error _ =>
            ({ (swarmLoop config).stateAfter earlier with
                loop := { ((swarmLoop config).stateAfter earlier).loop with
                  status := .aborted } }, []) :=
    if_pos before
  rw [stepped] at running ⊢
  cases handled : onSwarmInput config ((swarmLoop config).stateAfter earlier)
      input with
  | error fault =>
      rw [handled] at running
      cases running
  | ok result =>
      rfl

end LastRound

end CocoNet
