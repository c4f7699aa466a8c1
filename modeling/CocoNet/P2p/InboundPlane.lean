import CocoNet.Library.Refinement
import CocoNet.P2p.Deliveries
import CocoNet.P2p.LoopLife

/-!
# The inbound plane inside the event loop

What the loop sends to the TUN side and acknowledges depends on the inbound
messages only, one message after the other.  Nothing else that happens between
them, and nothing that the loop remembers, makes a difference: the loop refines
a machine without a state.
-/

namespace CocoNet

open StepMachine

/-! ## The machine -/

/-- A message with packets, as it comes in by gossipsub or as a request. -/
inductive Inbound where
  | gossip (source : Option PeerId) (data : Bytes)
  | request (peer : PeerId) (data : Bytes)
  deriving DecidableEq, Repr

inductive Answer where
  | deliver (packet : Bytes)
  | acknowledge (peer : PeerId)
  deriving DecidableEq, Repr

def unpackedPackets (data : Bytes) : List Bytes :=
  match unpackBatch data with
  | .ok unpacked => unpacked.packets
  | .error _ => []

def answersTo (localPeer : PeerId) : Inbound → List Answer
  | .gossip source data =>
      if source = some localPeer then []
      else (unpackedPackets data).map .deliver
  | .request peer data =>
      (unpackedPackets data).map .deliver ++ [.acknowledge peer]

def inboundPlane (localPeer : PeerId) :
    StepMachine Unit Inbound Answer where
  start := ()
  step _ inbound := ((), answersTo localPeer inbound)

private theorem unpackedPackets_eq {data : Bytes} {unpacked : Unpacked}
    (unpacks : unpackBatch data = .ok unpacked) :
    unpackedPackets data = unpacked.packets := by
  rw [unpackedPackets, unpacks]

private theorem inboundPlane_outputsOf (localPeer : PeerId)
    (handled : List Inbound) :
    (inboundPlane localPeer).outputsOf handled =
      handled.flatMap (answersTo localPeer) := by
  induction handled using List.reverseRecOn with
  | nil =>
      rfl
  | append_singleton before inbound inductionHypothesis =>
      rw [outputsOf_snoc, inductionHypothesis, List.flatMap_append,
        List.flatMap_singleton]
      rfl

/-! ## The loop as the inbound plane -/

def LoopEvent.inbound : LoopEvent → Option Inbound
  | .swarm (.gossip source (.packets data)) => some (.gossip source data)
  | .swarm (.request peer request) => some (.request peer request)
  | _ => none

def Effect.answer : Effect → Option Answer
  | .deliver packet => some (.deliver packet)
  | .acknowledge peer => some (.acknowledge peer)
  | _ => none

def answers (effects : List Effect) : List Answer :=
  effects.filterMap Effect.answer

def inboundReading :
    Reading LoopState (Surroundings × LoopEvent) Effect Unit Inbound
      Answer where
  state _ := ()
  events state input :=
    if state.status = .running then input.2.inbound.toList else []
  output := Effect.answer

private theorem answers_append (first second : List Effect) :
    answers (first ++ second) = answers first ++ answers second :=
  List.filterMap_append

private theorem answers_deliver (packets : List Bytes) :
    answers (packets.map .deliver) = packets.map .deliver := by
  rw [answers, List.filterMap_map, ← List.filterMap_eq_map]
  congr 1

private theorem answers_map_none {Item : Type} {wrap : Item → Effect}
    (ignores : ∀ item, (wrap item).answer = none) (items : List Item) :
    answers (items.map wrap) = [] :=
  filterMap_map_none Effect.answer ignores items

private theorem answers_announceEffects
    (announced : AnnounceState × List Announcement) (state : LoopState) :
    answers (announceEffects announced state).2 = [] :=
  answers_map_none (fun _ => rfl) announced.2

section Rounds

variable {config : NodeConfig} {surroundings : Surroundings}
variable {state : LoopState}

private theorem answers_onGossip {source : Option PeerId}
    {message : GossipMessage}
    {result : LoopState × List Effect}
    (handled : onGossip config surroundings.now state source message =
      .ok result) :
    answers result.2 =
      ((LoopEvent.swarm (.gossip source message)).inbound.toList).flatMap
        (answersTo config.localPeer) := by
  unfold onGossip at handled
  by_cases own : source = some config.localPeer
  · rw [if_pos own] at handled
    rw [← Except.ok.inj handled]
    cases message with
    | packets data =>
        simp [LoopEvent.inbound, answersTo, own, answers]
    | announce msg =>
        rfl
  rw [if_neg own] at handled
  cases message with
  | packets data =>
      obtain ⟨unpacked, unpacks, rest⟩ := Checked.bind_eq_ok handled
      rw [← Except.ok.inj rest, answers_deliver]
      simp [LoopEvent.inbound, answersTo, own, unpackedPackets_eq unpacks]
  | announce msg =>
      cases msg with
      | none =>
          rw [← Except.ok.inj handled]
          rfl
      | some msg =>
          obtain ⟨dialed, _, rest⟩ := Checked.bind_eq_ok handled
          rw [← Except.ok.inj rest]
          exact answers_map_none (fun _ => rfl) dialed.2

/-- A handler that returns answers the inbound message of its event, if there
is one. -/
theorem answers_onLoopEvent {event : LoopEvent}
    {result : LoopState × List Effect}
    (handled : onLoopEvent config surroundings state event = .ok result) :
    answers result.2 =
      event.inbound.toList.flatMap (answersTo config.localPeer) := by
  cases event with
  | uplink event =>
      rw [← Except.ok.inj handled]
      exact answers_map_none (fun _ => rfl) _
  | swarm event =>
      cases event with
      | gossip source message =>
          exact answers_onGossip handled
      | request peer request =>
          obtain ⟨unpacked, unpacks, rest⟩ := Checked.bind_eq_ok handled
          rw [← Except.ok.inj rest, answers_append, answers_deliver]
          simp [LoopEvent.inbound, answersTo, unpackedPackets_eq unpacks,
            answers, Effect.answer]
      | identifyReceived peer listenAddrs =>
          obtain ⟨dialed, _, rest⟩ := Checked.bind_eq_ok handled
          rw [← Except.ok.inj rest, answers_append, answers_announceEffects]
          exact congrArg (· ++ []) (answers_map_none (fun _ => rfl) dialed.2)
      | mdnsDiscovered found =>
          rw [← Except.ok.inj handled]
          exact answers_map_none (fun _ => rfl) _
      | autonat | newListenAddr address | externalAddrConfirmed address =>
          rw [← Except.ok.inj handled]
          exact answers_announceEffects _ state
      | externalAddrExpired address | listenerClosed addresses =>
          rw [← Except.ok.inj handled]
          rfl
      | connection event =>
          rw [← Except.ok.inj handled]
          simp only [onConnection, answers_append]
          rw [answers_map_none (fun _ => rfl), List.append_nil]
          cases event with
          | closed peer id =>
              rfl
          | established peer id endpoint =>
              exact answers_announceEffects _ state

end Rounds

/-- The handlers of inbound messages always return. -/
theorem onLoopEvent_succeeds_of_inbound (config : NodeConfig)
    (surroundings : Surroundings) (state : LoopState) {event : LoopEvent}
    {inbound : Inbound} (isInbound : event.inbound = some inbound) :
    Checked.Succeeds (onLoopEvent config surroundings state event) := by
  cases event with
  | uplink event =>
      cases isInbound
  | swarm event =>
      cases event with
      | gossip source message =>
          cases message with
          | announce msg =>
              cases isInbound
          | packets data =>
              exact @onGossip_succeeds config surroundings state source
                (.packets data) rfl
      | request peer request =>
          obtain ⟨unpacked, unpacks⟩ := unpackBatch_succeeds request
          rw [onLoopEvent, onSwarmEvent, unpackRequest, unpacks]
          exact ⟨_, rfl⟩
      | _ =>
          cases isInbound

private theorem inboundReading_refines (config : NodeConfig) :
    inboundReading.Refines (eventLoop config)
      (inboundPlane config.localPeer) where
  start := rfl
  step state input := by
    by_cases running : state.status = .running
    swap
    · rw [eventLoop_step_stopped config running]
      simp [inboundReading, running, runFrom]
    rw [eventLoop_step_running config running]
    simp only [inboundReading, if_pos running]
    have answered : (inboundPlane config.localPeer).runFrom ()
        input.2.inbound.toList =
          ((), input.2.inbound.toList.flatMap (answersTo config.localPeer)) := by
      cases input.2.inbound <;> simp [runFrom, inboundPlane]
    rw [answered]
    cases handled : onLoopEvent config input.1 state input.2 with
    | ok result =>
        exact congrArg _ (answers_onLoopEvent handled).symm
    | error fault =>
        cases isInbound : input.2.inbound with
        | none =>
            rfl
        | some inbound =>
            obtain ⟨result, returns⟩ := onLoopEvent_succeeds_of_inbound config
              input.1 state isInbound
            rw [returns] at handled
            cases handled

/-! ## Runs -/

def inboundMessages (inputs : List (Surroundings × LoopEvent)) :
    List Inbound :=
  inputs.flatMap fun input => input.2.inbound.toList

/-- In every run, whatever else happens in it, what the loop delivers to the
TUN side and acknowledges, in this order, is what the first inbound messages of
the run unpack to, one after the other, and of all of them if the loop still
runs. -/
theorem loop_answers_inbound (config : NodeConfig)
    (inputs : List (Surroundings × LoopEvent)) :
    ∃ handled, handled <+: inboundMessages inputs ∧
      (((eventLoop config).stateAfter inputs).status = .running →
        handled = inboundMessages inputs) ∧
      answers ((eventLoop config).outputsOf inputs) =
        handled.flatMap (answersTo config.localPeer) := by
  have corresponds := ((inboundReading_refines config).run inputs).2
  rw [inboundPlane_outputsOf] at corresponds
  obtain ⟨isFirst, isAll⟩ := inboundReading.eventsOf_while
    (fun _ _ => rfl) (eventLoop_runs_before config) inputs
  exact ⟨_, isFirst, isAll, corresponds⟩

end CocoNet
