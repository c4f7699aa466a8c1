import CocoNet.Library.Refinement
import CocoNet.P2p.DataCodec
import CocoNet.P2p.Deliveries
import CocoNet.P2p.OwnAddrs

/-!
# The overlay

Many nodes run the event loop side by side, one event of one node at a time.
The network between them carries publishes to the other subscribers, requests
to the peers they are addressed to, byte by byte through the data codec, and
announcements.  It may lose, delay, reorder and repeat what it carries, but it
makes nothing up: every message that reaches a node was sent before.
-/

namespace CocoNet

open StepMachine

/-! ## Nodes and their events -/

/-- Where the message of an event comes from: which node sent it, and which of
its transmissions or announcements it is. -/
inductive Origin where
  | data (sender : PeerId) (position : Nat)
  | announcement (sender : PeerId) (position : Nat)
  deriving DecidableEq, Repr

structure OverlayEvent where
  node : PeerId
  surroundings : Surroundings
  event : LoopEvent
  origin : Option Origin
  deriving DecidableEq, Repr

def OverlayEvent.input (event : OverlayEvent) : Surroundings × LoopEvent :=
  (event.surroundings, event.event)

/-- Every node runs the loop under its own name. -/
def overlay (config : PeerId → UplinkConfig) :
    StepMachine (PeerId → LoopState) OverlayEvent (PeerId × Effect) :=
  family (fun peer => eventLoop ⟨peer, config peer⟩) OverlayEvent.node
    OverlayEvent.input

/-- The events of one node. -/
def inputsAt (peer : PeerId) (run : List OverlayEvent) :
    List (Surroundings × LoopEvent) :=
  eventsAt OverlayEvent.node OverlayEvent.input peer run

/-- What one node has done. -/
def effectsAt (config : PeerId → UplinkConfig) (run : List OverlayEvent)
    (peer : PeerId) : List Effect :=
  outputsAt peer ((overlay config).outputsOf run)

theorem overlay_stateAfter (config : PeerId → UplinkConfig)
    (run : List OverlayEvent) (peer : PeerId) :
    (overlay config).stateAfter run peer =
      (eventLoop ⟨peer, config peer⟩).stateAfter (inputsAt peer run) :=
  (family_run _ _ _ peer run).1

theorem effectsAt_eq (config : PeerId → UplinkConfig)
    (run : List OverlayEvent) (peer : PeerId) :
    effectsAt config run peer =
      (eventLoop ⟨peer, config peer⟩).outputsOf (inputsAt peer run) :=
  (family_run _ _ _ peer run).2

/-- What an event makes its node do. -/
def effectsOf (config : PeerId → UplinkConfig) (run : List OverlayEvent)
    (event : OverlayEvent) : List Effect :=
  ((eventLoop ⟨event.node, config event.node⟩).step
    ((overlay config).stateAfter run event.node) event.input).2

theorem effectsAt_snoc_own (config : PeerId → UplinkConfig)
    (run : List OverlayEvent) (event : OverlayEvent) :
    effectsAt config (run ++ [event]) event.node =
      effectsAt config run event.node ++ effectsOf config run event := by
  rw [effectsAt_eq, effectsAt_eq, effectsOf, overlay_stateAfter]
  simp only [inputsAt, eventsAt_snoc_own, outputsOf_snoc]

theorem effectsAt_snoc_other (config : PeerId → UplinkConfig)
    (run : List OverlayEvent) {event : OverlayEvent} {peer : PeerId}
    (other : event.node ≠ peer) :
    effectsAt config (run ++ [event]) peer = effectsAt config run peer := by
  rw [effectsAt_eq, effectsAt_eq, inputsAt, eventsAt_snoc_other _ _ other]
  rfl

/-- A node's past stays as it is. -/
theorem effectsAt_extend (config : PeerId → UplinkConfig)
    (run later : List OverlayEvent) (peer : PeerId) :
    effectsAt config run peer <+: effectsAt config (run ++ later) peer := by
  rw [effectsAt_eq, effectsAt_eq, inputsAt, inputsAt, eventsAt_append,
    outputsOf_append]
  exact List.prefix_append _ _

/-! ## The network -/

/-- A gossipsub message or a request. -/
def LoopEvent.bringsMessage : LoopEvent → Bool
  | .swarm (.gossip _ _) => true
  | .swarm (.request _ _) => true
  | _ => false

/-- How a transmission shows up at another node.  Published messages carry no
source; a request is what the codec reads of the bytes it wrote. -/
inductive Outgoing.ArrivesAs (sender receiver : PeerId) :
    Outgoing → LoopEvent → Prop where
  | publish (data : Bytes) :
      ArrivesAs sender receiver (.publish .packets data)
        (.swarm (.gossip none (.packets data)))
  | request {peers : Finset PeerId} {data request rest : Bytes}
      (addressed : receiver ∈ peers)
      (reads : DataCodec.readRequest (DataCodec.writeRequest [] data) =
        .ok (request, rest)) :
      ArrivesAs sender receiver (.sendRequests peers data)
        (.swarm (.request sender request))

/-- How an announcement shows up at another node: its addresses are listed in
any order. -/
inductive Announcement.ArrivesAs : Announcement → LoopEvent → Prop where
  | listed {announcement : Announcement} {addrs : List Multiaddr}
      (same : addrs.toFinset = announcement.addrs) :
      ArrivesAs announcement
        (.swarm (.gossip none (.announce
          (some ⟨some announcement.peer, addrs.map some⟩))))

/-- A message has an origin, and the origin has sent it; whatever else happens
at a node brings no message. -/
def Carried (config : PeerId → UplinkConfig) (earlier : List OverlayEvent)
    (event : OverlayEvent) : Prop :=
  match event.origin with
  | none => event.event.bringsMessage = false
  | some (.data sender position) =>
      sender ≠ event.node ∧
        ∃ outgoing,
          (transmissions (effectsAt config earlier sender))[position]? =
              some outgoing ∧
            outgoing.ArrivesAs sender event.node event.event
  | some (.announcement sender position) =>
      sender ≠ event.node ∧
        ∃ announcement,
          (announcements (effectsAt config earlier sender))[position]? =
              some announcement ∧
            announcement.ArrivesAs event.event

end CocoNet
