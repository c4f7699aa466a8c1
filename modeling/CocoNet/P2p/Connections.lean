import Mathlib.Data.Finset.Basic
import Mathlib.Logic.Function.Basic
import CocoNet.Library.StepMachine
import CocoNet.P2p.Multiaddr

/-!
# Connections

The event loop classifies every new connection as relayed or direct by the
address of its remote end.  A peer with a direct connection is entered in the
direct peers and its relayed connections are closed; a relayed connection to
such a peer is closed at once.  Nothing is done when a connection is closed.
-/

namespace CocoNet

abbrev ConnectionId := Nat

/-- The two ends' views of a connection. -/
inductive ConnectedPoint where
  | dialer (address : Multiaddr)
  | listener (localAddr sendBackAddr : Multiaddr)
  deriving DecidableEq, Repr

def ConnectedPoint.remoteAddr : ConnectedPoint → Multiaddr
  | .dialer address => address
  | .listener _ sendBackAddr => sendBackAddr

def isRelayed (endpoint : ConnectedPoint) : Bool :=
  hasCircuit endpoint.remoteAddr

/-- `relayed_conns` and `direct_peers`.  A peer without an entry has no relayed
connections. -/
structure ConnState where
  relayedConns : PeerId → List ConnectionId
  directPeers : Finset PeerId

inductive ConnectionEvent where
  | established (peer : PeerId) (id : ConnectionId) (endpoint : ConnectedPoint)
  | closed (peer : PeerId) (id : ConnectionId)
  deriving DecidableEq, Repr

/-- The handlers of `ConnectionEstablished` and `ConnectionClosed`, with the
connections they call `close_connection` on. -/
def connectionStep (state : ConnState) :
    ConnectionEvent → ConnState × List ConnectionId
  | .established peer id endpoint =>
      if isRelayed endpoint then
        if peer ∈ state.directPeers then (state, [id])
        else
          ({ state with
              relayedConns :=
                Function.update state.relayedConns peer
                  (state.relayedConns peer ++ [id]) },
            [])
      else
        (⟨Function.update state.relayedConns peer [],
            insert peer state.directPeers⟩,
          state.relayedConns peer)
  | .closed _ _ => (state, [])

def connections : StepMachine ConnState ConnectionEvent ConnectionId where
  start := ⟨fun _ => [], ∅⟩
  step := connectionStep

/-! ## What a step does -/

theorem connectionStep_relayed_direct {state : ConnState} {peer : PeerId}
    (id : ConnectionId) {endpoint : ConnectedPoint}
    (relayed : isRelayed endpoint = true)
    (direct : peer ∈ state.directPeers) :
    connectionStep state (.established peer id endpoint) = (state, [id]) := by
  rw [connectionStep, if_pos relayed, if_pos direct]

theorem connectionStep_relayed {state : ConnState} {peer : PeerId}
    (id : ConnectionId) {endpoint : ConnectedPoint}
    (relayed : isRelayed endpoint = true)
    (notDirect : peer ∉ state.directPeers) :
    connectionStep state (.established peer id endpoint) =
      ({ state with
          relayedConns :=
            Function.update state.relayedConns peer
              (state.relayedConns peer ++ [id]) },
        []) := by
  rw [connectionStep, if_pos relayed, if_neg notDirect]

theorem connectionStep_direct (state : ConnState) (peer : PeerId)
    (id : ConnectionId) {endpoint : ConnectedPoint}
    (direct : isRelayed endpoint = false) :
    connectionStep state (.established peer id endpoint) =
      (⟨Function.update state.relayedConns peer [],
          insert peer state.directPeers⟩,
        state.relayedConns peer) := by
  rw [connectionStep, if_neg (by simp [direct])]

/-- Direct peers stay direct, and a peer becomes direct by a direct connection
only. -/
theorem mem_directPeers_connectionStep (state : ConnState)
    (event : ConnectionEvent) (peer : PeerId) :
    peer ∈ (connectionStep state event).1.directPeers ↔
      peer ∈ state.directPeers ∨
        ∃ id endpoint, event = .established peer id endpoint ∧
          isRelayed endpoint = false := by
  cases event with
  | closed other id =>
      simp [connectionStep]
  | established other id endpoint =>
      cases relayed : isRelayed endpoint with
      | false =>
          rw [connectionStep_direct state other id relayed]
          simp only [Finset.mem_insert, ConnectionEvent.established.injEq]
          constructor
          · intro found
            rcases found with rfl | before
            · exact Or.inr ⟨id, endpoint, ⟨rfl, rfl, rfl⟩, relayed⟩
            · exact Or.inl before
          · intro found
            rcases found with before | ⟨_, _, ⟨rfl, _, _⟩, _⟩
            · exact Or.inr before
            · exact Or.inl rfl
      | true =>
          have unchanged :
              (connectionStep state
                (.established other id endpoint)).1.directPeers =
                state.directPeers := by
            by_cases direct : other ∈ state.directPeers
            · rw [connectionStep_relayed_direct id relayed direct]
            · rw [connectionStep_relayed id relayed direct]
          rw [unchanged]
          constructor
          · exact Or.inl
          · intro found
            rcases found with before | ⟨_, _, same, direct⟩
            · exact before
            · rcases ConnectionEvent.established.inj same with ⟨_, _, same⟩
              subst same
              rw [relayed] at direct
              cases direct

/-! ## Histories -/

def EstablishedRelayed (events : List ConnectionEvent) (peer : PeerId)
    (id : ConnectionId) : Prop :=
  ∃ endpoint, .established peer id endpoint ∈ events ∧
    isRelayed endpoint = true

def EstablishedDirect (events : List ConnectionEvent) (peer : PeerId)
    (id : ConnectionId) : Prop :=
  ∃ endpoint, .established peer id endpoint ∈ events ∧
    isRelayed endpoint = false

def Live (events : List ConnectionEvent) (peer : PeerId)
    (id : ConnectionId) : Prop :=
  (∃ endpoint, .established peer id endpoint ∈ events) ∧
    .closed peer id ∉ events

def LiveDirect (events : List ConnectionEvent) (peer : PeerId)
    (id : ConnectionId) : Prop :=
  EstablishedDirect events peer id ∧ .closed peer id ∉ events

def FreshId (earlier : List ConnectionEvent) : ConnectionEvent → Prop
  | .established _ id _ =>
      ∀ peer endpoint, .established peer id endpoint ∉ earlier
  | .closed _ _ => True

/-- What the swarm promises: a new connection has a fresh id, and a connection
is closed at most once and only after it was established. -/
def ValidEvent (earlier : List ConnectionEvent) : ConnectionEvent → Prop
  | .established _ id _ =>
      ∀ peer endpoint, .established peer id endpoint ∉ earlier
  | .closed peer id =>
      (∃ endpoint, .established peer id endpoint ∈ earlier) ∧
        .closed peer id ∉ earlier

private theorem exists_established_snoc (events : List ConnectionEvent)
    (event : ConnectionEvent) (peer : PeerId) (id : ConnectionId)
    (kind : ConnectedPoint → Prop) :
    (∃ endpoint, .established peer id endpoint ∈ events ++ [event] ∧
        kind endpoint) ↔
      (∃ endpoint, .established peer id endpoint ∈ events ∧ kind endpoint) ∨
        ∃ endpoint, event = .established peer id endpoint ∧ kind endpoint := by
  constructor
  · intro ⟨endpoint, member, isKind⟩
    rcases List.mem_append.mp member with before | now
    · exact Or.inl ⟨endpoint, before, isKind⟩
    · exact Or.inr ⟨endpoint, (List.mem_singleton.mp now).symm, isKind⟩
  · intro found
    rcases found with ⟨endpoint, before, isKind⟩ | ⟨endpoint, now, isKind⟩
    · exact ⟨endpoint, List.mem_append_left _ before, isKind⟩
    · subst now
      exact ⟨endpoint, List.mem_append_right _ List.mem_cons_self, isKind⟩

theorem establishedRelayed_snoc (events : List ConnectionEvent)
    (event : ConnectionEvent) (peer : PeerId) (id : ConnectionId) :
    EstablishedRelayed (events ++ [event]) peer id ↔
      EstablishedRelayed events peer id ∨
        ∃ endpoint, event = .established peer id endpoint ∧
          isRelayed endpoint = true :=
  exists_established_snoc events event peer id _

theorem establishedDirect_snoc (events : List ConnectionEvent)
    (event : ConnectionEvent) (peer : PeerId) (id : ConnectionId) :
    EstablishedDirect (events ++ [event]) peer id ↔
      EstablishedDirect events peer id ∨
        ∃ endpoint, event = .established peer id endpoint ∧
          isRelayed endpoint = false :=
  exists_established_snoc events event peer id _

/-- A peer is in the direct peers when some connection to it was established as
direct, whatever happened to it later. -/
theorem mem_directPeers_iff (events : List ConnectionEvent) (peer : PeerId) :
    peer ∈ (connections.stateAfter events).directPeers ↔
      ∃ id, EstablishedDirect events peer id := by
  induction events using List.reverseRecOn with
  | nil =>
      simp [connections, EstablishedDirect]
  | append_singleton earlier event inductionHypothesis =>
      have stepped :=
        mem_directPeers_connectionStep (connections.stateAfter earlier) event
          peer
      rw [inductionHypothesis] at stepped
      simp only [StepMachine.stateAfter_snoc, establishedDirect_snoc,
        exists_or]
      exact stepped

end CocoNet
