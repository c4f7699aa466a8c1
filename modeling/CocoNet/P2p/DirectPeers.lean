import CocoNet.P2p.Connections
import CocoNet.P2p.Dialing
import CocoNet.P2p.Uplink

/-!
# Direct peers and live direct connections

The direct peers are meant to be the peers with a live direct connection: for
them relayed connections are closed, dials are suppressed and requests replace
gossipsub.  A peer is entered with its first direct connection and never
removed, so the set is exact as long as no peer loses its last direct
connection.
-/

namespace CocoNet

open StepMachine

/-! ## Histories of direct connections -/

private theorem LiveDirect.snoc {events : List ConnectionEvent} {peer : PeerId}
    {id : ConnectionId} (live : LiveDirect events peer id)
    {event : ConnectionEvent} (other : event ≠ .closed peer id) :
    LiveDirect (events ++ [event]) peer id := by
  refine ⟨(establishedDirect_snoc _ _ _ _).2 (Or.inl live.1), ?_⟩
  intro member
  rcases List.mem_append.mp member with before | now
  · exact live.2 before
  · exact other (List.mem_singleton.mp now).symm

private theorem established_of_closed {events : List ConnectionEvent}
    (valid : EachStep ValidEvent events) {peer : PeerId} {id : ConnectionId}
    (closed : .closed peer id ∈ events) :
    ∃ endpoint, .established peer id endpoint ∈ events := by
  rcases List.append_of_mem closed with ⟨earlier, later, shape⟩
  obtain ⟨⟨endpoint, member⟩, _⟩ := valid earlier _ later shape
  exact ⟨endpoint, by simp [shape, member]⟩

private theorem liveDirect_of_established {events : List ConnectionEvent}
    (valid : EachStep ValidEvent events) {peer : PeerId} {id : ConnectionId}
    {endpoint : ConnectedPoint}
    (validEvent : ValidEvent events (.established peer id endpoint))
    (direct : isRelayed endpoint = false) :
    LiveDirect (events ++ [.established peer id endpoint]) peer id := by
  refine ⟨(establishedDirect_snoc _ _ _ _).2
    (Or.inr ⟨endpoint, rfl, direct⟩), ?_⟩
  intro member
  rcases List.mem_append.mp member with before | now
  · rcases established_of_closed valid before with ⟨old, established⟩
    exact validEvent peer old established
  · cases List.mem_singleton.mp now

/-! ## Exactness -/

/-- The direct peers are the peers with a live direct connection, and the three
decisions taken by them are taken only while there is such a connection. -/
structure DirectPeersSound (events : List ConnectionEvent) : Prop where
  exact : ∀ peer,
    peer ∈ (connections.stateAfter events).directPeers ↔
      ∃ id, LiveDirect events peer id
  closesRelayed : ∀ event, ValidEvent events event →
    ∀ dropped, dropped ∈
        (connectionStep (connections.stateAfter events) event).2 →
      ∃ peer id endpoint live, event = .established peer id endpoint ∧
        LiveDirect (events ++ [event]) peer live
  suppressesDials : ∀ peer,
    alreadyDirect (connections.stateAfter events).directPeers peer = true →
      ∃ id, LiveDirect events peer id
  sendsRequests : ∀ batch peers data,
    .sendRequests peers data ∈
        (flushBatch (connections.stateAfter events).directPeers batch).2 →
      ∀ peer, peer ∈ peers → ∃ id, LiveDirect events peer id

/-- A direct connection that is closed leaves another one to its peer. -/
def KeepsDirect (earlier : List ConnectionEvent)
    (event : ConnectionEvent) : Prop :=
  ∀ peer id, event = .closed peer id → EstablishedDirect earlier peer id →
    ∃ other, other ≠ id ∧ LiveDirect earlier peer other

private theorem sendRequests_of_mem_flushBatch
    {directPeers peers : Finset PeerId}
    {batch : BatchBuilder} {data : Bytes}
    (member : .sendRequests peers data ∈ (flushBatch directPeers batch).2) :
    peers = directPeers := by
  cases isEmpty : batch.isEmpty with
  | true =>
      rw [flushBatch_of_empty directPeers isEmpty] at member
      cases member
  | false =>
      rw [flushBatch_of_nonempty directPeers isEmpty] at member
      have same := List.mem_singleton.mp member
      split at same
      · cases same
      · exact (Outgoing.sendRequests.inj same).1

private theorem DirectPeersSound.of_exact {events : List ConnectionEvent}
    (valid : EachStep ValidEvent events)
    (exact : ∀ peer,
      peer ∈ (connections.stateAfter events).directPeers ↔
        ∃ id, LiveDirect events peer id) :
    DirectPeersSound events := by
  refine ⟨exact, ?_, ?_, ?_⟩
  · intro event validEvent dropped member
    cases event with
    | closed peer id =>
        cases member
    | established peer id endpoint =>
        cases relayed : isRelayed endpoint with
        | false =>
            exact ⟨peer, id, endpoint, id, rfl,
              liveDirect_of_established valid validEvent relayed⟩
        | true =>
            by_cases direct :
                peer ∈ (connections.stateAfter events).directPeers
            · rcases (exact peer).1 direct with ⟨live, isLive⟩
              exact ⟨peer, id, endpoint, live, rfl,
                isLive.snoc (by simp)⟩
            · rw [connectionStep_relayed id relayed direct] at member
              cases member
  · intro peer already
    exact (exact peer).1 (of_decide_eq_true already)
  · intro batch peers data member peer inPeers
    rw [sendRequests_of_mem_flushBatch member] at inPeers
    exact (exact peer).1 inPeers

private theorem liveDirect_of_keepsDirect {events : List ConnectionEvent}
    (valid : EachStep ValidEvent events)
    (keeps : EachStep KeepsDirect events) {peer : PeerId}
    {id : ConnectionId} (direct : EstablishedDirect events peer id) :
    ∃ live, LiveDirect events peer live := by
  induction events using List.reverseRecOn generalizing id with
  | nil =>
      rcases direct with ⟨_, member, _⟩
      cases member
  | append_singleton earlier event inductionHypothesis =>
      rcases (eachStep_snoc_iff _ _ _).1 valid with ⟨validBefore, validEvent⟩
      rcases (eachStep_snoc_iff _ _ _).1 keeps with ⟨keepsBefore, keepsNow⟩
      rcases (establishedDirect_snoc _ _ _ _).1 direct with
        before | ⟨endpoint, rfl, isDirect⟩
      · obtain ⟨live, isLive⟩ :=
          inductionHypothesis validBefore keepsBefore before
        by_cases closesIt : event = .closed peer live
        · obtain ⟨other, different, otherLive⟩ :=
            keepsNow peer live closesIt isLive.1
          refine ⟨other, otherLive.snoc ?_⟩
          rw [closesIt]
          intro same
          exact different (ConnectionEvent.closed.inj same).2.symm
        · exact ⟨live, isLive.snoc closesIt⟩
      · exact ⟨id, liveDirect_of_established validBefore validEvent isDirect⟩

/-- In every valid run, the direct peers are exact and the decisions taken by
them sound in every state if and only if every direct connection that is closed
leaves another live direct connection to its peer. -/
theorem directPeers_sound_iff {events : List ConnectionEvent}
    (valid : EachStep ValidEvent events) :
    EachPrefix DirectPeersSound events ↔ EachStep KeepsDirect events := by
  constructor
  · intro sound earlier event later shape peer id same established
    subst same
    have after : DirectPeersSound (earlier ++ [.closed peer id]) :=
      sound _ later (by simp [shape])
    have stillDirect :
        peer ∈ (connections.stateAfter
          (earlier ++ [.closed peer id])).directPeers :=
      (mem_directPeers_iff _ peer).2
        ⟨id, (establishedDirect_snoc _ _ _ _).2 (Or.inl established)⟩
    obtain ⟨live, liveEstablished, notClosed⟩ :=
      (after.exact peer).1 stillDirect
    refine ⟨live, ?_, ?_, ?_⟩
    · intro same
      subst same
      exact notClosed (by simp)
    · rcases (establishedDirect_snoc _ _ _ _).1 liveEstablished with
        before | ⟨_, impossible, _⟩
      · exact before
      · cases impossible
    · exact fun before => notClosed (List.mem_append_left _ before)
  · intro keeps earlier later same
    subst same
    apply DirectPeersSound.of_exact valid.of_append
    intro peer
    rw [mem_directPeers_iff]
    constructor
    · intro ⟨id, established⟩
      exact liveDirect_of_keepsDirect valid.of_append keeps.of_append
        established
    · intro ⟨id, live⟩
      exact ⟨id, live.1⟩

/-- Two direct connections to one peer, of which one is closed. -/
theorem directPeers_sound_two_connections :
    EachPrefix DirectPeersSound
      [.established ⟨[7]⟩ 1 (.dialer []), .established ⟨[7]⟩ 2 (.dialer []),
        .closed ⟨[7]⟩ 1] := by
  refine (directPeers_sound_iff ?_).2 ?_
  · simp [eachStep_cons_iff, eachStep_nil, ValidEvent]
  · simp only [eachStep_cons_iff, eachStep_nil, KeepsDirect]
    refine ⟨by simp, by simp, ?_, trivial⟩
    intro peer id closed _
    obtain ⟨rfl, rfl⟩ := ConnectionEvent.closed.inj closed
    exact ⟨2, by decide, ⟨.dialer [], by simp, rfl⟩, by simp⟩

/-- The only direct connection to a peer is closed.  The peer stays direct, and
the next relayed connection to it is closed at once. -/
theorem directPeers_outlive_connection :
    EachStep ValidEvent
        [.established ⟨[7]⟩ 1 (.dialer []), .closed ⟨[7]⟩ 1] ∧
      ¬ DirectPeersSound
          [.established ⟨[7]⟩ 1 (.dialer []), .closed ⟨[7]⟩ 1] ∧
      (connectionStep
          (connections.stateAfter
            [.established ⟨[7]⟩ 1 (.dialer []), .closed ⟨[7]⟩ 1])
          (.established ⟨[7]⟩ 2 (.dialer [.p2pCircuit]))).2 = [2] := by
  refine ⟨?_, ?_, by decide⟩
  · simp [eachStep_cons_iff, eachStep_nil, ValidEvent]
  · intro sound
    obtain ⟨id, ⟨endpoint, member, _⟩, notClosed⟩ :=
      (sound.exact ⟨[7]⟩).1 (by decide)
    obtain ⟨rfl, rfl⟩ : id = 1 ∧ endpoint = .dialer [] := by
      simpa using member
    exact notClosed (by simp)

end CocoNet
