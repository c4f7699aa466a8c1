import CocoNet.P2p.Connections

/-!
# The bookkeeping of relayed connections

Every connection established as relayed is held in the list of its peer while
the peer has no direct connection, and has been closed exactly once when the
peer has one.  No other connection is ever closed.
-/

namespace CocoNet

/-! ## Events and their connections -/

private theorem establishedRelayed_snoc_closed (events : List ConnectionEvent)
    (closedPeer : PeerId) (closedId : ConnectionId) (peer : PeerId)
    (id : ConnectionId) :
    EstablishedRelayed (events ++ [.closed closedPeer closedId]) peer id ↔
      EstablishedRelayed events peer id := by
  simp [establishedRelayed_snoc]

private theorem establishedRelayed_snoc_established
    (events : List ConnectionEvent)
    (newPeer : PeerId) (newId : ConnectionId) (endpoint : ConnectedPoint)
    (peer : PeerId) (id : ConnectionId) :
    EstablishedRelayed (events ++ [.established newPeer newId endpoint]) peer
        id ↔
      EstablishedRelayed events peer id ∨
        (newPeer = peer ∧ newId = id ∧ isRelayed endpoint = true) := by
  simp [establishedRelayed_snoc, and_assoc]

def ConnectionEvent.establishedId : ConnectionEvent → Option ConnectionId
  | .established _ id _ => some id
  | .closed _ _ => none

theorem eachStep_freshId {events : List ConnectionEvent}
    (distinct : (events.filterMap ConnectionEvent.establishedId).Nodup) :
    StepMachine.EachStep FreshId events := by
  intro earlier event later shape
  cases event with
  | closed peer id =>
      exact trivial
  | established peer id endpoint =>
      intro other otherEndpoint member
      rw [shape, List.filterMap_append, List.filterMap_cons] at distinct
      have disjoint := (List.nodup_append.mp distinct).2.2
      refine disjoint id ?_ id (by simp [ConnectionEvent.establishedId]) rfl
      exact List.mem_filterMap.mpr ⟨_, member, rfl⟩

/-! ## The invariant -/

/-- What the two collections and the closed connections are, by what happened
so far. -/
structure Bookkeeping (events : List ConnectionEvent) (state : ConnState)
    (closes : List ConnectionId) : Prop where
  unique : ∀ first second id firstEndpoint secondEndpoint,
    .established first id firstEndpoint ∈ events →
    .established second id secondEndpoint ∈ events →
      first = second ∧ firstEndpoint = secondEndpoint
  listed : ∀ peer id, id ∈ state.relayedConns peer ↔
    EstablishedRelayed events peer id ∧ peer ∉ state.directPeers
  dropped : ∀ id, id ∈ closes ↔
    ∃ peer, peer ∈ state.directPeers ∧ EstablishedRelayed events peer id
  listsNodup : ∀ peer, (state.relayedConns peer).Nodup
  closesNodup : closes.Nodup

theorem Bookkeeping.start : Bookkeeping [] connections.start [] where
  unique first second id firstEndpoint secondEndpoint member := by
    cases member
  listed peer id := by
    simp [connections, EstablishedRelayed]
  dropped id := by
    simp [connections]
  listsNodup peer := List.nodup_nil
  closesNodup := List.nodup_nil

section Step

variable {events : List ConnectionEvent} {state : ConnState}
variable {closes : List ConnectionId}
variable (books : Bookkeeping events state closes)
include books

private theorem Bookkeeping.unique_snoc {event : ConnectionEvent}
    (fresh : FreshId events event) :
    ∀ first second id firstEndpoint secondEndpoint,
      .established first id firstEndpoint ∈ events ++ [event] →
      .established second id secondEndpoint ∈ events ++ [event] →
        first = second ∧ firstEndpoint = secondEndpoint := by
  intro first second id firstEndpoint secondEndpoint firstMember secondMember
  rcases List.mem_append.mp firstMember with firstOld | firstNew <;>
    rcases List.mem_append.mp secondMember with secondOld | secondNew
  · exact books.unique first second id firstEndpoint secondEndpoint
      firstOld secondOld
  · rw [← List.mem_singleton.mp secondNew] at fresh
    exact absurd firstOld (fresh first firstEndpoint)
  · rw [← List.mem_singleton.mp firstNew] at fresh
    exact absurd secondOld (fresh second secondEndpoint)
  · have same :=
      (List.mem_singleton.mp firstNew).trans
        (List.mem_singleton.mp secondNew).symm
    obtain ⟨samePeer, _, sameEndpoint⟩ :=
      ConnectionEvent.established.inj same
    exact ⟨samePeer, sameEndpoint⟩

theorem Bookkeeping.closed (peer : PeerId) (id : ConnectionId) :
    Bookkeeping (events ++ [.closed peer id]) state closes := by
  refine ⟨books.unique_snoc trivial, ?_, ?_, books.listsNodup,
    books.closesNodup⟩
  · intro other otherId
    rw [establishedRelayed_snoc_closed]
    exact books.listed other otherId
  · intro otherId
    simp only [establishedRelayed_snoc_closed]
    exact books.dropped otherId

private theorem Bookkeeping.fresh_notMem {peer : PeerId} {id : ConnectionId}
    {endpoint : ConnectedPoint}
    (fresh : FreshId events (.established peer id endpoint)) :
    id ∉ closes ∧ ∀ other, id ∉ state.relayedConns other := by
  constructor
  · intro closed
    rcases (books.dropped id).1 closed with ⟨owner, _, oldEndpoint, before, _⟩
    exact fresh owner oldEndpoint before
  · intro other listed
    obtain ⟨⟨oldEndpoint, before, _⟩, _⟩ := (books.listed other id).1 listed
    exact fresh other oldEndpoint before

private theorem Bookkeeping.relayed_direct {peer : PeerId} {id : ConnectionId}
    {endpoint : ConnectedPoint} (relayed : isRelayed endpoint = true)
    (direct : peer ∈ state.directPeers)
    (fresh : FreshId events (.established peer id endpoint)) :
    Bookkeeping (events ++ [.established peer id endpoint]) state
      (closes ++ [id]) := by
  refine ⟨books.unique_snoc fresh, ?_, ?_, books.listsNodup, ?_⟩
  · intro other otherId
    rw [books.listed, establishedRelayed_snoc_established]
    constructor
    · intro ⟨before, notDirect⟩
      exact ⟨Or.inl before, notDirect⟩
    · intro ⟨found, notDirect⟩
      rcases found with before | ⟨same, _⟩
      · exact ⟨before, notDirect⟩
      · subst same
        exact absurd direct notDirect
  · intro otherId
    simp only [List.mem_append, List.mem_singleton, books.dropped,
      establishedRelayed_snoc_established]
    constructor
    · intro found
      rcases found with ⟨other, otherDirect, before⟩ | same
      · exact ⟨other, otherDirect, Or.inl before⟩
      · exact ⟨peer, direct, Or.inr ⟨rfl, same.symm, relayed⟩⟩
    · intro ⟨other, otherDirect, found⟩
      rcases found with before | ⟨_, same, _⟩
      · exact Or.inl ⟨other, otherDirect, before⟩
      · exact Or.inr same.symm
  · rw [← List.concat_eq_append]
    exact books.closesNodup.concat (books.fresh_notMem fresh).1

theorem Bookkeeping.relayed {peer : PeerId} {id : ConnectionId}
    {endpoint : ConnectedPoint} (relayed : isRelayed endpoint = true)
    (notDirect : peer ∉ state.directPeers)
    (fresh : FreshId events (.established peer id endpoint)) :
    Bookkeeping (events ++ [.established peer id endpoint])
      { state with
        relayedConns :=
          Function.update state.relayedConns peer
            (state.relayedConns peer ++ [id]) }
      closes := by
  refine ⟨books.unique_snoc fresh, ?_, ?_, ?_, books.closesNodup⟩
  · intro other otherId
    rw [establishedRelayed_snoc_established]
    by_cases same : other = peer
    · subst same
      simp only [Function.update_self, List.mem_append, List.mem_singleton,
        books.listed]
      constructor
      · intro found
        rcases found with ⟨before, _⟩ | new
        · exact ⟨Or.inl before, notDirect⟩
        · exact ⟨Or.inr ⟨trivial, new.symm, relayed⟩, notDirect⟩
      · intro ⟨found, _⟩
        rcases found with before | ⟨_, new, _⟩
        · exact Or.inl ⟨before, notDirect⟩
        · exact Or.inr new.symm
    · simp only [Function.update_of_ne same, books.listed]
      constructor
      · intro ⟨before, otherNotDirect⟩
        exact ⟨Or.inl before, otherNotDirect⟩
      · intro ⟨found, otherNotDirect⟩
        rcases found with before | ⟨new, _⟩
        · exact ⟨before, otherNotDirect⟩
        · exact absurd new.symm same
  · intro otherId
    simp only [books.dropped, establishedRelayed_snoc_established]
    constructor
    · intro ⟨other, otherDirect, before⟩
      exact ⟨other, otherDirect, Or.inl before⟩
    · intro ⟨other, otherDirect, found⟩
      rcases found with before | ⟨same, _⟩
      · exact ⟨other, otherDirect, before⟩
      · subst same
        exact absurd otherDirect notDirect
  · intro other
    by_cases same : other = peer
    · subst same
      simp only [Function.update_self]
      rw [← List.concat_eq_append]
      exact (books.listsNodup other).concat
        ((books.fresh_notMem fresh).2 other)
    · simpa only [Function.update_of_ne same] using books.listsNodup other

theorem Bookkeeping.direct {peer : PeerId} {id : ConnectionId}
    {endpoint : ConnectedPoint} (direct : isRelayed endpoint = false)
    (fresh : FreshId events (.established peer id endpoint)) :
    Bookkeeping (events ++ [.established peer id endpoint])
      ⟨Function.update state.relayedConns peer [],
        insert peer state.directPeers⟩
      (closes ++ state.relayedConns peer) := by
  have same : ∀ other otherId,
      EstablishedRelayed (events ++ [.established peer id endpoint]) other
          otherId ↔
        EstablishedRelayed events other otherId := by
    intro other otherId
    simp [establishedRelayed_snoc_established, direct]
  refine ⟨books.unique_snoc fresh, ?_, ?_, ?_, ?_⟩
  · intro other otherId
    rw [same]
    by_cases isPeer : other = peer
    · subst isPeer
      simp
    · simp only [Function.update_of_ne isPeer, books.listed,
        Finset.mem_insert, isPeer, false_or]
  · intro otherId
    simp only [same, List.mem_append, books.dropped, books.listed,
      Finset.mem_insert]
    constructor
    · intro found
      rcases found with ⟨other, otherDirect, before⟩ | ⟨before, _⟩
      · exact ⟨other, Or.inr otherDirect, before⟩
      · exact ⟨peer, Or.inl rfl, before⟩
    · intro ⟨other, otherDirect, before⟩
      by_cases already : other ∈ state.directPeers
      · exact Or.inl ⟨other, already, before⟩
      · rcases otherDirect with isPeer | inDirect
        · subst isPeer
          exact Or.inr ⟨before, already⟩
        · exact absurd inDirect already
  · intro other
    by_cases isPeer : other = peer
    · subst isPeer
      simp
    · simpa only [Function.update_of_ne isPeer] using books.listsNodup other
  · refine List.nodup_append.mpr
      ⟨books.closesNodup, books.listsNodup peer, ?_⟩
    intro dropped droppedMember held heldMember sameId
    subst sameId
    -- A connection that was closed belongs to a peer that was direct.
    obtain ⟨owner, ownerDirect, ownerEndpoint, ownerMember, _⟩ :=
      (books.dropped dropped).1 droppedMember
    obtain ⟨⟨peerEndpoint, peerMember, _⟩, notDirect⟩ :=
      (books.listed peer dropped).1 heldMember
    have samePeer : owner = peer :=
      (books.unique owner peer dropped ownerEndpoint peerEndpoint
        ownerMember peerMember).1
    rw [samePeer] at ownerDirect
    exact notDirect ownerDirect

theorem Bookkeeping.step {event : ConnectionEvent}
    (fresh : FreshId events event) :
    Bookkeeping (events ++ [event]) (connectionStep state event).1
      (closes ++ (connectionStep state event).2) := by
  cases event with
  | closed peer id =>
      simpa only [connectionStep, List.append_nil] using books.closed peer id
  | established peer id endpoint =>
      cases relayed : isRelayed endpoint with
      | false =>
          rw [connectionStep_direct state peer id relayed]
          exact books.direct relayed fresh
      | true =>
          by_cases direct : peer ∈ state.directPeers
          · rw [connectionStep_relayed_direct id relayed direct]
            exact books.relayed_direct relayed direct fresh
          · rw [connectionStep_relayed id relayed direct, List.append_nil]
            exact books.relayed relayed direct fresh

end Step

theorem bookkeeping_of_freshIds {events : List ConnectionEvent}
    (fresh : StepMachine.EachStep FreshId events) :
    Bookkeeping events (connections.stateAfter events)
      (connections.outputsOf events) :=
  connections.invariant FreshId Bookkeeping Bookkeeping.start
    (fun _ _ books freshId => books.step freshId) fresh

/-! ## Held or dropped -/

/-- The connection is held in the list of its peer, which is not direct, and
has not been closed. -/
structure Held (events : List ConnectionEvent) (peer : PeerId)
    (id : ConnectionId) : Prop where
  notDirect : peer ∉ (connections.stateAfter events).directPeers
  once : ((connections.stateAfter events).relayedConns peer).count id = 1
  notClosed : id ∉ connections.outputsOf events

/-- The connection is in no list, its peer is direct, and it has been closed
exactly once. -/
structure Dropped (events : List ConnectionEvent) (peer : PeerId)
    (id : ConnectionId) : Prop where
  direct : peer ∈ (connections.stateAfter events).directPeers
  notListed : ∀ other,
    id ∉ (connections.stateAfter events).relayedConns other
  once : (connections.outputsOf events).count id = 1

private theorem Held.not_dropped {events : List ConnectionEvent} {peer : PeerId}
    {id : ConnectionId} (held : Held events peer id) :
    ¬ Dropped events peer id :=
  fun dropped => held.notDirect dropped.direct

private theorem held_or_dropped {events : List ConnectionEvent}
    (fresh : StepMachine.EachStep FreshId events) {peer : PeerId}
    {id : ConnectionId} (relayed : EstablishedRelayed events peer id) :
    Held events peer id ∨ Dropped events peer id := by
  have books := bookkeeping_of_freshIds fresh
  rcases relayed with ⟨endpoint, member, isRelay⟩
  -- The peer of the connection is the only one that can list or drop it.
  have owner : ∀ other,
      EstablishedRelayed events other id → other = peer := by
    intro other ⟨otherEndpoint, otherMember, _⟩
    exact (books.unique other peer id otherEndpoint endpoint
      otherMember member).1
  by_cases direct : peer ∈ (connections.stateAfter events).directPeers
  · refine Or.inr ⟨direct, ?_, ?_⟩
    · intro other listed
      rcases (books.listed other id).1 listed with ⟨otherRelayed, notDirect⟩
      obtain rfl := owner other otherRelayed
      exact notDirect direct
    · exact List.count_eq_one_of_mem books.closesNodup
        ((books.dropped id).2 ⟨peer, direct, endpoint, member, isRelay⟩)
  · refine Or.inl ⟨direct, ?_, ?_⟩
    · exact List.count_eq_one_of_mem (books.listsNodup peer)
        ((books.listed peer id).2 ⟨⟨endpoint, member, isRelay⟩, direct⟩)
    · intro closed
      rcases (books.dropped id).1 closed with ⟨other, otherDirect, otherRelayed⟩
      obtain rfl := owner other otherRelayed
      exact direct otherDirect

private theorem established_of_mem_append {first second : List ConnectionEvent}
    {peer : PeerId} {id : ConnectionId}
    (relayed : EstablishedRelayed first peer id) :
    EstablishedRelayed (first ++ second) peer id := by
  rcases relayed with ⟨endpoint, member, isRelay⟩
  exact ⟨endpoint, List.mem_append_left second member, isRelay⟩

/-- A step closes relayed connections of the event's own peer only, and the
peer is direct after it. -/
theorem closes_own_relayed {earlier : List ConnectionEvent}
    {event : ConnectionEvent}
    (books : Bookkeeping earlier (connections.stateAfter earlier)
      (connections.outputsOf earlier)) {dropped : ConnectionId}
    (member : dropped ∈
      (connectionStep (connections.stateAfter earlier) event).2) :
    ∃ peer id endpoint, event = .established peer id endpoint ∧
      EstablishedRelayed (earlier ++ [event]) peer dropped ∧
      peer ∈ (connections.stateAfter (earlier ++ [event])).directPeers := by
  rw [StepMachine.stateAfter_snoc]
  change ∃ peer id endpoint, _ ∧ _ ∧
    peer ∈ (connectionStep (connections.stateAfter earlier) event).1.directPeers
  cases event with
  | closed peer id =>
      cases member
  | established peer id endpoint =>
      refine ⟨peer, id, endpoint, rfl, ?_⟩
      cases relayed : isRelayed endpoint with
      | false =>
          rw [connectionStep_direct _ peer id relayed] at member ⊢
          have listed := ((books.listed peer dropped).1 member).1
          exact ⟨established_of_mem_append listed,
            Finset.mem_insert_self _ _⟩
      | true =>
          by_cases direct :
              peer ∈ (connections.stateAfter earlier).directPeers
          · rw [connectionStep_relayed_direct id relayed direct] at member ⊢
            obtain rfl := List.mem_singleton.mp member
            exact ⟨⟨endpoint, by simp, relayed⟩, direct⟩
          · rw [connectionStep_relayed id relayed direct] at member
            cases member

/-- In every run with pairwise distinct connection ids, every relayed
connection is either held or dropped; no direct connection is ever closed; and
what a step closes are relayed connections of the peer that is direct now. -/
theorem relayed_connections_accounted (events : List ConnectionEvent)
    (distinct : (events.filterMap ConnectionEvent.establishedId).Nodup) :
    (∀ peer id, EstablishedRelayed events peer id →
      (Held events peer id ∧ ¬ Dropped events peer id) ∨
        (Dropped events peer id ∧ ¬ Held events peer id)) ∧
      (∀ peer id, EstablishedDirect events peer id →
        id ∉ connections.outputsOf events) ∧
      ∀ earlier event later, events = earlier ++ event :: later →
        ∀ dropped, dropped ∈
            (connectionStep (connections.stateAfter earlier) event).2 →
          ∃ peer id endpoint, event = .established peer id endpoint ∧
            EstablishedRelayed (earlier ++ [event]) peer dropped ∧
            peer ∈ (connections.stateAfter
              (earlier ++ [event])).directPeers := by
  have fresh := eachStep_freshId distinct
  have books := bookkeeping_of_freshIds fresh
  refine ⟨?_, ?_, ?_⟩
  · intro peer id relayed
    rcases held_or_dropped fresh relayed with held | dropped
    · exact Or.inl ⟨held, held.not_dropped⟩
    · exact Or.inr ⟨dropped, fun held => held.not_dropped dropped⟩
  · intro peer id ⟨endpoint, member, direct⟩ closed
    obtain ⟨other, _, otherEndpoint, otherMember, relayed⟩ :=
      (books.dropped id).1 closed
    obtain ⟨_, rfl⟩ :=
      books.unique other peer id otherEndpoint endpoint otherMember member
    rw [direct] at relayed
    cases relayed
  · intro earlier event later shape dropped member
    have before : StepMachine.EachStep FreshId earlier := by
      rw [shape] at fresh
      exact fresh.of_append
    exact closes_own_relayed (bookkeeping_of_freshIds before) member

/-- A relayed connection, then a direct one to the same peer. -/
theorem relayed_connections_accounted_switch :
    Dropped
      [.established ⟨[7]⟩ 1 (.dialer [.p2pCircuit]),
        .established ⟨[7]⟩ 2 (.dialer [])] ⟨[7]⟩ 1 := by
  have accounted :=
    (relayed_connections_accounted
      [.established ⟨[7]⟩ 1 (.dialer [.p2pCircuit]),
        .established ⟨[7]⟩ 2 (.dialer [])] (by decide)).1
      ⟨[7]⟩ 1 ⟨.dialer [.p2pCircuit], by decide, by decide⟩
  have direct :
      (⟨[7]⟩ : PeerId) ∈
        (connections.stateAfter
          [.established ⟨[7]⟩ 1 (.dialer [.p2pCircuit]),
            .established ⟨[7]⟩ 2 (.dialer [])]).directPeers := by
    decide
  rcases accounted with ⟨held, _⟩ | ⟨dropped, _⟩
  · exact absurd direct held.notDirect
  · exact dropped

end CocoNet
