import CocoNet.P2p.Connections

/-!
# The two ends of one connection

The dialer of a relayed connection sees the address it dialed, which goes
through a circuit.  The listener sees the relay's address followed by
`/p2p-circuit` as its own, and only the source peer as the address to send back
to.  The event loop looks at the dialed address on one side and at the
send-back address on the other.
-/

namespace CocoNet

/-- A connection without a relay: no address of it goes through a circuit. -/
structure DirectConnection where
  dialed : Multiaddr
  localAddr : Multiaddr
  sendBackAddr : Multiaddr
  dialed_plain : hasCircuit dialed = false
  local_plain : hasCircuit localAddr = false
  sendBack_plain : hasCircuit sendBackAddr = false

/-- A connection through the relay at `relay`, opened by `source`. -/
structure RelayedConnection where
  dialed : Multiaddr
  relay : Multiaddr
  source : PeerId
  dialed_circuit : hasCircuit dialed = true

inductive NodeConnection where
  | direct (connection : DirectConnection)
  | relayed (connection : RelayedConnection)

namespace NodeConnection

def throughCircuit : NodeConnection → Bool
  | .direct _ => false
  | .relayed _ => true

def dialerEnd : NodeConnection → ConnectedPoint
  | .direct connection => .dialer connection.dialed
  | .relayed connection => .dialer connection.dialed

def listenerEnd : NodeConnection → ConnectedPoint
  | .direct connection =>
      .listener connection.localAddr connection.sendBackAddr
  | .relayed connection =>
      .listener (connection.relay ++ [.p2pCircuit])
        [.p2p connection.source]

theorem isRelayed_dialerEnd (connection : NodeConnection) :
    isRelayed connection.dialerEnd = connection.throughCircuit := by
  cases connection with
  | direct connection =>
      exact connection.dialed_plain
  | relayed connection =>
      exact connection.dialed_circuit

theorem isRelayed_listenerEnd (connection : NodeConnection) :
    isRelayed connection.listenerEnd = false := by
  cases connection with
  | direct connection =>
      exact connection.sendBack_plain
  | relayed connection =>
      exact rfl

structure ClassifiedAlike (connection : NodeConnection) : Prop where
  agree :
    isRelayed connection.dialerEnd = isRelayed connection.listenerEnd
  dialer :
    isRelayed connection.dialerEnd = true ↔ connection.throughCircuit = true
  listener :
    isRelayed connection.listenerEnd = true ↔ connection.throughCircuit = true

/-- The two ends classify a connection alike and rightly if and only if it does
not run through a circuit. -/
theorem classifiedAlike_iff (connection : NodeConnection) :
    ClassifiedAlike connection ↔ connection.throughCircuit = false := by
  have dialer := isRelayed_dialerEnd connection
  have listener := isRelayed_listenerEnd connection
  constructor
  · intro alike
    rw [← dialer, alike.agree, listener]
  · intro plain
    refine ⟨?_, ?_, ?_⟩
    · rw [dialer, plain, listener]
    · rw [dialer]
    · rw [listener, plain]

/-- Peer 7 reaches this node through the relay 9: the dialer takes the
connection for relayed, the listener does not. -/
theorem relayed_connection_classified_apart :
    ∃ connection : NodeConnection,
      connection.throughCircuit = true ∧
        isRelayed connection.dialerEnd = true ∧
        isRelayed connection.listenerEnd = false ∧
        ¬ ClassifiedAlike connection := by
  refine ⟨.relayed
    ⟨[.ip4 ⟨203, 0, 114, 5⟩, .udp 4001, .quicV1, .p2p ⟨[9]⟩, .p2pCircuit,
        .p2p ⟨[1]⟩],
      [.ip4 ⟨203, 0, 114, 5⟩, .udp 4001, .quicV1, .p2p ⟨[9]⟩], ⟨[7]⟩,
      by decide⟩, rfl, by decide, by decide, ?_⟩
  intro alike
  exact absurd alike.agree (by decide)

end NodeConnection

end CocoNet
