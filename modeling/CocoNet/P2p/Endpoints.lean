import CocoNet.P2p.Multiaddr

/-!
# What the two scans find

`udp_ip_port` finds the last IPv4 address and the last UDP port before the
first `quic-v1`.  `is_public_udp_quic` looks at the whole address: the last
IPv4 address anywhere, whether there is a UDP port and a `quic-v1` anywhere,
and no circuit.  The two are stated here by the components of the address, so
that they can be compared.
-/

namespace CocoNet

/-! ## Components -/

def Protocol.ip4Addr : Protocol → Option Ipv4Addr
  | .ip4 addr => some addr
  | _ => none

def Protocol.udpPort : Protocol → Option UInt16
  | .udp port => some port
  | _ => none

def lastIp4 (addr : Multiaddr) : Option Ipv4Addr :=
  (addr.filterMap Protocol.ip4Addr).getLast?

def lastUdp (addr : Multiaddr) : Option UInt16 :=
  (addr.filterMap Protocol.udpPort).getLast?

/-- The components before the first `quic-v1`. -/
def beforeQuic (addr : Multiaddr) : Multiaddr :=
  addr.takeWhile fun component => component != .quicV1

/-- The last item of a list with a head, given the last item of its tail. -/
theorem getLast?_cons_or {Item : Type} (head : Item) (tail : List Item) :
    (head :: tail).getLast? = tail.getLast?.or (some head) := by
  rw [List.getLast?_cons]
  cases tail.getLast? <;> rfl

@[simp]
theorem lastIp4_cons_ip4 (ip : Ipv4Addr) (rest : Multiaddr) :
    lastIp4 (.ip4 ip :: rest) = (lastIp4 rest).or (some ip) :=
  getLast?_cons_or ip _

private theorem lastIp4_cons_other {component : Protocol}
    (other : component.ip4Addr = none) (rest : Multiaddr) :
    lastIp4 (component :: rest) = lastIp4 rest := by
  rw [lastIp4, List.filterMap_cons_none other, lastIp4]

@[simp]
theorem lastUdp_cons_udp (port : UInt16) (rest : Multiaddr) :
    lastUdp (.udp port :: rest) = (lastUdp rest).or (some port) :=
  getLast?_cons_or port _

private theorem lastUdp_cons_other {component : Protocol}
    (other : component.udpPort = none) (rest : Multiaddr) :
    lastUdp (component :: rest) = lastUdp rest := by
  rw [lastUdp, List.filterMap_cons_none other, lastUdp]

@[simp]
theorem beforeQuic_cons_quicV1 (rest : Multiaddr) :
    beforeQuic (.quicV1 :: rest) = [] :=
  rfl

private theorem beforeQuic_cons_other {component : Protocol}
    (other : component ≠ .quicV1) (rest : Multiaddr) :
    beforeQuic (component :: rest) = component :: beforeQuic rest := by
  rw [beforeQuic, List.takeWhile_cons_of_pos (by simpa using other),
    beforeQuic]

/-! ## The endpoint -/

private theorem scanIpPort_eq (ip : Option Ipv4Addr) (port : Option UInt16)
    (addr : Multiaddr) :
    scanIpPort ip port addr =
      ((lastIp4 (beforeQuic addr)).or ip,
        (lastUdp (beforeQuic addr)).or port) := by
  induction addr generalizing ip port with
  | nil =>
      rfl
  | cons component rest inductionHypothesis =>
      cases component with
      | quicV1 =>
          rfl
      | ip4 found =>
          rw [scanIpPort, inductionHypothesis,
            beforeQuic_cons_other (by simp), lastIp4_cons_ip4,
            lastUdp_cons_other rfl, Option.or_assoc]
          rfl
      | udp found =>
          rw [scanIpPort, inductionHypothesis,
            beforeQuic_cons_other (by simp), lastUdp_cons_udp,
            lastIp4_cons_other rfl, Option.or_assoc]
          rfl
      | p2p peer | p2pCircuit | other code data =>
          rw [scanIpPort, inductionHypothesis,
            beforeQuic_cons_other (by simp), lastIp4_cons_other rfl,
            lastUdp_cons_other rfl]

/-- The endpoint is the last IPv4 address and the last UDP port before the
first `quic-v1`. -/
theorem udpIpPort_eq_some_iff (addr : Multiaddr) (ip : Ipv4Addr)
    (port : UInt16) :
    udpIpPort addr = some (ip, port) ↔
      lastIp4 (beforeQuic addr) = some ip ∧
        lastUdp (beforeQuic addr) = some port := by
  rw [udpIpPort, scanIpPort_eq, Option.or_none, Option.or_none]
  cases lastIp4 (beforeQuic addr) <;> cases lastUdp (beforeQuic addr) <;> simp

/-- `/ip4/<ip>/udp/<port>/quic-v1`. -/
def canonicalAddr (ip : Ipv4Addr) (port : UInt16) : Multiaddr :=
  [.ip4 ip, .udp port, .quicV1]

theorem udpIpPort_canonicalAddr (ip : Ipv4Addr) (port : UInt16) :
    udpIpPort (canonicalAddr ip port) = some (ip, port) :=
  rfl

theorem rebuildUdpQuic_eq_some_iff (addr canonical : Multiaddr) :
    rebuildUdpQuic addr = some canonical ↔
      ∃ ip port, udpIpPort addr = some (ip, port) ∧
        canonical = canonicalAddr ip port := by
  rw [rebuildUdpQuic]
  cases found : udpIpPort addr with
  | none =>
      simp
  | some endpoint =>
      rcases endpoint with ⟨ip, port⟩
      simp only [Option.some.injEq, Prod.mk.injEq]
      constructor
      · intro same
        exact ⟨ip, port, ⟨rfl, rfl⟩, same.symm⟩
      · intro ⟨otherIp, otherPort, ⟨sameIp, samePort⟩, same⟩
        rw [same, ← sameIp, ← samePort]
        rfl

/-! ## The filter -/

private theorem scanUdpQuic_eq (seen : QuicScan) (addr : Multiaddr) :
    scanUdpQuic seen addr =
      if hasCircuit addr then none
      else some ⟨(lastIp4 addr).or seen.ip4,
        seen.udp || (lastUdp addr).isSome,
        seen.quic || decide (.quicV1 ∈ addr)⟩ := by
  induction addr generalizing seen with
  | nil =>
      simp [scanUdpQuic, hasCircuit, lastIp4, lastUdp]
  | cons component rest inductionHypothesis =>
      cases component with
      | p2pCircuit =>
          rfl
      | ip4 found =>
          rw [scanUdpQuic, inductionHypothesis, lastUdp_cons_other rfl,
            lastIp4_cons_ip4, Option.or_assoc]
          simp [hasCircuit]
      | udp found =>
          rw [scanUdpQuic, inductionHypothesis, lastIp4_cons_other rfl,
            lastUdp_cons_udp]
          simp [hasCircuit]
      | quicV1 =>
          rw [scanUdpQuic, inductionHypothesis, lastIp4_cons_other rfl,
            lastUdp_cons_other rfl]
          simp [hasCircuit]
      | p2p peer | other code data =>
          rw [scanUdpQuic, inductionHypothesis, lastIp4_cons_other rfl,
            lastUdp_cons_other rfl]
          simp [hasCircuit]

/-- What passes the filter: no circuit, a `quic-v1` and a UDP port anywhere,
and a last IPv4 address that is public. -/
theorem isPublicUdpQuic_iff (addr : Multiaddr) :
    isPublicUdpQuic addr = true ↔
      hasCircuit addr = false ∧ .quicV1 ∈ addr ∧
        (lastUdp addr).isSome = true ∧
        ∃ ip, lastIp4 addr = some ip ∧ isPublicIpv4 ip = true := by
  rw [isPublicUdpQuic, scanUdpQuic_eq]
  cases circuit : hasCircuit addr with
  | true =>
      simp
  | false =>
      cases ip : lastIp4 addr <;> cases udp : (lastUdp addr).isSome <;>
        by_cases quic : .quicV1 ∈ addr <;> simp [quic]

theorem isPublicUdpQuic_canonicalAddr (ip : Ipv4Addr) (port : UInt16) :
    isPublicUdpQuic (canonicalAddr ip port) = isPublicIpv4 ip :=
  rfl

end CocoNet
