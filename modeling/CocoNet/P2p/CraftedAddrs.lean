import CocoNet.P2p.OwnAddrs

/-!
# Addresses that the two scans read differently

An address is filtered by its components anywhere and dialed, or announced, by
its components before the first `quic-v1`.  The two differ when components
stand behind it, and when the canonical form leaves out what stood there.
-/

namespace CocoNet

open StepMachine

/-! ## Before and from the first `quic-v1` -/

/-- The components from the first `quic-v1` on. -/
def fromQuic (addr : Multiaddr) : Multiaddr :=
  addr.dropWhile fun component => component != .quicV1

private theorem beforeQuic_append_fromQuic (addr : Multiaddr) :
    beforeQuic addr ++ fromQuic addr = addr :=
  List.takeWhile_append_dropWhile

section Last

variable {Item : Type} (pick : Protocol → Option Item)

private theorem last_append (front tail : Multiaddr) :
    ((front ++ tail).filterMap pick).getLast? =
      (tail.filterMap pick).getLast?.or (front.filterMap pick).getLast? := by
  rw [List.filterMap_append, List.getLast?_append]

private theorem last_eq_none_iff {wrap : Item → Protocol}
    (picks : ∀ component item,
      pick component = some item ↔ component = wrap item)
    (addr : Multiaddr) :
    (addr.filterMap pick).getLast? = none ↔ ∀ item, wrap item ∉ addr := by
  rw [List.getLast?_eq_none_iff, List.filterMap_eq_nil_iff]
  constructor
  · intro none item member
    have picked := (picks (wrap item) item).2 rfl
    rw [none _ member] at picked
    cases picked
  · intro none component member
    rw [Option.eq_none_iff_forall_ne_some]
    intro item picked
    rw [(picks component item).1 picked] at member
    exact none item member

end Last

private theorem lastIp4_append (front tail : Multiaddr) :
    lastIp4 (front ++ tail) = (lastIp4 tail).or (lastIp4 front) :=
  last_append Protocol.ip4Addr front tail

private theorem lastUdp_append (front tail : Multiaddr) :
    lastUdp (front ++ tail) = (lastUdp tail).or (lastUdp front) :=
  last_append Protocol.udpPort front tail

private theorem lastIp4_eq_none_iff (addr : Multiaddr) :
    lastIp4 addr = none ↔ ∀ ip, .ip4 ip ∉ addr := by
  apply last_eq_none_iff Protocol.ip4Addr
  intro component item
  cases component <;> simp [Protocol.ip4Addr]

private theorem lastUdp_eq_none_iff (addr : Multiaddr) :
    lastUdp addr = none ↔ ∀ port, .udp port ∉ addr := by
  apply last_eq_none_iff Protocol.udpPort
  intro component item
  cases component <;> simp [Protocol.udpPort]

/-! ## The filter and the endpoint -/

def PublicEndpoint (addr : Multiaddr) : Prop :=
  ∃ ip port, udpIpPort addr = some (ip, port) ∧ isPublicIpv4 ip = true

/-- Whatever stands behind the first `quic-v1` makes no difference: with an
IPv4 address there, the last one before it is public all the same, and with a
UDP port there, there is one before it as well. -/
structure NothingOverrides (addr : Multiaddr) : Prop where
  ip4 : (∃ ip, .ip4 ip ∈ fromQuic addr) →
    ∃ ip, lastIp4 (beforeQuic addr) = some ip ∧ isPublicIpv4 ip = true
  udp : (∃ port, .udp port ∈ fromQuic addr) →
    ∃ port, .udp port ∈ beforeQuic addr

private theorem publicEndpoint_iff (addr : Multiaddr) :
    PublicEndpoint addr ↔
      (∃ ip, lastIp4 (beforeQuic addr) = some ip ∧ isPublicIpv4 ip = true) ∧
        ∃ port, .udp port ∈ beforeQuic addr := by
  have hasUdp : (∃ port, lastUdp (beforeQuic addr) = some port) ↔
      ∃ port, .udp port ∈ beforeQuic addr := by
    rw [← Option.isSome_iff_exists, ← Option.ne_none_iff_isSome, ne_eq,
      lastUdp_eq_none_iff]
    simp only [not_forall, not_not]
  rw [← hasUdp]
  constructor
  · intro ⟨ip, port, endpoint, isPublic⟩
    rcases (udpIpPort_eq_some_iff addr ip port).1 endpoint with
      ⟨isIp, isPort⟩
    exact ⟨⟨ip, isIp, isPublic⟩, port, isPort⟩
  · intro ⟨⟨ip, isIp, isPublic⟩, port, isPort⟩
    exact ⟨ip, port, (udpIpPort_eq_some_iff addr ip port).2 ⟨isIp, isPort⟩,
      isPublic⟩

/-- An address that passes the filter has a public endpoint just when nothing
behind its first `quic-v1` overrides what stands before it. -/
theorem publicEndpoint_iff_of_passes {addr : Multiaddr}
    (passes : isPublicUdpQuic addr = true) :
    PublicEndpoint addr ↔ NothingOverrides addr := by
  obtain ⟨_, _, someUdp, ip, isLast, isPublic⟩ :=
    (isPublicUdpQuic_iff addr).1 passes
  rw [publicEndpoint_iff]
  constructor
  · intro ⟨publicBefore, udpBefore⟩
    exact ⟨fun _ => publicBefore, fun _ => udpBefore⟩
  · intro nothing
    rw [← beforeQuic_append_fromQuic addr] at isLast someUdp
    rw [lastIp4_append] at isLast
    rw [lastUdp_append] at someUdp
    constructor
    · by_cases behind : ∃ other, .ip4 other ∈ fromQuic addr
      · exact nothing.ip4 behind
      · rw [(lastIp4_eq_none_iff _).2 (not_exists.1 behind)] at isLast
        exact ⟨ip, isLast, isPublic⟩
    · by_cases behind : ∃ port, .udp port ∈ fromQuic addr
      · exact nothing.udp behind
      · rw [(lastUdp_eq_none_iff _).2 (not_exists.1 behind),
          Option.none_or] at someUdp
        by_contra none
        rw [(lastUdp_eq_none_iff _).2 (not_exists.1 none)] at someUdp
        cases someUdp

/-! ## What an announcement has dialed -/

private theorem mem_of_mem_dialEach {now : Instant} {peer : PeerId}
    {recent : RecentDials} {addrs : List Multiaddr}
    {dialed : RecentDials × List Multiaddr}
    (dials : dialEach now peer recent addrs = .ok dialed) :
    ∀ addr, addr ∈ dialed.2 → addr ∈ addrs := by
  induction addrs generalizing recent dialed with
  | nil =>
      rw [← Except.ok.inj dials]
      exact fun _ member => member
  | cons first rest inductionHypothesis =>
      rcases Checked.bind_eq_ok dials with ⟨one, oneRuns, more⟩
      rcases Checked.bind_eq_ok more with ⟨others, othersRun, result⟩
      have firstOnly : ∀ addr, addr ∈ one.2 → addr = first := by
        rcases Checked.bind_eq_ok oneRuns with ⟨seed, _, decided⟩
        intro addr member
        split at decided
        · rw [← Except.ok.inj decided] at member
          cases member
        · rw [← Except.ok.inj decided] at member
          exact List.mem_singleton.1 member
      intro addr member
      rw [← Except.ok.inj result] at member
      rcases List.mem_append.1 member with isFirst | later
      · rw [firstOnly addr isFirst]
        exact List.mem_cons_self
      · exact List.mem_cons_of_mem first
          (inductionHypothesis othersRun addr later)

/-- An announcement has only addresses dialed that pass the filter. -/
theorem passes_of_mem_onAnnounce {localPeer : PeerId} {now : Instant}
    {recent : RecentDials} {msg : AnnounceMsg}
    {dialed : RecentDials × List Multiaddr}
    (dials : onAnnounce localPeer now recent msg = .ok dialed)
    {addr : Multiaddr} (member : addr ∈ dialed.2) :
    isPublicUdpQuic addr = true := by
  unfold onAnnounce at dials
  split at dials
  · rw [← Except.ok.inj dials] at member
    cases member
  · split at dials
    · rw [← Except.ok.inj dials] at member
      cases member
    · exact (List.mem_filter.1 (mem_of_mem_dialEach dials addr member)).2

/-- The filter judges the endpoint that is dialed if and only if nothing
behind the first `quic-v1` of an address that passes overrides what stands
before it; and then an announcement that has the address dialed has a public
endpoint dialed. -/
theorem filter_judges_endpoint_iff (addr : Multiaddr) :
    ((isPublicUdpQuic addr = true → PublicEndpoint addr) ↔
      (isPublicUdpQuic addr = true → NothingOverrides addr)) ∧
    ∀ localPeer now recent msg dialed,
      onAnnounce localPeer now recent msg = .ok dialed → addr ∈ dialed.2 →
        (PublicEndpoint addr ↔ NothingOverrides addr) := by
  constructor
  · constructor
    · intro judges passes
      exact (publicEndpoint_iff_of_passes passes).1 (judges passes)
    · intro nothing passes
      exact (publicEndpoint_iff_of_passes passes).2 (nothing passes)
  · intro localPeer now recent msg dialed dials member
    exact publicEndpoint_iff_of_passes (passes_of_mem_onAnnounce dials member)

/-- A private endpoint with a public address behind it. -/
def craftedAddr : Multiaddr :=
  [.ip4 ⟨10, 0, 0, 1⟩, .udp 1, .quicV1, .ip4 ⟨8, 8, 8, 8⟩]

/-- The crafted address passes the filter and is dialed, although its endpoint
is private. -/
theorem crafted_addr_dialed :
    ¬ (isPublicUdpQuic craftedAddr = true → PublicEndpoint craftedAddr) ∧
      udpIpPort craftedAddr = some (⟨10, 0, 0, 1⟩, 1) ∧
      (onAnnounce ⟨[1]⟩ 60000 (fun _ _ => none)
          ⟨some ⟨[7]⟩, [some craftedAddr]⟩).map Prod.snd =
        .ok [craftedAddr] := by
  refine ⟨?_, by decide, by decide +kernel⟩
  intro judges
  obtain ⟨ip, port, endpoint, isPublic⟩ := judges (by decide)
  cases endpoint
  cases isPublic

/-! ## The node's own endpoints -/

/-- The address is a direct QUIC address for the endpoint of `canonical`. -/
structure DirectQuic (address canonical : Multiaddr) : Prop where
  noCircuit : .p2pCircuit ∉ address
  quic : .quicV1 ∈ address
  ip4 : (beforeQuic address).filterMap Protocol.ip4Addr =
    (beforeQuic canonical).filterMap Protocol.ip4Addr
  udp : (beforeQuic address).filterMap Protocol.udpPort =
    (beforeQuic canonical).filterMap Protocol.udpPort

/-- Whatever the loop inserts when the address is reported is the endpoint of
that address. -/
def InsertsDirectly (address : Multiaddr) : Prop :=
  ∀ (config : NodeConfig) (state : LoopState) (surroundings : Surroundings)
    (event : LoopEvent) (inserted : Multiaddr),
    state.status = .running → event.reportedAddr = some address →
    inserted ∉ state.announcing.myAddrs →
    inserted ∈ ((eventLoop config).step state
        (surroundings, event)).1.announcing.myAddrs →
    DirectQuic address inserted

private theorem mem_myAddrs_step_iff (config : NodeConfig) {state : LoopState}
    (running : state.status = .running) (surroundings : Surroundings)
    {event : LoopEvent} {address : Multiaddr}
    (reports : event.reportedAddr = some address) (addr : Multiaddr) :
    addr ∈ ((eventLoop config).step state
        (surroundings, event)).1.announcing.myAddrs ↔
      addr ∈ state.announcing.myAddrs ∨ publicForm address = some addr := by
  have nobody : event.dialsFor = none := by
    cases event with
    | uplink event =>
        rfl
    | swarm event =>
        cases event with
        | gossip source message =>
            cases reports
        | identifyReceived peer listenAddrs =>
            cases reports
        | _ =>
            rfl
  have noUnderflow : ¬ Underflows config state (surroundings, event) :=
    fun underflows => underflows.1 (offers_of_none config state nobody)
  rw [(step_announcesFrom config running noUnderflow).announcing,
    announceFrom_myAddrs, mem_announcesFrom_iff]
  simp [reports]

private theorem publicForm_eq_some_iff_endpoint
    (address canonical : Multiaddr) :
    publicForm address = some canonical ↔
      ∃ ip port, udpIpPort address = some (ip, port) ∧
        isPublicIpv4 ip = true ∧ canonical = canonicalAddr ip port := by
  rw [publicForm_eq_some_iff, rebuildUdpQuic_eq_some_iff]
  constructor
  · intro ⟨⟨ip, port, endpoint, same⟩, isPublic⟩
    rw [same, isPublicUdpQuic_canonicalAddr] at isPublic
    exact ⟨ip, port, endpoint, isPublic, same⟩
  · intro ⟨ip, port, endpoint, isPublic, same⟩
    refine ⟨⟨ip, port, endpoint, same⟩, ?_⟩
    rwa [same, isPublicUdpQuic_canonicalAddr]

/-- A list that ends in an item holds nothing else just when its length is
one. -/
theorem eq_singleton_iff_of_getLast? {Item : Type} {items : List Item}
    {item : Item} (isLast : items.getLast? = some item) :
    items = [item] ↔ items.length = 1 := by
  constructor
  · intro same
    rw [same]
    rfl
  · intro single
    obtain ⟨only, isOnly⟩ := List.length_eq_one_iff.1 single
    rw [isOnly, List.getLast?_singleton, Option.some.injEq] at isLast
    rw [isOnly, isLast]

/-- An address with a public endpoint is a direct QUIC address for it just when
it has no circuit, a `quic-v1`, and one IPv4 address and one UDP port before
it. -/
theorem directQuic_canonicalAddr_iff {address : Multiaddr} {ip : Ipv4Addr}
    {port : UInt16} (endpoint : udpIpPort address = some (ip, port)) :
    DirectQuic address (canonicalAddr ip port) ↔
      .p2pCircuit ∉ address ∧ .quicV1 ∈ address ∧
        ((beforeQuic address).filterMap Protocol.ip4Addr).length = 1 ∧
        ((beforeQuic address).filterMap Protocol.udpPort).length = 1 := by
  rcases (udpIpPort_eq_some_iff address ip port).1 endpoint with
    ⟨isIp, isPort⟩
  rw [← eq_singleton_iff_of_getLast? isIp,
    ← eq_singleton_iff_of_getLast? isPort]
  constructor
  · intro direct
    exact ⟨direct.noCircuit, direct.quic, direct.ip4, direct.udp⟩
  · intro ⟨noCircuit, quic, ip4, udp⟩
    exact ⟨noCircuit, quic, ip4, udp⟩

/-- Whatever is inserted for a reported address is its own direct endpoint if
and only if an address with a public endpoint before its first `quic-v1` has no
circuit, has a `quic-v1`, and has one IPv4 address and one UDP port before
it. -/
theorem inserts_directly_iff (address : Multiaddr) :
    InsertsDirectly address ↔
      (PublicEndpoint address →
        .p2pCircuit ∉ address ∧ .quicV1 ∈ address ∧
          ((beforeQuic address).filterMap Protocol.ip4Addr).length = 1 ∧
          ((beforeQuic address).filterMap Protocol.udpPort).length = 1) := by
  constructor
  · intro directly ⟨ip, port, endpoint, isPublic⟩
    apply (directQuic_canonicalAddr_iff endpoint).1
    have form : publicForm address = some (canonicalAddr ip port) :=
      (publicForm_eq_some_iff_endpoint _ _).2
        ⟨ip, port, endpoint, isPublic, rfl⟩
    apply directly ⟨⟨[]⟩, ⟨0, 0⟩⟩ (LoopState.initial ⟨⟨[]⟩, ⟨0, 0⟩⟩)
      ⟨0, 0, true⟩ (.swarm (.newListenAddr address)) _ rfl rfl
    · exact Finset.notMem_empty _
    · exact (mem_myAddrs_step_iff _ rfl _ rfl _).2 (Or.inr form)
  · intro condition config state surroundings event inserted running reports
      absent present
    rcases (mem_myAddrs_step_iff config running surroundings reports _).1
      present with before | form
    · exact absurd before absent
    · obtain ⟨ip, port, endpoint, isPublic, same⟩ :=
        (publicForm_eq_some_iff_endpoint _ _).1 form
      rw [same]
      exact (directQuic_canonicalAddr_iff endpoint).2
        (condition ⟨ip, port, endpoint, isPublic⟩)

/-- The address of a listener on a relay. -/
def relayedAddr : Multiaddr :=
  [.ip4 ⟨8, 8, 8, 8⟩, .udp 4001, .quicV1, .p2p ⟨[9]⟩, .p2pCircuit]

/-- A UDP address of another transport. -/
def otherTransportAddr : Multiaddr :=
  [.ip4 ⟨8, 8, 4, 4⟩, .udp 51820]

/-- The relay's endpoint and the endpoint of another transport are inserted as
the node's own. -/
theorem foreign_endpoints_inserted :
    ((eventLoop ⟨⟨[1]⟩, ⟨64, 8⟩⟩).stateAfter
        [(⟨60000, 0, true⟩, .swarm (.newListenAddr relayedAddr)),
          (⟨60001, 0, true⟩,
            .swarm (.newListenAddr otherTransportAddr))]).announcing.myAddrs =
        {canonicalAddr ⟨8, 8, 8, 8⟩ 4001, canonicalAddr ⟨8, 8, 4, 4⟩ 51820} ∧
      ¬ InsertsDirectly relayedAddr ∧ ¬ InsertsDirectly otherTransportAddr := by
  refine ⟨by decide +kernel, ?_, ?_⟩
  · intro directly
    have direct := directly ⟨⟨[1]⟩, ⟨64, 8⟩⟩
      (LoopState.initial ⟨⟨[1]⟩, ⟨64, 8⟩⟩) ⟨60000, 0, true⟩
      (.swarm (.newListenAddr relayedAddr)) (canonicalAddr ⟨8, 8, 8, 8⟩ 4001)
      rfl rfl (by decide) (by decide +kernel)
    exact direct.noCircuit (by decide)
  · intro directly
    have direct := directly ⟨⟨[1]⟩, ⟨64, 8⟩⟩
      (LoopState.initial ⟨⟨[1]⟩, ⟨64, 8⟩⟩) ⟨60000, 0, true⟩
      (.swarm (.newListenAddr otherTransportAddr))
      (canonicalAddr ⟨8, 8, 4, 4⟩ 51820) rfl rfl (by decide)
      (by decide +kernel)
    exact absurd direct.quic (by decide)

end CocoNet
