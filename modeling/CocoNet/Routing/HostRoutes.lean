import CocoNet.Routing.Datagrams
import CocoNet.Routing.TunBridge

/-!
# Host routes on Windows

On Windows the pump to the device asks for a host route to the destination of
each IPv4 packet, once for each destination, before it writes the packet.  The
fragments of a packet have its destination, so every IPv4 packet that is
written has its route.
-/

namespace CocoNet

open StepMachine

/-- What the pump does: it has a task add a route, which it does not wait for,
or writes to the stream. -/
inductive PumpAction where
  | addHostRoute (ifname : String) (dst : IpAddr)
  | write (bytes : Bytes)
  deriving DecidableEq, Repr

/-- The hosts that have a route, and the route that is added for a packet. -/
def routeHost (ifname : Option String) (routedV4Hosts : List IpAddr)
    (info : PacketMeta) : List IpAddr × List PumpAction :=
  match info.version, ifname with
  | .ipv4, some ifn =>
      if info.dst ∈ routedV4Hosts then (routedV4Hosts, [])
      else (info.dst :: routedV4Hosts, [.addHostRoute ifn info.dst])
  | _, _ => (routedV4Hosts, [])

/-- `pump_p2p_to_tun` on Windows. -/
def pumpP2pToTunWindows (ifname : Option String) (mtu : Nat)
    (respectDf : Bool) : List IpAddr → List Bytes → Checked (List PumpAction)
  | _, [] => .ok []
  | routedV4Hosts, pkt :: rest => do
      let parsed ← parseIpMeta pkt
      let (hosts, routes) :=
        match parsed with
        | some info => routeHost ifname routedV4Hosts info
        | none => (routedV4Hosts, [])
      let writes ← pumpPacket mtu respectDf pkt
      let others ← pumpP2pToTunWindows ifname mtu respectDf hosts rest
      .ok (routes ++ writes.map .write ++ others)

/-- The destination of an IPv4 packet that is long enough to have one. -/
def ipv4Destination (pkt : Bytes) : Option IpAddr :=
  if Ipv4.version pkt = 4 ∧ 20 ≤ pkt.length then
    some (.v4 (Ipv4.destination pkt))
  else none

def writesIn (actions : List PumpAction) : List Bytes :=
  actions.filterMap fun action =>
    match action with
    | .write bytes => some bytes
    | .addHostRoute _ _ => none

/-! ## The host of a packet -/

/-- The destination that a parsed packet has a route added for. -/
def hostOfMeta (parsed : Option PacketMeta) : Option IpAddr :=
  parsed.bind fun info =>
    if info.version = .ipv4 then some info.dst else none

private theorem parseIpMeta_version4 {pkt : Bytes}
    (version4 : Ipv4.version pkt = 4) :
    ∃ parsed, parseIpMeta pkt = .ok parsed ∧
      hostOfMeta parsed = ipv4Destination pkt := by
  have nibble : (Ipv4.byteAt pkt 0).toNat >>> 4 = 4 := version4
  have small := Ipv4.ihl_le pkt
  by_cases empty : pkt.length < 1
  · refine ⟨none, by rw [parseIpMeta, if_pos empty], ?_⟩
    rw [ipv4Destination, if_neg (by omega)]
    rfl
  · rw [parseIpMeta, if_neg empty, index_eq_byteAt (by omega),
      Checked.ok_bind]
    simp only [nibble]
    by_cases short : pkt.length < 20
    · refine ⟨none, if_pos short, ?_⟩
      rw [ipv4Destination, if_neg (by omega)]
      rfl
    · rw [if_neg short, mul_ihl, Checked.ok_bind,
        Checked.add_eq_ok (by unfold usizeBound; omega), Checked.ok_bind,
        index_eq_byteAt (by omega), Checked.ok_bind,
        Checked.slice_eq_ok (by omega) (by omega), Checked.ok_bind,
        Checked.slice_eq_ok (by omega) (by omega), Checked.ok_bind]
      refine ⟨_, rfl, ?_⟩
      rw [ipv4Destination, if_pos ⟨version4, by omega⟩]
      rfl

private theorem parseIpMeta_host (pkt : Bytes) :
    ∃ parsed, parseIpMeta pkt = .ok parsed ∧
      hostOfMeta parsed = ipv4Destination pkt := by
  by_cases version4 : Ipv4.version pkt = 4
  · exact parseIpMeta_version4 version4
  · have noHost : ipv4Destination pkt = none :=
      if_neg fun both => version4 both.1
    rw [noHost, parseIpMeta]
    by_cases empty : pkt.length < 1
    · exact ⟨none, if_pos empty, rfl⟩
    · rw [if_neg empty, index_eq_byteAt (by omega), Checked.ok_bind]
      split
      · rename_i nibble
        exact absurd nibble version4
      · by_cases short : pkt.length < 40
        · exact ⟨none, if_pos short, rfl⟩
        · rw [if_neg short, Checked.index_eq_ok (by omega), Checked.ok_bind,
            Checked.slice_eq_ok (by omega) (by omega), Checked.ok_bind,
            Checked.slice_eq_ok (by omega) (by omega), Checked.ok_bind]
          exact ⟨_, rfl, rfl⟩
      · exact ⟨none, rfl, rfl⟩

/-- The writes for a packet, fragments or not, have its destination. -/
theorem ipv4Destination_of_mem_writesOf {mtu : Nat} {respectDf : Bool}
    {pkt bytes : Bytes} (member : bytes ∈ writesOf mtu respectDf pkt) :
    ipv4Destination bytes = ipv4Destination pkt := by
  by_cases cut : Ipv4.version pkt = 4 ∧ Fragmentable pkt mtu respectDf
  · rcases cut with ⟨version4, fragmentable⟩
    rw [writesOf, (pumpPacket_eq mtu respectDf pkt).1 ⟨version4,
      fragmentable⟩] at member
    have version := version_fragmentsOf fragmentable member
    have same := fragmentsOf_sameHeader fragmentable member
    have header := fragmentable.header
    have long := fragmentable.long
    have whole : 20 ≤ bytes.length := by
      rcases List.mem_map.mp member with ⟨piece, _, shape⟩
      have length : bytes.length = Ipv4.ihl pkt + piece.data.length := by
        rw [← shape]
        exact length_fragmentFor fragmentable.sound piece
      omega
    rw [ipv4Destination, ipv4Destination, same.destination, version,
      if_pos ⟨version4, whole⟩, if_pos ⟨version4, by omega⟩]
  · rw [writesOf, (pumpPacket_eq mtu respectDf pkt).2 cut,
      List.mem_singleton] at member
    rw [member]

/-! ## Which routes are added -/

/-- A route is added for each destination once, unless it has one, before the
first write to it, and for no other destination. -/
structure RoutesHosts (ifn : String) (routed : List IpAddr)
    (actions : List PumpAction) : Prop where
  once : EachStep (fun earlier action =>
    ∀ name dst, action = .addHostRoute name dst →
      name = ifn ∧ dst ∉ routed ∧ .addHostRoute ifn dst ∉ earlier) actions
  before : EachStep (fun earlier action =>
    ∀ bytes dst, action = .write bytes → ipv4Destination bytes = some dst →
      dst ∈ routed ∨ .addHostRoute ifn dst ∈ earlier) actions
  wanted : ∀ dst, .addHostRoute ifn dst ∈ actions →
    ∃ bytes, .write bytes ∈ actions ∧ ipv4Destination bytes = some dst

section Routes

variable {ifn : String} {routed : List IpAddr} {actions : List PumpAction}

theorem RoutesHosts.nil : RoutesHosts ifn routed [] where
  once := eachStep_nil _
  before := eachStep_nil _
  wanted := by simp

theorem RoutesHosts.write (routes : RoutesHosts ifn routed actions)
    {bytes : Bytes}
    (hasRoute : ∀ dst, ipv4Destination bytes = some dst → dst ∈ routed) :
    RoutesHosts ifn routed (.write bytes :: actions) where
  once := by
    rw [eachStep_cons_iff]
    refine ⟨nofun, ?_⟩
    intro earlier action later shape name dst isRoute
    obtain ⟨named, fresh, first⟩ :=
      routes.once earlier action later shape name dst isRoute
    exact ⟨named, fresh, by simpa using first⟩
  before := by
    rw [eachStep_cons_iff]
    constructor
    · intro other dst isWrite destination
      obtain rfl := PumpAction.write.inj isWrite
      exact Or.inl (hasRoute dst destination)
    · intro earlier action later shape other dst isWrite destination
      exact (routes.before earlier action later shape other dst isWrite
        destination).imp_right (List.mem_cons_of_mem _)
  wanted := by
    intro dst member
    obtain ⟨other, written, destination⟩ :=
      routes.wanted dst (by simpa using member)
    exact ⟨other, List.mem_cons_of_mem _ written, destination⟩

theorem RoutesHosts.writes (routes : RoutesHosts ifn routed actions)
    {written : List Bytes}
    (haveRoutes : ∀ bytes, bytes ∈ written →
      ∀ dst, ipv4Destination bytes = some dst → dst ∈ routed) :
    RoutesHosts ifn routed (written.map .write ++ actions) := by
  induction written with
  | nil =>
      exact routes
  | cons bytes rest inductionHypothesis =>
      rcases List.forall_mem_cons.1 haveRoutes with ⟨first, others⟩
      exact (inductionHypothesis others).write first

private theorem RoutesHosts.route {dst : IpAddr}
    (routes : RoutesHosts ifn (dst :: routed) actions)
    (fresh : dst ∉ routed)
    (wanted : ∃ bytes, .write bytes ∈ actions ∧
      ipv4Destination bytes = some dst) :
    RoutesHosts ifn routed (.addHostRoute ifn dst :: actions) where
  once := by
    rw [eachStep_cons_iff]
    constructor
    · intro name other isRoute
      rcases PumpAction.addHostRoute.inj isRoute with ⟨rfl, rfl⟩
      exact ⟨rfl, fresh, List.not_mem_nil⟩
    · intro earlier action later shape name other isRoute
      obtain ⟨named, notRouted, first⟩ :=
        routes.once earlier action later shape name other isRoute
      rw [List.mem_cons, not_or] at notRouted
      refine ⟨named, notRouted.2, ?_⟩
      simp [notRouted.1, first]
  before := by
    rw [eachStep_cons_iff]
    refine ⟨nofun, ?_⟩
    intro earlier action later shape bytes other isWrite destination
    rcases routes.before earlier action later shape bytes other isWrite
      destination with member | earlierRoute
    · rcases List.mem_cons.1 member with rfl | already
      · exact Or.inr List.mem_cons_self
      · exact Or.inl already
    · exact Or.inr (List.mem_cons_of_mem _ earlierRoute)
  wanted := by
    have inside : ∀ other, (∃ bytes, .write bytes ∈ actions ∧
        ipv4Destination bytes = some other) →
        ∃ bytes, .write bytes ∈ .addHostRoute ifn dst :: actions ∧
          ipv4Destination bytes = some other := by
      rintro other ⟨bytes, written, destination⟩
      exact ⟨bytes, List.mem_cons_of_mem _ written, destination⟩
    intro other member
    rcases List.mem_cons.1 member with isFirst | later
    · rcases PumpAction.addHostRoute.inj isFirst with ⟨_, rfl⟩
      exact inside other wanted
    · exact inside other (routes.wanted other later)

end Routes

/-- What `routeHost` does, in terms of the destination. -/
def routeDestination (ifname : Option String) (routed : List IpAddr)
    (destination : Option IpAddr) : List IpAddr × List PumpAction :=
  match destination, ifname with
  | some dst, some ifn =>
      if dst ∈ routed then (routed, [])
      else (dst :: routed, [.addHostRoute ifn dst])
  | _, _ => (routed, [])

private theorem routeHost_eq (ifname : Option String) (routed : List IpAddr)
    (info : PacketMeta) :
    routeHost ifname routed info =
      routeDestination ifname routed (hostOfMeta (some info)) := by
  cases isVersion : info.version <;> cases ifname <;>
    simp [routeHost, routeDestination, hostOfMeta, isVersion]

private theorem pumpP2pToTunWindows_cons (ifname : Option String) (mtu : Nat)
    (respectDf : Bool) (routed : List IpAddr) (pkt : Bytes)
    (rest : List Bytes) {others : List PumpAction}
    (runs : pumpP2pToTunWindows ifname mtu respectDf
      (routeDestination ifname routed (ipv4Destination pkt)).1 rest =
        .ok others) :
    pumpP2pToTunWindows ifname mtu respectDf routed (pkt :: rest) =
      .ok ((routeDestination ifname routed (ipv4Destination pkt)).2 ++
        (writesOf mtu respectDf pkt).map .write ++ others) := by
  rcases parseIpMeta_host pkt with ⟨parsed, parses, host⟩
  rw [pumpP2pToTunWindows, parses, Checked.ok_bind]
  rw [← host] at runs ⊢
  cases parsed with
  | none =>
      change pumpP2pToTunWindows ifname mtu respectDf routed rest =
        .ok others at runs
      simp only [pumpPacket_eq_writesOf, Checked.ok_bind]
      rw [runs, Checked.ok_bind]
      rfl
  | some info =>
      simp only [routeHost_eq, pumpPacket_eq_writesOf, Checked.ok_bind]
      rw [runs, Checked.ok_bind]

private theorem writesIn_append (first second : List PumpAction) :
    writesIn (first ++ second) = writesIn first ++ writesIn second :=
  List.filterMap_append

private theorem writesIn_writes (written : List Bytes) :
    writesIn (written.map .write) = written := by
  induction written with
  | nil =>
      rfl
  | cons bytes rest inductionHypothesis =>
      exact congrArg (bytes :: ·) inductionHypothesis

private theorem writesIn_routeDestination (ifname : Option String)
    (routed : List IpAddr) (destination : Option IpAddr) :
    writesIn (routeDestination ifname routed destination).2 = [] := by
  unfold routeDestination
  split
  · split <;> rfl
  · rfl

/-- One packet: its route if its destination has none, and its writes. -/
theorem RoutesHosts.packet {ifn : String} {routed : List IpAddr}
    {actions : List PumpAction} {mtu : Nat} {respectDf : Bool} {pkt : Bytes}
    (routes : RoutesHosts ifn
      (routeDestination (some ifn) routed (ipv4Destination pkt)).1 actions) :
    RoutesHosts ifn routed
      ((routeDestination (some ifn) routed (ipv4Destination pkt)).2 ++
        (writesOf mtu respectDf pkt).map .write ++ actions) := by
  have sameDestination : ∀ bytes, bytes ∈ writesOf mtu respectDf pkt →
      ipv4Destination bytes = ipv4Destination pkt :=
    fun bytes member => ipv4Destination_of_mem_writesOf member
  cases host : ipv4Destination pkt with
  | none =>
      rw [host] at routes sameDestination
      apply RoutesHosts.writes routes
      intro bytes member dst destination
      rw [sameDestination bytes member] at destination
      cases destination
  | some dst =>
      rw [host] at routes sameDestination
      by_cases has : dst ∈ routed
      · simp only [routeDestination, if_pos has] at routes ⊢
        apply RoutesHosts.writes routes
        intro bytes member other destination
        rw [sameDestination bytes member] at destination
        rw [← Option.some.inj destination]
        exact has
      · simp only [routeDestination, if_neg has] at routes ⊢
        have written := @RoutesHosts.writes ifn _ _ routes
          (writesOf mtu respectDf pkt) (by
            intro bytes member other destination
            rw [sameDestination bytes member] at destination
            rw [← Option.some.inj destination]
            exact List.mem_cons_self)
        apply written.route has
        obtain ⟨bytes, rest, shape⟩ :=
          List.exists_cons_of_ne_nil (writesOf_ne_nil mtu respectDf pkt)
        have member : bytes ∈ writesOf mtu respectDf pkt := by simp [shape]
        exact ⟨bytes, List.mem_append_left _ (List.mem_map_of_mem member),
          sameDestination bytes member⟩

private theorem pumpP2pToTunWindows_routes (ifn : String) (mtu : Nat)
    (respectDf : Bool) (routed : List IpAddr) (pkts : List Bytes) :
    ∃ actions,
      pumpP2pToTunWindows (some ifn) mtu respectDf routed pkts =
          .ok actions ∧
        writesIn actions = pkts.flatMap (writesOf mtu respectDf) ∧
        RoutesHosts ifn routed actions := by
  induction pkts generalizing routed with
  | nil =>
      exact ⟨[], rfl, rfl, RoutesHosts.nil⟩
  | cons pkt rest inductionHypothesis =>
      rcases inductionHypothesis
          (routeDestination (some ifn) routed (ipv4Destination pkt)).1 with
        ⟨others, runs, written, routes⟩
      refine ⟨_, pumpP2pToTunWindows_cons _ _ _ _ _ _ runs, ?_,
        routes.packet⟩
      rw [writesIn_append, writesIn_append, writesIn_routeDestination,
        writesIn_writes, written]
      rfl

/-- Without a name of the interface no route is added. -/
theorem pumpP2pToTunWindows_none (mtu : Nat) (respectDf : Bool)
    (routed : List IpAddr) (pkts : List Bytes) :
    pumpP2pToTunWindows none mtu respectDf routed pkts =
      .ok ((pkts.flatMap (writesOf mtu respectDf)).map .write) := by
  induction pkts generalizing routed with
  | nil =>
      rfl
  | cons pkt rest inductionHypothesis =>
      have nothing : routeDestination none routed (ipv4Destination pkt) =
          (routed, []) := by
        cases ipv4Destination pkt <;> rfl
      rw [pumpP2pToTunWindows_cons none mtu respectDf routed pkt rest
        (inductionHypothesis _), nothing, List.flatMap_cons, List.map_append]
      rfl

/-- For any packets from the network, the pump on Windows writes what it writes
elsewhere, and adds a host route, each once, for exactly the destinations of
the IPv4 packets and fragments that it writes, before the first of them. -/
theorem host_routes_exact (ifname : Option String) (mtu : Nat)
    (respectDf : Bool) (pkts : List Bytes) :
    ∃ actions,
      pumpP2pToTunWindows ifname mtu respectDf [] pkts = .ok actions ∧
        pumpP2pToTun mtu respectDf pkts = .ok (writesIn actions) ∧
        (∀ ifn, ifname = some ifn →
          EachStep (fun earlier action =>
            (∀ name dst, action = .addHostRoute name dst →
              name = ifn ∧ .addHostRoute ifn dst ∉ earlier) ∧
            ∀ bytes dst, action = .write bytes →
              ipv4Destination bytes = some dst →
                .addHostRoute ifn dst ∈ earlier) actions ∧
          ∀ dst, .addHostRoute ifn dst ∈ actions ↔
            ∃ bytes, .write bytes ∈ actions ∧
              ipv4Destination bytes = some dst) ∧
        (ifname = none → ∀ name dst, .addHostRoute name dst ∉ actions) := by
  rw [pumpP2pToTun_eq]
  cases ifname with
  | none =>
      refine ⟨_, pumpP2pToTunWindows_none mtu respectDf [] pkts, ?_, nofun, ?_⟩
      · rw [writesIn_writes]
      · intro _ name dst member
        rcases List.mem_map.1 member with ⟨bytes, _, isWrite⟩
        cases isWrite
  | some ifn =>
      obtain ⟨actions, runs, written, routes⟩ :=
        pumpP2pToTunWindows_routes ifn mtu respectDf [] pkts
      refine ⟨actions, runs, by rw [written], ?_, nofun⟩
      intro other same
      obtain rfl := Option.some.inj same
      refine ⟨?_, fun dst => ⟨routes.wanted dst, ?_⟩⟩
      · intro earlier action later shape
        constructor
        · intro name dst isRoute
          obtain ⟨named, _, first⟩ :=
            routes.once earlier action later shape name dst isRoute
          exact ⟨named, first⟩
        · intro bytes dst isWrite destination
          exact (routes.before earlier action later shape bytes dst isWrite
            destination).resolve_left List.not_mem_nil
      · rintro ⟨bytes, member, destination⟩
        rcases List.append_of_mem member with ⟨earlier, later, shape⟩
        have route := (routes.before earlier _ later shape bytes dst rfl
          destination).resolve_left List.not_mem_nil
        rw [shape]
        exact List.mem_append_left _ route

end CocoNet
