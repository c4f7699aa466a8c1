import CocoNet.P2p.DialCooldown
import CocoNet.P2p.Endpoints

/-!
# One dial discipline for three paths

Announcements, Identify and mDNS all dial.  One discipline would dial a UDP
endpoint of a peer only while the peer is not direct and not within thirty
seconds of another dial of that endpoint, on whichever path and however its
address was spelled.

Identify looks at the direct peers, announcements do not; both keep the record,
by the whole address; mDNS does neither.  So the discipline is kept exactly by
the rounds in which nothing that is about to be dialed would have been stopped
by a check that its path leaves out.
-/

namespace CocoNet

open Cooldown StepMachine

/-! ## Attempts -/

/-- What mDNS dials for a discovered address. -/
def mdnsTarget (addr : Multiaddr) : Multiaddr :=
  (rebuildUdpQuic addr).getD addr

private theorem onMdnsDiscovered_eq (found : List (PeerId × Multiaddr)) :
    onMdnsDiscovered found = found.map fun entry => mdnsTarget entry.2 :=
  rfl

private theorem udpIpPort_mdnsTarget (addr : Multiaddr) :
    udpIpPort (mdnsTarget addr) = udpIpPort addr := by
  cases endpoint : udpIpPort addr with
  | none =>
      rw [mdnsTarget, rebuildUdpQuic, endpoint]
      exact endpoint
  | some pair =>
      rcases pair with ⟨ip, port⟩
      rw [mdnsTarget, rebuildUdpQuic, endpoint]
      exact udpIpPort_canonicalAddr ip port

/-- What mDNS discovered. -/
def LoopEvent.discovered : LoopEvent → Option (List (PeerId × Multiaddr))
  | .swarm (.mdnsDiscovered found) => some found
  | _ => none

/-- The dials that mDNS makes in a round. -/
def mdnsDials (input : Surroundings × LoopEvent) (effects : List Effect) :
    List Dial :=
  match input.2.discovered with
  | some found =>
      List.zipWith (fun entry addr => ⟨input.1.now, (entry.1, addr)⟩) found
        (dialedAddrs effects)
  | none => []

/-- The dials of a round, on whichever path. -/
def attemptedDials (input : Surroundings × LoopEvent)
    (effects : List Effect) : List Dial :=
  recordedDials input effects ++ mdnsDials input effects

def mdnsLog (config : NodeConfig)
    (inputs : List (Surroundings × LoopEvent)) : List Dial :=
  ((eventLoop config).observe fun _ input effects =>
    mdnsDials input effects).outputsOf inputs

def attemptLog (config : NodeConfig)
    (inputs : List (Surroundings × LoopEvent)) : List Dial :=
  ((eventLoop config).observe fun _ input effects =>
    attemptedDials input effects).outputsOf inputs

/-- The round dials a UDP endpoint, other than by a circuit, only for a peer
that is not direct, and only if no dial for that peer went to the same endpoint
in the last thirty seconds. -/
def DialsDisciplined (config : NodeConfig)
    (earlier : List (Surroundings × LoopEvent))
    (input : Surroundings × LoopEvent) : Prop :=
  ∀ before dial after,
    attemptedDials input
        ((eventLoop config).step
          ((eventLoop config).stateAfter earlier) input).2 =
      before ++ dial :: after →
    hasCircuit dial.key.2 = false →
    ∀ endpoint, udpIpPort dial.key.2 = some endpoint →
      dial.key.1 ∉
          ((eventLoop config).stateAfter earlier).connections.directPeers ∧
        ∀ addr, udpIpPort addr = some endpoint →
          ¬ Recent dialCooldown (attemptLog config earlier ++ before)
            dial.time (dial.key.1, addr)

/-! ## The condition -/

/-- The addresses a round goes through, with their peers: what mDNS dials for
its discoveries, and the offers of an announcement or of Identify. -/
def candidates (config : NodeConfig) (state : LoopState)
    (event : LoopEvent) : List (PeerId × Multiaddr) :=
  match event.discovered, event.dialsFor with
  | some found, _ => found.map fun entry => (entry.1, mdnsTarget entry.2)
  | none, some peer =>
      (event.offeredAddrs config state.connections.directPeers).map
        fun addr => (peer, addr)
  | none, none => []

/-- The candidate passes the checks that its path makes: mDNS makes none; an
offer is not among the offers before it, has no stamp within the cooldown, and
does not underflow. -/
def Pending (state : LoopState) (input : Surroundings × LoopEvent)
    (before : List (PeerId × Multiaddr)) (candidate : PeerId × Multiaddr) :
    Prop :=
  match input.2.discovered with
  | some _ => True
  | none =>
      dialCooldown * 2 ≤ input.1.now ∧ candidate ∉ before ∧
        ¬ ∃ stamp, state.recentDials.stamps candidate = some stamp ∧
          input.1.now < stamp + dialCooldown

/-- The checks that some path leaves out: the peer is not direct, and its
endpoint has no stamp within the cooldown under any address, was not discovered
by mDNS within the cooldown, and is not among the candidates before it. -/
structure Unattempted (config : NodeConfig)
    (earlier : List (Surroundings × LoopEvent)) (now : Instant)
    (before : List (PeerId × Multiaddr)) (peer : PeerId)
    (endpoint : Ipv4Addr × UInt16) : Prop where
  notDirect :
    peer ∉ ((eventLoop config).stateAfter earlier).connections.directPeers
  notStamped : ∀ addr stamp,
    ((eventLoop config).stateAfter earlier).recentDials.stamps (peer, addr) =
        some stamp →
      now < stamp + dialCooldown → udpIpPort addr ≠ some endpoint
  notDiscovered : ∀ past found addr, past ∈ earlier →
    past.2.discovered = some found → (peer, addr) ∈ found →
      now < past.1.now + dialCooldown → udpIpPort addr ≠ some endpoint
  notBefore : ∀ addr, (peer, addr) ∈ before → udpIpPort addr ≠ some endpoint

/-- Every candidate for a UDP endpoint, other than a circuit, that passes the
checks of its path passes the others as well. -/
def RoundUnattempted (config : NodeConfig)
    (earlier : List (Surroundings × LoopEvent))
    (input : Surroundings × LoopEvent) : Prop :=
  ((eventLoop config).stateAfter earlier).status = .running →
    ∀ before candidate after,
      candidates config ((eventLoop config).stateAfter earlier) input.2 =
        before ++ candidate :: after →
      Pending ((eventLoop config).stateAfter earlier) input before candidate →
      hasCircuit candidate.2 = false →
      ∀ endpoint, udpIpPort candidate.2 = some endpoint →
        Unattempted config earlier input.1.now before candidate.1 endpoint

/-! ## The logs -/

private theorem recent_attemptLog_iff (config : NodeConfig)
    (inputs : List (Surroundings × LoopEvent)) (now : Instant)
    (key : PeerId × Multiaddr) :
    Recent dialCooldown (attemptLog config inputs) now key ↔
      Recent dialCooldown (dialLog config inputs) now key ∨
        Recent dialCooldown (mdnsLog config inputs) now key := by
  have member : ∀ dial, dial ∈ attemptLog config inputs ↔
      dial ∈ dialLog config inputs ∨ dial ∈ mdnsLog config inputs := by
    intro dial
    simp only [attemptLog, dialLog, mdnsLog, mem_outputsOf_observe_iff,
      attemptedDials, List.mem_append, and_or_left, exists_or]
  simp only [Recent, member, or_and_right, exists_or]

theorem eq_mdnsDiscovered {event : LoopEvent}
    {found : List (PeerId × Multiaddr)}
    (discovered : event.discovered = some found) :
    event = .swarm (.mdnsDiscovered found) := by
  cases event with
  | uplink event =>
      cases discovered
  | swarm event =>
      cases event with
      | mdnsDiscovered other =>
          obtain rfl : other = found := Option.some.inj discovered
          rfl
      | _ =>
          cases discovered

theorem mdnsDials_of_none {input : Surroundings × LoopEvent}
    (nothing : input.2.discovered = none) (effects : List Effect) :
    mdnsDials input effects = [] := by
  rw [mdnsDials, nothing]

theorem mdnsDials_step (config : NodeConfig) {state : LoopState}
    (running : state.status = .running) {input : Surroundings × LoopEvent}
    {found : List (PeerId × Multiaddr)}
    (discovered : input.2.discovered = some found) :
    mdnsDials input ((eventLoop config).step state input).2 =
      found.map fun entry =>
        ⟨input.1.now, (entry.1, mdnsTarget entry.2)⟩ := by
  have effects :
      ((eventLoop config).step state input).2 =
        (onMdnsDiscovered found).map .dial := by
    rw [eventLoop_step_running config running, eq_mdnsDiscovered discovered]
    rfl
  rw [effects, mdnsDials, discovered]
  simp only [dialedAddrs_map, onMdnsDiscovered_eq, List.zipWith_map_right,
    List.zipWith_self]

/-- In a running loop, mDNS has dialed what it discovered. -/
theorem mem_mdnsLog_iff {config : NodeConfig}
    {inputs : List (Surroundings × LoopEvent)}
    (running : ((eventLoop config).stateAfter inputs).status = .running)
    (dial : Dial) :
    dial ∈ mdnsLog config inputs ↔
      ∃ past found entry, past ∈ inputs ∧
        past.2.discovered = some found ∧ entry ∈ found ∧
        dial = ⟨past.1.now, (entry.1, mdnsTarget entry.2)⟩ := by
  rw [mdnsLog, mem_outputsOf_observe_iff]
  constructor
  · intro ⟨earlier, past, later, shape, member⟩
    rw [shape] at running
    cases discovered : past.2.discovered with
    | none =>
        rw [mdnsDials_of_none discovered] at member
        cases member
    | some found =>
        rw [mdnsDials_step config (running_of_append running) discovered]
          at member
        rcases List.mem_map.mp member with ⟨entry, entryMember, isDial⟩
        exact ⟨past, found, entry, by simp [shape], discovered, entryMember,
          isDial.symm⟩
  · intro ⟨past, found, entry, pastMember, discovered, member, isDial⟩
    rcases List.append_of_mem pastMember with ⟨earlier, later, shape⟩
    rw [shape] at running
    refine ⟨earlier, past, later, shape, ?_⟩
    rw [mdnsDials_step config (running_of_append running) discovered, isDial]
    exact List.mem_map_of_mem member

/-- Whether an endpoint was dialed in the last thirty seconds can be read from
the record and from the discoveries of mDNS. -/
theorem recent_endpoint_iff {config : NodeConfig}
    {earlier : List (Surroundings × LoopEvent)} {now : Instant}
    (clocked : Clocked earlier)
    (notBefore : ∀ past, past ∈ earlier → past.1.now ≤ now)
    (running : ((eventLoop config).stateAfter earlier).status = .running)
    (peer : PeerId) (endpoint : Ipv4Addr × UInt16) :
    (∃ addr, udpIpPort addr = some endpoint ∧
        Recent dialCooldown (attemptLog config earlier) now (peer, addr)) ↔
      (∃ addr stamp,
        ((eventLoop config).stateAfter earlier).recentDials.stamps
            (peer, addr) = some stamp ∧
          now < stamp + dialCooldown ∧ udpIpPort addr = some endpoint) ∨
      ∃ past found addr, past ∈ earlier ∧
        past.2.discovered = some found ∧ (peer, addr) ∈ found ∧
        now < past.1.now + dialCooldown ∧ udpIpPort addr = some endpoint := by
  have tracks := recentDials_track config clocked notBefore
  constructor
  · intro ⟨addr, isEndpoint, recent⟩
    rcases (recent_attemptLog_iff config earlier now _).1 recent with
      recorded | ⟨dial, member, sameKey, within⟩
    · rcases (tracks.recent_iff now (Nat.le_refl now) _).2 recorded with
        ⟨stamp, stamped, within⟩
      exact Or.inl ⟨addr, stamp, stamped, within, isEndpoint⟩
    · obtain ⟨past, found, entry, pastMember, same, entryMember, isDial⟩ :=
        (mem_mdnsLog_iff running dial).1 member
      subst isDial
      rcases Prod.mk.inj sameKey with ⟨samePeer, sameAddr⟩
      subst samePeer
      refine Or.inr ⟨past, found, entry.2, pastMember, same, entryMember,
        within, ?_⟩
      rw [← udpIpPort_mdnsTarget, sameAddr, isEndpoint]
  · intro found
    rcases found with ⟨addr, stamp, stamped, within, isEndpoint⟩ |
      ⟨past, found, addr, pastMember, same, entryMember, within, isEndpoint⟩
    · refine ⟨addr, isEndpoint, (recent_attemptLog_iff _ _ _ _).2 ?_⟩
      exact Or.inl ((tracks.recent_iff now (Nat.le_refl now) _).1
        ⟨stamp, stamped, within⟩)
    · refine ⟨mdnsTarget addr, (udpIpPort_mdnsTarget addr).trans isEndpoint,
        (recent_attemptLog_iff _ _ _ _).2 ?_⟩
      exact Or.inr ⟨_, (mem_mdnsLog_iff running _).2
        ⟨past, found, (peer, addr), pastMember, same, entryMember, rfl⟩,
        rfl, within⟩

/-! ## Dials and the candidates they come from -/

private theorem dialsAt_eq_stampAll (now : Instant) (peer : PeerId)
    (addrs : List Multiaddr) :
    dialsAt now peer addrs =
      stampAll now (addrs.map fun addr => (peer, addr)) := by
  simp [dialsAt, stampAll]

theorem attemptedDials_nil (input : Surroundings × LoopEvent) :
    attemptedDials input [] = [] := by
  rw [attemptedDials, recordedDials_nil, mdnsDials]
  split <;> simp [dialedAddrs]

private theorem discovered_eq_none {event : LoopEvent} {peer : PeerId}
    (dialsFor : event.dialsFor = some peer) : event.discovered = none := by
  cases discovered : event.discovered with
  | none =>
      rfl
  | some found =>
      rw [eq_mdnsDiscovered discovered] at dialsFor
      cases dialsFor

/-- The round of mDNS dials all its candidates. -/
theorem mdns_corresponds (config : NodeConfig) {state : LoopState}
    (running : state.status = .running) {input : Surroundings × LoopEvent}
    {found : List (PeerId × Multiaddr)}
    (discovered : input.2.discovered = some found) (log : List Dial) :
    Corresponds dialCooldown log
      (attemptedDials input ((eventLoop config).step state input).2)
      input.1.now (candidates config state input.2)
      (Pending state input) := by
  have nobody : input.2.dialsFor = none := by
    rw [eq_mdnsDiscovered discovered]
    rfl
  have pending : Pending state input = fun _ _ => True := by
    funext before candidate
    rw [Pending, discovered]
  have entries : candidates config state input.2 =
      found.map fun entry => (entry.1, mdnsTarget entry.2) := by
    rw [candidates, discovered]
  have dials :
      attemptedDials input ((eventLoop config).step state input).2 =
        stampAll input.1.now (candidates config state input.2) := by
    rw [attemptedDials, recordedDials_of_none nobody, List.nil_append,
      mdnsDials_step config running discovered, entries, stampAll,
      List.map_map]
    rfl
  rw [dials, pending]
  exact corresponds_stampAll (by decide) log input.1.now _

/-- The round of an announcement or of Identify dials the candidates that its
handler's own checks let through. -/
theorem offers_correspond (config : NodeConfig) {state : LoopState}
    (running : state.status = .running) {input : Surroundings × LoopEvent}
    {peer : PeerId} (dialsFor : input.2.dialsFor = some peer)
    {log : List Dial} (tracks : state.recentDials.Tracks input.1.now log) :
    Corresponds dialCooldown log
      (attemptedDials input ((eventLoop config).step state input).2)
      input.1.now (candidates config state input.2)
      (Pending state input) := by
  have discovered := discovered_eq_none dialsFor
  have offered : offers config state input =
      stampAll input.1.now (candidates config state input.2) := by
    rw [offers_of_some running dialsFor, dialsAt_eq_stampAll, candidates,
      discovered, dialsFor]
  have pending : ∀ before candidate,
      Pending state input before candidate ↔
        dialCooldown * 2 ≤ input.1.now ∧ candidate ∉ before ∧
          ¬ Recent dialCooldown log input.1.now candidate := by
    intro before candidate
    rw [Pending, discovered,
      ← tracks.recent_iff input.1.now (Nat.le_refl _) candidate]
  rw [attemptedDials, mdnsDials_of_none discovered, List.append_nil]
  by_cases late : dialCooldown * 2 ≤ input.1.now
  · rw [(step_follows config tracks fun _ => late).1, offered]
    have samePending : Pending state input =
        fun before candidate =>
          candidate ∉ before ∧
            ¬ Recent dialCooldown log input.1.now candidate := by
      funext before candidate
      rw [pending, eq_iff_iff]
      exact and_iff_right late
    rw [samePending]
    exact corresponds_discipline (by decide) log input.1.now _
  · have none :
        recordedDials input ((eventLoop config).step state input).2 = [] := by
      by_cases empty : offers config state input = []
      · rw [(step_follows config tracks fun some => absurd empty some).1,
          empty]
        rfl
      · rw [step_of_early config empty (Nat.lt_of_not_le late),
          recordedDials_nil]
    rw [none]
    apply corresponds_nil
    intro before candidate rest _ isPending
    exact late ((pending before candidate).1 isPending).1

/-- The dials of a round of a running loop are its pending candidates. -/
theorem round_corresponds (config : NodeConfig)
    {earlier : List (Surroundings × LoopEvent)}
    {input : Surroundings × LoopEvent} (clocked : Clocked earlier)
    (notBefore : ∀ past, past ∈ earlier → past.1.now ≤ input.1.now)
    (running : ((eventLoop config).stateAfter earlier).status = .running) :
    Corresponds dialCooldown (attemptLog config earlier)
      (attemptedDials input
        ((eventLoop config).step
          ((eventLoop config).stateAfter earlier) input).2)
      input.1.now
      (candidates config ((eventLoop config).stateAfter earlier) input.2)
      (Pending ((eventLoop config).stateAfter earlier) input) := by
  cases discovered : input.2.discovered with
  | some found =>
      exact mdns_corresponds config running discovered _
  | none =>
      cases dialsFor : input.2.dialsFor with
      | some peer =>
          apply (offers_correspond config running dialsFor
            (recentDials_track config clocked notBefore)).mono
          intro key recent
          exact (recent_attemptLog_iff _ _ _ _).2 (Or.inl recent)
      | none =>
          rw [attemptedDials, recordedDials_of_none dialsFor,
            mdnsDials_of_none discovered, List.append_nil]
          apply corresponds_nil
          intro before candidate rest shape
          simp [candidates, discovered, dialsFor] at shape

/-! ## Whole runs -/

private theorem dialsDisciplined_iff (config : NodeConfig)
    {earlier : List (Surroundings × LoopEvent)}
    {input : Surroundings × LoopEvent} (clocked : Clocked earlier)
    (notBefore : ∀ past, past ∈ earlier → past.1.now ≤ input.1.now) :
    DialsDisciplined config earlier input ↔
      RoundUnattempted config earlier input := by
  by_cases running :
      ((eventLoop config).stateAfter earlier).status = .running
  · have corresponds := round_corresponds config clocked notBefore running
    have recent_iff := recent_endpoint_iff clocked notBefore running
    constructor
    · intro disciplined _ before candidate rest shape pending notCircuit
        endpoint isEndpoint
      obtain ⟨made, after, split, standsFor⟩ :=
        corresponds.to_admitted before candidate rest shape pending
      obtain ⟨notDirect, fresh⟩ :=
        disciplined made _ after split notCircuit endpoint isEndpoint
      refine ⟨notDirect, ?_, ?_, ?_⟩
      · intro addr stamp stamped within same
        obtain ⟨other, isSame, recent⟩ :=
          (recent_iff candidate.1 endpoint).2
            (Or.inl ⟨addr, stamp, stamped, within, same⟩)
        exact fresh other isSame ((standsFor _).2 (Or.inl recent))
      · intro past found addr member discovered entry within same
        obtain ⟨other, isSame, recent⟩ :=
          (recent_iff candidate.1 endpoint).2 (Or.inr
            ⟨past, found, addr, member, discovered, entry, within, same⟩)
        exact fresh other isSame ((standsFor _).2 (Or.inl recent))
      · intro addr member same
        exact fresh addr same ((standsFor _).2 (Or.inr member))
    · intro unattempted made dial after split notCircuit endpoint isEndpoint
      obtain ⟨before, rest, shape, isNow, pending, standsFor⟩ :=
        corresponds.of_admitted made dial after split
      have free :=
        unattempted running before dial.key rest shape pending notCircuit
          endpoint isEndpoint
      refine ⟨free.notDirect, ?_⟩
      intro addr same recent
      rw [isNow] at recent
      rcases (standsFor _).1 recent with inLog | inBefore
      · rcases (recent_iff dial.key.1 endpoint).1 ⟨addr, same, inLog⟩ with
          ⟨other, stamp, stamped, within, isSame⟩ |
          ⟨past, found, other, member, discovered, entry, within, isSame⟩
        · exact free.notStamped other stamp stamped within isSame
        · exact free.notDiscovered past found other member discovered entry
            within isSame
      · exact free.notBefore addr inBefore same
  · constructor
    · intro _ runs
      exact absurd runs running
    · intro _ made dial after split
      rw [eventLoop_step_stopped config running, attemptedDials_nil] at split
      simp at split

/-- In every run with a clock that does not go back, the dials of all three
paths keep the one discipline if and only if in every round whatever is about
to be dialed would have passed the checks that its path leaves out. -/
theorem dial_discipline_iff (config : NodeConfig)
    {inputs : List (Surroundings × LoopEvent)} (clocked : Clocked inputs) :
    EachStep (DialsDisciplined config) inputs ↔
      EachStep (RoundUnattempted config) inputs := by
  have step : ∀ earlier input later, inputs = earlier ++ input :: later →
      (DialsDisciplined config earlier input ↔
        RoundUnattempted config earlier input) := by
    intro earlier input later shape
    rw [shape] at clocked
    exact dialsDisciplined_iff config clocked.of_append
      (clocked earlier input later rfl)
  constructor
  · intro disciplined earlier input later shape
    exact (step earlier input later shape).1
      (disciplined earlier input later shape)
  · intro unattempted earlier input later shape
    exact (step earlier input later shape).2
      (unattempted earlier input later shape)

/-- Peer 7 is announced at one address, discovered by mDNS at another, and half
a minute later announced at the first and at a third. -/
def discoveredBetween : List (Surroundings × LoopEvent) :=
  [(⟨60000, 0, true⟩, .swarm (.gossip none (.announce
      (some ⟨some ⟨[7]⟩, [some (canonicalAddr ⟨8, 8, 8, 8⟩ 1)]⟩)))),
    (⟨61000, 0, true⟩, .swarm (.mdnsDiscovered
      [(⟨[7]⟩, canonicalAddr ⟨10, 0, 0, 7⟩ 1)])),
    (⟨90000, 0, true⟩, .swarm (.gossip none (.announce
      (some ⟨some ⟨[7]⟩, [some (canonicalAddr ⟨8, 8, 8, 8⟩ 1),
        some (canonicalAddr ⟨9, 9, 9, 9⟩ 1)]⟩))))]

/-- The first announcement leaves the only stamp, which mDNS does not touch. -/
private theorem stamps_discoveredBetween
    {earlier : List (Surroundings × LoopEvent)}
    (isPart : earlier = discoveredBetween.take 1 ∨
      earlier = discoveredBetween.take 2) {addr : Multiaddr}
    {stamp : Instant}
    (stamped :
      ((eventLoop ⟨⟨[1]⟩, ⟨64, 8⟩⟩).stateAfter earlier).recentDials.stamps
        (⟨[7]⟩, addr) = some stamp) :
    stamp = 60000 ∧ addr = canonicalAddr ⟨8, 8, 8, 8⟩ 1 := by
  have recent :
      ((eventLoop ⟨⟨[1]⟩, ⟨64, 8⟩⟩).stateAfter earlier).recentDials =
        RecentDials.set (fun _ _ => none) ⟨[7]⟩
          (canonicalAddr ⟨8, 8, 8, 8⟩ 1) 60000 := by
    rcases isPart with rfl | rfl <;> rfl
  rw [recent] at stamped
  by_cases same : addr = canonicalAddr ⟨8, 8, 8, 8⟩ 1
  · subst same
    simp [RecentDials.stamps, RecentDials.set] at stamped
    exact ⟨stamped.symm, rfl⟩
  · simp [RecentDials.stamps, RecentDials.set, same] at stamped

/-- Half a minute later that stamp holds nothing back. -/
private theorem not_recent_discoveredBetween {addr : Multiaddr}
    {stamp : Instant}
    (stamped :
      ((eventLoop ⟨⟨[1]⟩, ⟨64, 8⟩⟩).stateAfter
        (discoveredBetween.take 2)).recentDials.stamps (⟨[7]⟩, addr) =
          some stamp) :
    ¬ 90000 < stamp + dialCooldown := by
  rw [(stamps_discoveredBetween (Or.inr rfl) stamped).1]
  decide

private theorem addr_of_discoveredBetween
    {past : Surroundings × LoopEvent} {found : List (PeerId × Multiaddr)}
    {addr : Multiaddr} (member : past ∈ discoveredBetween.take 2)
    (discovered : past.2.discovered = some found)
    (listed : (⟨[7]⟩, addr) ∈ found) :
    addr = canonicalAddr ⟨10, 0, 0, 7⟩ 1 := by
  simp only [discoveredBetween, List.take_succ_cons, List.take_zero,
    List.mem_cons, List.not_mem_nil, or_false] at member
  rcases member with rfl | rfl
  · cases discovered
  · obtain rfl := Option.some.inj discovered
    simpa using listed

/-- All of it keeps the discipline: four dials for the peer, two of them to one
endpoint, half a minute apart. -/
theorem dial_discipline_discoveredBetween :
    attemptLog ⟨⟨[1]⟩, ⟨64, 8⟩⟩ discoveredBetween =
        [⟨60000, (⟨[7]⟩, canonicalAddr ⟨8, 8, 8, 8⟩ 1)⟩,
          ⟨61000, (⟨[7]⟩, canonicalAddr ⟨10, 0, 0, 7⟩ 1)⟩,
          ⟨90000, (⟨[7]⟩, canonicalAddr ⟨8, 8, 8, 8⟩ 1)⟩,
          ⟨90000, (⟨[7]⟩, canonicalAddr ⟨9, 9, 9, 9⟩ 1)⟩] ∧
      EachStep (DialsDisciplined ⟨⟨[1]⟩, ⟨64, 8⟩⟩) discoveredBetween := by
  refine ⟨by decide +kernel, (dial_discipline_iff _ ?_).2 ?_⟩
  · simp only [Clocked, discoveredBetween, eachStep_cons_iff]
    refine ⟨by simp, by simp, ?_, eachStep_nil _⟩
    intro earlier member
    simp only [List.mem_cons, List.not_mem_nil, or_false] at member
    rcases member with rfl | rfl <;> decide
  intro earlier input later shape _ before candidate rest isSplit _ _ endpoint
    isEndpoint
  rcases earlier with _ | ⟨first, _ | ⟨second, _ | ⟨third, more⟩⟩⟩
  · -- The first announcement, with nothing before it.
    simp only [discoveredBetween, List.nil_append, List.cons.injEq] at shape
    obtain ⟨rfl, rfl⟩ := shape
    have entries : [(⟨[7]⟩, canonicalAddr ⟨8, 8, 8, 8⟩ 1)] =
        before ++ candidate :: rest := isSplit
    rcases before with _ | ⟨head, tail⟩
    · refine ⟨by simp [eventLoop, LoopState.initial, connections], ?_, by simp,
        by simp⟩
      intro addr stamp stamped
      cases stamped
    · simp at entries
  · -- The discovery: the stamp is for another endpoint.
    simp only [discoveredBetween, List.cons_append, List.nil_append,
      List.cons.injEq] at shape
    obtain ⟨rfl, rfl, rfl⟩ := shape
    have entries : [(⟨[7]⟩, canonicalAddr ⟨10, 0, 0, 7⟩ 1)] =
        before ++ candidate :: rest := isSplit
    rcases before with _ | ⟨head, tail⟩
    · obtain ⟨rfl, -⟩ := List.cons.inj entries
      obtain rfl : (⟨10, 0, 0, 7⟩, 1) = endpoint := Option.some.inj isEndpoint
      refine ⟨by decide +kernel, ?_, ?_, by simp⟩
      · intro addr stamp stamped _
        rw [(stamps_discoveredBetween (Or.inl rfl) stamped).2]
        decide
      · intro past found addr member discovered
        rw [List.mem_singleton.1 member] at discovered
        cases discovered
    · simp at entries
  · -- The stamp is half a minute old, and the discovery was another endpoint.
    simp only [discoveredBetween, List.cons_append, List.nil_append,
      List.cons.injEq] at shape
    obtain ⟨rfl, rfl, rfl, rfl⟩ := shape
    have entries : [(⟨[7]⟩, canonicalAddr ⟨8, 8, 8, 8⟩ 1),
        (⟨[7]⟩, canonicalAddr ⟨9, 9, 9, 9⟩ 1)] =
          before ++ candidate :: rest := isSplit
    rcases before with _ | ⟨head, _ | ⟨next, tail⟩⟩
    · obtain ⟨rfl, -⟩ := List.cons.inj entries
      obtain rfl : (⟨8, 8, 8, 8⟩, 1) = endpoint := Option.some.inj isEndpoint
      refine ⟨by decide +kernel, ?_, ?_, by simp⟩
      · intro addr stamp stamped recent
        exact absurd recent (not_recent_discoveredBetween stamped)
      · intro past found addr member discovered listed _
        rw [addr_of_discoveredBetween member discovered listed]
        decide
    · obtain ⟨rfl, isSecond⟩ := List.cons.inj entries
      obtain ⟨rfl, -⟩ := List.cons.inj isSecond
      obtain rfl : (⟨9, 9, 9, 9⟩, 1) = endpoint := Option.some.inj isEndpoint
      refine ⟨by decide +kernel, ?_, ?_, ?_⟩
      · intro addr stamp stamped recent
        exact absurd recent (not_recent_discoveredBetween stamped)
      · intro past found addr member discovered listed _
        rw [addr_of_discoveredBetween member discovered listed]
        decide
      · intro addr member
        obtain rfl : addr = canonicalAddr ⟨8, 8, 8, 8⟩ 1 := by
          simpa using member
        decide
    · simp at entries
  · simp [discoveredBetween] at shape

/-- Peer 7 is direct, and mDNS discovers one of its addresses twice within a
second, in two spellings. -/
def discoveredTwice : List (Surroundings × LoopEvent) :=
  [(⟨60000, 0, true⟩, .swarm (.connection
      (.established ⟨[7]⟩ 1 (.dialer (canonicalAddr ⟨10, 0, 0, 7⟩ 1))))),
    (⟨61000, 0, true⟩, .swarm (.mdnsDiscovered
      [(⟨[7]⟩, canonicalAddr ⟨10, 0, 0, 7⟩ 1)])),
    (⟨62000, 0, true⟩, .swarm (.mdnsDiscovered
      [(⟨[7]⟩, [.ip4 ⟨10, 0, 0, 7⟩, .udp 1, .quicV1, .p2p ⟨[7]⟩])]))]

/-- Both discoveries are dialed. -/
theorem dial_discipline_broken_by_mdns :
    attemptLog ⟨⟨[1]⟩, ⟨64, 8⟩⟩ discoveredTwice =
        [⟨61000, (⟨[7]⟩, canonicalAddr ⟨10, 0, 0, 7⟩ 1)⟩,
          ⟨62000, (⟨[7]⟩, canonicalAddr ⟨10, 0, 0, 7⟩ 1)⟩] ∧
      ¬ EachStep (DialsDisciplined ⟨⟨[1]⟩, ⟨64, 8⟩⟩) discoveredTwice := by
  refine ⟨by decide +kernel, ?_⟩
  intro disciplined
  have direct :=
    (disciplined (discoveredTwice.take 1) _ (discoveredTwice.drop 2) rfl
      [] ⟨61000, (⟨[7]⟩, canonicalAddr ⟨10, 0, 0, 7⟩ 1)⟩ []
      (by decide +kernel) (by decide) _ rfl).1
  exact direct (by decide +kernel)

end CocoNet
