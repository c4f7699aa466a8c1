import CocoNet.P2p.Overlay

/-!
# What the overlay dials

A node announces the public forms of the addresses that its swarm reported,
and all of them.  Another node that receives the announcement filters the
addresses again; the two filters agree, so it dials exactly these addresses,
but for those that it has dialed within the cooldown.
-/

namespace CocoNet

open StepMachine
open Cooldown

/-! ## What an announcement names -/

/-- An announcement of a round names the node itself and the public forms of
all addresses that were reported to it. -/
theorem announcement_of_round {config : NodeConfig}
    {earlier : List (Surroundings × LoopEvent)}
    {input : Surroundings × LoopEvent} {announcement : Announcement}
    (member : announcement ∈ announcements
      ((eventLoop config).step
        ((eventLoop config).stateAfter earlier) input).2) :
    announcement.peer = config.localPeer ∧
      ∀ addr, addr ∈ announcement.addrs ↔
        ∃ address, Reported (earlier ++ [input]) address ∧
          publicForm address = some addr := by
  by_cases running :
      ((eventLoop config).stateAfter earlier).status = .running
  swap
  · rw [eventLoop_step_stopped config running] at member
    cases member
  by_cases underflows :
      Underflows config ((eventLoop config).stateAfter earlier) input
  · rw [step_of_early config underflows.1 underflows.2] at member
    cases member
  rw [(step_announcesFrom config running underflows).announced] at member
  cases announces : input.2.announcesFrom
      ((eventLoop config).stateAfter earlier).announcing with
  | none =>
      rw [announces] at member
      cases member
  | some prepared =>
      rw [announces] at member
      obtain ⟨_, _, same⟩ := (mem_publishAnnounce_iff _ _ _ _).1 member
      rw [same]
      exact ⟨rfl, mem_announcedAddrs_iff running announces⟩

private theorem isPublicUdpQuic_of_publicForm {address addr : Multiaddr}
    (form : publicForm address = some addr) : isPublicUdpQuic addr = true :=
  ((publicForm_eq_some_iff address addr).1 form).2

/-- The receiver's filter lets every announced address pass. -/
theorem targets_of_public {addrs : List Multiaddr} {peer : Option PeerId}
    (allPublic : ∀ addr, addr ∈ addrs → isPublicUdpQuic addr = true) :
    AnnounceMsg.targets ⟨peer, addrs.map some⟩ = addrs := by
  simp only [AnnounceMsg.targets, List.filterMap_map, Function.comp_def,
    id_eq, List.filterMap_some]
  exact List.filter_eq_self.2 allPublic

/-! ## Dials of one round -/

/-- The dials of a round are the offers that are not recent. -/
theorem mem_dialedAddrs_iff {config : NodeConfig}
    {inputs : List (Surroundings × LoopEvent)}
    {input : Surroundings × LoopEvent} {peer : PeerId}
    (clocked : Clocked (inputs ++ [input]))
    (late : dialCooldown * 2 ≤ input.1.now)
    (running : ((eventLoop config).stateAfter inputs).status = .running)
    (dialsFor : input.2.dialsFor = some peer) (addr : Multiaddr) :
    addr ∈ dialedAddrs ((eventLoop config).step
        ((eventLoop config).stateAfter inputs) input).2 ↔
      addr ∈ input.2.offeredAddrs config
          ((eventLoop config).stateAfter inputs).connections.directPeers ∧
        ¬ Recent dialCooldown (dialLog config inputs) input.1.now
          (peer, addr) := by
  obtain ⟨clockedBefore, notBefore⟩ := (eachStep_snoc_iff _ _ _).1 clocked
  have follows := (step_follows config
    (recentDials_track config clockedBefore notBefore) fun _ => late).1
  rw [recordedDials, dialsFor, offers_of_some running dialsFor] at follows
  simp only at follows
  have stamped : ∀ addrs : List Multiaddr,
      addr ∈ addrs ↔ (⟨input.1.now, (peer, addr)⟩ : Dial) ∈
        dialsAt input.1.now peer addrs := by
    intro addrs
    simp [dialsAt]
  rw [stamped, stamped, follows]
  exact mem_discipline_runFrom_iff
    (fun attempt member => by
      obtain ⟨_, _, same⟩ := List.mem_map.1 member
      rw [← same]) _ _

/-! ## From the reports of one node to the dials of another -/

/-- When an announcement reaches a running node, what the node dials are the
public forms of the addresses that the sender's swarm had reported when it
announced, all of them, but for those that the node has dialed for the sender
within the last thirty seconds. -/
theorem announced_addrs_dialed {config : PeerId → UplinkConfig}
    {earlier : List OverlayEvent} {event : OverlayEvent} {sender : PeerId}
    {position : Nat}
    (origin : event.origin = some (.announcement sender position))
    (carried : Carried config earlier event)
    (running :
      ((overlay config).stateAfter earlier event.node).status = .running)
    (clocked : Clocked (inputsAt event.node (earlier ++ [event])))
    (late : dialCooldown * 2 ≤ event.surroundings.now) :
    ∃ before input later announcement,
      (announcements (effectsAt config earlier sender))[position]? =
        some announcement ∧
      inputsAt sender earlier = before ++ input :: later ∧
      announcement ∈ announcements
        ((eventLoop ⟨sender, config sender⟩).step
          ((eventLoop ⟨sender, config sender⟩).stateAfter before) input).2 ∧
      ∀ addr, addr ∈ dialedAddrs (effectsOf config earlier event) ↔
        (∃ address, Reported (before ++ [input]) address ∧
          publicForm address = some addr) ∧
        ¬ Recent dialCooldown
          (dialLog ⟨event.node, config event.node⟩
            (inputsAt event.node earlier))
          event.surroundings.now (sender, addr) := by
  rw [Carried, origin] at carried
  obtain ⟨other, announcement, made, arrives⟩ := carried
  have wasMade := List.mem_of_getElem? made
  rw [effectsAt_eq] at wasMade
  obtain ⟨effect, isEffect, isAnnouncement⟩ := List.mem_filterMap.1 wasMade
  obtain ⟨before, input, later, shape, atStep⟩ :=
    (mem_outputsOf_iff _ _ _).1 isEffect
  have inRound : announcement ∈ announcements
      ((eventLoop ⟨sender, config sender⟩).step
        ((eventLoop ⟨sender, config sender⟩).stateAfter before) input).2 :=
    List.mem_filterMap.2 ⟨effect, atStep, isAnnouncement⟩
  obtain ⟨named, names⟩ := announcement_of_round inRound
  refine ⟨before, input, later, announcement, made, shape, inRound, ?_⟩
  intro addr
  cases arrivesAs : event.event with
  | uplink inner =>
      rw [arrivesAs] at arrives
      cases arrives
  | swarm inner =>
      rw [arrivesAs] at arrives
      cases arrives with
      | listed same =>
          rename_i addrs
          simp only at named
          have listed : ∀ addr, addr ∈ addrs ↔ addr ∈ announcement.addrs := by
            intro addr
            rw [← same, List.mem_toFinset]
          have targets : AnnounceMsg.targets
              ⟨some announcement.peer, addrs.map some⟩ = addrs := by
            apply targets_of_public
            intro addr member
            obtain ⟨_, _, form⟩ := (names addr).1 ((listed addr).1 member)
            exact isPublicUdpQuic_of_publicForm form
          rw [inputsAt, eventsAt_snoc_own] at clocked
          rw [overlay_stateAfter] at running
          have dialsFor : event.input.2.dialsFor = some announcement.peer := by
            rw [OverlayEvent.input, arrivesAs]
            rfl
          have notSelf :
              (some announcement.peer : Option PeerId) ≠ some event.node := by
            rw [named]
            simpa using other
          have offered : ∀ directPeers,
              event.input.2.offeredAddrs ⟨event.node, config event.node⟩
                directPeers = addrs := by
            intro directPeers
            simp only [OverlayEvent.input, arrivesAs, LoopEvent.offeredAddrs,
              reduceCtorEq, if_false, if_neg notSelf]
            rw [AnnounceMsg.targets_eq] at targets
            exact targets
          have dials := mem_dialedAddrs_iff clocked late running dialsFor addr
          rw [offered, named, listed, names] at dials
          rw [effectsOf, overlay_stateAfter]
          exact dials

/-- Node 1 has an external address confirmed and announces it. -/
def oneReport : List OverlayEvent :=
  [⟨⟨[1]⟩, ⟨0, 0, true⟩, .swarm (.externalAddrConfirmed
      [.ip4 ⟨8, 8, 8, 8⟩, .udp 4001, .quicV1, .p2p ⟨[1]⟩]), none⟩]

/-- The announcement reaches node 2 a minute after the origin of its clock. -/
def announcementArrives : OverlayEvent :=
  ⟨⟨[2]⟩, ⟨60000, 0, true⟩, .swarm (.gossip none (.announce
      (some ⟨some ⟨[1]⟩, [some (canonicalAddr ⟨8, 8, 8, 8⟩ 4001)]⟩))),
    some (.announcement ⟨[1]⟩ 0)⟩

theorem announced_addrs_dialed_oneReport :
    dialedAddrs (effectsOf (fun _ => ⟨64, 8⟩) oneReport announcementArrives) =
        [canonicalAddr ⟨8, 8, 8, 8⟩ 4001] ∧
      ∃ inputs address, Reported inputs address ∧
        publicForm address = some (canonicalAddr ⟨8, 8, 8, 8⟩ 4001) := by
  have dialed : dialedAddrs
      (effectsOf (fun _ => ⟨64, 8⟩) oneReport announcementArrives) =
        [canonicalAddr ⟨8, 8, 8, 8⟩ 4001] := by
    decide +kernel
  have same : [canonicalAddr ⟨8, 8, 8, 8⟩ 4001].toFinset =
      {canonicalAddr ⟨8, 8, 8, 8⟩ 4001} := by
    decide
  have arrives : Announcement.ArrivesAs
      ⟨⟨[1]⟩, {canonicalAddr ⟨8, 8, 8, 8⟩ 4001}, 0⟩
      (.swarm (.gossip none (.announce (some ⟨some ⟨[1]⟩,
        [canonicalAddr ⟨8, 8, 8, 8⟩ 4001].map some⟩)))) :=
    .listed same
  have carried : Carried (fun _ => ⟨64, 8⟩) oneReport announcementArrives :=
    ⟨by decide, _, by decide +kernel, arrives⟩
  have clocked : Clocked
      (inputsAt announcementArrives.node (oneReport ++ [announcementArrives])) :=
    (eachStep_snoc_iff _ [] _).2 ⟨eachStep_nil _, by simp⟩
  obtain ⟨before, input, later, announcement, _, _, _, dials⟩ :=
    announced_addrs_dialed rfl carried (by decide +kernel) clocked (by decide)
  have member := (dials (canonicalAddr ⟨8, 8, 8, 8⟩ 4001)).1 (by simp [dialed])
  exact ⟨dialed, before ++ [input], member.1⟩

end CocoNet
