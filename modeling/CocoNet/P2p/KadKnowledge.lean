import CocoNet.P2p.SwarmCalls

/-!
# What Kademlia is told

Kademlia is told every listen address that Identify brings and every address
that mDNS finds, public or not and whether or not it is dialed, but of an
announcement only what is dialed just then.  Whatever is dialed for a peer,
Kademlia is told that address of the peer, or one with the same endpoint.
-/

namespace CocoNet

open StepMachine

/-! ## Addresses -/

def SwarmCall.addedAddr : SwarmCall → Option (PeerId × Multiaddr)
  | .addAddress peer addr => some (peer, addr)
  | _ => none

/-- The addresses that Kademlia is told, with their peers. -/
def addedAddrs (calls : List SwarmCall) : List (PeerId × Multiaddr) :=
  calls.filterMap SwarmCall.addedAddr

private theorem addedAddrs_append (first second : List SwarmCall) :
    addedAddrs (first ++ second) = addedAddrs first ++ addedAddrs second :=
  List.filterMap_append

private theorem addedAddrs_effects (effects : List Effect) :
    addedAddrs (effects.map .effect) = [] := by
  rw [addedAddrs, List.filterMap_map]
  exact List.filterMap_eq_nil_iff.2 fun _ _ => rfl

/-- What a round of the loop has to tell Kademlia. -/
def toldAddrs (input : Surroundings × LoopEvent) (effects : List Effect) :
    List (PeerId × Multiaddr) :=
  match input.2 with
  | .swarm (.identifyReceived peer listenAddrs) =>
      listenAddrs.map fun addr => (peer, addr)
  | .swarm (.mdnsDiscovered found) => found
  | _ => (recordedDials input effects).map Stamped.key

def toldLog (config : NodeConfig)
    (inputs : List (Surroundings × LoopEvent)) : List (PeerId × Multiaddr) :=
  ((eventLoop config).observe fun _ input effects =>
    toldAddrs input effects).outputsOf inputs

private theorem toldLog_snoc (config : NodeConfig)
    (inputs : List (Surroundings × LoopEvent))
    (input : Surroundings × LoopEvent) :
    toldLog config (inputs ++ [input]) =
      toldLog config inputs ++
        toldAddrs input ((eventLoop config).step
          ((eventLoop config).stateAfter inputs) input).2 :=
  outputsOf_observe_snoc _ _ _ _

private theorem announceCalls_added {now : Instant} {peer : PeerId}
    {recent : RecentDials} {addrs : List (Option Multiaddr)}
    {called : RecentDials × List SwarmCall}
    (runs : announceCalls now peer recent addrs = .ok called) :
    addedAddrs called.2 =
      (dialedAddrs (knownEffects called.2)).map fun addr => (peer, addr) := by
  obtain ⟨dialed, shape⟩ := announceCalls_shape runs
  rw [shape, knownEffects_announced, dialedAddrs_map, addedAddrs,
    List.filterMap_flatMap, ← List.flatMap_pure_eq_map]
  rfl

private theorem identifyCalls_added {now : Instant} {peer : PeerId}
    {direct : Bool}
    {recent : RecentDials} {listenAddrs : List Multiaddr}
    {called : RecentDials × List SwarmCall}
    (runs : identifyCalls now peer direct recent listenAddrs = .ok called) :
    addedAddrs called.2 = listenAddrs.map fun addr => (peer, addr) := by
  induction listenAddrs generalizing recent called with
  | nil =>
      rw [← Except.ok.inj runs]
      rfl
  | cons addr rest inductionHypothesis =>
      rw [identifyCalls] at runs
      split at runs
      · obtain ⟨others, othersRun, joined⟩ := Checked.bind_eq_ok runs
        rw [← Except.ok.inj joined, List.map_cons,
          ← inductionHypothesis othersRun]
        rfl
      · obtain ⟨dialed, _, restRuns⟩ := Checked.bind_eq_ok runs
        obtain ⟨others, othersRun, joined⟩ := Checked.bind_eq_ok restRuns
        rw [← Except.ok.inj joined, List.map_cons,
          ← inductionHypothesis othersRun]
        have silent : addedAddrs
            (dialed.2.map fun addr => .effect (.dial addr)) = [] := by
          rw [addedAddrs, List.filterMap_map]
          exact List.filterMap_eq_nil_iff.2 fun _ _ => rfl
        change _ :: addedAddrs (_ ++ others.2) = _
        rw [addedAddrs_append, silent]
        rfl

private theorem addedAddrs_mdnsCalls (found : List (PeerId × Multiaddr)) :
    addedAddrs (found.flatMap mdnsCalls) = found := by
  induction found with
  | nil =>
      rfl
  | cons entry rest inductionHypothesis =>
      rw [List.flatMap_cons, addedAddrs_append, inductionHypothesis]
      rfl

private theorem dialsAt_keys (now : Instant) (peer : PeerId)
    (addrs : List Multiaddr) :
    (dialsAt now peer addrs).map Stamped.key =
      addrs.map fun addr => (peer, addr) := by
  rw [dialsAt, List.map_map]
  rfl

private theorem addedAddrs_bootstrap (kadBootstrapped kadReady : Bool) :
    addedAddrs (bootstrapUnlessDone kadBootstrapped kadReady).2 = [] := by
  cases kadBootstrapped <;> rfl

private theorem addedAddrs_mapPort (address : Multiaddr) :
    addedAddrs (mapPortCalls address) = [] := by
  rw [mapPortCalls]
  split <;> rfl

section Rounds

variable {config : NodeConfig} {state : SwarmState}

theorem LoopEvent.Plain.dialsFor {event : LoopEvent} (plain : event.Plain) :
    event.dialsFor = none := by
  unfold LoopEvent.dialsFor
  split
  · exact plain.elim
  · exact plain.elim
  · rfl

private theorem LoopEvent.Plain.toldAddrs {event : LoopEvent}
    (plain : event.Plain)
    (surroundings : Surroundings) (effects : List Effect) :
    toldAddrs (surroundings, event) effects = [] := by
  unfold CocoNet.toldAddrs
  split
  · rename_i isIdentify
    cases isIdentify
    exact plain.elim
  · rename_i isDiscovered
    cases isDiscovered
    exact plain.elim
  · rw [recordedDials_of_none plain.dialsFor, List.map_nil]

/-- A round tells Kademlia what it has to. -/
theorem onSwarmInput_added {input : SwarmInput}
    {result : SwarmState × List SwarmCall}
    (handled : onSwarmInput config state input = .ok result) :
    addedAddrs result.2 = toldAddrs input.core (knownEffects result.2) := by
  cases swarmRound_of_onSwarmInput handled with
  | @ignored surroundings source msg =>
      have silent := recordedDials_nil
        (surroundings, .swarm (.gossip source (.announce (some msg))))
      exact (congrArg (List.map Stamped.key) silent).symm
  | @announced surroundings source msg _ _ peer called foreign about runs =>
      have dialsFor : (LoopEvent.swarm
          (.gossip source (.announce (some msg)))).dialsFor = some peer :=
        about
      simp only [SwarmInput.core, toldAddrs, recordedDials, dialsFor,
        dialsAt_keys]
      exact announceCalls_added runs
  | identified observedAddr kadReady runs announces =>
      rw [addedAddrs_append, identifyCalls_added runs]
      change _ ++ addedAddrs (_ ++ _) = _
      rw [addedAddrs_append, addedAddrs_effects, addedAddrs_bootstrap]
      exact List.append_nil _
  | discovered surroundings found =>
      exact addedAddrs_mdnsCalls found
  | listening observedAddr kadReady announces =>
      change addedAddrs (_ ++ _) = _
      rw [addedAddrs_append, addedAddrs_effects, addedAddrs_mapPort]
      rfl
  | plain observedAddr kadReady plain runs =>
      rw [addedAddrs_effects, SwarmInput.core, plain.toldAddrs]

end Rounds

/-! ## Whatever is dialed is told -/

/-- The address is the one that is dialed, or the dialed one is its canonical
form. -/
def DialedAs (addr dialed : Multiaddr) : Prop :=
  addr = dialed ∨ rebuildUdpQuic addr = some dialed

private theorem dialedAs_getD (addr : Multiaddr) :
    DialedAs addr ((rebuildUdpQuic addr).getD addr) := by
  cases canonical : rebuildUdpQuic addr with
  | none =>
      exact Or.inl rfl
  | some dialed =>
      exact Or.inr canonical

private theorem dialedAs_identifyTarget {addr dialed : Multiaddr}
    (target : identifyTarget addr = some dialed) : DialedAs addr dialed := by
  rw [identifyTarget] at target
  split at target
  · exact Or.inl (Option.some.inj target)
  · split at target
    · rw [← Option.some.inj target]
      exact dialedAs_getD addr
    · cases target

private theorem dialEach_subset {now : Instant} {peer : PeerId}
    {recent : RecentDials} {addrs : List Multiaddr}
    {dialed : RecentDials × List Multiaddr}
    (runs : dialEach now peer recent addrs = .ok dialed) :
    dialed.2 ⊆ addrs := by
  induction addrs generalizing recent dialed with
  | nil =>
      rw [← Except.ok.inj runs]
      exact List.Subset.refl []
  | cons addr rest inductionHypothesis =>
      rw [dialEach] at runs
      obtain ⟨first, firstRuns, restRuns⟩ := Checked.bind_eq_ok runs
      obtain ⟨others, othersRun, joined⟩ := Checked.bind_eq_ok restRuns
      have firstSubset : first.2 ⊆ [addr] := by
        rw [dialUnlessRecent] at firstRuns
        obtain ⟨seed, _, decided⟩ := Checked.bind_eq_ok firstRuns
        split at decided <;> rw [← Except.ok.inj decided] <;> simp
      rw [← Except.ok.inj joined]
      intro found member
      rcases List.mem_append.1 member with isFirst | isOther
      · rw [List.mem_singleton.1 (firstSubset isFirst)]
        exact List.mem_cons_self
      · exact List.mem_cons_of_mem addr (inductionHypothesis othersRun isOther)

section Told

variable {config : NodeConfig} {state : LoopState}
variable {surroundings : Surroundings}

private theorem recordedDials_told {event : LoopEvent}
    {result : LoopState × List Effect}
    (handled : onLoopEvent config surroundings state event = .ok result)
    {dial : Dial}
    (member : dial ∈ recordedDials (surroundings, event) result.2) :
    ∃ addr,
      (dial.key.1, addr) ∈ toldAddrs (surroundings, event) result.2 ∧
        DialedAs addr dial.key.2 := by
  by_cases identifies : ∃ peer listenAddrs,
      event = .swarm (.identifyReceived peer listenAddrs)
  · obtain ⟨peer, listenAddrs, same⟩ := identifies
    subst same
    have through := identify_dialsThrough config surroundings state peer
      listenAddrs
    rw [through.runs] at handled
    obtain ⟨dialed, runs, finished⟩ := Checked.bind_eq_ok handled
    rw [← Except.ok.inj finished] at member
    simp only [recordedDials, LoopEvent.dialsFor, through.dials] at member
    obtain ⟨found, isDialed, same⟩ := List.mem_map.1 member
    have isOffered := dialEach_subset runs isDialed
    rw [LoopEvent.offeredAddrs] at isOffered
    split at isOffered
    · cases isOffered
    · obtain ⟨addr, listed, target⟩ := List.mem_filterMap.1 isOffered
      rw [← same]
      exact ⟨addr, List.mem_map.2 ⟨addr, listed, rfl⟩,
        dialedAs_identifyTarget ((identifyTarget_eq addr).trans target)⟩
  · refine ⟨dial.key.2, ?_, Or.inl rfl⟩
    have isKey : (dial.key.1, dial.key.2) ∈
        (recordedDials (surroundings, event) result.2).map Stamped.key :=
      List.mem_map.2 ⟨dial, member, rfl⟩
    unfold toldAddrs
    split
    · rename_i peer listenAddrs same
      exact absurd ⟨peer, listenAddrs, same⟩ identifies
    · rename_i found same
      have nobody : event.dialsFor = none := by
        dsimp only at same
        rw [same]
        rfl
      rw [recordedDials_of_none nobody] at member
      cases member
    · exact isKey

/-- Whatever a round dials for a peer, it has to tell. -/
theorem attemptedDials_told (config : NodeConfig) (state : LoopState)
    {input : Surroundings × LoopEvent} {dial : Dial}
    (member : dial ∈
      attemptedDials input ((eventLoop config).step state input).2) :
    ∃ addr,
      (dial.key.1, addr) ∈
          toldAddrs input ((eventLoop config).step state input).2 ∧
        DialedAs addr dial.key.2 := by
  by_cases running : state.status = .running
  swap
  · rw [eventLoop_step_stopped config running, attemptedDials_nil] at member
    cases member
  rcases List.mem_append.1 member with isRecorded | isMdns
  · rw [eventLoop_step_running config running] at isRecorded ⊢
    cases handled : onLoopEvent config input.1 state input.2 with
    | error fault =>
        rw [handled, recordedDials_nil] at isRecorded
        cases isRecorded
    | ok result =>
        rw [handled] at isRecorded
        exact recordedDials_told handled isRecorded
  · cases discovered : input.2.discovered with
    | none =>
        rw [mdnsDials_of_none discovered] at isMdns
        cases isMdns
    | some found =>
        rw [mdnsDials_step config running discovered] at isMdns
        obtain ⟨entry, isFound, same⟩ := List.mem_map.1 isMdns
        rw [← same]
        refine ⟨entry.2, ?_, dialedAs_getD entry.2⟩
        rw [toldAddrs, eq_mdnsDiscovered discovered]
        exact isFound

end Told

/-! ## Runs -/

section Runs

variable (config : NodeConfig)

private theorem addedAddrs_outputsOf {inputs : List SwarmInput}
    (running : ((swarmLoop config).stateAfter inputs).loop.status =
      .running) :
    addedAddrs ((swarmLoop config).outputsOf inputs) =
      toldLog config (cores inputs) := by
  induction inputs using List.reverseRecOn with
  | nil =>
      rfl
  | append_singleton earlier input inductionHypothesis =>
      obtain ⟨before, round⟩ := swarmLoop_round config running
      have effects := (swarmLoop_step config
        ((swarmLoop config).stateAfter earlier) input).2
      rw [(swarmLoop_run config earlier).1] at effects
      have coresShape : cores (earlier ++ [input]) =
          cores earlier ++ [input.core] :=
        List.map_append
      rw [outputsOf_snoc, addedAddrs_append, inductionHypothesis before,
        onSwarmInput_added round, coresShape, toldLog_snoc, effects]

/-- In every run of a loop that still runs: with the calls on the swarm left
out, the loop is the loop of the other modules; Kademlia has been told, in this
order, the addresses that each round has to tell; and whatever was dialed for a
peer, by announcements, Identify or mDNS, was told for this peer, as it is or
with the dialed address as its canonical form. -/
theorem kad_told_dialed {inputs : List SwarmInput}
    (running : ((swarmLoop config).stateAfter inputs).loop.status =
      .running) :
    knownEffects ((swarmLoop config).outputsOf inputs) =
        (eventLoop config).outputsOf (cores inputs) ∧
      addedAddrs ((swarmLoop config).outputsOf inputs) =
        toldLog config (cores inputs) ∧
      ∀ dial, dial ∈ attemptLog config (cores inputs) →
        ∃ addr, (dial.key.1, addr) ∈
            addedAddrs ((swarmLoop config).outputsOf inputs) ∧
          DialedAs addr dial.key.2 := by
  have added := addedAddrs_outputsOf config running
  refine ⟨(swarmLoop_run config inputs).2, added, ?_⟩
  intro dial member
  obtain ⟨earlier, input, later, shape, atRound⟩ :=
    (mem_outputsOf_observe_iff _ _ _ _).1 member
  obtain ⟨addr, told, dialedAs⟩ := attemptedDials_told config _ atRound
  refine ⟨addr, ?_, dialedAs⟩
  rw [added]
  exact (mem_outputsOf_observe_iff _ _ _ _).2
    ⟨earlier, input, later, shape, told⟩

end Runs

/-- A listen address with the peer's name at its end: Kademlia is told the
address, the dial goes to its canonical form. -/
def identifiedOnce : List SwarmInput :=
  [⟨⟨60000, 0, true⟩, .swarm (.identifyReceived ⟨[7]⟩
      [[.ip4 ⟨8, 8, 8, 8⟩, .udp 4001, .quicV1, .p2p ⟨[7]⟩]]), [], true⟩]

theorem kad_told_dialed_identified :
    addedAddrs ((swarmLoop ⟨⟨[1]⟩, ⟨64, 8⟩⟩).outputsOf identifiedOnce) =
        [(⟨[7]⟩, [.ip4 ⟨8, 8, 8, 8⟩, .udp 4001, .quicV1, .p2p ⟨[7]⟩])] ∧
      attemptLog ⟨⟨[1]⟩, ⟨64, 8⟩⟩ (cores identifiedOnce) =
        [⟨60000, (⟨[7]⟩, [.ip4 ⟨8, 8, 8, 8⟩, .udp 4001, .quicV1])⟩] := by
  obtain ⟨_, told, _⟩ :=
    @kad_told_dialed ⟨⟨[1]⟩, ⟨64, 8⟩⟩ identifiedOnce (by decide +kernel)
  exact ⟨told.trans (by decide +kernel), by decide +kernel⟩

end CocoNet
