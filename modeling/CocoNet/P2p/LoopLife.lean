import CocoNet.P2p.OwnAddrs

/-!
# How the event loop ends

Nothing that peers send, no packet of the host and no event of the swarm stops
the loop, with one exception: the handlers of announcements and of Identify
subtract a minute from the clock before they consider an address, and the
subtraction panics within the first minute of the clock.
-/

namespace CocoNet

open StepMachine

/-! ## One round -/

section Round

variable {config : NodeConfig} {surroundings : Surroundings}
variable {state : LoopState}

theorem onGossip_succeeds {source : Option PeerId} {message : GossipMessage}
    (nobody : (LoopEvent.swarm (.gossip source message)).dialsFor = none) :
    Checked.Succeeds
      (onGossip config surroundings.now state source message) := by
  unfold onGossip
  by_cases own : source = some config.localPeer
  · rw [if_pos own]
    exact ⟨_, rfl⟩
  rw [if_neg own]
  cases message with
  | packets data =>
      obtain ⟨unpacked, unpacks⟩ := unpackBatch_succeeds data
      dsimp only
      rw [unpackGossip, unpacks]
      exact ⟨_, rfl⟩
  | announce msg =>
      cases msg with
      | none =>
          exact ⟨_, rfl⟩
      | some msg =>
          have noPeer : msg.peer = none := nobody
          dsimp only
          rw [onAnnounce, noPeer]
          exact ⟨_, rfl⟩

/-- A handler that does not underflow returns. -/
theorem onLoopEvent_succeeds (running : state.status = .running)
    {event : LoopEvent}
    (noUnderflow : ¬ Underflows config state (surroundings, event)) :
    Checked.Succeeds (onLoopEvent config surroundings state event) := by
  cases dialsFor : event.dialsFor with
  | some peer =>
      obtain ⟨recent, finish, through⟩ :=
        onLoopEvent_dialsThrough config surroundings state dialsFor
      have dials : Checked.Succeeds (dialEach surroundings.now peer recent
          (event.offeredAddrs config state.connections.directPeers)) := by
        by_cases none :
            event.offeredAddrs config state.connections.directPeers = []
        · rw [none]
          exact ⟨_, rfl⟩
        · apply dialEach_succeeds
          apply Nat.le_of_not_lt
          intro early
          apply noUnderflow
          refine ⟨?_, early⟩
          intro empty
          exact none ((offers_eq_nil_iff running dialsFor).1 empty)
      obtain ⟨dialed, runs⟩ := dials
      rw [through.runs, runs]
      exact ⟨_, rfl⟩
  | none =>
      cases event with
      | uplink event =>
          exact ⟨_, rfl⟩
      | swarm event =>
          cases event with
          | gossip source message =>
              exact onGossip_succeeds dialsFor
          | request peer request =>
              obtain ⟨unpacked, unpacks⟩ := unpackBatch_succeeds request
              rw [onLoopEvent, onSwarmEvent, unpackRequest, unpacks]
              exact ⟨_, rfl⟩
          | identifyReceived peer listenAddrs =>
              cases dialsFor
          | mdnsDiscovered found | connection event | autonat
          | newListenAddr address | externalAddrConfirmed address
          | externalAddrExpired address | listenerClosed addresses =>
              exact ⟨_, rfl⟩

/-- Only the closed channel changes the status of a loop whose handler
returns. -/
theorem status_onLoopEvent {event : LoopEvent}
    {result : LoopState × List Effect}
    (handled : onLoopEvent config surroundings state event = .ok result) :
    result.1.status =
      if event = .uplink (.recv none) then .ended else state.status := by
  cases event with
  | uplink event =>
      rw [← Except.ok.inj handled]
      by_cases closed : event = .recv none
      · subst closed
        rfl
      · have notClosed : LoopEvent.uplink event ≠ .uplink (.recv none) := by
          intro same
          exact closed (LoopEvent.uplink.inj same)
        rw [if_neg notClosed]
        exact if_neg closed
  | swarm event =>
      have notClosed : LoopEvent.swarm event ≠ .uplink (.recv none) := by
        intro same
        cases same
      rw [if_neg notClosed]
      by_cases isConnection : ∃ inner, event = .connection inner
      · obtain ⟨inner, same⟩ := isConnection
        subst same
        rw [← Except.ok.inj handled]
        exact (onConnection_steps config surroundings state inner).status
      · apply Quiet.status
        apply onSwarmEvent_quiet _ handled
        intro inner same
        exact isConnection ⟨inner, same⟩

/-- A round of a running loop ends it if the channel has closed, aborts it if
its handler underflows, and leaves it running otherwise. -/
theorem step_status (running : state.status = .running)
    (input : Surroundings × LoopEvent) :
    (((eventLoop config).step state input).1.status = .running ↔
      input.2 ≠ .uplink (.recv none) ∧ ¬ Underflows config state input) ∧
    (((eventLoop config).step state input).1.status = .aborted ↔
      Underflows config state input) := by
  by_cases underflows : Underflows config state input
  · rw [step_of_early config underflows.1 underflows.2]
    simp [underflows]
  · obtain ⟨result, handled⟩ := onLoopEvent_succeeds running underflows
    rw [eventLoop_step_running config running, handled]
    dsimp only
    rw [status_onLoopEvent handled, running]
    by_cases closed : input.2 = .uplink (.recv none)
    · simp [closed, underflows]
    · simp [closed, underflows]

end Round

/-! ## Runs -/

/-- The channel stays open, and no handler underflows. -/
def Survives (config : NodeConfig)
    (earlier : List (Surroundings × LoopEvent))
    (input : Surroundings × LoopEvent) : Prop :=
  input.2 ≠ .uplink (.recv none) ∧
    ¬ Underflows config ((eventLoop config).stateAfter earlier) input

theorem running_iff (config : NodeConfig)
    (inputs : List (Surroundings × LoopEvent)) :
    ((eventLoop config).stateAfter inputs).status = .running ↔
      EachStep (Survives config) inputs := by
  induction inputs using List.reverseRecOn with
  | nil =>
      exact iff_of_true rfl (eachStep_nil _)
  | append_singleton earlier input inductionHypothesis =>
      rw [eachStep_snoc_iff, ← inductionHypothesis, stateAfter_snoc]
      by_cases running :
          ((eventLoop config).stateAfter earlier).status = .running
      · rw [(step_status running input).1, and_iff_right running]
        rfl
      · rw [eventLoop_step_stopped config running]
        exact iff_of_false running fun both => running both.1

private theorem aborted_iff (config : NodeConfig)
    (inputs : List (Surroundings × LoopEvent)) :
    ((eventLoop config).stateAfter inputs).status = .aborted ↔
      ∃ earlier input later, inputs = earlier ++ input :: later ∧
        EachStep (Survives config) earlier ∧
        Underflows config ((eventLoop config).stateAfter earlier) input := by
  induction inputs using List.reverseRecOn with
  | nil =>
      apply iff_of_false
      · intro aborted
        cases aborted
      · intro ⟨earlier, input, later, shape, _⟩
        simp at shape
  | append_singleton before last inductionHypothesis =>
      rw [stateAfter_snoc]
      by_cases running :
          ((eventLoop config).stateAfter before).status = .running
      · rw [(step_status running last).2]
        constructor
        · intro underflows
          exact ⟨before, last, [], rfl, (running_iff config before).1 running,
            underflows⟩
        · intro ⟨earlier, input, later, shape, survives, underflows⟩
          rcases snoc_split shape with ⟨same, sameLast⟩ | ⟨middle, split⟩
          · rw [same, sameLast]
            exact underflows
          · -- An underflow before the last round would have stopped the loop.
            have goesOn := (running_iff config before).1 running
            exact absurd underflows (goesOn earlier input middle split).2
      · rw [eventLoop_step_stopped config running, inductionHypothesis]
        constructor
        · intro ⟨earlier, input, later, shape, survives, underflows⟩
          exact ⟨earlier, input, later ++ [last], by simp [shape], survives,
            underflows⟩
        · intro ⟨earlier, input, later, shape, survives, underflows⟩
          rcases snoc_split shape with ⟨same, _⟩ | ⟨middle, split⟩
          · rw [← same] at survives
            exact absurd ((running_iff config before).2 survives) running
          · exact ⟨earlier, input, middle, split, survives, underflows⟩

private theorem not_underflows_of_late {config : NodeConfig} {state : LoopState}
    {input : Surroundings × LoopEvent}
    (late : dialCooldown * 2 ≤ input.1.now) :
    ¬ Underflows config state input :=
  fun underflows => absurd late (Nat.not_le_of_lt underflows.2)

/-- In every run, the loop still runs exactly if the channel has stayed open
and no handler has underflowed, and it has aborted exactly if one of its
handlers underflowed: it was offered an address to dial within the first minute
of the clock.  From then on no input whatsoever aborts it. -/
theorem loop_stops_exactly (config : NodeConfig)
    (inputs : List (Surroundings × LoopEvent)) :
    (((eventLoop config).stateAfter inputs).status = .running ↔
      EachStep (Survives config) inputs) ∧
    (((eventLoop config).stateAfter inputs).status = .aborted ↔
      ∃ earlier input later, inputs = earlier ++ input :: later ∧
        EachStep (Survives config) earlier ∧
        Underflows config ((eventLoop config).stateAfter earlier) input) ∧
    ((∀ input, input ∈ inputs → dialCooldown * 2 ≤ input.1.now) →
      ((eventLoop config).stateAfter inputs).status ≠ .aborted ∧
        (((eventLoop config).stateAfter inputs).status = .ended ↔
          ∃ input, input ∈ inputs ∧ input.2 = .uplink (.recv none))) := by
  refine ⟨running_iff config inputs, aborted_iff config inputs, ?_⟩
  intro late
  have never : ((eventLoop config).stateAfter inputs).status ≠ .aborted := by
    intro aborted
    obtain ⟨earlier, input, later, shape, _, underflows⟩ :=
      (aborted_iff config inputs).1 aborted
    have isLate := late input (by simp [shape])
    exact not_underflows_of_late isLate underflows
  refine ⟨never, ?_⟩
  have ended : ((eventLoop config).stateAfter inputs).status = .ended ↔
      ¬ ((eventLoop config).stateAfter inputs).status = .running := by
    cases status : ((eventLoop config).stateAfter inputs).status with
    | running | ended => simp
    | aborted => exact absurd status never
  rw [ended, running_iff]
  constructor
  · intro stops
    by_contra neverClosed
    apply stops
    intro earlier input later shape
    refine ⟨?_, not_underflows_of_late (late input (by simp [shape]))⟩
    intro closed
    exact neverClosed ⟨input, by simp [shape], closed⟩
  · intro ⟨input, member, closed⟩ survives
    obtain ⟨earlier, later, shape⟩ := List.append_of_mem member
    exact (survives earlier input later shape).1 closed

end CocoNet
