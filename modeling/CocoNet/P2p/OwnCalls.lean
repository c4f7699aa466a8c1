import CocoNet.P2p.SwarmCalls

/-!
# The node's own calls on the swarm

An Identify tells the swarm how the peer sees the node, and asks Kademlia to
bootstrap until it has; a new listener is an external address, and has its port
mapped.  A bootstrap that Kademlia is not ready for is tried again at the next
Identify; after the first success there is no other.
-/

namespace CocoNet

open StepMachine

/-! ## The calls of a round -/

/-- The calls that are not about another peer. -/
def SwarmCall.isOwn : SwarmCall → Bool
  | .effect _ => false
  | .addAddress _ _ => false
  | .addExternalAddress _ => true
  | .bootstrap => true
  | .mapPort _ _ => true

def ownCalls (calls : List SwarmCall) : List SwarmCall :=
  calls.filter SwarmCall.isOwn

private theorem ownCalls_append (first second : List SwarmCall) :
    ownCalls (first ++ second) = ownCalls first ++ ownCalls second :=
  List.filter_append ..

private theorem ownCalls_eq_nil {calls : List SwarmCall}
    (others : ∀ call, call ∈ calls → call.isOwn = false) :
    ownCalls calls = [] := by
  rw [ownCalls, List.filter_eq_nil_iff]
  intro call member isOwn
  rw [others call member] at isOwn
  cases isOwn

private theorem ownCalls_effects (effects : List Effect) :
    ownCalls (effects.map .effect) = [] := by
  apply ownCalls_eq_nil
  intro call member
  obtain ⟨effect, _, same⟩ := List.mem_map.1 member
  rw [← same]
  rfl

private theorem ownCalls_mapPort (address : Multiaddr) :
    ownCalls (mapPortCalls address) = mapPortCalls address := by
  rw [mapPortCalls]
  split <;> rfl

private theorem announceCalls_notOwn {now : Instant} {peer : PeerId}
    {recent : RecentDials} {addrs : List (Option Multiaddr)}
    {called : RecentDials × List SwarmCall}
    (runs : announceCalls now peer recent addrs = .ok called) :
    ∀ call, call ∈ called.2 → call.isOwn = false := by
  obtain ⟨dialed, shape⟩ := announceCalls_shape runs
  intro call member
  rw [shape] at member
  obtain ⟨addr, _, listed⟩ := List.mem_flatMap.1 member
  rcases List.mem_pair.1 listed with rfl | rfl
  · rfl
  · rfl

private theorem identifyCalls_notOwn {now : Instant} {peer : PeerId}
    {direct : Bool}
    {recent : RecentDials} {listenAddrs : List Multiaddr}
    {called : RecentDials × List SwarmCall}
    (runs : identifyCalls now peer direct recent listenAddrs = .ok called) :
    ∀ call, call ∈ called.2 → call.isOwn = false := by
  induction listenAddrs generalizing recent called with
  | nil =>
      rw [← Except.ok.inj runs]
      simp
  | cons addr rest inductionHypothesis =>
      rw [identifyCalls] at runs
      split at runs
      · obtain ⟨others, othersRun, joined⟩ := Checked.bind_eq_ok runs
        rw [← Except.ok.inj joined]
        intro call member
        rcases List.mem_cons.1 member with isFirst | isOther
        · rw [isFirst]
          rfl
        · exact inductionHypothesis othersRun call isOther
      · obtain ⟨dialed, _, restRuns⟩ := Checked.bind_eq_ok runs
        obtain ⟨others, othersRun, joined⟩ := Checked.bind_eq_ok restRuns
        rw [← Except.ok.inj joined]
        intro call member
        rcases List.mem_cons.1 member with isFirst | later
        · rw [isFirst]
          rfl
        rcases List.mem_append.1 later with isDial | isOther
        · obtain ⟨found, _, same⟩ := List.mem_map.1 isDial
          rw [← same]
          rfl
        · exact inductionHypothesis othersRun call isOther

/-- Whether Kademlia is ready, when an Identify asks for the bootstrap. -/
def SwarmInput.ready (input : SwarmInput) : Option Bool :=
  match input.event with
  | .swarm (.identifyReceived _ _) => some input.kadReady
  | _ => none

def bootstrappedBy (inputs : List SwarmInput) : Bool :=
  inputs.any fun input => input.ready == some true

/-- The own calls of a round, given whether Kademlia has been bootstrapped. -/
def SwarmInput.ownCalls (input : SwarmInput) (kadBootstrapped : Bool) :
    List SwarmCall :=
  match input.event with
  | .swarm (.identifyReceived _ _) =>
      .addExternalAddress input.observedAddr ::
        if kadBootstrapped then [] else [.bootstrap]
  | .swarm (.newListenAddr address) =>
      .addExternalAddress address :: mapPortCalls address
  | _ => []

section OwnRounds

variable {config : NodeConfig} {state : SwarmState}

private theorem LoopEvent.Plain.ownCalls {input : SwarmInput}
    (plain : input.event.Plain) (kadBootstrapped : Bool) :
    input.ownCalls kadBootstrapped = [] := by
  unfold SwarmInput.ownCalls
  split
  · rename_i isIdentify
    rw [isIdentify] at plain
    exact plain.elim
  · rename_i isNew
    rw [isNew] at plain
    exact plain.elim
  · rfl

theorem LoopEvent.Plain.ready {input : SwarmInput}
    (plain : input.event.Plain) : input.ready = none := by
  unfold SwarmInput.ready
  split
  · rename_i isIdentify
    rw [isIdentify] at plain
    exact plain.elim
  · rfl

private theorem mdnsCalls_notOwn (found : List (PeerId × Multiaddr)) :
    ownCalls (found.flatMap mdnsCalls) = [] := by
  apply ownCalls_eq_nil
  intro call member
  rcases List.mem_flatMap.1 member with ⟨entry, _, listed⟩
  rcases List.mem_pair.1 listed with isAdded | isDialed
  · rw [isAdded]
    rfl
  · rw [isDialed]
    rfl

/-- What a round calls on the node's own behalf, and whether it gets Kademlia
bootstrapped. -/
theorem onSwarmInput_own {input : SwarmInput}
    {result : SwarmState × List SwarmCall}
    (handled : onSwarmInput config state input = .ok result) :
    ownCalls result.2 = input.ownCalls state.kadBootstrapped ∧
      result.1.kadBootstrapped =
        (state.kadBootstrapped || input.ready == some true) := by
  cases swarmRound_of_onSwarmInput handled with
  | ignored =>
      exact ⟨rfl, (Bool.or_false _).symm⟩
  | announced observedAddr kadReady foreign about runs =>
      exact ⟨ownCalls_eq_nil (announceCalls_notOwn runs),
        (Bool.or_false _).symm⟩
  | identified observedAddr kadReady runs announces =>
      rw [ownCalls_append, ownCalls_eq_nil (identifyCalls_notOwn runs)]
      change _ :: ownCalls (_ ++ _) = _ ∧ _
      rw [ownCalls_append, ownCalls_effects]
      cases state.kadBootstrapped <;> cases kadReady <;> exact ⟨rfl, rfl⟩
  | discovered surroundings found =>
      exact ⟨mdnsCalls_notOwn found, (Bool.or_false _).symm⟩
  | listening observedAddr kadReady announces =>
      refine ⟨?_, (Bool.or_false _).symm⟩
      change _ :: ownCalls (_ ++ _) = _
      rw [ownCalls_append, ownCalls_effects, ownCalls_mapPort]
      rfl
  | @plain surroundings event observedAddr kadReady done plain runs =>
      let input : SwarmInput := ⟨surroundings, event, observedAddr, kadReady⟩
      have notReady : input.ready = none := LoopEvent.Plain.ready plain
      have nothing : input.ownCalls state.kadBootstrapped = [] :=
        LoopEvent.Plain.ownCalls plain _
      rw [ownCalls_effects, nothing, notReady]
      exact ⟨rfl, (Bool.or_false _).symm⟩

end OwnRounds

/-! ## Runs -/

section OwnRuns

variable {config : NodeConfig}

private theorem swarmLoop_own {inputs : List SwarmInput}
    (running : ((swarmLoop config).stateAfter inputs).loop.status =
      .running) :
    ownCalls ((swarmLoop config).outputsOf inputs) =
        (history fun earlier (input : SwarmInput) =>
          input.ownCalls (bootstrappedBy earlier)).outputsOf inputs ∧
      ((swarmLoop config).stateAfter inputs).kadBootstrapped =
        bootstrappedBy inputs := by
  induction inputs using List.reverseRecOn with
  | nil =>
      exact ⟨rfl, rfl⟩
  | append_singleton earlier input inductionHypothesis =>
      obtain ⟨before, round⟩ := swarmLoop_round config running
      obtain ⟨calls, bootstrapped⟩ := inductionHypothesis before
      obtain ⟨roundCalls, roundBootstrapped⟩ := onSwarmInput_own round
      rw [outputsOf_snoc, stateAfter_snoc, ownCalls_append, calls, roundCalls,
        roundBootstrapped, bootstrapped, outputsOf_history_snoc]
      refine ⟨rfl, ?_⟩
      simp [bootstrappedBy]

/-- How often the bootstrap is tried, when it is ready as given: up to the
first success. -/
def triesUntilReady (ready : List Bool) : Nat :=
  (ready.takeWhile fun isReady => !isReady).length +
    if ready.any id then 1 else 0

private theorem triesUntilReady_snoc (ready : List Bool) (last : Bool) :
    triesUntilReady (ready ++ [last]) =
      triesUntilReady ready + if ready.any id then 0 else 1 := by
  induction ready with
  | nil =>
      cases last <;> rfl
  | cons first rest inductionHypothesis =>
      cases first with
      | true =>
          simp [triesUntilReady]
      | false =>
          simp only [triesUntilReady, List.cons_append, List.any_cons]
            at inductionHypothesis ⊢
          simp only [List.takeWhile_cons, Bool.not_false, if_true,
            List.length_cons, id_eq, Bool.false_or]
          omega

def readiness (inputs : List SwarmInput) : List Bool :=
  inputs.filterMap SwarmInput.ready

private theorem any_readiness (inputs : List SwarmInput) :
    (readiness inputs).any id = bootstrappedBy inputs := by
  rw [readiness, List.any_filterMap, bootstrappedBy]
  congr 1
  funext input
  rcases input.ready with _ | isReady
  · rfl
  · cases isReady <;> rfl

private theorem count_ownCalls (input : SwarmInput) (kadBootstrapped : Bool) :
    (input.ownCalls kadBootstrapped).count .bootstrap =
      if kadBootstrapped then 0 else input.ready.toList.length := by
  rcases input with ⟨surroundings, event, observedAddr, kadReady⟩
  cases event with
  | uplink event =>
      simp [SwarmInput.ownCalls, SwarmInput.ready]
  | swarm event =>
      cases event with
      | identifyReceived peer listenAddrs =>
          cases kadBootstrapped <;>
            simp [SwarmInput.ownCalls, SwarmInput.ready]
      | newListenAddr address =>
          have noBootstrap : SwarmCall.bootstrap ∉ mapPortCalls address := by
            rw [mapPortCalls]
            split <;> simp
          simp [SwarmInput.ownCalls, SwarmInput.ready,
            List.count_eq_zero.2 noBootstrap]
      | _ =>
          simp [SwarmInput.ownCalls, SwarmInput.ready]

private theorem count_bootstrap_history (inputs : List SwarmInput) :
    ((history fun earlier (input : SwarmInput) =>
        input.ownCalls (bootstrappedBy earlier)).outputsOf inputs).count
          .bootstrap =
      triesUntilReady (readiness inputs) := by
  induction inputs using List.reverseRecOn with
  | nil =>
      rfl
  | append_singleton earlier input inductionHypothesis =>
      have split : readiness (earlier ++ [input]) =
          readiness earlier ++ input.ready.toList := by
        rw [readiness, List.filterMap_append]
        cases ready : input.ready <;> simp [readiness, ready]
      rw [outputsOf_history_snoc, List.count_append, inductionHypothesis,
        count_ownCalls, split, ← any_readiness]
      cases input.ready with
      | none =>
          simp
      | some isReady =>
          rw [Option.toList_some, triesUntilReady_snoc]
          rfl

/-- In every run of a loop that still runs: the calls that the loop makes on
the node's own behalf are those that its rounds call for, an external address
for each Identify and each new listener, and a port mapping for the latter; and
the bootstrap is tried at every Identify up to the first one for which
Kademlia is ready, and never again. -/
theorem own_calls_exact {inputs : List SwarmInput}
    (running : ((swarmLoop config).stateAfter inputs).loop.status =
      .running) :
    ownCalls ((swarmLoop config).outputsOf inputs) =
        (history fun earlier (input : SwarmInput) =>
          input.ownCalls (bootstrappedBy earlier)).outputsOf inputs ∧
      ((swarmLoop config).outputsOf inputs).count .bootstrap =
        triesUntilReady (readiness inputs) := by
  obtain ⟨calls, _⟩ := swarmLoop_own running
  refine ⟨calls, ?_⟩
  rw [← count_bootstrap_history, ← calls, ownCalls]
  exact (List.count_filter rfl).symm

end OwnRuns

/-- Kademlia is not ready for the first Identify, but for the second. -/
def identifiedThrice : List SwarmInput :=
  [⟨⟨0, 0, true⟩, .swarm (.identifyReceived ⟨[7]⟩ []), [.udp 1], false⟩,
    ⟨⟨1, 0, true⟩, .swarm (.identifyReceived ⟨[8]⟩ []), [.udp 2], true⟩,
    ⟨⟨2, 0, true⟩, .swarm (.identifyReceived ⟨[7]⟩ []), [.udp 3], true⟩]

theorem own_calls_exact_thrice :
    ownCalls ((swarmLoop ⟨⟨[1]⟩, ⟨64, 8⟩⟩).outputsOf identifiedThrice) =
      [.addExternalAddress [.udp 1], .bootstrap, .addExternalAddress [.udp 2],
        .bootstrap, .addExternalAddress [.udp 3]] := by
  refine (@own_calls_exact ⟨⟨[1]⟩, ⟨64, 8⟩⟩ identifiedThrice
    (by decide +kernel)).1.trans (by decide +kernel)

end CocoNet
