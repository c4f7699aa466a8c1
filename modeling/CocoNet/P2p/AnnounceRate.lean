import CocoNet.P2p.LoopLife

/-!
# When a node announces itself

Five kinds of events make a node try to announce its public addresses: two
report one of its addresses, Identify and AutoNAT answer, and the first
connection of all is established.  A try comes to nothing while no public
address is known or the last announcement that gossipsub accepted is less than
thirty seconds old.  An announcement that gossipsub refuses is forgotten, so
the next try publishes again.
-/

namespace CocoNet

open StepMachine
open Cooldown

/-! ## What the history says -/

def LoopEvent.establishes : LoopEvent → Bool
  | .swarm (.connection (.established _ _ _)) => true
  | _ => false

/-- The event makes the node try to announce itself. -/
def triesToAnnounce (earlier : List (Surroundings × LoopEvent)) :
    LoopEvent → Bool
  | .swarm (.newListenAddr _) => true
  | .swarm (.externalAddrConfirmed _) => true
  | .swarm (.identifyReceived _ _) => true
  | .swarm .autonat => true
  | .swarm (.connection (.established _ _ _)) =>
      !earlier.any fun before => before.2.establishes
  | _ => false

/-- A public address of the node has been reported. -/
def knowsPublicAddr (inputs : List (Surroundings × LoopEvent)) : Bool :=
  inputs.any fun input => (input.2.reportedAddr.bind publicForm).isSome

/-- The announcement that gossipsub would accept in this round, if one was
due. -/
def acceptableAt (earlier : List (Surroundings × LoopEvent))
    (input : Surroundings × LoopEvent) : List (Stamped Unit) :=
  if triesToAnnounce earlier input.2 && knowsPublicAddr (earlier ++ [input]) &&
      input.1.accepted then
    [⟨input.1.now, ()⟩]
  else []

def acceptable (inputs : List (Surroundings × LoopEvent)) :
    List (Stamped Unit) :=
  (history acceptableAt).outputsOf inputs

/-! ## What the loop does -/

def acceptedAt (input : Surroundings × LoopEvent) (effects : List Effect) :
    List (Stamped Unit) :=
  if announcements effects ≠ [] ∧ input.1.accepted = true then
    [⟨input.1.now, ()⟩]
  else []

/-- The announcements that gossipsub has accepted. -/
def announceLog (config : NodeConfig)
    (inputs : List (Surroundings × LoopEvent)) : List (Stamped Unit) :=
  ((eventLoop config).observe fun _ input effects =>
    acceptedAt input effects).outputsOf inputs

private theorem announceLog_snoc (config : NodeConfig)
    (inputs : List (Surroundings × LoopEvent))
    (input : Surroundings × LoopEvent) :
    announceLog config (inputs ++ [input]) =
      announceLog config inputs ++
        acceptedAt input ((eventLoop config).step
          ((eventLoop config).stateAfter inputs) input).2 :=
  outputsOf_observe_snoc _ _ _ _

/-! ## One try -/

section Publish

variable {localPeer : PeerId} {surroundings : Surroundings}
variable {state : AnnounceState}

private theorem announcedRecently_iff :
    announcedRecently surroundings.now state = true ↔
      ∃ stamp, state.lastAnnounce = some stamp ∧
        surroundings.now < stamp + announceCooldown := by
  unfold announcedRecently
  cases last : state.lastAnnounce with
  | none =>
      simp
  | some announced =>
      have positive : 0 < announceCooldown := by decide
      simp [elapsed_lt_iff positive]

/-- A try publishes if there is something to publish and nothing was accepted
recently; it is stamped if it is accepted. -/
theorem publishAnnounce_eq :
    publishAnnounce localPeer surroundings state =
      if announcedRecently surroundings.now state = false ∧
          announcedAddrs state ≠ ∅ then
        (if surroundings.accepted then
            { state with lastAnnounce := some surroundings.now }
          else state,
          [⟨localPeer, announcedAddrs state, surroundings.unixSeconds⟩])
      else (state, []) := by
  unfold publishAnnounce
  by_cases recent : announcedRecently surroundings.now state = true
  · simp [recent]
  · by_cases empty : announcedAddrs state = ∅
    · simp [empty]
    · simp [recent, empty]

end Publish

/-! ## One round -/

private theorem announceFrom_announcedOnce (localPeer : PeerId)
    (surroundings : Surroundings) (state : AnnounceState)
    (prepared : Option AnnounceState) :
    (announceFrom localPeer surroundings state prepared).1.announcedOnce =
      (prepared.getD state).announcedOnce := by
  cases prepared with
  | none =>
      rfl
  | some prepared =>
      rw [announceFrom, publishAnnounce_eq]
      split
      · split <;> rfl
      · rfl

/-- What an event does to the announcing state before the try. -/
theorem announcesFrom_prepares (state : AnnounceState) (event : LoopEvent) :
    ((event.announcesFrom state).getD state).announcedOnce =
        (state.announcedOnce || event.establishes) ∧
      ((event.announcesFrom state).getD state).lastAnnounce =
        state.lastAnnounce := by
  have recorded : ∀ address,
      (recordAddr state address).announcedOnce = state.announcedOnce ∧
        (recordAddr state address).lastAnnounce = state.lastAnnounce := by
    intro address
    unfold recordAddr
    split
    · split <;> exact ⟨rfl, rfl⟩
    · exact ⟨rfl, rfl⟩
  cases event with
  | uplink event =>
      simp [LoopEvent.announcesFrom, LoopEvent.establishes]
  | swarm event =>
      cases event with
      | newListenAddr address | externalAddrConfirmed address =>
          simp [LoopEvent.announcesFrom, LoopEvent.establishes,
            recorded address]
      | connection event =>
          cases event with
          | closed peer id =>
              simp [LoopEvent.announcesFrom, LoopEvent.establishes]
          | established peer id endpoint =>
              by_cases once : state.announcedOnce = true
              · simp [LoopEvent.announcesFrom, LoopEvent.establishes, once]
              · simp [LoopEvent.announcesFrom, LoopEvent.establishes, once]
      | gossip source message | identifyReceived peer listenAddrs
      | mdnsDiscovered found | autonat | request peer request
      | externalAddrExpired address | listenerClosed addresses =>
          simp [LoopEvent.announcesFrom, LoopEvent.establishes]

private theorem isSome_announcesFrom {earlier : List (Surroundings × LoopEvent)}
    {state : AnnounceState}
    (once : state.announcedOnce =
      earlier.any fun before => before.2.establishes)
    (event : LoopEvent) :
    (event.announcesFrom state).isSome = triesToAnnounce earlier event := by
  cases event with
  | uplink event =>
      rfl
  | swarm event =>
      cases event with
      | connection event =>
          cases event with
          | closed peer id =>
              rfl
          | established peer id endpoint =>
              rw [triesToAnnounce, ← once]
              cases isOnce : state.announcedOnce <;>
                simp [LoopEvent.announcesFrom, isOnce]
      | gossip source message | identifyReceived peer listenAddrs
      | mdnsDiscovered found | autonat | request peer request
      | newListenAddr address | externalAddrConfirmed address
      | externalAddrExpired address | listenerClosed addresses =>
          rfl

/-! ## The announcing state of a running loop -/

section Running

variable {config : NodeConfig} {inputs : List (Surroundings × LoopEvent)}

/-- The last round of a loop that still runs. -/
theorem round_announcesFrom {earlier : List (Surroundings × LoopEvent)}
    {input : Surroundings × LoopEvent}
    (running : ((eventLoop config).stateAfter (earlier ++ [input])).status =
      .running) :
    ((eventLoop config).stateAfter earlier).status = .running ∧
      AnnouncesFrom config input.1 ((eventLoop config).stateAfter earlier)
        (input.2.announcesFrom
          ((eventLoop config).stateAfter earlier).announcing)
        ((eventLoop config).step
          ((eventLoop config).stateAfter earlier) input) := by
  have before := running_of_append running
  refine ⟨before, step_announcesFrom config before ?_⟩
  have survives := (running_iff config _).1 running
  exact (survives earlier input [] rfl).2

private theorem announcedOnce_eq
    (running : ((eventLoop config).stateAfter inputs).status = .running) :
    ((eventLoop config).stateAfter inputs).announcing.announcedOnce =
      inputs.any fun before => before.2.establishes := by
  induction inputs using List.reverseRecOn with
  | nil =>
      rfl
  | append_singleton earlier input inductionHypothesis =>
      obtain ⟨before, round⟩ := round_announcesFrom running
      rw [stateAfter_snoc, round.announcing, announceFrom_announcedOnce,
        (announcesFrom_prepares _ _).1, inductionHypothesis before]
      simp

/-- A round stamps the announcing state when gossipsub accepts what it
announces. -/
theorem lastAnnounce_snoc {earlier : List (Surroundings × LoopEvent)}
    {input : Surroundings × LoopEvent}
    (running : ((eventLoop config).stateAfter (earlier ++ [input])).status =
      .running) :
    ((eventLoop config).stateAfter (earlier ++ [input])).announcing.lastAnnounce =
      if announcements ((eventLoop config).step
            ((eventLoop config).stateAfter earlier) input).2 ≠ [] ∧
          input.1.accepted = true then some input.1.now
      else
        ((eventLoop config).stateAfter earlier).announcing.lastAnnounce := by
  obtain ⟨_, round⟩ := round_announcesFrom running
  have prepares := (announcesFrom_prepares
    ((eventLoop config).stateAfter earlier).announcing input.2).2
  rw [stateAfter_snoc, round.announcing, round.announced]
  cases isPrepared : input.2.announcesFrom
      ((eventLoop config).stateAfter earlier).announcing with
  | none =>
      simp [announceFrom]
  | some prepared =>
      rw [isPrepared] at prepares
      rw [announceFrom, publishAnnounce_eq]
      by_cases accepted : input.1.accepted = true
      · split
        · simp [accepted]
        · simpa using prepares
      · split
        · simpa [accepted] using prepares
        · simpa using prepares

/-- The stamp of the announcing state tells which announcements are recent. -/
theorem lastAnnounce_tracks (clocked : Clocked inputs)
    (running : ((eventLoop config).stateAfter inputs).status = .running)
    {now : Instant} (notBefore : ∀ input, input ∈ inputs → input.1.now ≤ now) :
    Tracks announceCooldown now (announceLog config inputs) fun _ =>
      ((eventLoop config).stateAfter inputs).announcing.lastAnnounce := by
  induction inputs using List.reverseRecOn generalizing now with
  | nil =>
      exact Tracks.start _ _
  | append_singleton earlier input inductionHypothesis =>
      obtain ⟨clockedBefore, lastClocked⟩ :=
        (eachStep_snoc_iff _ _ _).1 clocked
      have before := inductionHypothesis clockedBefore
        (running_of_append running) lastClocked
      apply Tracks.later _ (notBefore input (by simp))
      rw [announceLog_snoc, acceptedAt, lastAnnounce_snoc running]
      split
      · have stamped := before.stamp ()
        have same : Function.update
            (fun _ : Unit => ((eventLoop config).stateAfter
              earlier).announcing.lastAnnounce) () (some input.1.now) =
            fun _ => some input.1.now := by
          funext key
          exact Function.update_self () _ _
        rw [same] at stamped
        exact stamped
      · rw [List.append_nil]
        exact before

private theorem knowsPublicAddr_iff (inputs : List (Surroundings × LoopEvent)) :
    knowsPublicAddr inputs = true ↔
      ∃ addr address, Reported inputs address ∧
        publicForm address = some addr := by
  rw [knowsPublicAddr, List.any_eq_true]
  constructor
  · intro ⟨input, member, isPublic⟩
    obtain ⟨addr, reads⟩ := Option.isSome_iff_exists.1 isPublic
    obtain ⟨address, reports, form⟩ := Option.bind_eq_some_iff.1 reads
    exact ⟨addr, address, ⟨input, member, reports⟩, form⟩
  · intro ⟨addr, address, ⟨input, member, reports⟩, form⟩
    refine ⟨input, member, ?_⟩
    rw [reports, Option.bind_some, form]
    rfl

/-- What the node knows of itself after the round. -/
def ownAnnouncement (config : NodeConfig)
    (earlier : List (Surroundings × LoopEvent))
    (input : Surroundings × LoopEvent) : Announcement where
  peer := config.localPeer
  addrs := announcedAddrs
    ((eventLoop config).stateAfter (earlier ++ [input])).announcing
  ts := input.1.unixSeconds

/-- The round is a try, with something to announce, and nothing was accepted
recently. -/
def Due (config : NodeConfig) (earlier : List (Surroundings × LoopEvent))
    (input : Surroundings × LoopEvent) : Prop :=
  triesToAnnounce earlier input.2 = true ∧
    knowsPublicAddr (earlier ++ [input]) = true ∧
    ¬ Recent announceCooldown (announceLog config earlier) input.1.now ()

instance (config : NodeConfig) (earlier : List (Surroundings × LoopEvent))
    (input : Surroundings × LoopEvent) :
    Decidable (Due config earlier input) :=
  inferInstanceAs (Decidable (_ ∧ _ ∧ ¬ _))

private theorem announcements_of_round
    {earlier : List (Surroundings × LoopEvent)}
    {input : Surroundings × LoopEvent}
    (clocked : Clocked (earlier ++ [input]))
    (running : ((eventLoop config).stateAfter (earlier ++ [input])).status =
      .running) :
    announcements ((eventLoop config).step
        ((eventLoop config).stateAfter earlier) input).2 =
      if Due config earlier input then [ownAnnouncement config earlier input]
      else [] := by
  obtain ⟨before, round⟩ := round_announcesFrom running
  obtain ⟨clockedBefore, lastClocked⟩ := (eachStep_snoc_iff _ _ _).1 clocked
  have tracks := lastAnnounce_tracks clockedBefore before lastClocked
  have tries := isSome_announcesFrom (announcedOnce_eq before) input.2
  have prepares := (announcesFrom_prepares
    ((eventLoop config).stateAfter earlier).announcing input.2).2
  have sameAddrs := announceFrom_myAddrs config.localPeer input.1
    ((eventLoop config).stateAfter earlier).announcing
    (input.2.announcesFrom
      ((eventLoop config).stateAfter earlier).announcing)
  rw [← round.announcing, ← stateAfter_snoc] at sameAddrs
  rw [round.announced]
  cases isPrepared : input.2.announcesFrom
      ((eventLoop config).stateAfter earlier).announcing with
  | none =>
      rw [isPrepared] at tries
      have notDue : ¬ Due config earlier input := by
        intro due
        rw [due.1] at tries
        cases tries
      rw [if_neg notDue]
      rfl
  | some prepared =>
      rw [isPrepared] at tries prepares sameAddrs
      have sameStamp : prepared.lastAnnounce =
          ((eventLoop config).stateAfter earlier).announcing.lastAnnounce :=
        prepares
      have recent : announcedRecently input.1.now prepared = true ↔
          Recent announceCooldown (announceLog config earlier)
            input.1.now () := by
        rw [announcedRecently_iff, sameStamp]
        exact tracks.recent_iff input.1.now (Nat.le_refl _) ()
      have knows : announcedAddrs prepared ≠ ∅ ↔
          knowsPublicAddr (earlier ++ [input]) = true := by
        rw [knowsPublicAddr_iff, ← Finset.nonempty_iff_ne_empty]
        exact exists_congr (mem_announcedAddrs_iff before isPrepared)
      have due : (announcedRecently input.1.now prepared = false ∧
          announcedAddrs prepared ≠ ∅) ↔ Due config earlier input := by
        rw [knows, ← Bool.not_eq_true, recent, Due, ← tries, and_comm]
        exact (and_iff_right rfl).symm
      have own : ownAnnouncement config earlier input =
          ⟨config.localPeer, announcedAddrs prepared,
            input.1.unixSeconds⟩ := by
        rw [ownAnnouncement, announcedAddrs, announcedAddrs, sameAddrs]
        rfl
      rw [announceFrom, publishAnnounce_eq, own]
      by_cases isDue : Due config earlier input
      · rw [if_pos (due.2 isDue), if_pos isDue]
      · rw [if_neg fun both => isDue (due.1 both), if_neg isDue]

private theorem acceptable_snoc (inputs : List (Surroundings × LoopEvent))
    (input : Surroundings × LoopEvent) :
    acceptable (inputs ++ [input]) =
      acceptable inputs ++ acceptableAt inputs input :=
  outputsOf_history_snoc _ _ _

/-- The accepted announcements are those that the cooldown admits. -/
theorem announceLog_eq (clocked : Clocked inputs)
    (running : ((eventLoop config).stateAfter inputs).status = .running) :
    announceLog config inputs =
      (discipline announceCooldown).outputsOf (acceptable inputs) := by
  induction inputs using List.reverseRecOn with
  | nil =>
      rfl
  | append_singleton earlier input inductionHypothesis =>
      have before := inductionHypothesis
        ((eachStep_snoc_iff _ _ _).1 clocked).1 (running_of_append running)
      rw [announceLog_snoc, acceptable_snoc, outputsOf_append, ← before,
        acceptedAt, announcements_of_round clocked running]
      congr 1
      rw [discipline_stateAfter, ← before, acceptableAt]
      let attempt : Stamped Unit := ⟨input.1.now, ()⟩
      have published :
          ((if Due config earlier input then
              [ownAnnouncement config earlier input] else []) ≠ []) ↔
            Due config earlier input := by
        split <;> simp [*]
      simp only [published]
      by_cases ready : (triesToAnnounce earlier input.2 &&
          knowsPublicAddr (earlier ++ [input]) && input.1.accepted) = true
      · rw [if_pos ready]
        rw [Bool.and_eq_true, Bool.and_eq_true] at ready
        obtain ⟨⟨tries, knows⟩, accepted⟩ := ready
        by_cases recent : Recent announceCooldown (announceLog config earlier)
            attempt.time attempt.key
        · have notDue : ¬ Due config earlier input := fun due => due.2.2 recent
          rw [if_neg fun both => notDue both.1, StepMachine.runFrom,
            discipline_step_recent recent]
          rfl
        · rw [if_pos ⟨⟨tries, knows, recent⟩, accepted⟩, StepMachine.runFrom,
            discipline_step_cool recent]
          rfl
      · rw [if_neg ready]
        apply if_neg
        intro both
        apply ready
        rw [Bool.and_eq_true, Bool.and_eq_true]
        exact ⟨⟨both.1.1, both.1.2.1⟩, both.2⟩

private theorem mem_ownAnnouncement_iff
    {earlier : List (Surroundings × LoopEvent)}
    {input : Surroundings × LoopEvent}
    (running : ((eventLoop config).stateAfter (earlier ++ [input])).status =
      .running) (addr : Multiaddr) :
    addr ∈ (ownAnnouncement config earlier input).addrs ↔
      ∃ address, Reported (earlier ++ [input]) address ∧
        publicForm address = some addr := by
  rw [ownAnnouncement, announcedAddrs, Finset.mem_filter,
    mem_myAddrs_iff running]
  constructor
  · intro both
    exact both.1
  · intro known
    refine ⟨known, ?_⟩
    obtain ⟨address, _, form⟩ := known
    exact ((publicForm_eq_some_iff address addr).1 form).2

/-- A round announces exactly when an announcement is due, and then all public
addresses that the node knows. -/
structure AnnouncesWhenDue (config : NodeConfig)
    (earlier : List (Surroundings × LoopEvent))
    (input : Surroundings × LoopEvent) : Prop where
  announces : announcements ((eventLoop config).step
      ((eventLoop config).stateAfter earlier) input).2 =
    if Due config earlier input then [ownAnnouncement config earlier input]
    else []
  addrs : ∀ addr, addr ∈ (ownAnnouncement config earlier input).addrs ↔
    ∃ address, Reported (earlier ++ [input]) address ∧
      publicForm address = some addr

/-- In every run of a loop that still runs, with any order of events and any
answers of gossipsub: each round announces exactly when it is due; the accepted
announcements are those that a cooldown of thirty seconds admits among the
acceptable tries, so they are at least thirty seconds apart, and none of them
is put off by a refused one. -/
theorem announcements_disciplined (clocked : Clocked inputs)
    (running : ((eventLoop config).stateAfter inputs).status = .running) :
    EachStep (AnnouncesWhenDue config) inputs ∧
      announceLog config inputs =
        (discipline announceCooldown).outputsOf (acceptable inputs) ∧
      (announceLog config inputs).Pairwise fun earlier later =>
        earlier.time + announceCooldown ≤ later.time := by
  have log := announceLog_eq clocked running
  refine ⟨?_, log, ?_⟩
  · intro earlier input later shape
    have upTo : inputs = (earlier ++ [input]) ++ later := by simp [shape]
    rw [upTo] at clocked running
    have runningThen := running_of_append running
    have clockedThen : Clocked (earlier ++ [input]) := clocked.of_append
    exact ⟨announcements_of_round clockedThen runningThen,
      mem_ownAnnouncement_iff runningThen⟩
  · rw [log]
    apply List.Pairwise.imp _ (outputsOf_apart (acceptable inputs))
    intro earlier later apart
    exact apart (Subsingleton.elim _ _)

end Running

/-- Gossipsub refuses the first announcement; AutoNAT asks again twice, and the
first connection comes last. -/
def refusedOnce : List (Surroundings × LoopEvent) :=
  [(⟨60000, 0, false⟩, .swarm (.externalAddrConfirmed
      (canonicalAddr ⟨8, 8, 8, 8⟩ 4001))),
    (⟨61000, 1, true⟩, .swarm .autonat),
    (⟨80000, 20, true⟩, .swarm .autonat),
    (⟨91000, 31, true⟩, .swarm (.connection (.established ⟨[7]⟩ 0
      (.dialer [.ip4 ⟨9, 9, 9, 9⟩, .udp 1, .quicV1]))))]

theorem announcements_disciplined_refusedOnce :
    announceLog ⟨⟨[1]⟩, ⟨64, 8⟩⟩ refusedOnce =
      [⟨61000, ()⟩, ⟨91000, ()⟩] := by
  refine (announcements_disciplined ?_ (by decide +kernel)).2.1.trans
    (by decide +kernel)
  simp [Clocked, refusedOnce, eachStep_cons_iff, eachStep_nil, or_imp,
    forall_and]

end CocoNet
