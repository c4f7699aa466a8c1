import CocoNet.Library.Cooldown
import CocoNet.P2p.EventLoop

/-!
# The dial cooldown over whole runs

Announcements and Identify offer addresses of a peer for dialing, after each
handler's own filter.  The loop dials an offered address exactly when it has
not dialed that address of that peer in the last thirty seconds, on either
path.

The loop keeps one stamp for every address, which Identify forgets once it is
old.  From the present on that record agrees with the log of all dials.
-/

namespace CocoNet

open Cooldown StepMachine

/-! ## Offers and dials -/

/-- A dial of an address for a peer. -/
abbrev Dial := Stamped (PeerId × Multiaddr)

def Effect.dialedAddr : Effect → Option Multiaddr
  | .dial addr => some addr
  | _ => none

def dialedAddrs (effects : List Effect) : List Multiaddr :=
  effects.filterMap Effect.dialedAddr

def dialsAt (now : Instant) (peer : PeerId) (addrs : List Multiaddr) :
    List Dial :=
  addrs.map fun addr => ⟨now, (peer, addr)⟩

/-- The peer for which an announcement or an Identify dials. -/
def LoopEvent.dialsFor : LoopEvent → Option PeerId
  | .swarm (.gossip _ (.announce (some msg))) => msg.peer
  | .swarm (.identifyReceived peer _) => some peer
  | _ => none

/-- The dials that announcements and Identify make in a round. -/
def recordedDials (input : Surroundings × LoopEvent) (effects : List Effect) :
    List Dial :=
  match input.2.dialsFor with
  | some peer => dialsAt input.1.now peer (dialedAddrs effects)
  | none => []

/-- What an event offers for dialing: the public addresses of somebody else's
announcement, and for a peer that is not direct the circuits among its listen
addresses and the public canonical forms of the others. -/
def LoopEvent.offeredAddrs (config : NodeConfig)
    (directPeers : Finset PeerId) : LoopEvent → List Multiaddr
  | .swarm (.gossip source (.announce (some msg))) =>
      if source = some config.localPeer then []
      else if msg.peer = some config.localPeer then []
      else msg.addrs.filterMap fun addr => addr.filter isPublicUdpQuic
  | .swarm (.identifyReceived peer listenAddrs) =>
      if peer ∈ directPeers then [] else listenAddrs.filterMap offeredForm
  | _ => []

/-- The offers of a round. -/
def offers (config : NodeConfig) (state : LoopState)
    (input : Surroundings × LoopEvent) : List Dial :=
  if state.status = .running then
    match input.2.dialsFor with
    | some peer =>
        dialsAt input.1.now peer
          (input.2.offeredAddrs config state.connections.directPeers)
    | none => []
  else []

/-- The dials of a run, by announcements and Identify. -/
def dialLog (config : NodeConfig) (inputs : List (Surroundings × LoopEvent)) :
    List Dial :=
  ((eventLoop config).observe fun _ input effects =>
    recordedDials input effects).outputsOf inputs

/-- The offers of a run. -/
def offerLog (config : NodeConfig)
    (inputs : List (Surroundings × LoopEvent)) : List Dial :=
  ((eventLoop config).observe fun state input _ =>
    offers config state input).outputsOf inputs

/-! ## The record -/

/-- The record of recent dials, by peer and address. -/
def RecentDials.stamps (recent : RecentDials) :
    PeerId × Multiaddr → Option Instant :=
  fun key => recent key.1 key.2

private theorem RecentDials.stamps_set (recent : RecentDials) (peer : PeerId)
    (addr : Multiaddr) (instant : Instant) :
    (recent.set peer addr instant).stamps =
      Function.update recent.stamps (peer, addr) (some instant) := by
  funext ⟨otherPeer, otherAddr⟩
  rw [RecentDials.stamps, RecentDials.set]
  by_cases samePeer : otherPeer = peer
  · subst samePeer
    by_cases sameAddr : otherAddr = addr
    · subst sameAddr
      simp
    · have other : (otherPeer, otherAddr) ≠ (otherPeer, addr) :=
        fun same => sameAddr (Prod.mk.inj same).2
      simp [other, sameAddr, RecentDials.stamps]
  · have other : (otherPeer, otherAddr) ≠ (peer, addr) :=
      fun same => samePeer (Prod.mk.inj same).1
    simp [other, samePeer, RecentDials.stamps]

/-- The record agrees with a log of dials from `now` on. -/
abbrev RecentDials.Tracks (recent : RecentDials) (now : Instant)
    (log : List Dial) : Prop :=
  Cooldown.Tracks dialCooldown now log recent.stamps

theorem elapsed_lt_cooldown_iff {now stamp : Instant} :
    now - stamp < dialCooldown ↔ now < stamp + dialCooldown :=
  elapsed_lt_iff (by decide) now stamp

private theorem pruneDials_tracks {now : Instant} {log : List Dial}
    {recent : RecentDials} (tracks : recent.Tracks now log) (peer : PeerId) :
    (pruneDials now recent peer).Tracks now log := by
  apply Cooldown.Tracks.prune tracks
  · intro ⟨other, addr⟩ stamp stamped
    simp only [RecentDials.stamps, pruneDials] at stamped ⊢
    by_cases same : other = peer
    · subst same
      rw [Function.update_self] at stamped
      exact (Option.filter_eq_some_iff.mp stamped).1
    · rwa [Function.update_of_ne same] at stamped
  · intro ⟨other, addr⟩ stamp stamped within
    simp only [RecentDials.stamps, pruneDials] at stamped ⊢
    by_cases same : other = peer
    · subst same
      rw [Function.update_self]
      apply Option.filter_eq_some_iff.mpr
      exact ⟨stamped, decide_eq_true (elapsed_lt_cooldown_iff.2 within)⟩
    · rwa [Function.update_of_ne same]

/-! ## One round -/

/-- Before two cooldowns have passed since the origin of the clock, the first
address underflows. -/
theorem dialEach_underflows {now : Instant} (early : now < dialCooldown * 2)
    (peer : PeerId) (recent : RecentDials) {addrs : List Multiaddr}
    (nonempty : addrs ≠ []) :
    dialEach now peer recent addrs = .error .underflow := by
  cases addrs with
  | nil =>
      exact absurd rfl nonempty
  | cons addr rest =>
      rw [dialEach, dialUnlessRecent, Checked.sub_eq_error early,
        Checked.error_bind, Checked.error_bind]

/-- The loop over the addresses of one peer follows the discipline. -/
theorem dialEach_follows {now : Instant} (peer : PeerId)
    {addrs : List Multiaddr}
    (late : addrs ≠ [] → dialCooldown * 2 ≤ now)
    {log : List Dial} {recent : RecentDials}
    (tracks : recent.Tracks now log) :
    ∃ dialed, dialEach now peer recent addrs = .ok dialed ∧
      dialsAt now peer dialed.2 =
        ((discipline dialCooldown).runFrom log (dialsAt now peer addrs)).2 ∧
      dialed.1.Tracks now
        ((discipline dialCooldown).runFrom log
          (dialsAt now peer addrs)).1 := by
  induction addrs generalizing log recent with
  | nil =>
      exact ⟨(recent, []), rfl, rfl, tracks⟩
  | cons addr rest inductionHypothesis =>
      have isLate : dialCooldown * 2 ≤ now := late (by simp)
      have decides :
          (∃ dialed, recent peer addr = some dialed ∧
              now - dialed < dialCooldown) ↔
            Recent dialCooldown log now (peer, addr) := by
        rw [← tracks.recent_iff now (Nat.le_refl now)]
        simp only [elapsed_lt_cooldown_iff, RecentDials.stamps]
      rw [dialEach, dialUnlessRecent_eq isLate, Checked.ok_bind, dialsAt,
        List.map_cons, runFrom]
      by_cases recently : Recent dialCooldown log now (peer, addr)
      · rw [if_pos (decides.2 recently), discipline_step_recent recently]
        obtain ⟨others, runs, sameDials, othersTrack⟩ :=
          inductionHypothesis (fun _ => isLate) tracks
        rw [runs, Checked.ok_bind]
        exact ⟨_, rfl, sameDials, othersTrack⟩
      · rw [if_neg fun found => recently (decides.1 found),
          discipline_step_cool recently]
        have dialed :
            (recent.set peer addr now).Tracks now
              (log ++ [⟨now, (peer, addr)⟩]) := by
          rw [RecentDials.Tracks, RecentDials.stamps_set]
          exact tracks.stamp (peer, addr)
        obtain ⟨others, runs, sameDials, othersTrack⟩ :=
          inductionHypothesis (fun _ => isLate) dialed
        rw [runs, Checked.ok_bind]
        refine ⟨_, rfl, ?_, othersTrack⟩
        simpa [dialsAt] using sameDials

theorem recordedDials_of_none {input : Surroundings × LoopEvent}
    (nobody : input.2.dialsFor = none) (effects : List Effect) :
    recordedDials input effects = [] := by
  rw [recordedDials, nobody]

theorem recordedDials_nil (input : Surroundings × LoopEvent) :
    recordedDials input [] = [] := by
  rw [recordedDials]
  split <;> rfl

theorem offers_of_none (config : NodeConfig) (state : LoopState)
    {input : Surroundings × LoopEvent} (nobody : input.2.dialsFor = none) :
    offers config state input = [] := by
  rw [offers, nobody]
  split <;> rfl

theorem offers_of_some {config : NodeConfig} {state : LoopState}
    {input : Surroundings × LoopEvent} {peer : PeerId}
    (running : state.status = .running)
    (dialsFor : input.2.dialsFor = some peer) :
    offers config state input =
      dialsAt input.1.now peer
        (input.2.offeredAddrs config state.connections.directPeers) := by
  rw [offers, if_pos running, dialsFor]

private theorem onConnection_recentDials (config : NodeConfig)
    (surroundings : Surroundings) (state : LoopState)
    (event : ConnectionEvent) :
    (onConnection config surroundings state event).1.recentDials =
      state.recentDials := by
  cases event <;> rfl

private theorem onGossip_recentDials {config : NodeConfig} {now : Instant}
    {state after : LoopState} {source : Option PeerId}
    {message : GossipMessage} {effects : List Effect}
    (nobody : (LoopEvent.swarm (.gossip source message)).dialsFor = none)
    (handled : onGossip config now state source message =
      .ok (after, effects)) :
    after.recentDials = state.recentDials := by
  unfold onGossip at handled
  split at handled
  · rcases Prod.mk.inj (Except.ok.inj handled) with ⟨same, _⟩
    rw [← same]
  · cases message with
    | packets data =>
        rcases Checked.bind_eq_ok handled with ⟨unpacked, _, rest⟩
        rcases Prod.mk.inj (Except.ok.inj rest) with ⟨same, _⟩
        rw [← same]
    | announce msg =>
        cases msg with
        | none =>
            rcases Prod.mk.inj (Except.ok.inj handled) with ⟨same, _⟩
            rw [← same]
        | some msg =>
            have unnamed : msg.peer = none := nobody
            rcases Checked.bind_eq_ok handled with ⟨dialed, runs, rest⟩
            rcases Prod.mk.inj (Except.ok.inj rest) with ⟨same, _⟩
            rw [onAnnounce, unnamed] at runs
            rw [← same, ← Except.ok.inj runs]

/-- Only announcements and Identify touch the record. -/
theorem onLoopEvent_recentDials {config : NodeConfig}
    {surroundings : Surroundings} {state after : LoopState}
    {event : LoopEvent} {effects : List Effect}
    (nobody : event.dialsFor = none)
    (handled : onLoopEvent config surroundings state event =
      .ok (after, effects)) :
    after.recentDials = state.recentDials := by
  cases event with
  | uplink event =>
      rcases Prod.mk.inj (Except.ok.inj handled) with ⟨same, _⟩
      rw [← same]
  | swarm event =>
      cases event with
      | gossip source message =>
          exact onGossip_recentDials nobody handled
      | identifyReceived peer listenAddrs =>
          cases nobody
      | request peer request =>
          rcases Checked.bind_eq_ok handled with ⟨unpacked, _, rest⟩
          rcases Prod.mk.inj (Except.ok.inj rest) with ⟨same, _⟩
          rw [← same]
      | connection inner =>
          rcases Prod.mk.inj (Except.ok.inj handled) with ⟨same, _⟩
          rw [← same]
          exact onConnection_recentDials config surroundings state inner
      | mdnsDiscovered found | autonat | newListenAddr address
      | externalAddrConfirmed address | externalAddrExpired address
      | listenerClosed addresses =>
          rcases Prod.mk.inj (Except.ok.inj handled) with ⟨same, _⟩
          rw [← same]

@[simp]
theorem dialedAddrs_map (addrs : List Multiaddr) :
    dialedAddrs (addrs.map .dial) = addrs :=
  filterMap_map_some Effect.dialedAddr (fun _ => rfl) addrs

private theorem dialedAddrs_append (first second : List Effect) :
    dialedAddrs (first ++ second) = dialedAddrs first ++ dialedAddrs second :=
  List.filterMap_append

private theorem dialedAddrs_announceEffects
    (announced : AnnounceState × List Announcement) (state : LoopState) :
    dialedAddrs (announceEffects announced state).2 = [] :=
  filterMap_map_none Effect.dialedAddr (fun _ => rfl) announced.2

/-- The handler goes through the offered addresses with `dialEach`, starting
from a record that decides as the loop's own does, and keeps its result. -/
structure DialsThrough (config : NodeConfig) (surroundings : Surroundings)
    (state : LoopState) (event : LoopEvent) (peer : PeerId)
    (recent : RecentDials)
    (finish : RecentDials × List Multiaddr → LoopState × List Effect) :
    Prop where
  tracks : ∀ log, state.recentDials.Tracks surroundings.now log →
    recent.Tracks surroundings.now log
  runs : onLoopEvent config surroundings state event =
    dialEach surroundings.now peer recent
        (event.offeredAddrs config state.connections.directPeers) >>=
      fun dialed => .ok (finish dialed)
  dials : ∀ dialed, dialedAddrs (finish dialed).2 = dialed.2
  record : ∀ dialed, (finish dialed).1.recentDials = dialed.1

theorem announce_dialsThrough (config : NodeConfig)
    (surroundings : Surroundings) (state : LoopState)
    (source : Option PeerId) {msg : AnnounceMsg} {peer : PeerId}
    (sender : msg.peer = some peer) :
    DialsThrough config surroundings state
      (.swarm (.gossip source (.announce (some msg)))) peer state.recentDials
      fun dialed =>
        ({ state with recentDials := dialed.1 }, dialed.2.map .dial) where
  tracks _ tracks := tracks
  dials dialed := dialedAddrs_map dialed.2
  record _ := rfl
  runs := by
    rw [onLoopEvent, onSwarmEvent, onGossip, LoopEvent.offeredAddrs]
    by_cases fromSelf : source = some config.localPeer
    · rw [if_pos fromSelf, if_pos fromSelf]
      rfl
    · rw [if_neg fromSelf, if_neg fromSelf, sender]
      simp only [onAnnounce, sender, Option.some.injEq]
      by_cases aboutSelf : peer = config.localPeer
      · rw [if_pos aboutSelf, if_pos aboutSelf]
        rfl
      · rw [if_neg aboutSelf, if_neg aboutSelf, AnnounceMsg.targets_eq]

theorem identify_dialsThrough (config : NodeConfig)
    (surroundings : Surroundings) (state : LoopState) (peer : PeerId)
    (listenAddrs : List Multiaddr) :
    DialsThrough config surroundings state
      (.swarm (.identifyReceived peer listenAddrs)) peer
      (pruneDials surroundings.now state.recentDials peer)
      fun dialed =>
        let announced :=
          announceEffects
            (publishAnnounce config.localPeer surroundings state.announcing)
            { state with recentDials := dialed.1 }
        (announced.1, dialed.2.map .dial ++ announced.2) where
  tracks _ tracks := pruneDials_tracks tracks peer
  dials dialed := by
    rw [dialedAddrs_append, dialedAddrs_announceEffects, dialedAddrs_map,
      List.append_nil]
  record _ := rfl
  runs := by
    rw [onLoopEvent, onSwarmEvent, onIdentifyReceived, onIdentify,
      LoopEvent.offeredAddrs]
    have isDirect : alreadyDirect state.connections.directPeers peer = true ↔
        peer ∈ state.connections.directPeers := decide_eq_true_iff
    by_cases direct : peer ∈ state.connections.directPeers
    · rw [if_pos (isDirect.2 direct), if_pos direct]
      rfl
    · rw [if_neg (mt isDirect.1 direct), if_neg direct,
        funext identifyTarget_eq]

/-- Every handler that dials for a peer goes through its offers. -/
theorem onLoopEvent_dialsThrough (config : NodeConfig)
    (surroundings : Surroundings) (state : LoopState) {event : LoopEvent}
    {peer : PeerId} (dialsFor : event.dialsFor = some peer) :
    ∃ recent finish,
      DialsThrough config surroundings state event peer recent finish := by
  cases event with
  | uplink event =>
      cases dialsFor
  | swarm event =>
      cases event with
      | gossip source message =>
          cases message with
          | packets data =>
              cases dialsFor
          | announce msg =>
              cases msg with
              | none =>
                  cases dialsFor
              | some msg =>
                  exact ⟨_, _, announce_dialsThrough config surroundings state
                    source dialsFor⟩
      | identifyReceived other listenAddrs =>
          obtain rfl : other = peer := Option.some.inj dialsFor
          exact ⟨_, _, identify_dialsThrough config surroundings state other
            listenAddrs⟩
      | _ =>
          cases dialsFor

theorem offers_eq_nil_iff {config : NodeConfig} {state : LoopState}
    {input : Surroundings × LoopEvent} {peer : PeerId}
    (running : state.status = .running)
    (dialsFor : input.2.dialsFor = some peer) :
    offers config state input = [] ↔
      input.2.offeredAddrs config state.connections.directPeers = [] := by
  rw [offers_of_some running dialsFor, dialsAt, List.map_eq_nil_iff]

private theorem offers_of_stopped (config : NodeConfig) {state : LoopState}
    (input : Surroundings × LoopEvent) (stopped : state.status ≠ .running) :
    offers config state input = [] :=
  if_neg stopped

/-- Every round, also of a loop that has stopped, dials the offers that the
discipline admits. -/
theorem step_follows (config : NodeConfig) {state : LoopState}
    {input : Surroundings × LoopEvent} {log : List Dial}
    (tracks : state.recentDials.Tracks input.1.now log)
    (late : offers config state input ≠ [] →
      dialCooldown * 2 ≤ input.1.now) :
    recordedDials input ((eventLoop config).step state input).2 =
        ((discipline dialCooldown).runFrom log
          (offers config state input)).2 ∧
      ((eventLoop config).step state input).1.recentDials.Tracks input.1.now
        ((discipline dialCooldown).runFrom log
          (offers config state input)).1 := by
  by_cases running : state.status = .running
  · rw [eventLoop_step_running config running]
    cases dialsFor : input.2.dialsFor with
    | none =>
        rw [offers_of_none config state dialsFor]
        cases handled : onLoopEvent config input.1 state input.2 with
        | error fault =>
            exact ⟨recordedDials_nil input, tracks⟩
        | ok result =>
            refine ⟨recordedDials_of_none dialsFor _, ?_⟩
            have kept := onLoopEvent_recentDials dialsFor handled
            simpa only [kept, runFrom] using tracks
    | some peer =>
        have lateEnough :
            input.2.offeredAddrs config state.connections.directPeers ≠ [] →
              dialCooldown * 2 ≤ input.1.now := by
          intro offered
          apply late
          exact fun empty =>
            offered ((offers_eq_nil_iff running dialsFor).1 empty)
        obtain ⟨recent, finish, through⟩ :=
          onLoopEvent_dialsThrough config input.1 state dialsFor
        obtain ⟨dialed, runs, sameDials, nextTracks⟩ :=
          dialEach_follows peer lateEnough (through.tracks log tracks)
        rw [through.runs, runs, Checked.ok_bind, recordedDials, dialsFor,
          offers_of_some running dialsFor]
        refine ⟨?_, ?_⟩
        · rw [through.dials]
          exact sameDials
        · rw [through.record]
          exact nextTracks
  · rw [eventLoop_step_stopped config running,
      offers_of_stopped config input running]
    exact ⟨recordedDials_nil input, tracks⟩

/-- A round that comes too early for its offers aborts the loop and dials
nothing. -/
theorem step_of_early (config : NodeConfig) {state : LoopState}
    {input : Surroundings × LoopEvent}
    (offered : offers config state input ≠ [])
    (early : input.1.now < dialCooldown * 2) :
    (eventLoop config).step state input =
      ({ state with status := .aborted }, []) := by
  have running : state.status = .running := by
    by_contra stopped
    exact offered (offers_of_stopped config input stopped)
  cases dialsFor : input.2.dialsFor with
  | none =>
      exact absurd (offers_of_none config state dialsFor) offered
  | some peer =>
      have someAddrs :
          input.2.offeredAddrs config state.connections.directPeers ≠ [] :=
        fun empty => offered ((offers_eq_nil_iff running dialsFor).2 empty)
      obtain ⟨recent, finish, through⟩ :=
        onLoopEvent_dialsThrough config input.1 state dialsFor
      rw [eventLoop_step_running config running, through.runs,
        dialEach_underflows early peer recent someAddrs, Checked.error_bind]

/-- Whatever a round does, the record goes on to agree with the dials. -/
theorem step_tracks (config : NodeConfig) {state : LoopState}
    {input : Surroundings × LoopEvent} {log : List Dial}
    (tracks : state.recentDials.Tracks input.1.now log) :
    ((eventLoop config).step state input).1.recentDials.Tracks input.1.now
      (log ++ recordedDials input
        ((eventLoop config).step state input).2) := by
  by_cases early :
      offers config state input ≠ [] ∧ input.1.now < dialCooldown * 2
  · rw [step_of_early config early.1 early.2, recordedDials_nil,
      List.append_nil]
    exact tracks
  · have late :
        offers config state input ≠ [] → dialCooldown * 2 ≤ input.1.now :=
      fun offered => Nat.le_of_not_lt fun isEarly =>
        early ⟨offered, isEarly⟩
    rcases step_follows config tracks late with ⟨sameDials, nextTracks⟩
    rwa [sameDials, ← discipline_runFrom_fst]

/-! ## Whole runs -/

/-- No reading of the clock is before an earlier one. -/
def Clocked (inputs : List (Surroundings × LoopEvent)) : Prop :=
  EachStep
    (fun earlier input => ∀ before, before ∈ earlier →
      before.1.now ≤ input.1.now) inputs

/-- No subtraction goes below the origin of the clock: a round with something
to dial comes at least two cooldowns after it. -/
def NoUnderflow (config : NodeConfig)
    (inputs : List (Surroundings × LoopEvent)) : Prop :=
  EachStep
    (fun earlier input =>
      offers config ((eventLoop config).stateAfter earlier) input ≠ [] →
        dialCooldown * 2 ≤ input.1.now) inputs

theorem dialLog_snoc (config : NodeConfig)
    (inputs : List (Surroundings × LoopEvent))
    (input : Surroundings × LoopEvent) :
    dialLog config (inputs ++ [input]) =
      dialLog config inputs ++
        recordedDials input
          ((eventLoop config).step
            ((eventLoop config).stateAfter inputs) input).2 :=
  outputsOf_observe_snoc _ _ _ _

private theorem offerLog_snoc (config : NodeConfig)
    (inputs : List (Surroundings × LoopEvent))
    (input : Surroundings × LoopEvent) :
    offerLog config (inputs ++ [input]) =
      offerLog config inputs ++
        offers config ((eventLoop config).stateAfter inputs) input :=
  outputsOf_observe_snoc _ _ _ _

/-- In every run the record agrees with the dials from any reading on that is
not before one of the run. -/
theorem recentDials_track (config : NodeConfig)
    {inputs : List (Surroundings × LoopEvent)} (clocked : Clocked inputs)
    {now : Instant} (notBefore : ∀ input, input ∈ inputs → input.1.now ≤ now) :
    ((eventLoop config).stateAfter inputs).recentDials.Tracks now
      (dialLog config inputs) := by
  induction inputs using List.reverseRecOn generalizing now with
  | nil =>
      exact Tracks.start dialCooldown now
  | append_singleton earlier input inductionHypothesis =>
      rcases (eachStep_snoc_iff _ _ _).1 clocked with ⟨clockedBefore, ordered⟩
      have tracks := inductionHypothesis clockedBefore ordered
      rw [dialLog_snoc, stateAfter_snoc]
      exact (step_tracks config tracks).later (notBefore input (by simp))

private theorem dialLog_follows (config : NodeConfig)
    {inputs : List (Surroundings × LoopEvent)} (clocked : Clocked inputs)
    (noUnderflow : NoUnderflow config inputs) :
    dialLog config inputs =
      (discipline dialCooldown).outputsOf (offerLog config inputs) := by
  induction inputs using List.reverseRecOn with
  | nil =>
      rfl
  | append_singleton earlier input inductionHypothesis =>
      rcases (eachStep_snoc_iff _ _ _).1 clocked with ⟨clockedBefore, ordered⟩
      rcases (eachStep_snoc_iff _ _ _).1 noUnderflow with ⟨before, late⟩
      have same := inductionHypothesis clockedBefore before
      have follows :=
        (step_follows config (recentDials_track config clockedBefore ordered)
          late).1
      rw [dialLog_snoc, offerLog_snoc, outputsOf_append, discipline_stateAfter,
        ← same, follows]

/-- In every run with a clock that does not go back and no underflow, the loop
makes exactly the dials that the discipline admits of the offers: an offer,
wherever it stands, leads to a dial if and only if the dials that the offers
before it led to have none of the same address for the same peer in the last
thirty seconds. -/
theorem dial_cooldown_exact (config : NodeConfig)
    {inputs : List (Surroundings × LoopEvent)} (clocked : Clocked inputs)
    (noUnderflow : NoUnderflow config inputs) :
    dialLog config inputs =
        (discipline dialCooldown).outputsOf (offerLog config inputs) ∧
      ∀ before offer after, offerLog config inputs = before ++ offer :: after →
        ∃ dialsAfter,
          dialLog config inputs =
            (discipline dialCooldown).outputsOf before ++
              (if ∃ dial, dial ∈ (discipline dialCooldown).outputsOf before ∧
                  dial.key = offer.key ∧
                  offer.time < dial.time + dialCooldown then []
                else [offer]) ++
              dialsAfter := by
  have same := dialLog_follows config clocked noUnderflow
  refine ⟨same, ?_⟩
  intro before offer after split
  rw [same, split]
  exact discipline_outputsOf_split before offer after

/-- One address of peer 7 is announced at one minute, again twenty seconds
later, and named by Identify ten seconds after that. -/
def sameAddressThrice : List (Surroundings × LoopEvent) :=
  [(⟨60000, 0, true⟩, .swarm (.gossip none (.announce
      (some ⟨some ⟨[7]⟩, [some [.ip4 ⟨8, 8, 8, 8⟩, .udp 1, .quicV1]]⟩)))),
    (⟨80000, 0, true⟩, .swarm (.gossip none (.announce
      (some ⟨some ⟨[7]⟩, [some [.ip4 ⟨8, 8, 8, 8⟩, .udp 1, .quicV1]]⟩)))),
    (⟨90000, 0, true⟩, .swarm (.identifyReceived ⟨[7]⟩
      [[.ip4 ⟨8, 8, 8, 8⟩, .udp 1, .quicV1, .p2p ⟨[7]⟩]]))]

theorem dial_cooldown_exact_at_thirty_seconds :
    dialLog ⟨⟨[1]⟩, ⟨64, 8⟩⟩ sameAddressThrice =
      [⟨60000, (⟨[7]⟩, [.ip4 ⟨8, 8, 8, 8⟩, .udp 1, .quicV1])⟩,
        ⟨90000, (⟨[7]⟩, [.ip4 ⟨8, 8, 8, 8⟩, .udp 1, .quicV1])⟩] := by
  refine (dial_cooldown_exact _ ?_ ?_).1.trans (by decide +kernel)
  · simp [Clocked, sameAddressThrice, eachStep_cons_iff, eachStep_nil,
      or_imp, forall_and]
  · simp [NoUnderflow, sameAddressThrice, eachStep_cons_iff, eachStep_nil,
      dialCooldown]

end CocoNet
