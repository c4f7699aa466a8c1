import CocoNet.P2p.DialCooldown
import CocoNet.P2p.Endpoints

/-!
# The node's own addresses

The swarm reports an address of the node when a listener has it or when it is
confirmed from outside, and withdraws it when it expires or its listener is
closed.  The loop records the canonical form of a reported address if that is
public, and only logs a withdrawal.  So what it announces are the canonical
forms of all addresses that were ever reported.
-/

namespace CocoNet

open StepMachine

/-! ## Recording an address -/

private theorem mem_recordAddr_iff (state : AnnounceState)
    (address addr : Multiaddr) :
    addr ∈ (recordAddr state address).myAddrs ↔
      addr ∈ state.myAddrs ∨
        (rebuildUdpQuic address = some addr ∧ isPublicUdpQuic addr = true) := by
  rw [recordAddr]
  cases rebuilt : rebuildUdpQuic address with
  | none =>
      simp
  | some canonical =>
      by_cases isPublic : isPublicUdpQuic canonical = true
      · simp only [if_pos isPublic, Finset.mem_insert, Option.some.injEq]
        constructor
        · intro found
          rcases found with same | before
          · subst same
            exact Or.inr ⟨rfl, isPublic⟩
          · exact Or.inl before
        · intro found
          rcases found with before | ⟨same, _⟩
          · exact Or.inr before
          · exact Or.inl same.symm
      · simp only [if_neg isPublic, Option.some.injEq]
        constructor
        · exact Or.inl
        · intro found
          rcases found with before | ⟨same, publicToo⟩
          · exact before
          · rw [same] at isPublic
            exact absurd publicToo isPublic

private theorem publishAnnounce_myAddrs (localPeer : PeerId)
    (surroundings : Surroundings) (state : AnnounceState) :
    (publishAnnounce localPeer surroundings state).1.myAddrs =
      state.myAddrs := by
  unfold publishAnnounce
  split
  · rfl
  · split
    · rfl
    · split <;> rfl

theorem mem_publishAnnounce_iff (localPeer : PeerId)
    (surroundings : Surroundings) (state : AnnounceState)
    (announcement : Announcement) :
    announcement ∈ (publishAnnounce localPeer surroundings state).2 ↔
      announcedRecently surroundings.now state = false ∧
        announcedAddrs state ≠ ∅ ∧
        announcement =
          ⟨localPeer, announcedAddrs state, surroundings.unixSeconds⟩ := by
  unfold publishAnnounce
  by_cases recently : announcedRecently surroundings.now state = true
  · rw [if_pos recently]
    simp [recently]
  · rw [if_neg recently]
    by_cases nothing : announcedAddrs state = ∅
    · rw [if_pos nothing]
      simp [nothing]
    · rw [if_neg nothing]
      simp [recently, nothing]

/-! ## What a round announces -/

def Effect.announcement : Effect → Option Announcement
  | .announce announcement => some announcement
  | _ => none

/-- The announcements of a round. -/
def announcements (effects : List Effect) : List Announcement :=
  effects.filterMap Effect.announcement

/-- The address that an event reports. -/
def LoopEvent.reportedAddr : LoopEvent → Option Multiaddr
  | .swarm (.newListenAddr address) => some address
  | .swarm (.externalAddrConfirmed address) => some address
  | _ => none

/-- The state with which the handler of an event calls `publish_announce`, if
it does. -/
def LoopEvent.announcesFrom (state : AnnounceState) :
    LoopEvent → Option AnnounceState
  | .swarm (.newListenAddr address) => some (recordAddr state address)
  | .swarm (.externalAddrConfirmed address) => some (recordAddr state address)
  | .swarm (.identifyReceived _ _) => some state
  | .swarm .autonat => some state
  | .swarm (.connection (.established _ _ _)) =>
      if state.announcedOnce then none
      else some { state with announcedOnce := true }
  | _ => none

/-- Calling `publish_announce`, or not. -/
def announceFrom (localPeer : PeerId) (surroundings : Surroundings)
    (state : AnnounceState) :
    Option AnnounceState → AnnounceState × List Announcement
  | some prepared => publishAnnounce localPeer surroundings prepared
  | none => (state, [])

/-- The round has something to dial too early after the origin of the clock. -/
def Underflows (config : NodeConfig) (state : LoopState)
    (input : Surroundings × LoopEvent) : Prop :=
  offers config state input ≠ [] ∧ input.1.now < dialCooldown * 2

private theorem announcements_append (first second : List Effect) :
    announcements (first ++ second) =
      announcements first ++ announcements second :=
  List.filterMap_append

private theorem announcements_announceEffects
    (announced : AnnounceState × List Announcement) (state : LoopState) :
    announcements (announceEffects announced state).2 = announced.2 :=
  filterMap_map_some Effect.announcement (fun _ => rfl) announced.2

private theorem announcements_map_of_none {Item : Type} {wrap : Item → Effect}
    (others : ∀ item, (wrap item).announcement = none) (items : List Item) :
    announcements (items.map wrap) = [] :=
  filterMap_map_none Effect.announcement others items

/-- A round announces what its handler announces: it leaves the announcing
state that `publish_announce` leaves and makes its announcements. -/
structure AnnouncesFrom (config : NodeConfig) (surroundings : Surroundings)
    (state : LoopState) (prepared : Option AnnounceState)
    (result : LoopState × List Effect) : Prop where
  announcing : result.1.announcing =
    (announceFrom config.localPeer surroundings state.announcing prepared).1
  announced : announcements result.2 =
    (announceFrom config.localPeer surroundings state.announcing prepared).2

private theorem announcesFrom_nothing {config : NodeConfig}
    {surroundings : Surroundings} {state : LoopState}
    {result : LoopState × List Effect}
    (kept : result.1.announcing = state.announcing)
    (silent : announcements result.2 = []) :
    AnnouncesFrom config surroundings state none result :=
  ⟨kept, silent⟩

private theorem onGossip_announcesFrom {config : NodeConfig}
    {surroundings : Surroundings} {state : LoopState}
    {source : Option PeerId} {message : GossipMessage}
    {result : LoopState × List Effect}
    (handled : onGossip config surroundings.now state source message =
      .ok result) :
    AnnouncesFrom config surroundings state none result := by
  unfold onGossip at handled
  split at handled
  · rw [← Except.ok.inj handled]
    exact announcesFrom_nothing rfl rfl
  · split at handled
    · rcases Checked.bind_eq_ok handled with ⟨unpacked, _, rest⟩
      rw [← Except.ok.inj rest]
      exact announcesFrom_nothing rfl
        (announcements_map_of_none (fun _ => rfl) _)
    · rcases Checked.bind_eq_ok handled with ⟨dialed, _, rest⟩
      rw [← Except.ok.inj rest]
      exact announcesFrom_nothing rfl
        (announcements_map_of_none (fun _ => rfl) _)
    · rw [← Except.ok.inj handled]
      exact announcesFrom_nothing rfl rfl

private theorem onConnection_announcesFrom (config : NodeConfig)
    (surroundings : Surroundings) (state : LoopState)
    (event : ConnectionEvent) :
    AnnouncesFrom config surroundings state
      (LoopEvent.announcesFrom state.announcing (.swarm (.connection event)))
      (onConnection config surroundings state event) := by
  have closes : ∀ ids : List ConnectionId,
      announcements (ids.map .closeConnection) = [] :=
    announcements_map_of_none fun _ => rfl
  cases event with
  | closed peer id =>
      exact announcesFrom_nothing rfl rfl
  | established peer id endpoint =>
      simp only [LoopEvent.announcesFrom, onConnection, announceFirst]
      by_cases already : state.announcing.announcedOnce = true
      · rw [if_pos already, if_pos already]
        refine announcesFrom_nothing rfl ?_
        rw [announcements_append, announcements_announceEffects, closes]
        rfl
      · rw [if_neg already, if_neg already]
        refine ⟨rfl, ?_⟩
        rw [announcements_append, announcements_announceEffects, closes,
          List.append_nil]
        rfl

private theorem onIdentifyReceived_announcesFrom (config : NodeConfig)
    (surroundings : Surroundings) {state : LoopState}
    (running : state.status = .running) (peer : PeerId)
    (listenAddrs : List Multiaddr)
    (noUnderflow : ¬ Underflows config state
      (surroundings, .swarm (.identifyReceived peer listenAddrs))) :
    ∃ result,
      onLoopEvent config surroundings state
          (.swarm (.identifyReceived peer listenAddrs)) = .ok result ∧
        AnnouncesFrom config surroundings state (some state.announcing)
          result := by
  have through :=
    identify_dialsThrough config surroundings state peer listenAddrs
  have dials : ∀ recent : RecentDials,
      Checked.Succeeds (dialEach surroundings.now peer recent
        (LoopEvent.offeredAddrs config state.connections.directPeers
          (.swarm (.identifyReceived peer listenAddrs)))) := by
    intro recent
    by_cases none : LoopEvent.offeredAddrs config
        state.connections.directPeers
        (.swarm (.identifyReceived peer listenAddrs)) = []
    · rw [none]
      exact ⟨_, rfl⟩
    · apply dialEach_succeeds
      apply Nat.le_of_not_lt
      intro early
      refine noUnderflow ⟨fun empty => none ?_, early⟩
      exact (offers_eq_nil_iff running rfl).1 empty
  rcases dials (pruneDials surroundings.now state.recentDials peer) with
    ⟨dialed, runs⟩
  rw [through.runs, runs, Checked.ok_bind]
  refine ⟨_, rfl, rfl, ?_⟩
  rw [announcements_append, announcements_announceEffects,
    announcements_map_of_none fun _ => rfl]
  rfl

/-- What a round of a running loop does to the announcing state, and what it
announces. -/
theorem step_announcesFrom (config : NodeConfig) {state : LoopState}
    (running : state.status = .running) {input : Surroundings × LoopEvent}
    (noUnderflow : ¬ Underflows config state input) :
    AnnouncesFrom config input.1 state
      (input.2.announcesFrom state.announcing)
      ((eventLoop config).step state input) := by
  rcases input with ⟨surroundings, event⟩
  rw [eventLoop_step_running config running]
  cases event with
  | uplink event =>
      exact announcesFrom_nothing rfl
        (announcements_map_of_none (fun _ => rfl) _)
  | swarm event =>
      cases event with
      | gossip source message =>
          cases handled :
              onLoopEvent config surroundings state
                (.swarm (.gossip source message)) with
          | error fault =>
              exact announcesFrom_nothing rfl rfl
          | ok result =>
              exact onGossip_announcesFrom handled
      | identifyReceived peer listenAddrs =>
          obtain ⟨result, runs, announces⟩ :=
            onIdentifyReceived_announcesFrom config surroundings running peer
              listenAddrs noUnderflow
          rw [runs]
          exact announces
      | request peer request =>
          cases handled :
              onLoopEvent config surroundings state
                (.swarm (.request peer request)) with
          | error fault =>
              exact announcesFrom_nothing rfl rfl
          | ok result =>
              rcases Checked.bind_eq_ok handled with ⟨unpacked, _, rest⟩
              rw [← Except.ok.inj rest]
              refine announcesFrom_nothing rfl ?_
              rw [announcements_append,
                announcements_map_of_none fun _ => rfl]
              rfl
      | connection event =>
          exact onConnection_announcesFrom config surroundings state event
      | autonat | newListenAddr address | externalAddrConfirmed address =>
          exact ⟨rfl, announcements_announceEffects _ _⟩
      | mdnsDiscovered found =>
          exact announcesFrom_nothing rfl
            (announcements_map_of_none (fun _ => rfl) _)
      | externalAddrExpired address | listenerClosed addresses =>
          exact announcesFrom_nothing rfl rfl

/-! ## Reports and withdrawals -/

/-- An `ExternalAddrExpired` of the address, or a `ListenerClosed` that lists
it. -/
def LoopEvent.Withdraws (address : Multiaddr) : LoopEvent → Prop
  | .swarm (.externalAddrExpired expired) => expired = address
  | .swarm (.listenerClosed addresses) => address ∈ addresses
  | _ => False

def Reported (inputs : List (Surroundings × LoopEvent))
    (address : Multiaddr) : Prop :=
  ∃ input, input ∈ inputs ∧ input.2.reportedAddr = some address

/-- The address was reported and has not been withdrawn since. -/
def Current (inputs : List (Surroundings × LoopEvent))
    (address : Multiaddr) : Prop :=
  ∃ earlier input later, inputs = earlier ++ input :: later ∧
    input.2.reportedAddr = some address ∧
    ∀ past, past ∈ later → ¬ past.2.Withdraws address

/-- The canonical form of the address, if it is public. -/
def publicForm (address : Multiaddr) : Option Multiaddr :=
  (rebuildUdpQuic address).filter isPublicUdpQuic

private theorem reported_snoc_iff (inputs : List (Surroundings × LoopEvent))
    (input : Surroundings × LoopEvent) (address : Multiaddr) :
    Reported (inputs ++ [input]) address ↔
      Reported inputs address ∨ input.2.reportedAddr = some address := by
  simp [Reported, or_and_right, exists_or]

/-- An event makes current what it reports, and leaves current what was so and
is not withdrawn by it. -/
theorem current_snoc_iff (inputs : List (Surroundings × LoopEvent))
    (input : Surroundings × LoopEvent) (address : Multiaddr) :
    Current (inputs ++ [input]) address ↔
      input.2.reportedAddr = some address ∨
        (Current inputs address ∧ ¬ input.2.Withdraws address) := by
  constructor
  · intro ⟨earlier, report, later, shape, reports, kept⟩
    rcases List.eq_nil_or_concat later with isLast | ⟨middle, last, isSnoc⟩
    · subst isLast
      rcases List.append_inj' shape rfl with ⟨_, sameInput⟩
      rw [List.singleton_inj.1 sameInput]
      exact Or.inl reports
    · rw [isSnoc] at shape kept
      have split :
          inputs ++ [input] = (earlier ++ report :: middle) ++ [last] := by
        simpa using shape
      rcases List.append_inj' split rfl with ⟨sameEvents, sameInput⟩
      rw [List.singleton_inj.1 sameInput]
      refine Or.inr ⟨⟨earlier, report, middle, sameEvents, reports, ?_⟩, ?_⟩
      · intro past member
        exact kept past (by simp [member])
      · exact kept last (by simp)
  · intro found
    rcases found with reports |
      ⟨⟨earlier, report, later, shape, reports, kept⟩, notWithdrawn⟩
    · exact ⟨inputs, input, [], rfl, reports, by simp⟩
    · refine ⟨earlier, report, later ++ [input], by simp [shape], reports, ?_⟩
      intro past member
      rcases List.mem_append.1 member with before | isLast
      · exact kept past before
      · rw [List.mem_singleton.1 isLast]
        exact notWithdrawn

private theorem not_current_nil (address : Multiaddr) : ¬ Current
    [] address := by
  intro ⟨earlier, report, later, shape, _⟩
  simp at shape

theorem publicForm_eq_some_iff (address canonical : Multiaddr) :
    publicForm address = some canonical ↔
      rebuildUdpQuic address = some canonical ∧
        isPublicUdpQuic canonical = true :=
  Option.filter_eq_some_iff

theorem announceFrom_myAddrs (localPeer : PeerId)
    (surroundings : Surroundings) (state : AnnounceState)
    (prepared : Option AnnounceState) :
    (announceFrom localPeer surroundings state prepared).1.myAddrs =
      (prepared.getD state).myAddrs := by
  cases prepared with
  | none =>
      rfl
  | some prepared =>
      exact publishAnnounce_myAddrs localPeer surroundings prepared

/-- A handler adds the public form of the address that its event reports. -/
theorem mem_announcesFrom_iff (state : AnnounceState) (event : LoopEvent)
    (addr : Multiaddr) :
    addr ∈ ((event.announcesFrom state).getD state).myAddrs ↔
      addr ∈ state.myAddrs ∨
        ∃ address, event.reportedAddr = some address ∧
          publicForm address = some addr := by
  cases event with
  | uplink event =>
      simp [LoopEvent.announcesFrom, LoopEvent.reportedAddr]
  | swarm event =>
      cases event with
      | newListenAddr address | externalAddrConfirmed address =>
          simp [LoopEvent.announcesFrom, LoopEvent.reportedAddr,
            mem_recordAddr_iff, publicForm_eq_some_iff]
      | connection event =>
          cases event with
          | established peer id endpoint =>
              cases already : state.announcedOnce <;>
                simp [LoopEvent.announcesFrom, LoopEvent.reportedAddr, already]
          | closed peer id =>
              simp [LoopEvent.announcesFrom, LoopEvent.reportedAddr]
      | _ =>
          simp [LoopEvent.announcesFrom, LoopEvent.reportedAddr]

/-- The recorded addresses of a running loop are the public forms of all the
addresses that were ever reported. -/
theorem mem_myAddrs_iff {config : NodeConfig}
    {inputs : List (Surroundings × LoopEvent)}
    (running : ((eventLoop config).stateAfter inputs).status = .running)
    (addr : Multiaddr) :
    addr ∈ ((eventLoop config).stateAfter inputs).announcing.myAddrs ↔
      ∃ address, Reported inputs address ∧ publicForm address = some addr := by
  induction inputs using List.reverseRecOn with
  | nil =>
      simp [Reported, eventLoop, LoopState.initial]
  | append_singleton earlier input inductionHypothesis =>
      have ranBefore := running_of_append running
      rw [stateAfter_snoc] at running ⊢
      have noUnderflow :
          ¬ Underflows config ((eventLoop config).stateAfter earlier)
            input := by
        intro underflows
        rw [step_of_early config underflows.1 underflows.2] at running
        cases running
      rw [(step_announcesFrom config ranBefore noUnderflow).announcing,
        announceFrom_myAddrs, mem_announcesFrom_iff,
        inductionHypothesis ranBefore]
      simp only [reported_snoc_iff, or_and_right, exists_or]

/-! ## What the loop announces is what was ever reported -/

/-- The round gets to the point of announcing: the loop runs, the handler
calls `publish_announce`, and the cooldown has passed. -/
def Announces (config : NodeConfig) (state : LoopState)
    (input : Surroundings × LoopEvent) : Prop :=
  state.status = .running ∧ ¬ Underflows config state input ∧
    ∃ prepared, input.2.announcesFrom state.announcing = some prepared ∧
      announcedRecently input.1.now prepared = false

/-- Every address that the round announces is the canonical form of an address
that is current. -/
def AnnouncesCurrent (config : NodeConfig)
    (earlier : List (Surroundings × LoopEvent))
    (input : Surroundings × LoopEvent) : Prop :=
  ∀ announcement,
    announcement ∈ announcements
      ((eventLoop config).step
        ((eventLoop config).stateAfter earlier) input).2 →
    ∀ addr, addr ∈ announcement.addrs →
      ∃ address, Current (earlier ++ [input]) address ∧
        rebuildUdpQuic address = some addr

/-- When the round announces, every public endpoint that was ever reported is
that of an address that is current. -/
def NoneStale (config : NodeConfig)
    (earlier : List (Surroundings × LoopEvent))
    (input : Surroundings × LoopEvent) : Prop :=
  Announces config ((eventLoop config).stateAfter earlier) input →
    ∀ address canonical, Reported (earlier ++ [input]) address →
      publicForm address = some canonical →
      ∃ current, Current (earlier ++ [input]) current ∧
        publicForm current = some canonical

/-- What `publish_announce` would announce in a round are the public forms of
all the addresses that were ever reported. -/
theorem mem_announcedAddrs_iff {config : NodeConfig}
    {earlier : List (Surroundings × LoopEvent)}
    {input : Surroundings × LoopEvent}
    (running : ((eventLoop config).stateAfter earlier).status = .running)
    {prepared : AnnounceState}
    (announces : input.2.announcesFrom
      ((eventLoop config).stateAfter earlier).announcing = some prepared)
    (addr : Multiaddr) :
    addr ∈ announcedAddrs prepared ↔
      ∃ address, Reported (earlier ++ [input]) address ∧
        publicForm address = some addr := by
  have recorded : addr ∈ prepared.myAddrs ↔
      ∃ address, Reported (earlier ++ [input]) address ∧
        publicForm address = some addr := by
    have added := mem_announcesFrom_iff
      ((eventLoop config).stateAfter earlier).announcing input.2 addr
    rw [announces, Option.getD_some, mem_myAddrs_iff running] at added
    simpa only [reported_snoc_iff, or_and_right, exists_or] using added
  rw [announcedAddrs, Finset.mem_filter, recorded]
  constructor
  · intro ⟨found, _⟩
    exact found
  · intro ⟨address, reported, form⟩
    exact ⟨⟨address, reported, form⟩,
      ((publicForm_eq_some_iff address addr).1 form).2⟩

private theorem mem_announcements_iff {config : NodeConfig}
    {earlier : List (Surroundings × LoopEvent)}
    {input : Surroundings × LoopEvent} {addr : Multiaddr} :
    (∃ announcement, announcement ∈ announcements
        ((eventLoop config).step
          ((eventLoop config).stateAfter earlier) input).2 ∧
        addr ∈ announcement.addrs) ↔
      Announces config ((eventLoop config).stateAfter earlier) input ∧
        ∃ address, Reported (earlier ++ [input]) address ∧
          publicForm address = some addr := by
  by_cases running :
      ((eventLoop config).stateAfter earlier).status = .running
  swap
  · rw [eventLoop_step_stopped config running]
    simp [announcements, Announces, running]
  by_cases underflows :
      Underflows config ((eventLoop config).stateAfter earlier) input
  · rw [step_of_early config underflows.1 underflows.2]
    simp [announcements, Announces, underflows]
  rw [(step_announcesFrom config running underflows).announced]
  cases announces : input.2.announcesFrom
      ((eventLoop config).stateAfter earlier).announcing with
  | none =>
      simp [announceFrom, Announces, announces]
  | some prepared =>
      have addrs := mem_announcedAddrs_iff running announces addr
      constructor
      · intro ⟨announcement, member, isAddr⟩
        obtain ⟨notRecently, _, same⟩ :=
          (mem_publishAnnounce_iff _ _ _ _).1 member
        rw [same] at isAddr
        exact ⟨⟨running, underflows, prepared, announces, notRecently⟩,
          addrs.1 isAddr⟩
      · intro ⟨⟨_, _, other, sameState, notRecently⟩, found⟩
        rw [announces, Option.some.injEq] at sameState
        subst sameState
        have isAddr := addrs.2 found
        refine ⟨_, (mem_publishAnnounce_iff _ _ _ _).2
          ⟨notRecently, ?_, rfl⟩, isAddr⟩
        exact Finset.ne_empty_of_mem isAddr

private theorem announcesCurrent_iff (config : NodeConfig)
    (earlier : List (Surroundings × LoopEvent))
    (input : Surroundings × LoopEvent) :
    AnnouncesCurrent config earlier input ↔
      NoneStale config earlier input := by
  constructor
  · intro current announces address canonical reported form
    obtain ⟨announcement, member, isAddr⟩ :=
      mem_announcements_iff.2 ⟨announces, address, reported, form⟩
    rcases current announcement member canonical isAddr with
      ⟨other, isCurrent, rebuilt⟩
    refine ⟨other, isCurrent, ?_⟩
    rw [publicForm_eq_some_iff] at form ⊢
    exact ⟨rebuilt, form.2⟩
  · intro noneStale announcement member addr isAddr
    obtain ⟨announces, address, reported, form⟩ :=
      mem_announcements_iff.1 ⟨announcement, member, isAddr⟩
    rcases noneStale announces address addr reported form with
      ⟨other, isCurrent, sameForm⟩
    exact ⟨other, isCurrent,
      ((publicForm_eq_some_iff other addr).1 sameForm).1⟩

/-- In every run, every announced address is current if and only if whenever
the loop announces, no public endpoint is left whose addresses have all been
withdrawn. -/
theorem announced_addrs_current_iff (config : NodeConfig)
    (inputs : List (Surroundings × LoopEvent)) :
    EachStep (AnnouncesCurrent config) inputs ↔
      EachStep (NoneStale config) inputs := by
  constructor
  · intro current earlier input later shape
    apply (announcesCurrent_iff config earlier input).1
    exact current earlier input later shape
  · intro noneStale earlier input later shape
    apply (announcesCurrent_iff config earlier input).2
    exact noneStale earlier input later shape

/-- A public address is reported, expires, and thirty seconds later AutoNAT
has news. -/
def expiredAddr : List (Surroundings × LoopEvent) :=
  [(⟨60000, 0, true⟩, .swarm (.externalAddrConfirmed
      (canonicalAddr ⟨8, 8, 8, 8⟩ 4001))),
    (⟨61000, 1, true⟩, .swarm (.externalAddrExpired
      (canonicalAddr ⟨8, 8, 8, 8⟩ 4001))),
    (⟨90000, 30, true⟩, .swarm .autonat)]

/-- The expired address is announced again. -/
theorem expired_addr_announced :
    announcements ((eventLoop ⟨⟨[1]⟩, ⟨64, 8⟩⟩).outputsOf expiredAddr) =
        [⟨⟨[1]⟩, {canonicalAddr ⟨8, 8, 8, 8⟩ 4001}, 0⟩,
          ⟨⟨[1]⟩, {canonicalAddr ⟨8, 8, 8, 8⟩ 4001}, 30⟩] ∧
      ¬ EachStep (AnnouncesCurrent ⟨⟨[1]⟩, ⟨64, 8⟩⟩) expiredAddr := by
  refine ⟨by decide +kernel, ?_⟩
  intro current
  obtain ⟨address, isCurrent, _⟩ :=
    current (expiredAddr.take 2) (⟨90000, 30, true⟩, .swarm .autonat) [] rfl
      ⟨⟨[1]⟩, {canonicalAddr ⟨8, 8, 8, 8⟩ 4001}, 30⟩ (by decide +kernel)
      (canonicalAddr ⟨8, 8, 8, 8⟩ 4001) (by decide)
  rcases (current_snoc_iff _ _ address).1 isCurrent with
    reports | ⟨atSecond, _⟩
  · cases reports
  rcases (current_snoc_iff (expiredAddr.take 1) _ address).1 atSecond with
    reports | ⟨atFirst, kept⟩
  · cases reports
  rcases (current_snoc_iff [] _ address).1 atFirst with reports | ⟨none, _⟩
  · exact kept (Option.some.inj reports)
  · exact not_current_nil address none

end CocoNet
