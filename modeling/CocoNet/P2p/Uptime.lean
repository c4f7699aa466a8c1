import Mathlib.Order.Monotone.Basic
import CocoNet.Library.StepMachine
import CocoNet.P2p.Dialing

/-!
# The dial cooldown and the origin of the clock

A handler reads the monotonic clock more than once: before it prunes, if the
peer has a record at all, twice for every address, first for the comparison and
then for the seed of a new entry, and once more when it announces the addresses
of the node.  Here every reading is its own, where a round of the event loop
has one.

The difference of two readings is zero when it would be negative, but a duration
taken from a reading must not reach below the origin of the clock.  On some
platforms that origin is the boot of the machine.
-/

namespace CocoNet

open StepMachine

/-! ## Handlers that read the clock -/

/-- The monotonic clock, by what its successive calls read. -/
structure MonotonicClock where
  reading : Nat → Instant
  monotone : Monotone reading

/-- `recent_dials` with its two levels: a peer without a record is not a peer
whose record is empty. -/
abbrev DialRecords := PeerId → Option (Multiaddr → Option Instant)

/-- The entries of all records. -/
def DialRecords.recent (records : DialRecords) : RecentDials :=
  fun peer addr => (records peer).bind fun record => record addr

/-- `entry(peer).or_default()`, and then the entry for the address. -/
def DialRecords.set (records : DialRecords) (peer : PeerId) (addr : Multiaddr)
    (instant : Instant) : DialRecords :=
  Function.update records peer
    (some (Function.update ((records peer).getD fun _ => none) addr
      (some instant)))

def DialRecords.orInsert (records : DialRecords) (peer : PeerId)
    (addr : Multiaddr) (seed : Instant) : DialRecords :=
  if (records.recent peer addr).isSome then records
  else records.set peer addr seed

/-- The records, and how often the clock has been read. -/
structure DialState where
  records : DialRecords
  calls : Nat

namespace MonotonicClock

variable (clock : MonotonicClock)

def dialUnlessRecent (state : DialState) (peer : PeerId) (addr : Multiaddr) :
    Checked (DialState × List Multiaddr) := do
  let now := clock.reading state.calls
  let seed ←
    Checked.sub (clock.reading (state.calls + 1)) (dialCooldown * 2)
  if now - (state.records.recent peer addr).getD seed < dialCooldown then
    .ok (⟨state.records.orInsert peer addr seed, state.calls + 2⟩, [])
  else .ok (⟨state.records.set peer addr now, state.calls + 2⟩, [addr])

def dialEach (peer : PeerId) :
    DialState → List Multiaddr → Checked (DialState × List Multiaddr)
  | state, [] => .ok (state, [])
  | state, addr :: rest => do
      let first ← clock.dialUnlessRecent state peer addr
      let others ← dialEach peer first.1 rest
      .ok (others.1, first.2 ++ others.2)

def onAnnounce (localPeer : PeerId) (state : DialState) (msg : AnnounceMsg) :
    Checked (DialState × List Multiaddr) :=
  match msg.peer with
  | none => .ok (state, [])
  | some peer =>
      if peer = localPeer then .ok (state, [])
      else clock.dialEach peer state msg.targets

/-- The clock is read only for a peer that has a record. -/
def pruneDials (state : DialState) (peer : PeerId) : DialState :=
  match state.records peer with
  | some record =>
      let now := clock.reading state.calls
      ⟨Function.update state.records peer (some fun addr =>
          (record addr).filter fun dialed => now - dialed < dialCooldown),
        state.calls + 1⟩
  | none => state

/-- `publish_announce` reads the clock first of all. -/
def publishAnnounce (state : DialState) : DialState :=
  { state with calls := state.calls + 1 }

def onIdentify (directPeers : Finset PeerId) (state : DialState)
    (peer : PeerId) (listenAddrs : List Multiaddr) :
    Checked (DialState × List Multiaddr) := do
  let dialed ←
    if alreadyDirect directPeers peer then
      .ok (clock.pruneDials state peer, [])
    else
      clock.dialEach peer (clock.pruneDials state peer)
        (listenAddrs.filterMap identifyTarget)
  .ok (publishAnnounce dialed.1, dialed.2)

end MonotonicClock

/-- The events that use the records, and the others that announce the node's
own addresses and so read the clock in between.  The loop skips its own
announcements before. -/
inductive DialEvent where
  | announce (msg : AnnounceMsg)
  | identify (directPeers : Finset PeerId) (peer : PeerId)
      (listenAddrs : List Multiaddr)
  | announcesOwn
  deriving DecidableEq

def onDialEvent (clock : MonotonicClock) (localPeer : PeerId)
    (state : DialState) : DialEvent → Checked (DialState × List Multiaddr)
  | .announce msg => clock.onAnnounce localPeer state msg
  | .identify directPeers peer listenAddrs =>
      clock.onIdentify directPeers state peer listenAddrs
  | .announcesOwn => .ok (MonotonicClock.publishAnnounce state, [])

structure DialRun where
  dials : DialState
  aborted : Bool

/-- The events one after the other, from empty records on.  The build aborts on
a panic. -/
def dialRun (clock : MonotonicClock) (localPeer : PeerId) :
    StepMachine DialRun DialEvent Multiaddr where
  start := ⟨⟨fun _ => none, 0⟩, false⟩
  step run event :=
    if run.aborted then (run, [])
    else
      match onDialEvent clock localPeer run.dials event with
      | .ok dialed => (⟨dialed.1, false⟩, dialed.2)
      | .error _ => (⟨run.dials, true⟩, [])

/-! ## A clock that stands still -/

private theorem DialRecords.recent_set (records : DialRecords) (peer : PeerId)
    (addr : Multiaddr) (instant : Instant) :
    (records.set peer addr instant).recent =
      records.recent.set peer addr instant := by
  funext other found
  by_cases isPeer : other = peer
  · subst isPeer
    have record : (((records other).getD fun _ => none) : Multiaddr → _) =
        records.recent other := by
      funext entry
      cases isRecord : records other <;> simp [recent, isRecord]
    simp [recent, set, RecentDials.set, record]
  · simp [recent, set, RecentDials.set, isPeer]

private theorem DialRecords.recent_orInsert (records : DialRecords)
    (peer : PeerId)
    (addr : Multiaddr) (seed : Instant) :
    (records.orInsert peer addr seed).recent =
      records.recent.orInsert peer addr seed := by
  unfold orInsert RecentDials.orInsert
  split
  · rfl
  · exact records.recent_set peer addr seed

/-- The outcome of a handler without the count of readings. -/
def outcomeOf (handled : Checked (DialState × List Multiaddr)) :
    Checked (RecentDials × List Multiaddr) := do
  let dialed ← handled
  .ok (dialed.1.records.recent, dialed.2)

/-- From `first` on, the clock reads `now` for `count` calls. -/
def MonotonicClock.Steady (clock : MonotonicClock) (now : Instant)
    (first count : Nat) : Prop :=
  ∀ call, first ≤ call → call < first + count → clock.reading call = now

section Steady

variable {clock : MonotonicClock} {now : Instant}

private theorem dialUnlessRecent_steady {state : DialState}
    (steady : clock.Steady now state.calls 2) (peer : PeerId)
    (addr : Multiaddr) :
    (clock.dialUnlessRecent state peer addr = .error .underflow ∧
        dialUnlessRecent now state.records.recent peer addr =
          .error .underflow) ∨
      ∃ records dialed,
        clock.dialUnlessRecent state peer addr =
            .ok (⟨records, state.calls + 2⟩, dialed) ∧
          dialUnlessRecent now state.records.recent peer addr =
            .ok (records.recent, dialed) := by
  have compared := steady state.calls (Nat.le_refl _) (by omega)
  have seeded := steady (state.calls + 1) (by omega) (by omega)
  rw [MonotonicClock.dialUnlessRecent, dialUnlessRecent, compared, seeded]
  by_cases late : dialCooldown * 2 ≤ now
  · apply Or.inr
    rw [Checked.sub_eq_ok late, Checked.ok_bind, Checked.ok_bind]
    split
    · refine ⟨_, _, rfl, ?_⟩
      rw [DialRecords.recent_orInsert]
    · refine ⟨_, _, rfl, ?_⟩
      rw [DialRecords.recent_set]
  · apply Or.inl
    rw [Checked.sub_eq_error (Nat.lt_of_not_le late)]
    exact ⟨rfl, rfl⟩

private theorem dialEach_steady {state : DialState} {addrs : List Multiaddr}
    (steady : clock.Steady now state.calls (2 * addrs.length))
    (peer : PeerId) :
    outcomeOf (clock.dialEach peer state addrs) =
      dialEach now peer state.records.recent addrs := by
  induction addrs generalizing state with
  | nil =>
      rfl
  | cons addr rest inductionHypothesis =>
      have both : clock.Steady now state.calls 2 := by
        intro call lower upper
        apply steady call lower
        rw [List.length_cons]
        omega
      rw [MonotonicClock.dialEach, dialEach]
      rcases dialUnlessRecent_steady both peer addr with
        ⟨fails, failsToo⟩ | ⟨records, dialed, runs, runsToo⟩
      · rw [fails, failsToo]
        rfl
      · have others : clock.Steady now (state.calls + 2) (2 * rest.length) := by
          intro call lower upper
          apply steady call (by omega)
          rw [List.length_cons]
          omega
        have same := @inductionHypothesis ⟨records, state.calls + 2⟩ others
        rw [runs, runsToo, Checked.ok_bind, Checked.ok_bind, ← same]
        cases clock.dialEach peer ⟨records, state.calls + 2⟩ rest with
        | error fault =>
            rfl
        | ok rested =>
            rfl

/-- While the clock stands still, the handlers are those of the event loop,
which sees the entries only. -/
theorem onAnnounce_steady {state : DialState} {msg : AnnounceMsg}
    (steady : clock.Steady now state.calls (2 * msg.targets.length))
    (localPeer : PeerId) :
    outcomeOf (clock.onAnnounce localPeer state msg) =
      onAnnounce localPeer now state.records.recent msg := by
  rw [MonotonicClock.onAnnounce, onAnnounce]
  cases msg.peer with
  | none =>
      rfl
  | some peer =>
      by_cases own : peer = localPeer
      · simp only [if_pos own]
        rfl
      · simp only [if_neg own]
        exact dialEach_steady steady peer

private theorem pruneDials_steady {state : DialState}
    (steady : clock.Steady now state.calls 1) (peer : PeerId) :
    (clock.pruneDials state peer).records.recent =
        pruneDials now state.records.recent peer ∧
      state.calls ≤ (clock.pruneDials state peer).calls ∧
      (clock.pruneDials state peer).calls ≤ state.calls + 1 := by
  have read := steady state.calls (Nat.le_refl _) (by omega)
  unfold MonotonicClock.pruneDials
  split
  · rename_i record isRecord
    refine ⟨?_, by simp, by simp⟩
    funext other addr
    by_cases isPeer : other = peer
    · subst isPeer
      simp [DialRecords.recent, pruneDials, isRecord, read]
    · simp [DialRecords.recent, pruneDials, isPeer]
  · rename_i noRecord
    refine ⟨?_, Nat.le_refl _, Nat.le_succ _⟩
    funext other addr
    by_cases isPeer : other = peer
    · subst isPeer
      simp [DialRecords.recent, pruneDials, noRecord]
    · simp [DialRecords.recent, pruneDials, isPeer]

theorem onIdentify_steady {state : DialState} {listenAddrs : List Multiaddr}
    (steady : clock.Steady now state.calls
      (1 + 2 * (listenAddrs.filterMap identifyTarget).length))
    (directPeers : Finset PeerId) (peer : PeerId) :
    outcomeOf (clock.onIdentify directPeers state peer listenAddrs) =
      onIdentify now directPeers state.records.recent peer listenAddrs := by
  have first : clock.Steady now state.calls 1 := by
    intro call lower upper
    exact steady call lower (by omega)
  rcases pruneDials_steady first peer with ⟨pruned, lower, upper⟩
  rw [onIdentify, ← pruned]
  unfold MonotonicClock.onIdentify
  by_cases direct : alreadyDirect directPeers peer = true
  · rw [if_pos direct, if_pos direct]
    rfl
  · rw [if_neg direct, if_neg direct]
    have rest : clock.Steady now (clock.pruneDials state peer).calls
        (2 * (listenAddrs.filterMap identifyTarget).length) := by
      intro call callLower callUpper
      exact steady call (by omega) (by omega)
    rw [← dialEach_steady rest peer]
    cases clock.dialEach peer (clock.pruneDials state peer)
        (listenAddrs.filterMap identifyTarget) with
    | error fault =>
        rfl
    | ok dialed =>
        rfl

end Steady

/-! ## One handler -/

/-- What a handler goes on to dial, unless it was dialed recently. -/
def DialEvent.targets (localPeer : PeerId) : DialEvent → List Multiaddr
  | .announce msg =>
      if msg.peer = none ∨ msg.peer = some localPeer then []
      else msg.addrs.filterMap fun addr => addr.filter isPublicUdpQuic
  | .identify directPeers peer listenAddrs =>
      if peer ∈ directPeers then [] else listenAddrs.filterMap offeredForm
  | .announcesOwn => []

/-- The call that reads the clock for the seed of the first address: an
announcement compares before it, Identify also prunes if the peer has a
record. -/
def DialEvent.firstSeed (state : DialState) : DialEvent → Nat
  | .identify _ peer _ =>
      if (state.records peer).isSome then state.calls + 2 else state.calls + 1
  | _ => state.calls + 1

section Handlers

variable (clock : MonotonicClock)

private theorem dialUnlessRecent_of_early {state : DialState}
    (early : clock.reading (state.calls + 1) < dialCooldown * 2)
    (peer : PeerId) (addr : Multiaddr) :
    clock.dialUnlessRecent state peer addr = .error .underflow := by
  rw [MonotonicClock.dialUnlessRecent, Checked.sub_eq_error early,
    Checked.error_bind]

private theorem dialUnlessRecent_of_late {state : DialState}
    (late : dialCooldown * 2 ≤ clock.reading (state.calls + 1))
    (peer : PeerId) (addr : Multiaddr) :
    ∃ dialed, clock.dialUnlessRecent state peer addr = .ok dialed ∧
      dialed.1.calls = state.calls + 2 := by
  rw [MonotonicClock.dialUnlessRecent, Checked.sub_eq_ok late,
    Checked.ok_bind]
  split
  · exact ⟨_, rfl, rfl⟩
  · exact ⟨_, rfl, rfl⟩

/-- The seed of the first address decides: those of the others are read
later. -/
theorem dialEach_of_late {state : DialState} {addrs : List Multiaddr}
    (late : addrs ≠ [] →
      dialCooldown * 2 ≤ clock.reading (state.calls + 1))
    (peer : PeerId) :
    Checked.Succeeds (clock.dialEach peer state addrs) := by
  induction addrs generalizing state with
  | nil =>
      exact ⟨_, rfl⟩
  | cons addr rest inductionHypothesis =>
      have firstLate := late (List.cons_ne_nil addr rest)
      obtain ⟨dialed, runs, calls⟩ :=
        dialUnlessRecent_of_late clock firstLate peer addr
      have later : clock.reading (state.calls + 1) ≤
          clock.reading (dialed.1.calls + 1) := by
        apply clock.monotone
        omega
      obtain ⟨others, othersRun⟩ :=
        inductionHypothesis fun _ => Nat.le_trans firstLate later
      rw [MonotonicClock.dialEach, runs, Checked.ok_bind, othersRun,
        Checked.ok_bind]
      exact ⟨_, rfl⟩

private theorem dialEach_of_early {state : DialState} {addrs : List Multiaddr}
    (nonempty : addrs ≠ [])
    (early : clock.reading (state.calls + 1) < dialCooldown * 2)
    (peer : PeerId) :
    clock.dialEach peer state addrs = .error .underflow := by
  cases addrs with
  | nil =>
      exact absurd rfl nonempty
  | cons addr rest =>
      rw [MonotonicClock.dialEach, dialUnlessRecent_of_early clock early,
        Checked.error_bind]

private theorem calls_pruneDials (state : DialState) (peer : PeerId)
    (listenAddrs : List Multiaddr) (directPeers : Finset PeerId) :
    (clock.pruneDials state peer).calls + 1 =
      (DialEvent.identify directPeers peer listenAddrs).firstSeed state := by
  cases isRecord : state.records peer with
  | some record =>
      simp [MonotonicClock.pruneDials, DialEvent.firstSeed, isRecord]
  | none =>
      simp [MonotonicClock.pruneDials, DialEvent.firstSeed, isRecord]

/-- Whom an event dials and from which records; what it does then cannot
fail. -/
theorem onDialEvent_eq (localPeer : PeerId) (state : DialState)
    (event : DialEvent) :
    ∃ peer before later, before.calls + 1 = event.firstSeed state ∧
      onDialEvent clock localPeer state event =
        (do
          let dialed ← clock.dialEach peer before (event.targets localPeer)
          .ok (⟨dialed.1.records, dialed.1.calls + later⟩, dialed.2)) := by
  cases event with
  | announce msg =>
      cases isPeer : msg.peer with
      | none =>
          refine ⟨localPeer, state, 0, rfl, ?_⟩
          simp only [onDialEvent, MonotonicClock.onAnnounce,
            DialEvent.targets, isPeer, true_or, if_true]
          rfl
      | some peer =>
          refine ⟨peer, state, 0, rfl, ?_⟩
          simp only [onDialEvent, MonotonicClock.onAnnounce,
            DialEvent.targets, isPeer, reduceCtorEq, false_or,
            Option.some.injEq, AnnounceMsg.targets_eq]
          split
          · rfl
          · exact (bind_pure _).symm
  | identify directPeers peer listenAddrs =>
      refine ⟨peer, clock.pruneDials state peer, 1,
        calls_pruneDials clock state peer listenAddrs directPeers, ?_⟩
      have isDirect : alreadyDirect directPeers peer = true ↔
          peer ∈ directPeers := decide_eq_true_iff
      rw [onDialEvent, MonotonicClock.onIdentify, DialEvent.targets,
        funext identifyTarget_eq]
      by_cases direct : peer ∈ directPeers
      · rw [if_pos (isDirect.2 direct), if_pos direct]
        rfl
      · rw [if_neg (mt isDirect.1 direct), if_neg direct]
        rfl
  | announcesOwn =>
      exact ⟨localPeer, state, 1, rfl, rfl⟩

end Handlers

/-- If there is an address to consider, its seed is taken no earlier than two
cooldowns after the origin of the clock. -/
def SeedsInTime (clock : MonotonicClock) (localPeer : PeerId)
    (state : DialState) (event : DialEvent) : Prop :=
  event.targets localPeer ≠ [] →
    dialCooldown * 2 ≤ clock.reading (event.firstSeed state)

private theorem onDialEvent_of_inTime {clock : MonotonicClock}
    {localPeer : PeerId}
    {state : DialState} {event : DialEvent}
    (inTime : SeedsInTime clock localPeer state event) :
    Checked.Succeeds (onDialEvent clock localPeer state event) := by
  rcases onDialEvent_eq clock localPeer state event with
    ⟨peer, before, later, seed, same⟩
  rw [SeedsInTime, ← seed] at inTime
  rcases dialEach_of_late clock inTime peer with ⟨dialed, runs⟩
  rw [same, runs]
  exact ⟨_, rfl⟩

private theorem onDialEvent_underflows {clock : MonotonicClock}
    {localPeer : PeerId}
    {state : DialState} {event : DialEvent}
    (tooEarly : ¬ SeedsInTime clock localPeer state event) :
    onDialEvent clock localPeer state event = .error .underflow := by
  rcases onDialEvent_eq clock localPeer state event with
    ⟨peer, before, later, seed, same⟩
  rw [SeedsInTime, ← seed, Classical.not_imp, Nat.not_le] at tooEarly
  rw [same, dialEach_of_early clock tooEarly.1 tooEarly.2 peer]
  rfl

private theorem onDialEvent_succeeds_iff (clock : MonotonicClock)
    (localPeer : PeerId) (state : DialState) (event : DialEvent) :
    Checked.Succeeds (onDialEvent clock localPeer state event) ↔
      SeedsInTime clock localPeer state event := by
  constructor
  · intro ⟨dialed, runs⟩
    by_contra tooEarly
    rw [onDialEvent_underflows tooEarly] at runs
    cases runs
  · exact onDialEvent_of_inTime

/-! ## Runs -/

section Runs

variable (clock : MonotonicClock) (localPeer : PeerId)

/-- No handler of the run underflows. -/
def NeverUnderflows (events : List DialEvent) : Prop :=
  EachStep
    (fun earlier event => Checked.Succeeds (onDialEvent clock localPeer
      ((dialRun clock localPeer).stateAfter earlier).dials event)) events

/-- Every handler of the run that has an address to consider does so late
enough. -/
def AlwaysInTime (events : List DialEvent) : Prop :=
  EachStep
    (fun earlier event => SeedsInTime clock localPeer
      ((dialRun clock localPeer).stateAfter earlier).dials event) events

private theorem aborted_step (run : DialRun) (event : DialEvent) :
    ((dialRun clock localPeer).step run event).1.aborted = false ↔
      run.aborted = false ∧
        Checked.Succeeds (onDialEvent clock localPeer run.dials event) := by
  cases aborted : run.aborted with
  | true =>
      simp [dialRun, aborted]
  | false =>
      cases handled : onDialEvent clock localPeer run.dials event with
      | error fault =>
          simp [dialRun, aborted, handled, Checked.Succeeds]
      | ok dialed =>
          simp [dialRun, aborted, handled, Checked.Succeeds]

private theorem not_aborted_iff (events : List DialEvent) :
    ((dialRun clock localPeer).stateAfter events).aborted = false ↔
      NeverUnderflows clock localPeer events := by
  induction events using List.reverseRecOn with
  | nil =>
      exact iff_of_true rfl (eachStep_nil _)
  | append_singleton earlier event inductionHypothesis =>
      rw [stateAfter_snoc, aborted_step, inductionHypothesis,
        NeverUnderflows, NeverUnderflows, eachStep_snoc_iff]

/-- At every uptime and in every run of announcements and Identify events, with
other readings of the clock in between, no handler underflows, and the program
goes on, if and only if every handler that has an address to consider seeds it
two cooldowns after the origin of the clock or later. -/
theorem cooldown_safe_iff (events : List DialEvent) :
    (NeverUnderflows clock localPeer events ↔
      AlwaysInTime clock localPeer events) ∧
    (((dialRun clock localPeer).stateAfter events).aborted = false ↔
      AlwaysInTime clock localPeer events) := by
  have same : NeverUnderflows clock localPeer events ↔
      AlwaysInTime clock localPeer events := by
    simp only [NeverUnderflows, AlwaysInTime, onDialEvent_succeeds_iff]
  exact ⟨same, (not_aborted_iff clock localPeer events).trans same⟩

end Runs

/-- The machine has been up for five seconds, and every reading takes a
millisecond. -/
def freshBoot : MonotonicClock where
  reading call := 5000 + call
  monotone := fun _ _ ordered => Nat.add_le_add_left ordered 5000

/-- Peer 7 announces one public address. -/
def firstAnnouncement : DialEvent :=
  .announce ⟨some ⟨[0, 1, 7]⟩, [some [.ip4 ⟨8, 8, 8, 8⟩, .udp 4001, .quicV1]]⟩

/-- Five seconds after the boot, the first announcement aborts the program. -/
theorem first_announcement_aborts :
    onDialEvent freshBoot ⟨[0, 1, 1]⟩ ⟨fun _ => none, 0⟩ firstAnnouncement =
      .error .underflow ∧
    ((dialRun freshBoot ⟨[0, 1, 1]⟩).stateAfter [firstAnnouncement]).aborted =
      true ∧
    ¬ NeverUnderflows freshBoot ⟨[0, 1, 1]⟩ [firstAnnouncement] := by
  have underflows : onDialEvent freshBoot ⟨[0, 1, 1]⟩ ⟨fun _ => none, 0⟩
      firstAnnouncement = .error .underflow := by
    rfl
  refine ⟨underflows, rfl, ?_⟩
  intro never
  obtain ⟨dialed, runs⟩ := never [] firstAnnouncement [] rfl
  have contradiction := underflows.symm.trans runs
  cases contradiction

end CocoNet
