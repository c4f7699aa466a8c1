import CocoNet.P2p.DialCooldown

/-!
# What the record of recent dials holds

The record keeps the last dial of every address of every peer.  Only Identify
removes entries: those of its own peer, once they are a cooldown old.  So for a
peer that never identifies itself, as in an announcement under a name that
belongs to nobody, the record keeps every address for good.
-/

namespace CocoNet

open Cooldown StepMachine

/-- The peer that an Identify is about. -/
def LoopEvent.identifies : LoopEvent → Option PeerId
  | .swarm (.identifyReceived peer _) => some peer
  | _ => none

/-! ## One round -/

private theorem dialEach_record {now : Instant} {peer : PeerId}
    {recent : RecentDials} {addrs : List Multiaddr}
    {dialed : RecentDials × List Multiaddr}
    (runs : dialEach now peer recent addrs = .ok dialed)
    (other : PeerId) (addr : Multiaddr) :
    dialed.1 other addr =
      if other = peer ∧ addr ∈ dialed.2 then some now
      else recent other addr := by
  induction addrs generalizing recent dialed with
  | nil =>
      rw [← Except.ok.inj runs]
      simp
  | cons first rest inductionHypothesis =>
      have late : dialCooldown * 2 ≤ now := by
        apply Nat.le_of_not_lt
        intro early
        rw [dialEach_underflows early peer recent (by simp)] at runs
        cases runs
      rw [dialEach, dialUnlessRecent_eq late, Checked.ok_bind] at runs
      obtain ⟨others, restRuns, joined⟩ := Checked.bind_eq_ok runs
      rw [← Except.ok.inj joined]
      by_cases recently : ∃ dialed, recent peer first = some dialed ∧
          now - dialed < dialCooldown
      · rw [if_pos recently] at restRuns ⊢
        exact inductionHypothesis restRuns
      · rw [if_neg recently] at restRuns ⊢
        rw [inductionHypothesis restRuns]
        by_cases isOther : other = peer
        · subst isOther
          by_cases isFirst : addr = first
          · subst isFirst
            simp [RecentDials.set]
          · simp [RecentDials.set, isFirst]
        · simp [RecentDials.set, isOther]

private theorem mem_dialsAt_iff (now : Instant) (peer : PeerId)
    (addrs : List Multiaddr) (key : PeerId × Multiaddr) :
    ⟨now, key⟩ ∈ dialsAt now peer addrs ↔ key.1 = peer ∧ key.2 ∈ addrs := by
  rcases key with ⟨other, addr⟩
  simp only [dialsAt, List.mem_map, Stamped.mk.injEq, Prod.mk.injEq]
  constructor
  · intro found
    obtain ⟨found, member, _, same, sameAddr⟩ := found
    exact ⟨same.symm, sameAddr ▸ member⟩
  · intro both
    exact ⟨addr, both.2, trivial, both.1.symm, rfl⟩

section Round

variable {config : NodeConfig} {surroundings : Surroundings}
variable {state : LoopState} {event : LoopEvent}
variable {result : LoopState × List Effect}

private theorem DialsThrough.record_eq {peer : PeerId} {recent : RecentDials}
    {finish : RecentDials × List Multiaddr → LoopState × List Effect}
    (through : DialsThrough config surroundings state event peer recent finish)
    (dialsFor : event.dialsFor = some peer)
    (handled : onLoopEvent config surroundings state event = .ok result)
    (key : PeerId × Multiaddr) :
    result.1.recentDials key.1 key.2 =
      if ⟨surroundings.now, key⟩ ∈
          recordedDials (surroundings, event) result.2 then
        some surroundings.now
      else recent key.1 key.2 := by
  rw [through.runs] at handled
  obtain ⟨dialed, runs, finished⟩ := Checked.bind_eq_ok handled
  rw [← Except.ok.inj finished, through.record, dialEach_record runs]
  simp only [recordedDials, dialsFor, through.dials, mem_dialsAt_iff]

/-- A round stamps what it dials, and Identify forgets what is old. -/
theorem onLoopEvent_record
    (handled : onLoopEvent config surroundings state event = .ok result)
    (key : PeerId × Multiaddr) :
    result.1.recentDials key.1 key.2 =
      if ⟨surroundings.now, key⟩ ∈
          recordedDials (surroundings, event) result.2 then
        some surroundings.now
      else if event.identifies = some key.1 then
        (state.recentDials key.1 key.2).filter fun dialed =>
          surroundings.now - dialed < dialCooldown
      else state.recentDials key.1 key.2 := by
  cases dialsFor : event.dialsFor with
  | none =>
      have notIdentify : event.identifies ≠ some key.1 := by
        intro identifies
        cases event with
        | uplink event =>
            cases identifies
        | swarm event =>
            cases event with
            | identifyReceived peer listenAddrs =>
                cases dialsFor
            | _ =>
                cases identifies
      rw [onLoopEvent_recentDials dialsFor handled, if_neg notIdentify,
        recordedDials_of_none dialsFor, if_neg List.not_mem_nil]
  | some peer =>
      cases event with
      | uplink event =>
          cases dialsFor
      | swarm event =>
          cases event with
          | gossip source message =>
              cases message with
              | packets data =>
                  cases dialsFor
              | announce msg =>
                  cases msg with
                  | none =>
                      cases dialsFor
                  | some msg =>
                      have through := announce_dialsThrough config surroundings
                        state source dialsFor
                      exact through.record_eq dialsFor handled key
          | identifyReceived other listenAddrs =>
              obtain rfl : other = peer := Option.some.inj dialsFor
              have through := identify_dialsThrough config surroundings state
                other listenAddrs
              rw [through.record_eq dialsFor handled key]
              congr 1
              by_cases isOther : key.1 = other
              · simp [LoopEvent.identifies, pruneDials, isOther]
              · simp [LoopEvent.identifies, pruneDials, isOther, Ne.symm isOther]
          | _ =>
              cases dialsFor

end Round

/-! ## Runs -/

private theorem recordedDials_time {input : Surroundings × LoopEvent}
    {effects : List Effect} {dial : Dial}
    (member : dial ∈ recordedDials input effects) :
    dial.time = input.1.now := by
  rw [recordedDials] at member
  split at member
  · obtain ⟨addr, _, same⟩ := List.mem_map.1 member
    rw [← same]
  · cases member

/-- The entry for an address of a peer holds a stamp exactly when that is the
last dial of the address for the peer, and no Identify of the peer has come a
cooldown later. -/
theorem recent_dials_exact (config : NodeConfig)
    {inputs : List (Surroundings × LoopEvent)} (clocked : Clocked inputs)
    (running : ((eventLoop config).stateAfter inputs).status = .running)
    (peer : PeerId) (addr : Multiaddr) (stamp : Instant) :
    ((eventLoop config).stateAfter inputs).recentDials peer addr =
        some stamp ↔
      lastStamp (dialLog config inputs) (peer, addr) = some stamp ∧
        ∀ input, input ∈ inputs → input.2.identifies = some peer →
          input.1.now < stamp + dialCooldown := by
  induction inputs using List.reverseRecOn generalizing stamp with
  | nil =>
      constructor
      · intro stamped
        cases stamped
      · intro both
        cases both.1
  | append_singleton earlier input inductionHypothesis =>
      rcases input with ⟨surroundings, event⟩
      obtain ⟨clockedBefore, lastClocked⟩ :=
        (eachStep_snoc_iff _ _ _).1 clocked
      have before := running_of_append running
      have sameBefore := inductionHypothesis clockedBefore before
      rw [stateAfter_snoc] at running ⊢
      rw [dialLog_snoc]
      rw [eventLoop_step_running config before] at running ⊢
      cases handled : onLoopEvent config surroundings
          ((eventLoop config).stateAfter earlier) event with
      | error fault =>
          rw [handled] at running
          cases running
      | ok result =>
          have record := onLoopEvent_record handled (peer, addr)
          dsimp only at record ⊢
          rw [record]
          by_cases dialed : ⟨surroundings.now, (peer, addr)⟩ ∈
              recordedDials (surroundings, event) result.2
          · rw [if_pos dialed, lastStamp_append_of_mem _
              (fun _ => recordedDials_time) dialed, iff_self_and]
            intro isNow
            rw [← Option.some.inj isNow]
            -- Nothing so far comes after the present.
            intro input member _
            have notAfter : input.1.now ≤ surroundings.now := by
              rcases List.mem_append.1 member with isEarlier | isLast
              · exact lastClocked input isEarlier
              · rw [List.mem_singleton.1 isLast]
            have positive : 0 < dialCooldown := by decide
            exact Nat.lt_of_le_of_lt notAfter
              (Nat.lt_add_of_pos_right positive)
          · have absent : ∀ entry,
                entry ∈ recordedDials (surroundings, event) result.2 →
                  entry.key ≠ (peer, addr) := by
              intro entry member same
              apply dialed
              rw [← same, ← recordedDials_time member]
              exact member
            rw [if_neg dialed, lastStamp_append_of_notMem _ absent]
            by_cases identifies : event.identifies = some peer
            · rw [if_pos identifies, Option.filter_eq_some_iff, sameBefore,
                decide_eq_true_eq, elapsed_lt_cooldown_iff, and_assoc]
              apply and_congr_right
              intro _
              simp [or_imp, forall_and, identifies]
            · rw [if_neg identifies, sameBefore]
              apply and_congr_right
              intro _
              simp [or_imp, forall_and, identifies]

/-- An announcement of an address of a peer, and an Identify of the peer twenty
seconds later. -/
def announcedThenIdentified : List (Surroundings × LoopEvent) :=
  [(⟨60000, 0, true⟩, .swarm (.gossip none (.announce
      (some ⟨some ⟨[7]⟩, [some [.ip4 ⟨8, 8, 8, 8⟩, .udp 4001, .quicV1]]⟩)))),
    (⟨80000, 20, true⟩, .swarm (.identifyReceived ⟨[7]⟩ []))]

theorem recent_dials_exact_announced :
    ((eventLoop ⟨⟨[1]⟩, ⟨64, 8⟩⟩).stateAfter
      announcedThenIdentified).recentDials ⟨[7]⟩
        [.ip4 ⟨8, 8, 8, 8⟩, .udp 4001, .quicV1] = some 60000 := by
  have clocked : Clocked announcedThenIdentified := by
    simp [Clocked, announcedThenIdentified, eachStep_cons_iff, eachStep_nil]
  rw [recent_dials_exact ⟨⟨[1]⟩, ⟨64, 8⟩⟩ clocked (by decide +kernel)]
  refine ⟨by decide +kernel, ?_⟩
  simp [announcedThenIdentified, LoopEvent.identifies, dialCooldown]

end CocoNet
