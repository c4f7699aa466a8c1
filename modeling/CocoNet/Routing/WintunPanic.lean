import CocoNet.Routing.Datagrams
import CocoNet.Routing.WintunTasks

/-!
# When the sending thread can panic

Nothing makes the pump wait for the task that reads the stream, so the pump may
fill the stream before that task has a turn.  It then reads more than a packet
can hold.  Whether the tasks can get there depends on nothing but the number of
bytes that come in, and fairness does not prevent it.
-/

namespace CocoNet

section Panic

variable {strategy : PanicStrategy} {allocates : Nat → Bool} {mtu : Nat}
variable {respectDf : Bool} {side next : WintunSide}

/-- Only the pump has had turns that concern the downlink. -/
structure Filling (allocates : Nat → Bool) (mtu : Nat) (respectDf : Bool)
    (bytes : Bytes) (side : WintunSide) : Prop where
  sound : side.Sound allocates
  downlink : side.downlinkBytes mtu respectDf = bytes
  reader : side.reader = .reading
  handed : side.handed = []
  sender : side.sender = .running
  sent : side.sent = []

def IsPump (task : WintunTask) : Prop :=
  task = .pump .receive ∨ task = .pump .write

theorem Filling.pump {bytes : Bytes} {task : WintunTask}
    (filling : Filling allocates mtu respectDf bytes side)
    (isPump : IsPump task)
    (moves : wintunMove allocates mtu respectDf side task = some next) :
    Filling allocates mtu respectDf bytes next := by
  have moved := wintunMove_moves moves
  have sound := moved.sound filling.sound
  have downlink := moved.downlink.trans filling.downlink
  cases wintunMove_eq_some_iff.1 moves with
  | pump pumps =>
      exact ⟨sound, downlink, filling.reader, filling.handed, filling.sender,
        filling.sent⟩
  | _ =>
      simp [IsPump] at isPump

/-- A pump that cannot go on has filled the stream, or has nothing left. -/
theorem Filling.full_of_stuck {bytes : Bytes}
    (filling : Filling allocates mtu respectDf bytes side)
    (stuck : ∀ task, IsPump task →
      wintunMove allocates mtu respectDf side task = none)
    (enough : duplexCapacity ≤ bytes.length) :
    side.downlinkPipe.length = duplexCapacity := by
  apply Nat.le_antisymm filling.sound.fit.downlink
  have pumpStuck : ∀ task, IsPump (.pump task) →
      pumpStep mtu respectDf false side.toPumps task = none :=
    fun task isPump => Option.map_eq_none_iff.1 (stuck (.pump task) isPump)
  by_contra notFull
  have writing := writing_of_stuck (pumpStuck .write (Or.inr rfl))
    (Nat.lt_of_not_le notFull)
  have channel := channel_of_stuck (pumpStuck .receive (Or.inl rfl)) writing
  have downlink := filling.downlink
  simp only [WintunSide.downlinkBytes, Pumps.leavingBytes, SockReader.bytes,
    filling.sent, filling.handed, filling.reader, writing, channel,
    List.map_nil, List.flatten_nil, List.nil_append, List.append_nil,
    List.flatMap_nil] at downlink
  rw [downlink] at notFull
  exact notFull enough

private theorem initial_downlinkBytes (mtu : Nat) (respectDf : Bool)
    (packets incoming : List Bytes) :
    (WintunSide.initial packets incoming).downlinkBytes mtu respectDf =
      (incoming.flatMap (writesOf mtu respectDf)).flatten := by
  simp [WintunSide.downlinkBytes, Pumps.leavingBytes, WintunSide.initial,
    SockReader.bytes]

private theorem exists_full (packets : List Bytes) {incoming : List Bytes}
    (enough : duplexCapacity ≤
      (incoming.flatMap (writesOf mtu respectDf)).flatten.length) :
    ∃ schedule,
      Filling allocates mtu respectDf
          (incoming.flatMap (writesOf mtu respectDf)).flatten
          ((wintunTasks strategy allocates mtu respectDf).run
            (.initial packets incoming) schedule) ∧
        ((wintunTasks strategy allocates mtu respectDf).run
          (.initial packets incoming) schedule).downlinkPipe.length =
            duplexCapacity := by
  -- Only the pump has turns, until it cannot go on.
  let pumps := (wintunTasks strategy allocates mtu respectDf).only IsPump
  let start := WintunSide.initial packets incoming
  let round : List {task // IsPump task} :=
    [⟨.pump .receive, Or.inl rfl⟩, ⟨.pump .write, Or.inr rfl⟩]
  let rounds := List.replicate (start.work mtu respectDf) round
  have decreases : ∀ state task next, pumps.step state task = some next →
      next.work mtu respectDf < state.work mtu respectDf :=
    fun _ _ _ moves => (wintunMove_moves (wintunMove_of_step moves)).less
  have fair : ∀ other, other ∈ rounds → Scheduler.FairRound other := by
    intro other member
    rw [List.eq_of_mem_replicate member]
    rintro ⟨task, rfl | rfl⟩
    · exact List.mem_cons_self
    · exact List.mem_cons_of_mem _ List.mem_cons_self
  have stuck : pumps.Stuck (pumps.run start rounds.flatten) :=
    Scheduler.stuck_of_fairRounds decreases fair
      (Nat.le_of_eq (List.length_replicate).symm)
  have filling : Filling allocates mtu respectDf
      (incoming.flatMap (writesOf mtu respectDf)).flatten
      (pumps.run start rounds.flatten) := by
    apply Scheduler.run_invariant
    · intro state task next filling moves
      exact filling.pump task.2 (wintunMove_of_step moves)
    · exact ⟨WintunSide.initial_sound allocates packets incoming,
        initial_downlinkBytes mtu respectDf packets incoming, rfl, rfl, rfl,
        rfl⟩
  have full := filling.full_of_stuck
    (fun task isPump =>
      (step_eq_wintunMove task (Or.inr filling.sender)).symm.trans
        (stuck ⟨task, isPump⟩)) enough
  refine ⟨rounds.flatten.map Subtype.val, ?_⟩
  rw [← Scheduler.run_only]
  exact ⟨filling, full⟩

private theorem turn_of_wintunMove {task : WintunTask}
    (goes : strategy = .unwind ∨ side.sender = .running)
    (moves : wintunMove allocates mtu respectDf side task = some next) :
    (wintunTasks strategy allocates mtu respectDf).turn side task = next := by
  apply Scheduler.turn_of_some
  rw [step_eq_wintunMove task goes]
  exact moves

/-- A full stream, read, handed on and taken up by the sending thread. -/
theorem Filling.panics {bytes : Bytes}
    (filling : Filling allocates mtu respectDf bytes side)
    (full : side.downlinkPipe.length = duplexCapacity)
    (room : allocates 0 = true) :
    ((wintunTasks strategy allocates mtu respectDf).run side
      [.readSock, .hand, .send]).sender = .panicked := by
  have occupied : side.downlinkPipe ≠ [] := by
    apply List.ne_nil_of_length_pos
    rw [full]
    exact duplexCapacity_pos
  have all : side.downlinkPipe.take readBufferSize = side.downlinkPipe :=
    List.take_of_length_le (Nat.le_of_eq full)
  let read : WintunSide :=
    { side with
      reader := .handing side.downlinkPipe
      downlinkPipe := side.downlinkPipe.drop readBufferSize }
  let handed : WintunSide :=
    { read with reader := .reading, handed := [side.downlinkPipe] }
  have reads : wintunMove allocates mtu respectDf side .readSock =
      some read := by
    simp only [wintunMove, if_pos (And.intro filling.reader occupied), all,
      read]
  have hands : wintunMove allocates mtu respectDf read .hand =
      some handed := by
    simp [wintunMove, read, handed, filling.sender, filling.handed,
      sendQueueCapacity]
  have panics : wintunMove allocates mtu respectDf handed .send =
      some { handed with sender := .panicked } := by
    have long : allocates side.sent.length = true ∧
        u16Max < side.downlinkPipe.length := by
      rw [filling.sent, full]
      exact ⟨room, by decide⟩
    exact (@wintunMove_send allocates mtu respectDf handed _ _ filling.sender
      rfl).trans (if_pos long)
  rw [Scheduler.run_cons, turn_of_wintunMove (Or.inr filling.sender) reads,
    Scheduler.run_cons, @turn_of_wintunMove strategy allocates mtu respectDf
      read _ _ (Or.inr filling.sender) hands,
    Scheduler.run_cons, @turn_of_wintunMove strategy allocates mtu respectDf
      handed _ _ (Or.inr filling.sender) panics]
  rfl

private theorem length_le_of_panicked (packets incoming : List Bytes)
    {schedule : List WintunTask}
    (isPanicked : ((wintunTasks strategy allocates mtu respectDf).run
      (.initial packets incoming) schedule).sender = .panicked) :
    duplexCapacity ≤
      (incoming.flatMap (writesOf mtu respectDf)).flatten.length := by
  have keeps : WintunKeeps allocates mtu respectDf
      (.initial packets incoming)
      ((wintunTasks strategy allocates mtu respectDf).run
        (.initial packets incoming) schedule) :=
    wintunTasks_keep (WintunSide.initial_sound allocates packets incoming)
      schedule
  rcases keeps.sound.panicked isPanicked with ⟨buf, rest, isHanded, long, _⟩
  rw [← initial_downlinkBytes mtu respectDf packets, ← keeps.downlink,
    WintunSide.downlinkBytes, isHanded]
  simp only [List.flatten_cons, List.length_append]
  unfold u16Max at long
  unfold duplexCapacity
  omega

end Panic

/-- The sending thread panics only if the packets that come in, cut to the MTU,
amount to the capacity of the stream.  From there on, if the session has room
for the first packet, some schedules do make it panic, and even some fair ones,
however long. -/
theorem wintun_panics_iff (strategy : PanicStrategy)
    (allocates : Nat → Bool) (mtu : Nat) (respectDf : Bool)
    (packets incoming : List Bytes) :
    ((∃ schedule,
        ((wintunTasks strategy allocates mtu respectDf).run
          (.initial packets incoming) schedule).sender = .panicked) →
      duplexCapacity ≤
        (incoming.flatMap (writesOf mtu respectDf)).flatten.length) ∧
    (allocates 0 = true →
      ((∃ schedule,
          ((wintunTasks strategy allocates mtu respectDf).run
            (.initial packets incoming) schedule).sender = .panicked) ↔
        duplexCapacity ≤
          (incoming.flatMap (writesOf mtu respectDf)).flatten.length) ∧
      (duplexCapacity ≤
          (incoming.flatMap (writesOf mtu respectDf)).flatten.length →
        ∀ count, ∃ rounds : List (List WintunTask),
          (∀ round, round ∈ rounds → Scheduler.FairRound round) ∧
            rounds.length = count + 1 ∧
            ((wintunTasks strategy allocates mtu respectDf).run
              (.initial packets incoming) rounds.flatten).sender =
                .panicked)) := by
  have only : (∃ schedule,
      ((wintunTasks strategy allocates mtu respectDf).run
        (.initial packets incoming) schedule).sender = .panicked) →
      duplexCapacity ≤
        (incoming.flatMap (writesOf mtu respectDf)).flatten.length := by
    rintro ⟨schedule, isPanicked⟩
    exact length_le_of_panicked packets incoming isPanicked
  have reaches : allocates 0 = true → duplexCapacity ≤
      (incoming.flatMap (writesOf mtu respectDf)).flatten.length →
        ∃ schedule,
          ((wintunTasks strategy allocates mtu respectDf).run
            (.initial packets incoming) schedule).sender = .panicked := by
    intro room enough
    rcases exists_full packets enough with ⟨schedule, filling, full⟩
    refine ⟨schedule ++ [.readSock, .hand, .send], ?_⟩
    rw [Scheduler.run_append]
    exact filling.panics full room
  refine ⟨only, fun room => ⟨⟨only, reaches room⟩, ?_⟩⟩
  intro enough count
  rcases reaches room enough with ⟨schedule, isPanicked⟩
  refine ⟨(schedule ++ everyWintunTask) ::
    List.replicate count everyWintunTask, ?_, ?_, ?_⟩
  · intro round member task
    rcases List.mem_cons.1 member with rfl | later
    · exact List.mem_append_right _ (fairRound_everyWintunTask task)
    · rw [List.eq_of_mem_replicate later]
      exact fairRound_everyWintunTask task
  · rw [List.length_cons, List.length_replicate]
  · have keeps : WintunKeeps allocates mtu respectDf
        (.initial packets incoming)
        ((wintunTasks strategy allocates mtu respectDf).run
          (.initial packets incoming) schedule) :=
      wintunTasks_keep
        (WintunSide.initial_sound allocates packets incoming) schedule
    rw [List.flatten_cons, List.append_assoc, Scheduler.run_append]
    exact ((wintunTasks_keep keeps.sound _).stands isPanicked).1

/-- Forty-four packets of 1500 bytes are enough. -/
theorem wintun_panics_iff_burst :
    ∃ schedule,
      ((wintunTasks .abort (fun _ => true) 1500 false).run
        (.initial [] (List.replicate 44 (List.replicate 1500 0x60)))
        schedule).sender = .panicked := by
  have enough : duplexCapacity ≤
      ((List.replicate 44 (List.replicate 1500 (0x60 : UInt8))).flatMap
        (writesOf 1500 false)).flatten.length := by
    have whole := @writesOf_of_other 1500 false (List.replicate 1500 0x60)
      (by decide)
    rw [List.flatMap_replicate, whole, List.flatten_replicate_singleton,
      List.length_flatten, List.map_replicate, List.sum_replicate_nat,
      List.length_replicate]
    decide
  exact ((wintun_panics_iff .abort (fun _ => true) 1500 false [] _).2
    rfl).1.2 enough

end CocoNet
