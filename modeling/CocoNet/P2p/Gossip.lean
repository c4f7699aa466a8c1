import CocoNet.Library.DuplicateCache
import CocoNet.P2p.OwnAddrs

/-!
# Publishing

Batches, large packets and announcements are published by gossipsub.  The node
publishes anonymously, so its messages have neither a source nor a sequence
number, and it sets no `message_id_fn`, so these two are all that the id of a
message depends on: every message of the node has the same id.  Gossipsub keeps
the ids of the last minute and drops what it takes for a duplicate.
-/

namespace CocoNet

open DuplicateCache StepMachine

/-! ## Messages and their ids -/

structure RawMessage where
  source : Option PeerId
  sequenceNumber : Option UInt64
  topic : Topic
  data : Bytes
  deriving DecidableEq, Repr

/-- What the ids of the gossipsub crate are made of: the text of a source
followed by a sequence number, and the source that stands for none. -/
structure MessageIds (MessageId : Type) where
  idText : PeerId → UInt64 → MessageId
  placeholder : PeerId

/-- The id of a message where the configuration sets no `message_id_fn`. -/
def MessageIds.messageId {MessageId : Type} (ids : MessageIds MessageId)
    (message : RawMessage) : MessageId :=
  ids.idText (message.source.getD ids.placeholder)
    (message.sequenceNumber.getD 0)

/-- A message as `MessageAuthenticity::Anonymous` sends it. -/
def anonymous (topic : Topic) (data : Bytes) : RawMessage :=
  ⟨none, none, topic, data⟩

/-- How long gossipsub keeps the id of a message. -/
def duplicateCacheTime : Nat := 60 * 1000

/-! ## The node with its gossipsub -/

/-- A round of the loop, with what gossipsub does in it: the messages that
arrived since the round before, whether a message that is no duplicate is
sent, and the text of an announcement. -/
structure Round where
  now : Instant
  unixSeconds : Nat
  event : LoopEvent
  heard : List (Stamped RawMessage)
  takes : RawMessage → Bool
  serialise : Announcement → Bytes

def Effect.published (serialise : Announcement → Bytes) :
    Effect → Option RawMessage
  | .transmit (.publish topic data) => some (anonymous topic data)
  | .announce announcement =>
      some (anonymous .announce (serialise announcement))
  | _ => none

def Round.gossipEvents (round : Round) (effects : List Effect) :
    List (DuplicateCache.Event RawMessage) :=
  round.heard.map (fun entry => .receive entry.time entry.key) ++
    (effects.filterMap (Effect.published round.serialise)).map
      fun message => .publish round.now message (round.takes message)

def announcementTaken (publications : List (Publication RawMessage)) : Bool :=
  publications.any fun publication =>
    publication.message.topic == .announce && publication.verdict == .taken

def Round.input (round : Round) (accepted : Bool) :
    Surroundings × LoopEvent :=
  (⟨round.now, round.unixSeconds, accepted⟩, round.event)

structure NodeState (MessageId : Type) where
  loop : LoopState
  cache : List (Stamped MessageId)

section Node

variable {MessageId : Type} [DecidableEq MessageId]

def gossip (ids : MessageIds MessageId) :=
  DuplicateCache.cache duplicateCacheTime ids.messageId

/-- What the handler of a round passes to `publish`, whether or not gossipsub
accepts it. -/
def passed (config : NodeConfig) (loop : LoopState) (round : Round) :
    List (DuplicateCache.Event RawMessage) :=
  round.gossipEvents ((eventLoop config).step loop (round.input true)).2

def node (ids : MessageIds MessageId) (config : NodeConfig) :
    StepMachine (NodeState MessageId) Round (Publication RawMessage) where
  start := ⟨LoopState.initial config, []⟩
  step state round :=
    let gossiped := (gossip ids).runFrom state.cache
      (passed config state.loop round)
    let looped := (eventLoop config).step state.loop
      (round.input (announcementTaken gossiped.2))
    (⟨looped.1, gossiped.1⟩, gossiped.2)

/-! ## The node's runs are runs of the loop and of the cache -/

variable (ids : MessageIds MessageId) (config : NodeConfig)

/-- The inputs of the loop in a run of the node. -/
def loopInputs (rounds : List Round) : List (Surroundings × LoopEvent) :=
  ((node ids config).observe fun _ round publications =>
    [round.input (announcementTaken publications)]).outputsOf rounds

/-- What gossipsub is given in a run of the node. -/
def gossipInputs (rounds : List Round) :
    List (DuplicateCache.Event RawMessage) :=
  ((node ids config).observe fun state round _ =>
    passed config state.loop round).outputsOf rounds

theorem node_loop (rounds : List Round) :
    ((node ids config).stateAfter rounds).loop =
      (eventLoop config).stateAfter (loopInputs ids config rounds) := by
  induction rounds using List.reverseRecOn with
  | nil =>
      rfl
  | append_singleton before round inductionHypothesis =>
      rw [loopInputs, outputsOf_observe_snoc, stateAfter_snoc, stateAfter_snoc]
      rw [loopInputs] at inductionHypothesis
      rw [← inductionHypothesis]
      rfl

theorem node_gossip (rounds : List Round) :
    ((node ids config).stateAfter rounds).cache =
        (gossip ids).stateAfter (gossipInputs ids config rounds) ∧
      (node ids config).outputsOf rounds =
        (gossip ids).outputsOf (gossipInputs ids config rounds) := by
  induction rounds using List.reverseRecOn with
  | nil =>
      exact ⟨rfl, rfl⟩
  | append_singleton before round inductionHypothesis =>
      rcases inductionHypothesis with ⟨sameCache, sameOutputs⟩
      rw [gossipInputs, outputsOf_observe_snoc, stateAfter_snoc,
        outputsOf_snoc, stateAfter_append, outputsOf_append, sameOutputs]
      rw [gossipInputs] at sameCache ⊢
      rw [← sameCache]
      exact ⟨rfl, rfl⟩

private theorem publishAnnounce_input (localPeer : PeerId) (round : Round)
    (accepted : Bool) (state : AnnounceState) :
    (publishAnnounce localPeer (round.input accepted).1 state).2 =
      (publishAnnounce localPeer (round.input true).1 state).2 := by
  by_cases recently : announcedRecently round.now state = true
  · simp [publishAnnounce, Round.input, recently]
  · by_cases nothing : announcedAddrs state = ∅
    · simp [publishAnnounce, Round.input, recently, nothing]
    · simp [publishAnnounce, Round.input, recently, nothing]

/-- Nothing that a handler does in its round depends on whether gossipsub
accepts the announcement. -/
theorem effects_input (loop : LoopState) (round : Round) (accepted : Bool) :
    ((eventLoop config).step loop (round.input accepted)).2 =
      ((eventLoop config).step loop (round.input true)).2 := by
  by_cases running : loop.status = .running
  swap
  · rw [eventLoop_step_stopped config running,
      eventLoop_step_stopped config running]
  have announced :=
    publishAnnounce_input config.localPeer round accepted
  rw [eventLoop_step_running config running,
    eventLoop_step_running config running]
  simp only [Round.input] at announced ⊢
  cases round.event with
  | uplink event =>
      rfl
  | swarm event =>
      cases event with
      | gossip source message | request peer request
      | mdnsDiscovered found | externalAddrExpired address
      | listenerClosed addresses =>
          rfl
      | autonat | newListenAddr address | externalAddrConfirmed address =>
          exact congrArg (List.map Effect.announce) (announced _)
      | identifyReceived peer listenAddrs =>
          simp only [onLoopEvent, onSwarmEvent, onIdentifyReceived,
            announceEffects]
          cases onIdentify round.now loop.connections.directPeers
              loop.recentDials peer listenAddrs with
          | error fault =>
              rfl
          | ok dialed =>
              simp only [Checked.ok_bind]
              rw [announced]
      | connection event =>
          cases event with
          | closed peer id =>
              rfl
          | established peer id endpoint =>
              simp only [onLoopEvent, onSwarmEvent, onConnection,
                announceEffects, announceFirst]
              split
              · rfl
              · rw [announced]

private theorem anonymous_of_published {serialise : Announcement → Bytes}
    {effect : Effect} {message : RawMessage}
    (isPublished : effect.published serialise = some message) :
    message = anonymous message.topic message.data := by
  cases effect with
  | transmit outgoing =>
      cases outgoing with
      | publish topic data =>
          rw [← Option.some.inj isPublished]
          rfl
      | sendRequests peers data =>
          cases isPublished
  | announce announcement =>
      rw [← Option.some.inj isPublished]
      rfl
  | _ =>
      cases isPublished

/-- Every message that the node publishes is anonymous. -/
theorem anonymous_of_mem {rounds : List Round}
    {publication : Publication RawMessage}
    (member : publication ∈ (node ids config).outputsOf rounds) :
    publication.message =
      anonymous publication.message.topic publication.message.data := by
  rw [(node_gossip ids config rounds).2] at member
  rcases exists_publish_of_mem member with ⟨takes, given⟩
  obtain ⟨earlier, round, later, _, inRound⟩ :=
    (mem_outputsOf_observe_iff _ _ _ _).1 given
  rcases List.mem_append.1 inRound with isHeard | isPassed
  · simp at isHeard
  · obtain ⟨message, isMessage, same⟩ := List.mem_map.1 isPassed
    obtain ⟨effect, _, isPublished⟩ := List.mem_filterMap.1 isMessage
    have anonymously := anonymous_of_published isPublished
    injection same with _ sameMessage _
    rwa [sameMessage] at anonymously

/-- All messages of the node have one id. -/
theorem messageId_of_mem {rounds : List Round}
    {publication : Publication RawMessage}
    (member : publication ∈ (node ids config).outputsOf rounds) :
    ids.messageId publication.message = ids.idText ids.placeholder 0 := by
  rw [anonymous_of_mem ids config member]
  rfl

end Node

/-! ## Distinct messages taken for duplicates -/

def Differ (first second : RawMessage) : Prop :=
  first.topic ≠ second.topic ∨ first.data ≠ second.data

/-- No message is dropped as a duplicate of a different one that was published
less than a minute before. -/
def DistinctKept {MessageId : Type} (ids : MessageIds MessageId)
    (publications : List (Publication RawMessage)) : Prop :=
  ∀ earlier second later, publications = earlier ++ second :: later →
    ∀ first, first ∈ earlier → Differ first.message second.message →
      second.time < first.time + duplicateCacheTime →
      ¬ DuplicateOf ids.messageId first second

/-- Nothing is published less than a minute after a different message that
gossipsub took. -/
def SpacedApart (publications : List (Publication RawMessage)) : Prop :=
  ∀ earlier second later, publications = earlier ++ second :: later →
    ∀ first, first ∈ earlier → first.verdict = .taken →
      Differ first.message second.message →
      first.time + duplicateCacheTime ≤ second.time

/-- In every run, distinct messages are never taken for duplicates if and only
if after each message that gossipsub took nothing different is published for a
minute. -/
theorem distinct_kept_iff {MessageId : Type} [DecidableEq MessageId]
    (ids : MessageIds MessageId) (config : NodeConfig) (rounds : List Round) :
    DistinctKept ids ((node ids config).outputsOf rounds) ↔
      SpacedApart ((node ids config).outputsOf rounds) := by
  constructor
  · intro kept earlier second later shape first member taken differ
    apply Nat.le_of_not_lt
    intro within
    have sameId : ids.messageId first.message =
        ids.messageId second.message := by
      rw [messageId_of_mem ids config (by rw [shape]; simp [member]),
        messageId_of_mem ids config (by rw [shape]; simp)]
    have dropped : second.verdict = .duplicate := by
      rw [(node_gossip ids config rounds).2] at shape
      exact duplicate_of_taken shape member taken sameId within
    exact kept earlier second later shape first member differ within
      ⟨taken, sameId, dropped⟩
  · intro apart earlier second later shape first member differ within
      isDuplicate
    have late :=
      apart earlier second later shape first member isDuplicate.1 differ
    exact Nat.not_lt_of_le late within

/-- Two packets, each flushed by the next tick, five milliseconds apart. -/
def twoBatches : List Round :=
  [(60000, .recv (some [0x60])), (60001, .tick),
    (60005, .recv (some [0x61])), (60006, .tick)].map fun moment =>
      ⟨moment.1, 0, .uplink moment.2, [], fun _ => true, fun _ => []⟩

/-- The second batch is dropped as a duplicate of the first. -/
theorem second_batch_dropped :
    (node ⟨Prod.mk, ⟨[0, 1, 0]⟩⟩ ⟨⟨[1]⟩, ⟨49152, 128⟩⟩).outputsOf twoBatches =
        [⟨60001, anonymous .packets [0x43, 0x4F, 0x01, 0, 1, 0, 1, 0x60],
            .taken⟩,
          ⟨60006, anonymous .packets [0x43, 0x4F, 0x01, 0, 1, 0, 1, 0x61],
            .duplicate⟩] ∧
      ¬ DistinctKept ⟨Prod.mk, ⟨[0, 1, 0]⟩⟩
        ((node ⟨Prod.mk, ⟨[0, 1, 0]⟩⟩ ⟨⟨[1]⟩, ⟨49152, 128⟩⟩).outputsOf
          twoBatches) := by
  have publications :
      (node ⟨Prod.mk, ⟨[0, 1, 0]⟩⟩ ⟨⟨[1]⟩, ⟨49152, 128⟩⟩).outputsOf twoBatches =
        [⟨60001, anonymous .packets [0x43, 0x4F, 0x01, 0, 1, 0, 1, 0x60],
            .taken⟩,
          ⟨60006, anonymous .packets [0x43, 0x4F, 0x01, 0, 1, 0, 1, 0x61],
            .duplicate⟩] := by
    decide +kernel
  refine ⟨publications, ?_⟩
  rw [publications]
  intro kept
  exact kept [_] _ [] rfl _ (List.mem_singleton.2 rfl) (Or.inr (by decide))
    (by decide) ⟨rfl, rfl, rfl⟩

end CocoNet
