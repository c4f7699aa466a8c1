import Mathlib.Logic.Function.Basic
import Mathlib.Data.Finset.Basic
import CocoNet.Library.Checked
import CocoNet.P2p.Multiaddr

/-!
# Dialing

Addresses of other peers come from announcements, from Identify and from mDNS.
The first two share a record of recent dials: an address of a peer is dialed
again only after a cooldown.  mDNS dials whatever it finds.

Whether a dial succeeds makes no difference to the loop.
-/

namespace CocoNet

/-- A reading of the monotonic clock, in milliseconds since its origin. -/
abbrev Instant := Nat

def dialCooldown : Nat := 30 * 1000

/-- `recent_dials`: when an address of a peer was last dialed. -/
abbrev RecentDials := PeerId → Multiaddr → Option Instant

def RecentDials.set (recent : RecentDials) (peer : PeerId) (addr : Multiaddr)
    (instant : Instant) : RecentDials :=
  Function.update recent peer
    (Function.update (recent peer) addr (some instant))

/-- `entry(peer).or_default().entry(addr).or_insert(seed)`. -/
def RecentDials.orInsert (recent : RecentDials) (peer : PeerId)
    (addr : Multiaddr) (seed : Instant) : RecentDials :=
  if (recent peer addr).isSome then recent else recent.set peer addr seed

/-- Dial unless the last dial was within the cooldown. -/
def dialUnlessRecent (now : Instant) (recent : RecentDials) (peer : PeerId)
    (addr : Multiaddr) : Checked (RecentDials × List Multiaddr) := do
  -- The seed is computed whether or not there is an entry.
  let seed ← Checked.sub now (dialCooldown * 2)
  if now - (recent peer addr).getD seed < dialCooldown then
    .ok (recent.orInsert peer addr seed, [])
  else .ok (recent.set peer addr now, [addr])

def dialEach (now : Instant) (peer : PeerId) :
    RecentDials → List Multiaddr → Checked (RecentDials × List Multiaddr)
  | recent, [] => .ok (recent, [])
  | recent, addr :: rest => do
      let first ← dialUnlessRecent now recent peer addr
      let others ← dialEach now peer first.1 rest
      .ok (others.1, first.2 ++ others.2)

/-! ## Announcements -/

/-- An announcement as it is received: the peer and the addresses, where their
texts parse. -/
structure AnnounceMsg where
  peer : Option PeerId
  addrs : List (Option Multiaddr)
  deriving DecidableEq, Repr

def AnnounceMsg.targets (msg : AnnounceMsg) : List Multiaddr :=
  (msg.addrs.filterMap id).filter isPublicUdpQuic

def onAnnounce (localPeer : PeerId) (now : Instant) (recent : RecentDials)
    (msg : AnnounceMsg) : Checked (RecentDials × List Multiaddr) :=
  match msg.peer with
  | none => .ok (recent, [])
  | some peer =>
      if peer = localPeer then .ok (recent, [])
      else dialEach now peer recent msg.targets

/-! ## Identify -/

def alreadyDirect (directPeers : Finset PeerId) (peer : PeerId) : Bool :=
  decide (peer ∈ directPeers)

def pruneDials (now : Instant) (recent : RecentDials) (peer : PeerId) :
    RecentDials :=
  Function.update recent peer fun addr =>
    (recent peer addr).filter fun dialed => now - dialed < dialCooldown

/-- What Identify dials for a listen address: a circuit as it is, any other
address in its canonical form if that is public. -/
def identifyTarget (addr : Multiaddr) : Option Multiaddr :=
  if hasCircuit addr then some addr
  else if isPublicUdpQuic ((rebuildUdpQuic addr).getD addr) then
    some ((rebuildUdpQuic addr).getD addr)
  else none

def onIdentify (now : Instant) (directPeers : Finset PeerId)
    (recent : RecentDials) (peer : PeerId) (listenAddrs : List Multiaddr) :
    Checked (RecentDials × List Multiaddr) :=
  if alreadyDirect directPeers peer then
    .ok (pruneDials now recent peer, [])
  else
    dialEach now peer (pruneDials now recent peer)
      (listenAddrs.filterMap identifyTarget)

/-! ## mDNS -/

def onMdnsDiscovered (found : List (PeerId × Multiaddr)) : List Multiaddr :=
  found.map fun entry => (rebuildUdpQuic entry.2).getD entry.2

/-! ## What the handlers consider -/

/-- What a listen address stands for: a circuit for itself, any other address
for its canonical form, or itself without one, if that is public. -/
def offeredForm (addr : Multiaddr) : Option Multiaddr :=
  if Protocol.p2pCircuit ∈ addr then some addr
  else ((rebuildUdpQuic addr).or (some addr)).filter isPublicUdpQuic

theorem identifyTarget_eq (addr : Multiaddr) :
    identifyTarget addr = offeredForm addr := by
  have circuit : hasCircuit addr = true ↔ Protocol.p2pCircuit ∈ addr := by
    simp [hasCircuit]
  unfold identifyTarget offeredForm
  by_cases isCircuit : Protocol.p2pCircuit ∈ addr
  · rw [if_pos (circuit.2 isCircuit), if_pos isCircuit]
  · rw [if_neg (mt circuit.1 isCircuit), if_neg isCircuit]
    cases rebuildUdpQuic addr <;> simp [Option.filter]

theorem AnnounceMsg.targets_eq (msg : AnnounceMsg) :
    msg.targets =
      msg.addrs.filterMap fun addr => addr.filter isPublicUdpQuic := by
  rw [targets, List.filter_filterMap]
  rfl

/-! ## When dialing faults and when it does not -/

theorem dialUnlessRecent_eq {now : Instant} (late : dialCooldown * 2 ≤ now)
    (recent : RecentDials) (peer : PeerId) (addr : Multiaddr) :
    dialUnlessRecent now recent peer addr =
      .ok (if ∃ dialed, recent peer addr = some dialed ∧
              now - dialed < dialCooldown then (recent, [])
        else (recent.set peer addr now, [addr])) := by
  rw [dialUnlessRecent, Checked.sub_eq_ok late, Checked.ok_bind]
  cases entry : recent peer addr with
  | none =>
      have seedIsOld : ¬ now - (now - dialCooldown * 2) < dialCooldown := by
        rw [Nat.sub_sub_self late]
        decide
      rw [Option.getD_none, if_neg seedIsOld, if_neg (by simp)]
  | some dialed =>
      by_cases recently : now - dialed < dialCooldown
      · rw [Option.getD_some, if_pos recently,
          if_pos ⟨dialed, rfl, recently⟩, RecentDials.orInsert, entry]
        rfl
      · rw [Option.getD_some, if_neg recently, if_neg]
        intro ⟨other, same, within⟩
        obtain rfl := Option.some.inj same
        exact recently within

/-- From one minute after the origin of the clock on, no dial faults. -/
theorem dialEach_succeeds {now : Instant} (late : dialCooldown * 2 ≤ now)
    (peer : PeerId) (recent : RecentDials) (addrs : List Multiaddr) :
    Checked.Succeeds (dialEach now peer recent addrs) := by
  induction addrs generalizing recent with
  | nil =>
      exact ⟨_, rfl⟩
  | cons addr rest inductionHypothesis =>
      rw [dialEach, dialUnlessRecent_eq late, Checked.ok_bind]
      rcases inductionHypothesis _ with ⟨others, runs⟩
      rw [runs, Checked.ok_bind]
      exact ⟨_, rfl⟩

end CocoNet
