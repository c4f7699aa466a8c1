import Mathlib.Data.Finset.Filter
import CocoNet.P2p.Dialing

/-!
# Announcing

A node collects its own public addresses from its listeners and from confirmed
external addresses, and publishes them, at most once per cooldown, when one of
several events occurs.
-/

namespace CocoNet

def announceCooldown : Nat := 30 * 1000

/-- An announcement as it is sent: `AnnounceMsg` before it is serialised. -/
structure Announcement where
  peer : PeerId
  addrs : Finset Multiaddr
  ts : Nat
  deriving DecidableEq

/-- `my_addrs`, `last_announce` and `announced_once`. -/
structure AnnounceState where
  myAddrs : Finset Multiaddr
  lastAnnounce : Option Instant
  announcedOnce : Bool

/-- What a round of the loop reads from outside: the monotonic clock, the
system time in seconds, and whether gossipsub accepts an announcement. -/
structure Surroundings where
  now : Instant
  unixSeconds : Nat
  accepted : Bool
  deriving DecidableEq, Repr

def announcedRecently (now : Instant) (state : AnnounceState) : Bool :=
  match state.lastAnnounce with
  | some announced => now - announced < announceCooldown
  | none => false

def announcedAddrs (state : AnnounceState) : Finset Multiaddr :=
  state.myAddrs.filter fun addr => isPublicUdpQuic addr

def publishAnnounce (localPeer : PeerId) (surroundings : Surroundings)
    (state : AnnounceState) : AnnounceState × List Announcement :=
  if announcedRecently surroundings.now state then (state, [])
  else if announcedAddrs state = ∅ then (state, [])
  else
    (if surroundings.accepted then
        { state with lastAnnounce := some surroundings.now }
      else state,
      [⟨localPeer, announcedAddrs state, surroundings.unixSeconds⟩])

def recordAddr (state : AnnounceState) (address : Multiaddr) :
    AnnounceState :=
  match rebuildUdpQuic address with
  | some addr =>
      if isPublicUdpQuic addr then
        { state with myAddrs := insert addr state.myAddrs }
      else state
  | none => state

/-- Record the address of a listener, or a confirmed external one, and
announce. -/
def onOwnAddr (localPeer : PeerId) (surroundings : Surroundings)
    (state : AnnounceState) (address : Multiaddr) :
    AnnounceState × List Announcement :=
  publishAnnounce localPeer surroundings (recordAddr state address)

def announceFirst (localPeer : PeerId) (surroundings : Surroundings)
    (state : AnnounceState) : AnnounceState × List Announcement :=
  if state.announcedOnce then (state, [])
  else
    publishAnnounce localPeer surroundings
      { state with announcedOnce := true }

end CocoNet
