import QueryFlux.Lib.Transition

/-!
# How configuration reaches the workers

A control plane, hubs that relay its configuration and workers that run it: `RemoteConfigSource` of
`config_source.rs` and `Relay` of `hub.rs`. A hub or worker asks its upstream, which is the control
plane or a hub, for a snapshot that differs from its own; what it is told is on its way for a while,
and a worker then takes some time to activate a new snapshot. A worker without a configuration whose
upstream fails copies that of another worker, unless it was confirmed too long ago. A hub keeps the
last snapshot on disk and serves it after a restart while its upstream fails.

Clocks agree. A snapshot's revision is a hash of its content, so snapshots are compared where the
source compares revisions. A request or answer that is lost, late or fails its checks is a `fail`.
-/

namespace QueryFlux.ConfigSync

open Lib

/-! ## Fetching -/

structure Snapshot where
  config : Nat
  endpoint : Option String
  deriving DecidableEq

inductive Upstream
  | controlPlane
  | hub (h : Nat)
  deriving DecidableEq

inductive Party
  | hub (h : Nat)
  | worker (w : Nat)
  deriving DecidableEq

structure PeerBootstrap where
  afterSecs : Nat
  maxAgeSecs : Nat
  deriving DecidableEq

structure Fleet where
  upstream : Party → Upstream
  peerBootstrap : Nat → Option PeerBootstrap
  snapshotCache : Nat → Bool

/-- At once, to check a copy that may be stale, or as a long poll. -/
inductive FetchMode
  | now
  | check (rev : Snapshot)
  | wait (rev : Snapshot)
  deriving DecidableEq

inductive Fetched
  | unchanged
  | new (snapshot : Snapshot)
  deriving DecidableEq

def fetchMode (active : Option Snapshot) (stale : Bool) : FetchMode :=
  match active with
  | none => .now
  | some rev => if stale then .check rev else .wait rev

def respond (read : Snapshot) : FetchMode → Fetched
  | .now => .new read
  | .check rev => if rev = read then .unchanged else .new read
  | .wait rev => if rev = read then .unchanged else .new read

inductive Phase
  | idle
  /-- The upstream may have read a snapshot, and not answered yet. -/
  | asking (mode : FetchMode) (read : Option Snapshot)
  | answered (fetched : Fetched) (answeredAt : Nat)
  | activating (snapshot : Snapshot) (answeredAt : Nat)
  | askingPeers
  | offered (snapshot : Snapshot) (confirmedAt : Nat)
  | activatingPeer (snapshot : Snapshot) (confirmedAt checkedAt : Nat)
  deriving DecidableEq

/-! ## Workers -/

structure Worker where
  started : Nat
  active : Option Snapshot
  stale : Bool
  confirmedAt : Option Nat
  /-- When the active snapshot was obtained: when the upstream told it, or a copy was activated. -/
  obtainedAt : Nat
  phase : Phase
  deriving DecidableEq

namespace Worker

def start (now : Nat) : Worker := ⟨now, none, false, none, now, .idle⟩

variable (w : Worker)

def confirmed (now : Nat) : Worker :=
  if w.active = none then w else { w with stale := false, confirmedAt := some now }

def peerConfig : Option (Snapshot × Nat) := do
  let snapshot ← w.active
  let confirmedAt ← w.confirmedAt
  pure (snapshot, confirmedAt)

/-- Ask the peers if bootstrapping from them is due. -/
def afterFailure (peer : Option PeerBootstrap) (now : Nat) : Worker :=
  match peer with
  | none => { w with phase := .idle }
  | some peer =>
    if w.active ≠ none ∨ now - w.started < peer.afterSecs then { w with phase := .idle }
    else { w with phase := .askingPeers }

def receive (now : Nat) : Option Worker :=
  match w.phase with
  | .answered .unchanged _ => some { w.confirmed now with phase := .idle }
  | .answered (.new snapshot) answeredAt => some { w with phase := .activating snapshot answeredAt }
  | _ => none

def activated (now : Nat) (ok : Bool) : Option Worker :=
  match w.phase with
  | .activating snapshot answeredAt =>
    if ok then
      let w := { w with active := some snapshot, obtainedAt := answeredAt }
      some { w.confirmed now with phase := .idle }
    else some { w with phase := .idle }
  | _ => none

def offer (config : Option (Snapshot × Nat)) : Option Worker :=
  match w.phase, config with
  | .askingPeers, some (snapshot, confirmedAt) =>
    some { w with phase := .offered snapshot confirmedAt }
  | _, _ => none

/-- A copy is taken only within the age the worker allows. -/
def take (peer : Option PeerBootstrap) (now : Nat) : Option Worker :=
  match w.phase, peer with
  | .offered snapshot confirmedAt, some peer =>
    if peer.maxAgeSecs < now - confirmedAt then some { w with phase := .askingPeers }
    else some { w with phase := .activatingPeer snapshot confirmedAt now }
  | _, _ => none

def activatedPeer (now : Nat) (ok : Bool) : Option Worker :=
  match w.phase with
  | .activatingPeer snapshot confirmedAt _ =>
    if ok then
      some { w with
        active := some snapshot
        stale := true
        confirmedAt := some confirmedAt
        obtainedAt := now
        phase := .idle }
    else some { w with phase := .askingPeers }
  | _ => none

def giveUp : Option Worker :=
  if w.phase = .askingPeers then some { w with phase := .idle } else none

end Worker

/-! ## Hubs -/

structure Hub where
  served : Option Snapshot
  stale : Bool
  confirmedAt : Option Nat
  cacheTried : Bool
  phase : Phase
  disk : Option (Snapshot × Nat)
  deriving DecidableEq

/-- A hub removes its own endpoint from what it serves. -/
def forWorkers (upstream : Snapshot) : Snapshot := { upstream with endpoint := none }

namespace Hub

def start (disk : Option (Snapshot × Nat)) : Hub := ⟨none, false, none, false, .idle, disk⟩

def set (hub : Hub) (upstream : Snapshot) (stale : Bool) (confirmedAt : Nat) : Hub :=
  { hub with served := some upstream, stale := stale, confirmedAt := some confirmedAt }

def succeeded (hub : Hub) (now : Nat) : Hub :=
  { hub with stale := false, confirmedAt := some now }

def publish (hub : Hub) (snapshot : Snapshot) (now : Nat) (written : Bool) : Hub :=
  let hub := if written then { hub with disk := some (snapshot, now) } else hub
  (hub.set snapshot false now).succeeded now

def loadCache (hub : Hub) : Hub :=
  match hub.disk with
  | none => hub
  | some (snapshot, confirmedAt) => hub.set snapshot true confirmedAt

def failed (hub : Hub) (cache : Bool) : Hub :=
  let hub := { hub with phase := .idle }
  if !hub.cacheTried && hub.served.isNone then
    let hub := { hub with cacheTried := true }
    if cache then hub.loadCache else hub
  else hub

def receive (hub : Hub) (now : Nat) (written : Bool) : Option Hub :=
  match hub.phase with
  | .answered .unchanged _ => some { hub.succeeded now with phase := .idle }
  | .answered (.new snapshot) _ => some { hub.publish snapshot now written with phase := .idle }
  | _ => none

end Hub

/-! ## The fleet -/

structure State where
  now : Nat
  current : Snapshot
  hubs : Nat → Hub
  workers : Nat → Worker
  /-- The snapshots the control plane has answered with, or confirmed, and when. -/
  answers : List (Snapshot × Nat)
  /-- The workers that activated a peer's snapshot, and when. -/
  bootstraps : List (Nat × Snapshot × Nat)

namespace State

def setWorker (s : State) (i : Nat) (w : Worker) : State :=
  { s with workers := fun j => if j = i then w else s.workers j }

def setHub (s : State) (h : Nat) (hub : Hub) : State :=
  { s with hubs := fun j => if j = h then hub else s.hubs j }

def phase (s : State) : Party → Phase
  | .hub h => (s.hubs h).phase
  | .worker w => (s.workers w).phase

def setPhase (s : State) (phase : Phase) : Party → State
  | .hub h => s.setHub h { s.hubs h with phase := phase }
  | .worker w => s.setWorker w { s.workers w with phase := phase }

def mode (s : State) : Party → FetchMode
  | .hub h => fetchMode (s.hubs h).served (s.hubs h).stale
  | .worker w => fetchMode (s.workers w).active (s.workers w).stale

def serves (s : State) : Upstream → Option Snapshot
  | .controlPlane => some s.current
  | .hub h => (s.hubs h).served.map forWorkers

end State

inductive Act
  | tick (secs : Nat)
  | edit (snapshot : Snapshot)
  | ask (p : Party)
  | read (p : Party)
  | answer (p : Party)
  | fail (p : Party)
  | receiveHub (h : Nat) (written : Bool)
  | receive (i : Nat)
  | activated (i : Nat) (ok : Bool)
  | offer (i peer : Nat)
  | take (i : Nat)
  | activatedPeer (i : Nat) (ok : Bool)
  | giveUp (i : Nat)
  | restart (p : Party)
  deriving DecidableEq

namespace Fleet

def ask (s : State) (p : Party) : Option State :=
  if s.phase p = .idle then some (s.setPhase (.asking (s.mode p) none) p) else none

variable (fleet : Fleet)

def answer (s : State) (p : Party) : Option State :=
  match s.phase p with
  | .asking mode (some read) =>
    let s' := s.setPhase (.answered (respond read mode) s.now) p
    match fleet.upstream p with
    | .controlPlane => some { s' with answers := (read, s.now) :: s.answers }
    | .hub _ => some s'
  | _ => none

def read (s : State) (p : Party) : Option State :=
  match s.phase p with
  | .asking mode _ =>
    (s.serves (fleet.upstream p)).map fun snapshot =>
      s.setPhase (.asking mode (some snapshot)) p
  | _ => none

def failed (s : State) : Party → State
  | .hub h => s.setHub h ((s.hubs h).failed (fleet.snapshotCache h))
  | .worker i => s.setWorker i ((s.workers i).afterFailure (fleet.peerBootstrap i) s.now)

def fail (s : State) (p : Party) : Option State :=
  match s.phase p with
  | .asking _ _ => some (fleet.failed s p)
  | .answered _ _ => some (fleet.failed s p)
  | _ => none

def step (s : State) : Act → Option State
  | .tick secs => some { s with now := s.now + secs }
  | .edit snapshot => some { s with current := snapshot }
  | .ask p => ask s p
  | .read p => fleet.read s p
  | .answer p => fleet.answer s p
  | .fail p => fleet.fail s p
  | .receiveHub h written =>
    ((s.hubs h).receive s.now (written && fleet.snapshotCache h)).map (s.setHub h)
  | .receive i => ((s.workers i).receive s.now).map (s.setWorker i)
  | .activated i ok => ((s.workers i).activated s.now ok).map (s.setWorker i)
  | .offer i peer => ((s.workers i).offer (s.workers peer).peerConfig).map (s.setWorker i)
  | .take i => ((s.workers i).take (fleet.peerBootstrap i) s.now).map (s.setWorker i)
  | .activatedPeer i ok =>
    ((s.workers i).activatedPeer s.now ok).map fun w =>
      match (s.workers i).phase, ok with
      | .activatingPeer snapshot _ _, true =>
        { s.setWorker i w with bootstraps := (i, snapshot, s.now) :: s.bootstraps }
      | _, _ => s.setWorker i w
  | .giveUp i => ((s.workers i).giveUp).map (s.setWorker i)
  | .restart (.hub h) => some (s.setHub h (.start (s.hubs h).disk))
  | .restart (.worker i) => some (s.setWorker i (.start s.now))

def system : System State Act where
  init s := (∀ h, s.hubs h = .start none) ∧ (∀ i, s.workers i = .start s.now) ∧
    s.answers = [] ∧ s.bootstraps = []
  step := fleet.step

end Fleet

end QueryFlux.ConfigSync
