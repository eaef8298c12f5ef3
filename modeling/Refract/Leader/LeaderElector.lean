import Mathlib.Data.Fin.Basic
import Refract.Lib.Runs

/-!
# Leader election

`LeaderElector` holds a lease on one Redis key. A tick acquires the lease (`SET NX PX`, then the
fencing token by `INCR`) or renews it, the shutdown releases it, and an instance trusts its
leadership until a deadline of its own. Each Redis command is issued, takes effect at some later
moment and is answered later still; ticks may fail at any point after the issue, whether or not
their command has taken effect. Between two such moments other instances take their own steps.

The instances are those with the election enabled (an instance without it has no steps and always
reports leadership). Their clocks and the clock of Redis are one, in milliseconds; `leaseTtlMs` is
the lease time that each instance is configured with.
-/

namespace Refract.Leader

open Lib

variable {n : Nat}

/-! ## Redis -/

/-- The key `refract:oracle:leader`: the instance in it and the time at which it may expire. -/
structure Lease (n : Nat) where
  owner : Fin n
  expiresAt : Nat

/-- `SET key id PX ttl NX`: the key afterwards, and whether the answer is `OK`. -/
def setNx (lease : Option (Lease n)) (id : Fin n) (ttl now : Nat) : Option (Lease n) × Bool :=
  match lease with
  | none => (some ⟨id, now + ttl⟩, true)
  | some held => (some held, false)

/-- `RENEW_SCRIPT`: extends the lease if the instance owns it. -/
def renewScript (lease : Option (Lease n)) (id : Fin n) (ttl now : Nat) :
    Option (Lease n) × Bool :=
  match lease with
  | none => (none, false)
  | some held => if held.owner = id then (some ⟨id, now + ttl⟩, true) else (some held, false)

/-- `RELEASE_SCRIPT`: deletes the lease if the instance owns it. -/
def releaseScript (lease : Option (Lease n)) (id : Fin n) : Option (Lease n) :=
  match lease with
  | none => none
  | some held => if held.owner = id then none else some held

/-! ## Instances -/

/-- Where a tick is: the command it waits for, the time at which `acquire` or `renew` started, and
the result of the command once it has taken effect. -/
inductive TickPhase where
  | idle
  | setting (startedAt : Nat) (result : Option Bool)
  | counting (startedAt : Nat) (result : Option Nat)
  | renewing (startedAt : Nat) (result : Option Bool)
  deriving DecidableEq, Repr

/-- Where the shutdown is: not begun, waiting for the release with or without effect so far, or
through with it. -/
inductive ShutdownPhase where
  | running
  | releasing
  | released
  | finished
  deriving DecidableEq, Repr

structure Elector where
  fencingToken : Option Nat
  leaseDeadline : Nat
  tick : TickPhase
  shutdown : ShutdownPhase

namespace Elector

def initial : Elector := ⟨none, 0, .idle, .running⟩

variable (e : Elector)

def isLeader (now : Nat) : Bool := e.fencingToken.isSome && decide (now < e.leaseDeadline)

def assertLeadership (now : Nat) : Except String Nat :=
  match e.fencingToken with
  | some token =>
    if e.isLeader now then .ok token
    else .error "Oracle leadership not held; refusing side-effecting step"
  | none => .error "Oracle leadership not held; refusing side-effecting step"

def stepDown : Elector := { e with fencingToken := none, leaseDeadline := 0 }

/-- A tick begins, unless one is under way or the timer is cleared. -/
def beginTick (now : Nat) : Option Elector :=
  if e.tick = .idle ∧ e.shutdown = .running then
    match e.fencingToken with
    | none => some { e with tick := .setting now none }
    | some _ => some { e with tick := .renewing now none }
  else none

/-- The command of the tick has been answered. -/
def answerTick (ttl : Nat) : Option Elector :=
  match e.tick with
  | .setting startedAt (some true) => some { e with tick := .counting startedAt none }
  | .setting _ (some false) => some { e with tick := .idle }
  | .counting startedAt (some token) => some { e with
      fencingToken := some token, leaseDeadline := startedAt + ttl, tick := .idle }
  | .renewing startedAt (some true) => some { e with
      leaseDeadline := startedAt + ttl, tick := .idle }
  | .renewing _ (some false) => some { e.stepDown with tick := .idle }
  | _ => none

/-- The command of the tick has failed: `handleRedisError`. -/
def failTick : Option Elector :=
  if e.tick = .idle then none
  else if e.fencingToken.isSome then some { e.stepDown with tick := .idle }
  else some { e with tick := .idle }

/-- `onApplicationShutdown` clears the timer; an instance without a token has nothing to release. -/
def beginShutdown : Option Elector :=
  if e.shutdown = .running then
    if e.fencingToken.isSome then some { e with shutdown := .releasing }
    else some { e with shutdown := .finished }
  else none

/-- The release has been answered or has failed; both step down. -/
def endShutdown : Option Elector :=
  if e.shutdown = .releasing ∨ e.shutdown = .released then
    some { e.stepDown with shutdown := .finished }
  else none

end Elector

/-! ## The system -/

/-- The instances, the two keys of Redis, and the tokens that `assertLeadership` has returned, in
the order of the calls. -/
structure LeaderState (n : Nat) where
  now : Nat
  lease : Option (Lease n)
  epoch : Nat
  electors : Fin n → Elector
  asserted : List Nat

def LeaderState.initial (n : Nat) : LeaderState n := ⟨0, none, 0, fun _ => .initial, []⟩

inductive LeaderLabel (n : Nat) where
  | advance (ms : Nat)
  | expire
  | tick (i : Fin n)
  | tickEffect (i : Fin n)
  | tickAnswer (i : Fin n)
  | tickFailure (i : Fin n)
  | shutdown (i : Fin n)
  | releaseEffect (i : Fin n)
  | releaseAnswer (i : Fin n)
  | assertLeadership (i : Fin n)

namespace LeaderState

variable (s : LeaderState n) (i : Fin n)

def setElector (e : Elector) : LeaderState n :=
  { s with electors := Function.update s.electors i e }

/-- The command that the tick of the instance waits for takes effect. -/
def tickEffect (ttl : Nat) : Option (LeaderState n) :=
  let e := s.electors i
  match e.tick with
  | .setting startedAt none =>
    let (lease, ok) := setNx s.lease i ttl s.now
    some ({ s with lease }.setElector i { e with tick := .setting startedAt (some ok) })
  | .counting startedAt none =>
    some ({ s with epoch := s.epoch + 1 }.setElector i
      { e with tick := .counting startedAt (some (s.epoch + 1)) })
  | .renewing startedAt none =>
    let (lease, ok) := renewScript s.lease i ttl s.now
    some ({ s with lease }.setElector i { e with tick := .renewing startedAt (some ok) })
  | _ => none

/-- The release of the instance takes effect. -/
def releaseEffect : Option (LeaderState n) :=
  let e := s.electors i
  if e.shutdown = .releasing then
    some ({ s with lease := releaseScript s.lease i }.setElector i { e with shutdown := .released })
  else none

end LeaderState

/-- One step; `none` where the label does not fit the state. -/
def leaderStep (leaseTtlMs : Fin n → Nat) (s : LeaderState n) :
    LeaderLabel n → Option (LeaderState n)
  | .advance ms => some { s with now := s.now + ms }
  | .expire =>
    match s.lease with
    | some held => if held.expiresAt ≤ s.now then some { s with lease := none } else none
    | none => none
  | .tick i => ((s.electors i).beginTick s.now).map (s.setElector i)
  | .tickEffect i => s.tickEffect i (leaseTtlMs i)
  | .tickAnswer i => ((s.electors i).answerTick (leaseTtlMs i)).map (s.setElector i)
  | .tickFailure i => (s.electors i).failTick.map (s.setElector i)
  | .shutdown i => (s.electors i).beginShutdown.map (s.setElector i)
  | .releaseEffect i => s.releaseEffect i
  | .releaseAnswer i => (s.electors i).endShutdown.map (s.setElector i)
  | .assertLeadership i =>
    match (s.electors i).assertLeadership s.now with
    | .ok token => some { s with asserted := s.asserted ++ [token] }
    | .error _ => some s

abbrev LeaderSteps (leaseTtlMs : Fin n → Nat) (s : LeaderState n) (l : LeaderLabel n)
    (s' : LeaderState n) : Prop :=
  leaderStep leaseTtlMs s l = some s'

end Refract.Leader
