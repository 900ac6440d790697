import Mathlib.Data.List.Basic

/-! The main instances of a multi-main setup and the key that names their leader
(`packages/cli/src/scaling/multi-main-setup.ee.ts`, with the key commands of
`packages/cli/src/scaling/pubsub/publisher.service.ts` and the role of
`packages/core/src/instance-settings/instance-settings.ts`). An asynchronous method is cut at
its awaits; a command is executed in one step and its reply is handled in another. Logging and
error reports are left out.
-/

namespace N8n.Scaling

inductive InstanceRole where
  | unset
  | leader
  | follower
  deriving DecidableEq, Repr

inductive MultiMainEvent where
  | leaderStepdown
  | leaderTakeover
  deriving DecidableEq, Repr

/-- A method at one of its awaits: a command that is still on its way to the key, or a reply
that is on its way back. `boots` tells the `tryBecomeLeader` of `init` from that of
`checkLeader`.
-/
inductive Await (Host : Type) where
  | getting
  | got (leaderId : Option Host)
  | prolonging
  | prolonged
  | setting (boots : Bool)
  | wasSet (boots keySetSuccessfully : Bool)
  | clearing
  | cleared
  deriving DecidableEq, Repr

variable {Host : Type}

/-- The publisher's command is executed on the key, which holds a host id or is vacant. The
time to live is not counted: the key may expire at any time.
-/
def Await.reach (hostId : Host) (leaderKey : Option Host)
    : Await Host → Option (Option Host × Await Host)
  | .getting => some (leaderKey, .got leaderKey)
  | .prolonging => some (leaderKey, .prolonged)
  | .setting boots =>
      match leaderKey with
      | none => some (some hostId, .wasSet boots true)
      | some leaderId => some (some leaderId, .wasSet boots false)
  | .clearing => some (none, .cleared)
  | _ => none

structure MultiMainSetup (Host : Type) where
  instanceRole : InstanceRole
  initialized : Bool
  /-- Whether the interval of the leader check runs. -/
  leaderCheckInterval : Bool
  /-- The methods under way on this instance. -/
  awaits : List (Await Host)
  /-- The events emitted so far. -/
  events : List MultiMainEvent
  deriving DecidableEq, Repr

namespace MultiMainSetup

def new : MultiMainSetup Host := ⟨.unset, false, false, [], []⟩

def isLeader (self : MultiMainSetup Host) : Bool := self.instanceRole = .leader

def markAsLeader (self : MultiMainSetup Host) : MultiMainSetup Host :=
  { self with instanceRole := .leader }

def markAsFollower (self : MultiMainSetup Host) : MultiMainSetup Host :=
  { self with instanceRole := .follower }

def emit (self : MultiMainSetup Host) (event : MultiMainEvent) : MultiMainSetup Host :=
  { self with events := self.events ++ [event] }

def await (self : MultiMainSetup Host) (next : Await Host) : MultiMainSetup Host :=
  { self with awaits := self.awaits ++ [next] }

section

variable (self : MultiMainSetup Host)

include self

@[simp] theorem isLeader_markAsLeader
    : self.markAsLeader.isLeader = true := rfl

@[simp] theorem isLeader_markAsFollower
    : self.markAsFollower.isLeader = false := rfl

@[simp] theorem isLeader_emit (event : MultiMainEvent)
    : (self.emit event).isLeader = self.isLeader := rfl

@[simp] theorem isLeader_await (next : Await Host)
    : (self.await next).isLeader = self.isLeader := rfl

@[simp] theorem events_markAsLeader
    : self.markAsLeader.events = self.events := rfl

@[simp] theorem events_markAsFollower
    : self.markAsFollower.events = self.events := rfl

@[simp] theorem events_emit (event : MultiMainEvent)
    : (self.emit event).events = self.events ++ [event] := rfl

@[simp] theorem events_await (next : Await Host)
    : (self.await next).events = self.events := rfl

end

/-- `init` up to the await of `tryBecomeLeader`. -/
def init (self : MultiMainSetup Host) : MultiMainSetup Host :=
  { self with initialized := true }.await (.setting true)

def shutdown (self : MultiMainSetup Host) : MultiMainSetup Host :=
  let self := { self with leaderCheckInterval := false }
  if self.isLeader then self.await .clearing else self

/-- `checkLeader` after the read of the key. -/
def checkLeader [DecidableEq Host] (hostId : Host) (self : MultiMainSetup Host) (leaderId : Option Host)
    : MultiMainSetup Host :=
  match leaderId with
  | some leaderId =>
      if leaderId = hostId then
        (if self.isLeader then self else self.markAsLeader.emit .leaderTakeover).await .prolonging
      else if self.isLeader then self.markAsFollower.emit .leaderStepdown
      else self
  -- The role is not looked at.
  | none => (self.markAsFollower.emit .leaderStepdown).await (.setting false)

/-- `tryBecomeLeader` after the reply, and the end of `init` where `init` has called it. -/
def tryBecomeLeader (self : MultiMainSetup Host) (boots keySetSuccessfully : Bool)
    : MultiMainSetup Host :=
  let self :=
    if keySetSuccessfully then self.markAsLeader.emit .leaderTakeover else self.markAsFollower
  if boots then { self with leaderCheckInterval := true } else self

/-- The method goes on from its await, once the reply is there. -/
def resume [DecidableEq Host] (hostId : Host) (self : MultiMainSetup Host)
    : Await Host → Option (MultiMainSetup Host)
  | .got leaderId => some (self.checkLeader hostId leaderId)
  | .prolonged => some self
  | .wasSet boots keySetSuccessfully => some (self.tryBecomeLeader boots keySetSuccessfully)
  | .cleared => some self
  | _ => none

end MultiMainSetup

inductive Action (Host : Type) where
  | init (host : Host)
  | check (host : Host)
  | shutdown (host : Host)
  /-- The command of a method that is under way is executed. -/
  | reach (host : Host) (place : Nat)
  /-- A reply is handled. -/
  | resume (host : Host) (place : Nat)
  /-- A command or its reply is lost, and the method rejects. -/
  | fail (host : Host) (place : Nat)
  | expire
  deriving DecidableEq, Repr

/-- Any number of instances, each with a host id of its own. -/
structure Cluster (Host : Type) where
  leaderKey : Option Host
  mains : Host → MultiMainSetup Host

namespace Cluster

def start : Cluster Host := ⟨none, fun _ => .new⟩

/-- The instance without the method under way at `place`. -/
def without (self : Cluster Host) (host : Host) (place : Nat) : MultiMainSetup Host :=
  { self.mains host with awaits := (self.mains host).awaits.eraseIdx place }

theorem mem_of_mem_without {self : Cluster Host} {host : Host} {place : Nat}
    {await : Await Host} (member : await ∈ (self.without host place).awaits)
    : await ∈ (self.mains host).awaits :=
  List.mem_of_mem_eraseIdx member

variable [DecidableEq Host]

def update (self : Cluster Host) (host : Host) (main : MultiMainSetup Host) : Cluster Host :=
  { self with mains := Function.update self.mains host main }

def step (self : Cluster Host) : Action Host → Option (Cluster Host)
  | .init host =>
      if (self.mains host).initialized then none
      else some (self.update host (self.mains host).init)
  | .check host =>
      if (self.mains host).leaderCheckInterval then
        some (self.update host ((self.mains host).await .getting))
      else none
  | .shutdown host => some (self.update host (self.mains host).shutdown)
  | .reach host place => do
      let command ← (self.mains host).awaits[place]?
      let (leaderKey, reply) ← command.reach host self.leaderKey
      some { self.update host ((self.without host place).await reply) with leaderKey }
  | .resume host place => do
      let reply ← (self.mains host).awaits[place]?
      let main ← (self.without host place).resume host reply
      some (self.update host main)
  | .fail host place =>
      if place < (self.mains host).awaits.length then
        some (self.update host (self.without host place))
      else none
  | .expire => some { self with leaderKey := none }

end Cluster

end N8n.Scaling
