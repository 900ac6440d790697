import Mathlib.Data.Fintype.Basic
import Mathlib.Data.List.Chain
import N8n.Library.Runs
import N8n.Scaling.MultiMainSetup

/-! The leader key and the events of leadership over whole runs of any number of instances.
A check reads the key and acts on the answer later; in between, the key may expire and be
taken over.
-/

namespace N8n.Scaling

open N8n.Runs

variable {Host : Type}

/-- The events of a change of role. -/
def roleEvents (wasLeader isLeader : Bool) : List MultiMainEvent :=
  if wasLeader = isLeader then []
  else if isLeader then [.leaderTakeover]
  else [.leaderStepdown]

/-- A takeover is emitted when the instance becomes leader, a stepdown when it stops being
leader, and nothing else is emitted.
-/
def TellsRole (before after : MultiMainSetup Host) : Prop :=
  after.events = before.events ++ roleEvents before.isLeader after.isLeader

/-- Takeovers and stepdowns take turns, beginning with a takeover. -/
def Alternate (events : List MultiMainEvent) : Prop :=
  events.IsChain (· ≠ ·) ∧ ∀ event ∈ events.head?, event = .leaderTakeover

instance (events : List MultiMainEvent) : Decidable (Alternate events) := by
  unfold Alternate
  infer_instance

/-- The events so far alternate, and the last one tells the role. -/
structure Told (main : MultiMainSetup Host) : Prop where
  alternate : Alternate main.events
  latest : main.isLeader = true ↔ main.events.getLast? = some .leaderTakeover

theorem Alternate.append {events : List MultiMainEvent} {event : MultiMainEvent}
    (alternate : Alternate events)
    (turn : event = .leaderTakeover ↔ events.getLast? ≠ some .leaderTakeover)
    : Alternate (events ++ [event]) := by
  constructor
  · refine List.isChain_append.mpr ⟨alternate.1, List.isChain_singleton _, ?_⟩
    intro last isLast next isNext same
    obtain rfl : event = next := by simpa using isNext
    rw [Option.mem_def, same] at isLast
    cases event with
    | leaderStepdown => exact absurd (turn.mpr (by simp [isLast])) (by decide)
    | leaderTakeover => exact turn.mp rfl isLast
  · intro first isFirst
    cases events with
    | nil =>
        obtain rfl : event = first := by simpa using isFirst
        exact turn.mpr (by simp)
    | cons old _ => exact alternate.2 first (by simpa using isFirst)

/-- Events that tell the role go on alternating. -/
theorem Told.step {before after : MultiMainSetup Host} (told : Told before)
    (tells : TellsRole before after)
    : Told after := by
  have latest := told.latest
  unfold TellsRole roleEvents at tells
  cases was : before.isLeader <;> cases is : after.isLeader <;>
    simp only [was, is, if_true, if_false, reduceCtorEq, List.append_nil, Bool.false_eq_true,
      false_iff, true_iff] at tells latest
  · exact ⟨tells ▸ told.alternate, by simp [is, tells, latest]⟩
  · exact ⟨tells ▸ told.alternate.append (by simp [latest]), by simp [is, tells]⟩
  · exact ⟨tells ▸ told.alternate.append (by simp [latest]), by simp [is, tells]⟩
  · exact ⟨tells ▸ told.alternate, by simp [is, tells, latest]⟩

variable {before after : MultiMainSetup Host}

namespace MultiMainSetup

theorem tellsRole_of_eq (events : after.events = before.events)
    (role : after.isLeader = before.isLeader)
    : TellsRole before after := by
  simp [TellsRole, roleEvents, events, role]

theorem tellsRole_takeover (was : before.isLeader = false)
    (events : after.events = before.events ++ [.leaderTakeover]) (is : after.isLeader = true)
    : TellsRole before after := by
  simp [TellsRole, roleEvents, was, is, events]

theorem tellsRole_stepdown (was : before.isLeader = true)
    (events : after.events = before.events ++ [.leaderStepdown]) (is : after.isLeader = false)
    : TellsRole before after := by
  simp [TellsRole, roleEvents, was, is, events]

theorem tellsRole_shutdown (self : MultiMainSetup Host) : TellsRole self self.shutdown := by
  unfold shutdown
  dsimp only
  split
  · exact tellsRole_of_eq rfl rfl
  · exact tellsRole_of_eq rfl rfl

theorem tellsRole_tryBecomeLeader {self : MultiMainSetup Host} (boots keySetSuccessfully : Bool)
    (follows : self.isLeader = false)
    : TellsRole self (self.tryBecomeLeader boots keySetSuccessfully) := by
  cases keySetSuccessfully with
  | true => cases boots <;> exact tellsRole_takeover follows rfl rfl
  | false => cases boots <;> exact tellsRole_of_eq rfl follows.symm

/-- The stepdown of a vacant key tells the role of a leader only. -/
theorem tellsRole_checkLeader [DecidableEq Host] {self : MultiMainSetup Host} (hostId : Host)
    {leaderId : Option Host} (leads : leaderId = none → self.isLeader = true)
    : TellsRole self (self.checkLeader hostId leaderId) := by
  unfold checkLeader
  split
  · split
    · split
      · exact tellsRole_of_eq rfl rfl
      · next follows => exact tellsRole_takeover (by simpa using follows) rfl rfl
    · split
      · next leads => exact tellsRole_stepdown leads rfl rfl
      · exact tellsRole_of_eq rfl rfl
  · exact tellsRole_stepdown (leads rfl) rfl rfl

end MultiMainSetup

variable [DecidableEq Host]

/-- A method that goes on to change the key because of what it has read or what its instance
took itself for.
-/
def Await.relies (hostId : Host) : Await Host → Bool
  | .got leaderId => leaderId = some hostId
  | .prolonging => true
  | .clearing => true
  | _ => false

/-- What `checkLeader` awaits next relies on the host id that it has read. -/
theorem MultiMainSetup.read_of_mem_checkLeader {self : MultiMainSetup Host} {hostId : Host}
    {leaderId : Option Host} {await : Await Host}
    (member : await ∈ (self.checkLeader hostId leaderId).awaits)
    (relies : await.relies hostId = true)
    : await ∈ self.awaits ∨ leaderId = some hostId := by
  unfold checkLeader at member
  split at member
  · split at member
    · next same => exact .inr (congrArg some same)
    · split at member
      · exact .inl member
      · exact .inl member
  · rcases List.mem_append.mp member with old | new
    · exact .inl old
    · rw [List.mem_singleton.mp new] at relies
      contradiction

variable {self : Cluster Host} {host : Host}

namespace Cluster

/-- Only the instance's own host id is prolonged or deleted. -/
def ChangesOwnKey (self : Cluster Host) : Action Host → Prop
  | .reach host place =>
      match (self.mains host).awaits[place]? with
      | some .prolonging => ∀ leaderId ∈ self.leaderKey, leaderId = host
      | some .clearing => ∀ leaderId ∈ self.leaderKey, leaderId = host
      | _ => True
  | _ => True

def TellsRoles (self : Cluster Host) (action : Action Host) : Prop :=
  ∀ next, self.step action = some next → ∀ host, TellsRole (self.mains host) (next.mains host)

/-- An instance takes a vacant key only while no other instance is about to prolong or delete
it, and shuts down as leader only while no other instance has the key. A reply that finds the
key vacant is handled by a leader, and the reply to an attempt to become leader is not.
-/
def Careful (self : Cluster Host) : Action Host → Prop
  | .reach host place =>
      match (self.mains host).awaits[place]?, self.leaderKey with
      | some (.setting _), none =>
          ∀ other, other ≠ host
            → ∀ await ∈ (self.mains other).awaits, await.relies other = false
      | _, _ => True
  | .resume host place =>
      match (self.mains host).awaits[place]? with
      | some (.got none) => (self.mains host).isLeader = true
      | some (.wasSet _ _) => (self.mains host).isLeader = false
      | _ => True
  | .shutdown host =>
      (self.mains host).isLeader = true → ∀ leaderId ∈ self.leaderKey, leaderId = host
  | _ => True

instance (self : Cluster Host) (action : Action Host) : Decidable (self.ChangesOwnKey action) := by
  unfold ChangesOwnKey
  repeat' split
  all_goals infer_instance

instance [Fintype Host] (self : Cluster Host) (action : Action Host)
    : Decidable (self.Careful action) := by
  unfold Careful
  repeat' split
  all_goals infer_instance

theorem tellsRole_update {main : MultiMainSetup Host} (tells : TellsRole (self.mains host) main)
    (other : Host)
    : TellsRole (self.mains other) ((self.update host main).mains other) := by
  by_cases same : other = host
  · subst same
    simpa [update] using tells
  · simpa [update, same] using MultiMainSetup.tellsRole_of_eq rfl rfl

/-- Only the replies to a read and to an attempt to become leader change the role. -/
theorem Careful.tellsRoles {action : Action Host} (careful : self.Careful action)
    : self.TellsRoles action := by
  intro next taken
  cases action with
  | init host =>
      simp only [step, Option.ite_none_left_eq_some, Option.some.injEq] at taken
      obtain ⟨-, rfl⟩ := taken
      exact tellsRole_update (MultiMainSetup.tellsRole_of_eq rfl rfl)
  | shutdown host =>
      cases taken
      exact tellsRole_update (MultiMainSetup.tellsRole_shutdown _)
  | reach host place =>
      simp only [step, Option.bind_eq_bind, Option.bind_eq_some_iff, Option.some.injEq] at taken
      obtain ⟨command, -, ⟨leaderKey, reply⟩, -, rfl⟩ := taken
      exact tellsRole_update (MultiMainSetup.tellsRole_of_eq rfl rfl)
  | resume host place =>
      simp only [step, Option.bind_eq_bind, Option.bind_eq_some_iff, Option.some.injEq] at taken
      obtain ⟨reply, found, main, resumed, rfl⟩ := taken
      simp only [Careful, found] at careful
      refine tellsRole_update ?_
      cases reply with
      | got leaderId =>
          cases resumed
          have leads (vacant : leaderId = none) : (self.without host place).isLeader = true := by
            subst vacant
            exact careful
          exact MultiMainSetup.tellsRole_checkLeader host leads
      | wasSet boots keySetSuccessfully =>
          cases resumed
          have follows : (self.without host place).isLeader = false := careful
          exact MultiMainSetup.tellsRole_tryBecomeLeader boots keySetSuccessfully follows
      | getting | prolonging | setting | clearing => contradiction
      | _ =>
          cases resumed
          exact MultiMainSetup.tellsRole_of_eq rfl rfl
  | expire =>
      cases taken
      exact fun _ => MultiMainSetup.tellsRole_of_eq rfl rfl
  | _ =>
      obtain ⟨-, rfl⟩ := Option.ite_some_none_eq_some.mp taken
      exact tellsRole_update (MultiMainSetup.tellsRole_of_eq rfl rfl)

/-- While a method relies on it, the key is not another instance's. -/
def Relied (self : Cluster Host) : Prop :=
  ∀ host, ∀ await ∈ (self.mains host).awaits, await.relies host = true
    → ∀ leaderId ∈ self.leaderKey, leaderId = host

/-- One instance changes, and the key does not. -/
theorem Relied.update (relied : self.Relied) {main : MultiMainSetup Host}
    (fits
      : ∀ await ∈ main.awaits, await.relies host = true
        → await ∈ (self.mains host).awaits ∨ ∀ leaderId ∈ self.leaderKey, leaderId = host)
    : (self.update host main).Relied := by
  intro other await member relies
  by_cases same : other = host
  · subst same
    rw [show (self.update other main).mains other = main from Function.update_self ..] at member
    rcases fits await member relies with old | own
    · exact relied other await old relies
    · exact own
  · rw [show (self.update host main).mains other = self.mains other from
      Function.update_of_ne same ..] at member
    exact relied other await member relies

/-- A new await that relies on nothing, beside others that were there. -/
theorem Relied.await {self : Cluster Host} (relied : self.Relied) {host : Host}
    {main : MultiMainSetup Host} {next : Await Host}
    (old : ∀ await ∈ main.awaits, await ∈ (self.mains host).awaits)
    (free : next.relies host = true → ∀ leaderId ∈ self.leaderKey, leaderId = host)
    : (self.update host (main.await next)).Relied := by
  apply relied.update
  intro await member relies
  rcases List.mem_append.mp member with before | new
  · exact .inl (old await before)
  · rw [List.mem_singleton.mp new] at relies
    exact .inr (free relies)

/-- A command is executed: only taking the key over can make it another instance's. -/
theorem Relied.reach {next : Cluster Host} {place : Nat} (relied : self.Relied)
    (careful : self.Careful (.reach host place)) (taken : self.step (.reach host place) = some next)
    : next.Relied := by
  simp only [step, Option.bind_eq_bind, Option.bind_eq_some_iff, Option.some.injEq] at taken
  obtain ⟨command, found, ⟨leaderKey, reply⟩, reached, rfl⟩ := taken
  have old : ∀ await ∈ (self.without host place).awaits, await ∈ (self.mains host).awaits :=
    fun _ => mem_of_mem_without
  cases command with
  | getting =>
      cases reached
      refine relied.await old ?_
      intro relies leaderId held
      have read : self.leaderKey = some host := by simpa [Await.relies] using relies
      exact Option.some.inj (held.symm.trans read)
  | prolonging =>
      cases reached
      exact relied.await old (by simp [Await.relies])
  | setting boots =>
      cases vacant : self.leaderKey with
      | some holder =>
          simp only [Await.reach, vacant, Option.some.injEq, Prod.mk.injEq] at reached
          obtain ⟨rfl, rfl⟩ := reached
          rw [← vacant]
          exact relied.await old (by simp [Await.relies])
      | none =>
          simp only [Await.reach, vacant, Option.some.injEq, Prod.mk.injEq] at reached
          obtain ⟨rfl, rfl⟩ := reached
          simp only [Careful, found, vacant] at careful
          intro other await member relies leaderId held
          cases held
          by_contra differ
          have differ : other ≠ host := fun same => differ same.symm
          have unchanged
              : (self.update host ((self.without host place).await (.wasSet boots true))).mains other
                = self.mains other := Function.update_of_ne differ ..
          have idle := careful other differ await (unchanged ▸ member)
          simp [idle] at relies
  | clearing =>
      cases reached
      intro other await member relies leaderId held
      contradiction
  | _ => contradiction

theorem Relied.step {self next : Cluster Host} {action : Action Host} (relied : self.Relied)
    (careful : self.Careful action) (taken : self.step action = some next)
    : next.Relied := by
  cases action with
  | init host =>
      simp only [Cluster.step, Option.ite_none_left_eq_some, Option.some.injEq] at taken
      obtain ⟨-, rfl⟩ := taken
      exact relied.await (fun _ member => member) (by simp [Await.relies])
  | check host =>
      obtain ⟨-, rfl⟩ := Option.ite_some_none_eq_some.mp taken
      exact relied.await (fun _ member => member) (by simp [Await.relies])
  | shutdown host =>
      cases taken
      unfold MultiMainSetup.shutdown
      dsimp only
      split
      · next leads => exact relied.await (fun _ member => member) (fun _ => careful leads)
      · exact relied.update (fun _ member _ => .inl member)
  | reach host place => exact relied.reach careful taken
  | resume host place =>
      simp only [Cluster.step, Option.bind_eq_bind, Option.bind_eq_some_iff,
        Option.some.injEq] at taken
      obtain ⟨reply, found, main, resumed, rfl⟩ := taken
      apply relied.update
      intro await member relies
      cases reply with
      | got leaderId =>
          cases resumed
          rcases MultiMainSetup.read_of_mem_checkLeader member relies with old | read
          · exact .inl (mem_of_mem_without old)
          · exact .inr (relied host _ (List.mem_of_getElem? found) (by simp [read, Await.relies]))
      | wasSet boots keySetSuccessfully =>
          cases resumed
          refine .inl (List.mem_of_mem_eraseIdx (i := place) ?_)
          cases boots <;> cases keySetSuccessfully <;> exact member
      | getting | prolonging | setting | clearing => contradiction
      | _ =>
          cases resumed
          exact .inl (mem_of_mem_without member)
  | fail host place =>
      obtain ⟨-, rfl⟩ := Option.ite_some_none_eq_some.mp taken
      exact relied.update (fun _ member _ => .inl (mem_of_mem_without member))
  | expire =>
      cases taken
      intro host await member relies leaderId held
      contradiction

theorem Relied.changesOwnKey (relied : self.Relied) (action : Action Host)
    : self.ChangesOwnKey action := by
  unfold ChangesOwnKey
  split
  · split
    · next found => exact relied _ _ (List.mem_of_getElem? found) rfl
    · next found => exact relied _ _ (List.mem_of_getElem? found) rfl
    · trivial
  · trivial

/-- In every careful run, an instance prolongs or deletes the key only where it holds the
instance's own host id, each takeover is emitted when the instance becomes leader and each
stepdown when it stops being leader, and the two take turns.
-/
theorem leadership_of_careful (actions : List (Action Host))
    (careful : Along step Careful start actions)
    : Along step (fun self action => self.ChangesOwnKey action ∧ self.TellsRoles action)
          start actions
      ∧ Throughout step (fun self => ∀ host, Alternate (self.mains host).events) start
          actions := by
  have relied : (start : Cluster Host).Relied := by simp [Relied, start, MultiMainSetup.new]
  have told (host : Host) : Told ((start : Cluster Host).mains host) :=
    ⟨⟨List.isChain_nil, by simp [start, MultiMainSetup.new]⟩,
      by simp [start, MultiMainSetup.new, MultiMainSetup.isLeader]⟩
  constructor
  · refine along_of_allowed ?_ relied careful
    intro self action next relied careful taken
    exact ⟨⟨relied.changesOwnKey action, careful.tellsRoles⟩, relied.step careful taken⟩
  · have tells : Throughout step (fun self => ∀ host, Told (self.mains host)) start actions := by
      refine throughout_of_preserved ?_ told careful
      intro self action next told careful taken host
      exact (told host).step (careful.tellsRoles next taken host)
    exact tells.mono (fun _ told host => (told host).alternate)

/-- The leader finds the key expired and takes it again, and another instance takes it after
the leader's shutdown.
-/
theorem leadership_of_renewed
    : let actions : List (Action (Fin 2)) :=
        [.init 0, .reach 0 0, .resume 0 0, .init 1, .reach 1 0, .resume 1 0,
          .expire, .check 0, .reach 0 0, .resume 0 0, .reach 0 0, .resume 0 0,
          .check 0, .reach 0 0, .resume 0 0, .reach 0 0, .resume 0 0,
          .shutdown 0, .reach 0 0, .resume 0 0]
      (run step start actions).map (fun self => (self.leaderKey, (self.mains 0).events))
          = some (none, [.leaderTakeover, .leaderStepdown, .leaderTakeover])
        ∧ Along step (fun self action => self.ChangesOwnKey action ∧ self.TellsRoles action)
            start actions
        ∧ Throughout step (fun self => ∀ host, Alternate (self.mains host).events) start
            actions :=
  ⟨by decide, leadership_of_careful _ (by decide)⟩

/-- A leader's check reads its own id, the key expires and another instance takes it over, and
the check prolongs the other's key; a leader that does not know of its loss deletes the
other's key as it shuts down; and a follower that finds the key vacant emits a stepdown.
-/
theorem otherLeader_harmed
    : ¬Along step ChangesOwnKey (start : Cluster (Fin 2))
          [.init 0, .reach 0 0, .resume 0 0, .check 0, .reach 0 0, .expire,
            .init 1, .reach 1 0, .resume 0 0, .reach 0 0]
      ∧ ¬Along step ChangesOwnKey (start : Cluster (Fin 2))
          [.init 0, .reach 0 0, .resume 0 0, .expire, .init 1, .reach 1 0, .resume 1 0,
            .shutdown 0, .reach 0 0]
      ∧ ∃ reached, run step (start : Cluster (Fin 2))
            [.init 0, .reach 0 0, .resume 0 0, .init 1, .reach 1 0, .resume 1 0, .expire,
              .check 1, .reach 1 0, .resume 1 0]
          = some reached
        ∧ ¬Alternate (reached.mains 1).events :=
  ⟨by decide, by decide, _, rfl, by decide⟩

end Cluster

end N8n.Scaling
