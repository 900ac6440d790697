import N8n.Collaboration.WriteLock
import N8n.Library.Histories
import N8n.Library.Runs

/-! The write lock over whole runs of overlapping messages. Each message reads the lock and
then stores or removes it; in between, any other message may do so too.
-/

namespace N8n.Collaboration

open N8n.Histories N8n.Runs

inductive Action where
  | wait (milliseconds : Nat)
  | receive (client : WriteLock) (message : WorkflowMessage)
  | resume (place : Nat)
  deriving DecidableEq, Repr

structure System where
  state : CollaborationState
  tasks : List Task
  events : List Event
  deriving DecidableEq

variable {events : List Event} {client lock : WriteLock} {tasks : List Task}

namespace System

def start : System := ⟨⟨none, 0⟩, [], []⟩

/-- A connection has a client and a user. -/
def step (self : System) : Action → Option System
  | .wait milliseconds =>
      some { self with state := { self.state with now := self.state.now + milliseconds } }
  | .receive client message =>
      if client.clientId ≠ "" ∧ client.userId ≠ "" then
        some { self with tasks := self.tasks ++ [handleUserMessage client message] }
      else none
  | .resume place =>
      self.tasks[place]?.map (fun task =>
        let (state, next, events) := task.resume self.state
        ⟨state, self.tasks.eraseIdx place ++ next.toList, self.events ++ events⟩)

/-- No stored lock of `client` is still to live at `now`. -/
def Expired (events : List Event) (client : WriteLock) (now : Nat) : Prop :=
  ∀ lock replaced force written, .wrote lock replaced force written ∈ events
    → lock.clientId = client.clientId → written + writeLockTtl < now

def Released (events : List Event) (client : WriteLock) : Prop :=
  ∃ other lock, .removed other lock ∈ events ∧ other.clientId = client.clientId

/-- Another client of the same user took the lock over by force. -/
def TakenOver (events : List Event) (client : WriteLock) : Prop :=
  ∃ lock replaced now, .wrote lock (some replaced) true now ∈ events
    ∧ replaced.clientId = client.clientId
    ∧ lock.clientId ≠ client.clientId
    ∧ lock.userId = replaced.userId

/-- Between two clients that are told that they have the lock, `lost` happens to the first. -/
def Exclusive (lost : List Event → List Event → WriteLock → Nat → Prop) (events : List Event)
    : Prop :=
  ∀ before first told middle second toldNext after,
    events = before ++ .told first told :: (middle ++ .told second toldNext :: after)
    → first.clientId ≠ second.clientId
    → lost before middle first toldNext

/-- The first client has released the lock, or its time to live has passed. -/
def ReleasedOrExpired (before middle : List Event) (first : WriteLock) (now : Nat) : Prop :=
  Released middle first ∨ Expired (before ++ middle) first now

/-- A release removes no lock of another client. -/
def RemovesOwn (events : List Event) : Prop :=
  ∀ client lock, .removed client (some lock) ∈ events → lock.clientId = client.clientId

/-- The lock that a handler changes is the one it has read, or none, and the client it tells
of the lock still has it.
-/
def Undisturbed (self : System) : Action → Prop
  | .resume place =>
      match self.tasks[place]? with
      | some (.acquires _ _ currentLock) =>
          self.state.getWriteLock = none ∨ self.state.getWriteLock = currentLock
      | some (.deletes _ currentLock) =>
          self.state.getWriteLock = none ∨ self.state.getWriteLock = some currentLock
      | some (.rewrites _ currentLock) =>
          self.state.getWriteLock = none ∨ self.state.getWriteLock = some currentLock
      | some (.tells client) => self.state.getWriteLock = some client
      | _ => True
  | _ => True

instance (self : System) (action : Action) : Decidable (self.Undisturbed action) := by
  unfold Undisturbed
  repeat' split
  all_goals infer_instance

def Named (lock : WriteLock) : Prop := lock.clientId ≠ "" ∧ lock.userId ≠ ""

/-- What a handler has read allows what it does next. -/
def Allowed : Task → Prop
  | .requests client _ => Named client
  | .acquires client force currentLock =>
      Named client ∧ mayAcquire client force currentLock = true
  | .deletes client currentLock => currentLock.clientId = client.clientId
  | .rewrites client currentLock =>
      Named currentLock ∧ currentLock.clientId = client.clientId
  | _ => True

/-- A client that was told of the lock and has neither lost nor outlived it has it. -/
def Keeps (self : System) (first : WriteLock) (after : List Event) : Prop :=
  Released after first
  ∨ TakenOver after first
  ∨ Expired self.events first self.state.now
  ∨ ∃ lock, self.state.getWriteLock = some lock ∧ lock.clientId = first.clientId

structure Sound (system : System) : Prop where
  allowed : ∀ task ∈ system.tasks, Allowed task
  past : ∀ lock replaced force written, .wrote lock replaced force written ∈ system.events
    → written ≤ system.state.now
  /-- The entry of the cache is the last one that its client stored. -/
  latest : ∀ entry, system.state.cache = some entry
    → ∀ lock replaced force written, .wrote lock replaced force written ∈ system.events
      → lock.clientId = entry.lock.clientId → written + writeLockTtl ≤ entry.expiresAt
  keeps : ∀ before first told after, system.events = before ++ .told first told :: after
    → system.Keeps first after
  exclusive : Exclusive
    (fun before middle first now =>
      ReleasedOrExpired before middle first now ∨ TakenOver middle first)
    system.events
  removesOwn : RemovesOwn system.events

theorem start_sound : start.Sound where
  allowed := by simp [start]
  past := by simp [start]
  latest := by simp [start]
  keeps := by simp [start]
  exclusive := by simp [start, Exclusive]
  removesOwn := by simp [start, RemovesOwn]

theorem getWriteLock_eq_some {state : CollaborationState}
    : state.getWriteLock = some lock
      ↔ (∃ entry, state.cache = some entry ∧ state.now ≤ entry.expiresAt ∧ entry.lock = lock)
        ∧ Named lock := by
  simp [CollaborationState.getWriteLock, Option.filter_eq_some_iff, Named, and_assoc]

theorem getWriteLock_setWriteLock (named : Named lock) (state : CollaborationState)
    : (state.setWriteLock lock).getWriteLock = some lock :=
  getWriteLock_eq_some.mpr ⟨⟨_, rfl, Nat.le_add_right _ _, rfl⟩, named⟩

theorem Released.append (released : Released events client) (more : List Event)
    : Released (events ++ more) client := by
  obtain ⟨other, lock, member, same⟩ := released
  exact ⟨other, lock, List.mem_append_left _ member, same⟩

theorem TakenOver.append (taken : TakenOver events client) (more : List Event)
    : TakenOver (events ++ more) client := by
  obtain ⟨lock, replaced, now, member, rest⟩ := taken
  exact ⟨lock, replaced, now, List.mem_append_left _ member, rest⟩

theorem Expired.mono {fewer : List Event} {now : Nat} (expired : Expired events client now)
    (subset : ∀ event ∈ fewer, event ∈ events)
    : Expired fewer client now := fun lock replaced force written member same =>
  expired lock replaced force written (subset _ member) same

/-- An event that tells no client of the lock leaves the exclusion as it was. -/
theorem Exclusive.append {lost : List Event → List Event → WriteLock → Nat → Prop} {event : Event}
    (exclusive : Exclusive lost events)
    (fits : ∀ before first told middle second now, event = .told second now
      → events = before ++ .told first told :: middle → first.clientId ≠ second.clientId
      → lost before middle first now)
    : Exclusive lost (events ++ [event]) := by
  intro before first told middle second toldNext after split differ
  rw [← List.cons_append, ← List.append_assoc] at split
  rcases split_snoc split with ⟨-, whole, last⟩ | ⟨shorter, -, earlier⟩
  · exact fits before first told middle second toldNext last.symm whole.symm differ
  · exact exclusive before first told middle second toldNext shorter (by simpa using earlier)
      differ

section

variable {self : System} (sound : self.Sound)
include sound

theorem Sound.withTasks (allowed : ∀ task ∈ tasks, Allowed task)
    : Sound { self with tasks } :=
  { sound with allowed, keeps := sound.keeps, latest := sound.latest, past := sound.past }

theorem Sound.wait (milliseconds : Nat)
    : Sound { self with state := { self.state with now := self.state.now + milliseconds } } where
  allowed := sound.allowed
  past := fun lock replaced force written member =>
    Nat.le_trans (sound.past lock replaced force written member) (Nat.le_add_right _ _)
  latest := sound.latest
  exclusive := sound.exclusive
  removesOwn := sound.removesOwn
  keeps := by
    intro before first told after split
    rcases sound.keeps before first told after split with released | taken | expired | held
    · exact .inl released
    · exact .inr (.inl taken)
    · refine .inr (.inr (.inl ?_))
      intro lock replaced force written member same
      have := expired lock replaced force written member same
      dsimp only
      omega
    · obtain ⟨lock, found, same⟩ := held
      obtain ⟨⟨entry, cached, alive, rfl⟩, named⟩ := getWriteLock_eq_some.mp found
      by_cases lives : self.state.now + milliseconds ≤ entry.expiresAt
      · exact .inr (.inr (.inr ⟨entry.lock,
          getWriteLock_eq_some.mpr ⟨⟨entry, cached, lives, rfl⟩, named⟩, same⟩))
      · refine .inr (.inr (.inl ?_))
        intro lock replaced force written member sameClient
        have := sound.latest entry cached lock replaced force written member
          (sameClient.trans same.symm)
        dsimp only
        omega

/-- A lock is stored over none, over the client's own, or by force over one of its user. -/
theorem Sound.store (force : Bool) (named : Named lock) (allowed : ∀ task ∈ tasks, Allowed task)
    (fits : ∀ current, self.state.getWriteLock = some current
      → current.clientId ≠ lock.clientId → force = true ∧ lock.userId = current.userId)
    : Sound ⟨self.state.setWriteLock lock, tasks,
        self.events ++ [.wrote lock self.state.getWriteLock force self.state.now]⟩ where
  allowed := allowed
  past := by
    intro other replaced forced written member
    rcases List.mem_append.mp member with old | new
    · exact sound.past other replaced forced written old
    · cases List.mem_singleton.mp new
      exact Nat.le_refl _
  latest := by
    intro entry cached other replaced forced written member same
    cases cached
    rcases List.mem_append.mp member with old | new
    · have := sound.past other replaced forced written old
      dsimp only
      omega
    · cases List.mem_singleton.mp new
      exact Nat.le_refl _
  exclusive := sound.exclusive.append (by simp)
  removesOwn := by
    intro client removed member
    exact sound.removesOwn client removed (by simpa using member)
  keeps := by
    intro before first told after split
    rcases split_snoc split with ⟨-, -, isTold⟩ | ⟨shorter, rfl, earlier⟩
    · contradiction
    by_cases own : lock.clientId = first.clientId
    · exact .inr (.inr (.inr ⟨lock, getWriteLock_setWriteLock named _, own⟩))
    rcases sound.keeps before first told shorter earlier with released | taken | expired | held
    · exact .inl (released.append _)
    · exact .inr (.inl (taken.append _))
    · refine .inr (.inr (.inl ?_))
      intro other replaced forced written member same
      rcases List.mem_append.mp member with old | new
      · exact expired other replaced forced written old same
      · cases List.mem_singleton.mp new
        exact absurd same own
    · obtain ⟨current, found, same⟩ := held
      obtain ⟨rfl, sameUser⟩ := fits current found (same ▸ Ne.symm own)
      exact .inr (.inl ⟨lock, current, self.state.now, by simp [found], same, own, sameUser⟩)

theorem Sound.remove (client : WriteLock) (allowed : ∀ task ∈ tasks, Allowed task)
    (own : ∀ current, self.state.getWriteLock = some current → current.clientId = client.clientId)
    : Sound ⟨self.state.releaseWriteLock, tasks,
        self.events ++ [.removed client self.state.getWriteLock]⟩ where
  allowed := allowed
  past := fun lock replaced force written member =>
    sound.past lock replaced force written (by simpa using member)
  latest := by simp [CollaborationState.releaseWriteLock]
  exclusive := sound.exclusive.append (by simp)
  removesOwn := by
    intro other removed member
    rcases List.mem_append.mp member with old | new
    · exact sound.removesOwn other removed old
    · obtain ⟨rfl, found⟩ := Event.removed.inj (List.mem_singleton.mp new)
      exact own removed found.symm
  keeps := by
    intro before first told after split
    rcases split_snoc split with ⟨-, -, isTold⟩ | ⟨shorter, rfl, earlier⟩
    · contradiction
    rcases sound.keeps before first told shorter earlier with released | taken | expired | held
    · exact .inl (released.append _)
    · exact .inr (.inl (taken.append _))
    · refine .inr (.inr (.inl ?_))
      intro lock replaced force written member same
      exact expired lock replaced force written (by simpa using member) same
    · obtain ⟨current, found, same⟩ := held
      exact .inl ⟨client, self.state.getWriteLock, by simp, (own current found).symm.trans same⟩

/-- The client that is told has the lock, so no other client keeps it. -/
theorem Sound.tell (allowed : ∀ task ∈ tasks, Allowed task)
    (holds : self.state.getWriteLock = some client)
    : Sound ⟨self.state, tasks, self.events ++ [.told client self.state.now]⟩ where
  allowed := allowed
  past := fun lock replaced force written member =>
    sound.past lock replaced force written (by simpa using member)
  latest := fun entry cached lock replaced force written member =>
    sound.latest entry cached lock replaced force written (by simpa using member)
  removesOwn := by
    intro other removed member
    exact sound.removesOwn other removed (by simpa using member)
  exclusive := by
    refine sound.exclusive.append ?_
    intro before first told middle second now isTold split differ
    obtain ⟨rfl, rfl⟩ := Event.told.inj isTold
    rcases sound.keeps before first told middle split with released | taken | expired | held
    · exact .inl (.inl released)
    · exact .inr taken
    · refine .inl (.inr (expired.mono ?_))
      intro event member
      rw [split]
      rcases List.mem_append.mp member with front | back
      · exact List.mem_append_left _ front
      · exact List.mem_append_right _ (.tail _ back)
    · obtain ⟨current, found, same⟩ := held
      cases holds.symm.trans found
      exact absurd same.symm differ
  keeps := by
    intro before first told after split
    rcases split_snoc split with ⟨-, -, isTold⟩ | ⟨shorter, rfl, earlier⟩
    · obtain ⟨rfl, rfl⟩ := Event.told.inj isTold
      exact .inr (.inr (.inr ⟨_, holds, rfl⟩))
    rcases sound.keeps before first told shorter earlier with released | taken | expired | held
    · exact .inl (released.append _)
    · exact .inr (.inl (taken.append _))
    · refine .inr (.inr (.inl ?_))
      intro lock replaced force written member same
      exact expired lock replaced force written (by simpa using member) same
    · exact .inr (.inr (.inr held))

/-- An undisturbed handler goes on: each branch is one of the changes above. -/
theorem Sound.resume {place : Nat} {next : System} (undisturbed : self.Undisturbed (.resume place))
    (taken : self.step (.resume place) = some next)
    : next.Sound := by
  simp only [step, Option.map_eq_some_iff] at taken
  obtain ⟨task, here, rfl⟩ := taken
  have known := sound.allowed task (List.mem_of_getElem? here)
  have others : ∀ other ∈ self.tasks.eraseIdx place, Allowed other := fun other member =>
    sound.allowed other (List.mem_of_mem_eraseIdx member)
  have withNext (following : Task) (allowed : Allowed following)
      : ∀ other ∈ self.tasks.eraseIdx place ++ [following], Allowed other := by
    intro other member
    rcases List.mem_append.mp member with old | new
    · exact others other old
    · exact List.mem_singleton.mp new ▸ allowed
  simp only [Undisturbed, here] at undisturbed
  cases task with
  | requests client force =>
      simp only [Task.resume]
      split
      · next may =>
          simpa using sound.withTasks (withNext (.acquires client force _) ⟨known, may⟩)
      · simpa using sound.withTasks others
  | acquires client force currentLock =>
      refine sound.store force known.1 (withNext _ trivial) ?_
      intro current found differ
      obtain rfl : some current = currentLock := by
        rcases undisturbed with none | same
        · simp [none] at found
        · rw [← found, same]
      have may := known.2
      cases force with
      | true => exact ⟨rfl, by simpa [mayAcquire, eq_comm] using may⟩
      | false => exact absurd (by simpa [mayAcquire] using may) differ
  | tells client => simpa [Task.resume] using sound.tell others undisturbed
  | releases client =>
      simp only [Task.resume]
      split
      · simpa using sound.withTasks others
      · split
        · next same => simpa using sound.withTasks (withNext (.deletes client _) same)
        · simpa using sound.withTasks others
  | deletes client currentLock =>
      have removed := sound.remove client others (by
        intro current found
        rcases undisturbed with none | same
        · simp [none] at found
        · rw [Option.some.inj (found.symm.trans same)]
          exact known)
      simpa [Task.resume] using removed
  | renews client =>
      simp only [Task.resume]
      split
      · simpa using sound.withTasks others
      · next current found =>
          split
          · next same =>
              have named := (getWriteLock_eq_some.mp found).2
              simpa using sound.withTasks (withNext (.rewrites client current) ⟨named, same⟩)
          · simpa using sound.withTasks others
  | rewrites client currentLock =>
      have stored := sound.store false known.1 others (by
        intro current found differ
        rcases undisturbed with none | same
        · simp [none] at found
        · exact absurd (congrArg WriteLock.clientId (Option.some.inj (found.symm.trans same)))
            differ)
      simpa [Task.resume] using stored

end

/-- In an undisturbed run two clients are told of the lock only if the first one released it,
outlived it or lost it by force to a client of its user; and no release removes the lock of
another client.
-/
theorem writeLock_excludes (actions : List Action)
    (undisturbed : Along step Undisturbed start actions)
    : ∀ taken, taken <+: actions → ∀ reached, run step start taken = some reached
        → Exclusive
            (fun before middle first now =>
              ReleasedOrExpired before middle first now ∨ TakenOver middle first)
            reached.events
          ∧ RemovesOwn reached.events := by
  have sound : Throughout step Sound start actions := by
    refine throughout_of_preserved ?_ start_sound undisturbed
    intro self action next sound undisturbed taken
    cases action with
    | wait milliseconds =>
        cases taken
        exact sound.wait milliseconds
    | receive client message =>
        simp only [step] at taken
        split at taken
        · next named =>
            cases taken
            refine sound.withTasks ?_
            intro task member
            rcases List.mem_append.mp member with old | new
            · exact sound.allowed task old
            · rw [List.mem_singleton.mp new]
              cases message with
              | writeAccessRequested force => exact named
              | _ => trivial
        · contradiction
    | resume place => exact sound.resume undisturbed taken
  intro taken isPrefix reached ran
  have reachedSound := throughout_iff_prefix.mp sound taken isPrefix reached ran
  exact ⟨reachedSound.exclusive, reachedSound.removesOwn⟩

/-- One client has the lock and lets it expire, then a client of another user has it. -/
theorem writeLock_excludes_expired
    : let actions : List Action :=
        [.receive ⟨"a", "u"⟩ (.writeAccessRequested false), .resume 0, .resume 0, .resume 0,
          .wait 120001, .receive ⟨"b", "v"⟩ (.writeAccessRequested false), .resume 0,
          .resume 0, .resume 0]
      (run step start actions).map (fun system => system.events)
          = some [.wrote ⟨"a", "u"⟩ none false 0, .told ⟨"a", "u"⟩ 0,
              .wrote ⟨"b", "v"⟩ none false 120001, .told ⟨"b", "v"⟩ 120001]
      ∧ ∀ taken, taken <+: actions → ∀ reached, run step start taken = some reached
          → Exclusive
              (fun before middle first now =>
                ReleasedOrExpired before middle first now ∨ TakenOver middle first)
              reached.events
            ∧ RemovesOwn reached.events :=
  ⟨by decide, writeLock_excludes _ (by decide)⟩

/-- Two clients that are told at once of locks that none of them has released. -/
theorem not_exclusive (before middle : List Event) {first second : WriteLock}
    (differ : first.clientId ≠ second.clientId) (stored : Event.wrote first none false 0 ∈ before)
    (kept : ∀ client lock, Event.removed client lock ∉ middle)
    : ¬Exclusive ReleasedOrExpired
        (before ++ .told first 0 :: (middle ++ [.told second 0])) := by
  intro exclusive
  rcases exclusive before first 0 middle second 0 [] rfl differ with released | expired
  · obtain ⟨client, lock, member, _⟩ := released
    exact kept client lock member
  · have passed := expired first none false 0 (List.mem_append_left _ stored) rfl
    contradiction

/-- A second client of the same user takes the lock over by force, and two clients of
different users that both read the free lock before either stores it both get it.
-/
theorem bothTold_force_and_race
    : (∃ reached,
        run step start
            [.receive ⟨"a", "u"⟩ (.writeAccessRequested false), .resume 0, .resume 0, .resume 0,
              .receive ⟨"b", "u"⟩ (.writeAccessRequested true), .resume 0, .resume 0, .resume 0]
          = some reached
        ∧ ¬Exclusive ReleasedOrExpired reached.events)
      ∧ ∃ reached,
        run step start
            [.receive ⟨"a", "u"⟩ (.writeAccessRequested false),
              .receive ⟨"b", "v"⟩ (.writeAccessRequested false), .resume 0, .resume 0, .resume 0,
              .resume 0, .resume 0, .resume 0]
          = some reached
        ∧ ¬Exclusive ReleasedOrExpired reached.events := by
  constructor
  · refine ⟨⟨⟨some ⟨⟨"b", "u"⟩, 120000⟩, 0⟩, [],
        [.wrote ⟨"a", "u"⟩ none false 0, .told ⟨"a", "u"⟩ 0,
          .wrote ⟨"b", "u"⟩ (some ⟨"a", "u"⟩) true 0, .told ⟨"b", "u"⟩ 0]⟩, by decide, ?_⟩
    exact not_exclusive [.wrote ⟨"a", "u"⟩ none false 0]
      [.wrote ⟨"b", "u"⟩ (some ⟨"a", "u"⟩) true 0]
      (by decide) (by simp) (by simp)
  · refine ⟨⟨⟨some ⟨⟨"b", "v"⟩, 120000⟩, 0⟩, [],
        [.wrote ⟨"a", "u"⟩ none false 0, .wrote ⟨"b", "v"⟩ (some ⟨"a", "u"⟩) false 0,
          .told ⟨"a", "u"⟩ 0, .told ⟨"b", "v"⟩ 0]⟩, by decide, ?_⟩
    exact not_exclusive
      [.wrote ⟨"a", "u"⟩ none false 0, .wrote ⟨"b", "v"⟩ (some ⟨"a", "u"⟩) false 0] []
      (by decide) (by simp) (by simp)

end System

end N8n.Collaboration
