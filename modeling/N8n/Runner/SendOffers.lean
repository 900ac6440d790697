import N8n.Runner.TaskRunner

/-! What a task runner changes when it sends offers. -/

namespace N8n.Runner.TaskRunner

open N8n.Exec (Within)

variable {Data : Type} {environment : Environment} {opts : TaskRunnerOpts}

/-- The message tells the broker how the task has ended. -/
def Ends (task : Nat) : RunnerMessage Data → Bool
  | .taskdone other _ _ => other = task
  | .taskerror other _ _ => other = task
  | _ => false

/-- How often the end of a task has been sent. -/
def endings (self : TaskRunner Data) (task : Nat) : Nat := self.sent.countP (Ends task)

/-- There are no more open offers and running tasks than may run. -/
def Bounded (opts : TaskRunnerOpts) (self : TaskRunner Data) : Prop :=
  self.openOffers.keys.length + self.runningTasks.keys.length ≤ opts.maxConcurrency

theorem send_ensures (message : RunnerMessage Data) (self : TaskRunner Data)
    : (send environment message).Ensures self
        (fun _ after =>
          after = { self with attempts := self.attempts + 1, sent := self.sent ++ [message] }
          ∧ environment.sendError self.attempts = none)
        (fun after =>
          after = { self with attempts := self.attempts + 1 }
          ∧ environment.sendError self.attempts ≠ none) := by
  refine .bind (.get (.bind (.update ?_)))
  split
  · next goesThrough => exact .update ⟨rfl, goesThrough⟩
  · next failed => exact .throw ⟨rfl, by simp [failed]⟩

/-- At most so many offers are new, and tasks are as they were. -/
structure OffersOnly (new : Nat) (before after : TaskRunner Data) : Prop where
  openOffers : after.openOffers.keys.length ≤ before.openOffers.keys.length + new
  runningTasks : after.runningTasks = before.runningTasks
  taskStates : after.taskStates = before.taskStates
  executions : after.executions = before.executions
  endings : ∀ task, after.endings task = before.endings task

theorem OffersOnly.refl (self : TaskRunner Data) : OffersOnly 0 self self :=
  ⟨le_refl _, rfl, rfl, rfl, fun _ => rfl⟩

theorem OffersOnly.trans {first second : Nat} {before middle after : TaskRunner Data}
    (early : OffersOnly first before middle) (late : OffersOnly second middle after)
    : OffersOnly (first + second) before after where
  openOffers := by
    have := early.openOffers
    have := late.openOffers
    omega
  runningTasks := late.runningTasks.trans early.runningTasks
  taskStates := late.taskStates.trans early.taskStates
  executions := late.executions.trans early.executions
  endings task := (late.endings task).trans (early.endings task)

theorem OffersOnly.mono {new more : Nat} {before after : TaskRunner Data}
    (offers : OffersOnly new before after) (fewer : new ≤ more)
    : OffersOnly more before after :=
  { offers with openOffers := offers.openOffers.trans (Nat.add_le_add_left fewer _) }

theorem sendOffer_within : Within (@OffersOnly Data 1) (sendOffer environment opts) := by
  intro self
  refine .bind (.get (.bind (.update ?_)))
  refine (send_ensures _ _).mono ?_ ?_
  · rintro _ after ⟨rfl, -⟩
    exact ⟨Dict.length_keys_set_le _ _ _, rfl, rfl, rfl, fun task => by simp [endings, Ends]⟩
  · rintro after ⟨rfl, -⟩
    exact ⟨Dict.length_keys_set_le _ _ _, rfl, rfl, rfl, fun _ => rfl⟩

theorem sendOffers_loop (places : List Nat)
    : Within (@OffersOnly Data places.length)
        (places.forM (fun _ => sendOffer environment opts)) := by
  induction places with
  | nil => exact fun self => Exec.Ensures.pure (OffersOnly.refl self)
  | cons place rest ih =>
      intro self
      refine .bind ((sendOffer_within self).mono ?_ ?_)
      · intro _ middle first
        have sum {after : TaskRunner Data} (second : OffersOnly rest.length middle after)
            : OffersOnly (rest.length + 1) self after :=
          Nat.add_comm 1 rest.length ▸ first.trans second
        exact (ih middle).mono (fun _ _ => sum) (fun _ => sum)
      · intro middle first
        exact first.mono (by simp)

theorem deleteIfStale_within (key : String) (offer : TaskOffer)
    : Within (@OffersOnly Data 0) (deleteIfStale environment key offer) := by
  intro self
  refine .bind (.get (.bind (.update ?_)))
  split
  · exact .update
      ⟨Dict.length_keys_delete_le _ _, rfl, rfl, rfl, fun _ => rfl⟩
  · exact .pure ⟨le_refl _, rfl, rfl, rfl, fun _ => rfl⟩

theorem deleteStaleOffers_within
    : Within (@OffersOnly Data 0) (deleteStaleOffers environment) := by
  have trans (first middle last : TaskRunner Data) (early : OffersOnly 0 first middle)
      (late : OffersOnly 0 middle last)
      : OffersOnly 0 first last := early.trans late
  intro self
  refine .bind (.get ?_)
  exact Within.forM OffersOnly.refl trans (fun _ _ => deleteIfStale_within _ _) self

/-- Tasks are as they were, and the bound is kept. -/
structure Quiet (opts : TaskRunnerOpts) (before after : TaskRunner Data) : Prop where
  bounded : Bounded opts before → Bounded opts after
  runningTasks : after.runningTasks = before.runningTasks
  taskStates : after.taskStates = before.taskStates
  executions : after.executions = before.executions
  endings : ∀ task, after.endings task = before.endings task

/-- As many offers are new as there are vacancies. -/
theorem sendOffers_within
    : Within (@Quiet Data opts) (sendOffers environment opts) := by
  intro self
  refine .bind ((deleteStaleOffers_within self).mono ?_ ?_)
  · intro _ middle first
    have quiet {after : TaskRunner Data} (second : OffersOnly (offersToSend opts middle) middle after)
        : Quiet opts self after := by
      have both := first.trans second
      refine ⟨?_, both.runningTasks, both.taskStates, both.executions, both.endings⟩
      intro bounded
      have := first.openOffers
      have := second.openOffers
      unfold Bounded offersToSend at *
      rw [both.runningTasks]
      rw [first.runningTasks] at *
      omega
    refine .bind (.get ?_)
    split
    · have loop
          : Within (@OffersOnly Data (List.range (offersToSend opts middle)).length)
              ((List.range (offersToSend opts middle)).forM (fun _ =>
                sendOffer environment opts)) :=
        sendOffers_loop _
      replace loop := loop middle
      rw [List.length_range] at loop
      exact loop.mono (fun _ _ => quiet) (fun _ => quiet)
    · exact .pure (quiet ((OffersOnly.refl middle).mono (Nat.zero_le _)))
  · intro middle first
    refine ⟨?_, first.runningTasks, first.taskStates, first.executions, first.endings⟩
    intro bounded
    have := first.openOffers
    unfold Bounded at *
    rw [first.runningTasks]
    omega

end N8n.Runner.TaskRunner
