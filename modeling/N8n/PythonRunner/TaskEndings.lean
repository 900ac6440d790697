import N8n.PythonRunner.TaskRunner

/-! What matters for the end of a Python task: its state, its execution and its process, and what
has been sent about it. Each thing that can happen changes them in one of a few ways.
-/

namespace N8n.PythonRunner

/-! ### Phases -/

def Phase.isEnded : Phase → Bool
  | .ended => true
  | _ => false

def Phase.isSendingError : Phase → Bool
  | .sendingError _ => true
  | _ => false

/-- The thread waits for this process to exit, within the time that the task has. -/
def Phase.joins (process : Nat) : Phase → Bool
  | .executing other .joining => other = process
  | _ => false

/-- From this phase a cancelled task ends in an error, however its process exits from now on: the
process runs and its end is not turned into a result, or the error is there already.
-/
def Phase.heeds (continue_on_fail : Bool) (exitcode : Nat → Option Int) : Phase → Bool
  | .executing process .joining => !continue_on_fail && exitcode process ≠ some 0
  | .executing _ (.stopping _) => !continue_on_fail
  | .executed (.error _) => true
  | .sendingError _ => true
  | .ended => true
  | _ => false

/-- The process that an execution has in a phase. -/
def Phase.Has (process : Option Nat) (started : Nat → Bool) : Phase → Prop
  | .created => process = none
  | .executing other point =>
      process = some other ∧ (point ≠ .starting → started other = true)
  | _ => True

/-- Whether the message tells how the execution has ended. -/
def RunnerMessage.ends (place : Nat) : RunnerMessage → Bool
  | .taskdone execution _ _ => execution = place
  | .taskerror execution _ _ => execution = place
  | _ => false

def RunnerMessage.isDone : RunnerMessage → Bool
  | .taskdone _ _ _ => true
  | _ => false

/-! ### Views -/

/-- The running tasks, the task states, processes and executions with their numbers, the task that
a handler is stopping with the process it had, the messages that tell of the end of each execution,
and how often each task was popped.
-/
structure View where
  tasks : String → Option Nat
  state : Nat → TaskState
  states : Nat
  process : Nat → Process
  processes : Nat
  execution : Nat → Option Execution
  executions : Nat
  stopping : Option (Nat × Option Nat)
  endings : Nat → List RunnerMessage
  popped : Nat → Nat

variable {place task : Nat} {task_id : String}

namespace View

def heeds (view : View) (execution : Execution) : Bool :=
  execution.phase.heeds execution.settings.continue_on_fail
    (fun process => (view.process process).exitcode)

/-- What is known of an execution. It tells of its end once, as it leaves the running tasks, and
of no success once its task is aborting.
-/
structure Follows (view : View) (place : Nat) (execution : Execution) : Prop where
  known : execution.task < view.states
  named : (view.state execution.task).task_id = execution.task_id
  given : (view.state execution.task).status ≠ .waitingForSettings
  running
    : view.tasks execution.task_id
      = if execution.phase.isEnded then none else some execution.task
  popped : view.popped execution.task = if execution.phase.isEnded then 1 else 0
  endings : (view.endings place).length = if execution.phase.isEnded then 1 else 0
  process
    : execution.phase.Has (view.state execution.task).process
        (fun process => (view.process process).started)
  heeded : (view.state execution.task).status = .aborting → view.heeds execution = true
  silent
    : (view.state execution.task).status = .aborting
      → ∀ message ∈ view.endings place, message.isDone = false

/-- The process of the task is dead, or there is none. -/
def Stopped (view : View) (task : Nat) : Prop :=
  ∀ process, (view.state task).process = some process → (view.process process).isAlive = false

structure Sound (view : View) : Prop where
  running
    : ∀ task_id task, view.tasks task_id = some task
        → task < view.states ∧ (view.state task).task_id = task_id ∧ view.popped task = 0
  distinct
    : ∀ first second, first < view.states → second < view.states
        → (view.state first).task_id = (view.state second).task_id → first = second
  unknown
    : ∀ task, view.states ≤ task
        → (view.state task).status = .waitingForSettings ∧ view.popped task = 0
  unprocessed
    : ∀ task, (view.state task).status = .waitingForSettings → (view.state task).process = none
  allotted
    : ∀ task process, (view.state task).process = some process → process < view.processes
  owned
    : ∀ first second process, (view.state first).process = some process
        → (view.state second).process = some process → first = second
  unused
    : ∀ place, view.executions ≤ place
        → view.execution place = none ∧ view.endings place = []
  follows
    : ∀ place execution, view.execution place = some execution → view.Follows place execution
  alone
    : ∀ first second execution other, view.execution first = some execution
        → view.execution second = some other → execution.task = other.task → first = second
  stopping
    : ∀ task process, view.stopping = some (task, process)
        → (view.state task).status = .aborting ∧ process = (view.state task).process
  stopped
    : ∀ task, (view.state task).status = .aborting
        → (∃ process, view.stopping = some (task, process)) ∨ view.Stopped task

/-! ### Changes -/

def accept (view : View) (task_id : String) : View :=
  { view with
      tasks := Function.update view.tasks task_id (some view.states)
      state := Function.update view.state view.states ⟨task_id, .waitingForSettings, none⟩
      states := view.states + 1 }

def pop (view : View) (task_id : String) (task : Nat) : View :=
  { view with
      tasks := Function.update view.tasks task_id none
      popped := Function.update view.popped task (view.popped task + 1) }

def give (view : View) (task_id : String) (task : Nat) (settings : TaskSettings) : View :=
  { view with
      state :=
        Function.update view.state task { view.state task with status := .running }
      execution :=
        Function.update view.execution view.executions
          (some ⟨task_id, settings, task, .created⟩)
      executions := view.executions + 1 }

def abort (view : View) (task : Nat) : View :=
  { view with
      state :=
        Function.update view.state task { view.state task with status := .aborting }
      stopping := some (task, (view.state task).process) }

def setProcess (view : View) (place : Nat) (process : Process) : View :=
  { view with process := Function.update view.process place process }

def setPhase (view : View) (place : Nat) (execution : Execution) (phase : Phase) : View :=
  { view with
      execution := Function.update view.execution place (some { execution with phase }) }

/-- A new process for the task; it does not run yet, like every process that is not there. -/
def create (view : View) (task : Nat) : View :=
  { view with
      state :=
        Function.update view.state task
          { view.state task with process := some view.processes }
      processes := view.processes + 1 }

def tell (view : View) (place : Nat) (message : RunnerMessage) : View :=
  { view with
      endings := Function.update view.endings place (view.endings place ++ [message]) }

/-- Another process object in its place: it has not exited since, and runs if it ran. -/
structure Goes (before after : Nat → Process) : Prop where
  exitcode : ∀ process, (after process).exitcode = (before process).exitcode
  started : ∀ process, (before process).started = true → (after process).started = true

theorem Goes.refl (process : Nat → Process) : Goes process process := ⟨fun _ => rfl, fun _ => id⟩

theorem Goes.update {process : Nat → Process} {after : Process}
    (exitcode : after.exitcode = (process place).exitcode)
    (started : (process place).started = true → after.started = true)
    : Goes process (Function.update process place after) := by
  constructor
  all_goals
    intro other
    by_cases same : other = place
  · subst same
    simpa using exitcode
  · simp [same]
  · subst same
    simpa using started
  · simp [same]

theorem Goes.heeds {before after : Nat → Process} (goes : Goes before after) (phase : Phase)
    (continue_on_fail : Bool)
    : phase.heeds continue_on_fail (fun process => (after process).exitcode)
      = phase.heeds continue_on_fail (fun process => (before process).exitcode) := by
  simp only [goes.exitcode]

theorem Goes.has {before after : Nat → Process} (goes : Goes before after) {phase : Phase}
    {process : Option Nat} (has : phase.Has process (fun process => (before process).started))
    : phase.Has process (fun process => (after process).started) := by
  cases phase with
  | executing other point => exact ⟨has.1, fun runs => goes.started other (has.2 runs)⟩
  | created => exact has
  | _ => trivial

/-- Only the exit of the process that an execution joins matters to it. -/
theorem heeds_of_joins {phase : Phase} {continue_on_fail : Bool}
    {before after : Nat → Option Int} (heeds : phase.heeds continue_on_fail before = true)
    (exits
      : ∀ process, phase.joins process = true
        → after process = before process ∨ after process ≠ some 0)
    : phase.heeds continue_on_fail after = true := by
  cases phase with
  | executing process point =>
      cases point with
      | joining =>
          simp only [Phase.heeds, Bool.and_eq_true, decide_eq_true_eq] at heeds ⊢
          rcases exits process (by simp [Phase.joins]) with same | fails
          · exact ⟨heeds.1, same ▸ heeds.2⟩
          · exact ⟨heeds.1, fails⟩
      | stopping point => exact heeds
      | _ => contradiction
  | executed outcome =>
      cases outcome with
      | ok executed => contradiction
      | error e => rfl
  | sendingError | ended => rfl
  | _ => contradiction

theorem Follows.frame {view after : View} {execution : Execution}
    (follows : view.Follows place execution) (states : view.states ≤ after.states)
    (state : after.state execution.task = view.state execution.task)
    (tasks : after.tasks execution.task_id = view.tasks execution.task_id)
    (popped : after.popped execution.task = view.popped execution.task)
    (endings : after.endings place = view.endings place) (goes : Goes view.process after.process)
    : after.Follows place execution where
  known := Nat.lt_of_lt_of_le follows.known states
  named := state ▸ follows.named
  given := state ▸ follows.given
  running := tasks ▸ follows.running
  popped := popped ▸ follows.popped
  endings := endings ▸ follows.endings
  process := by
    rw [state]
    exact goes.has follows.process
  heeded aborting := by
    rw [state] at aborting
    exact (goes.heeds _ _).trans (follows.heeded aborting)
  silent aborting := by
    rw [state] at aborting
    exact endings ▸ follows.silent aborting

section

variable {view : View} (sound : view.Sound)
include sound

theorem Sound.accept (fresh : ∀ task < view.states, (view.state task).task_id ≠ task_id)
    : (view.accept task_id).Sound := by
  obtain ⟨running, distinct, unknown, unprocessed, allotted, owned, unused, follows, alone,
    stopping, stopped⟩ := sound
  constructor
  case follows =>
    intro place execution here
    have known := (follows place execution here).known
    have named := (follows place execution here).named
    refine (follows place execution here).frame (Nat.le_succ _) ?_ ?_ rfl rfl (Goes.refl _)
    · simp [View.accept, Nat.ne_of_lt known]
    · have other : execution.task_id ≠ task_id := named ▸ fresh _ known
      simp [View.accept, other]
  all_goals simp only [View.accept, View.Stopped, Function.update_apply]
  all_goals grind [View.Stopped]

/-- The task waits for settings, so that it has no execution. -/
theorem Sound.pop (found : view.tasks task_id = some task)
    (waiting : (view.state task).status = .waitingForSettings)
    : (view.pop task_id task).Sound := by
  obtain ⟨running, distinct, unknown, unprocessed, allotted, owned, unused, follows, alone,
    stopping, stopped⟩ := sound
  have here := running task_id task found
  constructor
  case follows =>
    intro place execution executes
    have before := follows place execution executes
    have other : execution.task ≠ task := fun same => before.given (same ▸ waiting)
    have otherId : execution.task_id ≠ task_id := by
      intro same
      exact other (distinct _ _ before.known here.1 (by rw [before.named, same, here.2.1]))
    refine before.frame (Nat.le_refl _) rfl ?_ ?_ rfl (Goes.refl _)
    · simp [View.pop, otherId]
    · simp [View.pop, other]
  all_goals simp only [View.pop, View.Stopped, Function.update_apply]
  all_goals grind [View.Stopped]

theorem Sound.give (settings : TaskSettings) (found : view.tasks task_id = some task)
    (waiting : (view.state task).status = .waitingForSettings)
    : (view.give task_id task settings).Sound := by
  obtain ⟨running, distinct, unknown, unprocessed, allotted, owned, unused, follows, alone,
    stopping, stopped⟩ := sound
  have here := running task_id task found
  have nothing := unprocessed task waiting
  have another (place : Nat) (execution : Execution)
      (executes : view.execution place = some execution)
      : execution.task ≠ task := fun same =>
    (follows place execution executes).given (same ▸ waiting)
  constructor
  case follows =>
    intro place execution executes
    by_cases new : place = view.executions
    · subst new
      obtain rfl : ⟨task_id, settings, task, .created⟩ = execution := by
        simpa [View.give] using executes
      have untold := (unused view.executions (Nat.le_refl _)).2
      exact ⟨here.1, by simp [View.give, here.2.1], by simp [View.give],
        by simpa [View.give, Phase.isEnded] using found,
        by simp [View.give, Phase.isEnded, here.2.2],
        by simp [View.give, Phase.isEnded, untold], by simpa [View.give, Phase.Has] using nothing,
        by simp [View.give], by simp [View.give]⟩
    · have executes : view.execution place = some execution := by
        simpa [View.give, new] using executes
      have other := another place execution executes
      refine (follows place execution executes).frame (Nat.le_refl _) ?_ rfl rfl rfl (Goes.refl _)
      simp [View.give, other]
  all_goals simp only [View.give, View.Stopped, Function.update_apply]
  all_goals grind [View.Stopped]

/-- The task has not told of its end, and each of its executions is going to end in an error. -/
theorem Sound.abort (idle : view.stopping = none) (found : view.tasks task_id = some task)
    (heeded
      : ∀ place execution, view.execution place = some execution → execution.task = task
        → view.heeds execution = true)
    : (view.abort task).Sound := by
  obtain ⟨running, distinct, unknown, unprocessed, allotted, owned, unused, follows, alone,
    stopping, stopped⟩ := sound
  have here := running task_id task found
  constructor
  case follows =>
    intro place execution executes
    have before := follows place execution executes
    by_cases same : execution.task = task
    · subst same
      have named : execution.task_id = task_id := by rw [← before.named, here.2.1]
      have runs : execution.phase.isEnded = false := by
        cases ended : execution.phase.isEnded with
        | false => rfl
        | true =>
            have gone := before.running
            rw [ended, named, found] at gone
            contradiction
      have untold : view.endings place = [] := by
        have count := before.endings
        rw [runs] at count
        exact List.length_eq_zero_iff.mp count
      exact ⟨before.known, by simpa [View.abort] using before.named, by simp [View.abort],
        before.running, before.popped, before.endings, by simpa [View.abort] using before.process,
        fun _ => heeded place execution executes rfl, fun _ => by simp [View.abort, untold]⟩
    · refine before.frame (Nat.le_refl _) ?_ rfl rfl rfl (Goes.refl _)
      simp [View.abort, same]
  case stopped =>
    intro other aborting
    by_cases same : other = task
    · exact .inl ⟨(view.state task).process, by simp [View.abort, same]⟩
    · rcases stopped other (by simpa [View.abort, same] using aborting) with ⟨process, stops⟩ | dead
      · simp [idle] at stops
      · exact .inr (by simpa [View.Stopped, View.abort, same] using dead)
  all_goals simp only [View.abort, Function.update_apply]
  all_goals grind

theorem Sound.signal {process : Process} (started : process.started = (view.process place).started)
    (exitcode : process.exitcode = (view.process place).exitcode)
    : (view.setProcess place process).Sound := by
  have goes : Goes view.process (view.setProcess place process).process :=
    Goes.update exitcode (fun runs => started.trans runs)
  have alive (other : Nat) : ((view.setProcess place process).process other).isAlive
      = (view.process other).isAlive := by
    by_cases same : other = place
    · subst same
      simp [View.setProcess, Process.isAlive, started, exitcode]
    · simp [View.setProcess, same]
  refine { sound with follows := ?_, stopped := ?_ }
  · intro other execution executes
    exact (sound.follows other execution executes).frame (Nat.le_refl _) rfl rfl rfl rfl goes
  · intro task aborting
    refine (sound.stopped task aborting).imp id (fun dead process owns => ?_)
    rw [alive]
    exact dead process owns

theorem Sound.settle
    (dead : ∀ task process, view.stopping = some (task, process) → view.Stopped task)
    : Sound { view with stopping := none } := by
  refine { sound with stopping := ?_, stopped := ?_, follows := ?_ }
  · intro other execution executes
    exact (sound.follows other execution executes).frame (Nat.le_refl _) rfl rfl rfl rfl
      (Goes.refl _)
  · simp
  · intro task aborting
    rcases sound.stopped task aborting with ⟨process, stops⟩ | stopped
    · exact .inr (dead task process stops)
    · exact .inr stopped

/-- A process exits, and not with success if its task is aborting. -/
theorem Sound.exit {exitcode : Int}
    (fails
      : ∀ other execution, view.execution other = some execution
        → (view.state execution.task).status = .aborting
        → execution.phase.joins place = true → exitcode ≠ 0)
    : (view.setProcess place { view.process place with exitcode := some exitcode }).Sound := by
  refine { sound with follows := ?_, stopped := ?_ }
  · intro other execution executes
    have before := sound.follows other execution executes
    refine { before with process := ?_, heeded := ?_ }
    · have started (process : Nat) : ((view.setProcess place
            { view.process place with exitcode := some exitcode }).process process).started
          = (view.process process).started := by
        by_cases same : process = place
        · subst same
          simp [View.setProcess]
        · simp [View.setProcess, same]
      simp only [started]
      exact before.process
    · intro aborting
      have heeds := before.heeded aborting
      refine heeds_of_joins heeds (fun process joins => ?_)
      by_cases same : process = place
      · subst same
        have nonzero := fails other execution executes aborting joins
        exact .inr (by simpa [View.setProcess] using nonzero)
      · exact .inl (by simp [View.setProcess, same])
  · intro task aborting
    refine (sound.stopped task aborting).imp id (fun dead process owns => ?_)
    by_cases same : process = place
    · subst same
      simp [View.setProcess, Process.isAlive]
    · simpa [View.setProcess, same] using dead process owns

theorem Sound.run {process : Nat} (owns : (view.state task).process = some process)
    (unaborted : (view.state task).status ≠ .aborting)
    : (view.setProcess process { view.process process with started := true }).Sound := by
  have goes : Goes view.process
      (view.setProcess process { view.process process with started := true }).process :=
    Goes.update rfl (fun _ => rfl)
  refine { sound with follows := ?_, stopped := ?_ }
  · intro other following executes
    exact (sound.follows other following executes).frame (Nat.le_refl _) rfl rfl rfl rfl goes
  · intro another aborting
    refine (sound.stopped another aborting).imp id (fun dead other ownsOther => ?_)
    have differ : other ≠ process := by
      intro same
      subst same
      exact unaborted (sound.owned another task other ownsOther owns ▸ aborting)
    simpa [View.setProcess, differ] using dead other ownsOther

section

variable {place : Nat} {execution : Execution} (here : view.execution place = some execution)
include here

theorem Sound.setPhase {phase : Phase} (goesOn : phase.isEnded = execution.phase.isEnded)
    (has : phase.Has (view.state execution.task).process
      (fun process => (view.process process).started))
    (heeded
      : (view.state execution.task).status = .aborting
        → view.heeds { execution with phase } = true)
    : (view.setPhase place execution phase).Sound := by
  have before := sound.follows place execution here
  have used : place < view.executions := by
    by_contra outside
    rw [(sound.unused place (Nat.le_of_not_lt outside)).1] at here
    contradiction
  refine { sound with unused := ?_, follows := ?_, alone := ?_ }
  · intro other outside
    have differ : other ≠ place := fun same => by
      have : view.executions ≤ other := outside
      omega
    simpa [View.setPhase, differ] using sound.unused other outside
  · intro other following executes
    by_cases same : other = place
    · subst same
      obtain rfl : { execution with phase } = following := by
        simpa [View.setPhase] using executes
      exact ⟨before.known, before.named, before.given, goesOn ▸ before.running,
        goesOn ▸ before.popped, goesOn ▸ before.endings, has, heeded, before.silent⟩
    · have executes : view.execution other = some following := by
        simpa [View.setPhase, same] using executes
      exact (sound.follows other following executes).frame (Nat.le_refl _) rfl rfl rfl rfl
        (Goes.refl _)
  · have alone := sound.alone
    simp only [View.setPhase, Function.update_apply]
    grind

theorem Sound.create (created : execution.phase = .created)
    : ((view.create execution.task).setPhase place execution
        (.executing view.processes .starting)).Sound := by
  have before := sound.follows place execution here
  have unaborted : (view.state execution.task).status ≠ .aborting := by
    intro aborting
    have heeds := before.heeded aborting
    rw [View.heeds, created] at heeds
    contradiction
  have used : place < view.executions := by
    by_contra outside
    rw [(sound.unused place (Nat.le_of_not_lt outside)).1] at here
    contradiction
  obtain ⟨running, distinct, unknown, unprocessed, allotted, owned, unused, follows, alone,
    stopping, stopped⟩ := sound
  constructor
  case follows =>
    intro other following executes
    by_cases same : other = place
    · subst same
      obtain rfl : { execution with phase := .executing view.processes .starting } = following := by
        simpa [View.setPhase] using executes
      have unended : execution.phase.isEnded = false := by rw [created]; rfl
      have running := before.running
      have popped := before.popped
      have endings := before.endings
      rw [unended] at running popped endings
      exact ⟨before.known, by simpa [View.setPhase, View.create] using before.named,
        by simpa [View.setPhase, View.create] using before.given, running, popped, endings,
        by simp [View.setPhase, View.create, Phase.Has],
        fun aborting => absurd (by simpa [View.setPhase, View.create] using aborting) unaborted,
        fun aborting => absurd (by simpa [View.setPhase, View.create] using aborting) unaborted⟩
    · have executes : view.execution other = some following := by
        simpa [View.setPhase, View.create, same] using executes
      have differ : following.task ≠ execution.task := fun sameTask =>
        same (alone other place following execution executes here sameTask)
      refine (follows other following executes).frame (Nat.le_refl _) ?_ rfl rfl rfl (Goes.refl _)
      simp [View.setPhase, View.create, differ]
  case stopped =>
    intro task aborting
    have differ : task ≠ execution.task := by
      intro same
      subst same
      exact unaborted (by simpa [View.setPhase, View.create] using aborting)
    simpa [View.setPhase, View.create, View.Stopped, differ] using
      stopped task (by simpa [View.setPhase, View.create, differ] using aborting)
  all_goals
    have known := before.known
    have given := before.given
    simp only [View.create, View.setPhase, Function.update_apply]
  all_goals grind

/-- An execution tells of its end and leaves the running tasks. -/
theorem Sound.finish {message : RunnerMessage} (unended : execution.phase.isEnded = false)
    (fails
      : (view.state execution.task).status = .aborting → message.isDone = false)
    : (((view.tell place message).pop execution.task_id execution.task).setPhase place execution
        .ended).Sound := by
  have before := sound.follows place execution here
  have used : place < view.executions := by
    by_contra outside
    rw [(sound.unused place (Nat.le_of_not_lt outside)).1] at here
    contradiction
  have count := before.popped
  have told := before.endings
  rw [unended] at count told
  have untold : view.endings place = [] := List.length_eq_zero_iff.mp told
  obtain ⟨running, distinct, unknown, unprocessed, allotted, owned, unused, follows, alone,
    stopping, stopped⟩ := sound
  constructor
  case follows =>
    intro other following executes
    by_cases same : other = place
    · subst same
      obtain rfl : { execution with phase := .ended } = following := by
        simpa [View.setPhase] using executes
      exact ⟨before.known, before.named, before.given,
        by simp [View.setPhase, View.pop, Phase.isEnded],
        by simpa [View.setPhase, View.pop, View.tell, Phase.isEnded] using count,
        by simp [View.setPhase, View.pop, View.tell, Phase.isEnded, untold],
        trivial, fun _ => rfl,
        fun aborting => by
          simpa [View.setPhase, View.pop, View.tell, untold] using fails aborting⟩
    · have executes : view.execution other = some following := by
        simpa [View.setPhase, View.pop, View.tell, same] using executes
      have after := follows other following executes
      have differ : following.task ≠ execution.task := fun sameTask =>
        same (alone other place following execution executes here sameTask)
      have otherId : following.task_id ≠ execution.task_id := by
        intro sameId
        exact differ (distinct _ _ after.known before.known
          (by rw [after.named, before.named, sameId]))
      refine after.frame (Nat.le_refl _) rfl ?_ ?_ ?_ (Goes.refl _)
      · simp [View.setPhase, View.pop, View.tell, otherId]
      · simp [View.setPhase, View.pop, View.tell, differ]
      · simp [View.setPhase, View.pop, View.tell, same]
  case stopped => exact stopped
  all_goals
    have known := before.known
    have named := before.named
    simp only [View.setPhase, View.pop, View.tell, Function.update_apply]
  all_goals grind

end

end

end View

end N8n.PythonRunner
