import Mathlib.Data.List.Perm.Basic
import N8n.Concurrency.ConcurrencyQueue

/-! The concurrency limit over whole runs of the queue.
`dequeue` and `enqueue` keep it; `remove` lets a waiting execution through although no
running execution has ended, so it keeps the limit only when nothing else waits.
-/

namespace N8n.Concurrency

open N8n.Runs

/-- The calls that the rest of the program makes on one queue. -/
inductive Call where
  | enqueue (executionId : String)
  | dequeue
  | remove (executionId : String)
  deriving DecidableEq, Repr

/-- A queue with the number of executions let through and not yet released. -/
structure System where
  queue : ConcurrencyQueue
  running : Nat
  deriving DecidableEq, Repr

variable {self next : System} {action : Call} {limit : Nat}

namespace System

def start (limit : Nat) : System := ⟨.new limit, 0⟩

def settle (running : Nat) (outcome : Outcome) : System :=
  ⟨outcome.queue, running + outcome.letThrough.length⟩

/-- A call of a program that releases each execution let through at most once: `dequeue`
needs an execution that still runs.
-/
def call (self : System) : Call → Option System
  | .enqueue executionId => some (settle self.running (self.queue.enqueue executionId))
  | .dequeue =>
      if self.running = 0 then none
      else some (settle (self.running - 1) self.queue.dequeue)
  | .remove executionId => some (settle self.running (self.queue.remove executionId))

/-- At most `limit` executions run, and the negative capacity counts the waiting ones. -/
def WithinLimit (limit : Nat) (self : System) : Prop :=
  self.running ≤ limit ∧ (self.queue.queue.length : Int) = max 0 (-self.queue.capacity)

instance (limit : Nat) (self : System) : Decidable (self.WithinLimit limit) :=
  inferInstanceAs (Decidable (_ ∧ _))

/-- A `remove` that hits a waiting execution hits the only one. -/
def RemovesOnlyWaiter (self : System) : Call → Prop
  | .remove executionId =>
      self.queue.has executionId = true → self.queue.queue.length = 1
  | _ => True

/-- The capacity is what the running and the waiting executions leave of the limit.
Every call keeps this balance, also those that break the limit.
-/
def Balanced (limit : Nat) (self : System) : Prop :=
  self.queue.capacity = limit - self.running - self.queue.queue.length

theorem start_balanced (limit : Nat) : (start limit).Balanced limit := by
  simp [Balanced, start, ConcurrencyQueue.new]

theorem start_withinLimit (limit : Nat) : (start limit).WithinLimit limit := by
  simp only [WithinLimit, start, ConcurrencyQueue.new, List.length_nil]
  omega

/-- After `resolveNext`, running and waiting executions add up to what they were. -/
theorem settle_resolveNext (running : Nat) (queue : ConcurrencyQueue)
    : (settle running queue.resolveNext).running
          + (settle running queue.resolveNext).queue.queue.length
        = running + queue.queue.length
      ∧ (settle running queue.resolveNext).queue.capacity = queue.capacity
      ∧ (settle running queue.resolveNext).running
          = running + min 1 queue.queue.length := by
  have moved := queue.resolveNext_length
  have resolved := queue.resolveNext_letThrough
  refine ⟨?_, queue.resolveNext_capacity, ?_⟩ <;> simp only [settle] <;> omega

/-- What an allowed `enqueue` or `dequeue` does to the counts, and what `remove` does to
them when it hits (`hit`) or misses the queue.
-/
theorem call_counts (taken : self.call action = some next)
    : match action with
      | .enqueue _ =>
          next.queue.capacity = self.queue.capacity - 1
          ∧ (self.queue.capacity ≤ 0
              ∧ next.running = self.running
              ∧ next.queue.queue.length = self.queue.queue.length + 1
            ∨ 0 < self.queue.capacity
              ∧ next.running = self.running + 1
              ∧ next.queue.queue.length = self.queue.queue.length)
      | .dequeue =>
          next.queue.capacity = self.queue.capacity + 1
          ∧ next.running + 1 = self.running + min 1 self.queue.queue.length
          ∧ next.running + 1 + next.queue.queue.length
            = self.running + self.queue.queue.length
      | .remove executionId =>
          if self.queue.has executionId then
            0 < self.queue.queue.length
            ∧ next.queue.capacity = self.queue.capacity + 1
            ∧ next.running = self.running + min 1 (self.queue.queue.length - 1)
            ∧ next.running + next.queue.queue.length + 1
              = self.running + self.queue.queue.length
          else next = self := by
  cases action with
  | enqueue executionId =>
      have same := Option.some.inj taken
      subst same
      by_cases full : self.queue.capacity - 1 < 0
      · simp only [settle, ConcurrencyQueue.enqueue, full, if_true, List.length_append,
          List.length_singleton, List.length_nil, Nat.add_zero, true_and, and_true]
        exact Or.inl (by omega)
      · simp only [settle, ConcurrencyQueue.enqueue, full, if_false, List.length_singleton,
          true_and, and_true]
        exact Or.inr (by omega)
  | dequeue =>
      by_cases idle : self.running = 0
      · simp [call, idle] at taken
      · have same : settle (self.running - 1) self.queue.dequeue = next := by
          simpa [call, idle] using taken
        subst same
        obtain ⟨total, capacity, started⟩ := settle_resolveNext (self.running - 1)
          ⟨self.queue.capacity + 1, self.queue.queue⟩
        dsimp only at total capacity started
        exact ⟨capacity, by unfold ConcurrencyQueue.dequeue; omega,
          by unfold ConcurrencyQueue.dequeue; omega⟩
  | remove executionId =>
      have same := Option.some.inj taken
      subst same
      cases waiting : self.queue.has executionId with
      | false => simp [ConcurrencyQueue.remove_of_not_has waiting, settle, waiting]
      | true =>
          obtain ⟨index, bound, removed⟩ := ConcurrencyQueue.remove_of_has waiting
          have shorter := List.length_eraseIdx_of_lt bound
          obtain ⟨total, capacity, started⟩ := settle_resolveNext self.running
            ⟨self.queue.capacity + 1, self.queue.queue.eraseIdx index⟩
          dsimp only at total capacity started
          simp only [removed, waiting, if_true]
          rw [shorter] at total started
          exact ⟨by omega, capacity, started, by omega⟩

theorem call_balanced (balanced : self.Balanced limit) (taken : self.call action = some next)
    : next.Balanced limit := by
  have counts := call_counts taken
  unfold Balanced at *
  cases action with
  | remove executionId =>
      dsimp only at counts
      split at counts
      · omega
      · exact counts ▸ balanced
  | _ => dsimp only at counts; omega

/-- In a balanced state the limit is kept exactly when a waiting execution means that
`limit` executions run.
-/
theorem withinLimit_iff (balanced : self.Balanced limit)
    : self.WithinLimit limit
      ↔ self.running ≤ limit ∧ (0 < self.queue.queue.length → self.running = limit) := by
  unfold WithinLimit Balanced at *
  omega

/-- Every call except a `remove` that leaves others waiting keeps the limit. -/
theorem call_withinLimit (balanced : self.Balanced limit) (within : self.WithinLimit limit)
    (allowed : self.RemovesOnlyWaiter action) (taken : self.call action = some next)
    : next.WithinLimit limit := by
  rw [withinLimit_iff (call_balanced balanced taken)]
  rw [withinLimit_iff balanced] at within
  have counts := call_counts taken
  unfold Balanced at balanced
  cases action with
  | remove executionId =>
      dsimp only at counts
      split at counts
      · next waiting =>
          have single := allowed waiting
          omega
      · exact counts ▸ within
  | _ => dsimp only at counts; omega

/-- A `remove` that hits while others wait breaks the limit at once: it resolves a
promise and shortens the queue by two, but returns the capacity of one execution.
-/
theorem removesOnlyWaiter_of_withinLimit (within : self.WithinLimit limit)
    (taken : self.call action = some next) (after : next.WithinLimit limit)
    : self.RemovesOnlyWaiter action := by
  have counts := call_counts taken
  cases action with
  | remove executionId =>
      intro waiting
      unfold WithinLimit at *
      simp only [waiting, if_true] at counts
      omega
  | _ => trivial

/-- A run keeps the limit in every state exactly when each of its `remove` calls that
hits a waiting execution hits the only one.
-/
theorem withinLimit_iff_removesOnlyWaiter (limit : Nat) (calls : List Call)
    : (∀ taken, taken <+: calls → ∀ reached, run call (start limit) taken = some reached
          → reached.WithinLimit limit)
      ↔ Along call RemovesOnlyWaiter (start limit) calls := by
  refine throughout_iff_prefix.symm.trans ⟨?_, ?_⟩
  · refine along_of_throughout (fun _ => True) (fun _ _ _ _ _ => trivial) ?_
      trivial
    exact fun self action next _ => removesOnlyWaiter_of_withinLimit
  · intro along
    have kept : Throughout call (fun self => self.Balanced limit ∧ self.WithinLimit limit)
        (start limit) calls := by
      refine throughout_of_preserved ?_ ⟨start_balanced limit, start_withinLimit limit⟩ along
      intro self action next both allowed taken
      exact ⟨call_balanced both.1 taken, call_withinLimit both.1 both.2 allowed taken⟩
    exact kept.mono (fun self both => both.2)

/-- One of two waiting executions is stopped while a third runs at limit 1: the other
one starts, and two run.
-/
theorem remove_exceeds_limit
    : ∃ reached,
        run call (start 1) [.enqueue "3", .enqueue "4", .enqueue "5", .remove "4"]
          = some reached
        ∧ reached.running = 2
        ∧ reached.queue.capacity = -1
        ∧ reached.queue.queue = []
        ∧ ¬reached.WithinLimit 1 := by
  refine ⟨⟨⟨-1, []⟩, 2⟩, ?_, rfl, rfl, rfl, ?_⟩ <;> decide

end System

/-! ### Order -/

def Call.enqueued : Call → List String
  | .enqueue executionId => [executionId]
  | _ => []

namespace ConcurrencyQueue

def answer (self : ConcurrencyQueue) : Call → Outcome
  | .enqueue executionId => self.enqueue executionId
  | .dequeue => self.dequeue
  | .remove executionId => self.remove executionId

/-- The executions that the calls let through, in order, and the queue after them. -/
def answerAll (self : ConcurrencyQueue) : List Call → List String × ConcurrencyQueue
  | [] => ([], self)
  | call :: rest =>
      let (letThrough, last) := (self.answer call).queue.answerAll rest
      ((self.answer call).letThrough ++ letThrough, last)

/-- Executions wait only when the capacity is used up by those before them. -/
def Waits (self : ConcurrencyQueue) : Prop :=
  self.queue ≠ [] → self.capacity + self.queue.length ≤ 0

/-- (InOrder before enqueued removed after) requires that executions leave in the order in which
they came, and that all are there but those that are removed.
-/
def InOrder (before enqueued : List String) (removed : String → Nat) (after : List String)
    : Prop :=
  after.Sublist (before ++ enqueued)
    ∧ ∀ executionId, (before ++ enqueued).count executionId
        ≤ after.count executionId + removed executionId

theorem resolveNext_waits (capacity : Int) (queue : List String)
    (waits : queue ≠ [] → capacity + queue.length ≤ 1)
    : let outcome := resolveNext ⟨capacity, queue⟩
      outcome.queue.Waits ∧ outcome.letThrough ++ outcome.queue.queue = queue := by
  cases queue with
  | nil => exact ⟨absurd rfl, rfl⟩
  | cons first rest =>
      have full := waits (List.cons_ne_nil first rest)
      simp only [List.length_cons] at full
      exact ⟨fun _ => by dsimp only [resolveNext]; omega, rfl⟩

theorem answer_inOrder {self : ConcurrencyQueue} (waits : self.Waits) (call : Call)
    : (self.answer call).queue.Waits
      ∧ InOrder self.queue call.enqueued (fun executionId => [call].count (.remove executionId))
          ((self.answer call).letThrough ++ (self.answer call).queue.queue) := by
  cases call with
  | enqueue executionId =>
      simp only [answer, enqueue]
      split
      · refine ⟨fun _ => ?_, by simp [InOrder, Call.enqueued]⟩
        by_cases none : self.queue = []
        · simp [none]
          omega
        · have full := waits none
          simp
          omega
      · have none : self.queue = [] := by
          by_contra waiting
          have full := waits waiting
          omega
        simp [Waits, InOrder, Call.enqueued, none]
  | dequeue =>
      obtain ⟨later, same⟩ := resolveNext_waits (self.capacity + 1) self.queue (fun waiting => by
        have full := waits waiting
        omega)
      exact ⟨later, by rw [answer, dequeue, same]; simp [InOrder, Call.enqueued]⟩
  | remove executionId =>
      simp only [answer, remove]
      split
      · next index found =>
          obtain ⟨inside, isIt, -⟩ := List.findIdx?_eq_some_iff_getElem.mp found
          have fewer := List.length_eraseIdx_of_lt inside
          obtain ⟨later, same⟩ := resolveNext_waits (self.capacity + 1)
            (self.queue.eraseIdx index) (fun _ => by
              have full := waits (List.ne_nil_of_length_pos (by omega))
              omega)
          refine ⟨later, ?_⟩
          rw [same]
          refine ⟨by simpa [Call.enqueued] using List.eraseIdx_sublist _ _, fun other => ?_⟩
          have counted := (List.getElem_cons_eraseIdx_perm inside).count_eq other
          simp [Call.enqueued, ← counted, beq_iff_eq.mp isIt, List.count_cons]
      · exact ⟨waits, by simp [InOrder, Call.enqueued]⟩

/-- Executions are let through in the order in which they were enqueued, and none is lost but by a
call that removes it.
-/
theorem answerAll_inOrder (limit : Nat) (calls : List Call)
    : let (letThrough, last) := (new limit).answerAll calls
      InOrder [] (calls.flatMap Call.enqueued) (fun executionId => calls.count (.remove executionId))
        (letThrough ++ last.queue) := by
  suffices ∀ self : ConcurrencyQueue, self.Waits
      → InOrder self.queue (calls.flatMap Call.enqueued)
          (fun executionId => calls.count (.remove executionId))
          ((self.answerAll calls).1 ++ (self.answerAll calls).2.queue) from
    this (new limit) (absurd rfl)
  induction calls with
  | nil => simp [InOrder, answerAll]
  | cons call rest ih =>
      intro self waits
      obtain ⟨later, order, kept⟩ := answer_inOrder waits call
      obtain ⟨orderRest, keptRest⟩ := ih _ later
      simp only [answerAll, List.flatMap_cons, List.append_assoc, InOrder]
      rw [← List.append_assoc self.queue]
      refine ⟨(orderRest.append_left _).trans ?_, fun executionId => ?_⟩
      · rw [← List.append_assoc]
        exact order.append_right _
      · have first := kept executionId
        have second := keptRest executionId
        rw [← List.singleton_append, List.count_append]
        simp only [List.count_append] at first second ⊢
        omega

end ConcurrencyQueue

end N8n.Concurrency
