import N8n.Library.Runs

/-! The queue that throttles executions above a concurrency limit
(`packages/cli/src/concurrency/concurrency-queue.ts`).
-/

namespace N8n.Concurrency

/-- What the queue emits to its listeners. -/
inductive ConcurrencyEvent where
  | executionThrottled (executionId : String)
  | executionReleased (executionId : String)
  | concurrencyCheck (capacity : Int)
  deriving DecidableEq, Repr

/-- `queue` lists the waiting `enqueue` calls, whose promises are still unresolved.
Two calls may carry the same execution id.
-/
structure ConcurrencyQueue where
  capacity : Int
  queue : List String
  deriving DecidableEq, Repr

/-- The result of one call: the queue after it, what it emitted, and the execution ids
of the `enqueue` promises it resolved.
-/
structure Outcome where
  queue : ConcurrencyQueue
  events : List ConcurrencyEvent
  letThrough : List String
  deriving DecidableEq, Repr

namespace ConcurrencyQueue

def new (capacity : Int) : ConcurrencyQueue := ⟨capacity, []⟩

def enqueue (self : ConcurrencyQueue) (executionId : String) : Outcome :=
  let capacity := self.capacity - 1
  if capacity < 0 then
    {
      queue := ⟨capacity, self.queue ++ [executionId]⟩
      events := [.concurrencyCheck capacity, .executionThrottled executionId]
      letThrough := []
    }
  else
    {
      queue := ⟨capacity, self.queue⟩
      events := [.concurrencyCheck capacity]
      letThrough := [executionId]
    }

def resolveNext (self : ConcurrencyQueue) : Outcome :=
  match self.queue with
  | [] => ⟨self, [], []⟩
  | executionId :: rest =>
      ⟨⟨self.capacity, rest⟩, [.executionReleased executionId], [executionId]⟩

def dequeue (self : ConcurrencyQueue) : Outcome :=
  resolveNext ⟨self.capacity + 1, self.queue⟩

def remove (self : ConcurrencyQueue) (executionId : String) : Outcome :=
  match self.queue.findIdx? (· == executionId) with
  | some index => resolveNext ⟨self.capacity + 1, self.queue.eraseIdx index⟩
  | none => ⟨self, [], []⟩

def getAll (self : ConcurrencyQueue) : List String := self.queue.dedup

def has (self : ConcurrencyQueue) (executionId : String) : Bool :=
  self.queue.any (· == executionId)

/-- A waiting execution is removed and the head of what remains is let through. -/
theorem remove_of_has {self : ConcurrencyQueue} {executionId : String}
    (waiting : self.has executionId = true)
    : ∃ index < self.queue.length,
        self.remove executionId
          = resolveNext ⟨self.capacity + 1, self.queue.eraseIdx index⟩ := by
  cases found : self.queue.findIdx? (· == executionId) with
  | none =>
      rw [List.findIdx?_eq_none_iff] at found
      obtain ⟨queued, member, same⟩ := List.any_eq_true.mp waiting
      simp [found queued member] at same
  | some index =>
      obtain ⟨bound, _⟩ := List.findIdx?_eq_some_iff_getElem.mp found
      exact ⟨index, bound, by simp [remove, found]⟩

theorem remove_of_not_has {self : ConcurrencyQueue} {executionId : String}
    (absent : self.has executionId = false)
    : self.remove executionId = ⟨self, [], []⟩ := by
  have found : self.queue.findIdx? (· == executionId) = none := by
    rw [List.findIdx?_eq_none_iff]
    intro queued member
    exact Bool.eq_false_iff.mpr (List.any_eq_false.mp absent queued member)
  simp [remove, found]

@[simp] theorem resolveNext_capacity (self : ConcurrencyQueue)
    : self.resolveNext.queue.capacity = self.capacity := by
  unfold resolveNext
  split <;> rfl

/-- Every promise that `resolveNext` resolves leaves the queue, and none else does. -/
theorem resolveNext_length (self : ConcurrencyQueue)
    : self.resolveNext.queue.queue.length + self.resolveNext.letThrough.length
      = self.queue.length := by
  unfold resolveNext
  split <;> simp_all

theorem resolveNext_letThrough (self : ConcurrencyQueue)
    : self.resolveNext.letThrough.length = min 1 self.queue.length := by
  unfold resolveNext
  split <;> simp_all

end ConcurrencyQueue

end N8n.Concurrency
