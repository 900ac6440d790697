import N8n.Utils.CircuitBreaker
import Mathlib.Data.List.Induction
import Mathlib.Data.List.Perm.Basic

/-! What the sliding window has dropped never changes the verdict on its threshold: a dropped
event has expired, or as many later events as the threshold asks for are still there.
-/

namespace N8n.Utils

/-- The calls on a window, each with the time it is made at. -/
inductive WindowCall where
  | addEvent (timestamp : Int)
  | getCount (now : Int)

namespace WindowCall

def time : WindowCall → Int
  | addEvent timestamp => timestamp
  | getCount now => now

def added? : WindowCall → Option Int
  | addEvent timestamp => some timestamp
  | getCount _ => none

end WindowCall

namespace SlidingWindow

def call (self : SlidingWindow) : WindowCall → SlidingWindow
  | .addEvent timestamp => self.addEvent timestamp
  | .getCount now => self.expire now

/-- The number of events from `start` on. -/
def countFrom (start : Int) (timestamps : List Int) : Nat := timestamps.countP (start ≤ ·)

/-- (Remembers window added now) requires that every window still to come counts in the stored
events what it counts in the events `added`, or `maxEvents` at least.
-/
structure Remembers (window : SlidingWindow) (added : List Int) (now : Int) : Prop where
  sorted : window.eventTimestamps.Pairwise (· ≤ ·)
  past : ∀ timestamp ∈ window.eventTimestamps, timestamp ≤ now
  fewer (start : Int) : countFrom start window.eventTimestamps ≤ countFrom start added
  enough : ∀ start ≥ now - window.durationMs,
    window.maxEvents ≤ countFrom start window.eventTimestamps
      ∨ countFrom start window.eventTimestamps = countFrom start added

variable {self : SlidingWindow} {added : List Int} {last now : Int}

theorem Remembers.mono (holds : self.Remembers added last) (later : last ≤ now)
    : self.Remembers added now where
  sorted := holds.sorted
  past timestamp member := Int.le_trans (holds.past timestamp member) later
  fewer := holds.fewer
  enough start isLater := holds.enough start (by omega)

theorem countFrom_expire {start : Int} (isLater : start ≥ now - self.durationMs)
    : countFrom start (self.expire now).eventTimestamps
      = countFrom start self.eventTimestamps := by
  simp only [countFrom, expire, List.countP_filter]
  refine List.countP_congr (fun timestamp _ => ?_)
  simp only [ge_iff_le, Bool.and_eq_true, decide_eq_true_eq]
  omega

theorem remembers_expire (holds : self.Remembers added now)
    : (self.expire now).Remembers added now where
  sorted := holds.sorted.filter _
  past timestamp member := holds.past timestamp (List.mem_of_mem_filter member)
  fewer start := Nat.le_trans List.filter_sublist.countP_le (holds.fewer start)
  enough start isLater := by
    have same : countFrom start (self.expire now).eventTimestamps = _ := countFrom_expire isLater
    exact same ▸ holds.enough start isLater

/-- The last `kept` events of a sorted list miss none of a window that counts fewer. -/
theorem countFrom_drop {timestamps : List Int} (sorted : timestamps.Pairwise (· ≤ ·))
    (start : Int) (kept : Nat) (full : kept ≤ timestamps.length)
    : kept ≤ countFrom start (timestamps.drop (timestamps.length - kept))
      ∨ countFrom start (timestamps.drop (timestamps.length - kept))
        = countFrom start timestamps := by
  have parts := List.take_append_drop (timestamps.length - kept) timestamps
  rw [← parts] at sorted
  by_cases early : ∀ old ∈ timestamps.take (timestamps.length - kept), ¬ start ≤ old
  · right
    have none : countFrom start (timestamps.take (timestamps.length - kept)) = 0 :=
      List.countP_eq_zero.mpr (by simpa using early)
    have counted := congrArg (countFrom start) parts
    simp only [countFrom, List.countP_append] at none counted ⊢
    omega
  · left
    push Not at early
    obtain ⟨old, isOld, isLater⟩ := early
    rw [countFrom, List.countP_eq_length.mpr, List.length_drop]
    · omega
    · intro timestamp member
      have := (List.pairwise_append.mp sorted).2.2 old isOld timestamp member
      simp only [decide_eq_true_eq]
      omega

theorem remembers_addEvent (holds : self.Remembers added now)
    : (self.addEvent now).Remembers (added ++ [now]) now := by
  have pushed : { self with eventTimestamps := self.eventTimestamps ++ [now] }.Remembers
      (added ++ [now]) now := by
    refine ⟨?_, ?_, fun start => ?_, fun start isLater => ?_⟩
    · simpa [List.pairwise_append, holds.sorted] using holds.past
    · simpa [or_imp, forall_and] using holds.past
    · simpa [countFrom, List.countP_append] using holds.fewer start
    · have := holds.enough start isLater
      simp only [countFrom, List.countP_append] at this ⊢
      omega
  unfold addEvent
  dsimp only
  split_ifs with full
  · refine ⟨pushed.sorted.sublist (List.drop_sublist _ _),
      fun timestamp member => pushed.past timestamp (List.mem_of_mem_drop member),
      fun start => Nat.le_trans (List.drop_sublist _ _).countP_le (pushed.fewer start),
      fun start isLater => ?_⟩
    have := pushed.enough start isLater
    have := countFrom_drop pushed.sorted start (self.maxEvents * 2) (Nat.le_of_lt full.1)
    dsimp only at *
    omega
  · exact pushed

theorem getCount_eq_countFrom (window : SlidingWindow) (now : Int)
    : window.getCount now = countFrom (now - window.durationMs) window.eventTimestamps :=
  List.countP_eq_length_filter.symm

theorem settings_foldl (calls : List WindowCall) (self : SlidingWindow)
    : (calls.foldl call self).maxEvents = self.maxEvents
      ∧ (calls.foldl call self).durationMs = self.durationMs := by
  induction calls generalizing self with
  | nil => exact ⟨rfl, rfl⟩
  | cons first rest ih =>
      have same : (self.call first).maxEvents = self.maxEvents
          ∧ (self.call first).durationMs = self.durationMs := by
        cases first with
        | addEvent timestamp => unfold call addEvent; dsimp only; split_ifs <;> exact ⟨rfl, rfl⟩
        | getCount now => exact ⟨rfl, rfl⟩
      exact ⟨(ih _).1.trans same.1, (ih _).2.trans same.2⟩

theorem remembers_foldl (calls : List WindowCall) (maxEvents : Nat) (durationMs : Int)
    (inOrder : (calls.map WindowCall.time ++ [now]).Pairwise (· ≤ ·))
    : (calls.foldl call ⟨maxEvents, durationMs, []⟩).Remembers
        (calls.filterMap WindowCall.added?) now := by
  induction calls using List.reverseRecOn generalizing now with
  | nil => exact ⟨.nil, by simp, fun _ => Nat.le_refl _, fun _ _ => .inr rfl⟩
  | append_singleton calls last ih =>
      rw [List.map_append] at inOrder
      obtain ⟨inOrder, -, before⟩ := List.pairwise_append.mp inOrder
      have holds := ih inOrder
      have later : last.time ≤ now := before _ (by simp) now (by simp)
      rw [List.foldl_append, List.filterMap_append]
      cases last with
      | addEvent timestamp => exact (remembers_addEvent holds).mono later
      | getCount now =>
          rw [show [WindowCall.getCount now].filterMap WindowCall.added? = [] from rfl,
            List.append_nil]
          exact (remembers_expire holds).mono later

variable (calls : List WindowCall)

/-- After any calls in the order of the clock, the threshold is reached in the window exactly
when it is among all the events ever added.
-/
theorem getCount_reaches_iff (maxEvents : Nat) (durationMs now : Int)
    (inOrder : (calls.map WindowCall.time ++ [now]).Pairwise (· ≤ ·))
    : (calls.foldl call ⟨maxEvents, durationMs, []⟩).getCount now ≥ maxEvents
      ↔ ((calls.filterMap WindowCall.added?).filter
          (fun timestamp => now - durationMs ≤ timestamp ∧ timestamp ≤ now)).length
        ≥ maxEvents := by
  have holds := remembers_foldl calls maxEvents durationMs inOrder
  obtain ⟨sameMax, sameDuration⟩ := settings_foldl calls ⟨maxEvents, durationMs, []⟩
  have counted
      : ((calls.filterMap WindowCall.added?).filter
          (fun timestamp => now - durationMs ≤ timestamp ∧ timestamp ≤ now)).length
        = countFrom (now - durationMs) (calls.filterMap WindowCall.added?) := by
    rw [countFrom, List.countP_eq_length_filter]
    refine congrArg List.length (List.filter_congr (fun timestamp member => ?_))
    obtain ⟨call, isCall, adds⟩ := List.mem_filterMap.mp member
    have isPast := (List.pairwise_append.mp inOrder).2.2 call.time
      (List.mem_map_of_mem isCall) now (List.mem_singleton_self now)
    cases call with
    | getCount now => cases adds
    | addEvent timestamp =>
        cases adds
        simp [show timestamp ≤ now from isPast]
  dsimp only at sameMax sameDuration
  have enough := holds.enough (now - durationMs) (by omega)
  have fewer := holds.fewer (now - durationMs)
  rw [counted, getCount_eq_countFrom, sameDuration]
  omega

theorem getCount_reaches_iff_three
    : (([.addEvent 0, .addEvent 3, .getCount 3, .addEvent 4] : List WindowCall).foldl call
        ⟨1, 2, []⟩).getCount 5 ≥ 1 :=
  (getCount_reaches_iff [.addEvent 0, .addEvent 3, .getCount 3, .addEvent 4] 1 2 5
    (by decide)).mpr (by decide)

end SlidingWindow

end N8n.Utils
