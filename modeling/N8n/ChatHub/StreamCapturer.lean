import Mathlib.Data.List.Perm.Basic
import N8n.Library.Dict
import N8n.Library.Histories
import N8n.Library.Runs

/-! Chunks of a chat stream gathered into messages
(`packages/cli/src/modules/chat-hub/stream-capturer.ts`). Chunks are handed over one after
another; `cancelAll` may be called at any time, and any handler may fail.
-/

namespace N8n.ChatHub

open N8n.Histories N8n.Runs

/-! ### Chunks and messages -/

/-- Any other type is taken for an error. -/
inductive ChunkType where
  | begin
  | item
  | «end»
  | error
  deriving DecidableEq, Repr

structure ChunkMetadata where
  nodeId : String
  runIndex : Nat
  itemIndex : Nat
  deriving DecidableEq, Repr

structure StructuredChunk where
  type : ChunkType
  content : Option String
  metadata : ChunkMetadata
  deriving DecidableEq, Repr

def keyOf (metadata : ChunkMetadata) : String :=
  metadata.nodeId ++ "|" ++ toString metadata.runIndex ++ "|" ++ toString metadata.itemIndex

variable {chunk : StructuredChunk}

namespace StructuredChunk

def key (self : StructuredChunk) : String := keyOf self.metadata

/-- The message of the chunk ends with it. -/
def Ends (self : StructuredChunk) : Prop := self.type = .«end» ∨ self.type = .error

instance (self : StructuredChunk) : Decidable self.Ends :=
  inferInstanceAs (Decidable (_ ∨ _))

theorem not_ends_of_begin (isBegin : chunk.type = .begin)
    : ¬ chunk.Ends := by
  simp [Ends, isBegin]

theorem not_ends_of_item (isItem : chunk.type = .item)
    : ¬ chunk.Ends := by
  simp [Ends, isItem]

/-- What an item adds to its message. -/
def delta? (self : StructuredChunk) : Option String :=
  if self.type = .item then self.content.filter (fun content => content ≠ "") else none

end StructuredChunk

inductive ChatHubMessageStatus where
  | running
  | success
  | error
  | cancelled
  deriving DecidableEq, Repr

structure AggregatedMessage where
  id : String
  previousMessageId : String
  retryOfMessageId : Option String
  content : String
  status : ChatHubMessageStatus
  deriving DecidableEq, Repr

/-- What the aggregator is made for; `uuidv4` gives the ids of the messages in turn. -/
structure Stream where
  initialPreviousMessageId : String
  retryOfMessageId : Option String
  uuidv4 : Nat → String

/-! ### The aggregator -/

/-- Messages are told by their numbers in the order of their creation. -/
inductive HandlerCall where
  | onBegin (message : Nat)
  | onItem (message : Nat) (delta : String)
  | onEnd (message : Nat)
  | onError (message : Nat) (errText : Option String)
  | onCancel (message : Nat)
  deriving DecidableEq, Repr

/-- An `ingest` at one of its waits: for `onBegin`, for `ensureMessage` with a message that is
registered, or for the handler that it calls last.
-/
inductive Ingest where
  | announcing (chunk : StructuredChunk) (message : Nat)
  | ensured (chunk : StructuredChunk) (message : Nat)
  | calling
  deriving DecidableEq, Repr

/-- `cancels` has, for each `cancelAll` that waits for `onCancel`, the messages left to it;
`rejected` tells that one has failed. `since` has, for each message, its key and the chunks
that were handed over from its first one on; what is handed over once `cancelAll` has been
called is ignored.
-/
structure System where
  activeByKey : Dict String Nat
  cancelled : Bool
  previousMessageId : String
  messages : List AggregatedMessage
  running : Option Ingest
  cancels : List (List Nat)
  rejected : Bool
  calls : List HandlerCall
  since : List (String × List StructuredChunk)
  deriving DecidableEq

/-- `fails` tells that the handler that is waited for fails. -/
inductive Action where
  | ingest (chunk : StructuredChunk)
  | resume (fails : Bool)
  | cancelAll
  | resumeCancel (place : Nat) (fails : Bool)
  deriving DecidableEq, Repr

namespace System

def start (stream : Stream) : System where
  activeByKey := .empty
  cancelled := false
  previousMessageId := stream.initialPreviousMessageId
  messages := []
  running := none
  cancels := []
  rejected := false
  calls := []
  since := []

def handOver (self : System) (chunk : StructuredChunk) : System :=
  {
    self with
    since := self.since.map (fun entry => (entry.1, entry.2 ++ [chunk]))
  }

/-- `startNew`, up to its wait. -/
def startNew (stream : Stream) (self : System) (chunk : StructuredChunk) : System :=
  let id := stream.uuidv4 self.messages.length
  let message : AggregatedMessage :=
    {
      id
      previousMessageId := self.previousMessageId
      retryOfMessageId :=
        if self.previousMessageId = stream.initialPreviousMessageId then
          stream.retryOfMessageId.filter (fun retried => retried ≠ "")
        else none
      content := ""
      status := .running
    }
  {
    self with
    previousMessageId := id
    messages := self.messages ++ [message]
    running := some (.announcing chunk self.messages.length)
    calls := self.calls ++ [.onBegin self.messages.length]
    since := self.since ++ [(chunk.key, [chunk])]
  }

def await (self : System) (ingest : Ingest) : System := { self with running := some ingest }

/-- `ingest`, up to its first wait. A second begin of a key throws. -/
def ingest (stream : Stream) (self : System) (chunk : StructuredChunk) : System :=
  if self.cancelled then self
  else
    match self.activeByKey.get? chunk.key with
    | none => (self.handOver chunk).startNew stream chunk
    | some message =>
        if chunk.type = .begin then self.handOver chunk
        else (self.handOver chunk).await (.ensured chunk message)

def update (self : System) (message : Nat) (change : AggregatedMessage → AggregatedMessage)
    : System :=
  { self with messages := self.messages.modify message change }

/-- Calls a handler and waits for it. -/
def call (self : System) (handlerCall : HandlerCall) : System :=
  { self with running := some .calling, calls := self.calls ++ [handlerCall] }

def withError (content : Option String) (message : AggregatedMessage) : AggregatedMessage :=
  {
    message with
    status := .error
    content :=
      match content with
      | some errText =>
          (if message.content = "" then "" else message.content ++ "\n\n") ++ errText
      | none => message.content
  }

/-- `ingest` of a chunk after `ensureMessage`, up to its last wait. -/
def proceed (self : System) (chunk : StructuredChunk) (message : Nat) : System :=
  match chunk.type with
  | .begin => { self with running := none }
  | .item =>
      match chunk.delta? with
      | some delta =>
          (self.update message (fun message =>
            { message with content := message.content ++ delta })).call (.onItem message delta)
      | none => { self with running := none }
  | .«end» =>
      let ended := self.update message (fun message => { message with status := .success })
      { ended with activeByKey := ended.activeByKey.delete chunk.key }.call (.onEnd message)
  | .error =>
      let ended := self.update message (withError chunk.content)
      { ended with activeByKey := ended.activeByKey.delete chunk.key }.call
        (.onError message chunk.content)

/-- The running `ingest` goes on to its next wait. Without a handler, no wait fails. -/
def resume (self : System) (fails : Bool) : Option System :=
  match self.running with
  | none => none
  | some (.announcing chunk message) =>
      if fails then some { self with running := none }
      else
        let registered := { self with activeByKey := self.activeByKey.set chunk.key message }
        if chunk.type = .begin then some { registered with running := none }
        else some (registered.await (.ensured chunk message))
  | some (.ensured chunk message) =>
      if fails then none else some (self.proceed chunk message)
  | some .calling => some { self with running := none }

/-- The turn of the loop of `cancelAll` over the messages, up to its wait. -/
def cancelNext (self : System) (messages : List Nat) : System :=
  match messages with
  | [] => self
  | message :: rest =>
      let marked := self.update message (fun message => { message with status := .cancelled })
      {
        marked with
        calls := marked.calls ++ [.onCancel message]
        cancels := marked.cancels ++ [rest]
      }

def cancelAll (self : System) : System :=
  { self with cancelled := true, activeByKey := .empty }.cancelNext self.activeByKey.values

def resumeCancel (self : System) (place : Nat) (fails : Bool) : Option System :=
  self.cancels[place]?.map (fun messages =>
    let resumed := { self with cancels := self.cancels.eraseIdx place }
    if fails then { resumed with rejected := true } else resumed.cancelNext messages)

def step (stream : Stream) (self : System) : Action → Option System
  | .ingest chunk => if self.running = none then some (self.ingest stream chunk) else none
  | .resume fails => self.resume fails
  | .cancelAll => some self.cancelAll
  | .resumeCancel place fails => self.resumeCancel place fails

end System

/-! ### How messages end -/

namespace HandlerCall

def message : HandlerCall → Nat
  | .onBegin message => message
  | .onItem message _ => message
  | .onEnd message => message
  | .onError message _ => message
  | .onCancel message => message

def isEnding : HandlerCall → Bool
  | .onEnd _ => true
  | .onError _ _ => true
  | .onCancel _ => true
  | _ => false

def isItem : HandlerCall → Bool
  | .onItem _ _ => true
  | _ => false

end HandlerCall

/-- One of `onEnd`, `onError` and `onCancel` has been called for the message. -/
def Ended (calls : List HandlerCall) (message : Nat) : Prop :=
  ∃ call ∈ calls, call.isEnding = true ∧ call.message = message

instance (calls : List HandlerCall) (message : Nat) : Decidable (Ended calls message) :=
  inferInstanceAs (Decidable (∃ call ∈ calls, _))

/-- After a message has ended, it neither ends again nor gets an item. -/
def EndsOnce (calls : List HandlerCall) : Prop :=
  ∀ before call after, calls = before ++ call :: after → call.isEnding = true
    → ∀ later ∈ after, later.isEnding = true ∨ later.isItem = true
      → later.message ≠ call.message

variable {message : Nat} {call : HandlerCall}

theorem ended_snoc {calls : List HandlerCall}
    : Ended (calls ++ [call]) message
      ↔ Ended calls message ∨ (call.isEnding = true ∧ call.message = message) := by
  simp [Ended, or_and_right, exists_or]

theorem endsOnce_nil : EndsOnce [] := by
  intro before call after split
  simp at split

theorem endsOnce_snoc {calls : List HandlerCall} (once : EndsOnce calls)
    (fresh
      : call.isEnding = true ∨ call.isItem = true → ¬ Ended calls call.message)
    : EndsOnce (calls ++ [call]) := by
  intro before ending after split isEnding later member kind
  rcases split_snoc split with ⟨rfl, -, -⟩ | ⟨shorter, rfl, rfl⟩
  · contradiction
  · rcases List.mem_append.mp member with old | isNew
    · exact once before ending shorter rfl isEnding later old kind
    · obtain rfl := List.mem_singleton.mp isNew
      intro same
      exact fresh kind ⟨ending, by simp, isEnding, same.symm⟩

/-! ### Messages that wait for their end -/

/-- Of `count` messages, those that wait for their end have not got it, and the others have,
unless some were given up.
-/
structure Tally (waiting : List Nat) (calls : List HandlerCall) (count : Nat)
    (givenUp : Bool)
    : Prop where
  unique : waiting.Nodup
  created : ∀ message ∈ waiting, message < count
  notEnded : ∀ message ∈ waiting, ¬ Ended calls message
  known : ∀ call ∈ calls, call.message < count
  complete : givenUp = false → ∀ message < count, message ∈ waiting ∨ Ended calls message
  once : EndsOnce calls

namespace Tally

variable {waiting other : List Nat} {calls : List HandlerCall} {count : Nat} {givenUp : Bool}

theorem nil : Tally [] [] 0 givenUp where
  unique := List.nodup_nil
  created := by simp
  notEnded := by simp
  known := by simp
  complete := by simp
  once := endsOnce_nil

section

variable (tally : Tally waiting calls count givenUp)

include tally

theorem perm (same : waiting.Perm other)
    : Tally other calls count givenUp where
  unique := same.nodup_iff.mp tally.unique
  created message member := tally.created message (same.mem_iff.mpr member)
  notEnded message member := tally.notEnded message (same.mem_iff.mpr member)
  known := tally.known
  complete kept message before :=
    (tally.complete kept message before).imp_left (same.mem_iff.mp)
  once := tally.once

/-- A new message waits. -/
theorem begin
    : Tally (count :: waiting) (calls ++ [.onBegin count]) (count + 1) givenUp where
  unique := by
    refine List.nodup_cons.mpr ⟨fun member => ?_, tally.unique⟩
    exact Nat.lt_irrefl _ (tally.created count member)
  created message member := by
    rcases List.mem_cons.mp member with rfl | old
    · exact Nat.lt_succ_self _
    · exact Nat.lt_succ_of_lt (tally.created message old)
  notEnded message member := by
    rw [ended_snoc]
    rintro (ended | ⟨isEnding, -⟩)
    · rcases List.mem_cons.mp member with rfl | old
      · obtain ⟨call, there, -, same⟩ := ended
        exact Nat.ne_of_lt (tally.known call there) same
      · exact tally.notEnded message old ended
    · contradiction
  known call member := by
    rcases List.mem_append.mp member with old | isNew
    · exact Nat.lt_succ_of_lt (tally.known call old)
    · rw [List.mem_singleton.mp isNew]
      exact Nat.lt_succ_self _
  complete kept message before := by
    rcases Nat.lt_succ_iff_lt_or_eq.mp before with old | rfl
    · rcases tally.complete kept message old with waits | ended
      · exact .inl (.tail _ waits)
      · exact .inr (ended_snoc.mpr (.inl ended))
    · exact .inl (.head _)
  once := endsOnce_snoc tally.once (by rintro (isEnding | isItem) <;> contradiction)

theorem item {delta : String} (created : message < count) (open_ : ¬ Ended calls message)
    : Tally waiting (calls ++ [.onItem message delta]) count givenUp where
  unique := tally.unique
  created := tally.created
  notEnded other member := by
    rw [ended_snoc]
    rintro (ended | ⟨isEnding, -⟩)
    · exact tally.notEnded other member ended
    · contradiction
  known call member := by
    rcases List.mem_append.mp member with old | isNew
    · exact tally.known call old
    · rw [List.mem_singleton.mp isNew]
      exact created
  complete kept other before :=
    (tally.complete kept other before).imp_right (fun ended => ended_snoc.mpr (.inl ended))
  once := endsOnce_snoc tally.once (fun _ => open_)

end

theorem ending (tally : Tally (call.message :: waiting) calls count givenUp)
    (isEnding : call.isEnding = true)
    : Tally waiting (calls ++ [call]) count givenUp where
  unique := (List.nodup_cons.mp tally.unique).2
  created message member := tally.created message (.tail _ member)
  notEnded message member := by
    rw [ended_snoc]
    rintro (ended | ⟨-, same⟩)
    · exact tally.notEnded message (.tail _ member) ended
    · exact (List.nodup_cons.mp tally.unique).1 (same ▸ member)
  known other member := by
    rcases List.mem_append.mp member with old | isNew
    · exact tally.known other old
    · rw [List.mem_singleton.mp isNew]
      exact tally.created _ (.head _)
  complete kept message before := by
    rw [ended_snoc]
    rcases tally.complete kept message before with waits | ended
    · rcases List.mem_cons.mp waits with same | later
      · exact .inr (.inr ⟨isEnding, same.symm⟩)
      · exact .inl later
    · exact .inr (.inl ended)
  once := endsOnce_snoc tally.once (fun _ => tally.notEnded _ (.head _))

theorem giveUp {lost : List Nat} (tally : Tally (lost ++ waiting) calls count givenUp)
    : Tally waiting calls count true where
  unique := (List.nodup_append.mp tally.unique).2.1
  created message member := tally.created message (List.mem_append_right _ member)
  notEnded message member := tally.notEnded message (List.mem_append_right _ member)
  known := tally.known
  complete kept := by contradiction
  once := tally.once

end Tally

/-! ### One step -/

variable {fails : Bool}

namespace System

/-- The message that is announced but not registered yet. -/
def announced (self : System) : List Nat :=
  match self.running with
  | some (.announcing _ message) => [message]
  | _ => []

/-- The messages that are announced, registered or about to be cancelled. -/
def waiting (self : System) : List Nat :=
  self.announced ++ self.activeByKey.values ++ self.cancels.flatten

/-- No `onBegin` fails; `cancelAll` is not called where the running chunk keeps a message
unregistered that it will not end, nor where it will end a message that is registered; and no
item is added to a message that has been cancelled.
-/
def Undisturbed (self : System) : Action → Prop
  | .cancelAll =>
      match self.running with
      | some (.announcing chunk _) => chunk.Ends
      | some (.ensured chunk _) => ¬ chunk.Ends
      | _ => True
  | .resume fails =>
      match self.running with
      | some (.announcing _ _) => fails = false
      | some (.ensured chunk message) =>
          chunk.delta?.isSome → HandlerCall.onCancel message ∉ self.calls
      | _ => True
  | _ => True

instance (self : System) (action : Action) : Decidable (self.Undisturbed action) := by
  unfold Undisturbed
  repeat' split
  all_goals infer_instance

/-- What a running `ingest` relies on, and what is left of messages after `cancelAll`. -/
structure Phased (system : System) : Prop where
  announcing
    : ∀ chunk message, system.running = some (.announcing chunk message)
        → system.activeByKey.get? chunk.key = none ∧ (system.cancelled = true → chunk.Ends)
  ensured
    : ∀ chunk message, system.running = some (.ensured chunk message)
        → message < system.messages.length
          ∧ (chunk.Ends → system.activeByKey.get? chunk.key = some message)
          ∧ ∀ call ∈ system.calls, call.isEnding = true → call.message = message
            → call = .onCancel message
  settled
    : system.cancelled = true
        → ∀ key message, system.activeByKey.get? key = some message
          → ∃ chunk, system.running = some (.ensured chunk message) ∧ chunk.key = key
            ∧ chunk.Ends

structure Bookkept (system : System) : Prop where
  tally : Tally system.waiting system.calls system.messages.length system.rejected
  phased : system.Phased

variable {stream : Stream} {self next : System}

theorem bookkept_start : (start stream).Bookkept where
  tally := Tally.nil
  phased := ⟨by simp [start], by simp [start], by simp [start]⟩

theorem announced_eq_nil
    (notAnnouncing : ∀ chunk message, self.running ≠ some (.announcing chunk message))
    : self.announced = [] := by
  unfold announced
  split
  · next announces => exact absurd announces (notAnnouncing _ _)
  · rfl

theorem waiting_of_idle (idle : self.running = none)
    : self.waiting = self.activeByKey.values ++ self.cancels.flatten := by
  simp [waiting, announced, idle]

section

variable (holds : self.Bookkept)

include holds

theorem Bookkept.ingest (idle : self.running = none) (chunk : StructuredChunk)
    : (self.ingest stream chunk).Bookkept := by
  unfold System.ingest
  split
  · exact holds
  next notCancelled =>
  split
  · next absent =>
    refine ⟨?_, ?_, ?_, ?_⟩
    · have waits
          : ((self.handOver chunk).startNew stream chunk).waiting
            = self.messages.length :: self.waiting := by
        rw [waiting_of_idle idle]
        rfl
      have count
          : ((self.handOver chunk).startNew stream chunk).messages.length
            = self.messages.length + 1 := List.length_append
      rw [waits, count]
      exact holds.tally.begin
    · intro announcing message running
      cases running
      exact ⟨absent, fun cancelled => absurd cancelled notCancelled⟩
    · intro ensured message running
      cases running
    · exact fun cancelled => absurd cancelled notCancelled
  · next message found =>
    split
    · exact ⟨holds.tally, holds.phased.announcing, holds.phased.ensured, holds.phased.settled⟩
    · have open_ : message ∈ self.waiting := by
        rw [waiting_of_idle idle]
        exact List.mem_append_left _ (Dict.mem_values_iff.mpr ⟨chunk.key, found⟩)
      refine ⟨?_, ?_, ?_, fun cancelled => absurd cancelled notCancelled⟩
      · have tally := holds.tally
        rw [waiting_of_idle idle] at tally
        exact tally
      · intro announcing message running
        cases running
      · intro ensured message running
        cases running
        refine ⟨holds.tally.created _ open_, fun _ => found, fun call member isEnding same => ?_⟩
        exact absurd ⟨call, member, isEnding, same⟩ (holds.tally.notEnded _ open_)

theorem Bookkept.register (running : self.running = some (.announcing chunk message))
    : Tally ((self.activeByKey.set chunk.key message).values ++ self.cancels.flatten)
        self.calls self.messages.length self.rejected := by
  have absent := (holds.phased.announcing chunk message running).1
  refine holds.tally.perm ?_
  rw [Dict.values_set_of_none absent, waiting, announced, running]
  simpa using List.perm_middle.symm

theorem Bookkept.resume_announcing (running : self.running = some (.announcing chunk message))
    (taken : self.resume false = some next)
    : next.Bookkept := by
  have tally := holds.register running
  obtain ⟨absent, endsIfCancelled⟩ := holds.phased.announcing chunk message running
  have noneLeft (cancelled : self.cancelled = true) (key : String) (other : Nat)
      : self.activeByKey.get? key ≠ some other := by
    intro found
    obtain ⟨_, isEnsured, -⟩ := holds.phased.settled cancelled key other found
    rw [running] at isEnsured
    cases isEnsured
  unfold System.resume at taken
  rw [running] at taken
  simp only [Bool.false_eq_true, if_false] at taken
  split at taken
  · next isBegin =>
    cases taken
    refine ⟨tally, by simp, by simp, fun cancelled => ?_⟩
    exact absurd (endsIfCancelled cancelled) (chunk.not_ends_of_begin isBegin)
  · cases taken
    have open_ : message ∈ self.waiting := by simp [waiting, announced, running]
    refine ⟨tally, ?_, ?_, fun cancelled key other found => ?_⟩
    · intro announcing announced running
      cases running
    · intro ensured ensuredMessage running
      cases running
      refine ⟨holds.tally.created _ open_, fun _ => Dict.get?_set_self .., ?_⟩
      intro call member isEnding same
      exact absurd ⟨call, member, isEnding, same⟩ (holds.tally.notEnded _ open_)
    · have inSet : (self.activeByKey.set chunk.key message).get? key = some other := found
      rw [Dict.get?_set] at inSet
      split at inSet
      · next sameKey =>
        cases inSet
        exact ⟨chunk, rfl, sameKey.symm, endsIfCancelled cancelled⟩
      · exact absurd inSet (noneLeft cancelled key other)

/-- Nothing changes but that the running `ingest` has ended, or waits for its last handler. -/
theorem Bookkept.finish {ended : Option Ingest}
    (notAnnouncing : ∀ chunk message, self.running ≠ some (.announcing chunk message))
    (notEnding
      : ∀ chunk message, self.running = some (.ensured chunk message) → ¬ chunk.Ends)
    (last : ended = none ∨ ended = some .calling)
    : Bookkept { self with running := ended } := by
  have onlyCalling (ingest : Ingest) (there : ended = some ingest) : ingest = .calling := by
    rcases last with isNone | isCalling
    · rw [isNone] at there
      contradiction
    · exact Option.some.inj (there.symm.trans isCalling)
  have unannounced : announced { self with running := ended } = [] := by
    apply announced_eq_nil
    intro chunk message there
    cases onlyCalling _ there
  have waits : waiting { self with running := ended } = self.waiting := by
    unfold waiting
    rw [unannounced, announced_eq_nil notAnnouncing]
  refine ⟨?_, ?_, ?_, fun cancelled key message found => ?_⟩
  · rw [waits]
    exact holds.tally
  · intro chunk message there
    cases onlyCalling _ there
  · intro chunk message there
    cases onlyCalling _ there
  · obtain ⟨chunk, running, -, ends⟩ := holds.phased.settled cancelled key message found
    exact absurd ends (notEnding chunk message running)

theorem Bookkept.update (message : Nat) (change : AggregatedMessage → AggregatedMessage)
    : (self.update message change).Bookkept := by
  have count : (self.update message change).messages.length = self.messages.length :=
    List.length_modify ..
  refine ⟨?_, holds.phased.announcing, ?_, holds.phased.settled⟩
  · rw [count]
    exact holds.tally
  · rw [count]
    exact holds.phased.ensured

variable (running : self.running = some (.ensured chunk message))

include running

theorem Bookkept.item (notEnding : ¬ chunk.Ends) (kept : HandlerCall.onCancel message ∉ self.calls)
    (delta : String)
    : (self.call (.onItem message delta)).Bookkept := by
  obtain ⟨created, -, onlyCancel⟩ := holds.phased.ensured chunk message running
  have open_ : ¬ Ended self.calls message := by
    rintro ⟨call, member, isEnding, same⟩
    exact kept (onlyCancel call member isEnding same ▸ member)
  have finished : Bookkept { self with running := some .calling } :=
    holds.finish (by simp [running])
      (by
        intro other otherMessage same
        rw [running] at same
        cases same
        exact notEnding)
      (.inr rfl)
  exact ⟨finished.tally.item created open_, by simp [System.call], by simp [System.call],
    finished.phased.settled⟩

theorem Bookkept.ending (ends : chunk.Ends) (isEnding : call.isEnding = true)
    (same : call.message = message)
    : (System.call { self with activeByKey := self.activeByKey.delete chunk.key }
        call).Bookkept := by
  have found := (holds.phased.ensured chunk message running).2.1 ends
  refine ⟨?_, by simp [System.call], by simp [System.call], fun cancelled key other there => ?_⟩
  · refine Tally.ending (holds.tally.perm ?_) isEnding
    rw [waiting, announced, running, same]
    exact (Dict.values_perm_of_get? found).append_right _
  · have deleted : (self.activeByKey.delete chunk.key).get? key = some other := there
    rw [Dict.get?_delete] at deleted
    split at deleted
    · contradiction
    next otherKey =>
    obtain ⟨otherChunk, runs, sameKey, -⟩ := holds.phased.settled cancelled key other deleted
    rw [running] at runs
    cases runs
    exact absurd sameKey.symm otherKey

theorem Bookkept.proceed (kept : chunk.delta?.isSome → HandlerCall.onCancel message ∉ self.calls)
    : (self.proceed chunk message).Bookkept := by
  have idle (notEnding : ¬ chunk.Ends) : Bookkept { self with running := none } := by
    refine holds.finish (by simp [running]) (fun other otherMessage same => ?_) (.inl rfl)
    rw [running] at same
    cases same
    exact notEnding
  unfold System.proceed
  split
  · next isBegin => exact idle (chunk.not_ends_of_begin isBegin)
  · next isItem =>
    have notEnding := chunk.not_ends_of_item isItem
    split
    · next delta isDelta =>
      exact (holds.update message _).item running notEnding (kept (by simp [isDelta])) delta
    · exact idle notEnding
  · next isEnd => exact (holds.update message _).ending running (.inl isEnd) rfl rfl
  · next isError => exact (holds.update message _).ending running (.inr isError) rfl rfl

end

/-! ### Cancelling -/

theorem bookkept_cancelNext {messages : List Nat}
    (tally
      : Tally (messages ++ self.waiting) self.calls self.messages.length self.rejected)
    (phased : self.Phased)
    : (self.cancelNext messages).Bookkept := by
  cases messages with
  | nil => exact ⟨tally, phased⟩
  | cons message rest =>
      have count : (self.cancelNext (message :: rest)).messages.length = self.messages.length :=
        List.length_modify ..
      have waits
          : (self.cancelNext (message :: rest)).waiting = self.waiting ++ rest := by
        change self.announced ++ self.activeByKey.values ++ (self.cancels ++ [rest]).flatten = _
        simp [waiting]
      refine ⟨?_, phased.announcing, ?_, phased.settled⟩
      · rw [count, waits]
        have first
            : Tally ((HandlerCall.onCancel message).message :: (rest ++ self.waiting))
                self.calls self.messages.length self.rejected := tally
        exact (first.ending rfl).perm List.perm_append_comm
      · rw [count]
        intro chunk ensured running
        obtain ⟨created, found, onlyCancel⟩ := phased.ensured chunk ensured running
        refine ⟨created, found, fun call member isEnding same => ?_⟩
        rcases List.mem_append.mp member with old | isNew
        · exact onlyCancel call old isEnding same
        · obtain rfl := List.mem_singleton.mp isNew
          exact congrArg HandlerCall.onCancel same

theorem Bookkept.cancelAll (holds : self.Bookkept) (undisturbed : self.Undisturbed .cancelAll)
    : self.cancelAll.Bookkept := by
  refine bookkept_cancelNext (holds.tally.perm ?_) ⟨?_, ?_, ?_⟩
  · change (self.announced ++ self.activeByKey.values ++ self.cancels.flatten).Perm
      (self.activeByKey.values ++ (self.announced ++ [] ++ self.cancels.flatten))
    rw [List.append_nil, ← List.append_assoc]
    exact List.perm_append_comm.append_right _
  · intro chunk message running
    refine ⟨rfl, fun _ => ?_⟩
    have isRunning : self.running = some (.announcing chunk message) := running
    simpa [Undisturbed, isRunning] using undisturbed
  · intro chunk message running
    have isRunning : self.running = some (.ensured chunk message) := running
    obtain ⟨created, -, onlyCancel⟩ := holds.phased.ensured chunk message isRunning
    refine ⟨created, fun ends => ?_, onlyCancel⟩
    simp [Undisturbed, isRunning, ends] at undisturbed
  · intro cancelled key message found
    cases found

theorem Bookkept.resumeCancel (holds : self.Bookkept) {place : Nat}
    (taken : self.resumeCancel place fails = some next)
    : next.Bookkept := by
  obtain ⟨messages, waits, resumed⟩ := Option.map_eq_some_iff.mp taken
  obtain ⟨inside, isPlace⟩ := List.getElem?_eq_some_iff.mp waits
  have remaining
      : self.cancels.flatten.Perm (messages ++ (self.cancels.eraseIdx place).flatten) := by
    have front := (List.getElem_cons_eraseIdx_perm inside).symm.flatten
    rwa [isPlace, List.flatten_cons] at front
  have tally
      : Tally (messages ++ waiting { self with cancels := self.cancels.eraseIdx place })
          self.calls self.messages.length self.rejected := by
    refine holds.tally.perm ?_
    change (self.announced ++ self.activeByKey.values ++ self.cancels.flatten).Perm
      (messages ++ (self.announced ++ self.activeByKey.values
        ++ (self.cancels.eraseIdx place).flatten))
    refine (remaining.append_left _).trans ?_
    rw [← List.append_assoc, ← List.append_assoc]
    exact List.perm_append_comm.append_right _
  split at resumed
  · subst resumed
    exact ⟨tally.giveUp, holds.phased.announcing, holds.phased.ensured, holds.phased.settled⟩
  · subst resumed
    exact bookkept_cancelNext tally
      ⟨holds.phased.announcing, holds.phased.ensured, holds.phased.settled⟩

/-! ### Runs -/

/-- An undisturbed `ingest` goes on from one of its three waits. -/
theorem resume_cases (undisturbed : self.Undisturbed (.resume fails))
    (taken : self.resume fails = some next)
    : (∃ chunk message,
          self.running = some (.announcing chunk message) ∧ self.resume false = some next)
      ∨ (∃ chunk message,
          self.running = some (.ensured chunk message)
          ∧ (chunk.delta?.isSome → HandlerCall.onCancel message ∉ self.calls)
          ∧ self.proceed chunk message = next)
      ∨ (self.running = some .calling ∧ { self with running := none } = next) := by
  cases running : self.running with
  | none => simp [System.resume, running] at taken
  | some ingest =>
      cases ingest with
      | announcing chunk message =>
          obtain rfl : fails = false := by simpa [Undisturbed, running] using undisturbed
          exact .inl ⟨chunk, message, rfl, taken⟩
      | ensured chunk message =>
          have kept : chunk.delta?.isSome → HandlerCall.onCancel message ∉ self.calls := by
            simpa [Undisturbed, running] using undisturbed
          cases fails with
          | true => simp [System.resume, running] at taken
          | false =>
              exact .inr (.inl ⟨chunk, message, rfl, kept,
                by simpa [System.resume, running] using taken⟩)
      | calling =>
          exact .inr (.inr ⟨rfl, by simpa [System.resume, running] using taken⟩)

theorem Bookkept.resume (holds : self.Bookkept) (undisturbed : self.Undisturbed (.resume fails))
    (taken : self.resume fails = some next)
    : next.Bookkept := by
  rcases resume_cases undisturbed taken with
    ⟨chunk, message, running, resumed⟩ | ⟨chunk, message, running, kept, rfl⟩ | ⟨running, rfl⟩
  · exact holds.resume_announcing running resumed
  · exact holds.proceed running kept
  · exact holds.finish (by simp [running]) (by simp [running]) (.inl rfl)

theorem Bookkept.step (holds : self.Bookkept) {action : Action}
    (undisturbed : self.Undisturbed action) (taken : self.step stream action = some next)
    : next.Bookkept := by
  cases action with
  | ingest chunk =>
      simp only [System.step] at taken
      split at taken
      · next idle => exact Option.some.inj taken ▸ holds.ingest idle chunk
      · contradiction
  | resume fails => exact holds.resume undisturbed taken
  | cancelAll => exact Option.some.inj taken ▸ holds.cancelAll undisturbed
  | resumeCancel place fails => exact holds.resumeCancel taken

/-- Every `cancelAll` that was called has returned, and no `ingest` runs. -/
def AllReturned (self : System) : Prop :=
  self.cancelled = true ∧ self.cancels = [] ∧ self.rejected = false ∧ self.running = none

theorem Bookkept.ended (holds : self.Bookkept) (returned : self.AllReturned)
    (created : message < self.messages.length)
    : Ended self.calls message := by
  obtain ⟨cancelled, noCancels, notRejected, idle⟩ := returned
  refine (holds.tally.complete notRejected message created).resolve_left (fun waits => ?_)
  rw [waiting_of_idle idle, noCancels, List.flatten_nil, List.append_nil,
    Dict.mem_values_iff] at waits
  obtain ⟨key, found⟩ := waits
  obtain ⟨chunk, running, -⟩ := holds.phased.settled cancelled key message found
  rw [idle] at running
  cases running

end System

end N8n.ChatHub
