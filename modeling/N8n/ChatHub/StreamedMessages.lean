import Mathlib.Data.List.TakeWhile
import N8n.ChatHub.StreamCapturer

/-! What the messages of a chat stream contain, and how they follow one another. -/

namespace N8n.ChatHub

open N8n.Histories N8n.Runs

/-! ### The content of a message -/

def StructuredChunk.itemContent? (self : StructuredChunk) : Option String :=
  if self.type = .item then self.content else none

/-- The contents of the items of the key up to the chunk that ends its message, and the text of
the error if that is one.
-/
def contentSince (key : String) (chunks : List StructuredChunk) : String :=
  let own := chunks.filter (fun chunk => chunk.key = key)
  let items :=
    String.join ((own.takeWhile (fun chunk => ¬ chunk.Ends)).filterMap
      StructuredChunk.itemContent?)
  match own.find? (fun chunk => chunk.Ends) with
  | some ⟨.error, some errText, _⟩ => (if items = "" then "" else items ++ "\n\n") ++ errText
  | _ => items

/-- The message of the key has ended. -/
def Closed (key : String) (chunks : List StructuredChunk) : Prop :=
  ∃ chunk ∈ chunks, chunk.key = key ∧ chunk.Ends

/-- What a chunk makes of the content of its message. -/
def StructuredChunk.applyTo (self : StructuredChunk) (content : String) : String :=
  match self.type with
  | .begin => content
  | .item => content ++ self.content.getD ""
  | .«end» => content
  | .error =>
      match self.content with
      | some errText => (if content = "" then "" else content ++ "\n\n") ++ errText
      | none => content

section

variable {key : String} {chunks : List StructuredChunk} {chunk : StructuredChunk}

theorem StructuredChunk.applyTo_item (isItem : chunk.type = .item) (content : String)
    : chunk.applyTo content = content ++ chunk.delta?.getD "" := by
  simp only [StructuredChunk.applyTo, StructuredChunk.delta?, isItem, if_true]
  cases chunk.content with
  | none => rfl
  | some text =>
      by_cases empty : text = ""
      · simp [empty, Option.filter]
      · simp [empty, Option.filter]

theorem not_closed_nil : ¬ Closed key [] := by simp [Closed]

theorem closed_snoc
    : Closed key (chunks ++ [chunk]) ↔ Closed key chunks ∨ (chunk.key = key ∧ chunk.Ends) := by
  simp [Closed, or_and_right, exists_or]

theorem contentSince_snoc_of_ne (other : chunk.key ≠ key)
    : contentSince key (chunks ++ [chunk]) = contentSince key chunks := by
  unfold contentSince
  rw [List.filter_append, List.filter_singleton]
  simp [other]

theorem takeWhile_append_of_mem {α : Type} {holds : α → Bool} {items : List α} {item : α}
    (member : item ∈ items) (stops : holds item = false) (more : List α)
    : (items ++ more).takeWhile holds = items.takeWhile holds := by
  induction items with
  | nil => contradiction
  | cons first rest ih =>
      rw [List.cons_append, List.takeWhile_cons, List.takeWhile_cons]
      rcases List.mem_cons.mp member with rfl | later
      · simp [stops]
      · rw [ih later]

theorem contentSince_snoc_of_closed (closed : Closed key chunks)
    : contentSince key (chunks ++ [chunk]) = contentSince key chunks := by
  obtain ⟨last, member, isKey, ends⟩ := closed
  have own : last ∈ chunks.filter (fun chunk => chunk.key = key) := by
    simp [member, isKey]
  have found : ((chunks.filter (fun chunk => chunk.key = key)).find?
      (fun chunk => chunk.Ends)).isSome := by
    rw [List.find?_isSome]
    exact ⟨last, own, by simpa using ends⟩
  obtain ⟨first, isFirst⟩ := Option.isSome_iff_exists.mp found
  unfold contentSince
  simp only [List.filter_append]
  rw [takeWhile_append_of_mem own (by simpa using ends), List.find?_append, isFirst]
  rfl

/-- While its message is open, each chunk of the key adds to the content. -/
theorem contentSince_snoc_of_open (isKey : chunk.key = key) (open_ : ¬ Closed key chunks)
    : contentSince key (chunks ++ [chunk]) = chunk.applyTo (contentSince key chunks) := by
  have none : ∀ other ∈ chunks.filter (fun chunk => chunk.key = key), ¬ other.Ends := by
    intro other member ends
    obtain ⟨inChunks, sameKey⟩ := List.mem_filter.mp member
    exact open_ ⟨other, inChunks, by simpa using sameKey, ends⟩
  have taken : (chunks.filter (fun chunk => chunk.key = key)).takeWhile
      (fun chunk => ¬ chunk.Ends) = chunks.filter (fun chunk => chunk.key = key) :=
    List.takeWhile_eq_self_iff.mpr (by simpa using none)
  have missing : (chunks.filter (fun chunk => chunk.key = key)).find?
      (fun chunk => chunk.Ends) = .none := by
    rw [List.find?_eq_none]
    simpa using none
  unfold contentSince
  simp only [List.filter_append, List.filter_singleton, isKey, decide_true,
    List.find?_append, missing, taken, Option.none_or]
  rw [List.takeWhile_append_of_pos (by simpa using none)]
  obtain ⟨type, content, metadata⟩ := chunk
  cases type with
  | begin => simp [StructuredChunk.applyTo, StructuredChunk.Ends, StructuredChunk.itemContent?]
  | item =>
      cases content with
      | none => simp [StructuredChunk.applyTo, StructuredChunk.Ends, StructuredChunk.itemContent?]
      | some text =>
          simp [StructuredChunk.applyTo, StructuredChunk.Ends, StructuredChunk.itemContent?]
  | «end» => simp [StructuredChunk.applyTo, StructuredChunk.Ends]
  | error =>
      cases content with
      | none | some => simp [StructuredChunk.applyTo, StructuredChunk.Ends]

end

variable {message : Nat} {chunk : StructuredChunk} {key : String} {chunks : List StructuredChunk}
  {fails : Bool}

namespace System

/-! ### Chunks that have reached their messages -/

/-- The chunk that has not reached its message yet, and the message. -/
def target? (self : System) : Option (StructuredChunk × Nat) :=
  match self.running with
  | some (.announcing chunk message) => some (chunk, message)
  | some (.ensured chunk message) => some (chunk, message)
  | _ => none

def pending (self : System) : List StructuredChunk := (self.target?.map Prod.fst).toList

/-- The message has the key, and all chunks since its first one have reached their messages but
for the pending one.
-/
def Applied (self : System) (message : Nat) (key : String) (chunks : List StructuredChunk)
    : Prop :=
  self.since[message]? = some (key, chunks ++ self.pending)

/-- The content of each message is that of the chunks that have reached their messages; the
open messages are those that are registered or running, one of a key.
-/
structure Gathered (system : System) : Prop where
  count : system.since.length = system.messages.length
  content
    : ∀ index message, system.messages[index]? = some message
        → ∃ key chunks, system.Applied index key chunks
          ∧ message.content = contentSince key chunks
  target
    : ∀ chunk message, system.target? = some (chunk, message)
        → ∃ chunks, system.Applied message chunk.key chunks ∧ ¬ Closed chunk.key chunks
          ∧ ∀ other otherChunks, other ≠ message → system.Applied other chunk.key otherChunks
            → Closed chunk.key otherChunks
  registered
    : system.cancelled = false
        → ∀ message key chunks, system.Applied message key chunks → ¬ Closed key chunks
          → system.activeByKey.get? key = some message
            ∨ ∃ chunk, system.running = some (.announcing chunk message)
  active
    : ∀ key message, system.activeByKey.get? key = some message
        → ∃ chunks, system.Applied message key chunks ∧ ¬ Closed key chunks

variable {stream : Stream} {self next : System}

theorem gathered_start : (start stream).Gathered where
  count := rfl
  content := by simp [start]
  target := by simp [start, target?]
  registered := by simp [start, Applied]
  active := by simp [start]

theorem Applied.unique {otherKey : String} {otherChunks : List StructuredChunk}
    (first : self.Applied message key chunks) (second : self.Applied message otherKey otherChunks)
    : key = otherKey ∧ chunks = otherChunks := by
  have same := Option.some.inj (first.symm.trans second)
  simpa using same

/-- Where no message is announced, the open ones are registered. -/
theorem Gathered.isActive (holds : self.Gathered) (notAnnouncing : self.announced = [])
    (notCancelled : self.cancelled = false) {message : Nat} {key : String}
    {chunks : List StructuredChunk} (isApplied : self.Applied message key chunks)
    (open_ : ¬ Closed key chunks)
    : self.activeByKey.get? key = some message := by
  rcases holds.registered notCancelled message key chunks isApplied open_ with
    isActive | ⟨_, announcing⟩
  · exact isActive
  · simp [announced, announcing] at notAnnouncing

/-- Where messages, chunks and running `ingest` are the same, nothing is gathered. -/
theorem Gathered.congr (holds : self.Gathered) (since : next.since = self.since)
    (target : next.target? = self.target?) (count : next.messages.length = self.messages.length)
    (contents
      : ∀ (index : Nat) (message : AggregatedMessage), next.messages[index]? = some message
          → ∃ before : AggregatedMessage, self.messages[index]? = some before
            ∧ message.content = before.content)
    (registered
      : next.cancelled = false
          → ∀ message key chunks, self.Applied message key chunks → ¬ Closed key chunks
            → next.activeByKey.get? key = some message
              ∨ ∃ chunk, next.running = some (.announcing chunk message))
    (active
      : ∀ key message, next.activeByKey.get? key = some message
          → ∃ chunks, self.Applied message key chunks ∧ ¬ Closed key chunks)
    : next.Gathered := by
  have applied (message : Nat) (key : String) (chunks : List StructuredChunk)
      : next.Applied message key chunks ↔ self.Applied message key chunks := by
    unfold Applied pending
    rw [since, target]
  refine ⟨by rw [since, count, holds.count], ?_, ?_, ?_, ?_⟩
  · intro index message found
    obtain ⟨before, isBefore, same⟩ := contents index message found
    obtain ⟨key, chunks, isApplied, isContent⟩ := holds.content index before isBefore
    exact ⟨key, chunks, (applied ..).mpr isApplied, same.trans isContent⟩
  · intro chunk message isTarget
    simp only [applied]
    exact holds.target chunk message (target ▸ isTarget)
  · simp only [applied]
    exact registered
  · simp only [applied]
    exact active

theorem Gathered.apply (holds : self.Gathered) (target : self.target? = some (chunk, message))
    (since : next.since = self.since) (noTarget : next.target? = none)
    (cancelled : next.cancelled = self.cancelled)
    (count : next.messages.length = self.messages.length)
    (contents
      : ∀ (index : Nat) (after : AggregatedMessage), next.messages[index]? = some after
          → ∃ before : AggregatedMessage, self.messages[index]? = some before
            ∧ after.content
              = if index = message then chunk.applyTo before.content else before.content)
    (keeps
      : self.cancelled = false
          → ∀ key other, self.activeByKey.get? key = some other
            → ¬ (chunk.key = key ∧ chunk.Ends) → next.activeByKey.get? key = some other)
    (joins
      : self.cancelled = false → self.running = some (.announcing chunk message)
          → ¬ chunk.Ends → next.activeByKey.get? chunk.key = some message)
    (active
      : ∀ key other, next.activeByKey.get? key = some other
          → ¬ (chunk.key = key ∧ chunk.Ends)
            ∧ (self.activeByKey.get? key = some other ∨ (key = chunk.key ∧ other = message)))
    : next.Gathered := by
  obtain ⟨targetChunks, targetApplied, targetOpen, others⟩ := holds.target chunk message target
  have pendingSelf : self.pending = [chunk] := by simp [pending, target]
  have pendingNext : next.pending = [] := by simp [pending, noTarget]
  have applied (other : Nat) (key : String) (chunks : List StructuredChunk)
      : next.Applied other key chunks
        ↔ ∃ before, chunks = before ++ [chunk] ∧ self.Applied other key before := by
    unfold Applied
    rw [since, pendingSelf, pendingNext, List.append_nil]
    constructor
    · intro found
      obtain ⟨inside, _⟩ := List.getElem?_eq_some_iff.mp found
      rw [holds.count] at inside
      obtain ⟨otherKey, before, isApplied, -⟩ :=
        holds.content other _ (List.getElem?_eq_getElem inside)
      unfold Applied at isApplied
      rw [pendingSelf] at isApplied
      cases found.symm.trans isApplied
      exact ⟨before, rfl, isApplied⟩
    · rintro ⟨before, rfl, isApplied⟩
      exact isApplied
  have open_ {key : String} {before : List StructuredChunk} (notClosed : ¬ Closed key before)
      (goesOn : ¬ (chunk.key = key ∧ chunk.Ends))
      : ¬ Closed key (before ++ [chunk]) := by
    rw [closed_snoc]
    exact not_or.mpr ⟨notClosed, goesOn⟩
  refine ⟨by rw [since, count, holds.count], ?_, by simp [noTarget], ?_, ?_⟩
  · intro index after found
    obtain ⟨before, isBefore, same⟩ := contents index after found
    obtain ⟨key, chunks, isApplied, isContent⟩ := holds.content index before isBefore
    refine ⟨key, chunks ++ [chunk], (applied ..).mpr ⟨chunks, rfl, isApplied⟩, ?_⟩
    rw [same, isContent]
    by_cases isTarget : index = message
    · subst isTarget
      obtain ⟨rfl, rfl⟩ := isApplied.unique targetApplied
      rw [if_pos rfl, contentSince_snoc_of_open rfl targetOpen]
    · rw [if_neg isTarget]
      by_cases sameKey : chunk.key = key
      · subst sameKey
        rw [contentSince_snoc_of_closed (others index chunks isTarget isApplied)]
      · rw [contentSince_snoc_of_ne sameKey]
  · intro notCancelled other key chunks isApplied notClosed
    obtain ⟨before, rfl, isBefore⟩ := (applied ..).mp isApplied
    rw [closed_snoc, not_or] at notClosed
    rw [cancelled] at notCancelled
    rcases holds.registered notCancelled other key before isBefore notClosed.1 with
      isActive | ⟨otherChunk, announcing⟩
    · exact .inl (keeps notCancelled key other isActive notClosed.2)
    · have sameTarget : some (otherChunk, other) = some (chunk, message) := by
        rw [← target, target?, announcing]
      cases sameTarget
      obtain ⟨rfl, -⟩ := isBefore.unique targetApplied
      exact .inl (joins notCancelled announcing (fun ends => notClosed.2 ⟨rfl, ends⟩))
  · intro key other found
    obtain ⟨goesOn, old | ⟨rfl, rfl⟩⟩ := active key other found
    · obtain ⟨chunks, isApplied, notClosed⟩ := holds.active key other old
      exact ⟨chunks ++ [chunk], (applied ..).mpr ⟨chunks, rfl, isApplied⟩,
        open_ notClosed goesOn⟩
    · exact ⟨targetChunks ++ [chunk], (applied ..).mpr ⟨targetChunks, rfl, targetApplied⟩,
        open_ targetOpen goesOn⟩

/-! ### Handing over a chunk -/

theorem applied_of_idle (idle : self.running = none)
    : self.Applied message key chunks ↔ self.since[message]? = some (key, chunks) := by
  simp [Applied, pending, target?, idle]

/-- A chunk that is handed over is pending for all messages that there are. -/
theorem applied_handOver (next : System) (idle : self.running = none)
    (since : next.since = (self.handOver chunk).since) (pending : next.pending = [chunk])
    : next.Applied message key chunks ↔ self.Applied message key chunks := by
  rw [applied_of_idle idle, Applied, since, pending, handOver, List.getElem?_map,
    Option.map_eq_some_iff]
  constructor
  · rintro ⟨⟨_, before⟩, found, same⟩
    simp only [Prod.mk.injEq, List.append_cancel_right_eq] at same
    obtain ⟨rfl, rfl⟩ := same
    exact found
  · exact fun found => ⟨(key, chunks), found, rfl⟩

section

variable (holds : self.Gathered)

include holds

section

variable (idle : self.running = none)

include idle

theorem Gathered.ingest_registered (notCancelled : self.cancelled = false)
    (found : self.activeByKey.get? chunk.key = some message)
    : ((self.handOver chunk).await (.ensured chunk message)).Gathered := by
  have applied {other : Nat} {key : String} {chunks : List StructuredChunk}
      : ((self.handOver chunk).await (.ensured chunk message)).Applied other key chunks
        ↔ self.Applied other key chunks :=
    applied_handOver ((self.handOver chunk).await (.ensured chunk message)) idle rfl rfl
  have notAnnouncing : self.announced = [] := by simp [announced, idle]
  refine ⟨?_, ?_, ?_, ?_, ?_⟩
  · exact (List.length_map _).trans holds.count
  · simp only [applied]
    exact holds.content
  · intro targetChunk target isTarget
    cases isTarget
    obtain ⟨chunks, isApplied, open_⟩ := holds.active chunk.key message found
    refine ⟨chunks, applied.mpr isApplied, open_, fun other otherChunks differ isOther => ?_⟩
    by_contra notClosed
    have isActive := holds.isActive notAnnouncing notCancelled (applied.mp isOther) notClosed
    exact differ (Option.some.inj (isActive.symm.trans found))
  · intro _ other key chunks isApplied notClosed
    exact .inl (holds.isActive notAnnouncing notCancelled (applied.mp isApplied) notClosed)
  · simp only [applied]
    exact holds.active

theorem Gathered.ingest_begun (isBegin : chunk.type = .begin)
    : (self.handOver chunk).Gathered := by
  have notEnding := chunk.not_ends_of_begin isBegin
  have applied {other : Nat} {key : String} {chunks : List StructuredChunk}
      : (self.handOver chunk).Applied other key chunks
        ↔ ∃ before, chunks = before ++ [chunk] ∧ self.Applied other key before := by
    have handedIdle : (self.handOver chunk).running = none := idle
    rw [applied_of_idle handedIdle, handOver, List.getElem?_map, Option.map_eq_some_iff]
    constructor
    · rintro ⟨⟨_, before⟩, found, same⟩
      cases same
      exact ⟨before, rfl, (applied_of_idle idle).mpr found⟩
    · rintro ⟨before, rfl, found⟩
      exact ⟨(key, before), (applied_of_idle idle).mp found, rfl⟩
  have open_ {key : String} {before : List StructuredChunk}
      : Closed key (before ++ [chunk]) ↔ Closed key before := by
    rw [closed_snoc]
    simp [notEnding]
  refine ⟨(List.length_map _).trans holds.count, ?_, ?_, ?_, ?_⟩
  · intro index message found
    obtain ⟨key, chunks, isApplied, isContent⟩ := holds.content index message found
    refine ⟨key, chunks ++ [chunk], applied.mpr ⟨chunks, rfl, isApplied⟩, isContent.trans ?_⟩
    by_cases closed : Closed key chunks
    · exact (contentSince_snoc_of_closed closed).symm
    · by_cases isKey : chunk.key = key
      · rw [contentSince_snoc_of_open isKey closed, StructuredChunk.applyTo, isBegin]
      · exact (contentSince_snoc_of_ne isKey).symm
  · intro targetChunk message isTarget
    have noTarget : (self.handOver chunk).target? = none := by
      simp [target?, handOver, idle]
    rw [noTarget] at isTarget
    cases isTarget
  · intro notCancelled other key chunks isApplied notClosed
    obtain ⟨before, rfl, isBefore⟩ := applied.mp isApplied
    exact holds.registered notCancelled other key before isBefore (mt open_.mpr notClosed)
  · intro key other found
    obtain ⟨chunks, isApplied, notClosed⟩ := holds.active key other found
    exact ⟨chunks ++ [chunk], applied.mpr ⟨chunks, rfl, isApplied⟩, mt open_.mp notClosed⟩

/-- A message that is announced begins with the chunk that is pending. -/
theorem applied_startNew
    : ((self.handOver chunk).startNew stream chunk).Applied message key chunks
      ↔ self.Applied message key chunks
        ∨ (message = self.messages.length ∧ key = chunk.key ∧ chunks = []) := by
  have count : (self.handOver chunk).since.length = self.messages.length :=
    (List.length_map _).trans holds.count
  have announced (message : Nat) (chunks : List StructuredChunk)
      : ((self.handOver chunk).startNew stream chunk).Applied message key chunks
        ↔ ((self.handOver chunk).since ++ [(chunk.key, [chunk])])[message]?
          = some (key, chunks ++ [chunk]) := .rfl
  have kept
      : self.Applied message key chunks
        ↔ (self.handOver chunk).since[message]? = some (key, chunks ++ [chunk]) :=
    (applied_handOver ((self.handOver chunk).await (.announcing chunk 0)) idle rfl rfl).symm
  rw [announced, kept, List.getElem?_append]
  split
  · next inside =>
    rw [count] at inside
    constructor
    · exact .inl
    · rintro (found | ⟨rfl, -, -⟩)
      · exact found
      · exact absurd inside (Nat.lt_irrefl _)
  · next outside =>
    rw [List.getElem?_eq_none (Nat.le_of_not_lt outside), count, List.getElem?_singleton]
    rw [count] at outside
    constructor
    · intro found
      split at found
      · next isFirst =>
        have same := Option.some.inj found
        simp only [Prod.mk.injEq, List.self_eq_append_left] at same
        exact .inr ⟨by omega, same.1.symm, same.2⟩
      · contradiction
    · rintro (absent | ⟨rfl, rfl, rfl⟩)
      · contradiction
      · simp

theorem Gathered.ingest_new (notCancelled : self.cancelled = false)
    (absent : self.activeByKey.get? chunk.key = none)
    : ((self.handOver chunk).startNew stream chunk).Gathered := by
  have notAnnouncing : self.announced = [] := by simp [announced, idle]
  have applied {message : Nat} {key : String} {chunks : List StructuredChunk}
      : ((self.handOver chunk).startNew stream chunk).Applied message key chunks
        ↔ self.Applied message key chunks
          ∨ (message = self.messages.length ∧ key = chunk.key ∧ chunks = []) :=
    applied_startNew holds idle
  refine ⟨?_, ?_, ?_, ?_, ?_⟩
  · change ((self.handOver chunk).since ++ [_]).length = (self.messages ++ [_]).length
    rw [List.length_append, List.length_append, handOver, List.length_map, holds.count]
    rfl
  · intro index message found
    have inMessages : (self.messages ++ [_])[index]? = some message := found
    rcases Nat.lt_or_ge index self.messages.length with inside | outside
    · rw [List.getElem?_append_left inside] at inMessages
      obtain ⟨key, chunks, isApplied, isContent⟩ := holds.content index message inMessages
      exact ⟨key, chunks, applied.mpr (.inl isApplied), isContent⟩
    · rw [List.getElem?_append_right outside, List.getElem?_singleton] at inMessages
      split at inMessages
      · cases inMessages
        exact ⟨chunk.key, [], applied.mpr (.inr ⟨by omega, rfl, rfl⟩), rfl⟩
      · contradiction
  · intro targetChunk message isTarget
    cases isTarget
    refine ⟨[], applied.mpr (.inr ⟨rfl, rfl, rfl⟩), not_closed_nil, ?_⟩
    intro other otherChunks differ isOther
    by_contra open_
    rcases applied.mp isOther with old | ⟨same, -, -⟩
    · rw [holds.isActive notAnnouncing notCancelled old open_] at absent
      contradiction
    · exact differ same
  · intro _ message key chunks isApplied open_
    rcases applied.mp isApplied with old | ⟨rfl, -, -⟩
    · exact .inl (holds.isActive notAnnouncing notCancelled old open_)
    · exact .inr ⟨chunk, rfl⟩
  · intro key message found
    obtain ⟨chunks, isApplied, open_⟩ := holds.active key message found
    exact ⟨chunks, applied.mpr (.inl isApplied), open_⟩

theorem Gathered.ingest (chunk : StructuredChunk)
    : (self.ingest stream chunk).Gathered := by
  unfold System.ingest
  split
  · exact holds
  next notCancelled =>
  rw [Bool.not_eq_true] at notCancelled
  split
  · next absent => exact holds.ingest_new idle notCancelled absent
  · next message found =>
    split
    · next isBegin => exact holds.ingest_begun idle isBegin
    · exact holds.ingest_registered idle notCancelled found

end

/-! ### Going on with a chunk -/

section

variable {other : Nat} (target : self.target? = some (chunk, message))

include target

/-- What a key is registered for is the message that its pending chunk goes to. -/
theorem Gathered.eq_target (found : self.activeByKey.get? chunk.key = some other)
    : other = message := by
  obtain ⟨_, -, -, others⟩ := holds.target chunk message target
  obtain ⟨chunks, isApplied, open_⟩ := holds.active chunk.key other found
  by_contra differ
  exact open_ (others other chunks differ isApplied)

theorem Gathered.get?_register
    : (self.activeByKey.set chunk.key message).get? key = some other
      ↔ self.activeByKey.get? key = some other ∨ (key = chunk.key ∧ other = message) := by
  rw [Dict.get?_set]
  split
  · next sameKey =>
    subst sameKey
    constructor
    · exact fun same => .inr ⟨rfl, (Option.some.inj same).symm⟩
    · rintro (found | ⟨-, rfl⟩)
      · rw [holds.eq_target target found]
      · rfl
  · next otherKey =>
    constructor
    · exact .inl
    · rintro (found | ⟨sameKey, -⟩)
      · exact found
      · exact absurd sameKey otherKey

end

theorem Gathered.resume_announcing (running : self.running = some (.announcing chunk message))
    (taken : self.resume false = some next)
    : next.Gathered := by
  have target : self.target? = some (chunk, message) := by rw [target?, running]
  unfold System.resume at taken
  rw [running] at taken
  simp only [Bool.false_eq_true, if_false] at taken
  split at taken
  · next isBegin =>
    have notEnding := chunk.not_ends_of_begin isBegin
    cases taken
    refine holds.apply target rfl rfl rfl rfl (fun index after found => ⟨after, found, ?_⟩)
      (fun _ key other found _ => (holds.get?_register target).mpr (.inl found))
      (fun _ _ _ => Dict.get?_set_self ..)
      (fun key other found => ⟨fun both => notEnding both.2, (holds.get?_register target).mp found⟩)
    simp [StructuredChunk.applyTo, isBegin]
  · cases taken
    have goesOn : ∀ key other, (self.activeByKey.set chunk.key message).get? key = some other
        → ∃ chunks, self.Applied other key chunks ∧ ¬ Closed key chunks := by
      intro key other found
      rcases (holds.get?_register target).mp found with old | ⟨rfl, rfl⟩
      · exact holds.active key other old
      · obtain ⟨chunks, isApplied, open_, -⟩ := holds.target chunk other target
        exact ⟨chunks, isApplied, open_⟩
    refine holds.congr rfl target.symm rfl (fun _ after found => ⟨after, found, rfl⟩) ?_ goesOn
    intro notCancelled other key chunks isApplied open_
    refine .inl ((holds.get?_register target).mpr ?_)
    rcases holds.registered notCancelled other key chunks isApplied open_ with
      isActive | ⟨otherChunk, announcing⟩
    · exact .inl isActive
    · rw [running] at announcing
      cases announcing
      obtain ⟨targetChunks, targetApplied, -⟩ := holds.target chunk message target
      exact .inr ⟨(isApplied.unique targetApplied).1, rfl⟩

/-- The chunk that is pending for a registered message reaches it. -/
theorem Gathered.reach (running : self.running = some (.ensured chunk message))
    (since : next.since = self.since) (noTarget : next.target? = none)
    (cancelled : next.cancelled = self.cancelled) {change : AggregatedMessage → AggregatedMessage}
    (messages : next.messages = self.messages.modify message change)
    (changes : ∀ before, (change before).content = chunk.applyTo before.content)
    (activeByKey
      : next.activeByKey
        = if chunk.Ends then self.activeByKey.delete chunk.key else self.activeByKey)
    : next.Gathered := by
  have found (key : String) (other : Nat)
      : next.activeByKey.get? key = some other
        ↔ ¬ (chunk.key = key ∧ chunk.Ends) ∧ self.activeByKey.get? key = some other := by
    rw [activeByKey]
    split
    · next ends =>
      rw [Dict.get?_delete]
      split
      · next sameKey => simp [sameKey, ends]
      · next otherKey => simp [ends, Ne.symm otherKey]
    · next notEnding => simp [notEnding]
  refine holds.apply (by rw [target?, running]) since noTarget cancelled ?_ ?_
    (fun _ key other there goesOn => (found key other).mpr ⟨goesOn, there⟩) ?_
    (fun key other there => ((found key other).mp there).imp_right .inl)
  · rw [messages, List.length_modify]
  · intro index after isAfter
    rw [messages, List.getElem?_modify] at isAfter
    obtain ⟨before, isBefore, rfl⟩ := Option.map_eq_some_iff.mp isAfter
    refine ⟨before, isBefore, ?_⟩
    by_cases same : message = index
    · rw [if_pos same, if_pos same.symm, changes]
    · rw [if_neg same, if_neg (Ne.symm same)]
  · intro _ announcing
    rw [running] at announcing
    cases announcing

theorem Gathered.proceed (running : self.running = some (.ensured chunk message))
    : (self.proceed chunk message).Gathered := by
  have unchanged (notEnding : ¬ chunk.Ends) (adds : ∀ content, chunk.applyTo content = content)
      : Gathered { self with running := none } := by
    refine holds.reach running rfl rfl rfl (List.modify_id message _).symm ?_
      (if_neg notEnding).symm
    exact fun before => (adds before.content).symm
  unfold System.proceed
  split
  · next isBegin =>
    exact unchanged (chunk.not_ends_of_begin isBegin)
      (by simp [StructuredChunk.applyTo, isBegin])
  · next isItem =>
    have notEnding := chunk.not_ends_of_item isItem
    split
    · next delta isDelta =>
      refine holds.reach running rfl rfl rfl rfl (fun before => ?_) (if_neg notEnding).symm
      rw [chunk.applyTo_item isItem, isDelta, Option.getD_some]
    · next noDelta =>
      refine unchanged notEnding (fun content => ?_)
      rw [chunk.applyTo_item isItem, noDelta, Option.getD_none, String.append_empty]
  · next isEnd =>
    refine holds.reach running rfl rfl rfl rfl (fun before => ?_) (if_pos (.inl isEnd)).symm
    simp [StructuredChunk.applyTo, isEnd]
  · next isError =>
    refine holds.reach running rfl rfl rfl rfl (fun before => ?_) (if_pos (.inr isError)).symm
    cases isText : chunk.content with
    | none | some => simp [StructuredChunk.applyTo, isError, withError, isText]

theorem Gathered.resume (undisturbed : self.Undisturbed (.resume fails))
    (taken : self.resume fails = some next)
    : next.Gathered := by
  rcases resume_cases undisturbed taken with
    ⟨chunk, message, running, resumed⟩ | ⟨chunk, message, running, -, rfl⟩ | ⟨running, rfl⟩
  · exact holds.resume_announcing running resumed
  · exact holds.proceed running
  · have target : target? { self with running := none } = self.target? := by
      simp [target?, running]
    have notAnnouncing : self.announced = [] := by simp [announced, running]
    refine holds.congr rfl target rfl (fun _ after found => ⟨after, found, rfl⟩) ?_ holds.active
    intro notCancelled other key chunks isApplied open_
    exact .inl (holds.isActive notAnnouncing notCancelled isApplied open_)

/-! ### Cancelling -/

theorem Gathered.cancelNext (messages : List Nat)
    : (self.cancelNext messages).Gathered := by
  cases messages with
  | nil => exact holds
  | cons message rest =>
      refine holds.congr rfl rfl (List.length_modify ..) ?_ holds.registered holds.active
      intro index after found
      have modified
          : (self.messages.modify message
              (fun message => { message with status := .cancelled }))[index]?
            = some after := found
      rw [List.getElem?_modify] at modified
      obtain ⟨before, isBefore, rfl⟩ := Option.map_eq_some_iff.mp modified
      refine ⟨before, isBefore, ?_⟩
      split <;> rfl

theorem Gathered.cancelAll : self.cancelAll.Gathered := by
  have cleared : Gathered { self with cancelled := true, activeByKey := .empty } := by
    refine holds.congr rfl rfl rfl (fun _ after found => ⟨after, found, rfl⟩) ?_ ?_
    · intro notCancelled
      contradiction
    · intro key message found
      contradiction
  exact cleared.cancelNext self.activeByKey.values

theorem Gathered.resumeCancel {place : Nat} (taken : self.resumeCancel place fails = some next)
    : next.Gathered := by
  obtain ⟨messages, -, resumed⟩ := Option.map_eq_some_iff.mp taken
  have same (rejected : Bool)
      : Gathered { self with cancels := self.cancels.eraseIdx place, rejected } :=
    holds.congr rfl rfl rfl (fun _ after found => ⟨after, found, rfl⟩) holds.registered
      holds.active
  split at resumed
  · exact resumed ▸ same true
  · exact resumed ▸ (same self.rejected).cancelNext messages

end

theorem Gathered.step (holds : self.Gathered) {action : Action}
    (undisturbed : self.Undisturbed action) (taken : self.step stream action = some next)
    : next.Gathered := by
  cases action with
  | ingest chunk =>
      simp only [System.step] at taken
      split at taken
      · next idle => exact Option.some.inj taken ▸ holds.ingest idle chunk
      · contradiction
  | resume fails => exact holds.resume undisturbed taken
  | cancelAll => exact Option.some.inj taken ▸ holds.cancelAll
  | resumeCancel place fails => exact holds.resumeCancel taken

end System

/-! ### How messages follow one another -/

/-- Each message follows the one before it, and the first one follows `initial`. -/
def InChain (initial : String) (messages : List AggregatedMessage) : Prop :=
  messages.map AggregatedMessage.previousMessageId
    = (initial :: messages.map AggregatedMessage.id).dropLast

def HandlerCall.announced? : HandlerCall → Option Nat
  | .onBegin message => some message
  | _ => none

/-- The messages of the calls to `onBegin`, in order. -/
def announcements (calls : List HandlerCall) : List Nat :=
  calls.filterMap HandlerCall.announced?

theorem announcements_snoc_of_none {calls : List HandlerCall} {call : HandlerCall}
    (silent : call.announced? = none)
    : announcements (calls ++ [call]) = announcements calls := by
  simp [announcements, silent]

namespace System

/-- The next message follows the last one, and `onBegin` has been called for each in turn. -/
structure Chained (stream : Stream) (system : System) : Prop where
  links
    : stream.initialPreviousMessageId :: system.messages.map AggregatedMessage.id
      = system.messages.map AggregatedMessage.previousMessageId ++ [system.previousMessageId]
  order : announcements system.calls = List.range system.messages.length

variable {stream : Stream} {self next : System}

theorem chained_start : (start stream).Chained stream := ⟨rfl, rfl⟩

theorem Chained.inChain (holds : self.Chained stream)
    : InChain stream.initialPreviousMessageId self.messages := by
  rw [InChain, holds.links, List.dropLast_concat]

theorem Chained.startNew (holds : self.Chained stream) (chunk : StructuredChunk)
    : (self.startNew stream chunk).Chained stream := by
  constructor
  · change _ :: (self.messages ++ [_]).map _ = (self.messages ++ [_]).map _ ++ [_]
    rw [List.map_append, ← List.cons_append, holds.links, List.map_append]
    rfl
  · change announcements (self.calls ++ [_]) = List.range (self.messages ++ [_]).length
    rw [announcements, List.filterMap_append, List.length_append, List.range_add]
    exact congrArg₂ _ holds.order rfl

theorem map_modify_of_eq {α β : Type} {read : α → β} {change : α → α}
    (same : ∀ item, read (change item) = read item) (items : List α) (place : Nat)
    : (items.modify place change).map read = items.map read := by
  apply List.ext_getElem?
  intro index
  rw [List.getElem?_map, List.getElem?_map, List.getElem?_modify]
  cases items[index]? with
  | none => rfl
  | some item =>
      refine congrArg some ?_
      split
      · exact same item
      · rfl

section

variable (holds : self.Chained stream)

include holds

/-- A call for a message that is there already. -/
theorem Chained.tell {change : AggregatedMessage → AggregatedMessage} {call : HandlerCall}
    (messages : next.messages = self.messages.modify message change)
    (last : next.previousMessageId = self.previousMessageId)
    (calls : next.calls = self.calls ++ [call]) (silent : call.announced? = none)
    (ids : ∀ before, (change before).id = before.id)
    (previous : ∀ before, (change before).previousMessageId = before.previousMessageId)
    : next.Chained stream := by
  constructor
  · rw [messages, last, map_modify_of_eq ids, map_modify_of_eq previous]
    exact holds.links
  · rw [calls, messages, announcements_snoc_of_none silent, List.length_modify]
    exact holds.order

theorem Chained.ingest (chunk : StructuredChunk)
    : (self.ingest stream chunk).Chained stream := by
  have handedOver : (self.handOver chunk).Chained stream := ⟨holds.links, holds.order⟩
  unfold System.ingest
  split
  · exact holds
  · split
    · exact handedOver.startNew chunk
    · split
      · exact handedOver
      · exact ⟨holds.links, holds.order⟩

theorem Chained.proceed (chunk : StructuredChunk) (message : Nat)
    : (self.proceed chunk message).Chained stream := by
  have idle : Chained stream { self with running := none } := ⟨holds.links, holds.order⟩
  unfold System.proceed
  split
  · exact idle
  · split
    · exact holds.tell rfl rfl rfl rfl (fun _ => rfl) (fun _ => rfl)
    · exact idle
  · exact holds.tell rfl rfl rfl rfl (fun _ => rfl) (fun _ => rfl)
  · exact holds.tell rfl rfl rfl rfl (fun _ => rfl) (fun _ => rfl)

theorem Chained.resume (taken : self.resume fails = some next)
    : next.Chained stream := by
  unfold System.resume at taken
  split at taken
  · contradiction
  · split at taken
    · exact Option.some.inj taken ▸ ⟨holds.links, holds.order⟩
    · split at taken
      · exact Option.some.inj taken ▸ ⟨holds.links, holds.order⟩
      · exact Option.some.inj taken ▸ ⟨holds.links, holds.order⟩
  · split at taken
    · contradiction
    · exact Option.some.inj taken ▸ holds.proceed _ _
  · exact Option.some.inj taken ▸ ⟨holds.links, holds.order⟩

theorem Chained.cancelNext (messages : List Nat)
    : (self.cancelNext messages).Chained stream := by
  cases messages with
  | nil => exact holds
  | cons message rest => exact holds.tell rfl rfl rfl rfl (fun _ => rfl) (fun _ => rfl)

theorem Chained.resumeCancel {place : Nat} (taken : self.resumeCancel place fails = some next)
    : next.Chained stream := by
  obtain ⟨messages, -, resumed⟩ := Option.map_eq_some_iff.mp taken
  split at resumed
  · exact resumed ▸ ⟨holds.links, holds.order⟩
  · have unchanged : Chained stream { self with cancels := self.cancels.eraseIdx place } :=
      ⟨holds.links, holds.order⟩
    exact resumed ▸ unchanged.cancelNext messages

end

theorem Chained.step (holds : self.Chained stream) {action : Action}
    (taken : self.step stream action = some next)
    : next.Chained stream := by
  cases action with
  | ingest chunk =>
      simp only [System.step] at taken
      split at taken
      · exact Option.some.inj taken ▸ holds.ingest chunk
      · contradiction
  | resume fails => exact holds.resume taken
  | cancelAll =>
      have cleared
          : Chained stream { self with cancelled := true, activeByKey := .empty } :=
        ⟨holds.links, holds.order⟩
      exact Option.some.inj taken ▸ cleared.cancelNext self.activeByKey.values
  | resumeCancel place fails => exact holds.resumeCancel taken

/-! ### Whole streams -/

/-- A message ends at most once and gets no item after that; each has ended where every
`cancelAll` has returned and no `ingest` runs; where none runs, its content is that of its
chunks; and the messages are announced in order, one following the other.
-/
structure StreamsProperly (stream : Stream) (system : System) : Prop where
  once : EndsOnce system.calls
  ended
    : system.AllReturned → ∀ message < system.messages.length, Ended system.calls message
  content
    : system.running = none
        → ∀ (index : Nat) (message : AggregatedMessage), system.messages[index]? = some message
          → ∃ key chunks, system.since[index]? = some (key, chunks)
            ∧ message.content = contentSince key chunks
  chain : InChain stream.initialPreviousMessageId system.messages
  order : announcements system.calls = List.range system.messages.length

/-- What a stream that is not disturbed keeps. -/
structure Orderly (stream : Stream) (system : System) : Prop where
  bookkept : system.Bookkept
  gathered : system.Gathered
  chained : system.Chained stream

theorem orderly_start : (start stream).Orderly stream :=
  ⟨bookkept_start, gathered_start, chained_start⟩

theorem Orderly.step (holds : self.Orderly stream) {action : Action}
    (undisturbed : self.Undisturbed action) (taken : self.step stream action = some next)
    : next.Orderly stream where
  bookkept := holds.bookkept.step undisturbed taken
  gathered := holds.gathered.step undisturbed taken
  chained := holds.chained.step taken

theorem Orderly.streamsProperly (holds : self.Orderly stream)
    : self.StreamsProperly stream where
  once := holds.bookkept.tally.once
  ended returned _ created := holds.bookkept.ended returned created
  content idle index message found := by
    obtain ⟨key, chunks, isApplied, same⟩ := holds.gathered.content index message found
    exact ⟨key, chunks, (applied_of_idle idle).mp isApplied, same⟩
  chain := holds.chained.inChain
  order := holds.chained.order

/-- A stream that nothing disturbs is proper wherever it stands. -/
theorem throughout_streamsProperly (stream : Stream) (actions : List Action)
    (undisturbed : Along (System.step stream) Undisturbed (start stream) actions)
    : Throughout (System.step stream) (StreamsProperly stream) (start stream) actions := by
  have orderly : Throughout (System.step stream) (Orderly stream) (start stream) actions :=
    throughout_of_preserved (fun _ _ _ holds fits taken => holds.step fits taken) orderly_start
      undisturbed
  exact orderly.mono (fun _ holds => holds.streamsProperly)

def plainStream : Stream where
  initialPreviousMessageId := "first"
  retryOfMessageId := none
  uuidv4 number := if number = 0 then "second" else "third"

def chunkOf (nodeId : String) (type : ChunkType) (content : Option String) : StructuredChunk where
  type
  content
  metadata := ⟨nodeId, 0, 0⟩

/-- `cancelAll` comes while the message of an end that had no begin is announced. -/
theorem throughout_streamsProperly_cancelled
    : Throughout (System.step plainStream) (StreamsProperly plainStream) (start plainStream)
        [
          .ingest (chunkOf "Agent" .begin none), .resume false,
          .ingest (chunkOf "Agent" .item (some "Hello")), .resume false, .resume false,
          .ingest (chunkOf "Model" .«end» none), .cancelAll, .resume false, .resumeCancel 0 false,
          .resume false, .resume false
        ] :=
  throughout_streamsProperly plainStream _ (by decide +kernel)

/-- A message that is announced while `cancelAll` runs never ends. -/
theorem not_throughout_streamsProperly_announced
    : ¬ Throughout (System.step plainStream) (StreamsProperly plainStream) (start plainStream)
        [.ingest (chunkOf "Agent" .begin none), .cancelAll, .resume false] := by
  intro throughout
  have proper := throughout.last (by rfl)
  have ended := proper.ended ⟨rfl, rfl, rfl, rfl⟩ 0 (by decide)
  revert ended
  decide

end System

end N8n.ChatHub
