import Mathlib.Data.List.Basic

/-! The write lock on one workflow
(`packages/cli/src/collaboration/collaboration.state.ts`,
`packages/cli/src/collaboration/collaboration.service.ts`). The cache keeps the lock until its
time to live has passed.
-/

namespace N8n.Collaboration

/-- The data of a lock, which also names the client that a message comes from. -/
structure WriteLock where
  clientId : String
  userId : String
  deriving DecidableEq, Repr

/-- What the cache holds under the key of the lock; times are in milliseconds. -/
structure CacheEntry where
  lock : WriteLock
  expiresAt : Nat
  deriving DecidableEq, Repr

/-- Two minutes. -/
def writeLockTtl : Nat := 2 * 60 * 1000

/-- The cache and the time. -/
structure CollaborationState where
  cache : Option CacheEntry
  now : Nat
  deriving DecidableEq, Repr

namespace CollaborationState

/-- An expired entry is not found, and data without both ids is no lock. -/
def getWriteLock (self : CollaborationState) : Option WriteLock :=
  ((self.cache.filter (fun entry => self.now ≤ entry.expiresAt)).map CacheEntry.lock).filter
    (fun lock => lock.clientId ≠ "" && lock.userId ≠ "")

def setWriteLock (self : CollaborationState) (lock : WriteLock) : CollaborationState :=
  { self with cache := some ⟨lock, self.now + writeLockTtl⟩ }

def releaseWriteLock (self : CollaborationState) : CollaborationState :=
  { self with cache := none }

end CollaborationState

/-- The messages that concern the lock. -/
inductive WorkflowMessage where
  | writeAccessRequested (force : Bool)
  | writeAccessReleaseRequested
  | writeAccessHeartbeat
  | workflowClosed
  deriving DecidableEq, Repr

/-- A handler at one of its waits, with the variables that it still reads. -/
inductive Task where
  /-- Before the read of `handleWriteAccessRequested`. -/
  | requests (client : WriteLock) (force : Bool)
  /-- Before `setWriteLock`. -/
  | acquires (client : WriteLock) (force : Bool) (currentLock : Option WriteLock)
  /-- Before `sendWriteAccessAcquiredMessage`. -/
  | tells (client : WriteLock)
  /-- Before the read of `handleWriteAccessReleaseRequested` or `handleWorkflowClosed`. -/
  | releases (client : WriteLock)
  /-- Before `releaseWriteLock`. -/
  | deletes (client currentLock : WriteLock)
  /-- Before the read of `renewWriteLock`. -/
  | renews (client : WriteLock)
  /-- Before the lock is stored again. -/
  | rewrites (client currentLock : WriteLock)
  deriving DecidableEq, Repr

/-- What the handlers did: the lock they stored with the one it replaced, whom they told that
it has the lock, and the lock that a client's release removed.
-/
inductive Event where
  | wrote (lock : WriteLock) (replaced : Option WriteLock) (force : Bool) (now : Nat)
  | told (client : WriteLock) (now : Nat)
  | removed (client : WriteLock) (lock : Option WriteLock)
  deriving DecidableEq, Repr

/-- The handler of a message up to its first access to the cache, access being granted. -/
def handleUserMessage (client : WriteLock) : WorkflowMessage → Task
  | .writeAccessRequested force => .requests client force
  | .writeAccessReleaseRequested => .releases client
  | .writeAccessHeartbeat => .renews client
  | .workflowClosed => .releases client

/-- A forced request may take the lock of a client of the same user, any other request only
the client's own.
-/
def mayAcquire (client : WriteLock) (force : Bool) : Option WriteLock → Bool
  | none => true
  | some currentLock =>
      if force then currentLock.userId = client.userId
      else currentLock.clientId = client.clientId

/-- One access to the cache and the code up to the next one. -/
def Task.resume (state : CollaborationState)
    : Task → CollaborationState × Option Task × List Event
  | .requests client force =>
      let currentLock := state.getWriteLock
      if mayAcquire client force currentLock then
        (state, some (.acquires client force currentLock), [])
      else (state, none, [])
  | .acquires client force _ =>
      (state.setWriteLock client, some (.tells client),
        [.wrote client state.getWriteLock force state.now])
  | .tells client => (state, none, [.told client state.now])
  | .releases client =>
      match state.getWriteLock with
      | none => (state, none, [])
      | some currentLock =>
          if currentLock.clientId = client.clientId then
            (state, some (.deletes client currentLock), [])
          else (state, none, [])
  | .deletes client _ => (state.releaseWriteLock, none, [.removed client state.getWriteLock])
  | .renews client =>
      match state.getWriteLock with
      | none => (state, none, [])
      | some currentLock =>
          if currentLock.clientId = client.clientId then
            (state, some (.rewrites client currentLock), [])
          else (state, none, [])
  | .rewrites _ currentLock =>
      (state.setWriteLock currentLock, none,
        [.wrote currentLock state.getWriteLock false state.now])

end N8n.Collaboration
