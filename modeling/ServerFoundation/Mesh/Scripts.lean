import Mathlib.Data.String.Basic
import ServerFoundation.Data.Redis

/-!
# Mesh membership in Redis

The keys and Lua scripts of `MeshService`: the sorted set of heartbeats, the hash
of node metadata, and the two lists of nodes that still have to be cleaned up. A
node that expires moves from the heartbeats to the `cleanup` list. A leader moves
it on to the `processing` list under a random token, and removes it from there
when its cleanup has succeeded.

Instance ids are numbers from a counter, printed in decimal wherever Redis stores
them. Redis time is in milliseconds.
-/

namespace ServerFoundation.Mesh

/-- The number of an instance. -/
abbrev InstanceId := ℕ

/-- `String(instanceId)`. -/
def printId (instanceId : InstanceId) : String := Nat.repr instanceId

/-- The keys of one mesh, and the time of the Redis server. -/
structure MeshStore where
  now : ℤ
  nextId : ℕ
  heartbeats : SortedSet String ℤ
  nodes : OrderedMap String String
  cleanup : List String
  processing : List String

/-- The mode argument of `HEARTBEAT`. -/
inductive HeartbeatMode where
  | create
  | renew
deriving DecidableEq, Repr

/-- The text before the first separator: `string.sub(id, 1, separator - 1)`, or all of it. -/
def obligationId (entry : String) : String :=
  String.ofList (entry.toList.takeWhile (· ≠ '|'))

namespace MeshStore

/-- Keys that have never been written. -/
def empty (now : ℤ) : MeshStore := ⟨now, 0, .empty, .empty, [], []⟩

/-- `INCR next_id`. -/
def incr (store : MeshStore) : MeshStore × InstanceId :=
  ({ store with nextId := store.nextId + 1 }, store.nextId + 1)

/-- The score of a member that has not expired at the time of the call. -/
def liveScore (store : MeshStore) (id : String) (ttlMs : ℤ) : Option ℤ :=
  (store.heartbeats.get? id).filter fun score => ¬score ≤ store.now - ttlMs

/-- `HEARTBEAT_SCRIPT`: it returns the time of the heartbeat, or none where the source
returns 0. -/
def heartbeatScript (store : MeshStore) (id : String) (mode : HeartbeatMode) (ttlMs : ℤ) :
    MeshStore × Option ℤ :=
  match mode with
  | .create =>
      match store.heartbeats.get? id with
      | some _ => (store, some store.now)
      | none => ({ store with heartbeats := store.heartbeats.set id store.now }, some store.now)
  | .renew =>
      match store.liveScore id ttlMs with
      | none => (store, none)
      | some _ => ({ store with heartbeats := store.heartbeats.set id store.now }, some store.now)

/-- The loop body of `CLEANUP_SCRIPT`. -/
def expireNode (store : MeshStore) (id : String) : MeshStore :=
  { store with
    heartbeats := store.heartbeats.erase id
    nodes := store.nodes.erase id
    cleanup := id :: store.cleanup }

/-- `CLEANUP_SCRIPT`. -/
def cleanupScript (store : MeshStore) (ttlMs : ℤ) (batchSize : ℕ) : MeshStore × List String :=
  let expired := store.heartbeats.rangeUpTo (store.now - ttlMs) batchSize
  (expired.foldl expireNode store, expired)

/-- `DEREGISTER_SCRIPT`. -/
def deregisterScript (store : MeshStore) (id : String) : MeshStore :=
  { store with heartbeats := store.heartbeats.erase id, nodes := store.nodes.erase id }

/-- `UPDATE_METADATA_SCRIPT`: whether the node was alive. -/
def updateMetadataScript (store : MeshStore) (id metadata : String) (ttlMs : ℤ) :
    MeshStore × Bool :=
  match store.liveScore id ttlMs with
  | none => (store, false)
  | some _ => ({ store with nodes := store.nodes.set id metadata }, true)

/-- One round of the loop of `RECOVER_CLEANUP_SCRIPT`. -/
def recoverOne (store : MeshStore) : MeshStore :=
  match store.processing.getLast? with
  | none => store
  | some entry =>
      { store with
        processing := store.processing.dropLast
        cleanup := obligationId entry :: store.cleanup }

/-- `RECOVER_CLEANUP_SCRIPT`; the loop leaves an empty list alone. -/
def recoverCleanupScript (store : MeshStore) : ℕ → MeshStore
  | 0 => store
  | rounds + 1 => recoverCleanupScript store.recoverOne rounds

/-- `CLAIM_CLEANUP_SCRIPT`: the claim, or none where the source returns the empty string. -/
def claimCleanupScript (store : MeshStore) (token : String) : MeshStore × Option String :=
  match store.cleanup.getLast? with
  | none => (store, none)
  | some id =>
      let claim := id ++ "|" ++ token
      ({ store with
        cleanup := store.cleanup.dropLast
        processing := claim :: store.processing }, some claim)

/-- `ACK_CLEANUP_SCRIPT`: whether the claim was there. -/
def ackCleanupScript (store : MeshStore) (claim : String) : MeshStore × Bool :=
  ({ store with processing := store.processing.erase claim }, decide (claim ∈ store.processing))

/-- `NACK_CLEANUP_SCRIPT`. -/
def nackCleanupScript (store : MeshStore) (claim : String) : MeshStore × Bool :=
  if claim ∈ store.processing then
    ({ store with
      processing := store.processing.erase claim
      cleanup := obligationId claim :: store.cleanup }, true)
  else (store, false)

section Effects

variable (store : MeshStore) (id other : String)

theorem heartbeatScript_cases (mode : HeartbeatMode) (ttlMs : ℤ) :
    store.heartbeatScript id mode ttlMs = (store, none) ∨
      (store.heartbeats.get? id ≠ none ∧
        store.heartbeatScript id mode ttlMs = (store, some store.now) ∧ mode = .create) ∨
      (store.heartbeatScript id mode ttlMs =
          ({ store with heartbeats := store.heartbeats.set id store.now }, some store.now) ∧
        (mode = .renew → ∃ score, store.heartbeats.get? id = some score)) := by
  cases mode with
  | create =>
      simp only [heartbeatScript]
      split
      · rename_i present
        exact Or.inr (Or.inl ⟨by simp [present], rfl, trivial⟩)
      · exact Or.inr (Or.inr ⟨rfl, by simp⟩)
  | renew =>
      simp only [heartbeatScript]
      split
      · exact Or.inl rfl
      · rename_i score live
        rw [liveScore, Option.filter_eq_some_iff] at live
        exact Or.inr (Or.inr ⟨rfl, fun _ => ⟨score, live.1⟩⟩)

theorem foldl_expireNode (expired : List String) :
    (expired.foldl expireNode store).now = store.now ∧
      (expired.foldl expireNode store).nextId = store.nextId ∧
      (expired.foldl expireNode store).cleanup = expired.reverse ++ store.cleanup ∧
      (expired.foldl expireNode store).processing = store.processing ∧
      (expired.foldl expireNode store).heartbeats.get? other =
        if other ∈ expired then none else store.heartbeats.get? other := by
  induction expired generalizing store with
  | nil => simp
  | cons id rest ih =>
      rcases ih (store.expireNode id) with ⟨now, nextId, cleanup, processing, heartbeats⟩
      rw [List.foldl_cons]
      refine ⟨now, nextId, ?_, processing, ?_⟩
      · rw [cleanup]
        simp [expireNode]
      · rw [heartbeats]
        simp only [expireNode, OrderedMap.get?_erase, List.mem_cons]
        grind

section Cleanup

variable (ttlMs : ℤ) (batchSize : ℕ)

theorem cleanupScript_now : (store.cleanupScript ttlMs batchSize).1.now = store.now :=
  (store.foldl_expireNode "" _).1

theorem cleanupScript_nextId : (store.cleanupScript ttlMs batchSize).1.nextId = store.nextId :=
  (store.foldl_expireNode "" _).2.1

theorem cleanupScript_cleanup : (store.cleanupScript ttlMs batchSize).1.cleanup =
    (store.cleanupScript ttlMs batchSize).2.reverse ++ store.cleanup :=
  (store.foldl_expireNode "" _).2.2.1

theorem cleanupScript_processing :
    (store.cleanupScript ttlMs batchSize).1.processing = store.processing :=
  (store.foldl_expireNode "" _).2.2.2.1

theorem cleanupScript_heartbeat :
    (store.cleanupScript ttlMs batchSize).1.heartbeats.get? other =
      if other ∈ (store.cleanupScript ttlMs batchSize).2 then none
      else store.heartbeats.get? other :=
  (store.foldl_expireNode other _).2.2.2.2

theorem cleanupScript_expired_nodup : (store.cleanupScript ttlMs batchSize).2.Nodup :=
  SortedSet.rangeUpTo_nodup _ _ _

theorem score_of_expired {store : MeshStore} {id : String} {ttlMs : ℤ} {batchSize : ℕ}
    (expired : id ∈ (store.cleanupScript ttlMs batchSize).2) :
    ∃ score, store.heartbeats.get? id = some score ∧ score ≤ store.now - ttlMs :=
  SortedSet.score_le_of_mem_rangeUpTo expired

end Cleanup

end Effects

end MeshStore

end ServerFoundation.Mesh
