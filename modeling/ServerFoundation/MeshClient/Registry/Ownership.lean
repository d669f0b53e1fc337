import Mathlib.Data.Finset.Card
import Mathlib.Data.String.Basic
import ServerFoundation.Data.Redis

/-!
# Client records and node sets

The two structures that say who owns a client: the `clients` hash, which holds
one encoded record per client id, and the set `node:<id>:clients` of each node.
The registry scripts write them one command at a time, so the commands are
modeled one by one, and `Consistent` says when the two structures agree.

Records are stored decoded. The scripts only ever decode what a script encoded,
so decoding is total and comparing two encoded records is comparing the records;
the branches of the cleanup scripts for undecodable values are unreachable.
`metadata` is left out of a record because it is the decoding of `metadataJson`.
-/

namespace ServerFoundation.MeshClient

/-- The id of a client. -/
abbrev ClientId := String

/-- Mesh instance ids come from a counter; `tostring` prints them exactly. -/
abbrev NodeId := ℕ

/-- `MeshClientRegistrationState`. -/
inductive RegistrationState where
  | active
  | pending
deriving DecidableEq, Repr

/-- An encoded value of the `clients` hash. -/
structure ClientRecord where
  nodeId : NodeId
  connectedAt : ℕ
  state : RegistrationState
  claimId : Option String
  connectionId : String
  processId : String
  hasMetadata : Bool
  metadataJson : String
deriving DecidableEq, Repr

/-- The `clients` hash and the per-node client sets. -/
structure Ownership where
  clients : Expiring (OrderedMap ClientId ClientRecord) ℕ
  nodeClients : NodeId → Expiring (Finset ClientId) ℕ

namespace Ownership

/-- No key exists. -/
def empty : Ownership where
  clients := ⟨.empty, none⟩
  nodeClients _ := ⟨∅, none⟩

/-- `HGET clients clientId`. -/
def client (ownership : Ownership) (clientId : ClientId) : Option ClientRecord :=
  ownership.clients.value.get? clientId

/-- The members of `node:<nodeId>:clients`. -/
def members (ownership : Ownership) (nodeId : NodeId) : Finset ClientId :=
  (ownership.nodeClients nodeId).value

/-- `HSET clients clientId record`. -/
def hset (ownership : Ownership) (clientId : ClientId) (record : ClientRecord) : Ownership :=
  { ownership with
    clients := ownership.clients.write (ownership.clients.value.set clientId record) }

/-- `HDEL clients clientId`. -/
def hdel (ownership : Ownership) (clientId : ClientId) : Ownership :=
  { ownership with clients := ownership.clients.write (ownership.clients.value.erase clientId) }

/-- Replace the members of one node set. -/
def setMembers (ownership : Ownership) (nodeId : NodeId) (members : Finset ClientId) :
    Ownership :=
  { ownership with
    nodeClients := Function.update ownership.nodeClients nodeId
      ((ownership.nodeClients nodeId).write members) }

/-- `SADD node:<nodeId>:clients clientId`. -/
def sadd (ownership : Ownership) (nodeId : NodeId) (clientId : ClientId) : Ownership :=
  ownership.setMembers nodeId (insert clientId (ownership.members nodeId))

/-- `SREM node:<nodeId>:clients clientId`. -/
def srem (ownership : Ownership) (nodeId : NodeId) (clientId : ClientId) : Ownership :=
  ownership.setMembers nodeId ((ownership.members nodeId).erase clientId)

/-- `EXPIRE clients`. -/
def expireClients (ownership : Ownership) (deadline : ℕ) : Ownership :=
  { ownership with clients := ownership.clients.expireAt deadline }

/-- `EXPIRE node:<nodeId>:clients`. -/
def expireMembers (ownership : Ownership) (nodeId : NodeId) (deadline : ℕ) : Ownership :=
  { ownership with
    nodeClients := Function.update ownership.nodeClients nodeId
      ((ownership.nodeClients nodeId).expireAt deadline) }

/-- Redis time reaches `time`. -/
def elapse (ownership : Ownership) (time : ℕ) : Ownership where
  clients := ownership.clients.elapse .empty time
  nodeClients nodeId := (ownership.nodeClients nodeId).elapse ∅ time

section Views

variable (ownership : Ownership) (clientId other : ClientId) (nodeId node : NodeId)
  (record : ClientRecord) (deadline : ℕ)

@[simp]
theorem client_empty : empty.client clientId = none := rfl

@[simp]
theorem members_empty : empty.members nodeId = ∅ := rfl

@[simp]
theorem client_hset :
    (ownership.hset clientId record).client other =
      if other = clientId then some record else ownership.client other := by
  simp [client, hset]

@[simp]
theorem members_hset :
    (ownership.hset clientId record).members nodeId = ownership.members nodeId := rfl

@[simp]
theorem client_hdel :
    (ownership.hdel clientId).client other =
      if other = clientId then none else ownership.client other := by
  simp [client, hdel]

@[simp]
theorem members_hdel :
    (ownership.hdel clientId).members nodeId = ownership.members nodeId := rfl

@[simp]
theorem members_setMembers (members : Finset ClientId) :
    (ownership.setMembers nodeId members).members node =
      if node = nodeId then members else ownership.members node := by
  by_cases same : node = nodeId
  · subst same
    simp [Ownership.members, setMembers]
  · simp [Ownership.members, setMembers, same]

@[simp]
theorem client_sadd :
    (ownership.sadd nodeId clientId).client other = ownership.client other := rfl

@[simp]
theorem mem_members_sadd :
    other ∈ (ownership.sadd nodeId clientId).members node ↔
      (node = nodeId ∧ other = clientId) ∨ other ∈ ownership.members node := by
  by_cases same : node = nodeId
  · subst same
    simp [sadd]
  · simp [sadd, same]

@[simp]
theorem client_srem :
    (ownership.srem nodeId clientId).client other = ownership.client other := rfl

@[simp]
theorem mem_members_srem :
    other ∈ (ownership.srem nodeId clientId).members node ↔
      ¬(node = nodeId ∧ other = clientId) ∧ other ∈ ownership.members node := by
  by_cases same : node = nodeId
  · subst same
    simp [srem]
  · simp [srem, same]

@[simp]
theorem client_expireClients :
    (ownership.expireClients deadline).client clientId = ownership.client clientId := rfl

@[simp]
theorem members_expireClients :
    (ownership.expireClients deadline).members nodeId = ownership.members nodeId := rfl

@[simp]
theorem client_expireMembers :
    (ownership.expireMembers nodeId deadline).client clientId = ownership.client clientId := rfl

@[simp]
theorem members_expireMembers :
    (ownership.expireMembers nodeId deadline).members node = ownership.members node := by
  by_cases same : node = nodeId
  · subst same
    simp [Ownership.members, expireMembers]
  · simp [Ownership.members, expireMembers, same]

end Views

/-- The hash holds a record of node `n` for a client exactly when the client is in the set
of `n`. -/
def Consistent (ownership : Ownership) : Prop :=
  ∀ clientId nodeId,
    (∃ record, ownership.client clientId = some record ∧ record.nodeId = nodeId) ↔
      clientId ∈ ownership.members nodeId

namespace Consistent

variable {ownership : Ownership} {clientId : ClientId} {record : ClientRecord}

theorem empty : Ownership.empty.Consistent := by
  intro clientId nodeId
  simp

section

variable (consistent : ownership.Consistent)
include consistent

theorem congr {other : Ownership}
    (clients : ∀ clientId, other.client clientId = ownership.client clientId)
    (members : ∀ nodeId, other.members nodeId = ownership.members nodeId) : other.Consistent := by
  intro clientId nodeId
  rw [clients, members]
  exact consistent clientId nodeId

theorem expireClients (deadline : ℕ) : (ownership.expireClients deadline).Consistent :=
  consistent.congr (by simp) (by simp)

theorem expireMembers (nodeId : NodeId) (deadline : ℕ) :
    (ownership.expireMembers nodeId deadline).Consistent :=
  consistent.congr (by simp) (by simp)

theorem members_unique {left right : NodeId} (inLeft : clientId ∈ ownership.members left)
    (inRight : clientId ∈ ownership.members right) : left = right := by
  rcases (consistent clientId left).mpr inLeft with ⟨record, found, rfl⟩
  rcases (consistent clientId right).mpr inRight with ⟨same, foundSame, rfl⟩
  rw [found] at foundSame
  cases foundSame
  rfl

theorem put
    (notElsewhere : ∀ old, ownership.client clientId = some old → old.nodeId = record.nodeId) :
    ((ownership.hset clientId record).sadd record.nodeId clientId).Consistent := by
  intro other nodeId
  simp only [client_sadd, client_hset, mem_members_sadd, members_hset, ← consistent other nodeId]
  by_cases same : other = clientId
  · subst same
    simp only [if_pos, Option.some.injEq, exists_eq_left', and_true]
    constructor
    · intro isNode
      exact .inl isNode.symm
    · rintro (isNode | ⟨old, found, isNode⟩)
      · exact isNode.symm
      · rw [← notElsewhere old found]
        exact isNode
  · simp [same]

theorem rewrite {old : ClientRecord} (found : ownership.client clientId = some old)
    (sameNode : record.nodeId = old.nodeId) : (ownership.hset clientId record).Consistent := by
  intro other nodeId
  simp only [client_hset, members_hset, ← consistent other nodeId]
  by_cases same : other = clientId
  · subst same
    simp [found, sameNode]
  · simp [same]

theorem remove {old : ClientRecord} (found : ownership.client clientId = some old) :
    ((ownership.hdel clientId).srem old.nodeId clientId).Consistent := by
  intro other nodeId
  simp only [client_srem, client_hdel, mem_members_srem, members_hdel, ← consistent other nodeId]
  by_cases same : other = clientId
  · subst same
    simp [found, eq_comm]
  · simp [same]

theorem move {oldNode : NodeId}
    (onlyOld : ∀ old, ownership.client clientId = some old → old.nodeId = oldNode) :
    (((ownership.srem oldNode clientId).hset clientId record).sadd record.nodeId
      clientId).Consistent := by
  intro other nodeId
  simp only [client_sadd, client_hset, client_srem, mem_members_sadd, members_hset,
    mem_members_srem, ← consistent other nodeId]
  by_cases same : other = clientId
  · subst same
    simp only [if_pos, Option.some.injEq, exists_eq_left', and_true]
    constructor
    · intro isNode
      exact .inl isNode.symm
    · rintro (isNode | ⟨notOld, old, found, isNode⟩)
      · exact isNode.symm
      · exact absurd (isNode.symm.trans (onlyOld old found)) notOld
  · simp [same]

end

end Consistent

end Ownership

end ServerFoundation.MeshClient
