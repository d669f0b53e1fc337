import ServerFoundation.MeshClient.Registry.Ownership

/-!
# Takeover claims

A claim is a private reservation of a client id for one takeover. It is kept in three places:
the `claims` hash, the `claims:index` sorted set, scored by the claim's expiry, and the set
`node:<id>:claims` of the claiming node. `Tracked` says when the three agree.

The set of a node can lapse while the hash, refreshed by another node, still holds a claim of
that node, so `Tracked` is told which claims their set has to contain.
-/

namespace ServerFoundation.MeshClient

/-- A value of the `claims` hash: `preimage` is the record found when the claim was made, `previous`
the one to be fenced. -/
structure Claim where
  claimId : String
  nodeId : NodeId
  metadataJson : String
  hasMetadata : Bool
  state : RegistrationState
  connectionId : String
  processId : String
  connectedAt : ℕ
  expiresAt : ℕ
  previous : Option ClientRecord
  preimage : Option ClientRecord
  operationId : String
  requestFingerprint : String
  previous_eq : previous = preimage.filter fun record =>
    ¬(record.nodeId = nodeId ∧ record.connectionId = connectionId)
deriving DecidableEq, Repr

/-- The `claims` hash, its expiry index and the per-node claim sets. -/
structure Reservations where
  claims : Expiring (OrderedMap ClientId Claim) ℕ
  claimsIndex : Expiring (SortedSet ClientId ℕ) ℕ
  nodeClaims : NodeId → Expiring (Finset ClientId) ℕ

namespace Reservations

/-- No key exists. -/
def empty : Reservations where
  claims := ⟨.empty, none⟩
  claimsIndex := ⟨.empty, none⟩
  nodeClaims _ := ⟨∅, none⟩

/-- `HGET claims clientId`. -/
def claim (reservations : Reservations) (clientId : ClientId) : Option Claim :=
  reservations.claims.value.get? clientId

/-- `ZSCORE claims:index clientId`. -/
def score (reservations : Reservations) (clientId : ClientId) : Option ℕ :=
  reservations.claimsIndex.value.get? clientId

/-- The members of `node:<nodeId>:claims`. -/
def members (reservations : Reservations) (nodeId : NodeId) : Finset ClientId :=
  (reservations.nodeClaims nodeId).value

/-- `HSET claims clientId claim`. -/
def hset (reservations : Reservations) (clientId : ClientId) (claim : Claim) : Reservations :=
  { reservations with
    claims := reservations.claims.write (reservations.claims.value.set clientId claim) }

/-- `HDEL claims clientId`. -/
def hdel (reservations : Reservations) (clientId : ClientId) : Reservations :=
  { reservations with
    claims := reservations.claims.write (reservations.claims.value.erase clientId) }

/-- `ZADD claims:index score clientId`. -/
def zadd (reservations : Reservations) (clientId : ClientId) (score : ℕ) : Reservations :=
  { reservations with
    claimsIndex :=
      reservations.claimsIndex.write (reservations.claimsIndex.value.set clientId score) }

/-- `ZREM claims:index clientId`. -/
def zrem (reservations : Reservations) (clientId : ClientId) : Reservations :=
  { reservations with
    claimsIndex := reservations.claimsIndex.write (reservations.claimsIndex.value.erase clientId) }

/-- Replace the members of one claim set. -/
def setMembers (reservations : Reservations) (nodeId : NodeId) (members : Finset ClientId) :
    Reservations :=
  { reservations with
    nodeClaims := Function.update reservations.nodeClaims nodeId
      ((reservations.nodeClaims nodeId).write members) }

/-- `SADD node:<nodeId>:claims clientId`. -/
def sadd (reservations : Reservations) (nodeId : NodeId) (clientId : ClientId) : Reservations :=
  reservations.setMembers nodeId (insert clientId (reservations.members nodeId))

/-- `SREM node:<nodeId>:claims clientId`. -/
def srem (reservations : Reservations) (nodeId : NodeId) (clientId : ClientId) : Reservations :=
  reservations.setMembers nodeId ((reservations.members nodeId).erase clientId)

/-- The three `EXPIRE` commands after a claim is written. -/
def expire (reservations : Reservations) (nodeId : NodeId) (deadline : ℕ) : Reservations where
  claims := reservations.claims.expireAt deadline
  claimsIndex := reservations.claimsIndex.expireAt deadline
  nodeClaims := Function.update reservations.nodeClaims nodeId
    ((reservations.nodeClaims nodeId).expireAt deadline)

/-- Redis time reaches `time`. -/
def elapse (reservations : Reservations) (time : ℕ) : Reservations where
  claims := reservations.claims.elapse .empty time
  claimsIndex := reservations.claimsIndex.elapse .empty time
  nodeClaims nodeId := (reservations.nodeClaims nodeId).elapse ∅ time

/-- Delete a claim of `nodeId` from all three places. -/
def release (reservations : Reservations) (nodeId : NodeId) (clientId : ClientId) :
    Reservations :=
  ((reservations.hdel clientId).zrem clientId).srem nodeId clientId

/-- Write a claim to all three places and refresh their deadlines. -/
def reserve (reservations : Reservations) (clientId : ClientId) (claim : Claim)
    (deadline : ℕ) : Reservations :=
  (((reservations.hset clientId claim).zadd clientId claim.expiresAt).sadd claim.nodeId
    clientId).expire claim.nodeId deadline

section Views

variable (reservations : Reservations) (clientId other : ClientId) (nodeId node : NodeId)

@[simp]
theorem claim_empty : empty.claim clientId = none := rfl

@[simp]
theorem score_empty : empty.score clientId = none := rfl

@[simp]
theorem members_empty : empty.members nodeId = ∅ := rfl

@[simp]
theorem members_setMembers (members : Finset ClientId) :
    (reservations.setMembers nodeId members).members node =
      if node = nodeId then members else reservations.members node := by
  by_cases same : node = nodeId
  · subst same
    simp [Reservations.members, setMembers]
  · simp [Reservations.members, setMembers, same]

@[simp]
theorem claim_release :
    (reservations.release nodeId clientId).claim other =
      if other = clientId then none else reservations.claim other := by
  simp [claim, release, hdel, zrem, srem, setMembers]

@[simp]
theorem score_release :
    (reservations.release nodeId clientId).score other =
      if other = clientId then none else reservations.score other := by
  simp [score, release, hdel, zrem, srem, setMembers]

@[simp]
theorem mem_members_release :
    other ∈ (reservations.release nodeId clientId).members node ↔
      ¬(node = nodeId ∧ other = clientId) ∧ other ∈ reservations.members node := by
  have untouched : ∀ node, ((reservations.hdel clientId).zrem clientId).members node =
      reservations.members node := fun _ => rfl
  by_cases same : node = nodeId
  · subst same
    simp [release, srem, untouched]
  · simp [release, srem, same, untouched]

@[simp]
theorem claim_reserve (claim : Claim) (deadline : ℕ) :
    (reservations.reserve clientId claim deadline).claim other =
      if other = clientId then some claim else reservations.claim other := by
  simp [Reservations.claim, reserve, hset, zadd, sadd, setMembers, expire]

@[simp]
theorem score_reserve (claim : Claim) (deadline : ℕ) :
    (reservations.reserve clientId claim deadline).score other =
      if other = clientId then some claim.expiresAt else reservations.score other := by
  simp [score, reserve, hset, zadd, sadd, setMembers, expire]

@[simp]
theorem mem_members_reserve (claim : Claim) (deadline : ℕ) :
    other ∈ (reservations.reserve clientId claim deadline).members node ↔
      (node = claim.nodeId ∧ other = clientId) ∨ other ∈ reservations.members node := by
  by_cases same : node = claim.nodeId
  · subst same
    simp [Reservations.members, reserve, hset, zadd, sadd, setMembers, expire]
  · simp [Reservations.members, reserve, hset, zadd, sadd, setMembers, expire, same]

end Views

/-- The index scores every claim by its expiry, members of a set name claims of their node, and
every claim that meets `required` is in its set. -/
structure Tracked (required : Claim → Prop) (reservations : Reservations) : Prop where
  indexed : ∀ clientId,
    reservations.score clientId = (reservations.claim clientId).map Claim.expiresAt
  of_member : ∀ clientId nodeId, clientId ∈ reservations.members nodeId →
    ∃ claim, reservations.claim clientId = some claim ∧ claim.nodeId = nodeId
  member_of : ∀ clientId claim, reservations.claim clientId = some claim → required claim →
    clientId ∈ reservations.members claim.nodeId

namespace Tracked

variable {required : Claim → Prop} {reservations : Reservations}

theorem empty : Reservations.empty.Tracked required where
  indexed := by simp
  of_member := by simp
  member_of := by simp

section

variable (tracked : reservations.Tracked required) {clientId : ClientId}
include tracked

theorem congr {other : Reservations}
    (claims : ∀ clientId, other.claim clientId = reservations.claim clientId)
    (scores : ∀ clientId, other.score clientId = reservations.score clientId)
    (members : ∀ nodeId, other.members nodeId = reservations.members nodeId) :
    other.Tracked required where
  indexed clientId := by rw [scores, claims, tracked.indexed]
  of_member clientId nodeId := by
    rw [members, claims]
    exact tracked.of_member clientId nodeId
  member_of clientId claim := by
    rw [claims, members]
    exact tracked.member_of clientId claim

theorem members_unique {left right : NodeId} (inLeft : clientId ∈ reservations.members left)
    (inRight : clientId ∈ reservations.members right) : left = right := by
  rcases tracked.of_member clientId left inLeft with ⟨claim, found, rfl⟩
  rcases tracked.of_member clientId right inRight with ⟨same, foundSame, rfl⟩
  rw [found] at foundSame
  cases foundSame
  rfl

theorem delete {after : Reservations} (deleted : ClientId → Prop) [DecidablePred deleted]
    (nodeId : NodeId)
    (ownClaims : ∀ clientId claim, deleted clientId → reservations.claim clientId = some claim →
      claim.nodeId = nodeId) (claims : ∀ clientId, after.claim clientId =
      if deleted clientId then none else reservations.claim clientId)
    (scores : ∀ clientId, after.score clientId =
      if deleted clientId then none else reservations.score clientId)
    (members : ∀ clientId node, clientId ∈ after.members node ↔
      ¬(node = nodeId ∧ deleted clientId) ∧ clientId ∈ reservations.members node) :
    after.Tracked required where
  indexed clientId := by
    rw [claims, scores]
    split_ifs
    · rfl
    · exact tracked.indexed clientId
  of_member clientId node member := by
    rcases (members clientId node).mp member with ⟨kept, wasMember⟩
    rcases tracked.of_member clientId node wasMember with ⟨claim, found, sameNode⟩
    have notDeleted : ¬deleted clientId := fun gone =>
      kept ⟨sameNode.symm.trans (ownClaims clientId claim gone found), gone⟩
    exact ⟨claim, by rw [claims, if_neg notDeleted, found], sameNode⟩
  member_of clientId claim found holds := by
    rw [claims] at found
    split_ifs at found with gone
    refine (members clientId claim.nodeId).mpr ⟨fun removed => gone removed.2, ?_⟩
    exact tracked.member_of clientId claim found holds

theorem release {claim : Claim} (found : reservations.claim clientId = some claim) :
    (reservations.release claim.nodeId clientId).Tracked required := by
  refine tracked.delete (fun other => other = clientId) claim.nodeId ?_ (by simp) (by simp)
    (by simp)
  rintro other otherClaim rfl foundOther
  rw [found] at foundOther
  cases foundOther
  rfl

theorem reserve (claim : Claim) (deadline : ℕ) (unreserved : reservations.claim clientId = none) :
    (reservations.reserve clientId claim deadline).Tracked required where
  indexed other := by
    rw [claim_reserve, score_reserve]
    split_ifs
    · rfl
    · exact tracked.indexed other
  of_member other nodeId member := by
    rw [claim_reserve]
    rcases (mem_members_reserve _ _ _ _ _ _).mp member with ⟨sameNode, rfl⟩ | wasMember
    · exact ⟨claim, if_pos rfl, sameNode.symm⟩
    · rcases tracked.of_member other nodeId wasMember with ⟨old, found, sameNode⟩
      have differ : other ≠ clientId := by
        rintro rfl
        simp [unreserved] at found
      exact ⟨old, by rw [if_neg differ, found], sameNode⟩
  member_of other found foundEq holds := by
    rw [mem_members_reserve]
    rw [claim_reserve] at foundEq
    split_ifs at foundEq with same
    · cases foundEq
      exact .inl ⟨rfl, same⟩
    · exact .inr (tracked.member_of other found foundEq holds)

end

end Tracked

end Reservations

end ServerFoundation.MeshClient
