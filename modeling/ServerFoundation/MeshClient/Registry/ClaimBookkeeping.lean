import ServerFoundation.MeshClient.Registry.Effects

/-!
# Claim bookkeeping

Both cleanup scripts delete the claims of a node by set membership alone, without reading the
node of the claim, and the claim sweep trusts the expiry index. Their safety rests on the
agreement of the three places of a claim.

`ReservationStep` lists what a script can do to the claims: delete a claim of its node, pop
claims of a node, drop an index entry without a claim, or write a claim on a client that has
none. The agreement `Tracked` and the deadlines of the keys are followed through these cases
only.

The deadline of a set is never beyond that of the hash, nor before the expiry of a claim in it,
so a set that lapses loses expired claims only.
-/

namespace ServerFoundation.MeshClient

namespace Reservations

variable {writes : ClientId → Claim → Prop} {before after : Reservations}

section Views

variable (reservations : Reservations) (clientId other : ClientId) (nodeId node : NodeId)
  (popped : List ClientId)

theorem claim_foldl_delete (reservations : Reservations) :
    (popped.foldl (fun reservations clientId => (reservations.hdel clientId).zrem clientId)
      reservations).claim other = if other ∈ popped then none else reservations.claim other := by
  induction popped generalizing reservations with
  | nil => simp
  | cons head rest ih =>
      refine (ih _).trans ?_
      by_cases inRest : other ∈ rest
      · simp [inRest]
      · by_cases same : other = head <;> simp [inRest, same, claim, hdel, zrem]

theorem score_foldl_delete (reservations : Reservations) :
    (popped.foldl (fun reservations clientId => (reservations.hdel clientId).zrem clientId)
      reservations).score other = if other ∈ popped then none else reservations.score other := by
  induction popped generalizing reservations with
  | nil => simp
  | cons head rest ih =>
      refine (ih _).trans ?_
      by_cases inRest : other ∈ rest
      · simp [inRest]
      · by_cases same : other = head <;> simp [inRest, same, score, hdel, zrem]

theorem nodeClaims_foldl_delete (reservations : Reservations) :
    (popped.foldl (fun reservations clientId => (reservations.hdel clientId).zrem clientId)
      reservations).nodeClaims = reservations.nodeClaims := by
  induction popped generalizing reservations with
  | nil => rfl
  | cons head rest ih => exact ih _

theorem deadlines_foldl_delete (reservations : Reservations) :
    (popped.foldl (fun reservations clientId => (reservations.hdel clientId).zrem clientId)
        reservations).claims.deadline = reservations.claims.deadline ∧
      (popped.foldl (fun reservations clientId => (reservations.hdel clientId).zrem clientId)
        reservations).claimsIndex.deadline = reservations.claimsIndex.deadline := by
  induction popped generalizing reservations with
  | nil => exact ⟨rfl, rfl⟩
  | cons head rest ih => exact ih _

theorem claim_popClaims :
    (reservations.popClaims nodeId popped).claim other =
      if other ∈ popped then none else reservations.claim other :=
  claim_foldl_delete other popped _

theorem score_popClaims :
    (reservations.popClaims nodeId popped).score other =
      if other ∈ popped then none else reservations.score other :=
  score_foldl_delete other popped _

theorem mem_members_popClaims :
    other ∈ (reservations.popClaims nodeId popped).members node ↔
      ¬(node = nodeId ∧ other ∈ popped) ∧ other ∈ reservations.members node := by
  unfold popClaims members
  rw [nodeClaims_foldl_delete]
  by_cases same : node = nodeId
  · subst same
    simp [setMembers, and_comm]
  · simp [setMembers, same]

end Views

/-- What a script that runs at `now` can do to the claims. New claims are described by `writes`. -/
inductive ReservationStep (now : ℕ) (writes : ClientId → Claim → Prop) :
    Reservations → Reservations → Prop where
  | unchanged (reservations : Reservations) : ReservationStep now writes reservations reservations
  | released {reservations : Reservations} {clientId : ClientId} {claim : Claim}
      (found : reservations.claim clientId = some claim) :
      ReservationStep now writes reservations (reservations.release claim.nodeId clientId)
  | popped {reservations : Reservations} {nodeId : NodeId} {popped : List ClientId}
      (subset : ∀ clientId ∈ popped, clientId ∈ reservations.members nodeId) :
      ReservationStep now writes reservations (reservations.popClaims nodeId popped)
  | unindexed {reservations : Reservations} {clientId : ClientId}
      (absent : reservations.claim clientId = none) :
      ReservationStep now writes reservations ((reservations.hdel clientId).zrem clientId)
  | reserved {reservations : Reservations} {clientId : ClientId} (claim : Claim)
      (unreserved : reservations.claim clientId = none)
      (expires : claim.expiresAt = now + claimTtlMs) (written : writes clientId claim) :
      ReservationStep now writes reservations
        (reservations.reserve clientId claim (now + keyTtlMs))
  | trans {first second third : Reservations} (head : ReservationStep now writes first second)
      (tail : ReservationStep now writes second third) : ReservationStep now writes first third

theorem claim_unindexed (reservations : Reservations) (clientId other : ClientId) :
    ((reservations.hdel clientId).zrem clientId).claim other =
      if other = clientId then none else reservations.claim other := by
  simp [claim, hdel, zrem]

theorem ReservationStep.claim_of {now : ℕ} (step : ReservationStep now writes before after)
    {clientId : ClientId} {claim : Claim} (found : after.claim clientId = some claim) :
    before.claim clientId = some claim ∨ writes clientId claim := by
  induction step with
  | unchanged => exact .inl found
  | released =>
      rw [claim_release] at found
      split_ifs at found
      exact .inl found
  | popped =>
      rw [claim_popClaims] at found
      split_ifs at found
      exact .inl found
  | unindexed =>
      rw [claim_unindexed] at found
      split_ifs at found
      exact .inl found
  | reserved new unreserved expires written =>
      rw [claim_reserve] at found
      split_ifs at found with same
      · cases found
        rw [same]
        exact .inr written
      · exact .inl found
  | trans _ _ fromHead fromTail =>
      rcases fromTail found with earlier | written
      · exact fromHead earlier
      · exact .inr written

theorem Tracked.reservationStep {required : Claim → Prop} {now : ℕ}
    (tracked : before.Tracked required) (step : ReservationStep now writes before after) :
    after.Tracked required := by
  induction step with
  | unchanged => exact tracked
  | released found => exact tracked.release found
  | @popped reservations nodeId popped subset =>
      refine tracked.delete (· ∈ popped) nodeId ?_
        (fun clientId => claim_popClaims reservations clientId nodeId popped)
        (fun clientId => score_popClaims reservations clientId nodeId popped)
        (fun clientId node => mem_members_popClaims reservations clientId nodeId node popped)
      intro clientId claim listed found
      rcases tracked.of_member clientId nodeId (subset clientId listed) with
        ⟨same, foundSame, sameNode⟩
      rw [found] at foundSame
      cases foundSame
      exact sameNode
  | @unindexed reservations clientId absent =>
      have noScore : reservations.score clientId = none := by
        rw [tracked.indexed, absent]
        rfl
      refine tracked.congr ?_ ?_ (fun _ => rfl)
      · intro other
        exact congrArg (OrderedMap.get? · other) (OrderedMap.erase_eq_self _ absent)
      · intro other
        exact congrArg (OrderedMap.get? · other) (OrderedMap.erase_eq_self _ noScore)
  | reserved claim unreserved _ _ => exact tracked.reserve claim _ unreserved
  | trans _ _ headTracked tailTracked => exact tailTracked (headTracked tracked)

/-- The hash and the index lapse together, at most one refresh away, and a set lapses no later than
the hash and no earlier than its claims expire. -/
structure DeadlinesOrdered (now : ℕ) (reservations : Reservations) : Prop where
  together : reservations.claims.deadline = reservations.claimsIndex.deadline
  bounded : ∀ nodeId deadline, (reservations.nodeClaims nodeId).deadline = some deadline →
    deadline ≤ now + keyTtlMs
  ordered : ∀ nodeId clientId, clientId ∈ reservations.members nodeId →
    ∃ setDeadline hashDeadline, (reservations.nodeClaims nodeId).deadline = some setDeadline ∧
      reservations.claims.deadline = some hashDeadline ∧ setDeadline ≤ hashDeadline ∧
      ∀ claim, reservations.claim clientId = some claim → claim.expiresAt ≤ setDeadline

namespace DeadlinesOrdered

variable {now : ℕ} {reservations after : Reservations}

theorem empty : Reservations.empty.DeadlinesOrdered now where
  together := rfl
  bounded := by simp [Reservations.empty]
  ordered := by simp

theorem shrink (deadlines : reservations.DeadlinesOrdered now)
    (claims : ∀ clientId claim, after.claim clientId = some claim →
      reservations.claim clientId = some claim)
    (members : ∀ nodeId clientId, clientId ∈ after.members nodeId →
      clientId ∈ reservations.members nodeId)
    (hashDeadline : after.claims.deadline = reservations.claims.deadline)
    (indexDeadline : after.claimsIndex.deadline = reservations.claimsIndex.deadline)
    (setDeadlines : ∀ nodeId,
      (after.nodeClaims nodeId).deadline = (reservations.nodeClaims nodeId).deadline) :
    after.DeadlinesOrdered now where
  together := by rw [hashDeadline, indexDeadline, deadlines.together]
  bounded nodeId deadline := by
    rw [setDeadlines]
    exact deadlines.bounded nodeId deadline
  ordered nodeId clientId member := by
    rw [setDeadlines, hashDeadline]
    rcases deadlines.ordered nodeId clientId (members nodeId clientId member) with
      ⟨setDeadline, top, isSet, isTop, below, expires⟩
    exact ⟨setDeadline, top, isSet, isTop, below,
      fun claim found => expires claim (claims clientId claim found)⟩

theorem setMembers_deadline (nodeId node : NodeId) (members : Finset ClientId) :
    ((reservations.setMembers nodeId members).nodeClaims node).deadline =
      (reservations.nodeClaims node).deadline := by
  by_cases same : node = nodeId
  · subst same
    simp [setMembers]
  · simp [setMembers, same]

theorem reserve (deadlines : reservations.DeadlinesOrdered now) {clientId : ClientId}
    (claim : Claim) (expires : claim.expiresAt = now + claimTtlMs)
    (unlisted : ∀ nodeId, clientId ∉ reservations.members nodeId) :
    (reservations.reserve clientId claim (now + keyTtlMs)).DeadlinesOrdered now := by
  have ownDeadline : ((reservations.reserve clientId claim (now + keyTtlMs)).nodeClaims
      claim.nodeId).deadline = some (now + keyTtlMs) := by
    simp [Reservations.reserve, Reservations.expire]
  have otherDeadline : ∀ nodeId, nodeId ≠ claim.nodeId →
      ((reservations.reserve clientId claim (now + keyTtlMs)).nodeClaims nodeId).deadline =
        (reservations.nodeClaims nodeId).deadline := by
    intro nodeId differ
    simp [Reservations.reserve, Reservations.expire, differ, sadd, setMembers, hset, zadd]
  refine ⟨rfl, ?_, ?_⟩
  · intro nodeId deadline isDeadline
    by_cases same : nodeId = claim.nodeId
    · subst same
      rw [ownDeadline] at isDeadline
      cases isDeadline
      exact le_rfl
    · rw [otherDeadline nodeId same] at isDeadline
      exact deadlines.bounded nodeId deadline isDeadline
  · intro nodeId other member
    rcases (mem_members_reserve _ _ _ _ _ _).mp member with ⟨rfl, rfl⟩ | wasMember
    · refine ⟨now + keyTtlMs, now + keyTtlMs, ownDeadline, rfl, le_rfl, ?_⟩
      intro found foundEq
      rw [claim_reserve, if_pos rfl] at foundEq
      cases foundEq
      simp only [expires, claimTtlMs, keyTtlMs]
      omega
    · have differ : other ≠ clientId := by
        rintro rfl
        exact unlisted nodeId wasMember
      rcases deadlines.ordered nodeId other wasMember with
        ⟨setDeadline, -, isSet, -, -, expiresBefore⟩
      have bounded := deadlines.bounded nodeId setDeadline isSet
      simp only [claim_reserve, if_neg differ]
      by_cases same : nodeId = claim.nodeId
      · subst same
        exact ⟨now + keyTtlMs, now + keyTtlMs, ownDeadline, rfl, le_rfl,
          fun found foundEq => (expiresBefore found foundEq).trans bounded⟩
      · exact ⟨setDeadline, now + keyTtlMs, (otherDeadline nodeId same).trans isSet, rfl, bounded,
          expiresBefore⟩

theorem reservationStep {required : Claim → Prop} {writes : ClientId → Claim → Prop}
    (deadlines : reservations.DeadlinesOrdered now) (tracked : reservations.Tracked required)
    (step : ReservationStep now writes reservations after) :
    after.DeadlinesOrdered now := by
  induction step with
  | unchanged => exact deadlines
  | @released reservations clientId claim found =>
      refine deadlines.shrink ?_ ?_ rfl rfl ?_
      · intro other otherClaim kept
        rw [claim_release] at kept
        split_ifs at kept
        exact kept
      · intro nodeId other member
        exact ((mem_members_release _ _ _ _ _).mp member).2
      · intro nodeId
        exact setMembers_deadline claim.nodeId nodeId _
  | @popped reservations nodeId popped subset =>
      have kept := deadlines_foldl_delete popped
        (reservations.setMembers nodeId (reservations.members nodeId \ popped.toFinset))
      refine deadlines.shrink ?_ ?_ kept.1 kept.2 ?_
      · intro other claim found
        rw [claim_popClaims] at found
        split_ifs at found
        exact found
      · intro node other member
        exact ((mem_members_popClaims _ _ _ _ _).mp member).2
      · intro node
        unfold popClaims
        rw [nodeClaims_foldl_delete]
        exact setMembers_deadline nodeId node _
  | @unindexed reservations clientId absent =>
      refine deadlines.shrink ?_ (fun _ _ member => member) rfl rfl (fun _ => rfl)
      intro other claim found
      rw [claim_unindexed] at found
      split_ifs at found
      exact found
  | reserved claim unreserved expires _ =>
      refine deadlines.reserve claim expires ?_
      intro nodeId member
      rcases tracked.of_member _ nodeId member with ⟨old, found, -⟩
      simp [unreserved] at found
  | trans head _ headDeadlines tailDeadlines =>
      exact tailDeadlines (headDeadlines deadlines tracked) (tracked.reservationStep head)

end DeadlinesOrdered

section Elapse

variable {now time : ℕ} {reservations : Reservations} (clientId : ClientId)

theorem claim_elapsed :
    (reservations.elapse time).claim clientId =
      if reservations.claims.Lapsed time then none else reservations.claim clientId := by
  unfold Reservations.elapse Reservations.claim
  split_ifs with lapsed
  · simp [Expiring.elapse_of_lapsed _ lapsed]
  · simp [Expiring.elapse_of_not_lapsed _ lapsed]

theorem score_elapsed :
    (reservations.elapse time).score clientId =
      if reservations.claimsIndex.Lapsed time then none else reservations.score clientId := by
  unfold Reservations.elapse Reservations.score
  split_ifs with lapsed
  · simp [Expiring.elapse_of_lapsed _ lapsed]
  · simp [Expiring.elapse_of_not_lapsed _ lapsed]

theorem mem_members_elapsed (nodeId : NodeId) :
    clientId ∈ (reservations.elapse time).members nodeId ↔
      ¬(reservations.nodeClaims nodeId).Lapsed time ∧ clientId ∈ reservations.members nodeId := by
  unfold Reservations.elapse members
  by_cases lapsed : (reservations.nodeClaims nodeId).Lapsed time
  · simp [Expiring.elapse_of_lapsed _ lapsed, lapsed]
  · simp [Expiring.elapse_of_not_lapsed _ lapsed, lapsed]

theorem DeadlinesOrdered.index_lapsed_iff (deadlines : reservations.DeadlinesOrdered now) :
    reservations.claimsIndex.Lapsed time ↔ reservations.claims.Lapsed time := by
  unfold Expiring.Lapsed
  rw [deadlines.together]

theorem DeadlinesOrdered.not_lapsed (deadlines : reservations.DeadlinesOrdered now)
    {clientId : ClientId} {nodeId : NodeId} (member : clientId ∈ reservations.members nodeId)
    (alive : ¬(reservations.nodeClaims nodeId).Lapsed time) :
    ¬reservations.claims.Lapsed time := by
  rcases deadlines.ordered nodeId clientId member with
    ⟨setDeadline, hashDeadline, isSet, isHash, below, -⟩
  rintro ⟨deadline, isDeadline, passed⟩
  rw [isHash] at isDeadline
  cases isDeadline
  exact alive ⟨setDeadline, isSet, below.trans_lt passed⟩

theorem Tracked.elapse (tracked : reservations.Tracked fun claim => now < claim.expiresAt)
    (deadlines : reservations.DeadlinesOrdered now) (later : now ≤ time) :
    (reservations.elapse time).Tracked fun claim => time < claim.expiresAt where
  indexed clientId := by
    rw [score_elapsed, claim_elapsed]
    simp only [deadlines.index_lapsed_iff]
    split_ifs
    · rfl
    · exact tracked.indexed clientId
  of_member clientId nodeId member := by
    rcases (mem_members_elapsed clientId nodeId).mp member with ⟨alive, wasMember⟩
    rw [claim_elapsed, if_neg (deadlines.not_lapsed wasMember alive)]
    exact tracked.of_member clientId nodeId wasMember
  member_of clientId claim found unexpired := by
    rw [claim_elapsed] at found
    split_ifs at found
    have wasMember := tracked.member_of clientId claim found (later.trans_lt unexpired)
    refine (mem_members_elapsed clientId claim.nodeId).mpr ⟨?_, wasMember⟩
    rcases deadlines.ordered claim.nodeId clientId wasMember with
      ⟨setDeadline, -, isSet, -, -, expires⟩
    rintro ⟨deadline, isDeadline, passed⟩
    rw [isSet] at isDeadline
    cases isDeadline
    have expiresBefore := expires claim found
    omega

theorem DeadlinesOrdered.elapse (deadlines : reservations.DeadlinesOrdered now)
    (later : now ≤ time) : (reservations.elapse time).DeadlinesOrdered time where
  together := by
    simp only [Reservations.elapse]
    by_cases lapsed : reservations.claims.Lapsed time
    · rw [Expiring.elapse_of_lapsed _ lapsed,
        Expiring.elapse_of_lapsed _ (deadlines.index_lapsed_iff.mpr lapsed)]
    · rw [Expiring.elapse_of_not_lapsed _ lapsed,
        Expiring.elapse_of_not_lapsed _ (mt deadlines.index_lapsed_iff.mp lapsed)]
      exact deadlines.together
  bounded nodeId deadline isDeadline := by
    simp only [Reservations.elapse] at isDeadline
    by_cases lapsed : (reservations.nodeClaims nodeId).Lapsed time
    · rw [Expiring.elapse_of_lapsed _ lapsed] at isDeadline
      simp at isDeadline
    · rw [Expiring.elapse_of_not_lapsed _ lapsed] at isDeadline
      have bounded := deadlines.bounded nodeId deadline isDeadline
      omega
  ordered nodeId clientId member := by
    rcases (mem_members_elapsed clientId nodeId).mp member with ⟨alive, wasMember⟩
    have hashAlive := deadlines.not_lapsed wasMember alive
    simp only [claim_elapsed, if_neg hashAlive]
    simpa only [Reservations.elapse, Expiring.elapse_of_not_lapsed _ alive,
      Expiring.elapse_of_not_lapsed _ hashAlive] using deadlines.ordered nodeId clientId wasMember

end Elapse

end Reservations

namespace Registry

open Reservations (ReservationStep)

variable (registry : Registry) {writes : ClientId → Claim → Prop} {command : Command}
  (clientId : ClientId) {config : RegistryConfig}

theorem sweepClaims_step :
    ReservationStep registry.now writes registry.reservations
      registry.sweepClaims.reservations := by
  unfold sweepClaims
  dsimp only
  generalize registry.reservations.claimsIndex.value.rangeUpTo registry.now claimSweepLimit = swept
  generalize registry.reservations = reservations
  induction swept generalizing reservations with
  | nil => exact .unchanged reservations
  | cons clientId rest ih =>
      refine .trans ?_ (ih _)
      unfold Reservations.sweepClaim
      split
      · rename_i absent
        exact .unindexed absent
      · rename_i claim found
        exact .released found

theorem clearExpired_step :
    ReservationStep registry.now writes registry.reservations
      (registry.clearExpired clientId).reservations := by
  unfold clearExpired
  split
  · exact .unchanged _
  · rename_i claim found
    split_ifs
    · exact .released found
    · exact .unchanged _

/-- The claims that a command writes. -/
def Writes (registry : Registry) : Command → ClientId → Claim → Prop
  | .claim request claimId operationId requestFingerprint => fun clientId claim =>
      request.connectionId ≠ "" ∧ clientId = request.clientId ∧
        claim = registry.newClaim request claimId operationId requestFingerprint
          (registry.ownership.client request.clientId)
  | _ => fun _ _ => False

theorem claimScript_step (request : Registration)
    (claimId operationId requestFingerprint : String) :
    ReservationStep registry.now
      (registry.Writes (.claim request claimId operationId requestFingerprint))
      registry.reservations
      (registry.claimScript request claimId operationId requestFingerprint).1.reservations := by
  have cleared : ReservationStep registry.now
      (registry.Writes (.claim request claimId operationId requestFingerprint))
      registry.reservations
      (registry.sweepClaims.clearExpired request.clientId).reservations :=
    .trans registry.sweepClaims_step (registry.sweepClaims.clearExpired_step request.clientId)
  have outcome := registry.claimScript_outcome request claimId operationId requestFingerprint
  generalize registry.claimScript request claimId operationId requestFingerprint = result at outcome
  cases outcome with
  | unconnected => exact .unchanged _
  | repeated => exact cleared
  | refused => exact cleared
  | written connected unreserved claim isNew =>
      refine .trans cleared (.reserved claim unreserved ?_ ⟨connected, rfl, isNew⟩)
      rw [isNew]
      rfl

theorem commitClaimScript_step (nodeId : NodeId) (claimId : String) (maxClientsPerNode : ℕ) :
    ReservationStep registry.now writes registry.reservations
      (registry.commitClaimScript clientId nodeId claimId maxClientsPerNode).1.reservations := by
  have outcome := registry.commitClaimScript_outcome clientId nodeId claimId maxClientsPerNode
  generalize registry.commitClaimScript clientId nodeId claimId maxClientsPerNode =
    result at outcome
  cases outcome with
  | repeated => exact .unchanged _
  | unchanged => exact .unchanged _
  | expired claim found sameNode =>
      rw [← sameNode]
      exact .released found
  | withdrawn => exact .unchanged _
  | published claim found sameNode =>
      rw [← sameNode]
      exact .released found
  | moved claim found sameNode =>
      rw [← sameNode]
      exact .released found

theorem dropClaim_step (nodeId : NodeId) (claimId : String) :
    ReservationStep registry.now writes registry.reservations
      (registry.dropClaim clientId nodeId claimId).1.reservations := by
  rcases registry.dropClaim_cases clientId nodeId claimId with
    same | ⟨claim, found, rfl, -, written⟩
  · rw [same]
    exact .unchanged _
  · rw [written]
    exact .released found

theorem run_reservationStep (config : RegistryConfig) (feasible : registry.Feasible command)
    (notTime : ∀ time, command ≠ .elapse time) :
    ReservationStep registry.now (registry.Writes command) registry.reservations
      (registry.run config command).reservations := by
  cases command with
  | register request generationId =>
      rcases registry.registerScript_cases request generationId with
        same | ⟨claimId, -, -, -, written⟩
      · simp only [run, same]
        exact .unchanged _
      · simp only [run, written]
        exact .unchanged _
  | activate clientId nodeId metadataJson hasMetadata connectionId =>
      rcases registry.activateScript_cases clientId nodeId metadataJson hasMetadata
        connectionId with same | ⟨record, -, written⟩
      · simp only [run, same]
        exact .unchanged _
      · simp only [run, written]
        exact .unchanged _
  | updateMetadata clientId nodeId metadataJson hasMetadata connectionId =>
      rcases registry.updateMetadataScript_cases clientId nodeId metadataJson hasMetadata
        connectionId with same | ⟨record, -, written⟩
      · simp only [run, same]
        exact .unchanged _
      · simp only [run, written]
        exact .unchanged _
  | unregister clientId nodeId connectionId =>
      rcases registry.unregisterScript_cases clientId nodeId connectionId with
        same | ⟨record, reservations, -, dropped, written⟩
      · simp only [run, same]
        exact .unchanged _
      · simp only [run, written]
        rcases dropped with rfl | ⟨claim, found, rfl, rfl⟩
        · exact .unchanged _
        · exact .released found
  | refreshNode nodeId =>
      simp only [run, refreshNodeScript]
      split_ifs <;> exact .unchanged _
  | cleanupNode nodeId members popped => exact .popped feasible.2.subset
  | cleanupNodeAndOrphan nodeId deliveryId page members popped =>
      have outcome := registry.cleanupNodeAndOrphanScript_outcome nodeId config deliveryId page
        members popped
      simp only [run]
      generalize registry.cleanupNodeAndOrphanScript config nodeId deliveryId page members popped =
        result at outcome
      cases outcome with
      | inactive => exact .popped feasible.2.1.subset
      | full => exact .unchanged _
      | stored => exact .popped feasible.2.1.subset
  | claim request claimId operationId requestFingerprint =>
      exact registry.claimScript_step request claimId operationId requestFingerprint
  | commitClaim clientId nodeId claimId maxClientsPerNode =>
      exact registry.commitClaimScript_step clientId nodeId claimId maxClientsPerNode
  | removeClaimPrevious clientId nodeId claimId =>
      rcases registry.removeClaimPreviousScript_cases clientId nodeId claimId with
        same | ⟨claim, before, current, -, -, -, -, -, -, written⟩
      · simp only [run, same]
        exact .unchanged _
      · simp only [run, written]
        exact .unchanged _
  | removeClaimResult clientId nodeId claimId =>
      have dropped : ReservationStep _
        (registry.Writes (.removeClaimResult clientId nodeId claimId))
          _ _ := (registry.dropCommitted clientId nodeId claimId).1.dropClaim_step clientId nodeId
        claimId
      rcases registry.dropCommitted_cases clientId nodeId claimId with
        same | ⟨record, -, -, -, written⟩
      · rw [same] at dropped
        simpa only [run, removeClaimResultScript, same] using dropped
      · rw [written] at dropped
        simpa only [run, removeClaimResultScript, written] using dropped
  | abortClaim clientId nodeId claimId => exact registry.dropClaim_step clientId nodeId claimId
  | enqueueOrphan => exact .unchanged _
  | claimOrphan => exact .unchanged _
  | ackOrphan => exact .unchanged _
  | nackOrphan => exact .unchanged _
  | elapse time => exact absurd rfl (notTime time)

theorem claim_of_run {registry : Registry} (config : RegistryConfig)
    (feasible : registry.Feasible command) {clientId : ClientId} {claim : Claim}
    (found : (registry.run config command).reservations.claim clientId = some claim) :
    registry.reservations.claim clientId = some claim ∨ registry.Writes command clientId claim := by
  by_cases isTime : ∃ time, command = .elapse time
  · rcases isTime with ⟨time, rfl⟩
    have elapsed : (registry.reservations.elapse time).claim clientId = some claim := found
    rw [Reservations.claim_elapsed] at elapsed
    split_ifs at elapsed
    exact .inl elapsed
  · rw [not_exists] at isTime
    exact (registry.run_reservationStep config feasible isTime).claim_of found

/-- The claims of a reachable registry: unexpired claims are in the set of their node, and the
deadlines are ordered. -/
structure Bookkeeping (registry : Registry) : Prop where
  tracked : registry.reservations.Tracked fun claim => registry.now < claim.expiresAt
  deadlines : registry.reservations.DeadlinesOrdered registry.now

theorem Bookkeeping.run {registry : Registry} (bookkeeping : registry.Bookkeeping)
    (config : RegistryConfig) (feasible : registry.Feasible command) :
    (registry.run config command).Bookkeeping := by
  by_cases isTime : ∃ time, command = .elapse time
  · rcases isTime with ⟨time, rfl⟩
    exact ⟨bookkeeping.tracked.elapse bookkeeping.deadlines feasible,
      bookkeeping.deadlines.elapse feasible⟩
  · rw [not_exists] at isTime
    have step := registry.run_reservationStep config feasible isTime
    have sameNow := (registry.run_frame config isTime).1
    refine ⟨?_, ?_⟩
    · rw [sameNow]
      exact bookkeeping.tracked.reservationStep step
    · rw [sameNow]
      exact bookkeeping.deadlines.reservationStep bookkeeping.tracked step

theorem bookkeeping_of_reachable {registry : Registry}
    (reachable : (system config).Reachable registry) : registry.Bookkeeping := by
  apply reachable.invariant Bookkeeping
  · rintro state ⟨now, rfl⟩
    exact ⟨.empty, .empty⟩
  · rintro before command after - bookkeeping ⟨feasible, rfl⟩
    exact bookkeeping.run config feasible

theorem tracked_of_reachable {registry : Registry}
    (reachable : ((system config).restrict NoKeyExpires).Reachable registry) :
    registry.reservations.Tracked fun _ => True := by
  apply reachable.invariant fun registry => registry.reservations.Tracked fun _ => True
  · rintro state ⟨now, rfl⟩
    exact .empty
  · rintro before command after - tracked ⟨noKeyExpires, feasible, rfl⟩
    by_cases isTime : ∃ time, command = .elapse time
    · rcases isTime with ⟨time, rfl⟩
      exact tracked.congr (claim_elapse noKeyExpires) (score_elapse noKeyExpires)
        (claimMembers_elapse noKeyExpires)
    · rw [not_exists] at isTime
      exact tracked.reservationStep (before.run_reservationStep config feasible isTime)

section Protection

variable {registry} {clientId : ClientId} {claim : Claim}

theorem claim_sweepClaim {reservations : Reservations} {other : ClientId}
    (differ : clientId ≠ other) :
    (reservations.sweepClaim other).claim clientId = reservations.claim clientId := by
  unfold Reservations.sweepClaim
  split
  · simp [Reservations.claim, Reservations.hdel, Reservations.zrem, differ]
  · simp [differ]

theorem claim_sweepClaims (bookkeeping : registry.Bookkeeping)
    (found : registry.reservations.claim clientId = some claim)
    (unexpired : registry.now < claim.expiresAt) :
    registry.sweepClaims.reservations.claim clientId = some claim := by
  have unlisted : clientId ∉ registry.reservations.claimsIndex.value.rangeUpTo registry.now
      claimSweepLimit := by
    intro listed
    rcases SortedSet.score_le_of_mem_rangeUpTo listed with ⟨score, scored, reached⟩
    have indexed : registry.reservations.score clientId = some score := scored
    rw [bookkeeping.tracked.indexed, found] at indexed
    cases indexed
    omega
  unfold sweepClaims
  dsimp only
  generalize registry.reservations.claimsIndex.value.rangeUpTo registry.now claimSweepLimit = swept
    at unlisted
  generalize registry.reservations = reservations at found
  induction swept generalizing reservations with
  | nil => exact found
  | cons head rest ih =>
      rw [List.mem_cons, not_or] at unlisted
      refine ih unlisted.2 _ ?_
      rw [claim_sweepClaim unlisted.1]
      exact found

theorem claimScript_keeps (bookkeeping : registry.Bookkeeping)
    (found : registry.reservations.claim clientId = some claim)
    (unexpired : registry.now < claim.expiresAt) (request : Registration)
    (claimId operationId requestFingerprint : String) :
    (registry.claimScript request claimId operationId
      requestFingerprint).1.reservations.claim clientId = some claim := by
  have swept := claim_sweepClaims bookkeeping found unexpired
  have cleared : (registry.sweepClaims.clearExpired request.clientId).reservations.claim clientId =
      some claim := by
    unfold clearExpired
    split
    · exact swept
    · rename_i other foundOther
      split_ifs with expired
      · rw [Reservations.claim_release]
        split_ifs with same
        · subst same
          rw [swept] at foundOther
          cases foundOther
          have sameNow : registry.sweepClaims.now = registry.now := rfl
          omega
        · exact swept
      · exact swept
  have outcome := registry.claimScript_outcome request claimId operationId requestFingerprint
  generalize registry.claimScript request claimId operationId requestFingerprint = result at outcome
  cases outcome with
  | unconnected => exact found
  | repeated => exact cleared
  | refused => exact cleared
  | written connected unreserved claim isNew =>
      rw [Reservations.claim_reserve]
      split_ifs with same
      · rw [same, unreserved] at cleared
        simp at cleared
      · exact cleared

theorem popClaims_keeps (bookkeeping : registry.Bookkeeping)
    (found : registry.reservations.claim clientId = some claim) {nodeId : NodeId}
    (foreign : claim.nodeId ≠ nodeId) {popped : List ClientId}
    (chosen : Chosen popped (registry.reservations.members nodeId)) :
    (registry.reservations.popClaims nodeId popped).claim clientId = some claim := by
  rw [Reservations.claim_popClaims, if_neg, found]
  intro listed
  rcases bookkeeping.tracked.of_member clientId nodeId (chosen.subset clientId listed) with
    ⟨same, foundSame, sameNode⟩
  rw [found] at foundSame
  cases foundSame
  exact foreign sameNode

end Protection

/-- The command is a cleanup of the node. -/
def CleansUp (nodeId : NodeId) : Command → Prop
  | .cleanupNode node _ _ => node = nodeId
  | .cleanupNodeAndOrphan node _ _ _ _ => node = nodeId
  | _ => False

theorem cleanup_keeps {registry : Registry} (bookkeeping : registry.Bookkeeping)
    (config : RegistryConfig) {nodeId : NodeId} (feasible : registry.Feasible command)
    (cleansUp : CleansUp nodeId command) {clientId : ClientId} {claim : Claim}
    (found : registry.reservations.claim clientId = some claim) (foreign : claim.nodeId ≠ nodeId) :
    (registry.run config command).reservations.claim clientId = some claim := by
  cases command with
  | cleanupNode node members popped =>
      cases cleansUp
      exact popClaims_keeps bookkeeping found foreign feasible.2
  | cleanupNodeAndOrphan node deliveryId page members popped =>
      cases cleansUp
      have outcome := registry.cleanupNodeAndOrphanScript_outcome nodeId config deliveryId page
        members popped
      simp only [run]
      generalize registry.cleanupNodeAndOrphanScript config nodeId deliveryId page members popped =
        result at outcome
      cases outcome with
      | inactive => exact popClaims_keeps bookkeeping found foreign feasible.2.1
      | full => exact found
      | stored => exact popClaims_keeps bookkeeping found foreign feasible.2.1
  | _ => exact cleansUp.elim

/-- A claim of a node with an expiry is in the hash exactly when the node's set, no other set and
the index say so. -/
def ClaimsRecorded (registry : Registry) : Prop :=
  ∀ clientId nodeId expiry,
    (∃ claim, registry.reservations.claim clientId = some claim ∧ claim.nodeId = nodeId ∧
      claim.expiresAt = expiry) ↔
    clientId ∈ registry.reservations.members nodeId ∧
      (∀ other, clientId ∈ registry.reservations.members other → other = nodeId) ∧
      registry.reservations.score clientId = some expiry

theorem claimsRecorded_of_tracked {registry : Registry}
    (tracked : registry.reservations.Tracked fun _ => True) : registry.ClaimsRecorded := by
  intro clientId nodeId expiry
  constructor
  · rintro ⟨claim, found, rfl, rfl⟩
    have member := tracked.member_of clientId claim found trivial
    refine ⟨member, fun other inOther => tracked.members_unique inOther member, ?_⟩
    rw [tracked.indexed, found]
    rfl
  · rintro ⟨member, -, scored⟩
    rcases tracked.of_member clientId nodeId member with ⟨claim, found, sameNode⟩
    refine ⟨claim, found, sameNode, ?_⟩
    rw [tracked.indexed, found] at scored
    exact Option.some.inj scored

/-- In every run with fresh delivery ids the three places of an unexpired claim agree, and neither a
cleanup nor a claim deletes what is not its own. In runs in which no key expires, the places agree
exactly. -/
theorem claimBookkeeping_agrees (config : RegistryConfig) {registry : Registry}
    (reachable : (system config).Reachable registry) :
    (∀ clientId expiry, (∃ claim, registry.reservations.claim clientId = some claim ∧
        claim.expiresAt = expiry) ↔ registry.reservations.score clientId = some expiry) ∧
      (∀ clientId nodeId, clientId ∈ registry.reservations.members nodeId →
        (∃ claim, registry.reservations.claim clientId = some claim ∧ claim.nodeId = nodeId) ∧
          ∀ other, clientId ∈ registry.reservations.members other → other = nodeId) ∧
      (∀ clientId claim, registry.reservations.claim clientId = some claim →
        registry.now < claim.expiresAt → clientId ∈ registry.reservations.members claim.nodeId) ∧
      (∀ command nodeId clientId claim, registry.Feasible command → CleansUp nodeId command →
        registry.reservations.claim clientId = some claim → claim.nodeId ≠ nodeId →
        (registry.run config command).reservations.claim clientId = some claim) ∧
      (∀ request claimId operationId requestFingerprint clientId claim,
        registry.reservations.claim clientId = some claim → registry.now < claim.expiresAt →
        (registry.claimScript request claimId operationId
          requestFingerprint).1.reservations.claim clientId = some claim) ∧
      (((system config).restrict NoKeyExpires).Reachable registry → registry.ClaimsRecorded) := by
  have bookkeeping := bookkeeping_of_reachable reachable
  refine ⟨?_, ?_, bookkeeping.tracked.member_of, ?_, ?_, ?_⟩
  · intro clientId expiry
    rw [bookkeeping.tracked.indexed]
    simp
  · intro clientId nodeId member
    exact ⟨bookkeeping.tracked.of_member clientId nodeId member,
      fun other inOther => bookkeeping.tracked.members_unique inOther member⟩
  · intro command nodeId clientId claim feasible cleansUp found foreign
    exact cleanup_keeps bookkeeping config feasible cleansUp found foreign
  · intro request claimId operationId requestFingerprint clientId claim found unexpired
    exact claimScript_keeps bookkeeping found unexpired request claimId operationId
      requestFingerprint
  · intro noKeyExpired
    exact claimsRecorded_of_tracked (tracked_of_reachable noKeyExpired)

/-- Node 1 claims a client, node 2 another one ten seconds later, and a day later only the claims of
node 1 have lapsed. -/
def lapsedSetRun : List Command :=
  [.claim (soleRegistration "first" 1 "one") "claim-1" "operation-0000001" "fingerprint",
    .elapse 10000,
    .claim (soleRegistration "second" 2 "two") "claim-2" "operation-0000002" "fingerprint",
    .elapse 86405000]

theorem lapsedSetRun_reachable :
    (system exampleConfig).Reachable ((Registry.empty 0).runAll exampleConfig lapsedSetRun) := by
  have reachable : ((system exampleConfig).restrict fun _ _ => True).Reachable
      ((Registry.empty 0).runAll exampleConfig lapsedSetRun) := by
    apply reachable_runAll (.start ⟨0, rfl⟩)
    refine ⟨⟨trivial, trivial⟩, ⟨trivial, ?_⟩, ⟨trivial, trivial⟩, ⟨trivial, ?_⟩, trivial⟩
    · show 0 ≤ 10000
      decide
    · show ((((Registry.empty 0).run exampleConfig lapsedSetRun[0]).run exampleConfig
        lapsedSetRun[1]).run exampleConfig lapsedSetRun[2]).now ≤ 86405000
      decide
  exact reachable.of_restrict

theorem claimBookkeeping_agrees_at_lapsed_set :
    "second" ∈ ((Registry.empty 0).runAll exampleConfig lapsedSetRun).reservations.members 2 ∧
      ((Registry.empty 0).runAll exampleConfig lapsedSetRun).reservations.claim "second" ≠
          none := by
  have second : "second" ∈
      ((Registry.empty 0).runAll exampleConfig lapsedSetRun).reservations.members 2 := by
    decide
  rcases ((claimBookkeeping_agrees exampleConfig lapsedSetRun_reachable).2.1 "second" 2 second).1
    with ⟨claim, found, -⟩
  exact ⟨second, by simp [found]⟩

/-- The expired claim of node 1 outlives the claim set of node 1. -/
theorem claimsRecorded_fails_at_lapsed_set :
    ∃ registry, (system exampleConfig).Reachable registry ∧ ¬registry.ClaimsRecorded := by
  refine ⟨_, lapsedSetRun_reachable, ?_⟩
  intro recorded
  have held : ∃ claim,
      ((Registry.empty 0).runAll exampleConfig lapsedSetRun).reservations.claim "first" =
        some claim ∧ claim.nodeId = 1 ∧ claim.expiresAt = 30000 := by
    refine ⟨(Registry.empty 0).newClaim (soleRegistration "first" 1 "one") "claim-1"
      "operation-0000001" "fingerprint" none, ?_, rfl, rfl⟩
    decide
  have missing : "first" ∉
      ((Registry.empty 0).runAll exampleConfig lapsedSetRun).reservations.members 1 := by
    decide
  exact missing ((recorded "first" 1 30000).mp held).1

end Registry

end ServerFoundation.MeshClient
