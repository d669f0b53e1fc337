import ServerFoundation.MeshClient.Registry.System

/-!
# What a script can do

One statement for each script about everything it can do to the registry, guards
included. Later arguments split on these cases and do not open the scripts again.
-/

namespace ServerFoundation.MeshClient

namespace Ownership

variable (ownership : Ownership) (clientId other : ClientId) (nodeId node : NodeId)
  (members : List ClientId)

theorem ownedRecord_eq_some_iff (connectionId : String) (record : ClientRecord) :
    ownership.ownedRecord clientId nodeId connectionId = some record ↔
      connectionId ≠ "" ∧ ownership.client clientId = some record ∧ record.nodeId = nodeId ∧
        record.connectionId = connectionId := by
  unfold ownedRecord
  constructor
  · intro owned
    split_ifs at owned with noConnection
    split at owned
    · simp at owned
    · rename_i found foundEq
      split_ifs at owned with sameNode sameConnection
      cases owned
      exact ⟨noConnection, foundEq, not_not.mp sameNode, not_not.mp sameConnection⟩
  · rintro ⟨connected, found, rfl, rfl⟩
    simp [connected, found]

@[simp]
theorem client_publish (record : ClientRecord) (deadline : ℕ) :
    (ownership.publish clientId record deadline).client other =
      if other = clientId then some record else ownership.client other := by
  simp [publish]

@[simp]
theorem client_removeOwned :
    (removeOwned nodeId ownership clientId).client other =
      (ownership.client other).filter fun record =>
        ¬(other = clientId ∧ record.nodeId = nodeId) := by
  unfold removeOwned
  by_cases same : other = clientId
  · subst same
    cases found : ownership.client other with
    | none => simp [found]
    | some record =>
        by_cases owned : record.nodeId = nodeId <;> simp [found, owned, Option.filter_some]
  · have unfiltered : (ownership.client other).filter (fun record =>
        decide ¬(other = clientId ∧ record.nodeId = nodeId)) = ownership.client other := by
      cases ownership.client other <;> simp [same]
    rw [unfiltered]
    split
    · rfl
    · split_ifs
      · simp [same]
      · rfl

@[simp]
theorem members_removeOwned :
    (removeOwned nodeId ownership clientId).members node = ownership.members node := by
  unfold removeOwned
  split
  · rfl
  · split_ifs <;> rfl

theorem filter_owned_cons (found : Option ClientRecord) (rest : List ClientId) :
    ((found.filter fun record => ¬(other = clientId ∧ record.nodeId = nodeId)).filter
        fun record => ¬(other ∈ rest ∧ record.nodeId = nodeId)) =
      found.filter fun record => ¬(other ∈ clientId :: rest ∧ record.nodeId = nodeId) := by
  rw [Option.filter_filter]
  congr 1
  funext record
  by_cases owned : record.nodeId = nodeId <;> simp [owned]

theorem client_cleanupMembers (ownership : Ownership) :
    (ownership.cleanupMembers nodeId members).1.client other =
      (ownership.client other).filter fun record =>
        ¬(other ∈ members ∧ record.nodeId = nodeId) := by
  induction members generalizing ownership with
  | nil => cases found : ownership.client other <;> simp [cleanupMembers, found, Option.filter_some]
  | cons clientId rest ih =>
      simp only [cleanupMembers, ih, client_removeOwned]
      exact filter_owned_cons clientId other nodeId _ rest

theorem members_cleanupMembers (ownership : Ownership) :
    (ownership.cleanupMembers nodeId members).1.members node = ownership.members node := by
  induction members generalizing ownership with
  | nil => rfl
  | cons clientId rest ih => simp only [cleanupMembers, ih, members_removeOwned]

theorem client_removeMembers (ownership : Ownership) :
    (ownership.removeMembers nodeId members).client other =
      (ownership.client other).filter fun record =>
        ¬(other ∈ members ∧ record.nodeId = nodeId) := by
  induction members generalizing ownership with
  | nil => cases found : ownership.client other <;>
      simp [removeMembers, found, Option.filter_some]
  | cons clientId rest ih =>
      refine (ih _).trans ?_
      simp only [client_removeOwned, client_srem]
      exact filter_owned_cons clientId other nodeId _ rest

theorem mem_members_removeMembers (ownership : Ownership) :
    other ∈ (ownership.removeMembers nodeId members).members node ↔
      ¬(node = nodeId ∧ other ∈ members) ∧ other ∈ ownership.members node := by
  induction members generalizing ownership with
  | nil => simp [removeMembers]
  | cons clientId rest ih =>
      refine (ih _).trans ?_
      simp only [members_removeOwned, mem_members_srem, List.mem_cons]
      tauto

end Ownership

namespace Reservations

theorem ownClaim_eq_some_iff (reservations : Reservations) (clientId : ClientId)
    (nodeId : NodeId) (claimId : String) (claim : Claim) :
    reservations.ownClaim clientId nodeId claimId = some claim ↔
      reservations.claim clientId = some claim ∧ claim.nodeId = nodeId ∧
        claim.claimId = claimId := by
  unfold ownClaim
  constructor
  · intro own
    split at own
    · simp at own
    · rename_i found foundEq
      split_ifs at own with foreign
      cases own
      rw [not_or, not_not, not_not] at foreign
      exact ⟨foundEq, foreign⟩
  · rintro ⟨found, rfl, rfl⟩
    simp [found]

end Reservations

namespace Registry

variable (registry : Registry) (clientId : ClientId) (nodeId : NodeId) (request : Registration)
  (claimId : String) (metadataJson : String) (config : RegistryConfig)

/-- Registering changes nothing, or writes a record that no other connection holds and that keeps
the generation of the record it replaces. -/
theorem registerScript_cases (generationId : String) :
    (registry.registerScript request generationId).1 = registry ∨
      ∃ claimId, request.connectionId ≠ "" ∧
        (∀ old, registry.ownership.client request.clientId = some old →
          old.nodeId = request.nodeId ∧ old.connectionId = request.connectionId ∧
            claimId = old.claimId.getD generationId) ∧
        (registry.ownership.client request.clientId = none → claimId = generationId) ∧
        (registry.registerScript request generationId).1 =
          { registry with
            ownership := registry.ownership.publish request.clientId (request.record claimId)
              registry.keyDeadline } := by
  unfold registerScript
  split_ifs with noConnection
  · exact .inl rfl
  · split
    · rename_i absent
      unfold registerAs
      split_ifs
      · exact .inl rfl
      · right
        refine ⟨generationId, noConnection, ?_, fun _ => rfl, rfl⟩
        intro old found
        simp [absent] at found
    · rename_i record found
      split_ifs with foreign
      · exact .inl rfl
      · unfold registerAs
        split_ifs
        · exact .inl rfl
        · right
          rw [not_or, not_not, not_not] at foreign
          refine ⟨record.claimId.getD generationId, noConnection, ?_, ?_, rfl⟩
          · intro old foundOld
            rw [found] at foundOld
            cases foundOld
            exact ⟨foreign.1, foreign.2, rfl⟩
          · intro absent
            simp [found] at absent

theorem activateScript_cases (hasMetadata : Bool) (connectionId : String) :
    (registry.activateScript clientId nodeId metadataJson hasMetadata connectionId).1 = registry ∨
      ∃ record, registry.ownership.ownedRecord clientId nodeId connectionId = some record ∧
        (registry.activateScript clientId nodeId metadataJson hasMetadata connectionId).1 =
          { registry with
            ownership := registry.ownership.publish clientId
              (record.withMetadata .active metadataJson hasMetadata) registry.keyDeadline } := by
  unfold activateScript
  split
  · exact .inl rfl
  · rename_i record owned
    exact .inr ⟨record, owned, rfl⟩

theorem updateMetadataScript_cases (hasMetadata : Bool) (connectionId : String) :
    (registry.updateMetadataScript clientId nodeId metadataJson hasMetadata connectionId).1 =
        registry ∨
      ∃ record, registry.ownership.ownedRecord clientId nodeId connectionId = some record ∧
        (registry.updateMetadataScript clientId nodeId metadataJson hasMetadata connectionId).1 =
          { registry with
            ownership := (registry.ownership.hset clientId
              (record.withMetadata record.state metadataJson hasMetadata)).expireClients
                registry.keyDeadline } := by
  unfold updateMetadataScript
  split
  · exact .inl rfl
  · rename_i record owned
    exact .inr ⟨record, owned, rfl⟩

/-- Unregistering deletes the record of the calling connection and, if the same connection also
holds the claim, that claim. -/
theorem unregisterScript_cases (connectionId : String) :
    (registry.unregisterScript clientId nodeId connectionId).1 = registry ∨
      ∃ record reservations,
        registry.ownership.ownedRecord clientId nodeId connectionId = some record ∧
        (reservations = registry.reservations ∨
          ∃ claim, registry.reservations.claim clientId = some claim ∧ claim.nodeId = nodeId ∧
            reservations = registry.reservations.release nodeId clientId) ∧
        (registry.unregisterScript clientId nodeId connectionId).1 =
          { registry with
            ownership := (registry.ownership.hdel clientId).srem nodeId clientId
            reservations } := by
  unfold unregisterScript
  split
  · exact .inl rfl
  · rename_i record owned
    right
    cases found : registry.reservations.claim clientId with
    | none => exact ⟨record, registry.reservations, owned, .inl rfl, by simp [found]⟩
    | some claim =>
        by_cases own : claim.nodeId = nodeId ∧ claim.connectionId = connectionId
        · refine ⟨record, _, owned, .inr ⟨claim, rfl, own.1, rfl⟩, ?_⟩
          simp [found, own]
        · refine ⟨record, registry.reservations, owned, .inl rfl, ?_⟩
          simp [found, own]

/-- Removing the previous owner of a claim deletes the current record only if it belongs to the
generation the claim was made against. -/
theorem removeClaimPreviousScript_cases :
    (registry.removeClaimPreviousScript clientId nodeId claimId).1 = registry ∨
      ∃ claim before current, registry.reservations.claim clientId = some claim ∧
        claim.nodeId = nodeId ∧ claim.claimId = claimId ∧ claim.previous = some before ∧
        registry.ownership.client clientId = some current ∧
        (current = before ∨ before.SameGeneration current) ∧
        (registry.removeClaimPreviousScript clientId nodeId claimId).1 =
          { registry with
            ownership := (registry.ownership.hdel clientId).srem before.nodeId clientId } := by
  unfold removeClaimPreviousScript
  split
  · exact .inl rfl
  · rename_i before previous
    rcases Option.bind_eq_some_iff.mp previous with ⟨claim, own, previousEq⟩
    rcases (Reservations.ownClaim_eq_some_iff _ _ _ _ _).mp own with ⟨found, sameNode, sameId⟩
    split
    · exact .inl rfl
    · rename_i current currentEq
      split_ifs with differ
      · exact .inl rfl
      · right
        refine ⟨claim, before, current, found, sameNode, sameId, previousEq, currentEq, ?_, rfl⟩
        by_cases same : current = before
        · exact .inl same
        · exact .inr (not_not.mp fun other => differ ⟨same, other⟩)

theorem dropClaim_cases :
    (registry.dropClaim clientId nodeId claimId).1 = registry ∨
      ∃ claim, registry.reservations.claim clientId = some claim ∧ claim.nodeId = nodeId ∧
        claim.claimId = claimId ∧
        (registry.dropClaim clientId nodeId claimId).1 =
          { registry with reservations := registry.reservations.release nodeId clientId } := by
  unfold dropClaim
  split
  · exact .inl rfl
  · rename_i claim own
    rcases (Reservations.ownClaim_eq_some_iff _ _ _ _ _).mp own with ⟨found, sameNode, sameId⟩
    exact .inr ⟨claim, found, sameNode, sameId, rfl⟩

@[simp]
theorem dropClaim_ownership :
    (registry.dropClaim clientId nodeId claimId).1.ownership = registry.ownership := by
  rcases registry.dropClaim_cases clientId nodeId claimId with same | ⟨claim, -, -, -, written⟩
  · rw [same]
  · rw [written]

theorem dropCommitted_cases :
    (registry.dropCommitted clientId nodeId claimId).1 = registry ∨
      ∃ record, registry.ownership.client clientId = some record ∧ record.nodeId = nodeId ∧
        record.claimId = some claimId ∧
        (registry.dropCommitted clientId nodeId claimId).1 =
          { registry with
            ownership := (registry.ownership.hdel clientId).srem nodeId clientId } := by
  unfold dropCommitted
  split
  · exact .inl rfl
  · rename_i record found
    split_ifs with own
    · exact .inr ⟨record, found, own.1, own.2, rfl⟩
    · exact .inl rfl

/-- What `CLEANUP_NODE_AND_ORPHAN_SCRIPT` can leave behind and answer. -/
inductive OrphaningOutcome (config : RegistryConfig) (registry : Registry) (nodeId : NodeId)
    (deliveryId : String) (page : OrphanPage) (members popped : List ClientId) :
    Registry × CleanupReply → Prop where
  | inactive (removed : members.filterMap (registry.ownership.activeRecord nodeId) = []) :
      OrphaningOutcome config registry nodeId deliveryId page members popped
        ({ registry with ownership := registry.ownership.removeMembers nodeId members
          }.finishCleanup nodeId popped [])
  | full (removed : List (ClientRecord × ClientId))
      (removedEq : removed = members.filterMap (registry.ownership.activeRecord nodeId))
      (orphans : OrphanQueue)
      (refused : registry.orphans.snapshot config.encodedLength registry.now page deliveryId nodeId
        removed config.maxOrphanItems config.maxOrphanBytes = (orphans, false)) :
      OrphaningOutcome config registry nodeId deliveryId page members popped
        ({ registry with orphans }, .full)
  | stored (removed : List (ClientRecord × ClientId))
      (removedEq : removed = members.filterMap (registry.ownership.activeRecord nodeId))
      (orphans : OrphanQueue)
      (accepted : registry.orphans.snapshot config.encodedLength registry.now page deliveryId
        nodeId removed config.maxOrphanItems config.maxOrphanBytes = (orphans, true)) :
      OrphaningOutcome config registry nodeId deliveryId page members popped
        ({ registry with
            ownership := registry.ownership.removeMembers nodeId members
            orphans }.finishCleanup nodeId popped removed)

theorem cleanupNodeAndOrphanScript_outcome (deliveryId : String) (page : OrphanPage)
    (members popped : List ClientId) :
    OrphaningOutcome config registry nodeId deliveryId page members popped
      (registry.cleanupNodeAndOrphanScript config nodeId deliveryId page members popped) := by
  unfold cleanupNodeAndOrphanScript
  dsimp only
  by_cases inactive : members.filterMap (registry.ownership.activeRecord nodeId) = []
  · simp only [inactive, if_pos]
    exact .inactive inactive
  · simp only [if_neg inactive]
    generalize snapshotEq : registry.orphans.snapshot config.encodedLength registry.now page
      deliveryId nodeId (members.filterMap (registry.ownership.activeRecord nodeId))
      config.maxOrphanItems config.maxOrphanBytes = result
    rcases result with ⟨orphans, stored⟩
    cases stored with
    | false => exact .full _ rfl orphans snapshotEq
    | true => exact .stored _ rfl orphans snapshotEq

/-- What `CLAIM_SCRIPT` can leave behind and answer. -/
inductive ClaimOutcome (registry : Registry) (request : Registration)
    (claimId operationId requestFingerprint : String) : Registry × ClaimReply → Prop where
  | unconnected (noConnection : request.connectionId = "") :
      ClaimOutcome registry request claimId operationId requestFingerprint
        (registry, .conflict none)
  | repeated (claim : Claim)
      (found : (registry.sweepClaims.clearExpired request.clientId).reservations.claim
        request.clientId = some claim)
      (sameOperation : claim.operationId = operationId)
      (sameFingerprint : claim.requestFingerprint = requestFingerprint) :
      ClaimOutcome registry request claimId operationId requestFingerprint
        (registry.sweepClaims.clearExpired request.clientId, .ok claim.claimId claim.previous)
  | refused (reply : ClaimReply) (notOk : ∀ id previous, reply ≠ .ok id previous) :
      ClaimOutcome registry request claimId operationId requestFingerprint
        (registry.sweepClaims.clearExpired request.clientId, reply)
  | written (connected : request.connectionId ≠ "")
      (unreserved : (registry.sweepClaims.clearExpired request.clientId).reservations.claim
        request.clientId = none)
      (claim : Claim)
      (isNew : claim = registry.newClaim request claimId operationId requestFingerprint
        (registry.ownership.client request.clientId)) :
      ClaimOutcome registry request claimId operationId requestFingerprint
        ({ registry.sweepClaims.clearExpired request.clientId with
            reservations := (registry.sweepClaims.clearExpired
              request.clientId).reservations.reserve request.clientId claim
                registry.keyDeadline },
          .ok claimId claim.previous)

@[simp]
theorem clearExpired_now : (registry.clearExpired clientId).now = registry.now := by
  unfold clearExpired
  split
  · rfl
  · split_ifs <;> rfl

@[simp]
theorem clearExpired_ownership :
    (registry.clearExpired clientId).ownership = registry.ownership := by
  unfold clearExpired
  split
  · rfl
  · split_ifs <;> rfl

@[simp]
theorem clearExpired_orphans : (registry.clearExpired clientId).orphans = registry.orphans := by
  unfold clearExpired
  split
  · rfl
  · split_ifs <;> rfl

theorem writeClaim_cases (claim : Claim) (maxClientsPerNode : ℕ) :
    (∃ reply, (∀ id previous, reply ≠ .ok id previous) ∧
      registry.writeClaim clientId claim maxClientsPerNode = (registry, reply)) ∨
    registry.writeClaim clientId claim maxClientsPerNode =
      ({ registry with
          reservations := registry.reservations.reserve clientId claim registry.keyDeadline },
        .ok claim.claimId claim.previous) := by
  unfold writeClaim
  dsimp only
  split_ifs
  · exact .inl ⟨.capacity, by simp, rfl⟩
  · exact .inl ⟨.nodeCapacity, by simp, rfl⟩
  · exact .inr rfl

theorem claimUnreserved_cases (claimId operationId requestFingerprint : String) :
    (∃ reply, (∀ id previous, reply ≠ .ok id previous) ∧
      registry.claimUnreserved request claimId operationId requestFingerprint =
        (registry, reply)) ∨
    registry.claimUnreserved request claimId operationId requestFingerprint =
      ({ registry with
          reservations := registry.reservations.reserve request.clientId
            (registry.newClaim request claimId operationId requestFingerprint
              (registry.ownership.client request.clientId)) registry.keyDeadline },
        .ok claimId (registry.newClaim request claimId operationId requestFingerprint
          (registry.ownership.client request.clientId)).previous) := by
  unfold claimUnreserved
  dsimp only
  split
  · rename_i absent
    rw [absent]
    exact registry.writeClaim_cases request.clientId _ request.maxClientsPerNode
  · rename_i record found
    rw [found]
    split_ifs
    · exact .inl ⟨_, by simp, rfl⟩
    · exact .inl ⟨_, by simp, rfl⟩
    · exact registry.writeClaim_cases request.clientId _ request.maxClientsPerNode

theorem claimScript_outcome (claimId operationId requestFingerprint : String) :
    registry.ClaimOutcome request claimId operationId requestFingerprint
      (registry.claimScript request claimId operationId requestFingerprint) := by
  unfold claimScript
  split_ifs with noConnection
  · exact .unconnected noConnection
  · dsimp only
    split
    · rename_i unreserved
      rcases claimUnreserved_cases (registry.sweepClaims.clearExpired request.clientId) request
        claimId operationId requestFingerprint with ⟨reply, notOk, same⟩ | written
      · rw [same]
        exact .refused reply notOk
      · have sameClaim :
            (registry.sweepClaims.clearExpired request.clientId).newClaim request claimId
                operationId requestFingerprint
                ((registry.sweepClaims.clearExpired request.clientId).ownership.client
                  request.clientId) =
              registry.newClaim request claimId operationId requestFingerprint
                (registry.ownership.client request.clientId) := by
          simp [newClaim, sweepClaims]
        have sameDeadline :
            (registry.sweepClaims.clearExpired request.clientId).keyDeadline =
              registry.keyDeadline := by
          simp [keyDeadline, sweepClaims]
        rw [written, sameClaim, sameDeadline]
        exact .written noConnection unreserved _ rfl
    · rename_i claim found
      split_ifs with same
      · exact .repeated claim found same.1 same.2
      · exact .refused _ (by simp)

/-- What `COMMIT_CLAIM_SCRIPT` can leave behind and answer. -/
inductive CommitOutcome (registry : Registry) (clientId : ClientId) (nodeId : NodeId)
    (claimId : String) (maxClientsPerNode : ℕ) : Registry × CommitReply → Prop where
  | repeated (record : ClientRecord)
      (found : registry.ownership.client clientId = some record)
      (sameNode : record.nodeId = nodeId) (sameClaim : record.claimId = some claimId) :
      CommitOutcome registry clientId nodeId claimId maxClientsPerNode (registry, .committed)
  | unchanged (reply : CommitReply) (notCommitted : reply ≠ .committed) :
      CommitOutcome registry clientId nodeId claimId maxClientsPerNode (registry, reply)
  | expired (claim : Claim) (found : registry.reservations.claim clientId = some claim)
      (sameNode : claim.nodeId = nodeId) :
      CommitOutcome registry clientId nodeId claimId maxClientsPerNode
        ({ registry with reservations := registry.reservations.release nodeId clientId },
          .refused)
  | withdrawn (claim : Claim) (found : registry.reservations.claim clientId = some claim)
      (sameNode : claim.nodeId = nodeId) (sameClaim : claim.claimId = claimId)
      (live : registry.now < claim.expiresAt) (before : ClientRecord)
      (previous : claim.previous = some before)
      (current : registry.ownership.client clientId = none ∨
        registry.ownership.client clientId = some before)
      (full : (registry.ownership.srem before.nodeId clientId).Full nodeId clientId
        maxClientsPerNode) :
      CommitOutcome registry clientId nodeId claimId maxClientsPerNode
        ({ registry with ownership := registry.ownership.srem before.nodeId clientId }, .refused)
  | published (claim : Claim) (found : registry.reservations.claim clientId = some claim)
      (sameNode : claim.nodeId = nodeId) (sameClaim : claim.claimId = claimId)
      (noPrevious : claim.previous = none)
      (current : registry.ownership.client clientId = claim.preimage) :
      CommitOutcome registry clientId nodeId claimId maxClientsPerNode
        ({ registry with
            ownership := registry.ownership.publish clientId claim.record registry.keyDeadline
            reservations := registry.reservations.release nodeId clientId },
          .committed)
  | moved (claim : Claim) (found : registry.reservations.claim clientId = some claim)
      (sameNode : claim.nodeId = nodeId) (sameClaim : claim.claimId = claimId)
      (before : ClientRecord) (previous : claim.previous = some before)
      (current : registry.ownership.client clientId = none ∨
        registry.ownership.client clientId = some before)
      (room : ¬(registry.ownership.srem before.nodeId clientId).Full nodeId clientId
        maxClientsPerNode) :
      CommitOutcome registry clientId nodeId claimId maxClientsPerNode
        ({ registry with
            ownership := (registry.ownership.srem before.nodeId clientId).publish clientId
              claim.record registry.keyDeadline
            reservations := registry.reservations.release nodeId clientId },
          .committed)

theorem commitClaimScript_outcome (maxClientsPerNode : ℕ) :
    registry.CommitOutcome clientId nodeId claimId maxClientsPerNode
      (registry.commitClaimScript clientId nodeId claimId maxClientsPerNode) := by
  unfold commitClaimScript
  split
  · split_ifs with committed
    · rcases (Option.any_eq_true _ _).mp committed with ⟨record, found, own⟩
      rw [decide_eq_true_eq] at own
      exact .repeated record found own.1 own.2
    · exact .unchanged _ (by simp)
  · rename_i claim found
    split_ifs with foreign expired
    · exact .unchanged _ (by simp)
    · rw [not_or, not_not, not_not] at foreign
      exact .expired claim found foreign.1
    · rw [not_or, not_not, not_not] at foreign
      rw [not_le] at expired
      rcases foreign with ⟨rfl, rfl⟩
      unfold commitLiveClaim
      dsimp only
      split
      · rename_i noPrevious
        split_ifs with changed
        · exact .unchanged _ (by simp)
        · unfold publishClaim
          split_ifs
          · exact .unchanged _ (by simp)
          · exact .published claim found rfl rfl noPrevious (not_not.mp changed)
      · rename_i before previous
        split_ifs with changed same
        · exact .unchanged _ (by simp)
        · exact .unchanged _ (by simp)
        · have current : registry.ownership.client clientId = none ∨
              registry.ownership.client clientId = some before := by
            by_contra neither
            rw [not_or] at neither
            exact changed neither
          unfold publishClaim
          split_ifs with full
          · exact .withdrawn claim found rfl rfl expired before previous current full
          · exact .moved claim found rfl rfl before previous current full

/-- The orphan queue after a command. -/
def orphansAfter (config : RegistryConfig) (registry : Registry) : Command → OrphanQueue
  | .cleanupNodeAndOrphan nodeId deliveryId page members _ =>
      if members.filterMap (registry.ownership.activeRecord nodeId) = [] then registry.orphans
      else
        (registry.orphans.snapshot config.encodedLength registry.now page deliveryId nodeId
          (members.filterMap (registry.ownership.activeRecord nodeId)) config.maxOrphanItems
          config.maxOrphanBytes).1
  | .enqueueOrphan id page nodeId clientsJson =>
      (registry.orphans.enqueueOrphanScript config.encodedLength registry.now page id nodeId
        clientsJson config.maxOrphanItems config.maxOrphanBytes).1
  | .claimOrphan page token => (registry.orphans.claimOrphanScript registry.now page token).1
  | .ackOrphan id token => (registry.orphans.ackOrphanScript id token).1
  | .nackOrphan id token => (registry.orphans.nackOrphanScript id token).1
  | _ => registry.orphans

theorem dropClaim_frame :
    (registry.dropClaim clientId nodeId claimId).1.now = registry.now ∧
      (registry.dropClaim clientId nodeId claimId).1.orphans = registry.orphans := by
  rcases registry.dropClaim_cases clientId nodeId claimId with same | ⟨claim, -, -, -, written⟩
  · rw [same]
    exact ⟨rfl, rfl⟩
  · rw [written]
    exact ⟨rfl, rfl⟩

theorem dropCommitted_frame :
    (registry.dropCommitted clientId nodeId claimId).1.now = registry.now ∧
      (registry.dropCommitted clientId nodeId claimId).1.orphans = registry.orphans := by
  rcases registry.dropCommitted_cases clientId nodeId claimId with same | ⟨record, -, -, -, written⟩
  · rw [same]
    exact ⟨rfl, rfl⟩
  · rw [written]
    exact ⟨rfl, rfl⟩

theorem run_frame {command : Command} (notTime : ∀ time, command ≠ .elapse time) :
    (registry.run config command).now = registry.now ∧
      (registry.run config command).orphans = registry.orphansAfter config command := by
  cases command with
  | register request generationId =>
      rcases registry.registerScript_cases request generationId with
        same | ⟨claimId, -, -, -, written⟩
      · rw [run, same]
        exact ⟨rfl, rfl⟩
      · rw [run, written]
        exact ⟨rfl, rfl⟩
  | activate clientId nodeId metadataJson hasMetadata connectionId =>
      rcases registry.activateScript_cases clientId nodeId metadataJson hasMetadata
        connectionId with same | ⟨record, -, written⟩
      · rw [run, same]
        exact ⟨rfl, rfl⟩
      · rw [run, written]
        exact ⟨rfl, rfl⟩
  | updateMetadata clientId nodeId metadataJson hasMetadata connectionId =>
      rcases registry.updateMetadataScript_cases clientId nodeId metadataJson hasMetadata
        connectionId with same | ⟨record, -, written⟩
      · rw [run, same]
        exact ⟨rfl, rfl⟩
      · rw [run, written]
        exact ⟨rfl, rfl⟩
  | unregister clientId nodeId connectionId =>
      rcases registry.unregisterScript_cases clientId nodeId connectionId with
        same | ⟨record, reservations, -, -, written⟩
      · rw [run, same]
        exact ⟨rfl, rfl⟩
      · rw [run, written]
        exact ⟨rfl, rfl⟩
  | refreshNode nodeId =>
      simp only [run, refreshNodeScript]
      split_ifs <;> exact ⟨rfl, rfl⟩
  | cleanupNode => exact ⟨rfl, rfl⟩
  | cleanupNodeAndOrphan nodeId deliveryId page members popped =>
      simp only [run, orphansAfter, cleanupNodeAndOrphanScript]
      by_cases inactive : members.filterMap (registry.ownership.activeRecord nodeId) = []
      · simp only [if_pos inactive, if_pos]
        exact ⟨rfl, rfl⟩
      · simp only [if_neg inactive]
        split_ifs <;> exact ⟨rfl, rfl⟩
  | claim request claimId operationId requestFingerprint =>
      have outcome := registry.claimScript_outcome request claimId operationId requestFingerprint
      simp only [run, orphansAfter]
      generalize registry.claimScript request claimId operationId requestFingerprint = result
        at outcome
      cases outcome <;> simp [sweepClaims]
  | commitClaim clientId nodeId claimId maxClientsPerNode =>
      have outcome := registry.commitClaimScript_outcome clientId nodeId claimId maxClientsPerNode
      simp only [run, orphansAfter]
      generalize registry.commitClaimScript clientId nodeId claimId maxClientsPerNode = result
        at outcome
      cases outcome <;> exact ⟨rfl, rfl⟩
  | removeClaimPrevious clientId nodeId claimId =>
      rcases registry.removeClaimPreviousScript_cases clientId nodeId claimId with
        same | ⟨claim, before, current, -, -, -, -, -, -, written⟩
      · rw [run, same]
        exact ⟨rfl, rfl⟩
      · rw [run, written]
        exact ⟨rfl, rfl⟩
  | removeClaimResult clientId nodeId claimId =>
      have committed := registry.dropCommitted_frame clientId nodeId claimId
      have claimed := (registry.dropCommitted clientId nodeId claimId).1.dropClaim_frame clientId
        nodeId claimId
      exact ⟨claimed.1.trans committed.1, claimed.2.trans committed.2⟩
  | abortClaim clientId nodeId claimId => exact registry.dropClaim_frame clientId nodeId claimId
  | enqueueOrphan => exact ⟨rfl, rfl⟩
  | claimOrphan => exact ⟨rfl, rfl⟩
  | ackOrphan => exact ⟨rfl, rfl⟩
  | nackOrphan => exact ⟨rfl, rfl⟩
  | elapse time => exact absurd rfl (notTime time)

end Registry

end ServerFoundation.MeshClient
