import ServerFoundation.MeshClient.Registry.Effects

/-!
# Node sets against the client hash

The sets `node:<id>:clients` are the only way a node cleanup finds the records of a dead node,
so every record of a node has to be in its set. This module follows `Ownership.Consistent`
through every script.

All scripts keep it except one branch of `COMMIT_CLAIM_SCRIPT`. When the claim was made against
the current record, the script removes the client from the set of the old node, and only then
checks the capacity of the new node. If the new node has filled up since the claim, the commit
is refused with the client in no set. `CommitHasRoom` says that a commit does not take this
branch.
-/

namespace ServerFoundation.MeshClient

namespace Ownership.Consistent

variable {ownership : Ownership}

theorem publish (consistent : ownership.Consistent) {clientId : ClientId} {record : ClientRecord}
    {deadline : ℕ}
    (notElsewhere : ∀ old, ownership.client clientId = some old → old.nodeId = record.nodeId) :
    (ownership.publish clientId record deadline).Consistent :=
  ((consistent.put notElsewhere).expireClients deadline).expireMembers record.nodeId deadline

theorem cleanup (consistent : ownership.Consistent) {after : Ownership} {nodeId : NodeId}
    {members : List ClientId}
    (clients : ∀ clientId, after.client clientId =
      (ownership.client clientId).filter fun record =>
        ¬(clientId ∈ members ∧ record.nodeId = nodeId))
    (sets : ∀ clientId node, clientId ∈ after.members node ↔
      ¬(node = nodeId ∧ clientId ∈ members) ∧ clientId ∈ ownership.members node) :
    after.Consistent := by
  intro clientId node
  rw [clients, sets, ← consistent clientId node]
  constructor
  · rintro ⟨record, kept, rfl⟩
    rw [Option.filter_eq_some_iff, decide_eq_true_eq] at kept
    exact ⟨fun cleaned => kept.2 ⟨cleaned.2, cleaned.1⟩, record, kept.1, rfl⟩
  · rintro ⟨notCleaned, record, found, rfl⟩
    refine ⟨record, ?_, rfl⟩
    rw [Option.filter_eq_some_iff, decide_eq_true_eq]
    exact ⟨found, fun cleaned => notCleaned ⟨cleaned.2, cleaned.1⟩⟩

theorem srem_absent (consistent : ownership.Consistent) {clientId : ClientId} (nodeId : NodeId)
    (absent : ownership.client clientId = none) :
    (ownership.srem nodeId clientId).Consistent := by
  refine consistent.congr (by simp) ?_
  intro node
  ext other
  simp only [mem_members_srem, and_iff_right_iff_imp]
  rintro member ⟨rfl, rfl⟩
  rcases (consistent other node).mpr member with ⟨record, found, -⟩
  simp [absent] at found

end Ownership.Consistent

namespace Registry

/-- A commit whose claim was made against the current record finds room in the new node's set. -/
def CommitHasRoom (registry : Registry) : Command → Prop
  | .commitClaim clientId nodeId claimId maxClientsPerNode =>
      ∀ claim before, registry.reservations.claim clientId = some claim →
        claim.nodeId = nodeId → claim.claimId = claimId → registry.now < claim.expiresAt →
        claim.previous = some before → registry.ownership.client clientId = some before →
        ¬(registry.ownership.srem before.nodeId clientId).Full nodeId clientId maxClientsPerNode
  | _ => True

section Scripts

variable {registry : Registry} (consistent : registry.ownership.Consistent) (clientId : ClientId)
  (config : RegistryConfig) (request : Registration) (nodeId : NodeId)
include consistent

theorem registerScript_consistent (generationId : String) :
    (registry.registerScript request generationId).1.ownership.Consistent := by
  rcases registry.registerScript_cases request generationId with
    same | ⟨claimId, -, held, -, written⟩
  · rw [same]
    exact consistent
  · rw [written]
    exact consistent.publish fun old found => (held old found).1

theorem activateScript_consistent (metadataJson : String) (hasMetadata : Bool)
    (connectionId : String) :
    (registry.activateScript clientId nodeId metadataJson hasMetadata
      connectionId).1.ownership.Consistent := by
  rcases registry.activateScript_cases clientId nodeId metadataJson hasMetadata connectionId with
    same | ⟨record, owned, written⟩
  · rw [same]
    exact consistent
  · rw [written]
    rcases (Ownership.ownedRecord_eq_some_iff _ _ _ _ _).mp owned with ⟨-, found, -, -⟩
    apply consistent.publish
    intro old foundOld
    rw [found] at foundOld
    cases foundOld
    rfl

theorem updateMetadataScript_consistent (metadataJson : String) (hasMetadata : Bool)
    (connectionId : String) :
    (registry.updateMetadataScript clientId nodeId metadataJson hasMetadata
      connectionId).1.ownership.Consistent := by
  rcases registry.updateMetadataScript_cases clientId nodeId metadataJson hasMetadata
    connectionId with same | ⟨record, owned, written⟩
  · rw [same]
    exact consistent
  · rw [written]
    rcases (Ownership.ownedRecord_eq_some_iff _ _ _ _ _).mp owned with ⟨-, found, -, -⟩
    have kept : (record.withMetadata record.state metadataJson hasMetadata).nodeId =
        record.nodeId := rfl
    exact (consistent.rewrite found kept).expireClients registry.keyDeadline

theorem unregisterScript_consistent (connectionId : String) :
    (registry.unregisterScript clientId nodeId connectionId).1.ownership.Consistent := by
  rcases registry.unregisterScript_cases clientId nodeId connectionId with
    same | ⟨record, reservations, owned, -, written⟩
  · rw [same]
    exact consistent
  · rw [written]
    rcases (Ownership.ownedRecord_eq_some_iff _ _ _ _ _).mp owned with ⟨-, found, rfl, -⟩
    exact consistent.remove found

theorem refreshNodeScript_consistent :
    (registry.refreshNodeScript nodeId).ownership.Consistent := by
  unfold refreshNodeScript
  split_ifs
  · exact (consistent.expireMembers nodeId registry.keyDeadline).expireClients registry.keyDeadline
  · exact consistent

theorem cleanupNodeScript_consistent (members popped : List ClientId) :
    (registry.cleanupNodeScript nodeId members popped).1.ownership.Consistent := by
  refine consistent.cleanup
    (fun clientId => Ownership.client_cleanupMembers clientId nodeId members _) ?_
  intro clientId node
  refine (iff_of_eq (congrArg (clientId ∈ ·)
    (Ownership.members_cleanupMembers nodeId node members _))).trans ?_
  by_cases same : node = nodeId
  · subst same
    simp [and_comm]
  · simp [same]

theorem cleanupNodeAndOrphanScript_consistent (deliveryId : String) (page : OrphanPage)
    (members popped : List ClientId) :
    (registry.cleanupNodeAndOrphanScript config nodeId deliveryId page members
      popped).1.ownership.Consistent := by
  have removed : (registry.ownership.removeMembers nodeId members).Consistent :=
    consistent.cleanup
      (fun clientId => Ownership.client_removeMembers clientId nodeId members _)
      (fun clientId node => Ownership.mem_members_removeMembers clientId nodeId node members _)
  have outcome := registry.cleanupNodeAndOrphanScript_outcome nodeId config deliveryId page members
    popped
  generalize registry.cleanupNodeAndOrphanScript config nodeId deliveryId page members popped =
    result at outcome
  cases outcome with
  | inactive => exact removed
  | full => exact consistent
  | stored => exact removed

theorem removeClaimPreviousScript_consistent (claimId : String) :
    (registry.removeClaimPreviousScript clientId nodeId claimId).1.ownership.Consistent := by
  rcases registry.removeClaimPreviousScript_cases clientId nodeId claimId with
    same | ⟨claim, before, current, -, -, -, -, found, generation, written⟩
  · rw [same]
    exact consistent
  · rw [written]
    have sameNode : before.nodeId = current.nodeId := by
      rcases generation with rfl | ⟨-, -, sameNode, -⟩
      · rfl
      · exact sameNode
    rw [sameNode]
    exact consistent.remove found

theorem dropCommitted_consistent (claimId : String) :
    (registry.dropCommitted clientId nodeId claimId).1.ownership.Consistent := by
  rcases registry.dropCommitted_cases clientId nodeId claimId with
    same | ⟨record, found, rfl, -, written⟩
  · rw [same]
    exact consistent
  · rw [written]
    exact consistent.remove found

theorem claimScript_consistent (claimId operationId requestFingerprint : String) :
    (registry.claimScript request claimId operationId
      requestFingerprint).1.ownership.Consistent := by
  have outcome := registry.claimScript_outcome request claimId operationId requestFingerprint
  generalize registry.claimScript request claimId operationId requestFingerprint = result at outcome
  cases outcome <;> simpa [sweepClaims] using consistent

theorem commitClaimScript_consistent (claimId : String) (maxClientsPerNode : ℕ)
    (room : registry.CommitHasRoom (.commitClaim clientId nodeId claimId maxClientsPerNode)) :
    (registry.commitClaimScript clientId nodeId claimId
      maxClientsPerNode).1.ownership.Consistent := by
  have outcome := registry.commitClaimScript_outcome clientId nodeId claimId maxClientsPerNode
  generalize registry.commitClaimScript clientId nodeId claimId maxClientsPerNode =
    result at outcome
  cases outcome with
  | repeated => exact consistent
  | unchanged => exact consistent
  | expired => exact consistent
  | withdrawn claim found sameNode sameClaim live before previous current full =>
      rcases current with absent | present
      · exact consistent.srem_absent before.nodeId absent
      · exact absurd full
          (room claim before found sameNode sameClaim live previous present)
  | published claim found sameNode sameClaim noPrevious current =>
      apply consistent.publish
      intro old foundOld
      have own := claim.previous_eq
      rw [noPrevious, ← current, foundOld, Option.filter_some] at own
      split_ifs at own with foreign
      rw [decide_eq_true_eq, not_not] at foreign
      exact foreign.1
  | moved claim found sameNode sameClaim before previous current room =>
      refine ((consistent.move ?_).expireClients registry.keyDeadline).expireMembers _
        registry.keyDeadline
      intro old foundOld
      rcases current with absent | present
      · simp [absent] at foundOld
      · rw [present] at foundOld
        cases foundOld
        rfl

theorem run_consistent (command : Command) (noKeyExpires : registry.NoKeyExpires command)
    (room : registry.CommitHasRoom command) :
    (registry.run config command).ownership.Consistent := by
  cases command with
  | register request generationId =>
      exact registerScript_consistent consistent request generationId
  | activate clientId nodeId metadataJson hasMetadata connectionId =>
      exact activateScript_consistent consistent clientId nodeId metadataJson hasMetadata
        connectionId
  | unregister clientId nodeId connectionId =>
      exact unregisterScript_consistent consistent clientId nodeId connectionId
  | updateMetadata clientId nodeId metadataJson hasMetadata connectionId =>
      exact updateMetadataScript_consistent consistent clientId nodeId metadataJson hasMetadata
        connectionId
  | refreshNode nodeId => exact refreshNodeScript_consistent consistent nodeId
  | cleanupNode nodeId members popped =>
      exact cleanupNodeScript_consistent consistent nodeId members popped
  | cleanupNodeAndOrphan nodeId deliveryId page members popped =>
      exact cleanupNodeAndOrphanScript_consistent consistent config nodeId deliveryId page members
        popped
  | claim request claimId operationId requestFingerprint =>
      exact claimScript_consistent consistent request claimId operationId requestFingerprint
  | commitClaim clientId nodeId claimId maxClientsPerNode =>
      exact commitClaimScript_consistent consistent clientId nodeId claimId maxClientsPerNode room
  | removeClaimPrevious clientId nodeId claimId =>
      exact removeClaimPreviousScript_consistent consistent clientId nodeId claimId
  | removeClaimResult clientId nodeId claimId =>
      simp only [run, removeClaimResultScript, dropClaim_ownership]
      exact dropCommitted_consistent consistent clientId nodeId claimId
  | abortClaim clientId nodeId claimId =>
      simp only [run, abortClaimScript, dropClaim_ownership]
      exact consistent
  | enqueueOrphan => exact consistent
  | claimOrphan => exact consistent
  | ackOrphan => exact consistent
  | nackOrphan => exact consistent
  | elapse time =>
      exact consistent.congr (client_elapse noKeyExpires) (members_elapse noKeyExpires)

omit consistent in
theorem run_inconsistent_of_overfull (command : Command)
    (overfull : ¬registry.CommitHasRoom command) :
    ¬(registry.run config command).ownership.Consistent := by
  cases command with
  | commitClaim clientId nodeId claimId maxClientsPerNode =>
      simp only [CommitHasRoom] at overfull
      push Not at overfull
      rcases overfull with ⟨claim, before, found, rfl, rfl, live, previous, current, full⟩
      have withdrawn : (registry.commitClaimScript clientId claim.nodeId claim.claimId
          maxClientsPerNode).1.ownership = registry.ownership.srem before.nodeId clientId := by
        simp [commitClaimScript, found, not_le.mpr live, commitLiveClaim, previous, current,
          publishClaim, full]
      intro agrees
      simp only [run] at agrees
      rw [withdrawn] at agrees
      have kept : clientId ∈ (registry.ownership.srem before.nodeId clientId).members
          before.nodeId := (agrees clientId before.nodeId).mp ⟨before, by simpa using current, rfl⟩
      simp at kept
  | _ => exact absurd trivial overfull

theorem cleanupNodeScript_done {nodeId : NodeId} {members popped : List ClientId}
    {after : Registry} {records : List (ClientRecord × ClientId)}
    (done : registry.cleanupNodeScript nodeId members popped = (after, .removed true records))
    {clientId : ClientId} {record : ClientRecord}
    (found : after.ownership.client clientId = some record) : record.nodeId ≠ nodeId := by
  rintro rfl
  have agrees := cleanupNodeScript_consistent consistent record.nodeId members popped
  have replied := congrArg Prod.snd done
  rw [done] at agrees
  have member := (agrees clientId record.nodeId).mp ⟨record, found, rfl⟩
  have afterEq := congrArg Prod.fst done
  simp only [cleanupNodeScript, finishCleanup] at replied afterEq
  have emptied : after.ownership.members record.nodeId = ∅ := by
    rw [← afterEq]
    simp only [CleanupReply.removed.injEq, decide_eq_true_eq] at replied
    exact replied.1.1
  simp [emptied] at member

end Scripts

/-- The runs in which no key expires and no commit meets a full node after it has withdrawn the
old owner. -/
def roomyRuns (config : RegistryConfig) : TransitionSystem Registry Command :=
  (system config).restrict fun registry command =>
    registry.NoKeyExpires command ∧ registry.CommitHasRoom command

theorem consistent_of_reachable {config : RegistryConfig} {registry : Registry}
    (reachable : (roomyRuns config).Reachable registry) : registry.ownership.Consistent := by
  apply reachable.invariant fun registry => registry.ownership.Consistent
  · rintro state ⟨now, rfl⟩
    exact Ownership.Consistent.empty
  · rintro before command after - consistent ⟨⟨noKeyExpires, room⟩, -, rfl⟩
    exact run_consistent consistent config command noKeyExpires room

/-- In every run with fresh delivery ids whose commits find room, the hash and the node sets agree,
and a completed cleanup leaves no record of its node. An overfull commit, and nothing else, breaks
the agreement. -/
theorem clientSets_agree (config : RegistryConfig) {registry : Registry}
    (reachable : (roomyRuns config).Reachable registry) :
    registry.ownership.Consistent ∧
      (∀ clientId left right, clientId ∈ registry.ownership.members left →
        clientId ∈ registry.ownership.members right → left = right) ∧
      (∀ nodeId members popped after records,
        registry.cleanupNodeScript nodeId members popped = (after, .removed true records) →
        ∀ clientId record, after.ownership.client clientId = some record →
          record.nodeId ≠ nodeId) ∧
      ∀ command, registry.Feasible command → registry.NoKeyExpires command →
        ((registry.run config command).ownership.Consistent ↔ registry.CommitHasRoom command) := by
  have consistent := consistent_of_reachable reachable
  refine ⟨consistent, ?_, ?_, ?_⟩
  · intro clientId left right inLeft inRight
    exact consistent.members_unique inLeft inRight
  · intro nodeId members popped after records done clientId record found
    exact cleanupNodeScript_done consistent done found
  · intro command _ noKeyExpires
    constructor
    · intro agrees
      by_contra overfull
      exact run_inconsistent_of_overfull config command overfull agrees
    · exact run_consistent consistent config command noKeyExpires

/-- Node 1 registers a client and node 2 claims it. -/
def claimedRun : List Command :=
  [.register (soleRegistration "client" 1 "first") "generation",
    .claim (soleRegistration "client" 2 "second") "claim" "operation-0000001" "fingerprint"]

/-- Node 2 commits its claim. -/
def takeoverRun : List Command := claimedRun ++ [.commitClaim "client" 2 "claim" 1]

/-- Another client registers on node 2 before the claim is committed. -/
def overfullRun : List Command :=
  claimedRun ++
    [.register (soleRegistration "other" 2 "third") "other-generation",
      .commitClaim "client" 2 "claim" 1]

theorem takeoverRun_follows :
    Follows exampleConfig (fun registry command =>
      registry.NoKeyExpires command ∧ registry.CommitHasRoom command)
      (Registry.empty 0) takeoverRun := by
  refine ⟨⟨⟨trivial, trivial⟩, trivial⟩, ⟨⟨trivial, trivial⟩, trivial⟩,
    ⟨⟨trivial, ?_⟩, trivial⟩, trivial⟩
  intro claim before _ _ _ _ _ _ full
  have noMembers : ((Registry.empty 0).runAll exampleConfig claimedRun).ownership.members 2 =
      ∅ := by
    decide
  have stillNone : (((Registry.empty 0).runAll exampleConfig claimedRun).ownership.srem
      before.nodeId "client").members 2 = ∅ := by
    ext clientId
    simp [noMembers]
  have counted : 1 ≤ ((((Registry.empty 0).runAll exampleConfig claimedRun).ownership.srem
      before.nodeId "client").members 2).card := full.2
  rw [stillNone] at counted
  simp at counted

theorem clientSets_agree_at_takeover :
    ((Registry.empty 0).runAll exampleConfig takeoverRun).ownership.client "client" ≠ none ∧
      ((Registry.empty 0).runAll exampleConfig takeoverRun).ownership.Consistent := by
  refine ⟨by decide, ?_⟩
  have reachable : (roomyRuns exampleConfig).Reachable (Registry.empty 0) := .start ⟨0, rfl⟩
  exact (clientSets_agree exampleConfig (reachable_runAll reachable takeoverRun_follows)).1

/-- A run without expiring keys after which a record of node 1 is missing from its set. -/
theorem clientSets_disagree_at_overfull :
    ∃ registry, ((system exampleConfig).restrict NoKeyExpires).Reachable registry ∧
      ¬registry.ownership.Consistent := by
  refine ⟨(Registry.empty 0).runAll exampleConfig overfullRun, ?_, ?_⟩
  · apply reachable_runAll (.start ⟨0, rfl⟩)
    exact ⟨⟨trivial, trivial⟩, ⟨trivial, trivial⟩, ⟨trivial, trivial⟩, ⟨trivial, trivial⟩, trivial⟩
  · intro agrees
    have recorded : ∃ record,
        ((Registry.empty 0).runAll exampleConfig overfullRun).ownership.client "client" =
          some record ∧ record.nodeId = 1 :=
      ⟨(soleRegistration "client" 1 "first").record "generation", by decide, rfl⟩
    have member := (agrees "client" 1).mp recorded
    have missing :
        "client" ∉ ((Registry.empty 0).runAll exampleConfig overfullRun).ownership.members 1 := by
      decide
    exact missing member

end Registry

end ServerFoundation.MeshClient
