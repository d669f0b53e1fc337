import ServerFoundation.MeshClient.Registry.ClientSets

/-!
# Refused commits

`COMMIT_CLAIM_SCRIPT` answers `0` or `2` at six of its exits. Five of them leave
the hash and all node sets alone. The last one, the capacity check of the new
node, comes after the client has been removed from the set of the old node, and
does not put it back. `CommitWithdraws` says when a call takes this exit with a
client that was in the set; any other refused call keeps the ownership.
-/

namespace ServerFoundation.MeshClient

namespace Ownership

variable {ownership : Ownership} {clientId : ClientId} {nodeId : NodeId}

theorem srem_of_not_mem (absent : clientId ∉ ownership.members nodeId) :
    ownership.srem nodeId clientId = ownership := by
  have sameSet : (ownership.nodeClients nodeId).write
      ((ownership.members nodeId).erase clientId) = ownership.nodeClients nodeId := by
    rw [Finset.erase_eq_of_notMem absent]
    rfl
  unfold srem setMembers
  rw [sameSet, Function.update_eq_self]

theorem srem_ne_of_mem (present : clientId ∈ ownership.members nodeId) :
    ownership.srem nodeId clientId ≠ ownership := by
  intro same
  rw [← same] at present
  simp at present

end Ownership

namespace Registry

variable (registry : Registry) (clientId : ClientId) (nodeId : NodeId) (claimId : String)
  (maxClientsPerNode : ℕ)

/-- A commit that is not answered with `1` keeps the hash and all node sets, and removes at most
its own expired claim. -/
def RefusalKeepsOwnership : Prop :=
  (registry.commitClaimScript clientId nodeId claimId maxClientsPerNode).2 ≠ .committed →
    (registry.commitClaimScript clientId nodeId claimId maxClientsPerNode).1.ownership =
        registry.ownership ∧
      ((registry.commitClaimScript clientId nodeId claimId maxClientsPerNode).1.reservations =
          registry.reservations ∨
        ∃ claim, registry.reservations.claim clientId = some claim ∧
          claim.nodeId = nodeId ∧ claim.claimId = claimId ∧ claim.expiresAt ≤ registry.now ∧
          (registry.commitClaimScript clientId nodeId claimId
            maxClientsPerNode).1.reservations = registry.reservations.release nodeId clientId)

/-- The claim takes over from a current record whose client is in the set of the old node, and the
new node has no room without it. -/
def CommitWithdraws : Prop :=
  ∃ claim before, registry.reservations.claim clientId = some claim ∧
    claim.nodeId = nodeId ∧ claim.claimId = claimId ∧ registry.now < claim.expiresAt ∧
    claim.previous = some before ∧
    (registry.ownership.client clientId = none ∨
      registry.ownership.client clientId = some before) ∧
    clientId ∈ registry.ownership.members before.nodeId ∧
    (registry.ownership.srem before.nodeId clientId).Full nodeId clientId maxClientsPerNode

variable {registry clientId nodeId claimId maxClientsPerNode}

theorem publishClaim_refused {claim : Claim} {limit : ℕ}
    (refused : (registry.publishClaim clientId claim limit).2 ≠ .committed) :
    registry.ownership.Full claim.nodeId clientId limit ∧
      (registry.publishClaim clientId claim limit).1 = registry := by
  unfold publishClaim at refused ⊢
  split_ifs at refused ⊢ with full
  · exact ⟨full, rfl⟩
  · exact absurd rfl refused

theorem commitLiveClaim_refused {claim : Claim}
    (refused : (registry.commitLiveClaim clientId claim maxClientsPerNode).2 ≠ .committed) :
    (registry.commitLiveClaim clientId claim maxClientsPerNode).1 = registry ∨
      ∃ before, claim.previous = some before ∧
        (registry.ownership.client clientId = none ∨
          registry.ownership.client clientId = some before) ∧
        (registry.ownership.srem before.nodeId clientId).Full claim.nodeId clientId
          maxClientsPerNode ∧
        (registry.commitLiveClaim clientId claim maxClientsPerNode).1 =
          { registry with ownership := registry.ownership.srem before.nodeId clientId } := by
  unfold commitLiveClaim at refused ⊢
  dsimp only at refused ⊢
  split at refused
  · by_cases changed : registry.ownership.client clientId ≠ claim.preimage
    · rw [if_pos changed]
      exact .inl rfl
    · rw [if_neg changed] at refused ⊢
      exact .inl (publishClaim_refused refused).2
  · rename_i before previous
    by_cases changed : registry.ownership.client clientId ≠ none ∧
        registry.ownership.client clientId ≠ some before
    · rw [if_pos changed]
      exact .inl rfl
    · rw [if_neg changed] at refused ⊢
      rcases publishClaim_refused refused with ⟨full, unchanged⟩
      refine .inr ⟨before, previous, ?_, full, unchanged⟩
      by_contra neither
      rw [not_or] at neither
      exact changed neither

theorem refusalKeepsOwnership_of_not_withdraws
    (keeps : ¬registry.CommitWithdraws clientId nodeId claimId maxClientsPerNode) :
    registry.RefusalKeepsOwnership clientId nodeId claimId maxClientsPerNode := by
  unfold RefusalKeepsOwnership commitClaimScript
  split
  · split_ifs <;> exact fun _ => ⟨rfl, .inl rfl⟩
  · rename_i claim found
    split_ifs with foreign expired
    · exact fun _ => ⟨rfl, .inl rfl⟩
    · rw [not_or, not_not, not_not] at foreign
      exact fun _ => ⟨rfl, .inr ⟨claim, found, foreign.1, foreign.2, expired, rfl⟩⟩
    · rw [not_or, not_not, not_not] at foreign
      rw [not_le] at expired
      intro refused
      rcases commitLiveClaim_refused refused with unchanged | ⟨before, previous, current, full,
        withdrawn⟩
      · rw [unchanged]
        exact ⟨rfl, .inl rfl⟩
      · rw [withdrawn]
        refine ⟨Ownership.srem_of_not_mem ?_, .inl rfl⟩
        intro member
        rw [foreign.1] at full
        exact keeps ⟨claim, before, found, foreign.1, foreign.2, expired, previous, current, member,
          full⟩

theorem not_refusalKeepsOwnership_of_withdraws
    (withdraws : registry.CommitWithdraws clientId nodeId claimId maxClientsPerNode) :
    ¬registry.RefusalKeepsOwnership clientId nodeId claimId maxClientsPerNode := by
  rcases withdraws with ⟨claim, before, found, rfl, rfl, live, previous, current, member, full⟩
  have unchanged : ¬(registry.ownership.client clientId ≠ none ∧
      registry.ownership.client clientId ≠ some before) := by
    rintro ⟨present, changed⟩
    exact current.elim present changed
  have withdrawn : registry.commitClaimScript clientId claim.nodeId claim.claimId
      maxClientsPerNode =
        ({ registry with ownership := registry.ownership.srem before.nodeId clientId },
          .refused) := by
    simp [commitClaimScript, found, not_le.mpr live, commitLiveClaim, previous, unchanged,
      publishClaim, full]
  intro keeps
  unfold RefusalKeepsOwnership at keeps
  rw [withdrawn] at keeps
  exact Ownership.srem_ne_of_mem member (keeps (by simp)).1

/-- A refused commit keeps the hash and all node sets exactly when it does not withdraw the client
from the set of its old node before it meets a full one. -/
theorem refusalKeepsOwnership_iff (registry : Registry) (clientId : ClientId) (nodeId : NodeId)
    (claimId : String) (maxClientsPerNode : ℕ) :
    registry.RefusalKeepsOwnership clientId nodeId claimId maxClientsPerNode ↔
      ¬registry.CommitWithdraws clientId nodeId claimId maxClientsPerNode := by
  constructor
  · intro keeps withdraws
    exact not_refusalKeepsOwnership_of_withdraws withdraws keeps
  · exact refusalKeepsOwnership_of_not_withdraws

/-- The takeover of a client by a node that another client has filled since the claim. -/
def filledRun : List Command :=
  claimedRun ++ [.register (soleRegistration "other" 2 "third") "other-generation"]

/-- The commit is refused, and the old node has lost its member. -/
theorem refused_takeover_withdraws_member :
    ∃ registry, ((system exampleConfig).restrict NoKeyExpires).Reachable registry ∧
      ¬registry.RefusalKeepsOwnership "client" 2 "claim" 1 := by
  refine ⟨(Registry.empty 0).runAll exampleConfig filledRun, ?_, ?_⟩
  · apply reachable_runAll (.start ⟨0, rfl⟩)
    exact ⟨⟨trivial, trivial⟩, ⟨trivial, trivial⟩, ⟨trivial, trivial⟩, trivial⟩
  · intro keeps
    have kept := (keeps (by decide)).1
    have before : "client" ∈ ((Registry.empty 0).runAll exampleConfig filledRun).ownership.members
        1 := by
      decide
    have after : "client" ∉ (((Registry.empty 0).runAll exampleConfig filledRun).commitClaimScript
        "client" 2 "claim" 1).1.ownership.members 1 := by
      decide
    rw [kept] at after
    exact after before

end Registry

end ServerFoundation.MeshClient
