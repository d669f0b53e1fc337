import ServerFoundation.Data.TransitionSystem
import ServerFoundation.MeshClient.Registry.Scripts

/-!
# Runs of the registry

A run of the registry starts from empty keys and interleaves script calls by any
nodes with the passage of Redis time. The random and cursor-driven parts of a
script are inputs of its command, and a step may only use inputs that Redis can
produce in the state before it.
-/

namespace ServerFoundation.MeshClient

/-- One script call with its arguments, or the passage of time. -/
inductive Command where
  | register (request : Registration) (generationId : String)
  | activate (clientId : ClientId) (nodeId : NodeId) (metadataJson : String)
      (hasMetadata : Bool) (connectionId : String)
  | unregister (clientId : ClientId) (nodeId : NodeId) (connectionId : String)
  | updateMetadata (clientId : ClientId) (nodeId : NodeId) (metadataJson : String)
      (hasMetadata : Bool) (connectionId : String)
  | refreshNode (nodeId : NodeId)
  | cleanupNode (nodeId : NodeId) (members popped : List ClientId)
  | cleanupNodeAndOrphan (nodeId : NodeId) (deliveryId : String) (page : OrphanPage)
      (members popped : List ClientId)
  | claim (request : Registration) (claimId operationId requestFingerprint : String)
  | commitClaim (clientId : ClientId) (nodeId : NodeId) (claimId : String)
      (maxClientsPerNode : ℕ)
  | removeClaimPrevious (clientId : ClientId) (nodeId : NodeId) (claimId : String)
  | removeClaimResult (clientId : ClientId) (nodeId : NodeId) (claimId : String)
  | abortClaim (clientId : ClientId) (nodeId : NodeId) (claimId : String)
  | enqueueOrphan (id : String) (page : OrphanPage) (nodeId : NodeId) (clientsJson : String)
  | claimOrphan (page : OrphanPage) (token : String)
  | ackOrphan (id token : String)
  | nackOrphan (id token : String)
  | elapse (time : ℕ)

namespace Registry

/-- The registry after a command. -/
def run (config : RegistryConfig) (registry : Registry) : Command → Registry
  | .register request generationId => (registry.registerScript request generationId).1
  | .activate clientId nodeId metadataJson hasMetadata connectionId =>
      (registry.activateScript clientId nodeId metadataJson hasMetadata connectionId).1
  | .unregister clientId nodeId connectionId =>
      (registry.unregisterScript clientId nodeId connectionId).1
  | .updateMetadata clientId nodeId metadataJson hasMetadata connectionId =>
      (registry.updateMetadataScript clientId nodeId metadataJson hasMetadata connectionId).1
  | .refreshNode nodeId => registry.refreshNodeScript nodeId
  | .cleanupNode nodeId members popped => (registry.cleanupNodeScript nodeId members popped).1
  | .cleanupNodeAndOrphan nodeId deliveryId page members popped =>
      (registry.cleanupNodeAndOrphanScript config nodeId deliveryId page members popped).1
  | .claim request claimId operationId requestFingerprint =>
      (registry.claimScript request claimId operationId requestFingerprint).1
  | .commitClaim clientId nodeId claimId maxClientsPerNode =>
      (registry.commitClaimScript clientId nodeId claimId maxClientsPerNode).1
  | .removeClaimPrevious clientId nodeId claimId =>
      (registry.removeClaimPreviousScript clientId nodeId claimId).1
  | .removeClaimResult clientId nodeId claimId =>
      (registry.removeClaimResultScript clientId nodeId claimId).1
  | .abortClaim clientId nodeId claimId => (registry.abortClaimScript clientId nodeId claimId).1
  | .enqueueOrphan id page nodeId clientsJson =>
      { registry with
        orphans := (registry.orphans.enqueueOrphanScript config.encodedLength registry.now page id
          nodeId clientsJson config.maxOrphanItems config.maxOrphanBytes).1 }
  | .claimOrphan page token =>
      { registry with
        orphans := (registry.orphans.claimOrphanScript registry.now page token).1 }
  | .ackOrphan id token =>
      { registry with orphans := (registry.orphans.ackOrphanScript id token).1 }
  | .nackOrphan id token =>
      { registry with orphans := (registry.orphans.nackOrphanScript id token).1 }
  | .elapse time => registry.elapse time

/-- A choice of distinct members that `SPOP` and `SRANDMEMBER` can make. -/
structure Chosen (chosen : List ClientId) (members : Finset ClientId) : Prop where
  nodup : chosen.Nodup
  subset : ∀ clientId ∈ chosen, clientId ∈ members

/-- The inputs of a command that Redis can produce. Delivery ids are random UUIDs, so a cleanup
never meets its delivery id in the queue. -/
def Feasible (registry : Registry) : Command → Prop
  | .cleanupNode nodeId members popped =>
      Chosen members (registry.ownership.members nodeId) ∧
        Chosen popped (registry.reservations.members nodeId)
  | .cleanupNodeAndOrphan nodeId deliveryId page members popped =>
      Chosen members (registry.ownership.members nodeId) ∧
        Chosen popped (registry.reservations.members nodeId) ∧
          registry.orphans.Scans page ∧ registry.orphans.item deliveryId = none
  | .enqueueOrphan _ page _ _ => registry.orphans.Scans page
  | .claimOrphan page _ => registry.orphans.Scans page
  | .elapse time => registry.now ≤ time
  | _ => True

/-- The runs of a registry from empty keys. -/
def system (config : RegistryConfig) : TransitionSystem Registry Command where
  Init registry := ∃ now, registry = Registry.empty now
  Step before command after := before.Feasible command ∧ after = before.run config command

/-- The registry after a list of commands. -/
def runAll (config : RegistryConfig) (registry : Registry) (commands : List Command) : Registry :=
  commands.foldl (run config) registry

/-- Every command of a list is feasible and allowed where it is run. -/
def Follows (config : RegistryConfig) (allowed : Registry → Command → Prop) :
    Registry → List Command → Prop
  | _, [] => True
  | registry, command :: rest =>
      (allowed registry command ∧ registry.Feasible command) ∧
        Follows config allowed (registry.run config command) rest

theorem reachable_runAll {config : RegistryConfig} {allowed : Registry → Command → Prop}
    {commands : List Command} {registry : Registry}
    (reachable : ((system config).restrict allowed).Reachable registry)
    (follows : Follows config allowed registry commands) :
    ((system config).restrict allowed).Reachable (registry.runAll config commands) := by
  induction commands generalizing registry with
  | nil => exact reachable
  | cons command rest ih =>
      rcases follows with ⟨⟨permitted, feasible⟩, followsRest⟩
      exact ih (reachable.step ⟨permitted, feasible, rfl⟩) followsRest

/-- Some existing key disappears when Redis time reaches `time`. -/
def KeyExpires (registry : Registry) (time : ℕ) : Prop :=
  registry.ownership.clients.Expires .empty time ∨
    (∃ nodeId, (registry.ownership.nodeClients nodeId).Expires ∅ time) ∨
      registry.reservations.claims.Expires .empty time ∨
        registry.reservations.claimsIndex.Expires .empty time ∨
          ∃ nodeId, (registry.reservations.nodeClaims nodeId).Expires ∅ time

/-- A step in which no key expires. -/
def NoKeyExpires (registry : Registry) : Command → Prop
  | .elapse time => ¬registry.KeyExpires time
  | _ => True

section Elapse

variable {registry : Registry} {time : ℕ} (kept : ¬registry.KeyExpires time)
include kept

theorem client_elapse (clientId : ClientId) :
    (registry.elapse time).ownership.client clientId = registry.ownership.client clientId := by
  simp only [KeyExpires, not_or] at kept
  simp only [elapse, Ownership.elapse, Ownership.client, Expiring.elapse_value kept.1]

theorem members_elapse (nodeId : NodeId) :
    (registry.elapse time).ownership.members nodeId = registry.ownership.members nodeId := by
  simp only [KeyExpires, not_or, not_exists] at kept
  exact Expiring.elapse_value (kept.2.1 nodeId)

theorem claim_elapse (clientId : ClientId) :
    (registry.elapse time).reservations.claim clientId = registry.reservations.claim clientId := by
  simp only [KeyExpires, not_or] at kept
  simp only [elapse, Reservations.elapse, Reservations.claim, Expiring.elapse_value kept.2.2.1]

theorem score_elapse (clientId : ClientId) :
    (registry.elapse time).reservations.score clientId = registry.reservations.score clientId := by
  simp only [KeyExpires, not_or] at kept
  simp only [elapse, Reservations.elapse, Reservations.score,
    Expiring.elapse_value kept.2.2.2.1]

theorem claimMembers_elapse (nodeId : NodeId) :
    (registry.elapse time).reservations.members nodeId =
      registry.reservations.members nodeId := by
  simp only [KeyExpires, not_or, not_exists] at kept
  exact Expiring.elapse_value (kept.2.2.2.2 nodeId)

end Elapse

/-- A registration of a client by a node that allows one client, on a connection of its own. -/
def soleRegistration (clientId : ClientId) (nodeId : NodeId) (connectionId : String) :
    Registration where
  clientId := clientId
  nodeId := nodeId
  metadataJson := "null"
  hasMetadata := false
  state := .active
  allowSupersede := true
  connectionId := connectionId
  processId := ""
  connectedAt := 0
  maxClientsPerNode := 1

/-- Small orphan limits for concrete runs. -/
def exampleConfig : RegistryConfig where
  maxOrphanItems := 4
  maxOrphanBytes := 4096
  encodedLength _ _ _ := 100

end Registry

end ServerFoundation.MeshClient
