import ServerFoundation.MeshClient.Registry.OrphanQueue
import ServerFoundation.MeshClient.Registry.Reservations

/-!
# The registry scripts

Every script of the Redis client registry as a function from the registry to the
registry it leaves behind and its reply. Redis runs a script atomically and at
one instant, which is the `now` of the registry.

`SPOP` and `SRANDMEMBER` choose members at random. The chosen members are an
input of the cleanup scripts, and `Chosen` says which choices Redis can make.

Replies with an error code are inductive types whose constructors stand for the
codes, in the order of the source.
-/

namespace ServerFoundation.MeshClient

/-- All keys of one registry, at one instant of Redis time. -/
structure Registry where
  now : ℕ
  ownership : Ownership
  reservations : Reservations
  orphans : OrphanQueue

/-- The configured orphan limits, and the length of an encoded orphan without its accounted
size. -/
structure RegistryConfig where
  maxOrphanItems : ℕ
  maxOrphanBytes : ℕ
  encodedLength : NodeId → OrphanPayload → ℕ → ℕ

/-- The arguments that registering and claiming share. -/
structure Registration where
  clientId : ClientId
  nodeId : NodeId
  metadataJson : String
  hasMetadata : Bool
  state : RegistrationState
  allowSupersede : Bool
  connectionId : String
  processId : String
  connectedAt : ℕ
  maxClientsPerNode : ℕ
deriving DecidableEq, Repr

/-- `-1`, `-2` and `-3`. -/
inductive RegisterReply where
  | registered
  | conflict
  | full
deriving DecidableEq, Repr

/-- `ok`, `conflict`, `capacity` and `node-capacity`. -/
inductive ClaimReply where
  | ok (claimId : String) (previous : Option ClientRecord)
  | conflict (active : Option ClientRecord)
  | capacity
  | nodeCapacity
deriving DecidableEq, Repr

/-- `0`, `1` and `2`. -/
inductive CommitReply where
  | refused
  | committed
  | mutated
deriving DecidableEq, Repr

/-- What a cleanup script answers: `FULL`, or whether the node is done and what was removed. -/
inductive CleanupReply where
  | full
  | removed (done : Bool) (records : List (ClientRecord × ClientId))
deriving DecidableEq, Repr

/-- `KEY_TTL_SECONDS`, in milliseconds. -/
def keyTtlMs : ℕ := 86400 * 1000

/-- `CLAIM_TTL_MS`. -/
def claimTtlMs : ℕ := 30000

/-- `MAX_CLAIMS_PER_NODE`. -/
def maxClaimsPerNode : ℕ := 8192

/-- The number of expired claims that one claim sweeps. -/
def claimSweepLimit : ℕ := 100

namespace Ownership

/-- The record of a client, when the given connection of the given node holds it. -/
def ownedRecord (ownership : Ownership) (clientId : ClientId) (nodeId : NodeId)
    (connectionId : String) : Option ClientRecord :=
  if connectionId = "" then none
  else
    match ownership.client clientId with
    | none => none
    | some record =>
        if record.nodeId ≠ nodeId then none
        else if record.connectionId ≠ connectionId then none
        else some record

/-- `SISMEMBER == 0 and SCARD >= limit` on a node set. -/
def Full (ownership : Ownership) (nodeId : NodeId) (clientId : ClientId) (limit : ℕ) : Prop :=
  clientId ∉ ownership.members nodeId ∧ limit ≤ (ownership.members nodeId).card

instance (ownership : Ownership) (nodeId : NodeId) (clientId : ClientId) (limit : ℕ) :
    Decidable (ownership.Full nodeId clientId limit) :=
  inferInstanceAs (Decidable (_ ∧ _))

/-- Write a record with its set member and refresh both keys. -/
def publish (ownership : Ownership) (clientId : ClientId) (record : ClientRecord)
    (deadline : ℕ) : Ownership :=
  (((ownership.hset clientId record).sadd record.nodeId clientId).expireClients
    deadline).expireMembers record.nodeId deadline

/-- Delete the record of a client if it belongs to the node. -/
def removeOwned (nodeId : NodeId) (ownership : Ownership) (clientId : ClientId) : Ownership :=
  match ownership.client clientId with
  | none => ownership
  | some record => if record.nodeId = nodeId then ownership.hdel clientId else ownership

/-- The record of a client with its id, if it is an active record of the node. -/
def activeRecord (ownership : Ownership) (nodeId : NodeId) (clientId : ClientId) :
    Option (ClientRecord × ClientId) :=
  match ownership.client clientId with
  | none => none
  | some record =>
      if record.nodeId = nodeId ∧ record.state = .active then some (record, clientId) else none

/-- The loop of `CLEANUP_NODE_SCRIPT` over the popped members. -/
def cleanupMembers (nodeId : NodeId) :
    List ClientId → Ownership → Ownership × List (ClientRecord × ClientId)
  | [], ownership => (ownership, [])
  | clientId :: rest, ownership =>
      let (after, removed) := cleanupMembers nodeId rest (removeOwned nodeId ownership clientId)
      (after, (ownership.activeRecord nodeId clientId).toList ++ removed)

/-- The second pass of `CLEANUP_NODE_AND_ORPHAN_SCRIPT` over the chosen members. -/
def removeMembers (ownership : Ownership) (nodeId : NodeId) (members : List ClientId) :
    Ownership :=
  members.foldl (fun ownership clientId =>
    removeOwned nodeId (ownership.srem nodeId clientId) clientId) ownership

end Ownership

/-- The record that registering writes. -/
def Registration.record (request : Registration) (claimId : String) : ClientRecord where
  nodeId := request.nodeId
  connectedAt := request.connectedAt
  state := request.state
  claimId := some claimId
  connectionId := request.connectionId
  processId := request.processId
  hasMetadata := request.hasMetadata
  metadataJson := request.metadataJson

/-- The record that activation and metadata updates write over an existing one. -/
def ClientRecord.withMetadata (record : ClientRecord) (state : RegistrationState)
    (metadataJson : String) (hasMetadata : Bool) : ClientRecord :=
  { record with state, metadataJson, hasMetadata }

/-- Two records of one stable generation. -/
def ClientRecord.SameGeneration (before current : ClientRecord) : Prop :=
  before.claimId.isSome ∧ current.claimId = before.claimId ∧ before.nodeId = current.nodeId ∧
    before.connectionId = current.connectionId

instance (before current : ClientRecord) : Decidable (before.SameGeneration current) :=
  inferInstanceAs (Decidable (_ ∧ _ ∧ _ ∧ _))

/-- The record that committing a claim writes. -/
def Claim.record (claim : Claim) : ClientRecord where
  nodeId := claim.nodeId
  connectedAt := claim.connectedAt
  state := claim.state
  claimId := some claim.claimId
  connectionId := claim.connectionId
  processId := claim.processId
  hasMetadata := claim.hasMetadata
  metadataJson := claim.metadataJson

namespace Reservations

/-- One turn of the sweep of expired claims. -/
def sweepClaim (reservations : Reservations) (clientId : ClientId) : Reservations :=
  match reservations.claim clientId with
  | none => (reservations.hdel clientId).zrem clientId
  | some claim => reservations.release claim.nodeId clientId

/-- The claim of a client, when it is the given claim of the given node. -/
def ownClaim (reservations : Reservations) (clientId : ClientId) (nodeId : NodeId)
    (claimId : String) : Option Claim :=
  match reservations.claim clientId with
  | none => none
  | some claim => if claim.nodeId ≠ nodeId ∨ claim.claimId ≠ claimId then none else some claim

/-- `SPOP` of the claim set and the loop that deletes the popped claims. -/
def popClaims (reservations : Reservations) (nodeId : NodeId) (popped : List ClientId) :
    Reservations :=
  popped.foldl (fun reservations clientId => (reservations.hdel clientId).zrem clientId)
    (reservations.setMembers nodeId (reservations.members nodeId \ popped.toFinset))

end Reservations

namespace Registry

/-- No key exists. -/
def empty (now : ℕ) : Registry where
  now := now
  ownership := .empty
  reservations := .empty
  orphans := .empty

/-- The deadline that `EXPIRE` sets when a script runs. -/
def keyDeadline (registry : Registry) : ℕ := registry.now + keyTtlMs

/-- The tail of `REGISTER_SCRIPT`: check the capacity and write the record. -/
def registerAs (registry : Registry) (request : Registration) (claimId : String) :
    Registry × RegisterReply :=
  if registry.ownership.Full request.nodeId request.clientId request.maxClientsPerNode then
    (registry, .full)
  else
    ({ registry with
        ownership := registry.ownership.publish request.clientId (request.record claimId)
          registry.keyDeadline },
      .registered)

/-- `REGISTER_SCRIPT`. -/
def registerScript (registry : Registry) (request : Registration) (generationId : String) :
    Registry × RegisterReply :=
  if request.connectionId = "" then (registry, .conflict)
  else
    match registry.ownership.client request.clientId with
    | none => registry.registerAs request generationId
    | some record =>
        if record.nodeId ≠ request.nodeId ∨ record.connectionId ≠ request.connectionId then
          (registry, .conflict)
        else registry.registerAs request (record.claimId.getD generationId)

/-- `ACTIVATE_SCRIPT`. -/
def activateScript (registry : Registry) (clientId : ClientId) (nodeId : NodeId)
    (metadataJson : String) (hasMetadata : Bool) (connectionId : String) : Registry × Bool :=
  match registry.ownership.ownedRecord clientId nodeId connectionId with
  | none => (registry, false)
  | some record =>
      ({ registry with
          ownership := registry.ownership.publish clientId
            (record.withMetadata .active metadataJson hasMetadata) registry.keyDeadline },
        true)

/-- `UNREGISTER_SCRIPT`. -/
def unregisterScript (registry : Registry) (clientId : ClientId) (nodeId : NodeId)
    (connectionId : String) : Registry × Bool :=
  match registry.ownership.ownedRecord clientId nodeId connectionId with
  | none => (registry, false)
  | some _ =>
      let registry :=
        { registry with ownership := (registry.ownership.hdel clientId).srem nodeId clientId }
      match registry.reservations.claim clientId with
      | none => (registry, true)
      | some claim =>
          if claim.nodeId = nodeId ∧ claim.connectionId = connectionId then
            ({ registry with reservations := registry.reservations.release nodeId clientId }, true)
          else (registry, true)

/-- `UPDATE_METADATA_SCRIPT`. -/
def updateMetadataScript (registry : Registry) (clientId : ClientId) (nodeId : NodeId)
    (metadataJson : String) (hasMetadata : Bool) (connectionId : String) : Registry × Bool :=
  match registry.ownership.ownedRecord clientId nodeId connectionId with
  | none => (registry, false)
  | some record =>
      ({ registry with
          ownership := (registry.ownership.hset clientId
            (record.withMetadata record.state metadataJson hasMetadata)).expireClients
              registry.keyDeadline },
        true)

/-- `REFRESH_NODE_SCRIPT`. -/
def refreshNodeScript (registry : Registry) (nodeId : NodeId) : Registry :=
  if (registry.ownership.members nodeId).Nonempty then
    { registry with
      ownership := (registry.ownership.expireMembers nodeId registry.keyDeadline).expireClients
        registry.keyDeadline }
  else registry

/-- The end of both cleanup scripts: pop claims and tell whether both sets are empty. -/
def finishCleanup (registry : Registry) (nodeId : NodeId) (popped : List ClientId)
    (removed : List (ClientRecord × ClientId)) : Registry × CleanupReply :=
  let registry :=
    { registry with reservations := registry.reservations.popClaims nodeId popped }
  (registry,
    .removed (registry.ownership.members nodeId = ∅ ∧ registry.reservations.members nodeId = ∅)
      removed)

/-- `CLEANUP_NODE_SCRIPT`, with the members and claims that `SPOP` chose. -/
def cleanupNodeScript (registry : Registry) (nodeId : NodeId) (members popped : List ClientId) :
    Registry × CleanupReply :=
  let ownership := registry.ownership.setMembers nodeId
    (registry.ownership.members nodeId \ members.toFinset)
  let (ownership, removed) := ownership.cleanupMembers nodeId members
  { registry with ownership }.finishCleanup nodeId popped removed

/-- `CLEANUP_NODE_AND_ORPHAN_SCRIPT`, with the chosen members, the popped claims and the scanned
page. -/
def cleanupNodeAndOrphanScript (config : RegistryConfig) (registry : Registry) (nodeId : NodeId)
    (deliveryId : String) (page : OrphanPage) (members popped : List ClientId) :
    Registry × CleanupReply :=
  let removed := members.filterMap (registry.ownership.activeRecord nodeId)
  let (orphans, stored) :=
    if removed = [] then (registry.orphans, true)
    else
      registry.orphans.snapshot config.encodedLength registry.now page deliveryId nodeId removed
        config.maxOrphanItems config.maxOrphanBytes
  if stored then
    { registry with ownership := registry.ownership.removeMembers nodeId members, orphans }
      |>.finishCleanup nodeId popped removed
  else ({ registry with orphans }, .full)

/-- The new claim that `CLAIM_SCRIPT` writes over `found`, the current record. -/
def newClaim (registry : Registry) (request : Registration)
    (claimId operationId requestFingerprint : String) (found : Option ClientRecord) : Claim where
  claimId := claimId
  nodeId := request.nodeId
  metadataJson := request.metadataJson
  hasMetadata := request.hasMetadata
  state := request.state
  connectionId := request.connectionId
  processId := request.processId
  connectedAt := request.connectedAt
  expiresAt := registry.now + claimTtlMs
  previous := found.filter fun record =>
    ¬(record.nodeId = request.nodeId ∧ record.connectionId = request.connectionId)
  preimage := found
  operationId := operationId
  requestFingerprint := requestFingerprint
  previous_eq := rfl

/-- The end of `CLAIM_SCRIPT`: both capacity checks and the write. -/
def writeClaim (registry : Registry) (clientId : ClientId) (claim : Claim)
    (maxClientsPerNode : ℕ) : Registry × ClaimReply :=
  let claimSet := registry.reservations.members claim.nodeId
  let clientSet := registry.ownership.members claim.nodeId
  if clientId ∉ claimSet ∧ maxClaimsPerNode ≤ claimSet.card then (registry, .capacity)
  else if clientId ∉ clientSet ∧ maxClientsPerNode ≤ clientSet.card + claimSet.card then
    (registry, .nodeCapacity)
  else
    ({ registry with
        reservations := registry.reservations.reserve clientId claim registry.keyDeadline },
      .ok claim.claimId claim.previous)

/-- `CLAIM_SCRIPT` once no live claim of the client is left. -/
def claimUnreserved (registry : Registry) (request : Registration)
    (claimId operationId requestFingerprint : String) : Registry × ClaimReply :=
  let found := registry.ownership.client request.clientId
  let claim := registry.newClaim request claimId operationId requestFingerprint found
  match found with
  | none => registry.writeClaim request.clientId claim request.maxClientsPerNode
  | some record =>
      if record.connectionId = "" then (registry, .conflict found)
      else if record.nodeId ≠ request.nodeId ∧ ¬request.allowSupersede then
        (registry, .conflict found)
      else registry.writeClaim request.clientId claim request.maxClientsPerNode

/-- The sweep of expired claims that every `CLAIM_SCRIPT` starts with. -/
def sweepClaims (registry : Registry) : Registry :=
  { registry with
    reservations := (registry.reservations.claimsIndex.value.rangeUpTo registry.now
      claimSweepLimit).foldl Reservations.sweepClaim registry.reservations }

/-- The deletion of an expired claim on the requested client. -/
def clearExpired (registry : Registry) (clientId : ClientId) : Registry :=
  match registry.reservations.claim clientId with
  | none => registry
  | some claim =>
      if claim.expiresAt ≤ registry.now then
        { registry with reservations := registry.reservations.release claim.nodeId clientId }
      else registry

/-- `CLAIM_SCRIPT`. -/
def claimScript (registry : Registry) (request : Registration)
    (claimId operationId requestFingerprint : String) : Registry × ClaimReply :=
  if request.connectionId = "" then (registry, .conflict none)
  else
    let registry := registry.sweepClaims.clearExpired request.clientId
    match registry.reservations.claim request.clientId with
    | none => registry.claimUnreserved request claimId operationId requestFingerprint
    | some claim =>
        if claim.operationId = operationId ∧ claim.requestFingerprint = requestFingerprint then
          (registry, .ok claim.claimId claim.previous)
        else (registry, .conflict (registry.ownership.client request.clientId))

/-- The end of `COMMIT_CLAIM_SCRIPT`: the capacity check and the publication. -/
def publishClaim (registry : Registry) (clientId : ClientId) (claim : Claim)
    (maxClientsPerNode : ℕ) : Registry × CommitReply :=
  if registry.ownership.Full claim.nodeId clientId maxClientsPerNode then (registry, .refused)
  else
    ({ registry with
        ownership := registry.ownership.publish clientId claim.record registry.keyDeadline
        reservations := registry.reservations.release claim.nodeId clientId },
      .committed)

/-- `COMMIT_CLAIM_SCRIPT` for a claim that has not expired. The client leaves the old set before the
capacity of the new one is checked. -/
def commitLiveClaim (registry : Registry) (clientId : ClientId) (claim : Claim)
    (maxClientsPerNode : ℕ) : Registry × CommitReply :=
  let current := registry.ownership.client clientId
  match claim.previous with
  | none =>
      if current ≠ claim.preimage then (registry, .refused)
      else registry.publishClaim clientId claim maxClientsPerNode
  | some before =>
      if current ≠ none ∧ current ≠ some before then
        (registry, if current.any (before.SameGeneration ·) then .mutated else .refused)
      else
        { registry with ownership := registry.ownership.srem before.nodeId clientId }
          |>.publishClaim clientId claim maxClientsPerNode

/-- `COMMIT_CLAIM_SCRIPT`. -/
def commitClaimScript (registry : Registry) (clientId : ClientId) (nodeId : NodeId)
    (claimId : String) (maxClientsPerNode : ℕ) : Registry × CommitReply :=
  match registry.reservations.claim clientId with
  | none =>
      if (registry.ownership.client clientId).any fun record =>
          record.nodeId = nodeId ∧ record.claimId = some claimId then
        (registry, .committed)
      else (registry, .refused)
  | some claim =>
      if claim.nodeId ≠ nodeId ∨ claim.claimId ≠ claimId then (registry, .refused)
      else if claim.expiresAt ≤ registry.now then
        ({ registry with reservations := registry.reservations.release nodeId clientId }, .refused)
      else registry.commitLiveClaim clientId claim maxClientsPerNode

/-- `REMOVE_CLAIM_PREVIOUS_SCRIPT`. -/
def removeClaimPreviousScript (registry : Registry) (clientId : ClientId) (nodeId : NodeId)
    (claimId : String) : Registry × Bool :=
  match (registry.reservations.ownClaim clientId nodeId claimId).bind Claim.previous with
  | none => (registry, false)
  | some before =>
      match registry.ownership.client clientId with
      | none => (registry, true)
      | some current =>
          if current ≠ before ∧ ¬before.SameGeneration current then (registry, false)
          else
            ({ registry with
                ownership := (registry.ownership.hdel clientId).srem before.nodeId clientId },
              true)

/-- Delete the claim of a node if it is the given one. -/
def dropClaim (registry : Registry) (clientId : ClientId) (nodeId : NodeId) (claimId : String) :
    Registry × Bool :=
  match registry.reservations.ownClaim clientId nodeId claimId with
  | none => (registry, false)
  | some _ =>
      ({ registry with reservations := registry.reservations.release nodeId clientId }, true)

/-- Delete the committed record of a client if the given claim of the node wrote it. -/
def dropCommitted (registry : Registry) (clientId : ClientId) (nodeId : NodeId)
    (claimId : String) : Registry × Bool :=
  match registry.ownership.client clientId with
  | none => (registry, false)
  | some record =>
      if record.nodeId = nodeId ∧ record.claimId = some claimId then
        ({ registry with ownership := (registry.ownership.hdel clientId).srem nodeId clientId },
          true)
      else (registry, false)

/-- `REMOVE_CLAIM_RESULT_SCRIPT`. -/
def removeClaimResultScript (registry : Registry) (clientId : ClientId) (nodeId : NodeId)
    (claimId : String) : Registry × Bool :=
  let (registry, committed) := registry.dropCommitted clientId nodeId claimId
  let (registry, claimed) := registry.dropClaim clientId nodeId claimId
  (registry, committed || claimed)

/-- `ABORT_CLAIM_SCRIPT`. -/
def abortClaimScript (registry : Registry) (clientId : ClientId) (nodeId : NodeId)
    (claimId : String) : Registry × Bool :=
  registry.dropClaim clientId nodeId claimId

/-- Redis time reaches `time`. The orphan keys carry no deadline. -/
def elapse (registry : Registry) (time : ℕ) : Registry where
  now := time
  ownership := registry.ownership.elapse time
  reservations := registry.reservations.elapse time
  orphans := registry.orphans

end Registry

end ServerFoundation.MeshClient
