import ServerFoundation.MeshClient.Takeover

/-!
# No second live owner

A generation that has lost the committed record of its client must have been
released before: its fence was acknowledged, or the change was made by its own
connection, its own node or the cleanup of its node.

`RecordChange` says what a command can do to the record of one client, and which
of these changes need a release that happened earlier. Those are the commit of a
claim and the removal of a fenced predecessor. They are only called by attempts
that have passed the fence, for a claim whose previous record is the one that was
fenced, because claim ids identify claims.
-/

namespace ServerFoundation.MeshClient

/-- A record that names its claim and its connection. -/
structure ClientRecord.Stamped (record : ClientRecord) : Prop where
  claimed : record.claimId ≠ none
  connected : record.connectionId ≠ ""

theorem ClientRecord.SameGeneration.generation_eq {before current : ClientRecord}
    (same : before.SameGeneration current) : current.generation = before.generation := by
  rcases same with ⟨-, sameClaim, sameNode, sameConnection⟩
  simp [generation, sameClaim, sameNode, sameConnection]

theorem ClientRecord.generation_ne_of_not_same {first second : ClientRecord}
    (stamped : second.Stamped) (differ : first.isSameClientGeneration second = false) :
    first.generation ≠ second.generation := by
  intro same
  simp only [generation, Generation.mk.injEq] at same
  rcases same with ⟨sameNode, sameConnection, sameClaim⟩
  simp [isSameClientGeneration, sameNode, sameConnection, sameClaim, stamped.claimed] at differ

namespace Mesh

variable (mesh : Mesh) {clientId : ClientId} {command : Command} {after : Option ClientRecord}
  {attempt : Attempt} {outcome : Outcome} {config : RegistryConfig}

/-- The claim was issued for the client against the given record. -/
def Issued (claimId : String) (clientId : ClientId) (previous : Option ClientRecord) : Prop :=
  ⟨claimId, clientId, previous⟩ ∈ mesh.issued

/-- Some event has released the generation. -/
def Released (clientId : ClientId) (generation : Generation) : Prop :=
  ∃ reason, (clientId, generation, reason) ∈ mesh.released

/-- The generation holds the committed record of the client. -/
def Owns (clientId : ClientId) (generation : Generation) : Prop :=
  (mesh.registry.ownership.client clientId).map ClientRecord.generation = some generation

/-- The record that a claim was made against has been released. -/
def Fenced (claimId : String) (clientId : ClientId) (fenced : ClientRecord) : Prop :=
  mesh.Issued claimId clientId (some fenced) ∧ mesh.Released clientId fenced.generation

/-- A commit or a removal for a claim whose previous record has been released. -/
def Backed : Command → Prop
  | .commitClaim clientId _ claimId _ =>
      mesh.Issued claimId clientId none ∨ ∃ fenced, mesh.Fenced claimId clientId fenced
  | .removeClaimPrevious clientId _ claimId => ∃ fenced, mesh.Fenced claimId clientId fenced
  | _ => True

/-- What a phase relies on. -/
def Supports (clientId : ClientId) : Phase → Prop
  | .fencing claimId previous _ => mesh.Issued claimId clientId (some previous)
  | .reconciling claimId previous => mesh.Issued claimId clientId (some previous)
  | .committing claimId none _ => mesh.Issued claimId clientId none
  | .committing claimId (some fenced) _ => mesh.Fenced claimId clientId fenced
  | .removingChanged claimId fenced _ => mesh.Fenced claimId clientId fenced
  | .checking claimId none _ => mesh.Issued claimId clientId none
  | .checking claimId (some fenced) _ => mesh.Fenced claimId clientId fenced
  | .removingFenced claimId fenced _ => mesh.Fenced claimId clientId fenced
  | .checkingFenced claimId fenced _ => mesh.Fenced claimId clientId fenced
  | .removingResult claimId fenced _ => ∀ record ∈ fenced, mesh.Fenced claimId clientId record
  | .checkingResult claimId fenced _ => ∀ record ∈ fenced, mesh.Fenced claimId clientId record
  | .withdrawing claimId fenced => ∀ record ∈ fenced, mesh.Fenced claimId clientId record
  | .leaving claimId fenced => ∀ record ∈ fenced, mesh.Fenced claimId clientId record
  | .ambiguous (some (claimId, fenced)) => ∀ record ∈ fenced, mesh.Fenced claimId clientId record
  | _ => True

/-- The invariant of the mesh. -/
structure Sound (mesh : Mesh) : Prop where
  stamped : ∀ clientId record, mesh.registry.ownership.client clientId = some record →
    record.Stamped
  connected : ∀ clientId claim, mesh.registry.reservations.claim clientId = some claim →
    claim.connectionId ≠ ""
  claims_issued : ∀ clientId claim, mesh.registry.reservations.claim clientId = some claim →
    mesh.Issued claim.claimId clientId claim.previous
  issued_unique : ∀ first ∈ mesh.issued, ∀ second ∈ mesh.issued,
    first.claimId = second.claimId → first = second
  issued_held : ∀ claimId clientId previous, mesh.Issued claimId clientId (some previous) →
    previous.Stamped ∧ (clientId, previous.generation) ∈ mesh.held
  owner_held : ∀ clientId generation, mesh.Owns clientId generation →
    (clientId, generation) ∈ mesh.held
  held_released : ∀ clientId generation, (clientId, generation) ∈ mesh.held →
    mesh.Owns clientId generation ∨ mesh.Released clientId generation
  supported : ∀ attemptId attempt, mesh.attempts attemptId = some attempt →
    mesh.Supports attempt.request.clientId attempt.phase
  inFlight_backed : ∀ command ∈ mesh.inFlight,
    (∀ registry : Registry, registry.Feasible command) ∧ mesh.Backed command

/-- What a command can do to the record of a client. -/
inductive RecordChange (command : Command) (clientId : ClientId) :
    Option ClientRecord → Option ClientRecord → Prop where
  | deleted {old : ClientRecord} (reason : command.removal ≠ none) :
      RecordChange command clientId (some old) none
  | removed {old : ClientRecord} (released : mesh.Released clientId old.generation) :
      RecordChange command clientId (some old) none
  | created {new : ClientRecord} (stamped : new.Stamped) :
      RecordChange command clientId none (some new)
  | rewritten {old new : ClientRecord} (stamped : new.Stamped)
      (sameNode : old.nodeId = new.nodeId) (sameConnection : old.connectionId = new.connectionId) :
      RecordChange command clientId (some old) (some new)
  | taken {old new : ClientRecord} (stamped : new.Stamped)
      (released : mesh.Released clientId old.generation) :
      RecordChange command clientId (some old) (some new)

/-- The record of a client stays, or the client is among the touched ones and its record changes
in one of the listed ways. -/
def Changes (command : Command) (clientId : ClientId) (before after : Option ClientRecord) :
    Prop :=
  after = before ∨
    clientId ∈ command.touched mesh.registry ∧ mesh.RecordChange command clientId before after

variable {mesh}

theorem Changes.of_update {written : ClientId} {record : Option ClientRecord}
    (view : after = if clientId = written then record
      else mesh.registry.ownership.client clientId)
    (touched : written ∈ command.touched mesh.registry)
    (change : mesh.RecordChange command written (mesh.registry.ownership.client written) record) :
    mesh.Changes command clientId (mesh.registry.ownership.client clientId) after := by
  by_cases same : clientId = written
  · subst same
    rw [if_pos rfl] at view
    rw [view]
    exact .inr ⟨touched, change⟩
  · rw [if_neg same] at view
    exact .inl view

theorem Changes.of_cleanup {nodeId : NodeId} {members : List ClientId}
    (view : after = (mesh.registry.ownership.client clientId).filter fun record =>
      ¬(clientId ∈ members ∧ record.nodeId = nodeId))
    (touched : ∀ member ∈ members, member ∈ command.touched mesh.registry)
    (reason : command.removal ≠ none) :
    mesh.Changes command clientId (mesh.registry.ownership.client clientId) after := by
  rw [view]
  cases found : mesh.registry.ownership.client clientId with
  | none => exact .inl rfl
  | some record =>
      rw [Option.filter_some]
      by_cases cleaned : clientId ∈ members ∧ record.nodeId = nodeId
      · rw [if_neg (by simp [cleaned])]
        exact .inr ⟨touched clientId cleaned.1, .deleted reason⟩
      · rw [if_pos (decide_eq_true cleaned)]
        exact .inl rfl

section Scripts

variable (sound : mesh.Sound) (clientId : ClientId) (target : ClientId) (nodeId : NodeId)
include sound

omit sound in
theorem registerScript_changes (request : Registration) (generationId : String) :
    mesh.Changes (.register request generationId) clientId
      (mesh.registry.ownership.client clientId)
      ((mesh.registry.registerScript request generationId).1.ownership.client clientId) := by
  rcases mesh.registry.registerScript_cases request generationId with
    same | ⟨claimId, connected, held, -, written⟩
  · rw [same]
    exact .inl rfl
  · rw [written]
    refine .of_update (Ownership.client_publish _ _ _ _ _) List.mem_cons_self ?_
    have stamped : (request.record claimId).Stamped := ⟨by simp [Registration.record], connected⟩
    cases found : mesh.registry.ownership.client request.clientId with
    | none => exact .created stamped
    | some old =>
        rcases held old found with ⟨sameNode, sameConnection, -⟩
        exact .rewritten stamped sameNode sameConnection

theorem activateScript_changes (metadataJson : String) (hasMetadata : Bool)
    (connectionId : String) :
    mesh.Changes (.activate target nodeId metadataJson hasMetadata connectionId) clientId
      (mesh.registry.ownership.client clientId)
      ((mesh.registry.activateScript target nodeId metadataJson hasMetadata
        connectionId).1.ownership.client clientId) := by
  rcases mesh.registry.activateScript_cases target nodeId metadataJson hasMetadata
    connectionId with same | ⟨record, owned, written⟩
  · rw [same]
    exact .inl rfl
  · rw [written]
    rcases (Ownership.ownedRecord_eq_some_iff _ _ _ _ _).mp owned with ⟨-, found, -, -⟩
    have stamped := sound.stamped target record found
    refine .of_update (Ownership.client_publish _ _ _ _ _) List.mem_cons_self ?_
    rw [found]
    exact .rewritten ⟨stamped.claimed, stamped.connected⟩ rfl rfl

theorem updateMetadataScript_changes (metadataJson : String) (hasMetadata : Bool)
    (connectionId : String) :
    mesh.Changes (.updateMetadata target nodeId metadataJson hasMetadata connectionId) clientId
      (mesh.registry.ownership.client clientId)
      ((mesh.registry.updateMetadataScript target nodeId metadataJson hasMetadata
        connectionId).1.ownership.client clientId) := by
  rcases mesh.registry.updateMetadataScript_cases target nodeId metadataJson hasMetadata
    connectionId with same | ⟨record, owned, written⟩
  · rw [same]
    exact .inl rfl
  · rw [written]
    rcases (Ownership.ownedRecord_eq_some_iff _ _ _ _ _).mp owned with ⟨-, found, -, -⟩
    have stamped := sound.stamped target record found
    refine .of_update (Ownership.client_hset _ _ _ _) List.mem_cons_self ?_
    rw [found]
    exact .rewritten ⟨stamped.claimed, stamped.connected⟩ rfl rfl

omit sound in
theorem unregisterScript_changes (connectionId : String) :
    mesh.Changes (.unregister target nodeId connectionId) clientId
      (mesh.registry.ownership.client clientId)
      ((mesh.registry.unregisterScript target nodeId connectionId).1.ownership.client
        clientId) := by
  rcases mesh.registry.unregisterScript_cases target nodeId connectionId with
    same | ⟨record, reservations, owned, -, written⟩
  · rw [same]
    exact .inl rfl
  · rw [written]
    rcases (Ownership.ownedRecord_eq_some_iff _ _ _ _ _).mp owned with ⟨-, found, -, -⟩
    refine .of_update (Ownership.client_hdel _ _ _) List.mem_cons_self ?_
    rw [found]
    exact .deleted (by simp [Command.removal])

omit sound in
theorem dropCommitted_changes (claimId : String) :
    mesh.Changes (.removeClaimResult target nodeId claimId) clientId
      (mesh.registry.ownership.client clientId)
      ((mesh.registry.dropCommitted target nodeId claimId).1.ownership.client clientId) := by
  rcases mesh.registry.dropCommitted_cases target nodeId claimId with
    same | ⟨record, found, -, -, written⟩
  · rw [same]
    exact .inl rfl
  · rw [written]
    refine .of_update (Ownership.client_hdel _ _ _) List.mem_cons_self ?_
    rw [found]
    exact .deleted (by simp [Command.removal])

theorem previous_of_issued {target : ClientId} {claim : Claim} {previous : Option ClientRecord}
    (found : mesh.registry.reservations.claim target = some claim)
    (issued : mesh.Issued claim.claimId target previous) : claim.previous = previous := by
  have same := sound.issued_unique _ (sound.claims_issued target claim found) _ issued rfl
  exact congrArg IssuedClaim.previous same

theorem removeClaimPreviousScript_changes (claimId : String)
    (backed : mesh.Backed (.removeClaimPrevious target nodeId claimId)) :
    mesh.Changes (.removeClaimPrevious target nodeId claimId) clientId
      (mesh.registry.ownership.client clientId)
      ((mesh.registry.removeClaimPreviousScript target nodeId claimId).1.ownership.client
        clientId) := by
  rcases mesh.registry.removeClaimPreviousScript_cases target nodeId claimId with
    same | ⟨claim, before, current, found, -, rfl, previous, currentEq, generation, written⟩
  · rw [same]
    exact .inl rfl
  · rw [written]
    rcases backed with ⟨fenced, issued, released⟩
    have isFenced : before = fenced := by
      have fencedEq := previous_of_issued sound found issued
      rw [previous] at fencedEq
      exact Option.some.inj fencedEq
    have sameGeneration : current.generation = before.generation := by
      rcases generation with rfl | same
      · rfl
      · exact same.generation_eq
    refine .of_update (Ownership.client_hdel _ _ _) List.mem_cons_self ?_
    rw [currentEq]
    apply RecordChange.removed
    rw [sameGeneration, isFenced]
    exact released

theorem commitClaimScript_changes (claimId : String) (maxClientsPerNode : ℕ)
    (backed : mesh.Backed (.commitClaim target nodeId claimId maxClientsPerNode)) :
    mesh.Changes (.commitClaim target nodeId claimId maxClientsPerNode) clientId
      (mesh.registry.ownership.client clientId)
      ((mesh.registry.commitClaimScript target nodeId claimId
        maxClientsPerNode).1.ownership.client clientId) := by
  have outcome := mesh.registry.commitClaimScript_outcome target nodeId claimId maxClientsPerNode
  generalize mesh.registry.commitClaimScript target nodeId claimId maxClientsPerNode = result
    at outcome
  cases outcome with
  | repeated => exact .inl rfl
  | unchanged => exact .inl rfl
  | expired => exact .inl rfl
  | withdrawn => exact .inl rfl
  | published claim found sameNode sameClaim noPrevious current =>
      have stamped : claim.record.Stamped :=
        ⟨by simp [Claim.record], sound.connected target claim found⟩
      refine .of_update (Ownership.client_publish _ _ _ _ _) List.mem_cons_self ?_
      cases held : mesh.registry.ownership.client target with
      | none => exact .created stamped
      | some old =>
          have own := claim.previous_eq
          rw [noPrevious, ← current, held, Option.filter_some] at own
          split_ifs at own with foreign
          rw [decide_eq_true_eq, not_not] at foreign
          exact .rewritten stamped foreign.1 foreign.2
  | moved claim found sameNode sameClaim before previous current room =>
      have stamped : claim.record.Stamped :=
        ⟨by simp [Claim.record], sound.connected target claim found⟩
      refine .of_update (Ownership.client_publish _ _ _ _ _) List.mem_cons_self ?_
      rcases current with absent | present
      · rw [absent]
        exact .created stamped
      · rw [present]
        apply RecordChange.taken stamped
        subst sameClaim
        rcases backed with issued | ⟨fenced, issued, released⟩
        · have noPrevious := previous_of_issued sound found issued
          rw [previous] at noPrevious
          cases noPrevious
        · have fencedEq := previous_of_issued sound found issued
          rw [previous] at fencedEq
          cases fencedEq
          exact released

omit sound in
theorem elapse_changes (time : ℕ) :
    mesh.Changes (.elapse time) clientId (mesh.registry.ownership.client clientId)
      ((mesh.registry.elapse time).ownership.client clientId) := by
  simp only [Registry.elapse, Ownership.elapse, Ownership.client]
  by_cases lapsed : mesh.registry.ownership.clients.Lapsed time
  · rw [Expiring.elapse_of_lapsed _ lapsed]
    cases found : mesh.registry.ownership.clients.value.get? clientId with
    | none => exact .inl (OrderedMap.get?_empty clientId)
    | some record =>
        refine .inr ⟨?_, .deleted (by simp [Command.removal])⟩
        exact (OrderedMap.mem_keys_iff _ _).mpr ⟨record, found⟩
  · rw [Expiring.elapse_of_not_lapsed _ lapsed]
    exact .inl rfl

theorem run_changes (config : RegistryConfig) (command : Command) (backed : mesh.Backed command) :
    mesh.Changes command clientId (mesh.registry.ownership.client clientId)
      ((mesh.registry.run config command).ownership.client clientId) := by
  cases command with
  | register request generationId => exact registerScript_changes clientId request generationId
  | activate target nodeId metadataJson hasMetadata connectionId =>
      exact activateScript_changes sound clientId target nodeId metadataJson hasMetadata
        connectionId
  | unregister target nodeId connectionId =>
      exact unregisterScript_changes clientId target nodeId connectionId
  | updateMetadata target nodeId metadataJson hasMetadata connectionId =>
      exact updateMetadataScript_changes sound clientId target nodeId metadataJson hasMetadata
        connectionId
  | refreshNode nodeId =>
      simp only [Registry.run, Registry.refreshNodeScript]
      split_ifs <;> exact .inl rfl
  | cleanupNode nodeId members popped =>
      exact .of_cleanup (Ownership.client_cleanupMembers clientId nodeId members _)
        (fun _ member => member) (by simp [Command.removal])
  | cleanupNodeAndOrphan nodeId deliveryId page members popped =>
      have removed : mesh.Changes (.cleanupNodeAndOrphan nodeId deliveryId page members popped)
          clientId (mesh.registry.ownership.client clientId)
          ((mesh.registry.ownership.removeMembers nodeId members).client clientId) :=
        .of_cleanup (Ownership.client_removeMembers clientId nodeId members _)
          (fun _ member => member) (by simp [Command.removal])
      have outcome := mesh.registry.cleanupNodeAndOrphanScript_outcome nodeId config deliveryId page
        members popped
      simp only [Registry.run]
      generalize mesh.registry.cleanupNodeAndOrphanScript config nodeId deliveryId page members
        popped = result at outcome
      cases outcome with
      | inactive => exact removed
      | full => exact .inl rfl
      | stored => exact removed
  | claim request claimId operationId requestFingerprint =>
      have outcome := mesh.registry.claimScript_outcome request claimId operationId
        requestFingerprint
      simp only [Registry.run]
      generalize mesh.registry.claimScript request claimId operationId requestFingerprint = result
        at outcome
      left
      cases outcome <;> simp [Registry.sweepClaims]
  | commitClaim target nodeId claimId maxClientsPerNode =>
      exact commitClaimScript_changes sound clientId target nodeId claimId maxClientsPerNode backed
  | removeClaimPrevious target nodeId claimId =>
      exact removeClaimPreviousScript_changes sound clientId target nodeId claimId backed
  | removeClaimResult target nodeId claimId =>
      simp only [Registry.run, Registry.removeClaimResultScript, Registry.dropClaim_ownership]
      exact dropCommitted_changes clientId target nodeId claimId
  | abortClaim target nodeId claimId =>
      simp only [Registry.run, Registry.abortClaimScript, Registry.dropClaim_ownership]
      exact .inl rfl
  | enqueueOrphan => exact .inl rfl
  | claimOrphan => exact .inl rfl
  | ackOrphan => exact .inl rfl
  | nackOrphan => exact .inl rfl
  | elapse time => exact elapse_changes clientId time

end Scripts

/-- What has happened to the clients only grows. -/
structure Grows (before after : Mesh) : Prop where
  issued : ∀ entry ∈ before.issued, entry ∈ after.issued
  held : ∀ entry ∈ before.held, entry ∈ after.held
  released : ∀ entry ∈ before.released, entry ∈ after.released

namespace Grows

variable {before after : Mesh} (grows : Grows before after) {clientId : ClientId}
include grows

theorem keeps_issued {claimId : String} {previous : Option ClientRecord}
    (issued : before.Issued claimId clientId previous) : after.Issued claimId clientId previous :=
  grows.issued _ issued

theorem keeps_released {generation : Generation} (released : before.Released clientId generation) :
    after.Released clientId generation := by
  rcases released with ⟨reason, member⟩
  exact ⟨reason, grows.released _ member⟩

theorem keeps_fenced {claimId : String} {fenced : ClientRecord}
    (isFenced : before.Fenced claimId clientId fenced) : after.Fenced claimId clientId fenced :=
  ⟨grows.keeps_issued isFenced.1, grows.keeps_released isFenced.2⟩

theorem keeps_backed {command : Command} (backed : before.Backed command) :
    after.Backed command := by
  cases command with
  | commitClaim =>
      rcases backed with issued | ⟨fenced, isFenced⟩
      · exact .inl (grows.keeps_issued issued)
      · exact .inr ⟨fenced, grows.keeps_fenced isFenced⟩
  | removeClaimPrevious =>
      rcases backed with ⟨fenced, isFenced⟩
      exact ⟨fenced, grows.keeps_fenced isFenced⟩
  | _ => trivial

theorem keeps_supports {phase : Phase} (supports : before.Supports clientId phase) :
    after.Supports clientId phase := by
  cases phase with
  | fencing => exact grows.keeps_issued supports
  | reconciling => exact grows.keeps_issued supports
  | committing claimId fenced =>
      cases fenced with
      | none => exact grows.keeps_issued supports
      | some => exact grows.keeps_fenced supports
  | removingChanged => exact grows.keeps_fenced supports
  | checking claimId fenced =>
      cases fenced with
      | none => exact grows.keeps_issued supports
      | some => exact grows.keeps_fenced supports
  | removingFenced => exact grows.keeps_fenced supports
  | checkingFenced => exact grows.keeps_fenced supports
  | removingResult => exact fun record member => grows.keeps_fenced (supports record member)
  | checkingResult => exact fun record member => grows.keeps_fenced (supports record member)
  | withdrawing => exact fun record member => grows.keeps_fenced (supports record member)
  | leaving => exact fun record member => grows.keeps_fenced (supports record member)
  | ambiguous claimed =>
      cases claimed with
      | none => trivial
      | some => exact fun record member => grows.keeps_fenced (supports record member)
  | _ => trivial

end Grows

theorem grows_execute (config : RegistryConfig) (mesh : Mesh) (command : Command) :
    Grows mesh (mesh.execute config command) where
  issued _ := List.mem_append_right _
  held _ := List.mem_append_right _
  released _ := List.mem_append_right _

namespace Sound

variable (sound : mesh.Sound) (config : RegistryConfig) {command : Command}
  (feasible : mesh.registry.Feasible command) {clientId : ClientId} {entry : IssuedClaim}
  {generation : Generation}
include sound feasible

theorem written_of_issuedBy (fresh : mesh.Fresh command)
    (issued : issuedBy (mesh.registry.run config command) command = some entry) :
    (∀ old ∈ mesh.issued, old.claimId ≠ entry.claimId) ∧
      ∃ claim, mesh.registry.Writes command entry.clientId claim ∧
        entry.previous = claim.previous := by
  cases command with
  | claim request claimId operationId requestFingerprint =>
      simp only [issuedBy] at issued
      split at issued
      · simp at issued
      · rename_i claim found
        split_ifs at issued with drawn
        cases issued
        refine ⟨fresh, claim, ?_, rfl⟩
        rcases Registry.claim_of_run config feasible found with stored | written
        · exact absurd drawn (fresh _ (sound.claims_issued _ _ stored))
        · exact written
  | _ => simp [issuedBy] at issued

theorem previous_held (fresh : mesh.Fresh command)
    (issued : issuedBy (mesh.registry.run config command) command = some entry)
    {previous : ClientRecord} (isPrevious : entry.previous = some previous) :
    previous.Stamped ∧ (entry.clientId, previous.generation) ∈ mesh.held := by
  rcases written_of_issuedBy sound config feasible fresh issued with
    ⟨-, claim, written, samePrevious⟩
  cases command with
  | claim request claimId operationId requestFingerprint =>
      rcases written with ⟨-, sameClient, rfl⟩
      rw [samePrevious] at isPrevious
      simp only [Registry.newClaim, Option.filter_eq_some_iff] at isPrevious
      have found := isPrevious.1
      rw [← sameClient] at found
      refine ⟨sound.stamped _ _ found, sound.owner_held _ _ ?_⟩
      simp [Owns, found]
  | _ => exact written.elim

theorem issued_unique_execute (fresh : mesh.Fresh command) :
    ∀ first ∈ (mesh.execute config command).issued,
      ∀ second ∈ (mesh.execute config command).issued,
        first.claimId = second.claimId → first = second := by
  intro first firstMem second secondMem sameId
  simp only [execute, List.mem_append, Option.mem_toList] at firstMem secondMem
  rcases firstMem with firstNew | firstOld
  · rcases secondMem with secondNew | secondOld
    · exact Option.some.inj (firstNew.symm.trans secondNew)
    · exact absurd sameId.symm
        ((written_of_issuedBy sound config feasible fresh firstNew).1 second secondOld)
  · rcases secondMem with secondNew | secondOld
    · exact absurd sameId
        ((written_of_issuedBy sound config feasible fresh secondNew).1 first firstOld)
    · exact sound.issued_unique first firstOld second secondOld sameId

theorem claims_issued_execute {claim : Claim}
    (found : (mesh.registry.run config command).reservations.claim clientId = some claim) :
    (mesh.execute config command).Issued claim.claimId clientId claim.previous := by
  rcases Registry.claim_of_run config feasible found with stored | written
  · exact (grows_execute config mesh command).keeps_issued (sound.claims_issued _ _ stored)
  · cases command with
    | claim request claimId operationId requestFingerprint =>
        rcases written with ⟨-, rfl, isNew⟩
        have drawn : claim.claimId = claimId := by
          rw [isNew]
          rfl
        apply List.mem_append_left
        simp [issuedBy, found, drawn]
    | _ => exact written.elim

theorem connected_execute {claim : Claim}
    (found : (mesh.registry.run config command).reservations.claim clientId = some claim) :
    claim.connectionId ≠ "" := by
  rcases Registry.claim_of_run config feasible found with stored | written
  · exact sound.connected clientId claim stored
  · cases command with
    | claim request claimId operationId requestFingerprint =>
        rcases written with ⟨connected, -, rfl⟩
        exact connected
    | _ => exact written.elim

omit feasible in
theorem stamped_execute (backed : mesh.Backed command) {record : ClientRecord}
    (found : (mesh.registry.run config command).ownership.client clientId = some record) :
    record.Stamped := by
  rcases run_changes sound clientId config command backed with same | ⟨-, change⟩
  · rw [same] at found
    exact sound.stamped clientId record found
  · rw [found] at change
    generalize mesh.registry.ownership.client clientId = before at change
    cases change with
    | created stamped => exact stamped
    | rewritten stamped => exact stamped
    | taken stamped => exact stamped

omit feasible in
theorem owner_held_execute (backed : mesh.Backed command)
    (owns : (mesh.execute config command).Owns clientId generation) :
    (clientId, generation) ∈ (mesh.execute config command).held := by
  rcases run_changes sound clientId config command backed with same | ⟨touched, -⟩
  · apply List.mem_append_right
    apply sound.owner_held
    simp only [Owns, execute] at owns ⊢
    rw [same] at owns
    exact owns
  · rcases Option.map_eq_some_iff.mp owns with ⟨record, found, rfl⟩
    apply List.mem_append_left
    refine List.mem_filterMap.mpr ⟨clientId, touched, ?_⟩
    have foundAfter : (mesh.registry.run config command).ownership.client clientId =
        some record := found
    rw [foundAfter]
    rfl

omit feasible in
theorem held_released_execute (backed : mesh.Backed command)
    (held : (clientId, generation) ∈ (mesh.execute config command).held) :
    (mesh.execute config command).Owns clientId generation ∨
      (mesh.execute config command).Released clientId generation := by
  have grows := grows_execute config mesh command
  rcases List.mem_append.mp held with arrived | wasHeld
  · left
    rcases List.mem_filterMap.mp arrived with ⟨other, -, isRecord⟩
    rcases Option.map_eq_some_iff.mp isRecord with ⟨record, found, same⟩
    cases same
    simp [Owns, execute, found]
  · rcases sound.held_released clientId generation wasHeld with owned | released
    · rcases Option.map_eq_some_iff.mp owned with ⟨old, found, rfl⟩
      rcases run_changes sound clientId config command backed with same | ⟨touched, change⟩
      · left
        simp [Owns, execute, same, found]
      · have byStep : ∀ release, releaseOf command.removal clientId (some old)
            ((mesh.registry.run config command).ownership.client clientId) = some release →
              release ∈ (mesh.execute config command).released := by
          intro release isRelease
          apply List.mem_append_left
          refine List.mem_filterMap.mpr ⟨clientId, touched, ?_⟩
          rw [found]
          exact isRelease
        rw [found] at change
        generalize afterEq : (mesh.registry.run config command).ownership.client clientId = after
          at change byStep
        cases change with
        | deleted reason =>
            rcases Option.ne_none_iff_exists'.mp reason with ⟨why, whyEq⟩
            exact .inr ⟨why, byStep _ (by simp [releaseOf, whyEq])⟩
        | removed released => exact .inr (grows.keeps_released released)
        | rewritten stamped sameNode sameConnection =>
            rename_i new
            by_cases same : old.generation = new.generation
            · left
              simp [Owns, execute, afterEq, same]
            · exact .inr ⟨.reRegistered,
                byStep _ (by simp [releaseOf, same, sameNode, sameConnection])⟩
        | taken stamped released => exact .inr (grows.keeps_released released)
    · exact .inr (grows.keeps_released released)

theorem execute (fresh : mesh.Fresh command) (backed : mesh.Backed command) :
    (mesh.execute config command).Sound where
  stamped _ _ := stamped_execute sound config backed
  connected _ _ := connected_execute sound config feasible
  claims_issued _ _ := claims_issued_execute sound config feasible
  issued_unique := issued_unique_execute sound config feasible fresh
  issued_held claimId clientId previous issued := by
    have grows := grows_execute config mesh command
    rcases List.mem_append.mp issued with isNew | wasIssued
    · rw [Option.mem_toList] at isNew
      rcases previous_held sound config feasible fresh isNew rfl with ⟨stamped, held⟩
      exact ⟨stamped, grows.held _ held⟩
    · rcases sound.issued_held claimId clientId previous wasIssued with ⟨stamped, held⟩
      exact ⟨stamped, grows.held _ held⟩
  owner_held _ _ := owner_held_execute sound config backed
  held_released _ _ := held_released_execute sound config backed
  supported attemptId attempt running :=
    (grows_execute config mesh command).keeps_supports (sound.supported attemptId attempt running)
  inFlight_backed other member := by
    rcases sound.inFlight_backed other member with ⟨always, otherBacked⟩
    exact ⟨always, (grows_execute config mesh command).keeps_backed otherBacked⟩

end Sound

section Continuations

variable {clientId : ClientId} {claimId : String} (canCommit : Bool) (turn : ℕ)

/-- What a phase that carries an optional fenced record relies on while it may still commit. -/
def CommitReady (mesh : Mesh) (clientId : ClientId) (claimId : String) :
    Option ClientRecord → Prop
  | none => mesh.Issued claimId clientId none
  | some fenced => mesh.Fenced claimId clientId fenced

theorem CommitReady.fenced {fenced : Option ClientRecord}
    (ready : mesh.CommitReady clientId claimId fenced) :
    ∀ record ∈ fenced, mesh.Fenced claimId clientId record := by
  rintro record rfl
  exact ready

theorem supports_committing {fenced : Option ClientRecord} :
    mesh.Supports clientId (.committing claimId fenced turn) ↔
      mesh.CommitReady clientId claimId fenced := by
  cases fenced <;> rfl

theorem supports_checking {fenced : Option ClientRecord} :
    mesh.Supports clientId (.checking claimId fenced turn) ↔
      mesh.CommitReady clientId claimId fenced := by
  cases fenced <;> rfl

theorem supports_afterClaim {previous : Option ClientRecord}
    (issued : mesh.Issued claimId clientId previous) :
    mesh.Supports clientId (Attempt.afterClaim canCommit claimId previous) := by
  unfold Attempt.afterClaim
  split_ifs
  · cases previous with
    | none => exact issued
    | some record => exact issued
  · simp [Supports]

theorem supports_afterFence {previous : ClientRecord}
    (fenced : mesh.Fenced claimId clientId previous) :
    mesh.Supports clientId (Attempt.afterFence canCommit claimId previous) := by
  unfold Attempt.afterFence
  split_ifs
  · exact fenced
  · rintro record ⟨⟩
    exact fenced

theorem supports_afterCommit {fenced : Option ClientRecord}
    (ready : ∀ record ∈ fenced, mesh.Fenced claimId clientId record) :
    mesh.Supports clientId (Attempt.afterCommit canCommit claimId fenced) := by
  unfold Attempt.afterCommit
  split_ifs <;> exact ready

theorem supports_nextCommit {fenced : Option ClientRecord}
    (ready : mesh.CommitReady clientId claimId fenced) :
    mesh.Supports clientId (Attempt.nextCommit claimId fenced turn) := by
  unfold Attempt.nextCommit
  split_ifs
  · exact (supports_committing _).mpr ready
  · cases fenced with
    | none => simp [Supports]
    | some record => exact ready

theorem supports_nextFenced {fenced : ClientRecord}
    (isFenced : mesh.Fenced claimId clientId fenced) :
    mesh.Supports clientId (Attempt.nextFenced claimId fenced turn) := by
  unfold Attempt.nextFenced
  split_ifs
  · exact isFenced
  · rintro record ⟨⟩
    exact isFenced

theorem supports_nextResult {fenced : Option ClientRecord}
    (ready : ∀ record ∈ fenced, mesh.Fenced claimId clientId record) :
    mesh.Supports clientId (Attempt.nextResult claimId fenced turn) := by
  unfold Attempt.nextResult
  split_ifs <;> exact ready

end Continuations

theorem Sound.released_of_read (sound : mesh.Sound) {claimId : String} {previous : ClientRecord}
    (issued : mesh.Issued claimId clientId (some previous))
    (differ : (mesh.registry.getClientIncludingPending clientId).all
      (¬·.isSameClientGeneration previous)) : mesh.Released clientId previous.generation := by
  rcases sound.issued_held claimId clientId previous issued with ⟨stamped, held⟩
  rcases sound.held_released clientId previous.generation held with owns | released
  · exfalso
    rcases Option.map_eq_some_iff.mp owns with ⟨record, found, sameGeneration⟩
    have connected := (sound.stamped clientId record found).connected
    rw [Registry.getClientIncludingPending, found, Option.filter_some,
      if_pos (decide_eq_true connected)] at differ
    have notSame : record.isSameClientGeneration previous = false := by simpa using differ
    exact ClientRecord.generation_ne_of_not_same stamped notSame sameGeneration
  · exact released

theorem claim_of_ok {registry : Registry} {request : Registration}
    {drawn operationId requestFingerprint claimId : String} {previous : Option ClientRecord}
    (answered : (registry.claimScript request drawn operationId requestFingerprint).2 =
      .ok claimId previous) :
    ∃ claim, (registry.claimScript request drawn operationId
      requestFingerprint).1.reservations.claim request.clientId = some claim ∧
      claim.claimId = claimId ∧ claim.previous = previous := by
  have outcome := registry.claimScript_outcome request drawn operationId requestFingerprint
  generalize registry.claimScript request drawn operationId requestFingerprint = result
    at outcome answered
  cases outcome with
  | unconnected => simp at answered
  | repeated claim found =>
      cases answered
      exact ⟨claim, found, rfl, rfl⟩
  | refused reply notOk => exact absurd answered (notOk claimId previous)
  | written connected unreserved claim isNew =>
      cases answered
      refine ⟨claim, by simp, ?_, rfl⟩
      rw [isNew]
      rfl

theorem Sound.next_supports (sound : mesh.Sound)
    (supports : mesh.Supports attempt.request.clientId attempt.phase) {after : Mesh}
    (grows : Grows mesh after)
    (acknowledged : ∀ entry ∈ fencedBy attempt outcome, entry ∈ after.released)
    (answered : ∀ claimId previous, attempt.phase = .claiming → outcome.delivery = .replied →
      (mesh.registry.claimScript attempt.request outcome.claimId attempt.operationId
        attempt.requestFingerprint).2 = .ok claimId previous →
      after.Issued claimId attempt.request.clientId previous) :
    after.Supports attempt.request.clientId (attempt.next mesh.registry outcome) := by
  rcases attempt with ⟨request, operationId, requestFingerprint, phase⟩
  have kept := grows.keeps_supports supports
  cases phase with
  | claiming =>
      simp only [Attempt.next]
      split
      · rename_i claimId previous isOk
        split_ifs with replied
        · exact supports_afterClaim _ (answered claimId previous rfl replied isOk)
        · trivial
        · trivial
      · split_ifs <;> trivial
      · split_ifs <;> trivial
  | fencing claimId previous indeterminate =>
      simp only [Attempt.next]
      split
      · rename_i isAcknowledged
        refine supports_afterFence _ ⟨kept, .fenced, acknowledged _ ?_⟩
        simp [fencedBy, isAcknowledged]
      · split_ifs
        · exact kept
        · simp [Supports]
      · simp [Supports]
      · exact kept
  | reconciling claimId previous =>
      simp only [Attempt.next]
      split_ifs with differ
      · exact supports_afterFence _
          ⟨kept, grows.keeps_released (sound.released_of_read supports differ.2)⟩
      · exact kept
      · simp [Supports]
  | committing claimId fenced turn =>
      rw [supports_committing] at kept
      simp only [Attempt.next]
      split_ifs
      · split
        · exact supports_afterCommit _ kept.fenced
        · exact (supports_checking _).mpr kept
        · split
          · simp [Supports]
          · exact kept
      · exact (supports_checking _).mpr kept
  | removingChanged claimId fenced turn =>
      simp only [Attempt.next]
      split_ifs
      · exact kept
      · exact supports_nextCommit turn kept
  | checking claimId fenced turn =>
      rw [supports_checking] at kept
      simp only [Attempt.next]
      split_ifs
      · exact supports_afterCommit _ kept.fenced
      · exact supports_nextCommit turn kept
  | removingFenced claimId fenced turn =>
      simp only [Attempt.next]
      split_ifs
      · rintro record ⟨⟩
        exact kept
      · exact kept
  | checkingFenced claimId fenced turn =>
      simp only [Attempt.next]
      split_ifs
      · rintro record ⟨⟩
        exact kept
      · exact supports_nextFenced turn kept
  | removingResult claimId fenced turn =>
      simp only [Attempt.next]
      split_ifs
      · exact kept
      · exact kept
  | checkingResult claimId fenced turn =>
      simp only [Attempt.next]
      split_ifs
      · exact kept
      · exact supports_nextResult turn kept
  | withdrawing claimId fenced => exact kept
  | ambiguous claimed =>
      cases claimed with
      | none => trivial
      | some claimed => exact kept
  | leaving => trivial
  | aborting => trivial
  | finished => trivial

theorem backed_of_supports (supports : mesh.Supports attempt.request.clientId attempt.phase)
    (calls : attempt.command outcome = some command) :
    (∀ registry : Registry, registry.Feasible command) ∧ mesh.Backed command := by
  rcases attempt with ⟨request, operationId, requestFingerprint, phase⟩
  cases phase with
  | committing claimId fenced turn =>
      rw [supports_committing] at supports
      cases calls
      refine ⟨fun _ => trivial, ?_⟩
      cases fenced with
      | none => exact .inl supports
      | some fenced => exact .inr ⟨fenced, supports⟩
  | removingChanged claimId fenced turn =>
      cases calls
      exact ⟨fun _ => trivial, fenced, supports⟩
  | removingFenced claimId fenced turn =>
      cases calls
      exact ⟨fun _ => trivial, fenced, supports⟩
  | leaving claimId fenced =>
      cases fenced with
      | none => simp [Attempt.command] at calls
      | some fenced =>
          simp only [Attempt.command] at calls
          split_ifs at calls
          cases calls
          exact ⟨fun _ => trivial, fenced, supports fenced rfl⟩
  | claiming =>
      cases calls
      exact ⟨fun _ => trivial, trivial⟩
  | removingResult =>
      cases calls
      exact ⟨fun _ => trivial, trivial⟩
  | withdrawing =>
      cases calls
      exact ⟨fun _ => trivial, trivial⟩
  | aborting =>
      cases calls
      exact ⟨fun _ => trivial, trivial⟩
  | _ => simp [Attempt.command] at calls

theorem grows_send (config : RegistryConfig) (mesh : Mesh) (delivery : Delivery)
    (call : Option Command) : Grows mesh (mesh.send config delivery call) := by
  cases call with
  | none => exact ⟨fun _ => id, fun _ => id, fun _ => id⟩
  | some command =>
      unfold send
      dsimp only
      split_ifs
      · exact ⟨fun _ => id, fun _ => id, fun _ => id⟩
      · exact grows_execute config mesh command

theorem Sound.send (sound : mesh.Sound) (config : RegistryConfig) (delivery : Delivery)
    {call : Option Command}
    (backed : ∀ command ∈ call,
      (∀ registry : Registry, registry.Feasible command) ∧ mesh.Backed command)
    (fresh : ∀ command ∈ call, mesh.Fresh command) : (mesh.send config delivery call).Sound := by
  cases call with
  | none => exact sound
  | some command =>
      rcases backed command rfl with ⟨always, isBacked⟩
      unfold Mesh.send
      dsimp only
      split_ifs
      · refine ⟨sound.stamped, sound.connected, sound.claims_issued, sound.issued_unique,
          sound.issued_held, sound.owner_held, sound.held_released, sound.supported, ?_⟩
        intro other member
        rcases List.mem_cons.mp member with rfl | wasInFlight
        · exact ⟨always, isBacked⟩
        · exact sound.inFlight_backed other wasInFlight
      · exact sound.execute config (always mesh.registry) (fresh command rfl) isBacked

theorem Sound.advance (sound : mesh.Sound) (attemptId : ℕ) (lost : List NodeId)
    (releases : List (ClientId × Generation × ReleaseReason))
    (supports : ({ mesh with released := releases ++ mesh.released } : Mesh).Supports
      attempt.request.clientId attempt.phase) :
    ({ mesh with
        attempts := Function.update mesh.attempts attemptId (some attempt)
        lost := lost
        released := releases ++ mesh.released } : Mesh).Sound := by
  have grows : Grows mesh { mesh with
      attempts := Function.update mesh.attempts attemptId (some attempt)
      lost := lost
      released := releases ++ mesh.released } :=
    ⟨fun _ => id, fun _ => id, fun _ => List.mem_append_right _⟩
  refine ⟨sound.stamped, sound.connected, sound.claims_issued, sound.issued_unique,
    sound.issued_held, sound.owner_held, ?_, ?_, ?_⟩
  · intro clientId generation held
    rcases sound.held_released clientId generation held with owns | released
    · exact .inl owns
    · exact .inr (grows.keeps_released released)
  · intro other running isRunning
    by_cases same : other = attemptId
    · subst same
      simp only [Function.update_self, Option.some.injEq] at isRunning
      subst isRunning
      exact Grows.keeps_supports ⟨fun _ => id, fun _ => id, fun _ => id⟩ supports
    · simp only [Function.update_of_ne same] at isRunning
      exact grows.keeps_supports (sound.supported other running isRunning)
  · intro command member
    rcases sound.inFlight_backed command member with ⟨always, backed⟩
    exact ⟨always, grows.keeps_backed backed⟩

theorem Sound.proceed (sound : mesh.Sound) (config : RegistryConfig) {attemptId : ℕ}
    (feasible : mesh.Feasible (.proceed attemptId outcome)) :
    (mesh.step config (.proceed attemptId outcome)).Sound := by
  rcases feasible with ⟨attempt, running, -, fresh⟩
  have supports := sound.supported attemptId attempt running
  have sentSound : (mesh.send config outcome.delivery (attempt.command outcome)).Sound :=
    sound.send config outcome.delivery
      (fun command calls => backed_of_supports supports calls) fresh
  simp only [step, running]
  refine sentSound.advance attemptId _ _ ?_
  have sent := grows_send config mesh outcome.delivery (attempt.command outcome)
  have grows : Grows mesh
      { mesh.send config outcome.delivery (attempt.command outcome) with
        released := fencedBy attempt outcome ++
          (mesh.send config outcome.delivery (attempt.command outcome)).released } :=
    ⟨sent.issued, sent.held, fun entry member =>
      List.mem_append_right _ (sent.released entry member)⟩
  apply sound.next_supports supports grows (fun entry => List.mem_append_left _)
  intro claimId previous isClaiming replied isOk
  rcases claim_of_ok isOk with ⟨claim, found, rfl, rfl⟩
  have stored : (mesh.send config outcome.delivery
      (attempt.command outcome)).registry.reservations.claim attempt.request.clientId =
        some claim := by
    simpa [Attempt.command, isClaiming, Mesh.send, replied, Mesh.execute, Registry.run] using found
  exact sentSound.claims_issued attempt.request.clientId claim stored

theorem Sound.step (sound : mesh.Sound) (config : RegistryConfig) {event : MeshEvent}
    (feasible : mesh.Feasible event) : (mesh.step config event).Sound := by
  cases event with
  | begin attemptId request operationId requestFingerprint =>
      exact sound.advance attemptId mesh.lost [] trivial
  | proceed attemptId outcome => exact sound.proceed config feasible
  | arrive index =>
      simp only [Mesh.step]
      split
      · exact sound
      · rename_i command isInFlight
        rcases sound.inFlight_backed command (List.mem_of_getElem? isInFlight) with
          ⟨always, backed⟩
        exact sound.execute config (always mesh.registry) (feasible command isInFlight) backed
  | call command =>
      rcases feasible with ⟨ordinary, isFeasible⟩
      have fresh : mesh.Fresh command := by
        cases command with
        | claim => exact ordinary.elim
        | _ => trivial
      have backed : mesh.Backed command := by
        cases command with
        | commitClaim => exact ordinary.elim
        | removeClaimPrevious => exact ordinary.elim
        | _ => trivial
      exact sound.execute config isFeasible fresh backed
  | loseLease nodeId =>
      exact ⟨sound.stamped, sound.connected, sound.claims_issued, sound.issued_unique,
        sound.issued_held, sound.owner_held, sound.held_released, sound.supported,
        sound.inFlight_backed⟩

theorem sound_of_reachable (reachable : (system config).Reachable mesh) : mesh.Sound := by
  apply reachable.invariant Sound
  · rintro state ⟨now, rfl⟩
    refine ⟨?_, ?_, ?_, ?_, ?_, ?_, ?_, ?_, ?_⟩ <;>
      simp [empty, Registry.empty, Owns, Issued]
  · rintro before event after - sound ⟨feasible, rfl⟩
    exact sound.step config feasible

/-- In every run with fresh delivery ids, each generation that has held the committed record of a
client still holds it or has been released. -/
theorem takeover_releases_owner {config : RegistryConfig}
    (reachable : (system config).Reachable mesh) (clientId : ClientId) (generation : Generation) :
    (mesh.Owns clientId generation → (clientId, generation) ∈ mesh.held) ∧
      ((clientId, generation) ∈ mesh.held →
        mesh.Owns clientId generation ∨ mesh.Released clientId generation) := by
  have sound := sound_of_reachable reachable
  exact ⟨sound.owner_held clientId generation, sound.held_released clientId generation⟩

/-- The run of a list of events. -/
def runAll (config : RegistryConfig) (mesh : Mesh) (events : List MeshEvent) : Mesh :=
  events.foldl (step config) mesh

/-- Every event of a list is feasible where it happens. -/
def Follows (config : RegistryConfig) : Mesh → List MeshEvent → Prop
  | _, [] => True
  | mesh, event :: rest => mesh.Feasible event ∧ Follows config (mesh.step config event) rest

theorem reachable_runAll {events : List MeshEvent} {mesh : Mesh}
    (reachable : (system config).Reachable mesh) (follows : Follows config mesh events) :
    (system config).Reachable (mesh.runAll config events) := by
  induction events generalizing mesh with
  | nil => exact reachable
  | cons event rest ih => exact ih (reachable.step ⟨follows.1, rfl⟩) follows.2

open Registry (exampleConfig soleRegistration)

/-- A call that is answered, with an acknowledged fence. -/
def answered (claimId : String) : Outcome where
  delivery := .replied
  fence := .acknowledged
  canCommit := true
  inTime := true
  claimId := claimId

/-- Node 1 takes a client, and node 2 takes it over. -/
def fencedTakeover : List MeshEvent :=
  [.begin 0 (soleRegistration "client" 1 "first") "operation-0000001" "fingerprint",
    .proceed 0 (answered "claim-1"), .proceed 0 (answered ""),
    .begin 1 (soleRegistration "client" 2 "second") "operation-0000002" "fingerprint",
    .proceed 1 (answered "claim-2"), .proceed 1 (answered ""), .proceed 1 (answered "")]

/-- Node 1 takes a client twice on one connection. -/
def repeatedTakeover : List MeshEvent :=
  [.begin 0 (soleRegistration "client" 1 "first") "operation-0000001" "fingerprint",
    .proceed 0 (answered "claim-1"), .proceed 0 (answered ""),
    .begin 1 (soleRegistration "client" 1 "first") "operation-0000002" "fingerprint",
    .proceed 1 (answered "claim-2"), .proceed 1 (answered "")]

theorem fencedTakeover_reachable :
    (system exampleConfig).Reachable ((empty 0).runAll exampleConfig fencedTakeover) := by
  apply reachable_runAll (.start ⟨0, rfl⟩)
  refine ⟨rfl, ⟨_, rfl, by decide, ?_⟩, ⟨_, rfl, by decide, ?_⟩, rfl, ⟨_, rfl, by decide, ?_⟩,
    ⟨_, rfl, by decide, ?_⟩, ⟨_, rfl, by decide, ?_⟩, trivial⟩
  · rintro command ⟨⟩
    simp [Fresh, step, empty]
  · rintro command ⟨⟩
    trivial
  · rintro command ⟨⟩
    show ∀ entry ∈ _, _
    decide
  · rintro command ⟨⟩
  · rintro command ⟨⟩
    trivial

theorem takeover_releases_owner_at_fenced :
    ¬((empty 0).runAll exampleConfig fencedTakeover).Owns "client" ⟨1, "first", some "claim-1"⟩ ∧
      ((empty 0).runAll exampleConfig fencedTakeover).Released "client"
        ⟨1, "first", some "claim-1"⟩ := by
  have replaced : ¬((empty 0).runAll exampleConfig fencedTakeover).Owns "client"
      ⟨1, "first", some "claim-1"⟩ := by
    unfold Owns
    decide
  have held : ("client", (⟨1, "first", some "claim-1"⟩ : Generation)) ∈
      ((empty 0).runAll exampleConfig fencedTakeover).held := by
    decide
  have released := (takeover_releases_owner fencedTakeover_reachable "client"
    ⟨1, "first", some "claim-1"⟩).2 held
  exact ⟨replaced, released.resolve_left replaced⟩

theorem repeatedTakeover_reachable :
    (system exampleConfig).Reachable ((empty 0).runAll exampleConfig repeatedTakeover) := by
  apply reachable_runAll (.start ⟨0, rfl⟩)
  refine ⟨rfl, ⟨_, rfl, by decide, ?_⟩, ⟨_, rfl, by decide, ?_⟩, rfl, ⟨_, rfl, by decide, ?_⟩,
    ⟨_, rfl, by decide, ?_⟩, trivial⟩
  · rintro command ⟨⟩
    simp [Fresh, step, empty]
  · rintro command ⟨⟩
    trivial
  · rintro command ⟨⟩
    show ∀ entry ∈ _, _
    decide
  · rintro command ⟨⟩
    trivial

/-- A connection that claims its own client again replaces its generation without a fence, an
unregistration or a cleanup. -/
theorem takeover_unfenced_at_repeated :
    ∃ mesh, (system exampleConfig).Reachable mesh ∧
      ¬∀ clientId generation, (clientId, generation) ∈ mesh.held →
        mesh.Owns clientId generation ∨
          (clientId, generation, .fenced) ∈ mesh.released ∨
          (clientId, generation, .unregistered) ∈ mesh.released ∨
          (clientId, generation, .cleanedUp) ∈ mesh.released := by
  refine ⟨_, repeatedTakeover_reachable, ?_⟩
  intro released
  have replaced := released "client" ⟨1, "first", some "claim-1"⟩ (by decide)
  unfold Owns at replaced
  revert replaced
  decide

end Mesh

end ServerFoundation.MeshClient
