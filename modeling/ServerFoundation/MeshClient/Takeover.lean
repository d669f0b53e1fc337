import ServerFoundation.MeshClient.Registry.ClaimBookkeeping

/-!
# Taking over a client

`MeshClientService.takeOwnership` moves a client id to a new connection in two
phases. It claims the id, fences the connection that holds the record, and only
then commits the claim. Every call to Redis can lose its reply, or take effect
after the caller has given up on it, and the caller reconciles by retries and
reads. An attempt is the control state of one such call, and `next` follows it
through every reply.

The mesh is the registry with any number of attempts by any nodes. For each
client it remembers the generations that ever held the committed record, and the
events that released a generation: the acknowledgement of a fence, and the
changes by the owner itself.
-/

namespace ServerFoundation.MeshClient

/-- Who holds a committed record. -/
structure Generation where
  nodeId : NodeId
  connectionId : String
  claimId : Option String
deriving DecidableEq, Repr

/-- The connection that a record names. -/
def ClientRecord.generation (record : ClientRecord) : Generation where
  nodeId := record.nodeId
  connectionId := record.connectionId
  claimId := record.claimId

/-- `isSameClientGeneration`. -/
def ClientRecord.isSameClientGeneration (first second : ClientRecord) : Bool :=
  if first.nodeId ≠ second.nodeId ∨ first.connectionId ≠ second.connectionId then false
  else if first.claimId ≠ none ∨ second.claimId ≠ none then first.claimId = second.claimId
  else first.connectedAt = second.connectedAt

/-- `getClientIncludingPending`: a record without a connection is not returned. -/
def Registry.getClientIncludingPending (registry : Registry) (clientId : ClientId) :
    Option ClientRecord :=
  (registry.ownership.client clientId).filter fun record => record.connectionId ≠ ""

/-- Where a `takeOwnership` call stands. A phase that carries a previous record as `fenced` has
passed the fence of that record. -/
inductive Phase where
  | claiming
  | fencing (claimId : String) (previous : ClientRecord) (indeterminate : Bool)
  | reconciling (claimId : String) (previous : ClientRecord)
  | committing (claimId : String) (fenced : Option ClientRecord) (attempt : ℕ)
  | removingChanged (claimId : String) (fenced : ClientRecord) (attempt : ℕ)
  | checking (claimId : String) (fenced : Option ClientRecord) (attempt : ℕ)
  | removingFenced (claimId : String) (fenced : ClientRecord) (attempt : ℕ)
  | checkingFenced (claimId : String) (fenced : ClientRecord) (attempt : ℕ)
  | removingResult (claimId : String) (fenced : Option ClientRecord) (attempt : ℕ)
  | checkingResult (claimId : String) (fenced : Option ClientRecord) (attempt : ℕ)
  | withdrawing (claimId : String) (fenced : Option ClientRecord)
  | ambiguous (claimed : Option (String × Option ClientRecord))
  | leaving (claimId : String) (fenced : Option ClientRecord)
  | aborting (claimId : String)
  | finished
deriving DecidableEq, Repr

/-- One `takeOwnership` call. -/
structure Attempt where
  request : Registration
  operationId : String
  requestFingerprint : String
  phase : Phase

/-- A request is answered, it takes effect and its reply is lost, or it stays in flight while its
caller sees an error. -/
inductive Delivery where
  | replied
  | replyLost
  | delayed
deriving DecidableEq, Repr

/-- What becomes of a fence: the callback or the remote node acknowledges or refuses it, it fails,
or its delivery is indeterminate. -/
inductive FenceReply where
  | acknowledged
  | refused
  | failed
  | indeterminate
deriving DecidableEq, Repr

/-- What the environment decides in one step: the fate of the call, `canCommit()`, the deadline, and
the claim id. -/
structure Outcome where
  delivery : Delivery
  fence : FenceReply
  canCommit : Bool
  inTime : Bool
  claimId : String
deriving DecidableEq, Repr

namespace Attempt

variable (attempt : Attempt)

/-- `isCommittedClaim`. -/
def isCommittedClaim (current : Option ClientRecord) (claimId : String) : Bool :=
  current.any fun record =>
    record.nodeId = attempt.request.nodeId ∧
      record.connectionId = attempt.request.connectionId ∧
      record.state = attempt.request.state ∧ record.claimId = some claimId

/-- The continuation of `takeOwnership` after the claim succeeded. -/
def afterClaim (canCommit : Bool) (claimId : String) (previous : Option ClientRecord) : Phase :=
  if ¬canCommit then .leaving claimId none
  else
    match previous with
    | some record => .fencing claimId record false
    | none => .committing claimId none 0

/-- The continuation after the previous owner is fenced. -/
def afterFence (canCommit : Bool) (claimId : String) (previous : ClientRecord) : Phase :=
  if canCommit then .committing claimId (some previous) 0 else .leaving claimId (some previous)

/-- The continuation after the claim is known to be committed. -/
def afterCommit (canCommit : Bool) (claimId : String) (fenced : Option ClientRecord) : Phase :=
  if canCommit then .leaving claimId fenced else .withdrawing claimId fenced

/-- The next turn of the commit loop, or what follows it. -/
def nextCommit (claimId : String) (fenced : Option ClientRecord) (turn : ℕ) : Phase :=
  if turn + 1 < 3 then .committing claimId fenced (turn + 1)
  else
    match fenced with
    | some record => .removingFenced claimId record 0
    | none => .removingResult claimId none 0

/-- The next turn of `removeFencedClaimPrevious`. -/
def nextFenced (claimId : String) (fenced : ClientRecord) (turn : ℕ) : Phase :=
  if turn + 1 < 3 then .removingFenced claimId fenced (turn + 1)
  else .ambiguous (some (claimId, some fenced))

/-- The next turn of the loop that removes the claim result. -/
def nextResult (claimId : String) (fenced : Option ClientRecord) (turn : ℕ) : Phase :=
  if turn + 1 < 3 then .removingResult claimId fenced (turn + 1)
  else .ambiguous (some (claimId, fenced))

/-- The script that a phase calls. -/
def command (outcome : Outcome) : Option Command :=
  let clientId := attempt.request.clientId
  let nodeId := attempt.request.nodeId
  match attempt.phase with
  | .claiming =>
      some (.claim attempt.request outcome.claimId attempt.operationId attempt.requestFingerprint)
  | .committing claimId _ _ =>
      some (.commitClaim clientId nodeId claimId attempt.request.maxClientsPerNode)
  | .removingChanged claimId _ _ => some (.removeClaimPrevious clientId nodeId claimId)
  | .removingFenced claimId _ _ => some (.removeClaimPrevious clientId nodeId claimId)
  | .removingResult claimId _ _ => some (.removeClaimResult clientId nodeId claimId)
  | .withdrawing claimId _ => some (.removeClaimResult clientId nodeId claimId)
  | .leaving claimId (some _) =>
      if outcome.canCommit then none else some (.removeClaimPrevious clientId nodeId claimId)
  | .aborting claimId => some (.abortClaim clientId nodeId claimId)
  | _ => none

/-- The phase after the call of the current phase has returned. -/
def next (registry : Registry) (outcome : Outcome) : Phase :=
  let clientId := attempt.request.clientId
  let nodeId := attempt.request.nodeId
  let replied := outcome.delivery = .replied
  let current := registry.getClientIncludingPending clientId
  match attempt.phase with
  | .claiming =>
      match (registry.claimScript attempt.request outcome.claimId attempt.operationId
        attempt.requestFingerprint).2 with
      | .ok claimId previous =>
          if replied then afterClaim outcome.canCommit claimId previous
          else if outcome.inTime then .claiming
          else .ambiguous none
      | .conflict _ =>
          if replied then .finished
          else if outcome.inTime then .claiming
          else .ambiguous none
      | _ => if outcome.inTime then .claiming else .ambiguous none
  | .fencing claimId previous indeterminate =>
      match outcome.fence with
      | .acknowledged => afterFence outcome.canCommit claimId previous
      | .refused => if indeterminate then .reconciling claimId previous else .leaving claimId none
      | .failed => .leaving claimId none
      | .indeterminate => .reconciling claimId previous
  | .reconciling claimId previous =>
      if replied ∧ current.all (¬·.isSameClientGeneration previous) then
        afterFence outcome.canCommit claimId previous
      else if outcome.inTime then .fencing claimId previous true
      else .leaving claimId none
  | .committing claimId fenced turn =>
      if replied then
        match (registry.commitClaimScript clientId nodeId claimId
          attempt.request.maxClientsPerNode).2 with
        | .committed => afterCommit outcome.canCommit claimId fenced
        | .refused => .checking claimId fenced turn
        | .mutated =>
            match fenced with
            | none => .leaving claimId none
            | some record => .removingChanged claimId record turn
      else .checking claimId fenced turn
  | .removingChanged claimId fenced turn =>
      if replied then .checking claimId (some fenced) turn
      else nextCommit claimId (some fenced) turn
  | .checking claimId fenced turn =>
      if replied ∧ attempt.isCommittedClaim current claimId then
        afterCommit outcome.canCommit claimId fenced
      else nextCommit claimId fenced turn
  | .removingFenced claimId fenced turn =>
      if replied ∧ (registry.removeClaimPreviousScript clientId nodeId claimId).2 then
        .removingResult claimId (some fenced) 0
      else .checkingFenced claimId fenced turn
  | .checkingFenced claimId fenced turn =>
      if replied ∧ current.all (fun record =>
          record.claimId = some claimId ∨ ¬record.isSameClientGeneration fenced) then
        .removingResult claimId (some fenced) 0
      else nextFenced claimId fenced turn
  | .removingResult claimId fenced turn =>
      if replied ∧ (registry.removeClaimResultScript clientId nodeId claimId).2 then
        .leaving claimId fenced
      else .checkingResult claimId fenced turn
  | .checkingResult claimId fenced turn =>
      if replied ∧ ¬attempt.isCommittedClaim current claimId then .leaving claimId fenced
      else nextResult claimId fenced turn
  | .withdrawing claimId fenced => .leaving claimId fenced
  | .ambiguous none => .finished
  | .ambiguous (some (claimId, fenced)) => .leaving claimId fenced
  | .leaving claimId _ => .aborting claimId
  | .aborting _ => .finished
  | .finished => .finished

end Attempt

/-- Why a generation need not be fenced any more. -/
inductive ReleaseReason where
  | fenced
  | unregistered
  | cleanedUp
  | withdrawn
  | reRegistered
  | lapsed
deriving DecidableEq, Repr

/-- A claim that the registry has written, with the record that it found. -/
structure IssuedClaim where
  claimId : String
  clientId : ClientId
  previous : Option ClientRecord
deriving DecidableEq, Repr

/-- The registry, the attempts, the nodes that lost their lease, the requests in flight, and what
has happened to each client. -/
structure Mesh where
  registry : Registry
  attempts : ℕ → Option Attempt
  lost : List NodeId
  inFlight : List Command
  issued : List IssuedClaim
  held : List (ClientId × Generation)
  released : List (ClientId × Generation × ReleaseReason)

/-- A call begins or proceeds, a delayed request arrives, another script is called, time passes, or
a node loses its lease. -/
inductive MeshEvent where
  | begin (attemptId : ℕ) (request : Registration) (operationId requestFingerprint : String)
  | proceed (attemptId : ℕ) (outcome : Outcome)
  | arrive (index : ℕ)
  | call (command : Command)
  | loseLease (nodeId : NodeId)

/-- The clients whose records a command can change. -/
def Command.touched (registry : Registry) : Command → List ClientId
  | .register request _ => [request.clientId]
  | .activate clientId _ _ _ _ => [clientId]
  | .unregister clientId _ _ => [clientId]
  | .updateMetadata clientId _ _ _ _ => [clientId]
  | .cleanupNode _ members _ => members
  | .cleanupNodeAndOrphan _ _ _ members _ => members
  | .commitClaim clientId _ _ _ => [clientId]
  | .removeClaimPrevious clientId _ _ => [clientId]
  | .removeClaimResult clientId _ _ => [clientId]
  | .elapse _ => registry.ownership.clients.value.keys
  | _ => []

/-- The reason for which a command by itself releases a record that it deletes. Removing a fenced
predecessor is no reason. -/
def Command.removal : Command → Option ReleaseReason
  | .unregister _ _ _ => some .unregistered
  | .cleanupNode _ _ _ => some .cleanedUp
  | .cleanupNodeAndOrphan _ _ _ _ _ => some .cleanedUp
  | .removeClaimResult _ _ _ => some .withdrawn
  | .elapse _ => some .lapsed
  | _ => none

namespace Mesh

/-- The release that a change of one record means by itself. -/
def releaseOf (reason : Option ReleaseReason) (clientId : ClientId) :
    Option ClientRecord → Option ClientRecord → Option (ClientId × Generation × ReleaseReason)
  | some old, none => reason.map fun reason => (clientId, old.generation, reason)
  | some old, some new =>
      if old.generation ≠ new.generation ∧ old.nodeId = new.nodeId ∧
          old.connectionId = new.connectionId then
        some (clientId, old.generation, .reRegistered)
      else none
  | none, _ => none

/-- The claim that a command has written, if its id is the one drawn for the command. -/
def issuedBy (after : Registry) : Command → Option IssuedClaim
  | .claim request claimId _ _ =>
      match after.reservations.claim request.clientId with
      | none => none
      | some claim =>
          if claim.claimId = claimId then some ⟨claimId, request.clientId, claim.previous⟩
          else none
  | _ => none

/-- The mesh after a command has taken effect. -/
def execute (config : RegistryConfig) (mesh : Mesh) (command : Command) : Mesh :=
  let after := mesh.registry.run config command
  let touched := command.touched mesh.registry
  { mesh with
    registry := after
    issued := (issuedBy after command).toList ++ mesh.issued
    held := (touched.filterMap fun clientId =>
      (after.ownership.client clientId).map fun record => (clientId, record.generation)) ++
        mesh.held
    released := (touched.filterMap fun clientId =>
      releaseOf command.removal clientId (mesh.registry.ownership.client clientId)
        (after.ownership.client clientId)) ++ mesh.released }

/-- The mesh after the call of an attempt: it takes effect now, or it is in flight. -/
def send (config : RegistryConfig) (mesh : Mesh) (delivery : Delivery) :
    Option Command → Mesh
  | none => mesh
  | some command =>
      if delivery = .delayed then { mesh with inFlight := command :: mesh.inFlight }
      else mesh.execute config command

/-- The fence acknowledgement that an attempt receives. -/
def fencedBy (attempt : Attempt) (outcome : Outcome) :
    List (ClientId × Generation × ReleaseReason) :=
  match attempt.phase, outcome.fence with
  | .fencing _ previous _, .acknowledged =>
      [(attempt.request.clientId, previous.generation, .fenced)]
  | _, _ => []

/-- The node that an attempt fences because it cannot settle its claim. -/
def lostBy (attempt : Attempt) : List NodeId :=
  match attempt.phase with
  | .ambiguous _ => [attempt.request.nodeId]
  | _ => []

/-- One step of the mesh. -/
def step (config : RegistryConfig) (mesh : Mesh) : MeshEvent → Mesh
  | .begin attemptId request operationId requestFingerprint =>
      { mesh with
        attempts := Function.update mesh.attempts attemptId
          (some ⟨request, operationId, requestFingerprint, .claiming⟩) }
  | .proceed attemptId outcome =>
      match mesh.attempts attemptId with
      | none => mesh
      | some attempt =>
          let sent := mesh.send config outcome.delivery (attempt.command outcome)
          { sent with
            attempts := Function.update sent.attempts attemptId
              (some { attempt with phase := attempt.next mesh.registry outcome })
            lost := lostBy attempt ++ sent.lost
            released := fencedBy attempt outcome ++ sent.released }
  | .arrive index =>
      match mesh.inFlight[index]? with
      | none => mesh
      | some command => mesh.execute config command
  | .call command => mesh.execute config command
  | .loseLease nodeId => { mesh with lost := nodeId :: mesh.lost }

/-- The claim id of a request is not that of an issued claim; ids are random UUIDs. -/
def Fresh (mesh : Mesh) : Command → Prop
  | .claim _ claimId _ _ => ∀ entry ∈ mesh.issued, entry.claimId ≠ claimId
  | _ => True

/-- The scripts that are called outside of `takeOwnership`. A node is cleaned up only after it
has lost its lease. -/
def Ordinary (mesh : Mesh) : Command → Prop
  | .claim _ _ _ _ => False
  | .commitClaim _ _ _ _ => False
  | .removeClaimPrevious _ _ _ => False
  | .removeClaimResult _ _ _ => False
  | .abortClaim _ _ _ => False
  | .cleanupNode nodeId _ _ => nodeId ∈ mesh.lost
  | .cleanupNodeAndOrphan nodeId _ _ _ _ => nodeId ∈ mesh.lost
  | _ => True

/-- The steps that can happen. An attempt may commit only while its node has its lease. -/
def Feasible (mesh : Mesh) : MeshEvent → Prop
  | .begin attemptId _ _ _ => mesh.attempts attemptId = none
  | .proceed attemptId outcome =>
      ∃ attempt, mesh.attempts attemptId = some attempt ∧
        (outcome.canCommit → attempt.request.nodeId ∉ mesh.lost) ∧
        ∀ command ∈ attempt.command outcome, mesh.Fresh command
  | .arrive index => ∀ command ∈ mesh.inFlight[index]?, mesh.Fresh command
  | .call command => mesh.Ordinary command ∧ mesh.registry.Feasible command
  | .loseLease _ => True

/-- No key, no attempt and no history. -/
def empty (now : ℕ) : Mesh where
  registry := Registry.empty now
  attempts _ := none
  lost := []
  inFlight := []
  issued := []
  held := []
  released := []

/-- The runs of the mesh. -/
def system (config : RegistryConfig) : TransitionSystem Mesh MeshEvent where
  Init mesh := ∃ now, mesh = empty now
  Step before event after := before.Feasible event ∧ after = before.step config event

end Mesh

end ServerFoundation.MeshClient
