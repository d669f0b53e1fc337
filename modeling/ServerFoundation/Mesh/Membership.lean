import ServerFoundation.Data.TransitionSystem
import ServerFoundation.Mesh.Scripts

/-!
# Membership of a mesh

`MeshService` as a party of the mesh. Its lifecycle operations run one after the
other and wait for Redis in between. Heartbeats run beside them and are told apart
by the generation they were sent in. A request takes effect at any time after it
was sent, its reply arrives at any time after that, and the caller may see an error
instead of a reply at any point; a request that was given up can still take effect.

A cluster is the Redis keys with any number of services, and any leader may run
`CLEANUP` at any time. The cluster remembers when `CLEANUP` removed which id.
-/

namespace ServerFoundation.Mesh

/-- An operation of `runLifecycle`. -/
inductive LifecycleOperation where
  | start
  | stop
deriving DecidableEq, Repr

/-- What `startImpl` and `stopImpl` wait for. A request has no result until Redis executes it. -/
inductive LifecycleCall where
  | acquiring (acquired : Option InstanceId)
  | subscribing
  | creating (heartbeatStartedAt : ℤ) (executed : Bool)
  | registering (heartbeatStartedAt : ℤ) (metadataWritten : Option Bool)
  | withdrawing (failedInstanceId : InstanceId) (executed : Bool)
  | draining
  | deregistering (stoppedInstanceId : InstanceId) (executed : Bool)
deriving DecidableEq, Repr

/-- A call of `doHeartbeat` that waits for its renewal. -/
structure HeartbeatCall where
  generation : ℕ
  instanceId : InstanceId
  heartbeatStartedAt : ℤ
  renewed : Option Bool
deriving DecidableEq, Repr

/-- `MeshService`. -/
structure MeshService where
  running : Bool
  leaseLost : Bool
  generation : ℕ
  instanceId : InstanceId
  leaseSafeUntil : ℤ
  heartbeatGeneration : Option ℕ
  lifecycle : List LifecycleOperation
  current : Option LifecycleCall
  heartbeats : List HeartbeatCall
deriving DecidableEq, Repr

namespace MeshService

/-- A service that has not been started. -/
def initial : MeshService := ⟨false, false, 0, 0, 0, none, [], none, []⟩

variable (nodeTtlMs now : ℤ) (service : MeshService)

/-- `start`. -/
def start : MeshService := { service with lifecycle := service.lifecycle ++ [.start] }

/-- `stop`. -/
def stop : MeshService :=
  { service with running := false, lifecycle := service.lifecycle ++ [.stop] }

/-- `fenceLeaseLoss`. -/
def fenceLeaseLoss : MeshService :=
  if service.leaseLost then service
  else
    { service with
      leaseLost := true, running := false, lifecycle := service.lifecycle ++ [.stop] }

/-- Whether `assertLeaseSafe` returns. -/
def LeaseSafe : Prop :=
  service.running = true ∧ service.leaseLost = false ∧ now < service.leaseSafeUntil

instance : Decidable (service.LeaseSafe now) := inferInstanceAs (Decidable (_ ∧ _ ∧ _))

/-- The effect of `assertLeaseSafe`. -/
def assertLeaseSafe : MeshService :=
  if service.running = false ∨ service.leaseLost then service
  else if now < service.leaseSafeUntil then service
  else service.fenceLeaseLoss

/-- The timer of `armLeaseSafetyTimer`. -/
def leaseSafetyTimer : MeshService :=
  if service.running = false then service
  else if now < service.leaseSafeUntil then service
  else service.fenceLeaseLoss

/-- `doHeartbeat` up to its renewal. -/
def doHeartbeat : MeshService :=
  if service.running = false ∨ service.heartbeatGeneration = some service.generation then service
  else
    { service with
      heartbeatGeneration := some service.generation
      heartbeats := service.heartbeats ++
        [⟨service.generation, service.instanceId, now, none⟩] }

/-- The `finally` block of `doHeartbeat`. -/
def endHeartbeat (generation : ℕ) : MeshService :=
  if service.heartbeatGeneration = some generation then { service with heartbeatGeneration := none }
  else service

/-- `doHeartbeat` after its renewal was answered. -/
def heartbeatRenewed (call : HeartbeatCall) (renewed : Bool) : MeshService :=
  let service :=
    if renewed = false then
      if call.generation ≠ service.generation then service else service.fenceLeaseLoss
    else if call.generation ≠ service.generation ∨ service.running = false then service
    else { service with leaseSafeUntil := call.heartbeatStartedAt + nodeTtlMs }
  service.endHeartbeat call.generation

/-- `doHeartbeat` after its renewal failed. -/
def heartbeatFailed (call : HeartbeatCall) : MeshService :=
  let service :=
    if call.generation = service.generation ∧ service.running = true ∧
        service.leaseSafeUntil ≤ now then service.fenceLeaseLoss
    else service
  service.endHeartbeat call.generation

/-- The next lifecycle operation begins when the one before it has settled. -/
def beginLifecycle : MeshService :=
  match service.current, service.lifecycle with
  | none, .start :: rest =>
      if service.running then { service with lifecycle := rest }
      else
        { service with
          lifecycle := rest
          generation := service.generation + 1
          current := some (.acquiring none) }
  | none, .stop :: rest =>
      { service with
        lifecycle := rest
        running := false
        generation := service.generation + 1
        current := some .draining }
  | _, _ => service

/-- The `catch` block of `startImpl`. -/
def startFailed : MeshService :=
  { service with
    instanceId := 0
    current :=
      if service.instanceId = 0 then none else some (.withdrawing service.instanceId false) }

/-- The end of `startImpl`. -/
def startSucceeded (heartbeatStartedAt : ℤ) : MeshService :=
  let service := { service with leaseSafeUntil := heartbeatStartedAt + nodeTtlMs }
  if service.leaseSafeUntil ≤ now then service.startFailed
  else { service with leaseLost := false, running := true, current := none }

/-- The lifecycle operation goes on with what it waited for. -/
def completeLifecycle : MeshService :=
  match service.current with
  | some (.acquiring (some acquired)) =>
      { service with instanceId := acquired, current := some .subscribing }
  | some .subscribing => { service with current := some (.creating now false) }
  | some (.creating heartbeatStartedAt true) =>
      { service with current := some (.registering heartbeatStartedAt none) }
  | some (.registering heartbeatStartedAt (some true)) =>
      service.startSucceeded nodeTtlMs now heartbeatStartedAt
  | some (.registering _ (some false)) => service.startFailed
  | some (.withdrawing _ true) => { service with current := none }
  | some .draining =>
      { service with
        instanceId := 0
        current :=
          if service.instanceId = 0 then none else some (.deregistering service.instanceId false) }
  | some (.deregistering _ true) => { service with current := none }
  | _ => service

/-- What the lifecycle operation waits for fails. -/
def failLifecycle : MeshService :=
  match service.current with
  | some (.acquiring _) => { service with current := none }
  | some .subscribing => service.startFailed
  | some (.creating _ _) => service.startFailed
  | some (.registering _ _) => service.startFailed
  | some (.withdrawing _ _) => { service with current := none }
  | some (.deregistering _ _) => { service with current := none }
  | some .draining => service
  | none => service

end MeshService

/-- A request to Redis. -/
inductive MeshRequest where
  | incr
  | create (instanceId : InstanceId)
  | renew (instanceId : InstanceId)
  | updateMetadata (instanceId : InstanceId) (metadata : String)
  | deregister (instanceId : InstanceId)
deriving DecidableEq, Repr

/-- The effect of a request on the keys. -/
def MeshStore.execute (nodeTtlMs : ℤ) (store : MeshStore) : MeshRequest → MeshStore
  | .incr => store.incr.1
  | .create instanceId => (store.heartbeatScript (printId instanceId) .create nodeTtlMs).1
  | .renew instanceId => (store.heartbeatScript (printId instanceId) .renew nodeTtlMs).1
  | .updateMetadata instanceId metadata =>
      (store.updateMetadataScript (printId instanceId) metadata nodeTtlMs).1
  | .deregister instanceId => store.deregisterScript (printId instanceId)

/-- The request of a heartbeat, while it is on its way. -/
def HeartbeatCall.request (call : HeartbeatCall) : Option MeshRequest :=
  match call.renewed with
  | none => some (.renew call.instanceId)
  | some _ => none

namespace MeshService

variable (nodeTtlMs : ℤ) (metadata : String) (service : MeshService)

/-- The request that a lifecycle operation has on its way. -/
def lifecycleRequest : Option MeshRequest :=
  match service.current with
  | some (.acquiring none) => some .incr
  | some (.creating _ false) => some (.create service.instanceId)
  | some (.registering _ none) => some (.updateMetadata service.instanceId metadata)
  | some (.withdrawing failedInstanceId false) => some (.deregister failedInstanceId)
  | some (.deregistering stoppedInstanceId false) => some (.deregister stoppedInstanceId)
  | _ => none

/-- The reply of that request, which the keys before it determine, becomes ready. -/
def lifecycleReplied (store : MeshStore) : MeshService :=
  { service with
    current :=
      match service.current with
      | some (.acquiring none) => some (.acquiring (some store.incr.2))
      | some (.creating heartbeatStartedAt false) => some (.creating heartbeatStartedAt true)
      | some (.registering heartbeatStartedAt none) =>
          some (.registering heartbeatStartedAt
            (some (store.updateMetadataScript (printId service.instanceId) metadata nodeTtlMs).2))
      | some (.withdrawing failedInstanceId false) => some (.withdrawing failedInstanceId true)
      | some (.deregistering stoppedInstanceId false) =>
          some (.deregistering stoppedInstanceId true)
      | other => other }

/-- The reply of a renewal becomes ready. -/
def heartbeatReplied (store : MeshStore) (index : ℕ) (call : HeartbeatCall) : MeshService :=
  { service with
    heartbeats := service.heartbeats.set index
      { call with
        renewed :=
          some (store.heartbeatScript (printId call.instanceId) .renew nodeTtlMs).2.isSome } }

/-- Every request that the service has on its way. -/
def requests : List MeshRequest :=
  (service.lifecycleRequest metadata).toList ++ service.heartbeats.filterMap HeartbeatCall.request

end MeshService

/-- The keys, the services, the requests whose callers have given up, and what `CLEANUP` removed
when. -/
structure Cluster where
  store : MeshStore
  services : ℕ → MeshService
  stray : List MeshRequest
  removals : List (String × ℤ)

/-- A step of a cluster. -/
inductive ClusterEvent where
  | elapse (time : ℤ)
  | start (process : ℕ)
  | stop (process : ℕ)
  | fence (process : ℕ)
  | assertLeaseSafe (process : ℕ)
  | leaseSafetyTimer (process : ℕ)
  | heartbeat (process : ℕ)
  | beginLifecycle (process : ℕ)
  | executeLifecycle (process : ℕ)
  | completeLifecycle (process : ℕ)
  | failLifecycle (process : ℕ)
  | executeHeartbeat (process index : ℕ)
  | completeHeartbeat (process index : ℕ)
  | failHeartbeat (process index : ℕ)
  | executeStray (index : ℕ)
  | crash (process : ℕ)
  | cleanup (batchSize : ℕ)
deriving DecidableEq

namespace Cluster

/-- A cluster without members. -/
def initial (now : ℤ) : Cluster := ⟨.empty now, fun _ => .initial, [], []⟩

variable (nodeTtlMs : ℤ) (metadata : ℕ → String) (cluster : Cluster)

/-- A service is replaced. -/
def update (process : ℕ) (service : MeshService) : Cluster :=
  { cluster with services := Function.update cluster.services process service }

/-- Callers give up on requests that may still be executed. -/
def abandon (requests : List MeshRequest) : Cluster :=
  { cluster with stray := requests ++ cluster.stray }

/-- A request takes effect in Redis. -/
def execute (request : MeshRequest) : Cluster :=
  { cluster with store := cluster.store.execute nodeTtlMs request }

/-- The lifecycle request of a service takes effect. -/
def executeLifecycle (process : ℕ) : Cluster :=
  let service := cluster.services process
  match service.lifecycleRequest (metadata process) with
  | none => cluster
  | some request =>
      (cluster.execute nodeTtlMs request).update process
        (service.lifecycleReplied nodeTtlMs (metadata process) cluster.store)

/-- The lifecycle request of a service fails. -/
def failLifecycle (process : ℕ) : Cluster :=
  let service := cluster.services process
  (cluster.abandon (service.lifecycleRequest (metadata process)).toList).update process
    service.failLifecycle

/-- A heartbeat takes effect. -/
def executeHeartbeat (process index : ℕ) : Cluster :=
  let service := cluster.services process
  match service.heartbeats[index]? with
  | none => cluster
  | some call =>
      match call.request with
      | none => cluster
      | some request =>
          (cluster.execute nodeTtlMs request).update process
            (service.heartbeatReplied nodeTtlMs cluster.store index call)

/-- A heartbeat returns once its renewal has been executed. -/
def completeHeartbeat (process index : ℕ) : Cluster :=
  let service := cluster.services process
  match service.heartbeats[index]? with
  | none => cluster
  | some call =>
      match call.renewed with
      | none => cluster
      | some renewed =>
          cluster.update process
            ({ service with heartbeats := service.heartbeats.eraseIdx index }.heartbeatRenewed
              nodeTtlMs call renewed)

/-- A heartbeat fails. -/
def failHeartbeat (process index : ℕ) : Cluster :=
  let service := cluster.services process
  match service.heartbeats[index]? with
  | none => cluster
  | some call =>
      (cluster.abandon call.request.toList).update process
        ({ service with heartbeats := service.heartbeats.eraseIdx index }.heartbeatFailed
          cluster.store.now call)

/-- A request that was given up takes effect. -/
def executeStray (index : ℕ) : Cluster :=
  match cluster.stray[index]? with
  | none => cluster
  | some request => { cluster with stray := cluster.stray.eraseIdx index }.execute nodeTtlMs request

/-- A process ends, and a later one takes its place. -/
def crash (process : ℕ) : Cluster :=
  (cluster.abandon ((cluster.services process).requests (metadata process))).update process
    .initial

/-- A leader runs `CLEANUP`. -/
def cleanup (batchSize : ℕ) : Cluster :=
  { cluster with
    store := (cluster.store.cleanupScript nodeTtlMs batchSize).1
    removals := (cluster.store.cleanupScript nodeTtlMs batchSize).2.map
      (fun id => (id, cluster.store.now)) ++ cluster.removals }

/-- What an event does to the cluster. -/
def advance (cluster : Cluster) : ClusterEvent → Cluster
  | .elapse time => { cluster with store := { cluster.store with now := time } }
  | .start process => cluster.update process (cluster.services process).start
  | .stop process => cluster.update process (cluster.services process).stop
  | .fence process => cluster.update process (cluster.services process).fenceLeaseLoss
  | .assertLeaseSafe process =>
      cluster.update process ((cluster.services process).assertLeaseSafe cluster.store.now)
  | .leaseSafetyTimer process =>
      cluster.update process ((cluster.services process).leaseSafetyTimer cluster.store.now)
  | .heartbeat process =>
      cluster.update process ((cluster.services process).doHeartbeat cluster.store.now)
  | .beginLifecycle process => cluster.update process (cluster.services process).beginLifecycle
  | .executeLifecycle process => cluster.executeLifecycle nodeTtlMs metadata process
  | .completeLifecycle process =>
      cluster.update process
        ((cluster.services process).completeLifecycle nodeTtlMs cluster.store.now)
  | .failLifecycle process => cluster.failLifecycle metadata process
  | .executeHeartbeat process index => cluster.executeHeartbeat nodeTtlMs process index
  | .completeHeartbeat process index => cluster.completeHeartbeat nodeTtlMs process index
  | .failHeartbeat process index => cluster.failHeartbeat process index
  | .executeStray index => cluster.executeStray nodeTtlMs index
  | .crash process => cluster.crash metadata process
  | .cleanup batchSize => cluster.cleanup nodeTtlMs batchSize

/-- The clock does not run backwards. -/
def Feasible (cluster : Cluster) : ClusterEvent → Prop
  | .elapse time => cluster.store.now ≤ time
  | _ => True

instance Feasible.decidable : DecidableRel Feasible
  | cluster, .elapse time => inferInstanceAs (Decidable (cluster.store.now ≤ time))
  | _, .start _ => isTrue trivial
  | _, .stop _ => isTrue trivial
  | _, .fence _ => isTrue trivial
  | _, .assertLeaseSafe _ => isTrue trivial
  | _, .leaseSafetyTimer _ => isTrue trivial
  | _, .heartbeat _ => isTrue trivial
  | _, .beginLifecycle _ => isTrue trivial
  | _, .executeLifecycle _ => isTrue trivial
  | _, .completeLifecycle _ => isTrue trivial
  | _, .failLifecycle _ => isTrue trivial
  | _, .executeHeartbeat _ _ => isTrue trivial
  | _, .completeHeartbeat _ _ => isTrue trivial
  | _, .failHeartbeat _ _ => isTrue trivial
  | _, .executeStray _ => isTrue trivial
  | _, .crash _ => isTrue trivial
  | _, .cleanup _ => isTrue trivial

/-- The runs of a mesh, from empty keys. -/
def system : TransitionSystem Cluster ClusterEvent where
  Init cluster := ∃ now, cluster = initial now
  Step before event after :=
    before.Feasible event ∧ after = before.advance nodeTtlMs metadata event

end Cluster

end ServerFoundation.Mesh
