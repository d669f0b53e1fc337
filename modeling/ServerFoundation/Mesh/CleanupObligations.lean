import Mathlib.Data.List.TakeWhile
import ServerFoundation.Data.TransitionSystem
import ServerFoundation.Mesh.Scripts

/-!
# Cleanup obligations

Every node that `CLEANUP` expires leaves an obligation behind, as its bare id in
the `cleanup` list or as a claim in the `processing` list. We follow the scripts
under every interleaving, with any arguments: a leader that was fenced may still
acknowledge or return a claim it took long ago, and leaders recover what another
leader is working on.

The scripts move obligations between the two lists without changing which ids they
name. Only an acknowledgement of a claim that is in the list removes one.
-/

namespace ServerFoundation.Mesh

namespace MeshStore

/-- The ids that are named by the two lists, with repetitions. -/
def obligations (store : MeshStore) : List String :=
  (store.cleanup ++ store.processing).map obligationId

end MeshStore

section ObligationIds

/-- An id that can be told apart from the token of a claim. -/
def Bare (id : String) : Prop := '|' ∉ id.toList

theorem Bare.ne_separator {id : String} (bare : Bare id) {char : Char} (mem : char ∈ id.toList) :
    decide (char ≠ '|') = true := by
  simp only [decide_eq_true_eq]
  rintro rfl
  exact bare mem

theorem printId_bare (instanceId : InstanceId) : Bare (printId instanceId) := by
  intro separator
  have isDigit : '|'.isDigit := by
    refine Nat.isDigit_of_mem_toDigits (b := 10) (n := instanceId) (by omega) (by omega) ?_
    simpa [printId, Nat.repr] using separator
  cases isDigit

theorem obligationId_of_bare {id : String} (bare : Bare id) : obligationId id = id := by
  have whole : id.toList.takeWhile (· ≠ '|') = id.toList :=
    List.takeWhile_eq_self_iff.mpr fun _ => bare.ne_separator
  rw [obligationId, whole, String.ofList_toList]

theorem obligationId_claim {id : String} (bare : Bare id) (token : String) :
    obligationId (id ++ "|" ++ token) = id := by
  have cut : (id ++ "|" ++ token).toList.takeWhile (· ≠ '|') = id.toList := by
    simp only [String.toList_append]
    rw [List.append_assoc, List.takeWhile_append_of_pos fun _ => bare.ne_separator]
    simp
  rw [obligationId, cut, String.ofList_toList]

theorem obligationId_bare (entry : String) : Bare (obligationId entry) := by
  intro separator
  rw [obligationId, String.toList_ofList] at separator
  have kept := List.mem_takeWhile_imp separator
  simp at kept

end ObligationIds

namespace MeshStore

section Moves

variable {store : MeshStore}

theorem recoverOne_obligations (store : MeshStore) :
    store.recoverOne.obligations.Perm store.obligations := by
  simp only [recoverOne]
  split
  · exact List.Perm.refl _
  · rename_i entry last
    rcases List.getLast?_eq_some_iff.mp last with ⟨init, isLast⟩
    simp only [obligations, isLast, List.dropLast_concat, List.map_append, List.map_cons,
      List.cons_append, obligationId_of_bare (obligationId_bare entry)]
    rw [← List.append_assoc]
    exact (List.perm_append_singleton _ _).symm

theorem recoverOne_bare (bare : ∀ entry ∈ store.cleanup, Bare entry) :
    ∀ entry ∈ store.recoverOne.cleanup, Bare entry := by
  simp only [recoverOne]
  split
  · exact bare
  · intro entry mem
    rcases List.mem_cons.mp mem with rfl | old
    · exact obligationId_bare _
    · exact bare entry old

theorem claimCleanupScript_obligations (bare : ∀ entry ∈ store.cleanup, Bare entry)
    (token : String) :
    (store.claimCleanupScript token).1.obligations.Perm store.obligations := by
  simp only [claimCleanupScript]
  split
  · exact List.Perm.refl _
  · rename_i id last
    rcases List.getLast?_eq_some_iff.mp last with ⟨init, isLast⟩
    have idBare : Bare id := bare id (by simp [isLast])
    simp only [obligations, isLast, List.dropLast_concat, List.map_append, List.map_cons,
      List.append_assoc, obligationId_claim idBare, obligationId_of_bare idBare]
    exact List.Perm.refl _

theorem erase_obligations {claim : String} (present : claim ∈ store.processing) :
    store.obligations.Perm
      (obligationId claim :: (store.ackCleanupScript claim).1.obligations) := by
  have split := (List.perm_cons_erase present).append_left store.cleanup
  have front : (store.cleanup ++ claim :: store.processing.erase claim).Perm
      (claim :: (store.cleanup ++ store.processing.erase claim)) := List.perm_middle
  exact (split.trans front).map obligationId

theorem nackCleanupScript_obligations (store : MeshStore) (claim : String) :
    (store.nackCleanupScript claim).1.obligations.Perm store.obligations := by
  simp only [nackCleanupScript]
  split
  · rename_i present
    refine List.Perm.trans ?_ (erase_obligations present).symm
    simp only [obligations, ackCleanupScript, List.cons_append, List.map_cons,
      obligationId_of_bare (obligationId_bare claim)]
    exact List.Perm.refl _
  · exact List.Perm.refl _

end Moves

end MeshStore

/-- One script call of any process, or the passage of time. -/
inductive MeshCommand where
  | create (instanceId : InstanceId) (ttlMs : ℤ)
  | renew (instanceId : InstanceId) (ttlMs : ℤ)
  | updateMetadata (instanceId : InstanceId) (metadata : String) (ttlMs : ℤ)
  | deregister (instanceId : InstanceId)
  | cleanup (ttlMs : ℤ) (batchSize : ℕ)
  | recoverCleanup (batchSize : ℕ)
  | claimCleanup (token : String)
  | ackCleanup (claim : String)
  | nackCleanup (claim : String)
  | elapse (time : ℤ)
deriving DecidableEq

/-- The keys after a command. -/
def MeshStore.run (store : MeshStore) : MeshCommand → MeshStore
  | .create instanceId ttlMs => (store.heartbeatScript (printId instanceId) .create ttlMs).1
  | .renew instanceId ttlMs => (store.heartbeatScript (printId instanceId) .renew ttlMs).1
  | .updateMetadata instanceId metadata ttlMs =>
      (store.updateMetadataScript (printId instanceId) metadata ttlMs).1
  | .deregister instanceId => store.deregisterScript (printId instanceId)
  | .cleanup ttlMs batchSize => (store.cleanupScript ttlMs batchSize).1
  | .recoverCleanup batchSize => store.recoverCleanupScript batchSize
  | .claimCleanup token => (store.claimCleanupScript token).1
  | .ackCleanup claim => (store.ackCleanupScript claim).1
  | .nackCleanup claim => (store.nackCleanupScript claim).1
  | .elapse time => { store with now := time }

/-- The keys with the ids that were created, removed, and acknowledged while in the processing list.
-/
structure CleanupHistory where
  store : MeshStore
  created : List String
  removed : List String
  acknowledged : List String

namespace CleanupHistory

/-- Empty keys, of which nothing has been owed. -/
def initial (now : ℤ) : CleanupHistory := ⟨.empty now, [], [], []⟩

/-- A script, and what is remembered of it. -/
def advance (history : CleanupHistory) (command : MeshCommand) : CleanupHistory where
  store := history.store.run command
  created :=
    match command with
    | .create instanceId _ => printId instanceId :: history.created
    | _ => history.created
  removed :=
    match command with
    | .cleanup ttlMs batchSize => (history.store.cleanupScript ttlMs batchSize).2 ++ history.removed
    | _ => history.removed
  acknowledged :=
    match command with
    | .ackCleanup claim =>
        if claim ∈ history.store.processing then obligationId claim :: history.acknowledged
        else history.acknowledged
    | _ => history.acknowledged

/-- Instance ids are never reused, and time does not run backwards. -/
def Feasible (history : CleanupHistory) : MeshCommand → Prop
  | .create instanceId _ => printId instanceId ∉ history.created
  | .elapse time => history.store.now ≤ time
  | _ => True

instance Feasible.decidable : DecidableRel Feasible
  | history, .create instanceId _ =>
      inferInstanceAs (Decidable (printId instanceId ∉ history.created))
  | history, .elapse time => inferInstanceAs (Decidable (history.store.now ≤ time))
  | _, .renew _ _ => isTrue trivial
  | _, .updateMetadata _ _ _ => isTrue trivial
  | _, .deregister _ => isTrue trivial
  | _, .cleanup _ _ => isTrue trivial
  | _, .recoverCleanup _ => isTrue trivial
  | _, .claimCleanup _ => isTrue trivial
  | _, .ackCleanup _ => isTrue trivial
  | _, .nackCleanup _ => isTrue trivial

/-- All interleavings of script calls, from empty keys. -/
def system : TransitionSystem CleanupHistory MeshCommand where
  Init history := ∃ now, history = initial now
  Step before command after := before.Feasible command ∧ after = before.advance command

/-- Every removed id is owed exactly once until it is acknowledged, and nothing else is owed. -/
structure Tracked (history : CleanupHistory) : Prop where
  member : ∀ id, history.store.heartbeats.get? id ≠ none →
    id ∉ history.removed ∧ id ∈ history.created
  createdBare : ∀ id ∈ history.created, Bare id
  removedCreated : ∀ id ∈ history.removed, id ∈ history.created
  acknowledgedRemoved : ∀ id ∈ history.acknowledged, id ∈ history.removed
  bare : ∀ entry ∈ history.store.cleanup, Bare entry
  owed : ∀ id, history.store.obligations.count id =
    if id ∈ history.removed ∧ id ∉ history.acknowledged then 1 else 0

namespace Tracked

variable {history : CleanupHistory}

theorem initial (now : ℤ) : (initial now).Tracked where
  member id present := absurd rfl present
  createdBare id created := by cases created
  removedCreated id removed := by cases removed
  acknowledgedRemoved id acknowledged := by cases acknowledged
  bare entry mem := by cases mem
  owed id := by simp [CleanupHistory.initial, MeshStore.empty, MeshStore.obligations]

section

variable (tracked : history.Tracked) (instanceId : InstanceId)
include tracked

theorem move {store : MeshStore}
    (member : ∀ id, store.heartbeats.get? id ≠ none → history.store.heartbeats.get? id ≠ none)
    (bare : ∀ entry ∈ store.cleanup, Bare entry)
    (moved : store.obligations.Perm history.store.obligations) :
    Tracked { history with store } where
  member id present := tracked.member id (member id present)
  createdBare := tracked.createdBare
  removedCreated := tracked.removedCreated
  acknowledgedRemoved := tracked.acknowledgedRemoved
  bare := bare
  owed id := (moved.count_eq id).trans (tracked.owed id)

theorem create {instanceId : InstanceId} (ttlMs : ℤ)
    (fresh : printId instanceId ∉ history.created) :
    (history.advance (.create instanceId ttlMs)).Tracked := by
  have notRemoved : printId instanceId ∉ history.removed :=
    fun removed => fresh (tracked.removedCreated _ removed)
  have unchanged : ∀ {store : MeshStore}, store.cleanup = history.store.cleanup →
      store.processing = history.store.processing →
      (∀ id, store.heartbeats.get? id ≠ none →
        id = printId instanceId ∨ history.store.heartbeats.get? id ≠ none) →
      Tracked { history with store, created := printId instanceId :: history.created } := by
    intro store cleanup processing members
    refine ⟨?_, ?_, ?_, tracked.acknowledgedRemoved, ?_, ?_⟩
    · intro id present
      rcases members id present with rfl | old
      · exact ⟨notRemoved, List.mem_cons_self⟩
      · rcases tracked.member id old with ⟨notRemoved, created⟩
        exact ⟨notRemoved, List.mem_cons_of_mem _ created⟩
    · intro id created
      rcases List.mem_cons.mp created with rfl | old
      · exact printId_bare instanceId
      · exact tracked.createdBare id old
    · intro id removed
      exact List.mem_cons_of_mem _ (tracked.removedCreated id removed)
    · rw [cleanup]
      exact tracked.bare
    · intro id
      simp only [MeshStore.obligations, cleanup, processing]
      exact tracked.owed id
  simp only [advance, MeshStore.run]
  rcases history.store.heartbeatScript_cases (printId instanceId) .create ttlMs with
    same | ⟨_, same, _⟩ | ⟨written, _⟩
  · rw [same]
    exact unchanged rfl rfl fun _ present => Or.inr present
  · rw [same]
    exact unchanged rfl rfl fun _ present => Or.inr present
  · rw [written]
    refine unchanged rfl rfl ?_
    intro id present
    simp only [OrderedMap.get?_set] at present
    split at present
    · rename_i same
      exact Or.inl same
    · exact Or.inr present

theorem renew (ttlMs : ℤ) : (history.advance (.renew instanceId ttlMs)).Tracked := by
  simp only [advance, MeshStore.run]
  rcases history.store.heartbeatScript_cases (printId instanceId) .renew ttlMs with
    same | ⟨_, _, isCreate⟩ | ⟨written, existed⟩
  · rw [same]
    exact tracked
  · cases isCreate
  · rw [written]
    refine tracked.move ?_ tracked.bare (List.Perm.refl _)
    intro id present
    rcases existed rfl with ⟨score, found⟩
    simp only [OrderedMap.get?_set] at present
    split at present
    · rename_i same
      rw [same, found]
      exact Option.some_ne_none score
    · exact present

theorem updateMetadata (metadata : String) (ttlMs : ℤ) :
    (history.advance (.updateMetadata instanceId metadata ttlMs)).Tracked := by
  simp only [advance, MeshStore.run, MeshStore.updateMetadataScript]
  split
  · exact tracked
  · exact tracked.move (fun _ present => present) tracked.bare (List.Perm.refl _)

theorem deregister : (history.advance (.deregister instanceId)).Tracked := by
  refine tracked.move ?_ tracked.bare (List.Perm.refl _)
  intro id present
  simp only [MeshStore.run, MeshStore.deregisterScript, OrderedMap.get?_erase] at present
  split at present
  · exact absurd rfl present
  · exact present

theorem recoverCleanup (batchSize : ℕ) : (history.advance (.recoverCleanup batchSize)).Tracked := by
  simp only [advance, MeshStore.run]
  induction batchSize generalizing history with
  | zero => exact tracked
  | succ rounds ih =>
      have heartbeats : history.store.recoverOne.heartbeats = history.store.heartbeats := by
        simp only [MeshStore.recoverOne]
        split <;> rfl
      have moved : Tracked { history with store := history.store.recoverOne } := by
        refine tracked.move ?_ (MeshStore.recoverOne_bare tracked.bare)
          history.store.recoverOne_obligations
        rw [heartbeats]
        exact fun _ present => present
      exact ih moved

theorem claimCleanup (token : String) : (history.advance (.claimCleanup token)).Tracked := by
  refine tracked.move ?_ ?_ (MeshStore.claimCleanupScript_obligations tracked.bare token)
  · simp only [MeshStore.run, MeshStore.claimCleanupScript]
    split
    · exact fun _ present => present
    · exact fun _ present => present
  · simp only [MeshStore.run, MeshStore.claimCleanupScript]
    split
    · exact tracked.bare
    · exact fun entry mem => tracked.bare entry (List.mem_of_mem_dropLast mem)

theorem nackCleanup (claim : String) : (history.advance (.nackCleanup claim)).Tracked := by
  refine tracked.move ?_ ?_ (history.store.nackCleanupScript_obligations claim)
  · simp only [MeshStore.run, MeshStore.nackCleanupScript]
    split
    · exact fun _ present => present
    · exact fun _ present => present
  · simp only [MeshStore.run, MeshStore.nackCleanupScript]
    split
    · intro entry mem
      rcases List.mem_cons.mp mem with rfl | old
      · exact obligationId_bare claim
      · exact tracked.bare entry old
    · exact tracked.bare

theorem cleanup (ttlMs : ℤ) (batchSize : ℕ) :
    (history.advance (.cleanup ttlMs batchSize)).Tracked := by
  have expiredMember : ∀ id ∈ (history.store.cleanupScript ttlMs batchSize).2,
      history.store.heartbeats.get? id ≠ none := by
    intro id expired
    rcases MeshStore.score_of_expired expired with ⟨score, found, _⟩
    rw [found]
    exact Option.some_ne_none score
  have expiredBare : ∀ id ∈ (history.store.cleanupScript ttlMs batchSize).2, Bare id := by
    intro id expired
    exact tracked.createdBare id (tracked.member id (expiredMember id expired)).2
  refine ⟨?_, tracked.createdBare, ?_, ?_, ?_, ?_⟩
  · intro id present
    simp only [advance, MeshStore.run, MeshStore.cleanupScript_heartbeat] at present ⊢
    split at present
    · exact absurd rfl present
    · rename_i notExpired
      rcases tracked.member id present with ⟨notRemoved, created⟩
      refine ⟨?_, created⟩
      intro removed
      rcases List.mem_append.mp removed with expired | old
      · exact notExpired expired
      · exact notRemoved old
  · intro id removed
    rcases List.mem_append.mp removed with expired | old
    · exact (tracked.member id (expiredMember id expired)).2
    · exact tracked.removedCreated id old
  · intro id acknowledged
    exact List.mem_append_right _ (tracked.acknowledgedRemoved id acknowledged)
  · intro entry mem
    simp only [advance, MeshStore.run, MeshStore.cleanupScript_cleanup] at mem
    rcases List.mem_append.mp mem with expired | old
    · exact expiredBare entry (List.mem_reverse.mp expired)
    · exact tracked.bare entry old
  · intro id
    have names : (history.store.cleanupScript ttlMs batchSize).2.reverse.map obligationId =
        (history.store.cleanupScript ttlMs batchSize).2.reverse := by
      refine (List.map_congr_left ?_).trans (List.map_id _)
      intro id expired
      exact obligationId_of_bare (expiredBare id (List.mem_reverse.mp expired))
    have nodup := history.store.cleanupScript_expired_nodup ttlMs batchSize
    have before := tracked.owed id
    simp only [advance, MeshStore.run, MeshStore.obligations, MeshStore.cleanupScript_cleanup,
      MeshStore.cleanupScript_processing, List.append_assoc, List.map_append, names,
      List.count_append, List.count_reverse, nodup.count, List.mem_append] at before ⊢
    rw [before]
    by_cases expired : id ∈ (history.store.cleanupScript ttlMs batchSize).2
    · have notRemoved := (tracked.member id (expiredMember id expired)).1
      have notAcknowledged : id ∉ history.acknowledged :=
        fun acknowledged => notRemoved (tracked.acknowledgedRemoved id acknowledged)
      simp [expired, notRemoved, notAcknowledged]
    · simp [expired]

theorem ackCleanup (claim : String) : (history.advance (.ackCleanup claim)).Tracked := by
  by_cases present : claim ∈ history.store.processing
  · have settled := MeshStore.erase_obligations present
    have owedNow : obligationId claim ∈ history.removed ∧
        obligationId claim ∉ history.acknowledged := by
      have owed := tracked.owed (obligationId claim)
      rw [settled.count_eq, List.count_cons_self] at owed
      by_contra notOwed
      rw [if_neg notOwed] at owed
      omega
    refine ⟨tracked.member, tracked.createdBare, tracked.removedCreated, ?_, tracked.bare, ?_⟩
    · simp only [advance, present, if_true]
      intro id acknowledged
      rcases List.mem_cons.mp acknowledged with rfl | old
      · exact owedNow.1
      · exact tracked.acknowledgedRemoved id old
    · intro id
      have owed := tracked.owed id
      rw [settled.count_eq, List.count_cons] at owed
      simp only [advance, present, if_true, MeshStore.run, List.mem_cons]
      by_cases same : id = obligationId claim
      · subst same
        simp only [beq_self_eq_true, if_true, if_pos owedNow] at owed
        simp only [true_or, not_true_eq_false, and_false, if_false]
        omega
      · have differ : (obligationId claim == id) = false := by simpa using Ne.symm same
        simpa [differ, same] using owed
  · have unchanged : (history.store.ackCleanupScript claim).1 = history.store := by
      simp only [MeshStore.ackCleanupScript, List.erase_of_not_mem present]
    simp only [advance, MeshStore.run, unchanged, present, if_false]
    exact tracked

theorem advance {command : MeshCommand} (feasible : history.Feasible command) :
    (history.advance command).Tracked := by
  cases command with
  | create instanceId ttlMs => exact tracked.create ttlMs feasible
  | renew instanceId ttlMs => exact tracked.renew instanceId ttlMs
  | updateMetadata instanceId metadata ttlMs =>
      exact tracked.updateMetadata instanceId metadata ttlMs
  | deregister instanceId => exact tracked.deregister instanceId
  | cleanup ttlMs batchSize => exact tracked.cleanup ttlMs batchSize
  | recoverCleanup batchSize => exact tracked.recoverCleanup batchSize
  | claimCleanup token => exact tracked.claimCleanup token
  | ackCleanup claim => exact tracked.ackCleanup claim
  | nackCleanup claim => exact tracked.nackCleanup claim
  | elapse time => exact tracked.move (fun _ present => present) tracked.bare (List.Perm.refl _)

end

end Tracked

theorem tracked_of_reachable {history : CleanupHistory} (reachable : system.Reachable history) :
    history.Tracked := by
  refine reachable.invariant Tracked ?_ ?_
  · rintro _ ⟨now, rfl⟩
    exact Tracked.initial now
  · rintro before command _ _ tracked ⟨feasible, rfl⟩
    exact tracked.advance feasible

/-- An id that `CLEANUP` removed is owed exactly once until a claim of it is acknowledged, and
never again. -/
theorem cleanupObligations_exact {history : CleanupHistory} (reachable : system.Reachable history)
    {id : String} (removed : id ∈ history.removed) :
    (id ∉ history.acknowledged → history.store.obligations.count id = 1) ∧
      (id ∈ history.acknowledged → history.store.obligations.count id = 0) := by
  have owed := (tracked_of_reachable reachable).owed id
  constructor
  · intro notAcknowledged
    rw [owed, if_pos ⟨removed, notAcknowledged⟩]
  · intro acknowledged
    rw [owed, if_neg fun both => both.2 acknowledged]

/-- A leader claims an expired node, another one claims it again, and the first acknowledges its old
claim. -/
def staleAckRun : List MeshCommand :=
  [.create 1 15000, .elapse 15000, .cleanup 15000 100, .claimCleanup "a", .recoverCleanup 100,
    .claimCleanup "b", .ackCleanup "1|a"]

theorem cleanupObligations_exact_at_stale_ack : ∃ history : CleanupHistory,
    system.Reachable history ∧ history.removed = ["1"] ∧ history.store.processing = ["1|b"] ∧
      history.store.obligations.count "1" = 1 := by
  have evaluated :
      TransitionSystem.Follows advance Feasible (initial 0) staleAckRun ∧
        (staleAckRun.foldl advance (initial 0)).removed = ["1"] ∧
        (staleAckRun.foldl advance (initial 0)).acknowledged = [] ∧
        (staleAckRun.foldl advance (initial 0)).store.processing = ["1|b"] := by decide +kernel
  rcases evaluated with ⟨follows, removed, acknowledged, processing⟩
  have started : system.Reachable (initial 0) := .start ⟨0, rfl⟩
  have reached := started.follow _ _ (fun _ _ feasible => ⟨feasible, rfl⟩) follows
  have isRemoved : "1" ∈ (staleAckRun.foldl advance (initial 0)).removed := by
    rw [removed]
    exact List.mem_singleton.mpr rfl
  have notAcknowledged : "1" ∉ (staleAckRun.foldl advance (initial 0)).acknowledged := by
    rw [acknowledged]
    exact List.not_mem_nil
  exact ⟨_, reached, removed, processing,
    (cleanupObligations_exact reached isRemoved).1 notAcknowledged⟩

end CleanupHistory

end ServerFoundation.Mesh
