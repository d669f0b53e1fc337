import ServerFoundation.MeshClient.Registry.OrphanAccounting

/-!
# Delivery of orphaned clients

A client that a cleanup removes has to reach a consumer. The cleanup script stores the removed
records in the orphan queue before it deletes them, and a consumer leases an item, delivers it
and acknowledges it.

The history records what the queue does not: the ids that were ever used, the leases that were
ever granted and the ones that were given back. Ids and tokens are random UUIDs, so an id is
used once and a token is never empty.
-/

namespace ServerFoundation.MeshClient

namespace OrphanQueue

variable {queue : OrphanQueue} {page : OrphanPage} (encodedLength : NodeId → OrphanPayload → ℕ → ℕ)

/-- An item stays as it is, or disappears after its expiry. -/
inductive Aged (now : ℕ) : Option OrphanItem → Option OrphanItem → Prop where
  | kept (item : Option OrphanItem) : Aged now item item
  | expired {item : OrphanItem} (reached : item.expiresAt ≤ now) : Aged now (some item) none

theorem Aged.trans {now : ℕ} {first second third : Option OrphanItem}
    (head : Aged now first second) (tail : Aged now second third) : Aged now first third := by
  cases head with
  | kept => exact tail
  | expired reached =>
      cases tail with
      | kept => exact .expired reached

theorem Aged.eq_some {now : ℕ} {before : Option OrphanItem} {item : OrphanItem}
    (aged : Aged now before (some item)) : before = some item := by
  cases aged with
  | kept => rfl

theorem aged_drop {now : ℕ} {id : String} {item : OrphanItem} (found : queue.item id = some item)
    (reached : item.expiresAt ≤ now) (other : String) :
    Aged now (queue.item other) ((queue.drop id item).item other) := by
  rw [item_drop]
  split_ifs with same
  · rw [same, found]
    exact .expired reached
  · exact .kept _

theorem aged_sweep (scans : queue.Scans page) (now : ℕ) (id : String) :
    Aged now (queue.item id) ((queue.sweep now page).item id) := by
  rw [item_sweep]
  split_ifs with listed
  · rcases listed with ⟨entry, entryMem, rfl, reached⟩
    rw [scans.stored entry entryMem]
    exact .expired reached
  · exact .kept _

/-- What a claim does: items age, and the item it answers gets a new lease, its old one having
run out. -/
structure Claims (now : ℕ) (token : String) (queue : OrphanQueue)
    (result : OrphanQueue × Option (String × OrphanItem)) : Prop where
  leased : ∀ id updated, result.2 = some (id, updated) →
    ∃ item, queue.item id = some item ∧ item.claimedUntil ≤ now ∧
      updated = { item with claimToken := token, claimedUntil := now + orphanClaimMs } ∧
      result.1.item id = some updated
  aged : ∀ id, (∀ updated, result.2 ≠ some (id, updated)) →
    Aged now (queue.item id) (result.1.item id)

namespace Claims

variable {now : ℕ} {token : String} {queue : OrphanQueue}

theorem idle {after : OrphanQueue} (aged : ∀ id, Aged now (queue.item id) (after.item id)) :
    Claims now token queue (after, none) where
  leased := by simp
  aged id _ := aged id

theorem after_aging {aged : OrphanQueue} {result : OrphanQueue × Option (String × OrphanItem)}
    (before : ∀ id, Aged now (queue.item id) (aged.item id))
    (claims : Claims now token aged result) : Claims now token queue result where
  leased id updated answered := by
    rcases claims.leased id updated answered with ⟨item, found, free, updatedEq, stored⟩
    have aging := before id
    rw [found] at aging
    exact ⟨item, aging.eq_some, free, updatedEq, stored⟩
  aged id notAnswered := (before id).trans (claims.aged id notAnswered)

end Claims

theorem claimCandidates_claims (now : ℕ) (token : String) (candidates : List String)
    (queue : OrphanQueue) :
    Claims now token queue (claimCandidates now token candidates queue) := by
  induction candidates generalizing queue with
  | nil =>
      apply Claims.idle
      intro id
      rw [item_closeIfEmpty]
      exact .kept _
  | cons id rest ih =>
      unfold claimCandidates
      split
      · have unaged : ∀ other, Aged now (queue.item other)
            (item { queue with index := queue.index.erase id } other) := fun _ => .kept _
        exact Claims.after_aging unaged (ih _)
      · rename_i item found
        split_ifs with reached free
        · exact (ih _).after_aging (aged_drop found reached)
        · refine ⟨?_, ?_⟩
          · intro other updated answered
            cases answered
            exact ⟨item, found, free, rfl, by simp⟩
          · intro other notAnswered
            have differ : other ≠ id := by
              rintro rfl
              exact notAnswered _ rfl
            rw [item_lease, if_neg differ]
            exact .kept _
        · exact ih queue

theorem claimOrphanScript_claims (scans : queue.Scans page) (now : ℕ) (token : String) :
    Claims now token queue (queue.claimOrphanScript now page token) := by
  unfold claimOrphanScript
  split_ifs
  · exact .idle fun _ => .kept _
  · dsimp only
    split_ifs
    · exact .idle (aged_sweep scans now)
    · exact (claimCandidates_claims now token _ _).after_aging (aged_sweep scans now)

theorem snapshot_cases (scans : queue.Scans page) (now : ℕ) (deliveryId : String) (nodeId : NodeId)
    (removed : List (ClientRecord × ClientId)) (maxItems maxBytes : ℕ) :
    (∃ after, queue.snapshot encodedLength now page deliveryId nodeId removed maxItems maxBytes =
        (after, false) ∧ ∀ id, Aged now (queue.item id) (after.item id)) ∨
      ∃ after, queue.snapshot encodedLength now page deliveryId nodeId removed maxItems maxBytes =
        (after, true) ∧
        after.item deliveryId = some (newItem encodedLength nodeId (.records removed) now) ∧
        ∀ id, id ≠ deliveryId → Aged now (queue.item id) (after.item id) := by
  unfold snapshot
  split_ifs
  · exact .inl ⟨queue, rfl, fun _ => .kept _⟩
  · dsimp only
    split_ifs
    · exact .inl ⟨_, rfl, aged_sweep scans now⟩
    · right
      refine ⟨_, rfl, by simp, ?_⟩
      intro id differ
      rw [item_store, if_neg differ]
      exact aged_sweep scans now id

theorem enqueueOrphanScript_cases (scans : queue.Scans page) (now : ℕ) (id : String)
    (nodeId : NodeId) (clientsJson : String) (maxItems maxBytes : ℕ) :
    (∀ other, Aged now (queue.item other) ((queue.enqueueOrphanScript encodedLength now page id
        nodeId clientsJson maxItems maxBytes).1.item other)) ∨
      (queue.enqueueOrphanScript encodedLength now page id nodeId clientsJson maxItems
          maxBytes).1.item id = some (newItem encodedLength nodeId (.clients clientsJson) now) ∧
        ∀ other, other ≠ id → Aged now (queue.item other) ((queue.enqueueOrphanScript
          encodedLength now page id nodeId clientsJson maxItems maxBytes).1.item other) := by
  unfold enqueueOrphanScript
  by_cases inconsistent : queue.accounting = none ∧ 0 < queue.length
  · rw [if_pos inconsistent]
    exact .inl fun _ => .kept _
  · rw [if_neg inconsistent]
    dsimp only
    generalize (queue.sweep now page).items +
      (if ((queue.sweep now page).item id).isSome then (0 : ℤ) else 1) = items
    split_ifs
    · exact .inl (aged_sweep scans now)
    · right
      refine ⟨by simp, ?_⟩
      intro other differ
      rw [item_store, if_neg differ]
      exact aged_sweep scans now other

theorem ackOrphanScript_cases (queue : OrphanQueue) (id token : String) :
    queue.ackOrphanScript id token = (queue, false) ∨
      ∃ item, queue.item id = some item ∧ item.claimToken = token ∧
        queue.ackOrphanScript id token = ((queue.drop id item).closeIfEmpty, true) := by
  unfold ackOrphanScript
  split
  · exact .inl rfl
  · rename_i item found
    split_ifs with foreign
    · exact .inl rfl
    · exact .inr ⟨item, found, not_not.mp foreign, rfl⟩

theorem nackOrphanScript_cases (queue : OrphanQueue) (id token : String) :
    queue.nackOrphanScript id token = (queue, false) ∨
      ∃ item, queue.item id = some item ∧ item.claimToken = token ∧
        queue.nackOrphanScript id token = ((queue.lease id item "" 0).1, true) := by
  unfold nackOrphanScript
  split
  · exact .inl rfl
  · rename_i item found
    split_ifs with foreign
    · exact .inl rfl
    · exact .inr ⟨item, found, not_not.mp foreign, rfl⟩

end OrphanQueue

/-- A lease that a claim has granted to a consumer. -/
structure Lease where
  id : String
  token : String
  until_ : ℕ
deriving DecidableEq, Repr

/-- The registry with the orphan ids ever used, the leases ever granted, newest first, and those
given back. -/
structure OrphanHistory where
  registry : Registry
  created : List String
  leases : List Lease
  returned : List (String × String)

namespace OrphanHistory

variable {history : OrphanHistory}

/-- The id under which a command stores a snapshot. -/
def createdBy : Command → List String
  | .enqueueOrphan id _ _ _ => [id]
  | .cleanupNodeAndOrphan _ deliveryId _ _ _ => [deliveryId]
  | _ => []

/-- The lease that a command grants. -/
def grantedBy (registry : Registry) : Command → List Lease
  | .claimOrphan page token =>
      (registry.orphans.claimOrphanScript registry.now page token).2.toList.map fun answer =>
        ⟨answer.1, token, answer.2.claimedUntil⟩
  | _ => []

/-- The lease that a command gives back. -/
def returnedBy (registry : Registry) : Command → List (String × String)
  | .ackOrphan id token =>
    if (registry.orphans.ackOrphanScript id token).2 then [(id, token)] else []
  | .nackOrphan id token =>
      if (registry.orphans.nackOrphanScript id token).2 then [(id, token)] else []
  | _ => []

/-- The history after a command. -/
def advance (config : RegistryConfig) (history : OrphanHistory) (command : Command) :
    OrphanHistory where
  registry := history.registry.run config command
  created := createdBy command ++ history.created
  leases := grantedBy history.registry command ++ history.leases
  returned := returnedBy history.registry command ++ history.returned

/-- Ids and tokens as the callers choose them: an id is used once, and tokens are not empty. -/
def Disciplined (history : OrphanHistory) : Command → Prop
  | .enqueueOrphan id _ _ _ => id ∉ history.created
  | .cleanupNodeAndOrphan _ deliveryId _ _ _ => deliveryId ∉ history.created
  | .claimOrphan _ token => token ≠ ""
  | .ackOrphan _ token => token ≠ ""
  | .nackOrphan _ token => token ≠ ""
  | _ => True

/-- The runs of a registry with their history. -/
def system (config : RegistryConfig) : TransitionSystem OrphanHistory Command where
  Init history := ∃ now, history = ⟨Registry.empty now, [], [], []⟩
  Step before command after :=
    before.registry.Feasible command ∧ before.Disciplined command ∧
      after = before.advance config command

/-- A lease that has run out or was given back. -/
def Over (history : OrphanHistory) (lease : Lease) : Prop :=
  lease.until_ ≤ history.registry.now ∨ (lease.id, lease.token) ∈ history.returned

instance (history : OrphanHistory) (lease : Lease) : Decidable (history.Over lease) :=
  inferInstanceAs (Decidable (_ ∨ _))

/-- The token of the most recent claim of an item. -/
def lastToken (history : OrphanHistory) (id : String) : Option String :=
  (history.leases.find? fun lease => lease.id = id).map Lease.token

/-- An item carries the token of its most recent claim or none, a lease that is not over is that of
its item, and of two leases on one item the older one is over. -/
structure Leased (history : OrphanHistory) : Prop where
  stored_created : ∀ id item, history.registry.orphans.item id = some item → id ∈ history.created
  lease_created : ∀ lease ∈ history.leases, lease.id ∈ history.created
  recent : ∀ id item, history.registry.orphans.item id = some item →
    item.claimToken = "" ∨ history.lastToken id = some item.claimToken
  current : ∀ lease ∈ history.leases, ∀ item,
    history.registry.orphans.item lease.id = some item →
    history.Over lease ∨ (item.claimToken = lease.token ∧ item.claimedUntil = lease.until_)
  exclusive : history.leases.Pairwise fun newer older =>
    newer.id = older.id → history.Over older

theorem Over.mono {before after : OrphanHistory} {lease : Lease} (isOver : before.Over lease)
    (later : before.registry.now ≤ after.registry.now)
    (returned : ∀ entry ∈ before.returned, entry ∈ after.returned) : after.Over lease := by
  rcases isOver with ranOut | givenBack
  · exact .inl (ranOut.trans later)
  · exact .inr (returned _ givenBack)

namespace Leased

variable {before after : OrphanHistory} {id : String} {command : Command}

section

variable (leased : before.Leased)
include leased

theorem withoutGrant (later : before.registry.now ≤ after.registry.now)
    (items : ∀ id item, after.registry.orphans.item id = some item →
      before.registry.orphans.item id = some item ∨
        id ∉ before.created ∧ id ∈ after.created ∧ item.claimToken = "")
    (created : ∀ id ∈ before.created, id ∈ after.created)
    (sameLeases : after.leases = before.leases)
    (returned : ∀ entry ∈ before.returned, entry ∈ after.returned) : after.Leased where
  stored_created id item found := by
    rcases items id item found with wasStored | ⟨-, isCreated, -⟩
    · exact created id (leased.stored_created id item wasStored)
    · exact isCreated
  lease_created lease leaseMem := by
    rw [sameLeases] at leaseMem
    exact created lease.id (leased.lease_created lease leaseMem)
  recent id item found := by
    rcases items id item found with wasStored | ⟨-, -, unclaimed⟩
    · rw [lastToken, sameLeases]
      exact leased.recent id item wasStored
    · exact .inl unclaimed
  current lease leaseMem item found := by
    rw [sameLeases] at leaseMem
    rcases items lease.id item found with wasStored | ⟨isNew, -, -⟩
    · rcases leased.current lease leaseMem item wasStored with isOver | carried
      · exact .inl (isOver.mono later returned)
      · exact .inr carried
    · exact absurd (leased.lease_created lease leaseMem) isNew
  exclusive := by
    rw [sameLeases]
    exact leased.exclusive.imp fun isOver sameId => (isOver sameId).mono later returned

theorem withGrant {token : String} {updated : OrphanItem}
    (claims : OrphanQueue.Claims before.registry.now token before.registry.orphans
      (after.registry.orphans, some (id, updated)))
    (sameNow : after.registry.now = before.registry.now)
    (sameCreated : after.created = before.created)
    (granted : after.leases = ⟨id, token, updated.claimedUntil⟩ :: before.leases)
    (sameReturned : after.returned = before.returned) : after.Leased := by
  rcases claims.leased id updated rfl with ⟨item, found, free, updatedEq, stored⟩
  have keepsOver : ∀ {lease}, before.Over lease → after.Over lease := fun isOver =>
    isOver.mono sameNow.ge (by simp [sameReturned])
  have oldOver : ∀ lease ∈ before.leases, lease.id = id → after.Over lease := by
    rintro lease leaseMem rfl
    rcases leased.current lease leaseMem item found with isOver | ⟨-, sameUntil⟩
    · exact keepsOver isOver
    · rw [sameUntil] at free
      exact .inl (sameNow ▸ free)
  have others : ∀ other otherItem, other ≠ id →
      after.registry.orphans.item other = some otherItem →
      before.registry.orphans.item other = some otherItem := by
    intro other otherItem differ otherFound
    have aging := claims.aged other (by simp [Ne.symm differ])
    simp only [otherFound] at aging
    exact aging.eq_some
  have isCreated := leased.stored_created id item found
  refine ⟨?_, ?_, ?_, ?_, ?_⟩
  · intro other otherItem otherFound
    rw [sameCreated]
    by_cases same : other = id
    · rw [same]
      exact isCreated
    · exact leased.stored_created other otherItem (others other otherItem same otherFound)
  · intro lease leaseMem
    rw [sameCreated]
    rw [granted] at leaseMem
    rcases List.mem_cons.mp leaseMem with rfl | wasGranted
    · exact isCreated
    · exact leased.lease_created lease wasGranted
  · intro other otherItem otherFound
    rw [lastToken, granted]
    by_cases same : other = id
    · subst same
      rw [stored] at otherFound
      cases otherFound
      right
      simp [updatedEq]
    · have skipped := leased.recent other otherItem (others other otherItem same otherFound)
      simpa [lastToken, List.find?_cons, Ne.symm same] using skipped
  · intro lease leaseMem otherItem otherFound
    rw [granted] at leaseMem
    rcases List.mem_cons.mp leaseMem with rfl | wasGranted
    · rw [stored] at otherFound
      cases otherFound
      right
      simp [updatedEq]
    · by_cases same : lease.id = id
      · exact .inl (oldOver lease wasGranted same)
      · rcases leased.current lease wasGranted otherItem
          (others lease.id otherItem same otherFound) with isOver | carried
        · exact .inl (keepsOver isOver)
        · exact .inr carried
  · rw [granted, List.pairwise_cons]
    exact ⟨fun lease leaseMem sameId => oldOver lease leaseMem sameId.symm,
      leased.exclusive.imp fun isOver sameId => keepsOver (isOver sameId)⟩

theorem withReturn {token : String} {item : OrphanItem}
    (found : before.registry.orphans.item id = some item) (carries : item.claimToken = token)
    (stored : after.registry.orphans = (before.registry.orphans.lease id item "" 0).1)
    (sameNow : after.registry.now = before.registry.now)
    (sameCreated : after.created = before.created) (sameLeases : after.leases = before.leases)
    (givenBack : after.returned = (id, token) :: before.returned) : after.Leased := by
  have keepsOver : ∀ {lease}, before.Over lease → after.Over lease := fun isOver =>
    isOver.mono sameNow.ge (by simp +contextual [givenBack])
  have items : ∀ other, after.registry.orphans.item other =
      if other = id then some { item with claimToken := "", claimedUntil := 0 }
      else before.registry.orphans.item other := by
    intro other
    rw [stored, OrphanQueue.item_lease]
  refine ⟨?_, ?_, ?_, ?_, ?_⟩
  · intro other otherItem otherFound
    rw [sameCreated]
    rw [items] at otherFound
    split_ifs at otherFound with same
    · rw [same]
      exact leased.stored_created id item found
    · exact leased.stored_created other otherItem otherFound
  · rw [sameLeases, sameCreated]
    exact leased.lease_created
  · intro other otherItem otherFound
    rw [items] at otherFound
    split_ifs at otherFound with same
    · cases otherFound
      exact .inl rfl
    · rw [lastToken, sameLeases]
      exact leased.recent other otherItem otherFound
  · intro lease leaseMem otherItem otherFound
    rw [sameLeases] at leaseMem
    rw [items] at otherFound
    split_ifs at otherFound with same
    · left
      rw [← same] at found
      rcases leased.current lease leaseMem item found with isOver | ⟨sameToken, -⟩
      · exact keepsOver isOver
      · right
        rw [givenBack, ← carries, sameToken, same]
        exact List.mem_cons_self
    · rcases leased.current lease leaseMem otherItem otherFound with isOver | carried
      · exact .inl (keepsOver isOver)
      · exact .inr carried
  · rw [sameLeases]
    exact leased.exclusive.imp fun isOver sameId => keepsOver (isOver sameId)

theorem plain (config : RegistryConfig) (notTime : ∀ time, command ≠ .elapse time)
    (sameOrphans : before.registry.orphansAfter config command = before.registry.orphans)
    (noGrant : grantedBy before.registry command = []) :
    (before.advance config command).Leased := by
  have frame := before.registry.run_frame config notTime
  refine leased.withoutGrant frame.1.ge ?_ ?_ ?_ ?_
  · intro id item found
    simp only [advance, frame.2, sameOrphans] at found
    exact .inl found
  · intro id
    exact List.mem_append_right _
  · simp [advance, noGrant]
  · intro entry
    exact List.mem_append_right _

theorem storing (config : RegistryConfig) (notTime : ∀ time, command ≠ .elapse time)
    (fresh : id ∉ before.created) (isCreated : createdBy command = [id])
    (noGrant : grantedBy before.registry command = [])
    (aged : ∀ other, other ≠ id → OrphanQueue.Aged before.registry.now
      (before.registry.orphans.item other)
      ((before.registry.orphansAfter config command).item other))
    (unclaimed : ∀ item, (before.registry.orphansAfter config command).item id = some item →
      before.registry.orphans.item id = some item ∨ item.claimToken = "") :
    (before.advance config command).Leased := by
  have frame := before.registry.run_frame config notTime
  refine leased.withoutGrant frame.1.ge ?_ ?_ ?_ ?_
  · intro other item found
    simp only [advance, frame.2] at found
    by_cases same : other = id
    · subst same
      rcases unclaimed item found with wasStored | isUnclaimed
      · exact .inl wasStored
      · exact .inr ⟨fresh, by simp [advance, isCreated], isUnclaimed⟩
    · have aging := aged other same
      rw [found] at aging
      exact .inl aging.eq_some
  · intro other
    exact List.mem_append_right _
  · simp [advance, noGrant]
  · intro entry
    exact List.mem_append_right _

theorem advance (config : RegistryConfig) (feasible : before.registry.Feasible command)
    (disciplined : before.Disciplined command) : (before.advance config command).Leased := by
  cases command with
  | cleanupNodeAndOrphan nodeId deliveryId page members popped =>
      refine leased.storing config (by simp) disciplined rfl rfl ?_ ?_
      · intro other differ
        simp only [Registry.orphansAfter]
        split_ifs
        · exact .kept _
        · rcases OrphanQueue.snapshot_cases config.encodedLength feasible.2.2.1
            before.registry.now deliveryId nodeId
            (members.filterMap (before.registry.ownership.activeRecord nodeId))
            config.maxOrphanItems config.maxOrphanBytes with
            ⟨after, result, aged⟩ | ⟨after, result, -, aged⟩
          · rw [result]
            exact aged other
          · rw [result]
            exact aged other differ
      · intro item found
        simp only [Registry.orphansAfter] at found
        split_ifs at found
        · exact .inl found
        · rcases OrphanQueue.snapshot_cases config.encodedLength feasible.2.2.1
            before.registry.now deliveryId nodeId
            (members.filterMap (before.registry.ownership.activeRecord nodeId))
            config.maxOrphanItems config.maxOrphanBytes with
            ⟨after, result, aged⟩ | ⟨after, result, stored, -⟩
          · rw [result] at found
            have aging := aged deliveryId
            rw [found, feasible.2.2.2] at aging
            cases aging
          · rw [result, stored] at found
            cases found
            exact .inr rfl
  | enqueueOrphan id page nodeId clientsJson =>
      have cases := OrphanQueue.enqueueOrphanScript_cases config.encodedLength feasible
        before.registry.now id nodeId clientsJson config.maxOrphanItems config.maxOrphanBytes
      refine leased.storing config (by simp) disciplined rfl rfl ?_ ?_
      · intro other differ
        rcases cases with aged | ⟨-, aged⟩
        · exact aged other
        · exact aged other differ
      · intro item found
        simp only [Registry.orphansAfter] at found
        rcases cases with aged | ⟨stored, -⟩
        · have aging := aged id
          rw [found] at aging
          exact .inl aging.eq_some
        · rw [stored] at found
          cases found
          exact .inr rfl
  | claimOrphan page token =>
      have claims := OrphanQueue.claimOrphanScript_claims feasible before.registry.now token
      generalize result : before.registry.orphans.claimOrphanScript before.registry.now page token =
        outcome at claims
      rcases outcome with ⟨after, answer⟩
      cases answer with
      | none =>
          refine leased.withoutGrant le_rfl ?_ (by simp [OrphanHistory.advance, createdBy]) ?_
            (by simp [OrphanHistory.advance, returnedBy])
          · intro id item found
            simp only [OrphanHistory.advance, Registry.run, result] at found
            have aging := claims.aged id (by simp)
            rw [found] at aging
            exact .inl aging.eq_some
          · simp [OrphanHistory.advance, grantedBy, result]
      | some answered =>
          rcases answered with ⟨id, updated⟩
          have granting : OrphanQueue.Claims before.registry.now token before.registry.orphans
              ((before.advance config (.claimOrphan page token)).registry.orphans,
                some (id, updated)) := by
            simpa only [OrphanHistory.advance, Registry.run, result] using claims
          exact leased.withGrant granting rfl rfl
            (by simp [OrphanHistory.advance, grantedBy, result]) rfl
  | ackOrphan id token =>
      rcases before.registry.orphans.ackOrphanScript_cases id token with
        same | ⟨item, found, -, dropped⟩
      · exact leased.plain config (by simp) (by simp [Registry.orphansAfter, same]) rfl
      · refine leased.withoutGrant le_rfl ?_ (by simp [OrphanHistory.advance, createdBy]) rfl ?_
        · intro other otherItem otherFound
          simp only [OrphanHistory.advance, Registry.run, dropped, OrphanQueue.item_closeIfEmpty,
            OrphanQueue.item_drop] at otherFound
          split_ifs at otherFound
          exact .inl otherFound
        · intro entry
          exact List.mem_append_right _
  | nackOrphan id token =>
      rcases before.registry.orphans.nackOrphanScript_cases id token with
        same | ⟨item, found, carries, leasedBack⟩
      · exact leased.plain config (by simp) (by simp [Registry.orphansAfter, same]) rfl
      · refine leased.withReturn found carries ?_ rfl rfl rfl ?_
        · simp [OrphanHistory.advance, Registry.run, leasedBack]
        · simp [OrphanHistory.advance, returnedBy, leasedBack]
  | elapse time =>
      refine leased.withoutGrant feasible ?_ (by simp [OrphanHistory.advance, createdBy]) rfl
        (by simp [OrphanHistory.advance, returnedBy])
      intro id item found
      exact .inl found
  | _ => exact leased.plain config (by simp) rfl rfl

end

end Leased

theorem leased_of_reachable {config : RegistryConfig}
    (reachable : (system config).Reachable history) : history.Leased := by
  apply reachable.invariant Leased
  · rintro state ⟨now, rfl⟩
    refine ⟨?_, by simp, ?_, by simp, List.Pairwise.nil⟩
    · intro id item found
      simp [Registry.empty, OrphanQueue.empty, OrphanQueue.item] at found
    · intro id item found
      simp [Registry.empty, OrphanQueue.empty, OrphanQueue.item] at found
  · rintro before command after - leased ⟨feasible, disciplined, rfl⟩
    exact leased.advance config feasible disciplined

theorem Leased.held_le_one (leased : history.Leased) (id : String) :
    (history.leases.filter fun lease => lease.id = id ∧ ¬history.Over lease).length ≤ 1 := by
  have disjoint : (history.leases.filter fun lease =>
      lease.id = id ∧ ¬history.Over lease).Pairwise fun _ _ => False := by
    rw [List.pairwise_filter]
    refine leased.exclusive.imp ?_
    intro newer older isOver newerHeld olderHeld
    rw [decide_eq_true_eq] at newerHeld olderHeld
    exact olderHeld.2 (isOver (newerHeld.1.trans olderHeld.1.symm))
  generalize history.leases.filter (fun lease => lease.id = id ∧ ¬history.Over lease) = held
    at disjoint
  cases disjoint with
  | nil => simp
  | cons apart rest =>
      rename_i lease others
      cases others with
      | nil => simp
      | cons next more => exact (apart next List.mem_cons_self).elim

theorem Leased.leaves (leased : history.Leased) (config : RegistryConfig) {command : Command}
    (feasible : history.registry.Feasible command) (disciplined : history.Disciplined command)
    {id : String} {item : OrphanItem} (found : history.registry.orphans.item id = some item)
    (gone : (history.registry.run config command).orphans.item id = none) :
    item.expiresAt ≤ history.registry.now ∨
      ∃ token, command = .ackOrphan id token ∧ history.lastToken id = some token := by
  have ofAged : OrphanQueue.Aged history.registry.now (history.registry.orphans.item id)
      ((history.registry.run config command).orphans.item id) →
      item.expiresAt ≤ history.registry.now := by
    intro aged
    rw [found, gone] at aged
    cases aged with
    | expired reached => exact reached
  by_cases isTime : ∃ time, command = .elapse time
  · rcases isTime with ⟨time, rfl⟩
    have kept : history.registry.orphans.item id = none := gone
    simp [found] at kept
  · rw [not_exists] at isTime
    rw [(history.registry.run_frame config isTime).2] at gone ofAged
    cases command with
    | cleanupNodeAndOrphan nodeId deliveryId page members popped =>
        left
        apply ofAged
        simp only [Registry.orphansAfter] at gone ⊢
        split_ifs at gone ⊢
        · exact .kept _
        · rcases OrphanQueue.snapshot_cases config.encodedLength feasible.2.2.1
            history.registry.now deliveryId nodeId
            (members.filterMap (history.registry.ownership.activeRecord nodeId))
            config.maxOrphanItems config.maxOrphanBytes with
            ⟨after, result, aged⟩ | ⟨after, result, -, aged⟩
          · rw [result]
            exact aged id
          · rw [result]
            apply aged id
            rintro rfl
            simp [feasible.2.2.2] at found
    | enqueueOrphan newId page nodeId clientsJson =>
        left
        apply ofAged
        rcases OrphanQueue.enqueueOrphanScript_cases config.encodedLength feasible
          history.registry.now newId nodeId clientsJson config.maxOrphanItems
          config.maxOrphanBytes with aged | ⟨-, aged⟩
        · exact aged id
        · apply aged id
          rintro rfl
          exact disciplined (leased.stored_created id item found)
    | claimOrphan page token =>
        left
        apply ofAged
        have claims := OrphanQueue.claimOrphanScript_claims feasible history.registry.now token
        apply claims.aged id
        intro updated answered
        rcases claims.leased id updated answered with ⟨-, -, -, -, stored⟩
        simp [Registry.orphansAfter, stored] at gone
    | ackOrphan ackId token =>
        rcases history.registry.orphans.ackOrphanScript_cases ackId token with
          same | ⟨acked, ackedFound, carries, dropped⟩
        · simp [Registry.orphansAfter, same, found] at gone
        · simp only [Registry.orphansAfter, dropped, OrphanQueue.item_closeIfEmpty,
            OrphanQueue.item_drop] at gone
          split_ifs at gone with isAcked
          · subst isAcked
            right
            refine ⟨token, rfl, ?_⟩
            rcases leased.recent id acked ackedFound with unclaimed | recent
            · exact absurd (carries.symm.trans unclaimed) disciplined
            · rw [recent, carries]
          · simp [found] at gone
    | nackOrphan nackId token =>
        rcases history.registry.orphans.nackOrphanScript_cases nackId token with
          same | ⟨nacked, nackedFound, -, leasedBack⟩
        · simp [Registry.orphansAfter, same, found] at gone
        · simp only [Registry.orphansAfter, leasedBack, OrphanQueue.item_lease] at gone
          split_ifs at gone
          simp [found] at gone
    | elapse time => exact absurd rfl (isTime time)
    | _ => simp [Registry.orphansAfter, found] at gone

end OrphanHistory

/-- The item contains a removed record of a client. -/
def OrphanItem.Contains (item : OrphanItem) (record : ClientRecord) (clientId : ClientId) : Prop :=
  ∃ removed, item.payload = .records removed ∧ (record, clientId) ∈ removed

namespace Registry

variable {config : RegistryConfig} {registry : Registry} {deliveryId : String}
  {members popped : List ClientId}

/-- A cleanup call removes records of its node only, and stores every active one in the single
item that it creates. -/
theorem cleanup_stores {nodeId : NodeId} {page : OrphanPage} (feasible : registry.Feasible
      (.cleanupNodeAndOrphan nodeId deliveryId page members popped)) {clientId : ClientId}
    {record : ClientRecord} (held : registry.ownership.client clientId = some record)
    (removed : (registry.run config
      (.cleanupNodeAndOrphan nodeId deliveryId page members popped)).ownership.client clientId ≠
        some record) :
    record.nodeId = nodeId ∧
      (record.state = .active → ∃! id, registry.orphans.item id = none ∧
        ∃ item, (registry.run config
          (.cleanupNodeAndOrphan nodeId deliveryId page members popped)).orphans.item id =
            some item ∧ item.nodeId = nodeId ∧ item.Contains record clientId) := by
  have chosen : (registry.ownership.removeMembers nodeId members).client clientId ≠ some record →
      clientId ∈ members ∧ record.nodeId = nodeId := by
    intro gone
    by_contra kept
    apply gone
    rw [Ownership.client_removeMembers, held, Option.filter_some, if_pos]
    exact decide_eq_true kept
  have listed : clientId ∈ members → record.nodeId = nodeId → record.state = .active →
      (record, clientId) ∈ members.filterMap (registry.ownership.activeRecord nodeId) := by
    intro isMember isNode isActive
    refine List.mem_filterMap.mpr ⟨clientId, isMember, ?_⟩
    simp [Ownership.activeRecord, held, isNode, isActive]
  have outcome := registry.cleanupNodeAndOrphanScript_outcome nodeId config deliveryId page members
    popped
  simp only [run] at removed ⊢
  generalize registry.cleanupNodeAndOrphanScript config nodeId deliveryId page members popped =
    result at outcome removed
  cases outcome with
  | inactive noneActive =>
      rcases chosen removed with ⟨isMember, isNode⟩
      refine ⟨isNode, fun isActive => ?_⟩
      have impossible := listed isMember isNode isActive
      simp [noneActive] at impossible
  | full => exact absurd held removed
  | stored records recordsEq orphans accepted =>
      rcases chosen removed with ⟨isMember, isNode⟩
      refine ⟨isNode, fun isActive => ?_⟩
      rcases OrphanQueue.snapshot_cases config.encodedLength feasible.2.2.1 registry.now
        deliveryId nodeId records config.maxOrphanItems config.maxOrphanBytes with
        ⟨after, result, -⟩ | ⟨after, result, created, aged⟩
      · rw [accepted] at result
        cases result
      · rw [accepted] at result
        cases result
        refine ⟨deliveryId, ⟨feasible.2.2.2, _, created, rfl, records, rfl, ?_⟩, ?_⟩
        · rw [recordsEq]
          exact listed isMember isNode isActive
        · rintro id ⟨absent, item, found, -⟩
          by_contra differ
          have aging := aged id differ
          have foundAfter : orphans.item id = some item := found
          rw [absent, foundAfter] at aging
          cases aging

theorem cleanup_full {nodeId : NodeId} {page : OrphanPage}
    (full : (registry.cleanupNodeAndOrphanScript config nodeId deliveryId page members popped).2 =
      .full) :
    (registry.cleanupNodeAndOrphanScript config nodeId deliveryId page members
      popped).1.ownership = registry.ownership := by
  have outcome := registry.cleanupNodeAndOrphanScript_outcome nodeId config deliveryId page members
    popped
  generalize registry.cleanupNodeAndOrphanScript config nodeId deliveryId page members popped =
    result at outcome full
  cases outcome with
  | inactive => simp [finishCleanup] at full
  | full => rfl
  | stored => simp [finishCleanup] at full

end Registry

namespace OrphanHistory

open Registry (exampleConfig soleRegistration)

/-- With fresh delivery ids a dead-node cleanup loses no client: what it removes is in the one item
that it creates, and the item stays until its expiry or the acknowledgement of its latest lease. -/
theorem orphanDelivery_lossless (config : RegistryConfig) {history : OrphanHistory}
    (reachable : (system config).Reachable history) :
    (∀ nodeId deliveryId page members popped clientId record,
      history.registry.Feasible (.cleanupNodeAndOrphan nodeId deliveryId page members popped) →
      history.registry.ownership.client clientId = some record →
      (history.registry.run config
        (.cleanupNodeAndOrphan nodeId deliveryId page members popped)).ownership.client clientId ≠
          some record →
      record.nodeId = nodeId ∧
        (record.state = .active → ∃! id, history.registry.orphans.item id = none ∧
          ∃ item, (history.registry.run config
            (.cleanupNodeAndOrphan nodeId deliveryId page members popped)).orphans.item id =
              some item ∧ item.nodeId = nodeId ∧ item.Contains record clientId)) ∧
      (∀ nodeId deliveryId page members popped,
        (history.registry.cleanupNodeAndOrphanScript config nodeId deliveryId page members
          popped).2 = .full →
        (history.registry.run config
          (.cleanupNodeAndOrphan nodeId deliveryId page members popped)).ownership =
            history.registry.ownership) ∧
      (∀ command id item, history.registry.Feasible command → history.Disciplined command →
        history.registry.orphans.item id = some item →
        (history.registry.run config command).orphans.item id = none →
        item.expiresAt ≤ history.registry.now ∨
          ∃ token, command = .ackOrphan id token ∧ history.lastToken id = some token) ∧
      ∀ id,
        (history.leases.filter fun lease => lease.id = id ∧ ¬history.Over lease).length ≤ 1 := by
  have leased := leased_of_reachable reachable
  refine ⟨?_, ?_, ?_, leased.held_le_one⟩
  · intro nodeId deliveryId page members popped clientId record feasible held removed
    exact Registry.cleanup_stores feasible held removed
  · intro nodeId deliveryId page members popped full
    exact Registry.cleanup_full full
  · intro command id item feasible disciplined found gone
    exact leased.leaves config feasible disciplined found gone

/-- Node 1 has registered a client and died. -/
def abandoned : OrphanHistory :=
  OrphanHistory.advance exampleConfig ⟨Registry.empty 0, [], [], []⟩
    (.register (soleRegistration "client" 1 "first") "generation")

theorem orphanDelivery_lossless_at_abandoned :
    ∃! id, abandoned.registry.orphans.item id = none ∧
      ∃ item, (abandoned.registry.run exampleConfig
        (.cleanupNodeAndOrphan 1 "delivery" ⟨"0", []⟩ ["client"] [])).orphans.item id = some item ∧
        item.nodeId = 1 ∧
        item.Contains ((soleRegistration "client" 1 "first").record "generation") "client" := by
  have started : (system exampleConfig).Reachable ⟨Registry.empty 0, [], [], []⟩ :=
    .start ⟨0, rfl⟩
  have taken : (system exampleConfig).Step ⟨Registry.empty 0, [], [], []⟩
      (.register (soleRegistration "client" 1 "first") "generation") abandoned :=
    ⟨trivial, trivial, rfl⟩
  have reachable := started.step taken
  refine ((orphanDelivery_lossless exampleConfig reachable).1 1 "delivery" ⟨"0", []⟩ ["client"] []
    "client" _ ?_ ?_ ?_).2 rfl
  · refine ⟨⟨by decide, by decide⟩, ⟨by decide, by decide⟩, ⟨by decide, by simp⟩, by decide⟩
  · decide
  · decide

end OrphanHistory

end ServerFoundation.MeshClient
