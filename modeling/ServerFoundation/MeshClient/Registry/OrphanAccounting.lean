import ServerFoundation.MeshClient.Registry.Effects

/-!
# Accounting of the orphan queue

The scripts never count the orphan hash. They keep two counters next to it, and
refuse a snapshot when a counter would pass its limit, so a missed update would
make the queue refuse forever or grow without bound. `Accounted` says that the
counters are exact, that the index has the ids of the hash, and that the limits
hold. It is followed through the few changes that the scripts are made of:
dropping an item, storing one, and giving one a new lease.
-/

namespace ServerFoundation.MeshClient

namespace OrphanQueue

/-- The counters are exact and within the limits, and the index has the ids of the hash. -/
structure Accounted (maxItems maxBytes : ℕ) (queue : OrphanQueue) : Prop where
  items : queue.items = queue.length
  bytes : queue.bytes = queue.storedBytes
  closed : queue.accounting = none → queue.length = 0
  indexed : ∀ id, (queue.index.get? id).isSome ↔ (queue.item id).isSome
  itemsBounded : queue.length ≤ maxItems
  bytesBounded : queue.storedBytes ≤ maxBytes

namespace Accounted

variable {maxItems maxBytes : ℕ} {queue : OrphanQueue}

theorem empty : OrphanQueue.empty.Accounted maxItems maxBytes where
  items := rfl
  bytes := rfl
  closed _ := rfl
  indexed _ := Iff.rfl
  itemsBounded := Nat.zero_le maxItems
  bytesBounded := Nat.zero_le maxBytes

theorem drop (accounted : queue.Accounted maxItems maxBytes) {id : String} {item : OrphanItem}
    (found : queue.item id = some item) : (queue.drop id item).Accounted maxItems maxBytes := by
  have fewer : (queue.drop id item).length + 1 = queue.length :=
    OrderedMap.size_erase queue.orphaned found
  have lighter : (queue.drop id item).storedBytes + item.accountedBytes = queue.storedBytes :=
    OrderedMap.total_erase OrphanItem.accountedBytes queue.orphaned found
  have itemsBounded := accounted.itemsBounded
  have bytesBounded := accounted.bytesBounded
  have items : (queue.drop id item).items = queue.items - 1 := rfl
  have bytes : (queue.drop id item).bytes = queue.bytes - item.accountedBytes := rfl
  refine ⟨?_, ?_, ?_, ?_, by omega, by omega⟩
  · rw [items, accounted.items]
    omega
  · rw [bytes, accounted.bytes]
    omega
  · intro absent
    simp [OrphanQueue.drop] at absent
  · intro other
    have indexed := accounted.indexed other
    simp only [OrphanQueue.drop, OrphanQueue.item, OrderedMap.get?_erase] at indexed ⊢
    split_ifs
    · simp
    · exact indexed

theorem withCursor (accounted : queue.Accounted maxItems maxBytes) (cursor : String) :
    ({ queue with
        accounting := some { queue.counters with sweepCursor := some cursor } } :
      OrphanQueue).Accounted maxItems maxBytes where
  items := accounted.items
  bytes := accounted.bytes
  closed absent := by simp at absent
  indexed := accounted.indexed
  itemsBounded := accounted.itemsBounded
  bytesBounded := accounted.bytesBounded

theorem dropExpired (now : ℕ) {entries : List (String × OrphanItem)}
    (accounted : queue.Accounted maxItems maxBytes) (nodup : (entries.map Prod.fst).Nodup)
    (stored : ∀ entry ∈ entries, queue.item entry.1 = some entry.2) :
    (entries.foldl (OrphanQueue.dropExpired now) queue).Accounted maxItems maxBytes := by
  induction entries generalizing queue with
  | nil => exact accounted
  | cons entry rest ih =>
      rw [List.map_cons, List.nodup_cons] at nodup
      rw [List.foldl_cons]
      have found := stored entry List.mem_cons_self
      unfold OrphanQueue.dropExpired
      split_ifs with expired
      · refine ih (accounted.drop found) nodup.2 ?_
        intro other otherMem
        have differ : other.1 ≠ entry.1 := fun same =>
          nodup.1 (List.mem_map.mpr ⟨other, otherMem, same⟩)
        simp only [OrphanQueue.drop, OrphanQueue.item, OrderedMap.get?_erase, if_neg differ]
        exact stored other (List.mem_cons_of_mem entry otherMem)
      · exact ih accounted nodup.2 fun other otherMem =>
          stored other (List.mem_cons_of_mem entry otherMem)

section

variable (accounted : queue.Accounted maxItems maxBytes)
include accounted

theorem sweep (now : ℕ) {page : OrphanPage} (scans : queue.Scans page) :
    (queue.sweep now page).Accounted maxItems maxBytes :=
  (accounted.withCursor page.cursor).dropExpired now scans.nodup scans.stored

theorem store (id : String) (item : OrphanItem) {items bytes : ℤ}
    (nextItems : items = queue.items + if (queue.item id).isSome then 0 else 1)
    (nextBytes : bytes = queue.bytes -
      (((queue.item id).map OrphanItem.accountedBytes).getD 0 : ℕ) + item.accountedBytes)
    (fewItems : items ≤ maxItems) (fewBytes : bytes ≤ maxBytes) :
    (queue.store id item items bytes).Accounted maxItems maxBytes := by
  have counted : items = (queue.store id item items bytes).length ∧
      bytes = (queue.store id item items bytes).storedBytes := by
    have oldItems := accounted.items
    have oldBytes := accounted.bytes
    cases found : queue.item id with
    | none =>
        have more : (queue.store id item items bytes).length = queue.length + 1 :=
          OrderedMap.size_set_of_absent queue.orphaned item found
        have heavier : (queue.store id item items bytes).storedBytes =
            queue.storedBytes + item.accountedBytes :=
          OrderedMap.total_set_of_absent OrphanItem.accountedBytes queue.orphaned item found
        rw [found] at nextItems nextBytes
        simp only [Option.isSome_none, Bool.false_eq_true, if_false, Option.map_none,
          Option.getD_none] at nextItems nextBytes
        omega
    | some old =>
        have same : (queue.store id item items bytes).length = queue.length :=
          OrderedMap.size_set_of_present queue.orphaned item found
        have exchanged : (queue.store id item items bytes).storedBytes + old.accountedBytes =
            queue.storedBytes + item.accountedBytes :=
          OrderedMap.total_set_of_present OrphanItem.accountedBytes queue.orphaned item found
        rw [found] at nextItems nextBytes
        simp only [Option.isSome_some, if_true, Option.map_some, Option.getD_some]
          at nextItems nextBytes
        omega
  refine ⟨counted.1, counted.2, ?_, ?_, by omega, by omega⟩
  · intro absent
    simp [OrphanQueue.store] at absent
  · intro other
    have indexed := accounted.indexed other
    simp only [OrphanQueue.store, OrphanQueue.item, OrderedMap.get?_set] at indexed ⊢
    split_ifs
    · simp
    · exact indexed

theorem closeIfEmpty : queue.closeIfEmpty.Accounted maxItems maxBytes := by
  unfold OrphanQueue.closeIfEmpty
  split_ifs with isEmpty
  · have noBytes : queue.storedBytes = 0 :=
      OrderedMap.total_eq_zero_of_size OrphanItem.accountedBytes queue.orphaned isEmpty
    refine ⟨?_, ?_, fun _ => isEmpty, accounted.indexed, accounted.itemsBounded,
      accounted.bytesBounded⟩
    · show (0 : ℤ) = queue.length
      rw [isEmpty]
      rfl
    · show (0 : ℤ) = queue.storedBytes
      rw [noBytes]
      rfl
  · exact accounted

theorem lease {id : String} {item : OrphanItem} (found : queue.item id = some item) (token : String)
    (until_ : ℕ) : (queue.lease id item token until_).1.Accounted maxItems maxBytes := by
  have sameLength : (queue.lease id item token until_).1.length = queue.length :=
    OrderedMap.size_set_of_present queue.orphaned _ found
  have sameBytes : (queue.lease id item token until_).1.storedBytes = queue.storedBytes := by
    have exchanged := OrderedMap.total_set_of_present OrphanItem.accountedBytes queue.orphaned
      { item with claimToken := token, claimedUntil := until_ } found
    exact Nat.add_right_cancel exchanged
  refine ⟨?_, ?_, ?_, ?_, ?_, ?_⟩
  · rw [sameLength]
    exact accounted.items
  · rw [sameBytes]
    exact accounted.bytes
  · rw [sameLength]
    exact accounted.closed
  · intro other
    have indexed := accounted.indexed other
    simp only [OrphanQueue.lease, OrphanQueue.item, OrderedMap.get?_set] at indexed ⊢
    split_ifs
    · simp
    · exact indexed
  · rw [sameLength]
    exact accounted.itemsBounded
  · rw [sameBytes]
    exact accounted.bytesBounded

end

theorem claimCandidates (now : ℕ) (token : String) {candidates : List String}
    (accounted : queue.Accounted maxItems maxBytes) :
    (OrphanQueue.claimCandidates now token candidates queue).1.Accounted maxItems maxBytes := by
  induction candidates generalizing queue with
  | nil => exact accounted.closeIfEmpty
  | cons id rest ih =>
      unfold OrphanQueue.claimCandidates
      split
      · rename_i absent
        have unindexed : queue.index.get? id = none := by
          have indexed := accounted.indexed id
          rw [absent] at indexed
          simpa using indexed
        rw [OrderedMap.erase_eq_self queue.index unindexed]
        exact ih accounted
      · rename_i item found
        split_ifs
        · exact ih (accounted.drop found)
        · exact accounted.lease found token _
        · exact ih accounted

section Scripts

variable (accounted : queue.Accounted maxItems maxBytes)
  (encodedLength : NodeId → OrphanPayload → ℕ → ℕ) {page : OrphanPage}
include accounted

theorem snapshot (now : ℕ) (scans : queue.Scans page) {deliveryId : String}
    (fresh : queue.item deliveryId = none) (nodeId : NodeId)
    (removed : List (ClientRecord × ClientId)) :
    (queue.snapshot encodedLength now page deliveryId nodeId removed maxItems
      maxBytes).1.Accounted maxItems maxBytes := by
  have swept := accounted.sweep now scans
  have stillFresh : (queue.sweep now page).item deliveryId = none := by
    rw [item_sweep, fresh]
    split_ifs <;> rfl
  unfold OrphanQueue.snapshot
  split_ifs with inconsistent
  · exact accounted
  · dsimp only
    split_ifs with full
    · exact swept
    · rw [not_or, not_lt, not_lt] at full
      refine swept.store deliveryId _ ?_ ?_ full.1 full.2
      · simp [stillFresh]
      · simp [stillFresh]

theorem enqueueOrphanScript (now : ℕ) (scans : queue.Scans page) (id : String) (nodeId : NodeId)
    (clientsJson : String) :
    (queue.enqueueOrphanScript encodedLength now page id nodeId clientsJson maxItems
      maxBytes).1.Accounted maxItems maxBytes := by
  have swept := accounted.sweep now scans
  unfold OrphanQueue.enqueueOrphanScript
  split_ifs with inconsistent
  · exact accounted
  · dsimp only
    generalize nextItems : (queue.sweep now page).items +
      (if ((queue.sweep now page).item id).isSome then (0 : ℤ) else 1) = items
    split_ifs with full
    · exact swept
    · rw [not_or, not_lt, not_lt] at full
      exact swept.store id _ nextItems.symm rfl full.1 full.2

omit encodedLength in
theorem claimOrphanScript (now : ℕ) (scans : queue.Scans page) (token : String) :
    (queue.claimOrphanScript now page token).1.Accounted maxItems maxBytes := by
  have swept := accounted.sweep now scans
  unfold OrphanQueue.claimOrphanScript
  split_ifs with absent
  · exact accounted
  · dsimp only
    split_ifs with isEmpty
    · have closed := swept.closeIfEmpty
      unfold OrphanQueue.closeIfEmpty at closed
      rw [if_pos isEmpty] at closed
      exact closed
    · exact swept.claimCandidates now token

omit encodedLength in
theorem ackOrphanScript (id token : String) :
    (queue.ackOrphanScript id token).1.Accounted maxItems maxBytes := by
  unfold OrphanQueue.ackOrphanScript
  split
  · exact accounted
  · rename_i item found
    split_ifs
    · exact accounted
    · exact (accounted.drop found).closeIfEmpty

omit encodedLength in
theorem nackOrphanScript (id token : String) :
    (queue.nackOrphanScript id token).1.Accounted maxItems maxBytes := by
  unfold OrphanQueue.nackOrphanScript
  split
  · exact accounted
  · rename_i item found
    split_ifs
    · exact accounted
    · exact accounted.lease found "" 0

end Scripts

end Accounted

end OrphanQueue

namespace Registry

variable {registry : Registry}

theorem orphansAfter_accounted (config : RegistryConfig) {command : Command}
    (accounted : registry.orphans.Accounted config.maxOrphanItems config.maxOrphanBytes)
    (feasible : registry.Feasible command) :
    (registry.orphansAfter config command).Accounted config.maxOrphanItems
      config.maxOrphanBytes := by
  cases command with
  | cleanupNodeAndOrphan nodeId deliveryId page members popped =>
      simp only [orphansAfter]
      split_ifs
      · exact accounted
      · exact accounted.snapshot config.encodedLength registry.now feasible.2.2.1 feasible.2.2.2
          nodeId _
  | enqueueOrphan id page nodeId clientsJson =>
      exact accounted.enqueueOrphanScript config.encodedLength registry.now feasible id nodeId
        clientsJson
  | claimOrphan page token => exact accounted.claimOrphanScript registry.now feasible token
  | ackOrphan id token => exact accounted.ackOrphanScript id token
  | nackOrphan id token => exact accounted.nackOrphanScript id token
  | _ => exact accounted

theorem accounted_of_reachable {config : RegistryConfig}
    (reachable : (system config).Reachable registry) :
    registry.orphans.Accounted config.maxOrphanItems config.maxOrphanBytes := by
  apply reachable.invariant fun registry =>
    registry.orphans.Accounted config.maxOrphanItems config.maxOrphanBytes
  · rintro state ⟨now, rfl⟩
    exact .empty
  · rintro before command after - accounted ⟨feasible, rfl⟩
    by_cases isTime : ∃ time, command = .elapse time
    · rcases isTime with ⟨time, rfl⟩
      exact accounted
    · rw [not_exists] at isTime
      rw [(before.run_frame config isTime).2]
      exact orphansAfter_accounted config accounted feasible

/-- In every run with fresh delivery ids the accounting hash, when it exists, counts the orphan
items and their bytes exactly and within the limits; without it the queue is empty. -/
theorem orphanAccounting_exact (config : RegistryConfig) {registry : Registry}
    (reachable : (system config).Reachable registry) :
    (∀ accounting, registry.orphans.accounting = some accounting →
      accounting.items.getD 0 = (registry.orphans.length : ℤ) ∧
        accounting.bytes.getD 0 = (registry.orphans.storedBytes : ℤ)) ∧
      (registry.orphans.accounting = none → ∀ id, registry.orphans.item id = none) ∧
      (∀ id, id ∈ registry.orphans.index.keys ↔ id ∈ registry.orphans.orphaned.keys) ∧
      (0 ≤ registry.orphans.items ∧ registry.orphans.items ≤ config.maxOrphanItems) ∧
      (0 ≤ registry.orphans.bytes ∧ registry.orphans.bytes ≤ config.maxOrphanBytes) := by
  have accounted := accounted_of_reachable reachable
  have items := accounted.items
  have bytes := accounted.bytes
  have itemsBounded := accounted.itemsBounded
  have bytesBounded := accounted.bytesBounded
  refine ⟨?_, ?_, ?_, by omega, by omega⟩
  · intro accounting stored
    simp only [OrphanQueue.items, OrphanQueue.bytes, OrphanQueue.counters, stored,
      Option.getD_some] at items bytes
    exact ⟨items, bytes⟩
  · intro absent
    exact (OrderedMap.size_eq_zero_iff registry.orphans.orphaned).mp (accounted.closed absent)
  · intro id
    have indexed := accounted.indexed id
    rw [Option.isSome_iff_exists, Option.isSome_iff_exists] at indexed
    rw [OrderedMap.mem_keys_iff, OrderedMap.mem_keys_iff]
    exact indexed

/-- A snapshot is enqueued, leased, and given back. -/
def deliveryRun : List Command :=
  [.enqueueOrphan "delivery" ⟨"0", []⟩ 1 "[]", .claimOrphan ⟨"0", []⟩ "token",
    .nackOrphan "delivery" "token"]

theorem orphanAccounting_exact_at_delivery :
    ((Registry.empty 0).runAll exampleConfig deliveryRun).orphans.length = 1 ∧
      ((Registry.empty 0).runAll exampleConfig deliveryRun).orphans.items ≤ 4 := by
  have reachable : ((system exampleConfig).restrict fun _ _ => True).Reachable
      ((Registry.empty 0).runAll exampleConfig deliveryRun) := by
    apply reachable_runAll (.start ⟨0, rfl⟩)
    refine ⟨⟨trivial, ?_⟩, ⟨trivial, ?_⟩, ⟨trivial, trivial⟩, trivial⟩
    · exact ⟨List.nodup_nil, by simp⟩
    · exact ⟨List.nodup_nil, by simp⟩
  exact ⟨by decide, (orphanAccounting_exact exampleConfig reachable.of_restrict).2.2.2.1.2⟩

/-- A snapshot is enqueued under the id that the cleanup of a node will send. -/
def repeatedRun : List Command :=
  [.enqueueOrphan "delivery" ⟨"0", []⟩ 1 "[]",
    .register (soleRegistration "client" 1 "first") "generation"]

/-- The script counts a second item for an id that it writes over. -/
theorem orphanAccounting_inexact_at_repeated :
    ∃ registry, (system exampleConfig).Reachable registry ∧
      (Chosen ["client"] (registry.ownership.members 1) ∧
        Chosen [] (registry.reservations.members 1) ∧ registry.orphans.Scans ⟨"0", []⟩) ∧
      ∃ accounting, (registry.run exampleConfig
          (.cleanupNodeAndOrphan 1 "delivery" ⟨"0", []⟩ ["client"] [])).orphans.accounting =
            some accounting ∧
        accounting.items.getD 0 ≠ (registry.run exampleConfig
          (.cleanupNodeAndOrphan 1 "delivery" ⟨"0", []⟩ ["client"] [])).orphans.length := by
  have reachable : ((system exampleConfig).restrict fun _ _ => True).Reachable
      ((Registry.empty 0).runAll exampleConfig repeatedRun) := by
    apply reachable_runAll (.start ⟨0, rfl⟩)
    refine ⟨⟨trivial, ?_⟩, ⟨trivial, trivial⟩, trivial⟩
    exact ⟨List.nodup_nil, by simp⟩
  refine ⟨_, reachable.of_restrict, ⟨⟨by decide, by decide⟩, ⟨by decide, by decide⟩, ?_⟩, ?_⟩
  · exact ⟨List.nodup_nil, by simp⟩
  · exact ⟨_, rfl, by decide⟩

end Registry

end ServerFoundation.MeshClient
