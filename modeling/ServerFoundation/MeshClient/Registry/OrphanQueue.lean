import Mathlib.Algebra.Order.Ring.Int
import ServerFoundation.MeshClient.Registry.Ownership

/-!
# The durable orphan queue

Snapshots of clients that a dead node left behind wait in the `orphaned` hash
until a consumer has delivered them. A sorted set orders the ids by the end of
their lease, and an accounting hash keeps the number of items, their bytes and
the cursor of an incremental expiry sweep.

The scripts walk the hash with `HSCAN`. A page is an input of the model: any
list of distinct stored fields with their values. The length of an encoded item
is a parameter, because it is computed by the JSON encoder bundled with Redis.
-/

namespace ServerFoundation.MeshClient

/-- What a snapshot carries: records removed by a node cleanup, alternating with their client
ids, or an encoded client list. -/
inductive OrphanPayload where
  | records (removed : List (ClientRecord × ClientId))
  | clients (clientsJson : String)
deriving DecidableEq, Repr

/-- An encoded value of the `orphaned` hash. -/
structure OrphanItem where
  nodeId : NodeId
  payload : OrphanPayload
  expiresAt : ℕ
  claimedUntil : ℕ
  claimToken : String
  accountedBytes : ℕ
deriving DecidableEq, Repr

/-- The fields of the accounting hash; an absent counter reads as zero. -/
structure OrphanAccounting where
  items : Option ℤ
  bytes : Option ℤ
  sweepCursor : Option String
deriving DecidableEq, Repr

/-- One page of `HSCAN orphaned`: the next cursor and the scanned fields. -/
structure OrphanPage where
  cursor : String
  entries : List (String × OrphanItem)

/-- The `orphaned` hash, its lease index and its accounting hash. -/
structure OrphanQueue where
  orphaned : OrderedMap String OrphanItem
  index : SortedSet String ℕ
  accounting : Option OrphanAccounting

/-- `ORPHAN_TTL_SECONDS * 1000`. -/
def orphanTtlMs : ℕ := 3600 * 1000

/-- `ORPHAN_CLAIM_MS`. -/
def orphanClaimMs : ℕ := 30000

/-- `MAX_ORPHAN_CLAIM_SCAN`. -/
def maxOrphanClaimScan : ℕ := 100

namespace OrphanQueue

/-- No key exists. -/
def empty : OrphanQueue where
  orphaned := .empty
  index := .empty
  accounting := none

/-- `HGET orphaned id`. -/
def item (queue : OrphanQueue) (id : String) : Option OrphanItem := queue.orphaned.get? id

/-- `HLEN orphaned`. -/
def length (queue : OrphanQueue) : ℕ := queue.orphaned.size

/-- The sum of the accounted bytes of all items. -/
def storedBytes (queue : OrphanQueue) : ℕ := queue.orphaned.total OrphanItem.accountedBytes

/-- The accounting hash as its fields read; a missing key has no field. -/
def counters (queue : OrphanQueue) : OrphanAccounting := queue.accounting.getD ⟨none, none, none⟩

/-- The `items` counter. -/
def items (queue : OrphanQueue) : ℤ := queue.counters.items.getD 0

/-- The `bytes` counter. -/
def bytes (queue : OrphanQueue) : ℤ := queue.counters.bytes.getD 0

/-- Delete an item: `HDEL`, `ZREM` and the two `HINCRBY`. -/
def drop (queue : OrphanQueue) (id : String) (item : OrphanItem) : OrphanQueue where
  orphaned := queue.orphaned.erase id
  index := queue.index.erase id
  accounting := some { queue.counters with
    items := some (queue.items - 1)
    bytes := some (queue.bytes - item.accountedBytes) }

/-- The body of the expiry loops: delete a scanned item whose expiry has been reached. -/
def dropExpired (now : ℕ) (queue : OrphanQueue) (entry : String × OrphanItem) : OrphanQueue :=
  if entry.2.expiresAt ≤ now then queue.drop entry.1 entry.2 else queue

/-- The bounded sweep at the head of three scripts: store the next cursor, then delete the
expired items of the page. -/
def sweep (queue : OrphanQueue) (now : ℕ) (page : OrphanPage) : OrphanQueue :=
  page.entries.foldl (dropExpired now)
    { queue with accounting := some { queue.counters with sweepCursor := some page.cursor } }

/-- Store an item that is available at once, and its counters. -/
def store (queue : OrphanQueue) (id : String) (item : OrphanItem) (items bytes : ℤ) :
    OrphanQueue where
  orphaned := queue.orphaned.set id item
  index := queue.index.set id 0
  accounting := some { queue.counters with items := some items, bytes := some bytes }

/-- `if hlen == 0 then del accounting`. -/
def closeIfEmpty (queue : OrphanQueue) : OrphanQueue :=
  if queue.length = 0 then { queue with accounting := none } else queue

/-- Give an item a new lease holder, or none. -/
def lease (queue : OrphanQueue) (id : String) (item : OrphanItem) (token : String)
    (until_ : ℕ) : OrphanQueue × OrphanItem :=
  let updated := { item with claimToken := token, claimedUntil := until_ }
  ({ queue with orphaned := queue.orphaned.set id updated, index := queue.index.set id until_ },
    updated)

section Scripts

variable (encodedLength : NodeId → OrphanPayload → ℕ → ℕ)

/-- A new item and its accounted size: the encoding of its other fields plus 128. -/
def newItem (nodeId : NodeId) (payload : OrphanPayload) (now : ℕ) : OrphanItem where
  nodeId := nodeId
  payload := payload
  expiresAt := now + orphanTtlMs
  claimedUntil := 0
  claimToken := ""
  accountedBytes := encodedLength nodeId payload (now + orphanTtlMs) + 128

/-- The part of `CLEANUP_NODE_AND_ORPHAN_SCRIPT` that snapshots removed records; `false` is the
`FULL` answer. -/
def snapshot (queue : OrphanQueue) (now : ℕ) (page : OrphanPage) (deliveryId : String)
    (nodeId : NodeId) (removed : List (ClientRecord × ClientId)) (maxItems maxBytes : ℕ) :
    OrphanQueue × Bool :=
  if queue.accounting = none ∧ 0 < queue.length then (queue, false)
  else
    let queue := queue.sweep now page
    let item := newItem encodedLength nodeId (.records removed) now
    if queue.items + 1 > maxItems ∨ queue.bytes + item.accountedBytes > maxBytes then
      (queue, false)
    else
      (queue.store deliveryId item (queue.items + 1) (queue.bytes + item.accountedBytes), true)

/-- `ENQUEUE_ORPHAN_SCRIPT`. -/
def enqueueOrphanScript (queue : OrphanQueue) (now : ℕ) (page : OrphanPage) (id : String)
    (nodeId : NodeId) (clientsJson : String) (maxItems maxBytes : ℕ) : OrphanQueue × Bool :=
  if queue.accounting = none ∧ 0 < queue.length then (queue, false)
  else
    let queue := queue.sweep now page
    let item := newItem encodedLength nodeId (.clients clientsJson) now
    let old := queue.item id
    let oldBytes := (old.map OrphanItem.accountedBytes).getD 0
    let nextItems := queue.items + if old.isSome then 0 else 1
    let nextBytes := queue.bytes - oldBytes + item.accountedBytes
    if nextItems > maxItems ∨ nextBytes > maxBytes then (queue, false)
    else (queue.store id item nextItems nextBytes, true)

/-- The loop of `CLAIM_ORPHAN_SCRIPT` over the candidates. -/
def claimCandidates (now : ℕ) (token : String) :
    List String → OrphanQueue → OrphanQueue × Option (String × OrphanItem)
  | [], queue => (queue.closeIfEmpty, none)
  | id :: rest, queue =>
      match queue.item id with
      | none => claimCandidates now token rest { queue with index := queue.index.erase id }
      | some item =>
          if item.expiresAt ≤ now then claimCandidates now token rest (queue.drop id item)
          else if item.claimedUntil ≤ now then
            let (queue, updated) := queue.lease id item token (now + orphanClaimMs)
            (queue, some (id, updated))
          else claimCandidates now token rest queue

/-- `CLAIM_ORPHAN_SCRIPT`; the reply is the leased item. -/
def claimOrphanScript (queue : OrphanQueue) (now : ℕ) (page : OrphanPage) (token : String) :
    OrphanQueue × Option (String × OrphanItem) :=
  if queue.accounting = none then (queue, none)
  else
    let queue := queue.sweep now page
    if queue.length = 0 then ({ queue with accounting := none }, none)
    else claimCandidates now token (queue.index.rangeUpTo now maxOrphanClaimScan) queue

/-- `ACK_ORPHAN_SCRIPT`. -/
def ackOrphanScript (queue : OrphanQueue) (id token : String) : OrphanQueue × Bool :=
  match queue.item id with
  | none => (queue, false)
  | some item =>
      if item.claimToken ≠ token then (queue, false)
      else ((queue.drop id item).closeIfEmpty, true)

/-- `NACK_ORPHAN_SCRIPT`. -/
def nackOrphanScript (queue : OrphanQueue) (id token : String) : OrphanQueue × Bool :=
  match queue.item id with
  | none => (queue, false)
  | some item =>
      if item.claimToken ≠ token then (queue, false)
      else ((queue.lease id item "" 0).1, true)

end Scripts

/-- A page lists distinct stored fields with their values. -/
structure Scans (page : OrphanPage) (queue : OrphanQueue) : Prop where
  nodup : (page.entries.map Prod.fst).Nodup
  stored : ∀ entry ∈ page.entries, queue.item entry.1 = some entry.2

section Views

variable (queue : OrphanQueue) (id other : String) (item : OrphanItem)

@[simp]
theorem item_drop : (queue.drop id item).item other =
    if other = id then none else queue.item other := by
  simp [OrphanQueue.item, drop]

@[simp]
theorem item_store (items bytes : ℤ) :
    (queue.store id item items bytes).item other =
      if other = id then some item else queue.item other := by
  simp [OrphanQueue.item, store]

@[simp]
theorem item_lease (token : String) (until_ : ℕ) :
    (queue.lease id item token until_).1.item other =
      if other = id then some { item with claimToken := token, claimedUntil := until_ }
      else queue.item other := by
  simp [OrphanQueue.item, lease]

@[simp]
theorem item_closeIfEmpty : queue.closeIfEmpty.item other = queue.item other := by
  unfold closeIfEmpty
  split_ifs <;> rfl

theorem item_dropExpired (now : ℕ) (entries : List (String × OrphanItem)) (queue : OrphanQueue) :
    (entries.foldl (dropExpired now) queue).item id =
      if ∃ entry ∈ entries, entry.1 = id ∧ entry.2.expiresAt ≤ now then none
      else queue.item id := by
  induction entries generalizing queue with
  | nil => simp
  | cons entry rest ih =>
      rw [List.foldl_cons, ih]
      by_cases inRest : ∃ entry ∈ rest, entry.1 = id ∧ entry.2.expiresAt ≤ now
      · have inAll : ∃ other ∈ entry :: rest, other.1 = id ∧ other.2.expiresAt ≤ now := by
          rcases inRest with ⟨other, otherMem, expired⟩
          exact ⟨other, List.mem_cons_of_mem entry otherMem, expired⟩
        rw [if_pos inRest, if_pos inAll]
      · rw [if_neg inRest]
        simp only [List.mem_cons, exists_eq_or_imp, inRest, or_false]
        unfold dropExpired
        by_cases expired : entry.2.expiresAt ≤ now
        · by_cases same : id = entry.1
          · simp [expired, same]
          · simp [expired, same, Ne.symm same]
        · simp [expired]

theorem item_sweep (now : ℕ) (page : OrphanPage) :
    (queue.sweep now page).item id =
      if ∃ entry ∈ page.entries, entry.1 = id ∧ entry.2.expiresAt ≤ now then none
      else queue.item id :=
  item_dropExpired id now page.entries _

end Views

end OrphanQueue

end ServerFoundation.MeshClient
