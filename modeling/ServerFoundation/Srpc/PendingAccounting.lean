import ServerFoundation.Data.TransitionSystem
import ServerFoundation.Srpc.ByteStream

/-!
# Accounting of pending receivers

Chunks and errors of streams that nobody has attached yet are counted twice: in
the entry of the stream and in the two counters of the transport. This module
follows the counters through every operation on pending receivers.

The counters are exact, so the clamps at zero never act. The limit on the total
never acts either: the chunks have their own limit, an entry retains an error of
at most `pendingDestroyErrorMaxBytes`, and the total limit has room for one such
error in each of `pendingReceiverMaxCount` entries.
-/

namespace ServerFoundation.Srpc

section TruncateUtf8

theorem utf8Size_dropUntilFits_le (maxBytes : ℕ) (reversed : List Char) :
    utf8Size (dropUntilFits maxBytes reversed) ≤ maxBytes := by
  induction reversed with
  | nil => exact Nat.zero_le _
  | cons last rest ih =>
      unfold dropUntilFits
      split_ifs with exceeds
      · exact ih
      · exact Nat.not_lt.mp exceeds

theorem utf8Size_reverse (chars : List Char) : utf8Size chars.reverse = utf8Size chars := by
  rw [utf8Size, utf8Size, List.map_reverse, List.sum_reverse]

theorem utf8Size_truncateUtf8_le (value : String) (maxBytes : ℕ) :
    utf8Size (truncateUtf8 value maxBytes).toList ≤ maxBytes := by
  unfold truncateUtf8
  split_ifs with none fits
  · exact Nat.zero_le _
  · exact fits
  · rw [String.toList_ofList, utf8Size_reverse]
    exact utf8Size_dropUntilFits_le maxBytes _

theorem truncateUtf8_of_le {value : String} {maxBytes : ℕ} (positive : maxBytes ≠ 0)
    (fits : utf8Size value.toList ≤ maxBytes) : truncateUtf8 value maxBytes = value := by
  rw [truncateUtf8, if_neg positive, if_pos fits]

theorem truncateUtf8_idem (value : String) {maxBytes : ℕ} (positive : maxBytes ≠ 0) :
    truncateUtf8 (truncateUtf8 value maxBytes) maxBytes = truncateUtf8 value maxBytes :=
  truncateUtf8_of_le positive (utf8Size_truncateUtf8_le value maxBytes)

end TruncateUtf8

namespace PendingReceiver

/-- The number of bytes in the retained chunks. -/
def chunkBytes (pending : PendingReceiver) : ℕ := (pending.chunks.map List.length).sum

/-- What an entry adds to `pendingReceiverBytes`. -/
def heldBytes (pending : PendingReceiver) : ℕ := pending.bytes + pending.errorBytes

/-- The counters of one entry. -/
structure Counted (pending : PendingReceiver) : Prop where
  bytes : pending.bytes = pending.chunkBytes
  errorBytes : pending.errorBytes ≤ pendingDestroyErrorMaxBytes

theorem fresh_counted : PendingReceiver.fresh.Counted := ⟨rfl, Nat.zero_le _⟩

end PendingReceiver

namespace ByteStreamInfo

/-- One turn of the loop of `clearPendingReceivers`. -/
def clearTurn (info : ByteStreamInfo) (entry : ℕ × PendingReceiver) : ByteStreamInfo :=
  info.deletePendingReceiver entry.1 entry.2

/-- `clearPendingReceivers`, which `init` calls on the table that it replaces. -/
def clearPendingReceivers (info : ByteStreamInfo) : ByteStreamInfo :=
  info.pendingReceivers.entries.foldl clearTurn info

/-- The counters of a transport and its entries. -/
structure Accounted (info : ByteStreamInfo) : Prop where
  entries : ∀ id pending, info.pendingReceivers.get? id = some pending → pending.Counted
  chunkBytes : info.pendingReceiverChunkBytes = info.pendingReceivers.total PendingReceiver.bytes
  heldBytes : info.pendingReceiverBytes = info.pendingReceivers.total PendingReceiver.heldBytes
  chunkLimit : info.pendingReceiverChunkBytes ≤ pendingReceiverMaxChunkTotalBytes
  count : info.pendingReceivers.size ≤ pendingReceiverMaxCount

theorem empty_accounted : ByteStreamInfo.empty.Accounted where
  entries id pending found := by simp [ByteStreamInfo.empty] at found
  chunkBytes := rfl
  heldBytes := rfl
  chunkLimit := Nat.zero_le _
  count := Nat.zero_le _

namespace Accounted

variable {info after : ByteStreamInfo} {id : ℕ} {pending replacement : PendingReceiver}

theorem congr (accounted : info.Accounted)
    (entries : after.pendingReceivers = info.pendingReceivers)
    (bytes : after.pendingReceiverBytes = info.pendingReceiverBytes)
    (chunkBytes : after.pendingReceiverChunkBytes = info.pendingReceiverChunkBytes) :
    after.Accounted where
  entries := by rw [entries]; exact accounted.entries
  chunkBytes := by rw [entries, chunkBytes]; exact accounted.chunkBytes
  heldBytes := by rw [entries, bytes]; exact accounted.heldBytes
  chunkLimit := by rw [chunkBytes]; exact accounted.chunkLimit
  count := by rw [entries]; exact accounted.count

theorem heldBytes_eq_add (map : OrderedMap ℕ PendingReceiver) :
    map.total PendingReceiver.heldBytes =
      map.total PendingReceiver.bytes + map.total PendingReceiver.errorBytes := by
  simp only [OrderedMap.total, PendingReceiver.heldBytes, List.sum_map_add]

section

variable (accounted : info.Accounted)
include accounted

theorem errorBytes_le :
    info.pendingReceivers.total PendingReceiver.errorBytes ≤
      info.pendingReceivers.size * pendingDestroyErrorMaxBytes :=
  OrderedMap.total_le_mul_size _ _ fun id pending found =>
    (accounted.entries id pending found).errorBytes

theorem heldBytes_le :
    info.pendingReceiverBytes ≤ pendingReceiverMaxChunkTotalBytes +
      info.pendingReceivers.size * pendingDestroyErrorMaxBytes := by
  have chunks := accounted.chunkLimit
  rw [accounted.chunkBytes] at chunks
  rw [accounted.heldBytes, heldBytes_eq_add]
  exact Nat.add_le_add chunks accounted.errorBytes_le

theorem totalLimit : info.pendingReceiverBytes ≤ pendingReceiverMaxTotalBytes :=
  accounted.heldBytes_le.trans
    (Nat.add_le_add_left (Nat.mul_le_mul_right _ accounted.count) _)

theorem held_le (found : info.pendingReceivers.get? id = some pending) :
    pending.bytes + pending.errorBytes ≤ info.pendingReceiverBytes := by
  rw [accounted.heldBytes]
  exact OrderedMap.weight_le_total PendingReceiver.heldBytes _ found

theorem chunks_le (found : info.pendingReceivers.get? id = some pending) :
    pending.bytes ≤ info.pendingReceiverChunkBytes := by
  rw [accounted.chunkBytes]
  exact OrderedMap.weight_le_total PendingReceiver.bytes _ found

theorem required (isRequired : info.requirePendingReceiver id = some pending) :
    pending.Counted ∧ pending.bytes + pending.errorBytes ≤ info.pendingReceiverBytes ∧
      pending.bytes ≤ info.pendingReceiverChunkBytes ∧
      ∀ value, (info.pendingReceivers.set id value).size ≤ pendingReceiverMaxCount := by
  unfold requirePendingReceiver at isRequired
  split at isRequired
  · rename_i stored found
    cases isRequired
    refine ⟨accounted.entries id pending found, accounted.held_le found, accounted.chunks_le found,
      ?_⟩
    intro value
    rw [OrderedMap.size_set_of_present _ _ found]
    exact accounted.count
  · rename_i absent
    split at isRequired
    · cases isRequired
    · rename_i room
      cases isRequired
      refine ⟨PendingReceiver.fresh_counted, Nat.zero_le _, Nat.zero_le _, ?_⟩
      intro value
      rw [OrderedMap.size_set_of_absent _ _ absent]
      exact Nat.not_le.mp room

theorem replace (isRequired : info.requirePendingReceiver id = some pending)
    (counted : replacement.Counted)
    (entries : after.pendingReceivers = info.pendingReceivers.set id replacement)
    (bytes : after.pendingReceiverBytes + pending.heldBytes =
      info.pendingReceiverBytes + replacement.heldBytes)
    (chunkBytes : after.pendingReceiverChunkBytes + pending.bytes =
      info.pendingReceiverChunkBytes + replacement.bytes)
    (chunkLimit : after.pendingReceiverChunkBytes ≤ pendingReceiverMaxChunkTotalBytes) :
    after.Accounted := by
  have replaced := info.eq_getD_of_requirePendingReceiver id isRequired
  have byChunks := OrderedMap.total_set PendingReceiver.bytes info.pendingReceivers id replacement
    .fresh rfl
  have byBytes := OrderedMap.total_set PendingReceiver.heldBytes info.pendingReceivers id
    replacement .fresh rfl
  rw [← replaced] at byChunks byBytes
  have oldChunks := accounted.chunkBytes
  have oldBytes := accounted.heldBytes
  refine ⟨?_, ?_, ?_, chunkLimit, ?_⟩
  · intro other stored found
    rw [entries, OrderedMap.get?_set] at found
    split_ifs at found
    · cases found
      exact counted
    · exact accounted.entries other stored found
  · rw [entries]
    omega
  · rw [entries]
    omega
  · rw [entries]
    exact (accounted.required isRequired).2.2.2 replacement

theorem delete (found : info.pendingReceivers.get? id = some pending) :
    (info.deletePendingReceiver id pending).Accounted := by
  have byChunks := OrderedMap.total_erase PendingReceiver.bytes info.pendingReceivers found
  have byBytes := OrderedMap.total_erase PendingReceiver.heldBytes info.pendingReceivers found
  have bySize := OrderedMap.size_erase info.pendingReceivers found
  have oldChunks := accounted.chunkBytes
  have oldBytes := accounted.heldBytes
  have oldLimit := accounted.chunkLimit
  have oldCount := accounted.count
  simp only [PendingReceiver.heldBytes] at byBytes
  refine ⟨?_, ?_, ?_, ?_, ?_⟩
  · intro other stored kept
    simp only [deletePendingReceiver, releasePendingReceiverBytes, OrderedMap.get?_erase] at kept
    split_ifs at kept
    exact accounted.entries other stored kept
  all_goals
    simp only [deletePendingReceiver, releasePendingReceiverBytes]
    omega

section

variable (isRequired : info.requirePendingReceiver id = some pending)
include isRequired

theorem retain_none : (info.retainPendingDestroy id pending none).Accounted := by
  have limit := accounted.chunkLimit
  rcases accounted.required isRequired with ⟨-, held, chunks, -⟩
  refine accounted.replace isRequired ⟨rfl, Nat.zero_le _⟩ rfl ?_ ?_ ?_
  all_goals
    simp only [retainPendingDestroy, setPending, releasePendingReceiverBytes,
      PendingReceiver.heldBytes]
    omega

theorem room_for_error :
    (info.releasePendingReceiverBytes pending).pendingReceiverBytes + pendingDestroyErrorMaxBytes ≤
      pendingReceiverMaxTotalBytes := by
  have retained := accounted.retain_none isRequired
  have stored : (info.retainPendingDestroy id pending none).pendingReceivers.get? id =
      some { pending with
        chunks := [], bytes := 0, errorBytes := 0, destroyed := true, destroyedError := none } := by
    simp [retainPendingDestroy, setPending]
  have others := (retained.delete stored).heldBytes_le
  have fewer := OrderedMap.size_erase _ stored
  have count := retained.count
  simp only [deletePendingReceiver, releasePendingReceiverBytes, Nat.sub_zero] at others
  have same : (info.retainPendingDestroy id pending none).pendingReceiverBytes =
      (info.releasePendingReceiverBytes pending).pendingReceiverBytes := rfl
  rw [same] at others
  simp only [pendingReceiverMaxTotalBytes, pendingReceiverMaxCount,
    pendingDestroyErrorMaxBytes] at others count ⊢
  omega

theorem available_eq :
    min pendingDestroyErrorMaxBytes (pendingReceiverMaxTotalBytes -
      (info.releasePendingReceiverBytes pending).pendingReceiverBytes) =
        pendingDestroyErrorMaxBytes := by
  have room := accounted.room_for_error isRequired
  exact Nat.min_eq_left (Nat.le_sub_of_add_le (by omega))

theorem retain (error : Option String) :
    (info.retainPendingDestroy id pending error).Accounted := by
  cases error with
  | none => exact accounted.retain_none isRequired
  | some message =>
      have limit := accounted.chunkLimit
      rcases accounted.required isRequired with ⟨-, held, chunks, -⟩
      refine accounted.replace isRequired ⟨rfl, ?_⟩ rfl ?_ ?_ ?_
      · simp only [accounted.available_eq isRequired]
        exact utf8Size_truncateUtf8_le _ _
      all_goals
        simp only [retainPendingDestroy, setPending, releasePendingReceiverBytes,
          PendingReceiver.heldBytes]
        omega

theorem retained_error (message : String) :
    ((info.retainPendingDestroy id pending (some message)).pendingReceivers.get? id).bind
      PendingReceiver.destroyedError = some (truncateUtf8 message pendingDestroyErrorMaxBytes) := by
  simp only [retainPendingDestroy, accounted.available_eq isRequired, setPending,
    OrderedMap.get?_set, if_pos, Option.bind_some]

theorem keep (sameBytes : replacement.bytes = pending.bytes)
    (sameErrorBytes : replacement.errorBytes = pending.errorBytes)
    (sameChunks : replacement.chunks = pending.chunks) :
    (info.setPending id replacement).Accounted := by
  have counted := (accounted.required isRequired).1
  refine accounted.replace isRequired ⟨?_, ?_⟩ rfl ?_ ?_ accounted.chunkLimit
  · rw [sameBytes, counted.bytes, PendingReceiver.chunkBytes, PendingReceiver.chunkBytes,
      sameChunks]
  · rw [sameErrorBytes]
    exact counted.errorBytes
  · simp only [setPending, PendingReceiver.heldBytes, sameBytes, sameErrorBytes]
  · simp only [setPending, sameBytes]

theorem write (chunk : Chunk) : (info.writePending id pending chunk).Accounted := by
  unfold writePending
  split_ifs with destroyed finished exceeds
  · exact accounted.keep isRequired rfl rfl rfl
  · exact accounted.retain isRequired _
  · exact accounted.retain isRequired _
  · have counted := (accounted.required isRequired).1
    simp only [exceedsLimits, decide_eq_true_eq, not_or, Nat.not_lt] at exceeds
    have appended : PendingReceiver.Counted { pending with
        chunks := pending.chunks ++ [chunk], bytes := pending.bytes + chunk.length } :=
      ⟨by simp [PendingReceiver.chunkBytes, counted.bytes], counted.errorBytes⟩
    refine accounted.replace isRequired appended rfl ?_ ?_ exceeds.2.1
    all_goals
      simp only [PendingReceiver.heldBytes]
      omega

end

theorem flush (id : ℕ) : (info.flushPendingReceiver id).Accounted := by
  unfold flushPendingReceiver
  split
  · exact accounted.congr rfl rfl rfl
  · rename_i pending found
    have deleted := accounted.delete found
    split_ifs
    · refine deleted.congr (destroyReceiver_pending _ _ _ _) ?_ ?_
      all_goals
        unfold destroyReceiver
        split_ifs <;> rfl
    · exact deleted.congr rfl rfl rfl
    · exact deleted.congr rfl rfl rfl

end

end Accounted

/-- The operations of the peer, attaching, the timers of the entries, a new `init`, and any change
besides the pending receivers. -/
inductive PendingEvent where
  | write (id : ℕ) (chunk : Chunk)
  | finish (id : ℕ)
  | destroy (id : ℕ) (error : Option String)
  | createReceiver (remoteSenderIdParity : Option ℕ) (now : ℤ) (id : ℕ)
  | expire (id : ℕ)
  | init
  | others (receivers : OrderedMap ℕ Receiver) (senders : Finset ℕ)
      (terminalSenders : OrderedMap ℕ ℤ)

/-- An event; a call that throws changes nothing. -/
def handlePending (info : ByteStreamInfo) : PendingEvent → ByteStreamInfo
  | .write id chunk => (info.writeReceiver id chunk).getD info
  | .finish id => (info.finishReceiver id).getD info
  | .destroy id error => (info.destroySubstream id error).getD info
  | .createReceiver remoteSenderIdParity now id =>
      info.createReceiver remoteSenderIdParity now id
  | .expire id => info.expirePending id
  | .init => .empty
  | .others receivers senders terminalSenders => { info with receivers, senders, terminalSenders }

namespace Accounted

variable {info : ByteStreamInfo}

theorem destroyReceiver (accounted : info.Accounted) (id : ℕ) (receiver : Receiver)
    (error : Option String) : (info.destroyReceiver id receiver error).Accounted := by
  unfold ByteStreamInfo.destroyReceiver
  split_ifs
  · exact accounted.congr rfl rfl rfl
  · exact accounted.congr rfl rfl rfl
  · exact accounted.congr rfl rfl rfl

theorem handle (accounted : info.Accounted) (event : PendingEvent) :
    (info.handlePending event).Accounted := by
  cases event with
  | write id chunk =>
      simp only [handlePending, writeReceiver]
      split
      · split_ifs
        · exact accounted.destroyReceiver id _ _
        · exact accounted.congr rfl rfl rfl
      · cases isRequired : info.requirePendingReceiver id with
        | none => exact accounted
        | some pending => exact accounted.write isRequired chunk
  | finish id =>
      simp only [handlePending, finishReceiver]
      split
      · exact accounted.congr rfl rfl rfl
      · cases isRequired : info.requirePendingReceiver id with
        | none => exact accounted
        | some pending =>
            simp only [Option.map_some, Option.getD_some]
            split_ifs
            · exact accounted.keep isRequired rfl rfl rfl
            · exact accounted.keep isRequired rfl rfl rfl
  | destroy id error =>
      simp only [handlePending, destroySubstream]
      split
      · exact accounted.destroyReceiver id _ _
      · split_ifs
        · exact accounted.congr rfl rfl rfl
        · cases isRequired : info.requirePendingReceiver id with
          | none => exact accounted
          | some pending => exact accounted.retain isRequired _
  | createReceiver remoteSenderIdParity now id =>
      simp only [handlePending, createReceiver]
      have pruned : (info.pruneTerminalSenders now).Accounted := accounted.congr rfl rfl rfl
      split_ifs
      · exact accounted
      · exact pruned
      · exact pruned
      · exact pruned.flush id
  | expire id =>
      simp only [handlePending, expirePending]
      split
      · rename_i pending found
        exact accounted.delete found
      · exact accounted
  | init => exact empty_accounted
  | others receivers senders terminalSenders => exact accounted.congr rfl rfl rfl

end Accounted

/-- The loop of `clearPendingReceivers` after some of its turns: the counters are exact, and the
entries to come are the ones still stored. -/
theorem clear_turns {info : ByteStreamInfo} (accounted : info.Accounted)
    {cleared todo : List (ℕ × PendingReceiver)}
    (split : info.pendingReceivers.entries = cleared ++ todo) :
    (cleared.foldl clearTurn info).Accounted ∧
      (cleared.foldl clearTurn info).pendingReceivers.entries = todo := by
  induction cleared generalizing info with
  | nil => exact ⟨accounted, split⟩
  | cons entry rest ih =>
      have found : info.pendingReceivers.get? entry.1 = some entry.2 := by
        rw [OrderedMap.get?_eq_some_iff, split]
        exact List.mem_cons_self
      have nodup := info.pendingReceivers.nodupKeys
      rw [split, List.cons_append, List.map_cons, List.nodup_cons] at nodup
      have others : (info.clearTurn entry).pendingReceivers.entries = rest ++ todo := by
        simp only [clearTurn, deletePendingReceiver, releasePendingReceiverBytes, OrderedMap.erase,
          split, List.cons_append, ne_eq, not_true_eq_false, decide_false, Bool.false_eq_true,
          not_false_eq_true, List.filter_cons_of_neg]
        rw [List.filter_eq_self]
        intro other mem
        have differ : other.1 ≠ entry.1 := fun same =>
          nodup.1 (List.mem_map.mpr ⟨other, mem, same⟩)
        simpa using differ
      exact ih (accounted.delete found) others

/-- What the counters say about the entries, and that no clamp at zero acts on them. -/
structure ExactlyCounted (info : ByteStreamInfo) : Prop where
  chunkBytes : info.pendingReceiverChunkBytes =
    (info.pendingReceivers.entries.map fun entry => entry.2.bytes).sum
  entryBytes : ∀ id pending, info.pendingReceivers.get? id = some pending →
    pending.bytes = (pending.chunks.map List.length).sum
  heldBytes : info.pendingReceiverBytes =
    (info.pendingReceivers.entries.map fun entry => entry.2.bytes + entry.2.errorBytes).sum
  chunkLimit : info.pendingReceiverChunkBytes ≤ 2 * 1024 * 1024
  totalLimit : info.pendingReceiverBytes ≤ 2 * 1024 * 1024 + 1024 * 1024
  countLimit : info.pendingReceivers.entries.length ≤ 1024
  unclamped : ∀ id pending, info.pendingReceivers.get? id = some pending →
    pending.bytes + pending.errorBytes ≤ info.pendingReceiverBytes ∧
      pending.bytes ≤ info.pendingReceiverChunkBytes

theorem Accounted.exactlyCounted {info : ByteStreamInfo} (accounted : info.Accounted) :
    info.ExactlyCounted where
  chunkBytes := accounted.chunkBytes
  entryBytes id pending found := (accounted.entries id pending found).bytes
  heldBytes := accounted.heldBytes
  chunkLimit := accounted.chunkLimit
  totalLimit := accounted.totalLimit
  countLimit := accounted.count
  unclamped _ _ found := ⟨accounted.held_le found, accounted.chunks_le found⟩

/-- Where a destroy is retained, neither clamp of its space acts, and its error is the given one
cut at the limit of a single error. -/
structure RetainsErrors (info : ByteStreamInfo) : Prop where
  unclamped : ∀ id pending, info.requirePendingReceiver id = some pending →
    (info.releasePendingReceiverBytes pending).pendingReceiverBytes + 1024 ≤
      2 * 1024 * 1024 + 1024 * 1024
  retained : ∀ id pending message, info.requirePendingReceiver id = some pending →
    ((info.retainPendingDestroy id pending (some message)).pendingReceivers.get? id).bind
      PendingReceiver.destroyedError = some (truncateUtf8 message 1024)
  destroyed : ∀ id message after, info.receivers.get? id = none → id ∉ info.senders →
    info.destroySubstream id (some message) = some after →
    (after.pendingReceivers.get? id).bind PendingReceiver.destroyedError =
      some (truncateUtf8 message 1024)

theorem Accounted.retainsErrors {info : ByteStreamInfo} (accounted : info.Accounted) :
    info.RetainsErrors where
  unclamped _ _ isRequired := accounted.room_for_error isRequired
  retained _ _ message isRequired := accounted.retained_error isRequired message
  destroyed id message after noReceiver noSender destroyed := by
    rw [destroySubstream] at destroyed
    simp only [noReceiver, if_neg noSender, Option.map_some] at destroyed
    rcases Option.map_eq_some_iff.mp destroyed with ⟨pending, isRequired, rfl⟩
    rw [accounted.retained_error isRequired]
    exact congrArg some (truncateUtf8_idem message (by decide))

theorem accounted_of_events (events : List PendingEvent) :
    (events.foldl handlePending .empty).Accounted :=
  foldl_invariant handlePending Accounted (fun event _ accounted => accounted.handle event) events
    empty_accounted

/-- After any sequence of events the counters are exact and within their limits, and clearing the
table keeps them exact at every turn. -/
theorem pendingReceivers_exactlyCounted (events : List PendingEvent) :
    (events.foldl handlePending .empty).ExactlyCounted ∧
      (events.foldl handlePending .empty).RetainsErrors ∧
      (∀ cleared todo,
        (events.foldl handlePending .empty).pendingReceivers.entries = cleared ++ todo →
        (cleared.foldl clearTurn (events.foldl handlePending .empty)).ExactlyCounted ∧
          (cleared.foldl clearTurn
            (events.foldl handlePending .empty)).pendingReceivers.entries = todo) ∧
      (events.foldl handlePending .empty).clearPendingReceivers.pendingReceiverBytes = 0 ∧
      (events.foldl handlePending .empty).clearPendingReceivers.pendingReceiverChunkBytes = 0 := by
  have accounted := accounted_of_events events
  have cleared := clear_turns accounted (List.append_nil _).symm
  refine ⟨accounted.exactlyCounted, accounted.retainsErrors, ?_, ?_, ?_⟩
  · intro cleared todo split
    rcases clear_turns accounted split with ⟨turned, remaining⟩
    exact ⟨turned.exactlyCounted, remaining⟩
  · have counted := cleared.1.exactlyCounted.heldBytes
    rw [cleared.2] at counted
    exact counted
  · have counted := cleared.1.exactlyCounted.chunkBytes
    rw [cleared.2] at counted
    exact counted

end ByteStreamInfo

end ServerFoundation.Srpc
