import ServerFoundation.Srpc.ClientAdmission
import ServerFoundation.Srpc.RequestAccounting

/-!
# Correlation of server requests and replies

Apart from an invocation, a step of a stream only takes requests out of the queue
and drops tombstones that have expired. Only a reply resolves a request, and it
resolves the request that waits under its id. A request that timed out keeps its
tombstone until the tombstone expires or 256 later requests have timed out.
-/

namespace ServerFoundation.Srpc

variable {Payload : Type}

namespace ServerStream

/-- The message is a reply to a queued request with this serial number. -/
def Answers (stream : ServerStream Payload) (source : Option (Envelope Payload)) (serial : ℕ)
    (reply : Envelope Payload) : Prop :=
  source = some reply ∧ reply.reply = true ∧
    ∃ requestId queued, reply.requestId? = some requestId ∧
      stream.serverRequests.queue.get? requestId = some queued ∧ queued.serial = serial

/-- Requests leave the queue, tombstones expire, and only the source resolves requests. -/
structure Narrows (source : Option (Envelope Payload)) (before after : ServerStream Payload) :
    Prop where
  now : before.now ≤ after.now
  revoked : before.revoked = true → after.revoked = true
  activated : before.isActivated = true → after.isActivated = true
  closed : after.revoked = true →
    before.revoked = true ∨ ∀ requestId, after.serverRequests.queue.get? requestId = none
  invocations : after.serverRequests.invocations = before.serverRequests.invocations
  queue : ∀ requestId queued, after.serverRequests.queue.get? requestId = some queued →
    ∃ old, before.serverRequests.queue.get? requestId = some old ∧ old.serial = queued.serial
  keys : after.serverRequests.lateReplyTombstones.keys.Sublist
    before.serverRequests.lateReplyTombstones.keys
  kept : ∀ requestId expiresAt,
    before.serverRequests.lateReplyTombstones.get? requestId = some expiresAt →
    after.now < expiresAt →
    after.serverRequests.lateReplyTombstones.get? requestId = some expiresAt
  settled : before.serverRequests.settled ⊆ after.serverRequests.settled
  resolved : ∀ serial reply, (serial, .resolved reply) ∈ after.serverRequests.settled →
    (serial, .resolved reply) ∈ before.serverRequests.settled ∨
      before.Answers source serial reply

namespace Narrows

variable {source : Option (Envelope Payload)} {before middle after : ServerStream Payload}

theorem of_eq (now : after.now = before.now) (revoked : after.revoked = before.revoked)
    (activated : before.isActivated = true → after.isActivated = true)
    (requests : after.serverRequests = before.serverRequests) : Narrows source before after where
  now := now.ge
  revoked wasRevoked := by rw [revoked, wasRevoked]
  activated := activated
  closed isRevoked := by
    rw [revoked] at isRevoked
    exact Or.inl isRevoked
  invocations := by rw [requests]
  queue requestId queued found := by
    rw [requests] at found
    exact ⟨queued, found, rfl⟩
  keys := by rw [requests]
  kept requestId expiresAt found _ := by
    rw [requests]
    exact found
  settled := by
    rw [requests]
    exact List.Subset.refl _
  resolved serial reply settled := by
    rw [requests] at settled
    exact Or.inl settled

theorem trans (first : Narrows source before middle) (second : Narrows source middle after) :
    Narrows source before after where
  now := first.now.trans second.now
  revoked wasRevoked := second.revoked (first.revoked wasRevoked)
  activated wasActivated := second.activated (first.activated wasActivated)
  closed isRevoked := by
    rcases second.closed isRevoked with wasRevoked | empty
    · rcases first.closed wasRevoked with initially | empty
      · exact Or.inl initially
      · refine Or.inr fun requestId => ?_
        rw [Option.eq_none_iff_forall_ne_some]
        intro queued found
        rcases second.queue requestId queued found with ⟨old, foundOld, _⟩
        cases (empty requestId).symm.trans foundOld
    · exact Or.inr empty
  invocations := second.invocations.trans first.invocations
  queue requestId queued found := by
    rcases second.queue requestId queued found with ⟨old, foundOld, same⟩
    rcases first.queue requestId old foundOld with ⟨oldest, foundOldest, sameOld⟩
    exact ⟨oldest, foundOldest, sameOld.trans same⟩
  keys := second.keys.trans first.keys
  kept requestId expiresAt found unexpired :=
    second.kept requestId expiresAt
      (first.kept requestId expiresAt found (second.now.trans_lt unexpired)) unexpired
  settled := List.Subset.trans first.settled second.settled
  resolved serial reply settled := by
    rcases second.resolved serial reply settled with wasSettled | answers
    · exact first.resolved serial reply wasSettled
    · rcases answers with ⟨isSource, isReply, requestId, queued, named, found, rfl⟩
      rcases first.queue requestId queued found with ⟨old, foundOld, same⟩
      exact Or.inr ⟨isSource, isReply, requestId, old, named, foundOld, same⟩

end Narrows

/-- The requests stay sound and only narrow. -/
def Keeps (limit : ℕ) (source : Option (Envelope Payload)) (before after : ServerStream Payload) :
    Prop :=
  before.serverRequests.Sound limit →
    after.serverRequests.Sound limit ∧ Narrows source before after

namespace Keeps

variable {limit : ℕ} {source : Option (Envelope Payload)}
  {before middle after : ServerStream Payload}

theorem of_eq (now : after.now = before.now) (revoked : after.revoked = before.revoked)
    (activated : before.isActivated = true → after.isActivated = true)
    (requests : after.serverRequests = before.serverRequests) :
        Keeps limit source before after := by
  intro sound
  refine ⟨?_, Narrows.of_eq now revoked activated requests⟩
  rw [requests]
  exact sound

theorem refl (stream : ServerStream Payload) : Keeps limit source stream stream :=
  of_eq rfl rfl id rfl

theorem trans (first : Keeps limit source before middle)
    (second : Keeps limit source middle after) : Keeps limit source before after := by
  intro sound
  rcases first sound with ⟨soundMiddle, narrowsFirst⟩
  rcases second soundMiddle with ⟨soundAfter, narrowsSecond⟩
  exact ⟨soundAfter, narrowsFirst.trans narrowsSecond⟩

end Keeps

section Operations

variable {config : StreamConfig} {limit : ℕ} {source : Option (Envelope Payload)}
  (stream : ServerStream Payload) (data : Envelope Payload) (cause : DisconnectCause)
  (retainedBytes : ℕ)

theorem revokeStream_keeps : Keeps limit source stream (stream.revokeStream cause) := by
  intro sound
  rw [revokeStream]
  split
  · exact Keeps.refl stream sound
  · refine ⟨sound.rejectAll cause, ?_⟩
    refine ⟨le_rfl, fun _ => rfl, id, ?_, ?_, ?_, ?_, ?_, ?_, ?_⟩
    · intro _
      exact Or.inr fun requestId => rfl
    · simp only [sound.rejectAll_eq cause]
    · intro requestId queued found
      cases found
    · simp only [sound.rejectAll_eq cause]
      exact List.Sublist.refl _
    · intro requestId expiresAt found _
      simp only [sound.rejectAll_eq cause]
      exact found
    · simp only [sound.rejectAll_eq cause]
      exact List.subset_append_right _ _
    · intro serial reply settled
      simp only [sound.rejectAll_eq cause, List.mem_append, List.mem_reverse, List.mem_map]
        at settled
      rcases settled with ⟨_, _, impossible⟩ | wasSettled
      · cases impossible
      · exact Or.inl wasSettled

theorem closeStreamWithError_keeps (message : String) :
    Keeps limit source stream (stream.closeStreamWithError cause message) := by
  rw [closeStreamWithError]
  split
  · exact Keeps.refl stream
  · exact (stream.revokeStream_keeps cause).trans (Keeps.of_eq rfl rfl id rfl)

theorem interrupted_keeps (closes : Bool) :
    Keeps limit source stream (stream.interrupted closes) := by
  rw [interrupted]
  split
  · exact stream.revokeStream_keeps _
  · exact Keeps.refl stream

theorem writeEncodedToStream_keeps (bytes : ℕ) (turn : Turn) :
    Keeps limit source stream (stream.writeEncodedToStream config bytes turn).1 := by
  rcases stream.writeEncodedToStream_cases config bytes turn with
    ⟨_, same | ⟨message, closed⟩⟩ | ⟨_, _, sent⟩
  · rw [same]
    exact Keeps.refl stream
  · rw [closed]
    exact stream.closeStreamWithError_keeps _ message
  · rw [sent]
    exact stream.interrupted_keeps _

theorem prune_keeps :
    Keeps limit source stream { stream with
      serverRequests := stream.serverRequests.pruneLateReplyTombstones stream.now } := by
  intro sound
  refine ⟨sound.withTombstones _, ?_⟩
  refine ⟨le_rfl, id, id, Or.inl, rfl, ?_, ?_, ?_, List.Subset.refl _, ?_⟩
  · intro requestId queued found
    exact ⟨queued, found, rfl⟩
  · exact List.filter_sublist.map _
  · intro requestId expiresAt found unexpired
    simp only [ServerRequests.pruneLateReplyTombstones, OrderedMap.get?_filter, found]
    simpa using unexpired
  · intro serial reply settled
    exact Or.inl settled

theorem receiveLate_keeps (requestId : String) :
    Keeps limit source stream (stream.receiveLate requestId) := by
  simp only [receiveLate]
  split
  · exact stream.prune_keeps
  · refine stream.prune_keeps.trans ?_
    exact closeStreamWithError_keeps _ _ _

theorem receiveAcknowledgment_keeps :
    Keeps limit source stream (stream.receiveAcknowledgment config data) := by
  rw [receiveAcknowledgment]
  split
  · exact stream.closeStreamWithError_keeps _ _
  · rename_i requestId _
    split
    · exact stream.closeStreamWithError_keeps _ _
    · split
      · rename_i queued found
        intro sound
        refine ⟨sound.acknowledge found, ?_⟩
        refine ⟨le_rfl, id, id, Or.inl, rfl, ?_, List.Sublist.refl _, ?_, List.Subset.refl _, ?_⟩
        · intro other request foundOther
          simp only [ServerRequests.acknowledge, OrderedMap.get?_set] at foundOther
          split at foundOther
          · rename_i same
            cases foundOther
            exact ⟨queued, by rw [same]; exact found, rfl⟩
          · exact ⟨request, foundOther, rfl⟩
        · intro other expiresAt foundOther _
          exact foundOther
        · intro serial reply settled
          exact Or.inl settled
      · exact stream.receiveLate_keeps _

theorem remove_keeps {requestId : String} {queued : QueuedRequest}
    (found : stream.serverRequests.queue.get? requestId = some queued)
    (outcome : InvokeOutcome Payload)
    (resolves : ∀ reply, outcome = .resolved reply →
      stream.Answers source queued.serial reply) :
    Keeps limit source stream { stream with
      serverRequests := { stream.serverRequests with
        queue := stream.serverRequests.queue.erase requestId }.conclude queued outcome } := by
  intro sound
  rcases sound.remove found outcome with ⟨removed, soundAfter⟩
  refine ⟨soundAfter, ?_⟩
  refine ⟨le_rfl, id, id, Or.inl, ?_, ?_, ?_, ?_, ?_, ?_⟩
  · simp only [removed]
  · intro other request foundOther
    simp only [removed, OrderedMap.get?_erase] at foundOther
    split at foundOther
    · cases foundOther
    · exact ⟨request, foundOther, rfl⟩
  · simp only [removed]
    exact List.Sublist.refl _
  · intro other expiresAt foundOther _
    simp only [removed]
    exact foundOther
  · simp only [removed]
    exact List.subset_cons_self _ _
  · intro serial reply settled
    simp only [removed, List.mem_cons, Prod.mk.injEq] at settled
    rcases settled with ⟨rfl, resolved⟩ | wasSettled
    · exact Or.inr (resolves reply resolved.symm)
    · exact Or.inl wasSettled

theorem receiveReply_keeps {data : Envelope Payload} {requestId : String}
    (isReply : data.reply = true) (named : data.requestId? = some requestId) :
    Keeps limit (some data) stream (stream.receiveReply data requestId) := by
  rw [receiveReply]
  split
  · exact stream.receiveLate_keeps _
  · rename_i queued found
    refine stream.remove_keeps found _ ?_
    intro reply resolved
    have same : data = reply := by
      rw [ServerRequests.replyOutcome] at resolved
      split at resolved
      · cases resolved
      · split at resolved
        · cases resolved
          rfl
        · cases resolved
    subst same
    exact ⟨rfl, isReply, requestId, queued, named, found, rfl⟩

theorem startHandler_keeps (turn : Turn) :
    Keeps limit source stream (stream.startHandler data retainedBytes turn) := by
  rw [startHandler]
  refine Keeps.trans ?_ (interrupted_keeps _ _)
  exact Keeps.of_eq rfl rfl id rfl

theorem receiveClientRequest_keeps (turn : Turn) :
    Keeps limit source stream (stream.receiveClientRequest config data retainedBytes turn) := by
  rw [receiveClientRequest]
  split
  · rw [queueClientRequest]
    split
    · exact stream.closeStreamWithError_keeps _ _
    · split
      · exact stream.closeStreamWithError_keeps _ _
      · exact Keeps.of_eq rfl rfl id rfl
  · rw [dispatchClientRequest]
    split
    · exact stream.closeStreamWithError_keeps _ _
    · split
      · exact stream.closeStreamWithError_keeps _ _
      · split
        · have written := @writeEncodedToStream_keeps _ config limit source stream
            (config.acknowledgmentBytes (data.requestId.getD "")) turn
          split
          · rename_i after failed
            rw [failed] at written
            exact written
          · rename_i after sent
            rw [sent] at written
            exact written.trans (after.startHandler_keeps data retainedBytes turn)
        · exact stream.startHandler_keeps data retainedBytes turn

theorem dispatchMessage_keeps (turn : Turn) :
    Keeps limit (some data) stream (stream.dispatchMessage config data retainedBytes turn) := by
  rw [dispatchMessage]
  split
  · exact stream.receiveAcknowledgment_keeps data
  · split
    · rw [receivePingPong]
      split
      · exact stream.writeEncodedToStream_keeps _ _
      · exact Keeps.refl stream
    · split
      · split
        · exact Keeps.refl stream
        · exact stream.closeStreamWithError_keeps _ _
      · split
        · exact stream.closeStreamWithError_keeps _ _
        · split
          · rename_i requestId isReply named
            exact stream.receiveReply_keeps isReply named
          · exact stream.receiveClientRequest_keeps data retainedBytes turn

theorem handleStreamDataReceived_keeps (turn : Turn) :
    Keeps limit (some data) stream
      (stream.handleStreamDataReceived config data retainedBytes turn) := by
  rw [handleStreamDataReceived]
  split
  · exact Keeps.refl stream
  · exact (stream.interrupted_keeps _).trans (dispatchMessage_keeps _ _ _ _)

theorem replay_keeps {messages : List ((Envelope Payload × ℕ) × Turn)}
    (areRequests : ∀ message ∈ messages, message.1.1.IsClientRequest) :
    Keeps limit none stream (stream.replay config messages) := by
  induction messages generalizing stream with
  | nil => exact Keeps.refl stream
  | cons message rest ih =>
      have isRequest := areRequests message List.mem_cons_self
      have restRequests : ∀ message ∈ rest, message.1.1.IsClientRequest :=
        fun other mem => areRequests other (List.mem_cons_of_mem _ mem)
      rw [replay]
      refine Keeps.trans ?_ (ih _ restRequests)
      rw [handleStreamDataReceived]
      split
      · exact Keeps.refl stream
      · rw [dispatchMessage_of_request isRequest]
        exact (stream.interrupted_keeps _).trans (receiveClientRequest_keeps _ _ _ _)

end Operations

/-- The request is queued, or it has an outcome and its bytes are released. -/
def Withdrawable (stream : ServerStream Payload) (requestId : String) (queued : QueuedRequest) :
    Prop :=
  stream.serverRequests.queue.get? requestId = some queued ∨
    stream.serverRequests.queue.get? requestId = none ∧
      queued.serial ∉ stream.serverRequests.retained ∧
      stream.serverRequests.Settled queued.serial

section Sending

variable {config : StreamConfig} {limit : ℕ} {source : Option (Envelope Payload)}
  {stream : ServerStream Payload} {requestId : String} {queued : QueuedRequest}

section

variable (sound : stream.serverRequests.Sound limit)
include sound

section

variable (found : stream.serverRequests.queue.get? requestId = some queued)
include found

theorem revokeStream_withdrawable (cause : DisconnectCause) :
    (stream.revokeStream cause).Withdrawable requestId queued := by
  rw [revokeStream]
  split
  · exact Or.inl found
  · have waits : stream.serverRequests.Waits queued.serial := ⟨requestId, queued, found, rfl⟩
    have issued := (sound.issued queued.serial).mpr (Or.inl waits)
    have after := (sound.rejectAll cause).issued queued.serial
    refine Or.inr ⟨rfl, ?_, ?_⟩
    · simp only [sound.rejectAll_eq cause]
      exact List.not_mem_nil
    · rcases after.mp (by simp only [sound.rejectAll_eq cause]; exact issued) with
        ⟨_, _, impossible, _⟩ | settled
      · cases impossible
      · exact settled

theorem interrupted_withdrawable (closes : Bool) :
    (stream.interrupted closes).Withdrawable requestId queued := by
  rw [interrupted]
  split
  · exact revokeStream_withdrawable sound found _
  · exact Or.inl found

theorem closeStreamWithError_withdrawable (cause : DisconnectCause) (message : String) :
    (stream.closeStreamWithError cause message).Withdrawable requestId queued := by
  rw [closeStreamWithError]
  split
  · exact Or.inl found
  · exact revokeStream_withdrawable sound found cause

theorem writeEncodedToStream_withdrawable (bytes : ℕ) (turn : Turn) :
    (stream.writeEncodedToStream config bytes turn).1.Withdrawable requestId queued := by
  rcases stream.writeEncodedToStream_cases config bytes turn with
    ⟨_, same | ⟨message, closed⟩⟩ | ⟨_, _, sent⟩
  · rw [same]
    exact Or.inl found
  · rw [closed]
    exact closeStreamWithError_withdrawable sound found _ message
  · rw [sent]
    exact interrupted_withdrawable sound found _

end

end

theorem withdraw_keeps (withdrawable : stream.Withdrawable requestId queued)
    {outcome : InvokeOutcome Payload} (unresolved : ∀ reply, outcome ≠ .resolved reply) :
    Keeps limit source stream { stream with
      serverRequests := { stream.serverRequests with
        queue := stream.serverRequests.queue.erase requestId }.conclude queued outcome } := by
  rcases withdrawable with found | ⟨absent, released, settled⟩
  · refine stream.remove_keeps found outcome ?_
    intro reply resolved
    exact absurd resolved (unresolved reply)
  · have erased := OrderedMap.erase_eq_self stream.serverRequests.queue absent
    have concluded := ServerRequests.conclude_of_settled released settled outcome
    refine Keeps.of_eq rfl rfl id ?_
    simp only [erased]
    exact concluded

theorem sendFailed_keeps (withdrawable : stream.Withdrawable requestId queued) :
    Keeps limit source stream
      { stream with serverRequests := stream.serverRequests.sendFailed requestId queued } :=
  withdraw_keeps withdrawable fun _ impossible => by cases impossible

theorem sendThrew_keeps (withdrawable : stream.Withdrawable requestId queued) :
    Keeps limit source stream
      { stream with serverRequests := stream.serverRequests.sendThrew requestId queued } := by
  have removed : stream.serverRequests.sendThrew requestId queued =
      { stream.serverRequests with
        queue := stream.serverRequests.queue.erase requestId }.conclude queued .threw := by
    rw [ServerRequests.sendThrew]
    split
    · rfl
    · rename_i differs
      rcases withdrawable with found | ⟨absent, _, _⟩
      · rw [found] at differs
        exact absurd rfl differs
      · rw [OrderedMap.erase_eq_self _ absent]
  rw [removed]
  exact withdraw_keeps withdrawable fun _ impossible => by cases impossible

theorem sendRequest_keeps (turn : Turn) (loggerThrows : Bool) :
    Keeps limit source
      { stream with serverRequests := stream.serverRequests.register requestId queued }
      (stream.sendRequest config requestId queued turn loggerThrows) := by
  intro sound
  let registered :=
    { stream with serverRequests := stream.serverRequests.register requestId queued }
  have found : registered.serverRequests.queue.get? requestId = some queued := by
    simp only [registered, ServerRequests.register, OrderedMap.get?_set, if_pos]
  have withdrawable := @writeEncodedToStream_withdrawable _ config limit registered requestId queued
    sound found queued.bytes turn
  have written := @writeEncodedToStream_keeps _ config limit source registered queued.bytes turn
  rw [sendRequest]
  split
  · rename_i after sent
    rw [sent] at withdrawable written
    split
    · exact written.trans (sendThrew_keeps withdrawable) sound
    · exact written sound
  · rename_i after failed
    rw [failed] at withdrawable written
    exact written.trans (sendFailed_keeps withdrawable) sound

theorem sendRequest_of_revoked (revoked : stream.revoked = true) (turn : Turn)
    (loggerThrows : Bool) :
    (stream.sendRequest config requestId queued turn loggerThrows).serverRequests.queue.get?
      requestId = none := by
  have refused : { stream with
      serverRequests := stream.serverRequests.register requestId queued }.writeEncodedToStream
        config queued.bytes turn =
      ({ stream with
        serverRequests := stream.serverRequests.register requestId queued }, false) := by
    rw [writeEncodedToStream, if_pos (Or.inl revoked)]
  rw [sendRequest, refused]
  simp only [ServerRequests.sendFailed, ServerRequests.conclude_queue, OrderedMap.get?_erase,
    if_pos]

end Sending

end ServerStream

namespace ServerRequests

variable {requests : ServerRequests Payload} {limit : ℕ} {requestId : String}
  {queued : QueuedRequest}

theorem abandon_eq_conclude (requests : ServerRequests Payload) (now ttlMs : ℤ)
    (requestId : String) (queued : QueuedRequest) :
    requests.abandon now ttlMs requestId queued =
      { requests with
        lateReplyTombstones :=
          (requests.addLateReplyTombstone now ttlMs requestId).lateReplyTombstones
        queue := requests.queue.erase requestId }.conclude queued .indeterminate := by
  simp only [abandon, addLateReplyTombstone, pruneLateReplyTombstones]

theorem Sound.abandon (sound : requests.Sound limit)
    (found : requests.queue.get? requestId = some queued) (now ttlMs : ℤ) :
    requests.abandon now ttlMs requestId queued =
        { requests with
          queue := requests.queue.erase requestId
          retained := requests.retained.erase queued.serial
          pendingServerRequestBytes := requests.pendingServerRequestBytes - queued.bytes
          lateReplyTombstones :=
            (requests.addLateReplyTombstone now ttlMs requestId).lateReplyTombstones
          settled := (queued.serial, .indeterminate) :: requests.settled } ∧
      (requests.abandon now ttlMs requestId queued).Sound limit := by
  rw [abandon_eq_conclude]
  generalize (requests.addLateReplyTombstone now ttlMs requestId).lateReplyTombstones = tombstones
  exact Sound.remove (sound.withTombstones tombstones) found .indeterminate

variable {history : List String}

section

variable (order : requests.lateReplyTombstones.keys.reverse.Sublist history)
include order

theorem keys_prune_set (fresh : requestId ∉ history) (now expiresAt : ℤ) :
    ((requests.pruneLateReplyTombstones now).lateReplyTombstones.set requestId
      expiresAt).keys.reverse.Sublist (requestId :: history) := by
  have pruned : (requests.pruneLateReplyTombstones now).lateReplyTombstones.keys.Sublist
      requests.lateReplyTombstones.keys := List.filter_sublist.map _
  have prunedOrder := pruned.reverse.trans order
  have absent : requestId ∉ (requests.pruneLateReplyTombstones now).lateReplyTombstones.keys :=
    fun mem => fresh (prunedOrder.subset (List.mem_reverse.mpr mem))
  rw [OrderedMap.keys_set_of_not_mem _ expiresAt absent, List.reverse_append]
  exact prunedOrder.cons_cons requestId

theorem keys_addLateReplyTombstone (fresh : requestId ∉ history) (now ttlMs : ℤ) :
    (requests.addLateReplyTombstone now ttlMs
      requestId).lateReplyTombstones.keys.reverse.Sublist (requestId :: history) := by
  refine List.Sublist.trans ?_ (keys_prune_set order fresh now (now + ttlMs))
  rw [List.reverse_sublist]
  simp only [addLateReplyTombstone, OrderedMap.keys, OrderedMap.entries_dropOldest_iterate]
  exact (List.drop_sublist _ _).map _

theorem get?_addLateReplyTombstone (fresh : requestId ∉ history) (nodup : history.Nodup)
    {now ttlMs expiresAt : ℤ} {position : ℕ} {other : String}
    (found : (requestId :: history)[position]? = some other)
    (recent : position < maxLateReplyTombstonesPerStream)
    (stored : ((requests.pruneLateReplyTombstones now).lateReplyTombstones.set requestId
      (now + ttlMs)).get? other = some expiresAt) :
    (requests.addLateReplyTombstone now ttlMs requestId).lateReplyTombstones.get? other =
      some expiresAt := by
  have once : (requestId :: history).Nodup := List.nodup_cons.mpr ⟨fresh, nodup⟩
  simp only [addLateReplyTombstone]
  exact OrderedMap.get?_evict once (keys_prune_set order fresh now (now + ttlMs)) found recent
    stored

end

end ServerRequests

namespace StreamHistory

variable {config : StreamConfig} {history : StreamHistory Payload} {event : StreamEvent Payload}

/-- The requests of a stream agree with the ids that were used and the requests that were
abandoned. -/
structure Correlated (config : StreamConfig) (history : StreamHistory Payload) : Prop where
  sound : history.stream.serverRequests.Sound config.limits.maxPendingServerRequestBytes
  invoked : history.requestIds.length = history.stream.serverRequests.invocations
  named : ∀ requestId queued,
    history.stream.serverRequests.queue.get? requestId = some queued →
    history.requestIds.reverse[queued.serial]? = some requestId
  waiting : ∀ requestId queued,
    history.stream.serverRequests.queue.get? requestId = some queued →
    requestId ∉ history.abandoned.map Prod.fst
  used : ∀ requestId ∈ history.abandoned.map Prod.fst, requestId ∈ history.requestIds
  once : (history.abandoned.map Prod.fst).Nodup
  order : history.stream.serverRequests.lateReplyTombstones.keys.reverse.Sublist
    (history.abandoned.map Prod.fst)
  present : ∀ position requestId time,
    history.abandoned[position]? = some (requestId, time) →
    position < ServerRequests.maxLateReplyTombstonesPerStream →
    history.stream.now < time + config.limits.lateReplyTombstoneTtlMs →
    history.stream.serverRequests.lateReplyTombstones.get? requestId =
      some (time + config.limits.lateReplyTombstoneTtlMs)

/-- Nothing is queued on a revoked stream. -/
def Closed (history : StreamHistory Payload) : Prop :=
  history.stream.revoked = true →
    ∀ requestId, history.stream.serverRequests.queue.get? requestId = none

namespace Correlated

section

variable (correlated : history.Correlated config) {requestId : String} {queued : QueuedRequest}
include correlated

theorem narrow {after : ServerStream Payload} {source : Option (Envelope Payload)}
    (keeps : ServerStream.Keeps config.limits.maxPendingServerRequestBytes source history.stream
      after) : { history with stream := after }.Correlated config := by
  rcases keeps correlated.sound with ⟨sound, narrows⟩
  refine ⟨sound, ?_, ?_, ?_, correlated.used, correlated.once, ?_, ?_⟩
  · exact correlated.invoked.trans narrows.invocations.symm
  · intro requestId queued found
    rcases narrows.queue requestId queued found with ⟨old, foundOld, same⟩
    rw [← same]
    exact correlated.named requestId old foundOld
  · intro requestId queued found
    rcases narrows.queue requestId queued found with ⟨old, foundOld, _⟩
    exact correlated.waiting requestId old foundOld
  · exact narrows.keys.reverse.trans correlated.order
  · intro position requestId time found recent unexpired
    refine narrows.kept requestId _ ?_ unexpired
    exact correlated.present position requestId time found recent
      (narrows.now.trans_lt unexpired)

theorem abandon (found : history.stream.serverRequests.queue.get? requestId = some queued) :
    Correlated config
      { history with
        stream := { history.stream with
          serverRequests := history.stream.serverRequests.abandon history.stream.now
            config.limits.lateReplyTombstoneTtlMs requestId queued }
        abandoned := (requestId, history.stream.now) :: history.abandoned } := by
  rcases correlated.sound.abandon found history.stream.now config.limits.lateReplyTombstoneTtlMs
    with ⟨abandoned, sound⟩
  have fresh := correlated.waiting requestId queued found
  have isUsed : requestId ∈ history.requestIds :=
    List.mem_reverse.mp (List.mem_of_getElem? (correlated.named requestId queued found))
  have remains : ∀ other request,
      (history.stream.serverRequests.queue.erase requestId).get? other = some request →
      other ≠ requestId ∧ history.stream.serverRequests.queue.get? other = some request := by
    intro other request foundOther
    rw [OrderedMap.get?_erase] at foundOther
    split at foundOther
    · cases foundOther
    · rename_i differs
      exact ⟨differs, foundOther⟩
  refine ⟨sound, ?_, ?_, ?_, ?_, ?_, ?_, ?_⟩
  · simp only [abandoned]
    exact correlated.invoked
  · intro other request foundOther
    simp only [abandoned] at foundOther
    exact correlated.named other request (remains other request foundOther).2
  · intro other request foundOther
    simp only [abandoned] at foundOther
    rcases remains other request foundOther with ⟨differs, wasFound⟩
    rw [List.map_cons, List.mem_cons, not_or]
    exact ⟨differs, correlated.waiting other request wasFound⟩
  · intro other mem
    rcases List.mem_cons.mp mem with rfl | old
    · exact isUsed
    · exact correlated.used other old
  · exact List.nodup_cons.mpr ⟨fresh, correlated.once⟩
  · simp only [abandoned]
    exact ServerRequests.keys_addLateReplyTombstone correlated.order fresh _ _
  · intro position other time foundOther recent unexpired
    simp only [abandoned]
    refine ServerRequests.get?_addLateReplyTombstone correlated.order fresh correlated.once
      ?_ recent ?_
    · have mapped := congrArg (Option.map Prod.fst) foundOther
      rw [← List.getElem?_map] at mapped
      exact mapped
    · rw [OrderedMap.get?_set]
      cases position with
      | zero =>
          cases Option.some.inj foundOther
          exact if_pos rfl
      | succ previous =>
          have isOld : history.abandoned[previous]? = some (other, time) := foundOther
          have differs : other ≠ requestId := by
            rintro rfl
            exact fresh (List.mem_map.mpr ⟨_, List.mem_of_getElem? isOld, rfl⟩)
          have stored := correlated.present previous other time isOld (by omega) unexpired
          rw [if_neg differs]
          simp only [ServerRequests.pruneLateReplyTombstones, OrderedMap.get?_filter, stored]
          simpa using unexpired

theorem named_of_cons {other : String} {request : QueuedRequest}
    (found : history.stream.serverRequests.queue.get? other = some request) :
    (requestId :: history.requestIds).reverse[request.serial]? = some other := by
  have named := correlated.named other request found
  rcases List.getElem?_eq_some_iff.mp named with ⟨bound, _⟩
  rw [List.reverse_cons, List.getElem?_append_left bound]
  exact named

theorem refuse (requestId : String) (outcome : InvokeOutcome Payload) :
    Correlated config
      ⟨{ history.stream with
          serverRequests := { history.stream.serverRequests with
            invocations := history.stream.serverRequests.invocations + 1 }.settle
              history.stream.serverRequests.invocations outcome },
        requestId :: history.requestIds, history.abandoned⟩ := by
  rcases correlated.sound.settleNew outcome with ⟨settles, sound⟩
  refine ⟨sound, ?_, ?_, ?_, ?_, correlated.once, ?_, ?_⟩
  · simp only [settles, List.length_cons, correlated.invoked]
  · intro other request found
    simp only [settles] at found
    exact correlated.named_of_cons found
  · intro other request found
    simp only [settles] at found
    exact correlated.waiting other request found
  · intro other mem
    exact List.mem_cons_of_mem _ (correlated.used other mem)
  · simp only [settles]
    exact correlated.order
  · intro position other time found recent unexpired
    simp only [settles]
    exact correlated.present position other time found recent unexpired

theorem register (fresh : requestId ∉ history.requestIds)
    (absent : history.stream.serverRequests.queue.get? requestId = none)
    (serial : queued.serial = history.stream.serverRequests.invocations)
    (fits : history.stream.serverRequests.pendingServerRequestBytes + queued.bytes ≤
      config.limits.maxPendingServerRequestBytes) :
    Correlated config
      ⟨{ history.stream with
          serverRequests := { history.stream.serverRequests with
            invocations := history.stream.serverRequests.invocations + 1 }.register requestId
              queued },
        requestId :: history.requestIds, history.abandoned⟩ := by
  refine ⟨correlated.sound.register absent serial fits, ?_, ?_, ?_, ?_, correlated.once,
    correlated.order, correlated.present⟩
  · simp only [ServerRequests.register, List.length_cons, correlated.invoked]
  · intro other request found
    simp only [ServerRequests.register, OrderedMap.get?_set] at found
    split at found
    · rename_i same
      cases found
      rw [List.reverse_cons, List.getElem?_append_right (by simp [serial, correlated.invoked])]
      simp [serial, correlated.invoked, same]
    · exact correlated.named_of_cons found
  · intro other request found
    simp only [ServerRequests.register, OrderedMap.get?_set] at found
    split at found
    · rename_i same
      rw [same]
      exact fun mem => fresh (correlated.used requestId mem)
    · exact correlated.waiting other request found
  · intro other mem
    exact List.mem_cons_of_mem _ (correlated.used other mem)

end

end Correlated

/-- What a step does to the server half of a stream. -/
inductive Effect (config : StreamConfig) (history : StreamHistory Payload)
    (event : StreamEvent Payload) : StreamHistory Payload → Prop where
  | narrowed {stream : ServerStream Payload} (source : Option (Envelope Payload))
      (isMessage : ∀ data, source = some data →
        ∃ retainedBytes turn, event = .receive data retainedBytes turn)
      (keeps : ServerStream.Keeps config.limits.maxPendingServerRequestBytes source history.stream
        stream) :
      Effect config history event { history with stream := stream }
  | timedOut {stream : ServerStream Payload} {requestId : String} {queued : QueuedRequest}
      (found : history.stream.serverRequests.queue.get? requestId = some queued)
      (keeps : ServerStream.Keeps config.limits.maxPendingServerRequestBytes none
        { history.stream with
          serverRequests := history.stream.serverRequests.abandon history.stream.now
            config.limits.lateReplyTombstoneTtlMs requestId queued } stream) :
      Effect config history event
        ⟨stream, history.requestIds, (requestId, history.stream.now) :: history.abandoned⟩
  | refused (requestId : String) {outcome : InvokeOutcome Payload}
      (unresolved : ∀ reply, outcome ≠ .resolved reply) :
      Effect config history event
        ⟨{ history.stream with
            serverRequests := { history.stream.serverRequests with
              invocations := history.stream.serverRequests.invocations + 1 }.settle
                history.stream.serverRequests.invocations outcome },
          requestId :: history.requestIds, history.abandoned⟩
  | sent {stream : ServerStream Payload} {requestId : String} {queued : QueuedRequest}
      (fresh : requestId ∉ history.requestIds)
      (absent : history.stream.serverRequests.queue.get? requestId = none)
      (serial : queued.serial = history.stream.serverRequests.invocations)
      (fits : history.stream.serverRequests.pendingServerRequestBytes + queued.bytes ≤
        config.limits.maxPendingServerRequestBytes)
      (keeps : ServerStream.Keeps config.limits.maxPendingServerRequestBytes none
        { history.stream with
          serverRequests := { history.stream.serverRequests with
            invocations := history.stream.serverRequests.invocations + 1 }.register requestId
              queued } stream)
      (withdrawn : history.stream.revoked = true →
        stream.serverRequests.queue.get? requestId = none) :
      Effect config history event
        ⟨stream, requestId :: history.requestIds, history.abandoned⟩

theorem invoke_effect {requestId : String} (fresh : requestId ∉ history.requestIds)
    (resultType : String) (encoded : Option ℕ) (timeoutMs : ℕ) (turn : Turn) (loggerThrows : Bool) :
    Effect config history event
      ⟨history.stream.invokeWithRequestId config requestId resultType encoded timeoutMs turn
        loggerThrows, requestId :: history.requestIds, history.abandoned⟩ := by
  simp only [ServerStream.invokeWithRequestId]
  split
  · exact .refused requestId fun _ impossible => by cases impossible
  · rename_i absent
    cases encoded with
    | none => exact .refused requestId fun _ impossible => by cases impossible
    | some bytes =>
        simp only
        split
        · exact .refused requestId fun _ impossible => by cases impossible
        · split
          · exact .refused requestId fun _ impossible => by cases impossible
          · rename_i fits
            let queued : QueuedRequest :=
              ⟨history.stream.serverRequests.invocations, resultType, bytes, timeoutMs, false⟩
            let invoking : ServerStream Payload := { history.stream with
              serverRequests := { history.stream.serverRequests with
                invocations := history.stream.serverRequests.invocations + 1 } }
            have serial : queued.serial = history.stream.serverRequests.invocations := rfl
            refine .sent fresh (by simpa using absent) serial (not_lt.mp fits) ?_ ?_
            · exact @ServerStream.sendRequest_keeps _ config _ none invoking requestId queued turn
                loggerThrows
            · intro revoked
              exact @ServerStream.sendRequest_of_revoked _ config invoking requestId queued revoked
                turn loggerThrows

theorem requestTimeout_effect (requestId : String) :
    Effect config history event
      { history with
        stream := history.stream.requestTimeout config requestId
        abandoned :=
          if (history.stream.serverRequests.queue.get? requestId).isSome then
            (requestId, history.stream.now) :: history.abandoned
          else history.abandoned } := by
  rw [ServerStream.requestTimeout]
  split
  · rename_i absent
    rw [absent]
    exact .narrowed none (fun _ impossible => by cases impossible) (.refl _)
  · rename_i queued found
    rw [found]
    refine .timedOut found ?_
    split
    · exact ServerStream.revokeStream_keeps _ _
    · exact .refl _

theorem advance_effect (admitted : history.stream.clientRequests.Admitted)
    (feasible : history.Feasible event) :
    Effect config history event (history.advance config event) := by
  cases event with
  | elapse time =>
      refine .narrowed none (fun _ impossible => by cases impossible) ?_
      intro sound
      refine ⟨sound, feasible, id, id, Or.inl, rfl, ?_, List.Sublist.refl _, ?_, List.Subset.refl _,
        ?_⟩
      · intro requestId queued found
        exact ⟨queued, found, rfl⟩
      · intro requestId expiresAt found _
        exact found
      · intro serial reply settled
        exact Or.inl settled
  | receive data retainedBytes turn =>
      refine .narrowed (some data) ?_ (ServerStream.handleStreamDataReceived_keeps _ _ _ _)
      intro message same
      cases same
      exact ⟨retainedBytes, turn, rfl⟩
  | activate =>
      exact .narrowed none (fun _ impossible => by cases impossible)
        (.of_eq rfl rfl (fun _ => rfl) rfl)
  | openClientRequests turns =>
      refine .narrowed none (fun _ impossible => by cases impossible) ?_
      refine ServerStream.Keeps.trans ?_ (ServerStream.replay_keeps _ ?_)
      · exact .of_eq rfl rfl id rfl
      · intro message mem
        exact admitted.queued message.1 (List.of_mem_zip mem).1
  | handlerFinished retainedBytes =>
      exact .narrowed none (fun _ impossible => by cases impossible) (.of_eq rfl rfl id rfl)
  | invoke requestId resultType encoded timeoutMs turn loggerThrows =>
      exact invoke_effect feasible resultType encoded timeoutMs turn loggerThrows
  | requestTimeout requestId => exact requestTimeout_effect requestId
  | write bytes turn =>
      exact .narrowed none (fun _ impossible => by cases impossible)
        (ServerStream.writeEncodedToStream_keeps _ bytes turn)
  | revoke cause =>
      exact .narrowed none (fun _ impossible => by cases impossible)
        (ServerStream.revokeStream_keeps _ cause)

end StreamHistory

end ServerFoundation.Srpc
