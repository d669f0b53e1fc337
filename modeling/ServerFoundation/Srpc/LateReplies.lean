import ServerFoundation.Srpc.RequestCorrelation

/-!
# Runs of server requests

The accounting and the correlation hold in every state of every run of a stream. A
receipt or a reply that arrives after its request timed out finds the tombstone of
the request, so it is dropped; all it does is to prune the tombstones that have
expired.
-/

namespace ServerFoundation.Srpc

variable {Payload : Type}

/-- The message is a receipt for the request. -/
structure Envelope.IsReceiptFor (data : Envelope Payload) (requestId : String) : Prop where
  acknowledges : data.isSrpcRequestAcknowledgment = true
  named : data.requestId? = some requestId

/-- The message is a reply to the request. -/
structure Envelope.IsReplyTo (data : Envelope Payload) (requestId : String) : Prop where
  notAcknowledgment : data.requestAck = false
  notPingPong : data.pingPong = none
  notByteStream : data.byteStreamOperation = none
  isReply : data.reply = true
  named : data.requestId? = some requestId

namespace ServerStream

variable {config : StreamConfig} (stream : ServerStream Payload) {data : Envelope Payload}
  {requestId : String}

theorem dispatchMessage_of_acknowledgment (isReceipt : data.IsReceiptFor requestId)
    (version : 4 ≤ config.protocolVersion) (retainedBytes : ℕ) (turn : Turn) :
    stream.dispatchMessage config data retainedBytes turn =
      match stream.serverRequests.queue.get? requestId with
      | some queued =>
          { stream with serverRequests := stream.serverRequests.acknowledge requestId queued }
      | none => stream.receiveLate requestId := by
  have acknowledges := isReceipt.acknowledges
  have isAcknowledgment : data.requestAck = true := by
    simp only [Envelope.isSrpcRequestAcknowledgment, Bool.and_eq_true] at acknowledges
    exact acknowledges.1.1.1.1.1.1.1
  rw [dispatchMessage, if_pos isAcknowledgment, receiveAcknowledgment, isReceipt.named]
  have valid : ¬(config.protocolVersion < 4 ∨ data.isSrpcRequestAcknowledgment = false) := by
    rintro (old | invalid)
    · exact absurd version (not_le.mpr old)
    · cases invalid.symm.trans acknowledges
  exact if_neg valid

theorem dispatchMessage_of_receipt (isReceipt : data.IsReceiptFor requestId)
    (version : 4 ≤ config.protocolVersion)
    (absent : stream.serverRequests.queue.get? requestId = none) (retainedBytes : ℕ)
    (turn : Turn) :
    stream.dispatchMessage config data retainedBytes turn = stream.receiveLate requestId := by
  rw [dispatchMessage_of_acknowledgment stream isReceipt version, absent]

theorem dispatchMessage_of_reply (isReply : data.IsReplyTo requestId)
    (absent : stream.serverRequests.queue.get? requestId = none) (retainedBytes : ℕ)
    (turn : Turn) :
    stream.dispatchMessage config data retainedBytes turn = stream.receiveLate requestId := by
  rw [dispatchMessage, if_neg (by simp [isReply.notAcknowledgment]), isReply.notPingPong]
  simp only [isReply.notByteStream, Option.isSome_none, Bool.false_eq_true, if_false]
  rw [if_neg (by simp [isReply.named]), isReply.isReply, isReply.named]
  simp only [receiveReply, absent]

theorem receiveLate_of_tombstone {expiresAt : ℤ}
    (found : stream.serverRequests.lateReplyTombstones.get? requestId = some expiresAt)
    (unexpired : stream.now < expiresAt) :
    stream.receiveLate requestId = { stream with
      serverRequests := stream.serverRequests.pruneLateReplyTombstones stream.now } := by
  have isLate : stream.serverRequests.isLateReply stream.now requestId = true := by
    simp only [ServerRequests.isLateReply, ServerRequests.pruneLateReplyTombstones,
      OrderedMap.get?_filter, found]
    simp [unexpired]
  simp only [receiveLate]
  rw [if_pos isLate]

end ServerStream

namespace StreamHistory

variable {config : StreamConfig} {history after : StreamHistory Payload}
  {event : StreamEvent Payload} {requestId : String} {data : Envelope Payload}

namespace Effect

section

variable (effect : Effect config history event after)
include effect

section

variable (wasCorrelated : history.Correlated config)
include wasCorrelated

theorem correlated : after.Correlated config := by
  cases effect with
  | narrowed source isMessage keeps => exact wasCorrelated.narrow keeps
  | timedOut found keeps => exact (wasCorrelated.abandon found).narrow keeps
  | refused requestId unresolved => exact wasCorrelated.refuse requestId _
  | sent fresh absent serial fits keeps withdrawn =>
      exact (wasCorrelated.register fresh absent serial fits).narrow keeps

theorem closed (wasClosed : history.Closed) : after.Closed := by
  intro isRevoked requestId
  rw [Option.eq_none_iff_forall_ne_some]
  intro queued found
  cases effect with
  | narrowed source isMessage keeps =>
      have narrows := (keeps wasCorrelated.sound).2
      rcases narrows.closed isRevoked with wasRevoked | empty
      · rcases narrows.queue requestId queued found with ⟨old, foundOld, _⟩
        cases (wasClosed wasRevoked requestId).symm.trans foundOld
      · cases (empty requestId).symm.trans found
  | timedOut foundFirst keeps =>
      have narrows := (keeps (wasCorrelated.abandon foundFirst).sound).2
      rcases narrows.closed isRevoked with wasRevoked | empty
      · cases (wasClosed wasRevoked _).symm.trans foundFirst
      · cases (empty requestId).symm.trans found
  | refused otherId unresolved =>
      simp only [(wasCorrelated.sound.settleNew _).1] at found
      cases (wasClosed isRevoked requestId).symm.trans found
  | @sent stream newId request fresh absent serial fits keeps withdrawn =>
      have narrows := (keeps (wasCorrelated.register fresh absent serial fits).sound).2
      rcases narrows.closed isRevoked with wasRevoked | empty
      · by_cases same : requestId = newId
        · subst same
          cases (withdrawn wasRevoked).symm.trans found
        · rcases narrows.queue requestId queued found with ⟨old, foundOld, _⟩
          simp only [ServerRequests.register, OrderedMap.get?_set, if_neg same] at foundOld
          cases (wasClosed wasRevoked requestId).symm.trans foundOld
      · cases (empty requestId).symm.trans found

theorem settled : history.stream.serverRequests.settled ⊆ after.stream.serverRequests.settled := by
  cases effect with
  | narrowed source isMessage keeps => exact (keeps wasCorrelated.sound).2.settled
  | timedOut found keeps =>
      refine List.Subset.trans ?_ (keeps (wasCorrelated.abandon found).sound).2.settled
      simp only [(wasCorrelated.sound.abandon found _ _).1]
      exact List.subset_cons_self _ _
  | refused requestId unresolved =>
      simp only [(wasCorrelated.sound.settleNew _).1]
      exact List.subset_cons_self _ _
  | sent fresh absent serial fits keeps withdrawn =>
      exact (keeps (wasCorrelated.register fresh absent serial fits).sound).2.settled

theorem activated (wasActivated : history.stream.isActivated = true) :
    after.stream.isActivated = true := by
  cases effect with
  | narrowed source isMessage keeps =>
      exact (keeps wasCorrelated.sound).2.activated wasActivated
  | timedOut found keeps =>
      exact (keeps (wasCorrelated.abandon found).sound).2.activated wasActivated
  | refused requestId unresolved => exact wasActivated
  | sent fresh absent serial fits keeps withdrawn =>
      exact (keeps (wasCorrelated.register fresh absent serial fits).sound).2.activated wasActivated

theorem resolved {serial : ℕ} {reply : Envelope Payload}
    (isResolved : (serial, .resolved reply) ∈ after.stream.serverRequests.settled) :
    (serial, .resolved reply) ∈ history.stream.serverRequests.settled ∨
      (∃ retainedBytes turn, event = .receive reply retainedBytes turn) ∧
        history.stream.Answers (some reply) serial reply := by
  cases effect with
  | narrowed source isMessage keeps =>
      rcases (keeps wasCorrelated.sound).2.resolved serial reply isResolved with old | answers
      · exact Or.inl old
      · refine Or.inr ⟨isMessage reply answers.1, ?_⟩
        exact ⟨rfl, answers.2⟩
  | timedOut found keeps =>
      rcases (keeps (wasCorrelated.abandon found).sound).2.resolved serial reply isResolved with
        old | answers
      · simp only [(wasCorrelated.sound.abandon found _ _).1, List.mem_cons] at old
        rcases old with impossible | wasResolved
        · cases impossible
        · exact Or.inl wasResolved
      · cases answers.1
  | refused requestId unresolved =>
      simp only [(wasCorrelated.sound.settleNew _).1, List.mem_cons, Prod.mk.injEq] at isResolved
      rcases isResolved with ⟨_, impossible⟩ | wasResolved
      · exact absurd impossible.symm (unresolved reply)
      · exact Or.inl wasResolved
  | sent fresh absent newSerial fits keeps withdrawn =>
      rcases (keeps (wasCorrelated.register fresh absent newSerial fits).sound).2.resolved serial
        reply isResolved with old | answers
      · exact Or.inl old
      · cases answers.1

end

end

end Effect

theorem initial_correlated (now : ℤ) : (initial now : StreamHistory Payload).Correlated config where
  sound := ServerRequests.Sound.empty _
  invoked := rfl
  named _ _ found := by cases found
  waiting _ _ found := by cases found
  used _ mem := by cases mem
  once := List.nodup_nil
  order := List.Sublist.refl _
  present position _ _ found := by simp [initial] at found

theorem reachable_correlated (reachable : (system config).Reachable history) :
    history.Correlated config ∧ history.Closed := by
  refine reachable.invariant (fun history => history.Correlated config ∧ history.Closed) ?_ ?_
  · rintro _ ⟨now, rfl⟩
    exact ⟨initial_correlated now, fun impossible => by cases impossible⟩
  · rintro before event _ reached ⟨wasCorrelated, wasClosed⟩ ⟨feasible, rfl⟩
    have effect : Effect config before event (before.advance config event) :=
      advance_effect (reachable_admitted reached) feasible
    exact ⟨effect.correlated wasCorrelated, effect.closed wasCorrelated wasClosed⟩

theorem requestTimeout_settles (correlated : history.Correlated config) {queued : QueuedRequest}
    (found : history.stream.serverRequests.queue.get? requestId = some queued) :
    (queued.serial, .indeterminate) ∈
      (history.advance config (.requestTimeout requestId)).stream.serverRequests.settled := by
  have abandoned := correlated.sound.abandon found history.stream.now
    config.limits.lateReplyTombstoneTtlMs
  have isSettled : (queued.serial, .indeterminate) ∈
      (history.stream.serverRequests.abandon history.stream.now
        config.limits.lateReplyTombstoneTtlMs requestId queued).settled := by
    rw [abandoned.1]
    exact List.mem_cons_self
  simp only [advance, ServerStream.requestTimeout, found]
  split
  · have keeps := @ServerStream.revokeStream_keeps _ _ none { history.stream with
      serverRequests := history.stream.serverRequests.abandon history.stream.now
        config.limits.lateReplyTombstoneTtlMs requestId queued } .timeout abandoned.2
    exact keeps.2.settled isSettled
  · exact isSettled

theorem receive_late (correlated : history.Correlated config) {position : ℕ} {time : ℤ}
    (found : history.abandoned[position]? = some (requestId, time))
    (recent : position < ServerRequests.maxLateReplyTombstonesPerStream)
    (unexpired : history.stream.now < time + config.limits.lateReplyTombstoneTtlMs)
    (isLate : data.IsReceiptFor requestId ∧ 4 ≤ config.protocolVersion ∨
      data.IsReplyTo requestId) (retainedBytes : ℕ) (turn : Turn) :
    history.stream.dispatchMessage config data retainedBytes turn = { history.stream with
      serverRequests :=
        history.stream.serverRequests.pruneLateReplyTombstones history.stream.now } := by
  have absent : history.stream.serverRequests.queue.get? requestId = none := by
    rw [Option.eq_none_iff_forall_ne_some]
    intro queued isQueued
    refine correlated.waiting requestId queued isQueued ?_
    exact List.mem_map.mpr ⟨_, List.mem_of_getElem? found, rfl⟩
  have tombstone := correlated.present position requestId time found recent unexpired
  have late := history.stream.receiveLate_of_tombstone tombstone unexpired
  rcases isLate with ⟨isReceipt, version⟩ | isReply
  · exact (history.stream.dispatchMessage_of_receipt isReceipt version absent _ _).trans late
  · exact (history.stream.dispatchMessage_of_reply isReply absent _ _).trans late

/-- The event is the arrival of a reply that carries the id of this invocation, which waits. -/
def Resolves (history : StreamHistory Payload) (event : StreamEvent Payload) (serial : ℕ)
    (reply : Envelope Payload) : Prop :=
  (∃ retainedBytes turn, event = .receive reply retainedBytes turn) ∧ reply.reply = true ∧
    ∃ requestId queued, reply.requestId? = some requestId ∧
      history.requestIds.reverse[serial]? = some requestId ∧
      history.stream.serverRequests.queue.get? requestId = some queued ∧ queued.serial = serial

/-- The stream after the observers of a message, without the tombstones that have expired. -/
def observedAndPruned (history : StreamHistory Payload) (turn : Turn) : ServerStream Payload :=
  { history.stream.interrupted turn.observerCloses with
    serverRequests := (history.stream.interrupted
      turn.observerCloses).serverRequests.pruneLateReplyTombstones history.stream.now }

theorem handleStreamDataReceived_late (correlated : history.Correlated config) {position : ℕ}
    {time : ℤ} (found : history.abandoned[position]? = some (requestId, time))
    (recent : position < ServerRequests.maxLateReplyTombstonesPerStream)
    (unexpired : history.stream.now < time + config.limits.lateReplyTombstoneTtlMs)
    (isLate : data.IsReceiptFor requestId ∧ 4 ≤ config.protocolVersion ∨
      data.IsReplyTo requestId) (retainedBytes : ℕ) (turn : Turn) :
    history.stream.handleStreamDataReceived config data retainedBytes turn =
      if history.stream.revoked then history.stream else history.observedAndPruned turn := by
  have now : (history.stream.interrupted turn.observerCloses).now = history.stream.now := by
    rw [ServerStream.interrupted]
    split
    · rw [ServerStream.revokeStream]
      split <;> rfl
    · rfl
  rw [ServerStream.handleStreamDataReceived]
  split
  · rfl
  · have observed := correlated.narrow
      (@ServerStream.interrupted_keeps _ _ none history.stream turn.observerCloses)
    have received := receive_late observed found recent (by rw [now]; exact unexpired) isLate
      retainedBytes turn
    refine received.trans ?_
    rw [observedAndPruned, ← now]

/-- Every invocation is settled once, by a reply to its own request if it is resolved; late messages
for abandoned requests are dropped. -/
theorem server_requests_correlated (config : StreamConfig) (history : StreamHistory Payload)
    (reachable : (system config).Reachable history) :
    ((history.stream.serverRequests.settled.map Prod.fst).Nodup ∧
      ∀ serial < history.stream.serverRequests.invocations,
        Xor (history.stream.serverRequests.Waits serial)
          (history.stream.serverRequests.Settled serial)) ∧
    (∀ requestId queued, history.stream.serverRequests.queue.get? requestId = some queued →
      (queued.serial, .indeterminate) ∈
        (history.advance config (.requestTimeout requestId)).stream.serverRequests.settled) ∧
    (∀ event, history.Feasible event →
      history.stream.serverRequests.settled ⊆
          (history.advance config event).stream.serverRequests.settled ∧
        ∀ serial reply,
          (serial, .resolved reply) ∈
            (history.advance config event).stream.serverRequests.settled →
          (serial, .resolved reply) ∈ history.stream.serverRequests.settled ∨
            history.Resolves event serial reply) ∧
    (history.stream.serverRequests.pendingServerRequestBytes =
        history.stream.serverRequests.queue.total QueuedRequest.bytes ∧
      history.stream.serverRequests.pendingServerRequestBytes ≤
        config.limits.maxPendingServerRequestBytes) ∧
    (history.stream.revoked = true →
      history.stream.serverRequests.queue.size = 0 ∧
        history.stream.serverRequests.pendingServerRequestBytes = 0) ∧
    (∀ position requestId time, history.abandoned[position]? = some (requestId, time) →
      position < ServerRequests.maxLateReplyTombstonesPerStream →
      history.stream.now < time + config.limits.lateReplyTombstoneTtlMs →
      ∀ (data : Envelope Payload),
        data.IsReceiptFor requestId ∧ 4 ≤ config.protocolVersion ∨ data.IsReplyTo requestId →
      ∀ retainedBytes turn,
        history.stream.handleStreamDataReceived config data retainedBytes turn =
          if history.stream.revoked then history.stream else history.observedAndPruned turn) := by
  rcases reachable_correlated reachable with ⟨correlated, closed⟩
  have sound := correlated.sound
  refine ⟨⟨sound.once, ?_⟩, ?_, ?_, ⟨sound.bytes, sound.bounded⟩, ?_, ?_⟩
  · intro serial isIssued
    rcases (sound.issued serial).mp isIssued with waits | settled
    · exact Or.inl ⟨waits, sound.exclusive serial waits⟩
    · exact Or.inr ⟨settled, fun waits => sound.exclusive serial waits settled⟩
  · intro requestId queued found
    exact requestTimeout_settles correlated found
  · intro event feasible
    have effect : Effect config history event (history.advance config event) :=
      advance_effect (reachable_admitted reachable) feasible
    refine ⟨effect.settled correlated, ?_⟩
    intro serial reply resolved
    rcases effect.resolved correlated resolved with old | ⟨isMessage, _, isReply, answers⟩
    · exact Or.inl old
    · rcases answers with ⟨requestId, queued, named, found, rfl⟩
      refine Or.inr ⟨isMessage, isReply, requestId, queued, named, ?_, found, rfl⟩
      exact correlated.named requestId queued found
  · intro revoked
    have empty : history.stream.serverRequests.queue.size = 0 :=
      (OrderedMap.size_eq_zero_iff _).mpr (closed revoked)
    refine ⟨empty, ?_⟩
    rw [sound.bytes]
    exact OrderedMap.total_eq_zero_of_size _ _ empty
  · intro position requestId time found recent unexpired data isLate retainedBytes turn
    exact handleStreamDataReceived_late correlated found recent unexpired isLate retainedBytes turn

section Sample

/-- Two requests time out, and the tombstone of the first one expires. -/
def twoTimeouts : List (StreamEvent Unit) :=
  [.invoke "a" "uPingResponse" (some 64) 1000 ServerStream.quietTurn false, .requestTimeout "a",
    .elapse 30000,
    .invoke "b" "uPingResponse" (some 64) 1000 ServerStream.quietTurn false, .requestTimeout "b",
    .elapse 60001]

/-- The stream behind two timeouts. -/
def afterTwoTimeouts : StreamHistory Unit :=
  twoTimeouts.foldl (advance ServerStream.defaultConfig) (initial 0)

theorem afterTwoTimeouts_reachable :
    (system ServerStream.defaultConfig).Reachable afterTwoTimeouts := by
  have started : (system ServerStream.defaultConfig).Reachable
      (initial 0 : StreamHistory Unit) := .start ⟨0, rfl⟩
  exact started.follow _ _ (fun _ _ feasible => ⟨feasible, rfl⟩)
    (by decide +kernel : TransitionSystem.Follows _ Feasible _ twoTimeouts)

/-- The reply to the second request. -/
def lateReply : Envelope Unit :=
  ⟨some "b", true, none, none, false, none, none, [("uPingResponse", some ())]⟩

theorem lateReply_isReplyTo : lateReply.IsReplyTo "b" :=
  ⟨rfl, rfl, rfl, rfl, by decide⟩

theorem server_requests_correlated_after_timeouts :
    afterTwoTimeouts.abandoned[0]? = some ("b", 30000) ∧
      afterTwoTimeouts.stream.handleStreamDataReceived ServerStream.defaultConfig lateReply 64
          ServerStream.quietTurn =
        if afterTwoTimeouts.stream.revoked then afterTwoTimeouts.stream
        else afterTwoTimeouts.observedAndPruned ServerStream.quietTurn := by
  have found : afterTwoTimeouts.abandoned[0]? = some ("b", 30000) := by decide +kernel
  refine ⟨found, ?_⟩
  exact (server_requests_correlated ServerStream.defaultConfig afterTwoTimeouts
    afterTwoTimeouts_reachable).2.2.2.2.2 0 "b" 30000 found (by decide) (by decide +kernel)
    lateReply (Or.inr lateReply_isReplyTo) 64 ServerStream.quietTurn

/-- A late reply prunes the tombstone of another request, so the state changes. -/
theorem late_reply_changes_tombstones :
    (system ServerStream.defaultConfig).Reachable afterTwoTimeouts ∧
      afterTwoTimeouts.abandoned[0]? = some ("b", 30000) ∧
      afterTwoTimeouts.stream.now <
        30000 + (ServerStream.defaultConfig.limits.lateReplyTombstoneTtlMs : ℤ) ∧
      lateReply.IsReplyTo "b" ∧ afterTwoTimeouts.stream.revoked = false ∧
      afterTwoTimeouts.stream.handleStreamDataReceived ServerStream.defaultConfig lateReply 64
        ServerStream.quietTurn ≠ afterTwoTimeouts.stream := by
  refine ⟨afterTwoTimeouts_reachable, by decide +kernel, by decide +kernel, lateReply_isReplyTo,
    by decide +kernel, ?_⟩
  intro same
  have keys := congrArg
    (fun stream : ServerStream Unit => stream.serverRequests.lateReplyTombstones.keys) same
  exact absurd keys (by decide +kernel)

end Sample

end StreamHistory

end ServerFoundation.Srpc
