import ServerFoundation.Srpc.ClientFrames

/-!
# Receipts and replies

For each request of a generation the client writes nothing, a receipt, a reply, or a
receipt and then a reply. A message that is still handled has no reply yet, and one
whose receipt timer is pending has no receipt either. A receipt that arrives at the
server names a request of the stream, so it is taken while the request is queued
and dropped while the request has its tombstone.
-/

namespace ServerFoundation.Srpc

variable {Payload : Type}

/-- What a client writes about a request. -/
inductive Answer where
  | receipt
  | reply
deriving DecidableEq, Repr

/-- What the frame says about this request. -/
def Envelope.answer? (data : Envelope Payload) (requestId : String) : Option Answer :=
  if data.requestId? = some requestId then
    if data.requestAck then some .receipt else if data.reply then some .reply else none
  else none

namespace ClientSession

variable {data : Envelope Payload}

/-- The receipts and replies of a request, in order. -/
def exchange (client : ClientSession Payload) (generation : ℕ) (requestId : String) :
    List Answer :=
  (client.sent generation).filterMap fun data => data.answer? requestId

section Exchange

variable {client after : ClientSession Payload} {generation : ℕ} {requestId : String}

theorem Calm.exchange (calm : Calm client after) (generation : ℕ) (requestId : String) :
    after.exchange generation requestId = client.exchange generation requestId := by
  rcases calm.plain generation with ⟨frames, sent, plain⟩
  have silent : frames.filterMap (fun data => data.answer? requestId) = [] := by
    rw [List.filterMap_eq_nil_iff]
    intro data mem
    rcases plain data mem with ⟨notReceipt, notReply⟩
    simp [Envelope.answer?, notReceipt, notReply]
  rw [ClientSession.exchange, sent, List.filterMap_append, silent, List.append_nil]
  rfl

theorem exchange_send_of_ne {other : ℕ} (differs : other ≠ generation)
    (message : Envelope Payload) :
    (client.send generation message).exchange other requestId =
      client.exchange other requestId := by
  simp only [exchange, send, Function.update_of_ne differs]

theorem exchange_send (message : Envelope Payload) :
    (client.send generation message).exchange generation requestId =
      client.exchange generation requestId ++ (message.answer? requestId).toList := by
  simp only [exchange, send, Function.update_self, List.filterMap_append]
  cases answers : message.answer? requestId with
  | none => simp [answers]
  | some answer => simp [answers]

end Exchange

section Answers

variable {requestId : String} (nonempty : requestId ≠ "")

include nonempty

theorem answer?_receiptFor (other : String) :
    (Envelope.receiptFor requestId : Envelope Payload).answer? other =
      if requestId = other then some .receipt else none := by
  have named : (Envelope.receiptFor requestId : Envelope Payload).requestId? = some requestId := by
    simp [Envelope.requestId?, Envelope.receiptFor, nonempty]
  rw [Envelope.answer?, named]
  simp [Envelope.receiptFor]

theorem answer?_replyTo (error : Option String) (userError : Option Bool)
    (fields : List (String × Option Payload)) (other : String) :
    (Envelope.replyTo requestId error userError fields).answer? other =
      if requestId = other then some .reply else none := by
  have named : (Envelope.replyTo requestId error userError fields).requestId? = some requestId := by
    simp [Envelope.requestId?, Envelope.replyTo, nonempty]
  rw [Envelope.answer?, named]
  simp [Envelope.replyTo]

end Answers

theorem requestId?_eq_some {requestId : String} (named : data.requestId? = some requestId) :
    data.requestId.getD "" = requestId ∧ requestId ≠ "" := by
  rw [Envelope.requestId?, Option.filter_eq_some_iff] at named
  rw [named.1]
  exact ⟨rfl, by simpa using named.2⟩

theorem notNotification_of_named {requestId : String} (named : data.requestId? = some requestId) :
    data.isSrpcNotification = false := by
  simp [Envelope.isSrpcNotification, named]

/-- The messages that are handled and the frames that were written agree with the requests that
have arrived in each generation. -/
structure Served (requests : ℕ → List String) (client : ClientSession Payload) : Prop where
  keys : ∀ key message, client.handled.get? key = some message → key < client.nextHandled
  requested : ∀ key message requestId, client.handled.get? key = some message →
    message.data.requestId? = some requestId → requestId ∈ requests message.generation
  distinct : ∀ key other message second requestId, client.handled.get? key = some message →
    client.handled.get? other = some second → message.generation = second.generation →
    message.data.requestId? = some requestId → second.data.requestId? = some requestId →
    key = other
  timed : ∀ key message, client.handled.get? key = some message → message.timer = true →
    ∃ requestId, message.data.requestId? = some requestId ∧
      client.exchange message.generation requestId = []
  unanswered : ∀ key message requestId, client.handled.get? key = some message →
    message.data.requestId? = some requestId →
    client.exchange message.generation requestId = [] ∨
      client.exchange message.generation requestId = [.receipt]
  identified : ∀ key message, client.handled.get? key = some message →
    message.data.isSrpcNotification = false → message.data.requestId?.isSome = true
  unknown : ∀ generation requestId, requestId ∉ requests generation →
    client.exchange generation requestId = []
  ordered : ∀ generation requestId,
    client.exchange generation requestId ∈ [[], [.receipt], [.reply], [.receipt, .reply]]
  receipts : ∀ generation, ∀ data ∈ client.sent generation, data.requestAck = true →
    ∃ requestId ∈ requests generation, requestId ≠ "" ∧ data = .receiptFor requestId

namespace Served

variable {requests : ℕ → List String} {config : ClientConfig}
  {client after : ClientSession Payload}

theorem initial (requests : ℕ → List String) :
    (ClientSession.initial : ClientSession Payload).Served requests where
  keys _ _ found := by cases found
  requested _ _ _ found := by cases found
  distinct _ _ _ _ _ found := by cases found
  timed _ _ found := by cases found
  unanswered _ _ _ found := by cases found
  identified _ _ found := by cases found
  unknown _ _ _ := rfl
  ordered _ _ := List.mem_cons_self
  receipts _ _ mem := by cases mem

section

variable (served : client.Served requests) {more : ℕ → List String}
include served

theorem mono (grows : ∀ generation, requests generation ⊆ more generation) :
    client.Served more where
  keys := served.keys
  requested key message requestId found named :=
    grows _ (served.requested key message requestId found named)
  distinct := served.distinct
  timed := served.timed
  unanswered := served.unanswered
  identified := served.identified
  unknown generation requestId absent :=
    served.unknown generation requestId fun mem => absent (grows generation mem)
  ordered := served.ordered
  receipts generation data mem isReceipt := by
    rcases served.receipts generation data mem isReceipt with ⟨requestId, arrived, rest⟩
    exact ⟨requestId, grows generation arrived, rest⟩

theorem calm (isCalm : Calm client after) : after.Served requests := by
  refine ⟨?_, ?_, ?_, ?_, ?_, ?_, ?_, ?_, ?_⟩
  · intro key message found
    rcases isCalm.handled key message found with ⟨old, foundOld, _⟩
    rw [isCalm.nextHandled]
    exact served.keys key old foundOld
  · intro key message requestId found named
    rcases isCalm.handled key message found with ⟨old, foundOld, generation, data, _⟩
    rw [← generation]
    rw [← data] at named
    exact served.requested key old requestId foundOld named
  · intro key other message second requestId found foundOther same named namedOther
    rcases isCalm.handled key message found with ⟨old, foundOld, generation, data, _⟩
    rcases isCalm.handled other second foundOther with
      ⟨oldSecond, foundSecond, generationSecond, dataSecond, _⟩
    rw [← data] at named
    rw [← dataSecond] at namedOther
    rw [← generation, ← generationSecond] at same
    exact served.distinct key other old oldSecond requestId foundOld foundSecond same named
      namedOther
  · intro key message found isPending
    rcases isCalm.handled key message found with ⟨old, foundOld, generation, data, timer⟩
    rcases served.timed key old foundOld (timer isPending) with ⟨requestId, named, silent⟩
    rw [data] at named
    refine ⟨requestId, named, ?_⟩
    rw [isCalm.exchange, ← generation]
    exact silent
  · intro key message requestId found named
    rcases isCalm.handled key message found with ⟨old, foundOld, generation, data, _⟩
    rw [← data] at named
    rw [isCalm.exchange, ← generation]
    exact served.unanswered key old requestId foundOld named
  · intro key message found notNotification
    rcases isCalm.handled key message found with ⟨old, foundOld, _, data, _⟩
    rw [← data] at notNotification ⊢
    exact served.identified key old foundOld notNotification
  · intro generation requestId absent
    rw [isCalm.exchange]
    exact served.unknown generation requestId absent
  · intro generation requestId
    rw [isCalm.exchange]
    exact served.ordered generation requestId
  · intro generation data mem isReceipt
    rcases isCalm.plain generation with ⟨frames, sent, plain⟩
    rw [sent, List.mem_append] at mem
    rcases mem with old | new
    · exact served.receipts generation data old isReceipt
    · cases (plain data new).1.symm.trans isReceipt

theorem handling {generation : ℕ} {data : Envelope Payload}
    (grows : ∀ generation, requests generation ⊆ more generation)
    (identified : data.isSrpcNotification = false → data.requestId?.isSome = true)
    (arrives : ∀ requestId, data.requestId? = some requestId →
      requestId ∉ requests generation ∧ requestId ∈ more generation) (bytes : ℕ) :
    (client.handling config generation data bytes).Served more := by
  have later := served.mono grows
  have cases : ∀ key message,
      (client.handling config generation data bytes).handled.get? key = some message →
      key = client.nextHandled ∧ message = ⟨generation, data, bytes,
        !data.isSrpcNotification && config.protocolVersion == 4⟩ ∨
      key ≠ client.nextHandled ∧ client.handled.get? key = some message := by
    intro key message found
    simp only [ClientSession.handling, OrderedMap.get?_set] at found
    split at found
    · rename_i isNew
      exact Or.inl ⟨isNew, (Option.some.inj found).symm⟩
    · rename_i isOld
      exact Or.inr ⟨isOld, found⟩
  refine ⟨?_, ?_, ?_, ?_, ?_, ?_, later.unknown, later.ordered, later.receipts⟩
  · intro key message found
    rcases cases key message found with ⟨rfl, _⟩ | ⟨_, wasFound⟩
    · exact Nat.lt_succ_self _
    · exact Nat.lt_succ_of_lt (served.keys key message wasFound)
  · intro key message requestId found named
    rcases cases key message found with ⟨_, rfl⟩ | ⟨_, wasFound⟩
    · exact (arrives requestId named).2
    · exact later.requested key message requestId wasFound named
  · intro key other message second requestId found foundOther same named namedOther
    rcases cases key message found with ⟨rfl, rfl⟩ | ⟨_, wasFound⟩
    · rcases cases other second foundOther with ⟨rfl, _⟩ | ⟨_, wasFoundOther⟩
      · rfl
      · have known := served.requested other second requestId wasFoundOther namedOther
        rw [← same] at known
        exact absurd known (arrives requestId named).1
    · rcases cases other second foundOther with ⟨rfl, rfl⟩ | ⟨_, wasFoundOther⟩
      · have known := served.requested key message requestId wasFound named
        rw [same] at known
        exact absurd known (arrives requestId namedOther).1
      · exact served.distinct key other message second requestId wasFound wasFoundOther same named
          namedOther
  · intro key message found isPending
    rcases cases key message found with ⟨_, rfl⟩ | ⟨_, wasFound⟩
    · simp only [Bool.and_eq_true, Bool.not_eq_true'] at isPending
      rcases Option.isSome_iff_exists.mp (identified isPending.1) with ⟨requestId, named⟩
      exact ⟨requestId, named, served.unknown generation requestId (arrives requestId named).1⟩
    · exact served.timed key message wasFound isPending
  · intro key message requestId found named
    rcases cases key message found with ⟨_, rfl⟩ | ⟨_, wasFound⟩
    · exact Or.inl (served.unknown generation requestId (arrives requestId named).1)
    · exact served.unanswered key message requestId wasFound named
  · intro key message found notNotification
    rcases cases key message found with ⟨_, rfl⟩ | ⟨_, wasFound⟩
    · exact identified notNotification
    · exact served.identified key message wasFound notNotification

theorem send {generation : ℕ} {requestId : String} {frame : Envelope Payload} {answer : Answer}
    (arrived : requestId ∈ requests generation)
    (answers : ∀ other, frame.answer? other = if requestId = other then some answer else none)
    (isReceipt : frame.requestAck = true → requestId ≠ "" ∧ frame = .receiptFor requestId)
    (ordered : client.exchange generation requestId ++ [answer] ∈
      [[], [.receipt], [.reply], [.receipt, .reply]])
    (handles : ∀ key message, client.handled.get? key = some message →
      message.generation = generation → message.data.requestId? = some requestId →
      message.timer = false ∧ client.exchange generation requestId ++ [answer] = [.receipt]) :
    (client.send generation frame).Served requests := by
  have exchanges : ∀ other id, (client.send generation frame).exchange other id =
      if other = generation ∧ id = requestId then client.exchange generation requestId ++ [answer]
      else client.exchange other id := by
    intro other id
    by_cases same : other = generation
    · subst same
      rw [exchange_send, answers]
      by_cases sameId : id = requestId
      · subst sameId
        rw [if_pos rfl, if_pos ⟨rfl, rfl⟩]
        rfl
      · rw [if_neg (Ne.symm sameId), if_neg fun both => sameId both.2]
        exact List.append_nil _
    · rw [exchange_send_of_ne same, if_neg fun both => same both.1]
  refine ⟨served.keys, served.requested, served.distinct, ?_, ?_, served.identified, ?_, ?_, ?_⟩
  · intro key message found isPending
    rcases served.timed key message found isPending with ⟨id, named, silent⟩
    refine ⟨id, named, ?_⟩
    rw [exchanges, if_neg]
    · exact silent
    · rintro ⟨same, rfl⟩
      cases (handles key message found same named).1.symm.trans isPending
  · intro key message id found named
    rw [exchanges]
    split
    · rename_i both
      rcases both with ⟨same, rfl⟩
      exact Or.inr (handles key message found same named).2
    · exact served.unanswered key message id found named
  · intro other id absent
    rw [exchanges, if_neg]
    · exact served.unknown other id absent
    · rintro ⟨rfl, rfl⟩
      exact absent arrived
  · intro other id
    rw [exchanges]
    split
    · exact ordered
    · exact served.ordered other id
  · intro other data mem isAcknowledgment
    by_cases same : other = generation
    · subst same
      simp only [ClientSession.send, Function.update_self, List.mem_append,
        List.mem_singleton] at mem
      rcases mem with old | rfl
      · exact served.receipts other data old isAcknowledgment
      · exact ⟨requestId, arrived, isReceipt isAcknowledgment⟩
    · simp only [ClientSession.send, Function.update_of_ne same] at mem
      exact served.receipts other data mem isAcknowledgment

theorem acknowledgmentTimer (key : ℕ) (outcome : WriteOutcome) :
    (client.acknowledgmentTimer key outcome).Served requests := by
  rw [ClientSession.acknowledgmentTimer]
  split
  · exact served
  · rename_i message found
    split
    · rename_i isPending
      let fired :=
        { client with handled := client.handled.set key { message with timer := false } }
      have isCalm : Calm client fired := by
        refine ⟨Guarded.of_eq rfl rfl rfl, ?_, ?_, rfl⟩
        · intro generation
          exact ⟨[], (List.append_nil _).symm, fun _ mem => by cases mem⟩
        · intro other second foundOther
          simp only [fired, OrderedMap.get?_set] at foundOther
          split at foundOther
          · rename_i same
            cases foundOther
            refine ⟨message, by rw [same]; exact found, rfl, rfl, ?_⟩
            intro impossible
            cases impossible
          · exact ⟨second, foundOther, rfl, rfl, id⟩
      have servedFired := served.calm isCalm
      rcases served.timed key message found isPending with ⟨requestId, named, silent⟩
      rcases requestId?_eq_some named with ⟨isId, nonempty⟩
      have silentFired : fired.exchange message.generation requestId = [] :=
        (isCalm.exchange _ _).trans silent
      rw [isId]
      rcases fired.writeMessage_cases message.generation (.receiptFor requestId) outcome with
        ⟨written, _⟩ | ⟨_, written⟩
      · exact servedFired.calm written
      · refine (servedFired.send (served.requested key message requestId found named)
          (answer?_receiptFor nonempty) (fun _ => ⟨nonempty, rfl⟩) ?_ ?_).calm written
        · rw [silentFired]
          simp
        · intro other second foundOther same namedOther
          rw [silentFired]
          refine ⟨?_, rfl⟩
          have foundKey : fired.handled.get? key = some { message with timer := false } := by
            simp only [fired, OrderedMap.get?_set, if_pos]
          have isKey := servedFired.distinct other key second { message with timer := false }
            requestId foundOther foundKey same namedOther named
          rw [isKey, foundKey] at foundOther
          rw [← Option.some.inj foundOther]
    · exact served

end

theorem forget_calm {before : ClientSession Payload} (isCalm : Calm before after) (key : ℕ)
    (message : HandledMessage Payload) :
    Calm { before with handled := before.handled.erase key } (after.forget key message) := by
  have erased : Calm { before with handled := before.handled.erase key }
      { after with handled := after.handled.erase key } := by
    refine ⟨⟨isCalm.generation, isCalm.current, isCalm.writes⟩, isCalm.plain, ?_,
      isCalm.nextHandled⟩
    intro other second found
    rw [OrderedMap.get?_erase] at found
    split at found
    · cases found
    · rename_i differs
      rcases isCalm.handled other second found with ⟨old, foundOld, same⟩
      refine ⟨old, ?_, same⟩
      rw [OrderedMap.get?_erase, if_neg differs]
      exact foundOld
  rw [forget]
  split
  · exact erased.trans (Calm.of_eq rfl rfl rfl rfl rfl)
  · exact erased

theorem handlerFinished (served : client.Served requests) (key : ℕ) (error : Option String)
    (userError : Option Bool) (fields : List (String × Option Payload)) (outcome : WriteOutcome) :
    (client.handlerFinished key error userError fields outcome).Served requests := by
  rw [ClientSession.handlerFinished]
  split
  · exact served
  · rename_i message found
    let finished := { client with handled := client.handled.erase key }
    have isCalm : Calm client finished := by
      refine ⟨Guarded.of_eq rfl rfl rfl, ?_, ?_, rfl⟩
      · intro generation
        exact ⟨[], (List.append_nil _).symm, fun _ mem => by cases mem⟩
      · intro other second foundOther
        simp only [finished, OrderedMap.get?_erase] at foundOther
        split at foundOther
        · cases foundOther
        · exact ⟨second, foundOther, rfl, rfl, id⟩
    have servedFinished := served.calm isCalm
    rw [writeReply]
    split
    · exact servedFinished.calm (forget_calm (Calm.refl client) key message)
    · rename_i isRequest
      have identified := served.identified key message found (by simpa using isRequest)
      rcases Option.isSome_iff_exists.mp identified with ⟨requestId, named⟩
      rcases requestId?_eq_some named with ⟨isId, nonempty⟩
      rw [isId]
      rcases client.writeMessage_cases message.generation
        (.replyTo requestId error userError fields) outcome with ⟨written, _⟩ | ⟨_, written⟩
      · exact servedFinished.calm (forget_calm written key message)
      · refine (servedFinished.send (served.requested key message requestId found named)
          (answer?_replyTo nonempty error userError fields)
          (fun impossible => by cases impossible) ?_ ?_).calm (forget_calm written key message)
        · rw [isCalm.exchange]
          rcases served.unanswered key message requestId found named with silent | receipt
          · rw [silent]
            simp
          · rw [receipt]
            simp
        · intro other second foundOther same namedOther
          simp only [finished, OrderedMap.get?_erase] at foundOther
          split at foundOther
          · cases foundOther
          · rename_i differs
            exact absurd (served.distinct other key second message requestId foundOther found same
              namedOther named) differs

end Served

end ClientSession

namespace ServerStream

variable {config : StreamConfig} {stream : ServerStream Payload}

theorem interrupted_closings (stream : ServerStream Payload) (closes : Bool) :
    (stream.interrupted closes).closings = stream.closings := by
  rw [interrupted]
  split
  · rw [revokeStream]
    split <;> rfl
  · rfl

theorem closings_of_receipt {data : Envelope Payload} {requestId : String}
    {queued : QueuedRequest} (isReceipt : data.IsReceiptFor requestId)
    (version : 4 ≤ config.protocolVersion)
    (found : stream.serverRequests.queue.get? requestId = some queued) (bytes : ℕ) (turn : Turn) :
    (stream.handleStreamDataReceived config data bytes turn).closings = stream.closings := by
  rw [handleStreamDataReceived]
  split
  · rfl
  · rename_i live
    cases closes : turn.observerCloses with
    | false =>
        rw [interrupted, if_neg (by simp),
          dispatchMessage_of_acknowledgment stream isReceipt version, found]
    | true =>
        have revoked : (stream.interrupted true).revoked = true := by
          rw [interrupted, if_pos rfl, revokeStream, if_neg live]
        have absent : (stream.interrupted true).serverRequests.queue.get? requestId = none := by
          rw [interrupted, if_pos rfl, revokeStream, if_neg live]
          rfl
        rw [dispatchMessage_of_receipt _ isReceipt version absent]
        simp only [receiveLate]
        split
        · exact stream.interrupted_closings true
        · rw [closeStreamWithError, if_pos revoked]
          exact stream.interrupted_closings true

end ServerStream

namespace Conversation

variable {config : ConversationConfig} {conversation after : Conversation Payload}
  {event : ConversationEvent Payload}

/-- The ids of the requests that have arrived at the client. -/
def requestsArrived (conversation : Conversation Payload) (generation : ℕ) : List String :=
  Link.requestIdsOf (conversation.links generation).arrived

theorem serverRequestId?_decode (config : ConversationConfig) (data : Envelope Payload) :
    (config.decode data).serverRequestId? = data.serverRequestId? := by
  rw [ConversationConfig.decode]
  split
  · rfl
  · simp [Envelope.serverRequestId?, Envelope.requestId?]

theorem Effect.keepsServed (effect : Effect config conversation event after)
    (sound : ∀ generation, (conversation.links generation).Sound config)
    (served : conversation.client.Served conversation.requestsArrived) :
    after.client.Served after.requestsArrived := by
  have grows : ∀ generation, conversation.requestsArrived generation ⊆
      after.requestsArrived generation := fun generation =>
    ((effect.arrived_mono sound generation).filterMap _).subset
  cases effect with
  | connect accepted => exact served.calm (ClientSession.connect_calm _ _)
  | revoke => exact served.calm (ClientSession.revokeGeneration_calm _ _)
  | write outcome plain => exact served.calm (ClientSession.writeMessage_calm _ _ plain outcome)
  | timer key outcome => exact served.acknowledgmentTimer key outcome
  | finished key error userError fields outcome =>
      exact served.handlerFinished key error userError fields outcome
  | @arrived generation data bytes turn found =>
      rcases conversation.client.receive_cases config.client generation (config.decode data) bytes
        turn with calm | ⟨middle, calm, starts, isRequest⟩
      · exact (served.calm calm).mono grows
      · rw [starts]
        refine (served.calm calm).handling grows ?_ ?_ bytes
        · intro notNotification
          rcases isRequest notNotification with ⟨requestId, named, _⟩
          rw [named]
          rfl
        · intro requestId named
          rcases isRequest (ClientSession.notNotification_of_named named) with
            ⟨other, namedOther, isServerRequest⟩
          cases named.symm.trans namedOther
          rw [serverRequestId?_decode] at isServerRequest
          have ids : requestsArrived (conversation.setLink generation
              { conversation.links generation with
                delivered := (conversation.links generation).delivered + 1 }) generation =
              conversation.requestsArrived generation ++ [requestId] := by
            simp only [requestsArrived, setLink, Function.update_self]
            rw [Link.arrived_succ found, Link.requestIdsOf, List.filterMap_append]
            simp only [List.filterMap_cons, isServerRequest, List.filterMap_nil]
            rfl
          have once := (Link.requestIdsOf_arrived { conversation.links generation with
            delivered := (conversation.links generation).delivered + 1 }).nodup
              ((sound generation).deliver found).once
          have isLast : (conversation.requestsArrived generation ++ [requestId]).Nodup := by
            rw [← ids]
            simp only [requestsArrived, setLink, Function.update_self]
            exact once
          refine ⟨fun mem => ?_, ?_⟩
          · exact (List.nodup_append.mp isLast).2.2 requestId mem requestId
              (List.mem_singleton.mpr rfl) rfl
          · have isMember : requestId ∈ conversation.requestsArrived generation ++ [requestId] :=
              List.mem_append_right _ (List.mem_singleton.mpr rfl)
            rw [← ids] at isMember
            exact isMember
  | idle => exact served
  | served generation emits => exact served.mono grows

theorem reachable_served (reachable : (system config).Reachable conversation) :
    conversation.client.Served conversation.requestsArrived := by
  refine reachable.invariant (fun conversation : Conversation Payload =>
    conversation.client.Served conversation.requestsArrived) ?_ ?_
  · rintro _ ⟨now, rfl⟩
    exact ClientSession.Served.initial _
  · intro before event after reached served taken
    exact (step_effect reached taken).keepsServed (reachable_links reached) served

/-- The request has timed out, its tombstone has not expired, and fewer requests than there are
tombstones have timed out since. -/
def Tombstoned (config : ConversationConfig) (link : Link Payload) (requestId : String) : Prop :=
  ∃ position time, link.history.abandoned[position]? = some (requestId, time) ∧
    position < ServerRequests.maxLateReplyTombstonesPerStream ∧
    link.history.stream.now < time + config.stream.limits.lateReplyTombstoneTtlMs

theorem isReceiptFor_receiptFor {requestId : String} (nonempty : requestId ≠ "") :
    (Envelope.receiptFor requestId : Envelope Payload).IsReceiptFor requestId := by
  have named : (Envelope.receiptFor requestId : Envelope Payload).requestId? = some requestId := by
    simp [Envelope.requestId?, Envelope.receiptFor, nonempty]
  refine ⟨?_, named⟩
  rw [Envelope.isSrpcRequestAcknowledgment, named]
  simp [Envelope.receiptFor]

theorem decode_receiptFor (config : ConversationConfig) (requestId : String) :
    config.decode (Envelope.receiptFor requestId : Envelope Payload) =
      .receiptFor requestId := by
  rw [ConversationConfig.decode]
  split <;> rfl

theorem receipt_closes_nothing (version : config.client.protocolVersion = 4) {link : Link Payload}
    (sound : link.Sound config) {requestId : String} (nonempty : requestId ≠ "")
    (known : (link.history.stream.serverRequests.queue.get? requestId).isSome = true ∨
      Tombstoned config link requestId) (bytes : ℕ) (turn : Turn) :
    (link.receive config (config.decode (.receiptFor requestId)) bytes
      turn).history.stream.closings = link.history.stream.closings := by
  have isReceipt : (Envelope.receiptFor requestId : Envelope Payload).IsReceiptFor requestId :=
    isReceiptFor_receiptFor nonempty
  have isFour : 4 ≤ config.stream.protocolVersion := by rw [← config.agreed, version]
  rw [decode_receiptFor, Link.receive]
  split
  · rfl
  · rcases known with isQueued | ⟨position, time, found, recent, unexpired⟩
    · rcases Option.isSome_iff_exists.mp isQueued with ⟨queued, found⟩
      exact ServerStream.closings_of_receipt isReceipt isFour found bytes turn
    · have late := StreamHistory.handleStreamDataReceived_late
        (StreamHistory.reachable_correlated sound.reachable).1 found recent unexpired
        (Or.inl ⟨isReceipt, isFour⟩) bytes turn
      have closings := congrArg ServerStream.closings late
      refine closings.trans ?_
      split
      · rfl
      · exact ServerStream.interrupted_closings _ _

/-- For each request of a generation the client writes at most a receipt and then a reply, and
nothing once the generation is revoked. -/
theorem receipts_and_replies_compose (config : ConversationConfig)
    (version : config.client.protocolVersion = 4) (conversation : Conversation Payload)
    (reachable : (system config).Reachable conversation) :
    (∀ generation requestId, conversation.client.exchange generation requestId ∈
      [[], [.receipt], [.reply], [.receipt, .reply]]) ∧
    (∀ generation, conversation.Revoked generation →
      ∀ after, ((system config).startingAt conversation).Reachable after →
        after.client.sent generation = conversation.client.sent generation) ∧
    (∀ generation data,
      (conversation.client.sent generation)[(conversation.links generation).received]? =
        some data → data.requestAck = true →
      ∃ requestId, data = .receiptFor requestId ∧
        requestId ∈ (conversation.links generation).history.requestIds ∧
        ((((conversation.links generation).history.stream.serverRequests.queue.get?
            requestId).isSome = true ∨
            Tombstoned config (conversation.links generation) requestId) →
          ∀ bytes turn,
            ((conversation.links generation).receive config (config.decode data) bytes
              turn).history.stream.closings =
                (conversation.links generation).history.stream.closings)) := by
  have served := reachable_served reachable
  refine ⟨served.ordered, ?_, ?_⟩
  · intro generation revoked after later
    exact (revoked_silent reachable revoked later).2.2
  · intro generation data next isAcknowledgment
    have sound := reachable_links reachable generation
    rcases served.receipts generation data (List.mem_of_getElem? next) isAcknowledgment with
      ⟨requestId, arrived, nonempty, rfl⟩
    refine ⟨requestId, rfl, ?_, ?_⟩
    · exact sound.requests ((Link.requestIdsOf_arrived _).subset arrived)
    · intro known bytes turn
      exact receipt_closes_nothing version sound nonempty known bytes turn

section Sample

/-- A client and a server of protocol 4 with default limits. -/
def receiptConfig : ConversationConfig where
  client := ⟨4, 8 * 1024 * 1024, 64, 8 * 1024 * 1024⟩
  stream := ⟨ResourceOptions.none.streamLimits, 4, fun _ => 40, 4⟩
  keepsPingPongType := true
  helloBytes := 4
  activatedBytes := 4
  agreed := rfl

/-- The handler of a request takes longer than the delay of the receipt. -/
def slowRequest : List (ConversationEvent Unit) :=
  [.connect true, .hello 1 ServerStream.quietTurn,
    .deliverToClient 1 ⟨true, false, true, true, .sent false⟩,
    .deliverToServer 1 4 ServerStream.quietTurn, .activate 1 ServerStream.quietTurn,
    .deliverToClient 1 ⟨true, false, true, true, .sent false⟩,
    .invoke 1 "a" "uPing" (some ()) (some 64) 30000 ServerStream.quietTurn false,
    .deliverToClient 1 ⟨true, false, true, true, .sent false⟩,
    .acknowledgmentTimer 0 (.sent false)]

/-- The conversation behind a slow request. -/
def afterSlowRequest : Conversation Unit :=
  slowRequest.foldl (advance receiptConfig) (initial fun _ => 0)

theorem afterSlowRequest_reachable : (system receiptConfig).Reachable afterSlowRequest := by
  have started : (system receiptConfig).Reachable (initial fun _ => 0 : Conversation Unit) :=
    .start ⟨fun _ => 0, rfl⟩
  exact started.follow _ _ (fun _ _ feasible => ⟨feasible, rfl⟩)
    (by decide +kernel : TransitionSystem.Follows _ Feasible _ slowRequest)

theorem receipts_and_replies_compose_after_slow_request :
    afterSlowRequest.client.exchange 1 "a" = [.receipt] ∧
      ∃ requestId, (Envelope.receiptFor "a" : Envelope Unit) = .receiptFor requestId ∧
        ((((afterSlowRequest.links 1).history.stream.serverRequests.queue.get?
            requestId).isSome = true ∨
            Tombstoned receiptConfig (afterSlowRequest.links 1) requestId) →
          ∀ bytes turn,
            ((afterSlowRequest.links 1).receive receiptConfig
              (receiptConfig.decode (.receiptFor "a")) bytes turn).history.stream.closings =
                (afterSlowRequest.links 1).history.stream.closings) := by
  have composes := receipts_and_replies_compose receiptConfig rfl afterSlowRequest
    afterSlowRequest_reachable
  have next : (afterSlowRequest.client.sent 1)[(afterSlowRequest.links 1).received]? =
      some (.receiptFor "a") := by decide +kernel
  refine ⟨by decide +kernel, ?_⟩
  rcases composes.2.2 1 (.receiptFor "a") next rfl with ⟨requestId, isReceipt, _, closes⟩
  exact ⟨requestId, isReceipt, closes⟩

end Sample

end Conversation

end ServerFoundation.Srpc
