import ServerFoundation.Srpc.ServerStream

/-!
# Client requests before activation

Requests and notifications that arrive before a stream is active are admitted
against one pair of limits and replayed against another. No handler finishes while
the replay runs, so the replay serves the whole queue exactly when the queue fits
the limits of requests in flight and every receipt that it writes is accepted.
-/

namespace ServerFoundation.Srpc

variable {Payload : Type}

/-- The message is a request or a notification of a client: no other branch takes it. -/
structure Envelope.IsClientRequest (data : Envelope Payload) : Prop where
  notAcknowledgment : data.requestAck = false
  notPingPong : data.pingPong = none
  notByteStream : data.byteStreamOperation = none
  identified : ¬(data.requestId?.isNone = true ∧ data.isSrpcNotification = false)
  notReply : data.reply = true → data.requestId? = none

/-- Queued messages are client requests, and none is in flight before they are opened. -/
structure ClientRequests.Admitted (requests : ClientRequests Payload) : Prop where
  queued : ∀ entry ∈ requests.pending, entry.1.IsClientRequest
  unstarted : requests.blocked = true → requests.inFlight = 0 ∧ requests.inFlightBytes = 0

namespace ClientRequests.Admitted

variable {requests : ClientRequests Payload}

theorem drop (requests : ClientRequests Payload) : requests.drop.Admitted where
  queued _ mem := by cases mem
  unstarted blocked := by cases blocked

theorem enqueue (admitted : requests.Admitted) {data : Envelope Payload}
    (isRequest : data.IsClientRequest) (retainedBytes : ℕ) :
    (requests.enqueue data retainedBytes).Admitted where
  queued entry mem := by
    rcases List.mem_append.mp mem with old | new
    · exact admitted.queued entry old
    · cases List.mem_singleton.mp new
      exact isRequest
  unstarted := admitted.unstarted

theorem start (admitted : requests.Admitted) (opened : requests.blocked = false)
    (data : Envelope Payload) (retainedBytes : ℕ) :
    (requests.start data retainedBytes).Admitted where
  queued := admitted.queued
  unstarted blocked := by cases opened.symm.trans blocked

theorem finish (admitted : requests.Admitted) (retainedBytes : ℕ) :
    (requests.finish retainedBytes).Admitted where
  queued := admitted.queued
  unstarted blocked := by
    rcases admitted.unstarted blocked with ⟨none, noBytes⟩
    simp [ClientRequests.finish, none, noBytes]

theorem unblock (requests : ClientRequests Payload) : requests.unblock.Admitted where
  queued _ mem := by cases mem
  unstarted blocked := by cases blocked

end ClientRequests.Admitted

namespace ServerStream

variable {config : StreamConfig} {stream : ServerStream Payload}

section Admission

variable {data : Envelope Payload}

section

variable (admitted : stream.clientRequests.Admitted) (cause : DisconnectCause)
include admitted

theorem revokeStream_admitted : (stream.revokeStream cause).clientRequests.Admitted := by
  rw [revokeStream]
  split
  · exact admitted
  · exact ClientRequests.Admitted.drop _

theorem closeStreamWithError_admitted (message : String) :
    (stream.closeStreamWithError cause message).clientRequests.Admitted := by
  rw [closeStreamWithError]
  split
  · exact admitted
  · exact revokeStream_admitted admitted cause

theorem interrupted_admitted (closes : Bool) :
    (stream.interrupted closes).clientRequests.Admitted := by
  rw [interrupted]
  split
  · exact revokeStream_admitted admitted _
  · exact admitted

theorem writeEncodedToStream_admitted (bytes : ℕ) (turn : Turn) :
    (stream.writeEncodedToStream config bytes turn).1.clientRequests.Admitted := by
  rcases stream.writeEncodedToStream_cases config bytes turn with
    ⟨_, same | ⟨message, closed⟩⟩ | ⟨_, _, sent⟩
  · rw [same]
    exact admitted
  · rw [closed]
    exact closeStreamWithError_admitted admitted _ message
  · rw [sent]
    exact interrupted_admitted admitted _

theorem receiveLate_admitted (requestId : String) :
    (stream.receiveLate requestId).clientRequests.Admitted := by
  simp only [receiveLate]
  split
  · exact admitted
  · refine closeStreamWithError_admitted ?_ _ _
    exact admitted

theorem receiveAcknowledgment_admitted (data : Envelope Payload) :
    (stream.receiveAcknowledgment config data).clientRequests.Admitted := by
  rw [receiveAcknowledgment]
  split
  · exact closeStreamWithError_admitted admitted _ _
  · split
    · exact closeStreamWithError_admitted admitted _ _
    · split
      · exact admitted
      · exact receiveLate_admitted admitted _

theorem receiveReply_admitted (data : Envelope Payload) (requestId : String) :
    (stream.receiveReply data requestId).clientRequests.Admitted := by
  rw [receiveReply]
  split
  · exact receiveLate_admitted admitted _
  · exact admitted

end

theorem isClientRequest_of_dispatch (notAcknowledgment : ¬data.requestAck = true)
    (notPingPong : data.pingPong = none) (notByteStream : ¬data.byteStreamOperation.isSome = true)
    (identified : ¬(data.requestId?.isNone = true ∧ data.isSrpcNotification = false))
    (notReply : ∀ requestId, data.reply = true → data.requestId? = some requestId → False) :
    data.IsClientRequest where
  notAcknowledgment := by simpa using notAcknowledgment
  notPingPong := notPingPong
  notByteStream := by simpa using notByteStream
  identified := identified
  notReply isReply := by
    cases found : data.requestId? with
    | none => rfl
    | some requestId => exact (notReply requestId isReply found).elim

theorem dispatchMessage_of_request (isRequest : data.IsClientRequest) (retainedBytes : ℕ)
    (turn : Turn) :
    stream.dispatchMessage config data retainedBytes turn =
      stream.receiveClientRequest config data retainedBytes turn := by
  rw [dispatchMessage, if_neg (by simp [isRequest.notAcknowledgment]), isRequest.notPingPong]
  simp only [isRequest.notByteStream, Option.isSome_none, Bool.false_eq_true, if_false]
  rw [if_neg isRequest.identified]
  split
  · rename_i requestId isReply found
    cases (isRequest.notReply isReply).symm.trans found
  · rfl

theorem startHandler_admitted (admitted : stream.clientRequests.Admitted)
    (opened : stream.clientRequests.blocked = false) (data : Envelope Payload) (retainedBytes : ℕ)
    (turn : Turn) : (stream.startHandler data retainedBytes turn).clientRequests.Admitted := by
  rw [startHandler]
  refine interrupted_admitted ?_ _
  exact admitted.start opened data retainedBytes

theorem interrupted_unblocked (opened : stream.clientRequests.blocked = false) (closes : Bool) :
    (stream.interrupted closes).clientRequests.blocked = false := by
  rw [interrupted]
  split
  · rw [revokeStream]
    split
    · exact opened
    · rfl
  · exact opened

section

variable (admitted : stream.clientRequests.Admitted) (requestId : String)
include admitted

theorem receiveClientRequest_admitted (isRequest : data.IsClientRequest) (retainedBytes : ℕ)
    (turn : Turn) :
    (stream.receiveClientRequest config data retainedBytes turn).clientRequests.Admitted := by
  rw [receiveClientRequest]
  split
  · rw [queueClientRequest]
    split
    · exact closeStreamWithError_admitted admitted _ _
    · split
      · exact closeStreamWithError_admitted admitted _ _
      · exact admitted.enqueue isRequest retainedBytes
  · rename_i isOpen
    have opened : stream.clientRequests.blocked = false := by
      simp only [not_or, Bool.not_eq_true] at isOpen
      exact isOpen.2
    rw [dispatchClientRequest]
    split
    · exact closeStreamWithError_admitted admitted _ _
    · split
      · exact closeStreamWithError_admitted admitted _ _
      · split
        · rcases stream.writeEncodedToStream_cases config
              (config.acknowledgmentBytes (data.requestId.getD "")) turn with
            ⟨_, same | ⟨message, closed⟩⟩ | ⟨_, _, sent⟩
          · rw [same]
            exact admitted
          · rw [closed]
            exact closeStreamWithError_admitted admitted _ message
          · rw [sent]
            exact startHandler_admitted (interrupted_admitted admitted _)
              (interrupted_unblocked opened _) data retainedBytes turn
        · exact startHandler_admitted admitted opened data retainedBytes turn

theorem dispatchMessage_admitted (data : Envelope Payload) (retainedBytes : ℕ) (turn : Turn) :
    (stream.dispatchMessage config data retainedBytes turn).clientRequests.Admitted := by
  rw [dispatchMessage]
  split
  · exact receiveAcknowledgment_admitted admitted data
  · rename_i notAcknowledgment
    split
    · rw [receivePingPong]
      split
      · exact writeEncodedToStream_admitted admitted _ _
      · exact admitted
    · rename_i notPingPong
      split
      · split
        · exact admitted
        · exact closeStreamWithError_admitted admitted _ _
      · rename_i notByteStream
        split
        · exact closeStreamWithError_admitted admitted _ _
        · rename_i identified
          split
          · exact receiveReply_admitted admitted _ _
          · rename_i notReply
            exact receiveClientRequest_admitted admitted (isClientRequest_of_dispatch
              notAcknowledgment notPingPong notByteStream identified notReply) _ _

theorem handleStreamDataReceived_admitted (data : Envelope Payload) (retainedBytes : ℕ)
    (turn : Turn) :
    (stream.handleStreamDataReceived config data retainedBytes turn).clientRequests.Admitted := by
  rw [handleStreamDataReceived]
  split
  · exact admitted
  · exact dispatchMessage_admitted (interrupted_admitted admitted _) data retainedBytes turn

theorem replay_admitted {messages : List ((Envelope Payload × ℕ) × Turn)} :
    (stream.replay config messages).clientRequests.Admitted := by
  induction messages generalizing stream with
  | nil => exact admitted
  | cons message rest ih =>
      rw [replay]
      exact ih (handleStreamDataReceived_admitted admitted _ _ _)

theorem sendRequest_admitted (queued : QueuedRequest) (turn : Turn) (loggerThrows : Bool) :
    (stream.sendRequest config requestId queued turn loggerThrows).clientRequests.Admitted := by
  let registered :=
    { stream with serverRequests := stream.serverRequests.register requestId queued }
  have written := @writeEncodedToStream_admitted _ config registered admitted queued.bytes turn
  rw [sendRequest]
  split
  · rename_i after sent
    rw [sent] at written
    split
    · exact written
    · exact written
  · rename_i after failed
    rw [failed] at written
    exact written

theorem invokeWithRequestId_admitted (resultType : String) (encoded : Option ℕ) (timeoutMs : ℕ)
    (turn : Turn) (loggerThrows : Bool) :
    (stream.invokeWithRequestId config requestId resultType encoded timeoutMs turn
      loggerThrows).clientRequests.Admitted := by
  simp only [invokeWithRequestId]
  split
  · exact admitted
  · split
    · exact admitted
    · split
      · exact admitted
      · split
        · exact admitted
        · refine sendRequest_admitted ?_ _ _ _ _
          exact admitted

theorem requestTimeout_admitted :
    (stream.requestTimeout config requestId).clientRequests.Admitted := by
  rw [requestTimeout]
  split
  · exact admitted
  · split
    · refine revokeStream_admitted ?_ _
      exact admitted
    · exact admitted

end

end Admission

end ServerStream

namespace StreamHistory

variable {config : StreamConfig} {history : StreamHistory Payload}

theorem advance_admitted {event : StreamEvent Payload}
    (admitted : history.stream.clientRequests.Admitted) :
    (history.advance config event).stream.clientRequests.Admitted := by
  cases event with
  | elapse time => exact admitted
  | receive data retainedBytes turn =>
      exact ServerStream.handleStreamDataReceived_admitted admitted data retainedBytes turn
  | activate => exact admitted
  | openClientRequests turns =>
      exact ServerStream.replay_admitted (ClientRequests.Admitted.unblock _)
  | handlerFinished retainedBytes => exact admitted.finish retainedBytes
  | invoke requestId resultType encoded timeoutMs turn loggerThrows =>
      exact ServerStream.invokeWithRequestId_admitted admitted requestId resultType encoded
        timeoutMs turn loggerThrows
  | requestTimeout requestId => exact ServerStream.requestTimeout_admitted admitted requestId
  | write bytes turn => exact ServerStream.writeEncodedToStream_admitted admitted bytes turn
  | revoke cause => exact ServerStream.revokeStream_admitted admitted cause

theorem reachable_admitted (reachable : (system config).Reachable history) :
    history.stream.clientRequests.Admitted := by
  refine reachable.invariant (·.stream.clientRequests.Admitted) ?_ ?_
  · rintro _ ⟨now, rfl⟩
    exact ⟨(fun _ mem => by cases mem), fun _ => ⟨rfl, rfl⟩⟩
  · rintro before event _ _ admitted ⟨_, rfl⟩
    exact advance_admitted admitted

end StreamHistory

/-- No callback closes the stream. -/
def Turn.Quiet (turn : Turn) : Prop :=
  turn.observerCloses = false ∧ turn.outboundCloses = false ∧ turn.handlerCloses = false

/-- The receipt that the message needs, if it needs one, is accepted. -/
def Envelope.AcknowledgedBy (config : StreamConfig) (data : Envelope Payload) (turn : Turn) :
    Prop :=
  data.isSrpcNotification = false → 4 ≤ config.protocolVersion →
    turn.Accepts config (config.acknowledgmentBytes (data.requestId.getD ""))

namespace ServerStream

section Dispatched

variable {config : StreamConfig} (stream : ServerStream Payload) (cause : DisconnectCause)

@[simp]
theorem revokeStream_dispatched :
    (stream.revokeStream cause).clientRequests.dispatched = stream.clientRequests.dispatched := by
  rw [revokeStream]
  split <;> rfl

@[simp]
theorem closeStreamWithError_dispatched (message : String) :
    (stream.closeStreamWithError cause message).clientRequests.dispatched =
      stream.clientRequests.dispatched := by
  rw [closeStreamWithError]
  split
  · rfl
  · exact stream.revokeStream_dispatched cause

@[simp]
theorem interrupted_dispatched (closes : Bool) :
    (stream.interrupted closes).clientRequests.dispatched = stream.clientRequests.dispatched := by
  rw [interrupted]
  split
  · exact stream.revokeStream_dispatched _
  · rfl

theorem dispatchClientRequest_dispatched (data : Envelope Payload) (retainedBytes : ℕ)
    (turn : Turn) :
    (stream.dispatchClientRequest config data retainedBytes turn).clientRequests.dispatched =
        stream.clientRequests.dispatched ∨
      (stream.dispatchClientRequest config data retainedBytes turn).clientRequests.dispatched =
        stream.clientRequests.dispatched ++ [data] := by
  rw [dispatchClientRequest]
  split
  · exact Or.inl (closeStreamWithError_dispatched _ _ _)
  · split
    · exact Or.inl (closeStreamWithError_dispatched _ _ _)
    · split
      · rcases stream.writeEncodedToStream_cases config
            (config.acknowledgmentBytes (data.requestId.getD "")) turn with
          ⟨_, same | ⟨message, closed⟩⟩ | ⟨_, _, sent⟩
        · rw [same]
          exact Or.inl rfl
        · rw [closed]
          exact Or.inl (closeStreamWithError_dispatched _ _ _)
        · rw [sent]
          right
          simp [startHandler, ClientRequests.start]
      · right
        simp [startHandler, ClientRequests.start]

theorem handle_request_dispatched {data : Envelope Payload} (isRequest : data.IsClientRequest)
    (retainedBytes : ℕ) (turn : Turn) :
    (stream.handleStreamDataReceived config data retainedBytes turn).clientRequests.dispatched =
        stream.clientRequests.dispatched ∨
      (stream.handleStreamDataReceived config data retainedBytes turn).clientRequests.dispatched =
        stream.clientRequests.dispatched ++ [data] := by
  rw [handleStreamDataReceived]
  split
  · exact Or.inl rfl
  · rw [dispatchMessage_of_request isRequest, receiveClientRequest]
    rw [← stream.interrupted_dispatched turn.observerCloses]
    split
    · left
      rw [queueClientRequest]
      split
      · exact closeStreamWithError_dispatched _ _ _
      · split
        · exact closeStreamWithError_dispatched _ _ _
        · rfl
    · exact dispatchClientRequest_dispatched _ data retainedBytes turn

end Dispatched

section Replay

variable {config : StreamConfig} {stream : ServerStream Payload} {data : Envelope Payload}
  {turn : Turn} {message : (Envelope Payload × ℕ) × Turn}
  {rest messages : List ((Envelope Payload × ℕ) × Turn)}

/-- The stream takes client requests. -/
structure Open (stream : ServerStream Payload) : Prop where
  live : stream.revoked = false
  activated : stream.isActivated = true
  unblocked : stream.clientRequests.blocked = false

/-- There is room for the message, and its receipt is accepted. -/
structure Ready (config : StreamConfig) (stream : ServerStream Payload) (data : Envelope Payload)
    (retainedBytes : ℕ) (turn : Turn) : Prop where
  room : stream.clientRequests.inFlight + 1 ≤ config.limits.maxInFlightClientRequests
  bytes : stream.clientRequests.inFlightBytes + retainedBytes ≤
    config.limits.maxInFlightClientRequestBytes
  acknowledged : data.AcknowledgedBy config turn

theorem interrupted_of_quiet {closes : Bool} (quiet : closes = false) :
    stream.interrupted closes = stream := by
  rw [interrupted, quiet]
  rfl

theorem handle_of_quiet (isOpen : stream.Open) (isRequest : data.IsClientRequest)
    (retainedBytes : ℕ) (quiet : turn.Quiet) :
    stream.handleStreamDataReceived config data retainedBytes turn =
      stream.dispatchClientRequest config data retainedBytes turn := by
  rw [handleStreamDataReceived, if_neg (by simp [isOpen.live]), interrupted_of_quiet quiet.1,
    dispatchMessage_of_request isRequest, receiveClientRequest, if_neg]
  simp [isOpen.activated, isOpen.unblocked]

theorem startHandler_of_quiet (data : Envelope Payload) (retainedBytes : ℕ) (quiet : turn.Quiet) :
    stream.startHandler data retainedBytes turn =
      { stream with clientRequests := stream.clientRequests.start data retainedBytes } := by
  rw [startHandler, interrupted_of_quiet quiet.2.2]

theorem dispatch_of_ready (live : stream.revoked = false) {retainedBytes : ℕ} (quiet : turn.Quiet)
    (ready : stream.Ready config data retainedBytes turn) :
    stream.dispatchClientRequest config data retainedBytes turn =
      { stream with clientRequests := stream.clientRequests.start data retainedBytes } := by
  have room := ready.room
  rw [dispatchClientRequest, if_neg (by omega), if_neg (not_lt.mpr ready.bytes)]
  split
  · rename_i acknowledges
    have accepts := ready.acknowledged acknowledges.1 acknowledges.2
    rcases stream.writeEncodedToStream_cases config
        (config.acknowledgmentBytes (data.requestId.getD "")) turn with
      ⟨revoked | refused, _⟩ | ⟨_, _, sent⟩
    · cases live.symm.trans revoked
    · exact absurd accepts refused
    · rw [sent, interrupted_of_quiet quiet.2.1]
      exact startHandler_of_quiet data retainedBytes quiet
  · exact startHandler_of_quiet data retainedBytes quiet

theorem dispatch_of_notReady {retainedBytes : ℕ}
    (notReady : ¬stream.Ready config data retainedBytes turn) :
    (stream.dispatchClientRequest config data retainedBytes turn).clientRequests.dispatched =
      stream.clientRequests.dispatched := by
  rw [dispatchClientRequest]
  split
  · exact closeStreamWithError_dispatched _ _ _
  · rename_i room
    split
    · exact closeStreamWithError_dispatched _ _ _
    · rename_i bytes
      have refused : ¬data.AcknowledgedBy config turn := by
        intro acknowledged
        exact notReady ⟨by omega, not_lt.mp bytes, acknowledged⟩
      split
      · rcases stream.writeEncodedToStream_cases config
            (config.acknowledgmentBytes (data.requestId.getD "")) turn with
          ⟨_, same | ⟨message, closed⟩⟩ | ⟨_, accepts, _⟩
        · rw [same]
        · rw [closed]
          exact closeStreamWithError_dispatched _ _ _
        · exact absurd (fun _ _ => accepts) refused
      · rename_i unacknowledged
        exact absurd (fun isRequest version => absurd ⟨isRequest, version⟩ unacknowledged) refused

/-- Every message of a replay can be served, given what is in flight before it. -/
def Fits (config : StreamConfig) (inFlight inFlightBytes : ℕ)
    (messages : List ((Envelope Payload × ℕ) × Turn)) : Prop :=
  inFlight + messages.length ≤ config.limits.maxInFlightClientRequests ∧
    inFlightBytes + (messages.map fun message => message.1.2).sum ≤
      config.limits.maxInFlightClientRequestBytes ∧
    ∀ message ∈ messages, message.1.1.AcknowledgedBy config message.2

theorem fits_cons_iff {inFlight inFlightBytes : ℕ}
    (acknowledged : message.1.1.AcknowledgedBy config message.2) :
    Fits config inFlight inFlightBytes (message :: rest) ↔
      Fits config (inFlight + 1) (inFlightBytes + message.1.2) rest := by
  have length : inFlight + (message :: rest).length = inFlight + 1 + rest.length := by
    rw [List.length_cons]
    omega
  have sum : inFlightBytes + ((message :: rest).map fun message => message.1.2).sum =
      inFlightBytes + message.1.2 + (rest.map fun message => message.1.2).sum := by
    rw [List.map_cons, List.sum_cons, add_assoc]
  rw [Fits, Fits, length, sum]
  simp [acknowledged]

theorem ready_of_fits
    (fits : Fits config stream.clientRequests.inFlight stream.clientRequests.inFlightBytes
      (message :: rest)) : stream.Ready config message.1.1 message.1.2 message.2 := by
  rcases fits with ⟨room, bytes, acknowledged⟩
  rw [List.length_cons] at room
  rw [List.map_cons, List.sum_cons] at bytes
  exact ⟨by omega, by omega, acknowledged message List.mem_cons_self⟩

theorem replay_dispatched_length (areRequests : ∀ message ∈ messages, message.1.1.IsClientRequest) :
    (stream.replay config messages).clientRequests.dispatched.length ≤
      stream.clientRequests.dispatched.length + messages.length := by
  induction messages generalizing stream with
  | nil => exact le_rfl
  | cons message rest ih =>
      rw [replay, List.length_cons]
      have later := @ih
        (stream.handleStreamDataReceived config message.1.1 message.1.2 message.2)
        fun other mem => areRequests other (List.mem_cons_of_mem _ mem)
      rcases stream.handle_request_dispatched (areRequests message List.mem_cons_self) message.1.2
        message.2 with same | more
      · rw [same] at later
        omega
      · rw [more, List.length_append, List.length_singleton] at later
        omega

theorem replay_serves_iff (isOpen : stream.Open)
    (areRequests : ∀ message ∈ messages, message.1.1.IsClientRequest)
    (quiet : ∀ message ∈ messages, message.2.Quiet)
    (room : stream.clientRequests.inFlight ≤ config.limits.maxInFlightClientRequests)
    (bytes : stream.clientRequests.inFlightBytes ≤
      config.limits.maxInFlightClientRequestBytes) :
    ((stream.replay config messages).clientRequests.dispatched =
          stream.clientRequests.dispatched ++ messages.map (fun message => message.1.1) ∧
        (stream.replay config messages).revoked = false) ↔
      Fits config stream.clientRequests.inFlight stream.clientRequests.inFlightBytes
        messages := by
  induction messages generalizing stream with
  | nil => simp [replay, Fits, isOpen.live, room, bytes]
  | cons message rest ih =>
      have isRequest := areRequests message List.mem_cons_self
      have isQuiet := quiet message List.mem_cons_self
      have restRequests : ∀ other ∈ rest, other.1.1.IsClientRequest := fun other mem =>
        areRequests other (List.mem_cons_of_mem _ mem)
      rw [replay, handle_of_quiet isOpen isRequest _ isQuiet]
      by_cases ready : stream.Ready config message.1.1 message.1.2 message.2
      · rw [dispatch_of_ready isOpen.live isQuiet ready]
        have later := @ih
          { stream with clientRequests := stream.clientRequests.start message.1.1 message.1.2 }
          ⟨isOpen.live, isOpen.activated, isOpen.unblocked⟩ restRequests
          (fun other mem => quiet other (List.mem_cons_of_mem _ mem)) ready.room ready.bytes
        have dispatched : stream.clientRequests.dispatched ++
              (message :: rest).map (fun message => message.1.1) =
            (stream.clientRequests.start message.1.1 message.1.2).dispatched ++
              rest.map (fun message => message.1.1) := by
          simp [ClientRequests.start]
        rw [dispatched]
        exact later.trans (fits_cons_iff ready.acknowledged).symm
      · constructor
        · rintro ⟨served, _⟩
          have bound := @replay_dispatched_length _ config
            (stream.dispatchClientRequest config message.1.1 message.1.2 message.2) rest
              restRequests
          rw [served, dispatch_of_notReady ready] at bound
          simp at bound
        · intro fits
          exact absurd (ready_of_fits fits) ready

end Replay

/-- Every queued message was dispatched once and in order, and the stream is still open. -/
def Served (before after : ServerStream Payload) : Prop :=
  after.clientRequests.dispatched =
      before.clientRequests.dispatched ++ before.clientRequests.pending.map Prod.fst ∧
    after.revoked = false

/-- When activation completes, the queued client requests are served exactly when they fit the
limits of requests in flight and their receipts are accepted. -/
theorem queued_requests_served_iff (config : StreamConfig) (history : StreamHistory Payload)
    (turns : List Turn) (reachable : (StreamHistory.system config).Reachable history)
    (live : history.stream.revoked = false) (activated : history.stream.isActivated = true)
    (blocked : history.stream.clientRequests.blocked = true)
    (length : turns.length = history.stream.clientRequests.pending.length)
    (quiet : ∀ turn ∈ turns, turn.Quiet) :
    Served history.stream (history.stream.openClientRequests config turns) ↔
      history.stream.clientRequests.pending.length ≤ config.limits.maxInFlightClientRequests ∧
        (history.stream.clientRequests.pending.map Prod.snd).sum ≤
          config.limits.maxInFlightClientRequestBytes ∧
        ∀ message ∈ history.stream.clientRequests.pending.zip turns,
          message.1.1.AcknowledgedBy config message.2 := by
  have admitted := StreamHistory.reachable_admitted reachable
  rcases admitted.unstarted blocked with ⟨noRequests, noBytes⟩
  let opened := { history.stream with clientRequests := history.stream.clientRequests.unblock }
  have firsts : (history.stream.clientRequests.pending.zip turns).map Prod.fst =
      history.stream.clientRequests.pending :=
    List.map_fst_zip length.ge
  have served := @replay_serves_iff _ config opened
    (history.stream.clientRequests.pending.zip turns) ⟨live, activated, rfl⟩
    (fun message mem => admitted.queued message.1 (List.of_mem_zip mem).1)
    (fun message mem => quiet message.2 (List.of_mem_zip mem).2)
    (by simp [opened, ClientRequests.unblock, noRequests])
    (by simp [opened, ClientRequests.unblock, noBytes])
  have messages : (history.stream.clientRequests.pending.zip turns).map
        (fun message => message.1.1) = history.stream.clientRequests.pending.map Prod.fst := by
    have mapped := congrArg (List.map Prod.fst) firsts
    rwa [List.map_map] at mapped
  have sizes : (history.stream.clientRequests.pending.zip turns).map
        (fun message => message.1.2) = history.stream.clientRequests.pending.map Prod.snd := by
    have mapped := congrArg (List.map Prod.snd) firsts
    rwa [List.map_map] at mapped
  have count : (history.stream.clientRequests.pending.zip turns).length =
      history.stream.clientRequests.pending.length := by
    rw [List.length_zip, length, min_self]
  rw [messages] at served
  rw [Served, openClientRequests]
  refine served.trans ?_
  rw [Fits, sizes, count]
  simp [opened, ClientRequests.unblock, noRequests, noBytes]

section Defaults

/-- A server with default limits and a client that speaks protocol 3. -/
def defaultConfig : StreamConfig := ⟨ResourceOptions.none.streamLimits, 3, fun _ => 40, 4⟩

/-- A turn in which nothing goes wrong. -/
def quietTurn : Turn := ⟨false, true, 0, false, false, true, false⟩

/-- A ping request with a number. -/
def sampleRequest (number : ℕ) : Envelope Unit :=
  ⟨some (Nat.repr number), false, none, none, false, none, none, [("uPingRequest", some ())]⟩

/-- A number of requests arrive before the stream becomes active. -/
def earlyRequests (count : ℕ) : List (StreamEvent Unit) :=
  (List.range count).map (fun number => .receive (sampleRequest number) 64 quietTurn) ++
    [.activate]

/-- The stream after these requests. -/
def waiting (count : ℕ) : StreamHistory Unit :=
  (earlyRequests count).foldl (StreamHistory.advance defaultConfig) (.initial 0)

theorem waiting_reachable {count : ℕ}
    (follows : TransitionSystem.Follows (StreamHistory.advance defaultConfig)
      StreamHistory.Feasible (.initial 0) (earlyRequests count)) :
    (StreamHistory.system defaultConfig).Reachable (waiting count) := by
  have started : (StreamHistory.system defaultConfig).Reachable
      (StreamHistory.initial 0 : StreamHistory Unit) := .start ⟨0, rfl⟩
  exact started.follow _ _ (fun _ _ feasible => ⟨feasible, rfl⟩) follows

theorem quiet_replicate (count : ℕ) : ∀ turn ∈ List.replicate count quietTurn, turn.Quiet := by
  intro turn mem
  rw [List.eq_of_mem_replicate mem]
  exact ⟨rfl, rfl, rfl⟩

theorem two_queued_requests_served :
    Served (waiting 2).stream
      ((waiting 2).stream.openClientRequests defaultConfig (List.replicate 2 quietTurn)) := by
  have reached : (StreamHistory.system defaultConfig).Reachable (waiting 2) :=
    waiting_reachable (by decide +kernel)
  refine (queued_requests_served_iff defaultConfig (waiting 2) (List.replicate 2 quietTurn) reached
    (by decide +kernel) (by decide +kernel) (by decide +kernel) (by decide +kernel)
    (quiet_replicate 2)).mpr ⟨by decide +kernel, by decide +kernel, ?_⟩
  intro message _ _ version
  exact absurd version (by decide)

/-- The default limits admit more requests than they let be in flight. -/
theorem queued_requests_not_served :
    ResourceOptions.none.Accepted ∧
      (StreamHistory.system defaultConfig).Reachable (waiting 65) ∧
      (waiting 65).stream.revoked = false ∧ (waiting 65).stream.isActivated = true ∧
      (waiting 65).stream.clientRequests.pending.length = 65 ∧
      ((waiting 65).stream.openClientRequests defaultConfig
        (List.replicate 65 quietTurn)).closings =
          [(.badArg, "Too many in-flight client requests")] ∧
      ¬Served (waiting 65).stream
        ((waiting 65).stream.openClientRequests defaultConfig (List.replicate 65 quietTurn)) := by
  have revoked : ((waiting 65).stream.openClientRequests defaultConfig
      (List.replicate 65 quietTurn)).revoked = true := by decide +kernel
  refine ⟨⟨?_, ?_⟩, waiting_reachable (by decide +kernel), by decide +kernel, by decide +kernel,
    by decide +kernel, by decide +kernel, ?_⟩
  · simp [ResourceOptions.none, ResourceOptions.limits]
  · simp [ResourceOptions.none]
  · intro served
    cases served.2.symm.trans revoked

end Defaults

end ServerStream

end ServerFoundation.Srpc
