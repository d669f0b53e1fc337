import ServerFoundation.Srpc.ServerFrames

/-!
# The frames of the client

A client writes only on the socket of its current generation, and a generation that
was revoked is never current again. Apart from the timer of a receipt and the end of
a handler, nothing that a client does writes a receipt or a reply.
-/

namespace ServerFoundation.Srpc

variable {Payload : Type}

namespace ClientSession

/-- Only a current generation writes, and no generation becomes current again. -/
structure Guarded (before after : ClientSession Payload) : Prop where
  generation : before.generation ≤ after.generation
  current : ∀ generation, after.IsCurrent generation →
    before.IsCurrent generation ∨ before.generation < generation
  writes : ∀ generation, after.sent generation ≠ before.sent generation →
    before.IsCurrent generation ∨ before.generation < generation

/-- Receipts and replies are not written, and nothing new is handled. -/
structure Calm (before after : ClientSession Payload) : Prop extends Guarded before after where
  plain : ∀ generation, ∃ frames, after.sent generation = before.sent generation ++ frames ∧
    ∀ data ∈ frames, data.requestAck = false ∧ data.reply = false
  handled : ∀ key message, after.handled.get? key = some message →
    ∃ old, before.handled.get? key = some old ∧ old.generation = message.generation ∧
      old.data = message.data ∧ (message.timer = true → old.timer = true)
  nextHandled : after.nextHandled = before.nextHandled

section Relations

variable {before middle after : ClientSession Payload}

theorem Guarded.of_eq (generation : after.generation = before.generation)
    (ws : after.ws = before.ws) (sent : after.sent = before.sent) : Guarded before after where
  generation := generation.ge
  current other isCurrent := by
    rw [IsCurrent, ws, generation] at isCurrent
    exact Or.inl isCurrent
  writes other differs := absurd (congrFun sent other) differs

theorem Guarded.trans (first : Guarded before middle) (second : Guarded middle after) :
    Guarded before after where
  generation := first.generation.trans second.generation
  current generation isCurrent := by
    rcases second.current generation isCurrent with wasCurrent | new
    · exact first.current generation wasCurrent
    · exact Or.inr (first.generation.trans_lt new)
  writes generation differs := by
    by_cases same : middle.sent generation = before.sent generation
    · rw [← same] at differs
      rcases second.writes generation differs with wasCurrent | new
      · exact first.current generation wasCurrent
      · exact Or.inr (first.generation.trans_lt new)
    · exact first.writes generation same

theorem Calm.of_eq (generation : after.generation = before.generation)
    (ws : after.ws = before.ws) (sent : after.sent = before.sent)
    (handled : after.handled = before.handled)
    (nextHandled : after.nextHandled = before.nextHandled) : Calm before after where
  toGuarded := Guarded.of_eq generation ws sent
  plain other := ⟨[], by rw [sent, List.append_nil], fun _ mem => by cases mem⟩
  handled key message found := by
    rw [handled] at found
    exact ⟨message, found, rfl, rfl, id⟩
  nextHandled := nextHandled

theorem Calm.refl (client : ClientSession Payload) : Calm client client :=
  Calm.of_eq rfl rfl rfl rfl rfl

theorem Calm.trans (first : Calm before middle) (second : Calm middle after) :
    Calm before after where
  toGuarded := first.toGuarded.trans second.toGuarded
  plain generation := by
    rcases first.plain generation with ⟨frames, sentMiddle, plainMiddle⟩
    rcases second.plain generation with ⟨later, sentAfter, plainAfter⟩
    refine ⟨frames ++ later, ?_, ?_⟩
    · rw [sentAfter, sentMiddle, List.append_assoc]
    · intro data mem
      rcases List.mem_append.mp mem with old | new
      · exact plainMiddle data old
      · exact plainAfter data new
  handled key message found := by
    rcases second.handled key message found with ⟨old, foundOld, generation, data, timer⟩
    rcases first.handled key old foundOld with ⟨oldest, foundOldest, generation', data', timer'⟩
    exact ⟨oldest, foundOldest, generation'.trans generation, data'.trans data,
      fun isPending => timer' (timer isPending)⟩
  nextHandled := second.nextHandled.trans first.nextHandled

end Relations

section Operations

variable (config : ClientConfig) (client : ClientSession Payload) (generation : ℕ)
  (message data : Envelope Payload) (type : PingPongType)

theorem connect_calm (accepted : Bool) : Calm client (client.connect accepted) where
  generation := Nat.le_succ _
  current generation isCurrent := by
    have same : client.generation + 1 = generation := isCurrent.2
    exact Or.inr (Nat.lt_of_succ_le same.le)
  writes generation differs := absurd rfl differs
  plain generation := ⟨[], (List.append_nil _).symm, fun _ mem => by cases mem⟩
  handled key message found := ⟨message, found, rfl, rfl, id⟩
  nextHandled := rfl

theorem revokeGeneration_calm : Calm client (client.revokeGeneration generation) := by
  rw [revokeGeneration]
  split
  · refine ⟨⟨le_rfl, ?_, ?_⟩, ?_, ?_, rfl⟩
    · intro other isCurrent
      cases isCurrent.1
    · intro other differs
      exact absurd rfl differs
    · intro other
      exact ⟨[], (List.append_nil _).symm, fun _ mem => by cases mem⟩
    · intro key message found
      simp only [cancelAcknowledgments, OrderedMap.get?_mapValues, Option.map_eq_some_iff] at found
      rcases found with ⟨old, foundOld, rfl⟩
      refine ⟨old, foundOld, rfl, rfl, ?_⟩
      intro isPending
      exact (Bool.and_eq_true _ _ ▸ isPending : _ ∧ _).1
  · exact Calm.refl client

theorem interrupted_calm (disconnects : Bool) : Calm client (client.interrupted disconnects) := by
  rw [interrupted]
  split
  · exact client.revokeGeneration_calm _
  · exact Calm.refl client

theorem send_guarded {generation : ℕ} (isCurrent : client.IsCurrent generation)
    (message : Envelope Payload) : Guarded client (client.send generation message) where
  generation := le_rfl
  current other wasCurrent := Or.inl wasCurrent
  writes other differs := by
    by_cases same : other = generation
    · rw [same]
      exact Or.inl isCurrent
    · exact absurd (Function.update_of_ne same _ _) differs

theorem writeMessage_cases (outcome : WriteOutcome) :
    Calm client (client.writeMessage generation message outcome).1 ∧
        (client.writeMessage generation message outcome).1.sent = client.sent ∨
      client.IsCurrent generation ∧
        Calm (client.send generation message)
            (client.writeMessage generation message outcome).1 := by
  have revoked : (client.revokeGeneration generation).sent = client.sent := by
    rw [revokeGeneration]
    split <;> rfl
  cases outcome with
  | notEncodable => exact Or.inl ⟨Calm.refl client, rfl⟩
  | notOpen => exact Or.inl ⟨Calm.refl client, rfl⟩
  | overLimit => exact Or.inl ⟨client.revokeGeneration_calm generation, revoked⟩
  | threw => exact Or.inl ⟨client.revokeGeneration_calm generation, revoked⟩
  | sent loggerDisconnects =>
      rw [writeMessage]
      split
      · rename_i isCurrent
        exact Or.inr ⟨isCurrent, interrupted_calm _ loggerDisconnects⟩
      · exact Or.inl ⟨Calm.refl client, rfl⟩

theorem writeMessage_guarded (outcome : WriteOutcome) :
    Guarded client (client.writeMessage generation message outcome).1 := by
  rcases client.writeMessage_cases generation message outcome with ⟨calm, _⟩ | ⟨isCurrent, calm⟩
  · exact calm.toGuarded
  · exact (client.send_guarded isCurrent message).trans calm.toGuarded

theorem writeMessage_calm {message : Envelope Payload}
    (plain : message.requestAck = false ∧ message.reply = false) (outcome : WriteOutcome) :
    Calm client (client.writeMessage generation message outcome).1 := by
  rcases client.writeMessage_cases generation message outcome with ⟨calm, _⟩ | ⟨isCurrent, calm⟩
  · exact calm
  · refine Calm.trans ⟨client.send_guarded isCurrent message, ?_, ?_, rfl⟩ calm
    · intro other
      by_cases same : other = generation
      · subst same
        refine ⟨[message], Function.update_self _ _ _, ?_⟩
        intro data mem
        rw [List.mem_singleton.mp mem]
        exact plain
      · refine ⟨[], ?_, fun _ mem => by cases mem⟩
        rw [List.append_nil]
        exact Function.update_of_ne same _ _
    · intro key handledMessage found
      exact ⟨handledMessage, found, rfl, rfl, id⟩

theorem greet_calm (outcome : WriteOutcome) :
    Calm client (client.greet generation type outcome).1 := by
  rw [greet]
  split
  · refine Calm.trans ?_ (writeMessage_calm _ generation ⟨rfl, rfl⟩ outcome)
    exact Calm.of_eq rfl rfl rfl rfl rfl
  · exact Calm.of_eq rfl rfl rfl rfl rfl

theorem completeConnection_calm : Calm client (client.completeConnection generation) := by
  rw [completeConnection]
  split
  · exact Calm.of_eq rfl rfl rfl rfl rfl
  · exact Calm.refl client

theorem handleInitialHandshake_calm (turn : ClientTurn) :
    Calm client (client.handleInitialHandshake generation data turn) := by
  rw [handleInitialHandshake]
  split
  · rename_i received _ _
    have greeted := client.greet_calm generation (received.getD .unspecified) turn.outcome
    simp only
    split
    · exact greeted
    · have awaits := greeted.trans (Calm.of_eq rfl rfl rfl rfl rfl :
        Calm (client.greet generation (received.getD .unspecified) turn.outcome).1
          { (client.greet generation (received.getD .unspecified) turn.outcome).1 with
            awaitingActivation :=
              some (generation, decide (IsGreeting (received.getD .unspecified)))
            listener := .handleMessage })
      split
      · exact awaits.trans (completeConnection_calm _ generation)
      · exact awaits
  · exact client.revokeGeneration_calm generation

theorem receivePingPong_calm (turn : ClientTurn) :
    Calm client (client.receivePingPong generation type turn) := by
  simp only [receivePingPong]
  split
  · have answered : Calm client
        (client.writeMessage generation (.helloAnswer type) turn.outcome).1 :=
      client.writeMessage_calm generation ⟨rfl, rfl⟩ turn.outcome
    split
    · exact answered.trans (Calm.of_eq rfl rfl rfl rfl rfl)
    · exact answered
  · split
    · exact client.completeConnection_calm generation
    · exact Calm.refl client

/-- The client starts to handle a message. -/
def handling (generation : ℕ) (data : Envelope Payload) (bytes : ℕ) : ClientSession Payload :=
  { client with
    inFlight := client.inFlight + 1
    inFlightBytes := client.inFlightBytes + bytes
    handled := client.handled.set client.nextHandled
      ⟨generation, data, bytes, !data.isSrpcNotification && config.protocolVersion == 4⟩
    nextHandled := client.nextHandled + 1 }

theorem dispatchMessage_cases (bytes : ℕ) (turn : ClientTurn) :
    Calm client (client.dispatchMessage config generation data bytes turn) ∨
      client.dispatchMessage config generation data bytes turn =
          client.handling config generation data bytes ∧
        (data.isSrpcNotification = false →
          ∃ requestId, data.requestId? = some requestId ∧ data.serverRequestId? =
              some requestId) := by
  have revoked := client.revokeGeneration_calm generation
  rw [dispatchMessage]
  split
  · split
    · exact Or.inl revoked
    · exact Or.inl (Calm.refl client)
  · rename_i notAcknowledgment
    split
    · exact Or.inl (client.receivePingPong_calm generation _ turn)
    · rename_i notPing
      split
      · exact Or.inl (Calm.refl client)
      · split
        · split
          · exact Or.inl (Calm.refl client)
          · exact Or.inl revoked
        · rename_i notByteStream
          split
          · exact Or.inl revoked
          · rename_i identified
            split
            · split
              · exact Or.inl (Calm.refl client)
              · exact Or.inl revoked
            · rename_i notReply
              rw [startHandler]
              split
              · exact Or.inl revoked
              · refine Or.inr ⟨rfl, ?_⟩
                intro notNotification
                cases found : data.requestId? with
                | none => exact absurd ⟨by simp [found], notNotification⟩ identified
                | some requestId =>
                    refine ⟨requestId, rfl, ?_⟩
                    simp only [found, Option.isSome_some, and_true] at notReply
                    rw [Envelope.serverRequestId?, if_neg]
                    · exact found
                    · simp only [not_or]
                      exact ⟨notAcknowledgment, by simp [notPing], notByteStream, notReply⟩

theorem receive_cases (bytes : ℕ) (turn : ClientTurn) :
    Calm client (client.receive config generation data bytes turn) ∨
      ∃ middle, Calm client middle ∧
        client.receive config generation data bytes turn =
          middle.handling config generation data bytes ∧
        (data.isSrpcNotification = false →
          ∃ requestId, data.requestId? = some requestId ∧ data.serverRequestId? =
              some requestId) := by
  have revoked := client.revokeGeneration_calm generation
  rw [receive]
  split
  · split
    · exact Or.inl (client.handleInitialHandshake_calm generation data turn)
    · rw [handleMessage]
      split
      · exact Or.inl revoked
      · split
        · exact Or.inl revoked
        · have logged := client.interrupted_calm turn.loggerDisconnects
          rcases (client.interrupted turn.loggerDisconnects).dispatchMessage_cases config generation
            data bytes turn with calm | ⟨starts, isRequest⟩
          · exact Or.inl (logged.trans calm)
          · exact Or.inr ⟨_, logged, starts, isRequest⟩
    · exact Or.inl (Calm.refl client)
  · exact Or.inl (Calm.refl client)

theorem receive_guarded (bytes : ℕ) (turn : ClientTurn) :
    Guarded client (client.receive config generation data bytes turn) := by
  rcases client.receive_cases config generation data bytes turn with calm |
    ⟨middle, calm, starts, _⟩
  · exact calm.toGuarded
  · rw [starts]
    exact calm.toGuarded.trans (Guarded.of_eq rfl rfl rfl)

theorem acknowledgmentTimer_guarded (key : ℕ) (outcome : WriteOutcome) :
    Guarded client (client.acknowledgmentTimer key outcome) := by
  rw [acknowledgmentTimer]
  split
  · exact Guarded.of_eq rfl rfl rfl
  · split
    · refine Guarded.trans ?_ (writeMessage_guarded _ _ _ _)
      exact Guarded.of_eq rfl rfl rfl
    · exact Guarded.of_eq rfl rfl rfl

theorem handlerFinished_guarded (key : ℕ) (error : Option String) (userError : Option Bool)
    (fields : List (String × Option Payload)) (outcome : WriteOutcome) :
    Guarded client (client.handlerFinished key error userError fields outcome) := by
  rw [handlerFinished]
  split
  · exact Guarded.of_eq rfl rfl rfl
  · rename_i message _
    have written : Guarded client (client.writeReply message error userError fields outcome) := by
      rw [writeReply]
      split
      · exact Guarded.of_eq rfl rfl rfl
      · exact client.writeMessage_guarded _ _ _
    rw [forget]
    split
    · exact written.trans (Guarded.of_eq rfl rfl rfl)
    · exact written.trans (Guarded.of_eq rfl rfl rfl)

end Operations

end ClientSession

namespace Conversation

variable {config : ConversationConfig} {conversation after : Conversation Payload}
  {event : ConversationEvent Payload}

theorem Effect.guarded (effect : Effect config conversation event after) :
    ClientSession.Guarded conversation.client after.client := by
  cases effect with
  | connect accepted => exact (ClientSession.connect_calm _ _).toGuarded
  | revoke => exact (ClientSession.revokeGeneration_calm _ _).toGuarded
  | write outcome plain => exact ClientSession.writeMessage_guarded _ _ _ _
  | timer key outcome => exact ClientSession.acknowledgmentTimer_guarded _ _ _
  | finished key error userError fields outcome =>
      exact ClientSession.handlerFinished_guarded _ _ _ _ _ _
  | arrived turn found => exact ClientSession.receive_guarded _ _ _ _ _ _
  | idle => exact ClientSession.Guarded.of_eq rfl rfl rfl
  | served generation emits => exact ClientSession.Guarded.of_eq rfl rfl rfl

/-- The generation has been opened and is not current. -/
def Revoked (conversation : Conversation Payload) (generation : ℕ) : Prop :=
  generation ≤ conversation.client.generation ∧ ¬conversation.client.IsCurrent generation

theorem revoked_silent (reachable : (system config).Reachable conversation) {generation : ℕ}
    (revoked : conversation.Revoked generation)
    (later : ((system config).startingAt conversation).Reachable after) :
    (system config).Reachable after ∧ after.Revoked generation ∧
      after.client.sent generation = conversation.client.sent generation := by
  refine later.invariant (fun after : Conversation Payload =>
    (system config).Reachable after ∧ after.Revoked generation ∧
      after.client.sent generation = conversation.client.sent generation) ?_ ?_
  · rintro _ rfl
    exact ⟨reachable, revoked, rfl⟩
  · rintro before event next _ ⟨reached, ⟨opened, notCurrent⟩, same⟩ taken
    have guarded := (step_effect reached taken).guarded
    have closed : ∀ {proposition : Prop},
        (proposition → before.client.IsCurrent generation ∨ before.client.generation < generation) →
        ¬proposition := by
      intro proposition opens holds
      rcases opens holds with isCurrent | new
      · exact notCurrent isCurrent
      · exact absurd opened (not_le.mpr new)
    refine ⟨reached.step taken, ⟨opened.trans guarded.generation, ?_⟩, ?_⟩
    · exact closed (guarded.current generation)
    · rw [← same]
      exact not_not.mp (closed (guarded.writes generation))

end Conversation

end ServerFoundation.Srpc
