import ServerFoundation.Srpc.Conversation

/-!
# The frames of the server

What a stream has sent to its client: one greeting, no other ping before
`activateStream` was executed, and each of its requests at most once. Whatever a
stream does, its history stays that of a run of one stream.
-/

namespace ServerFoundation.Srpc

variable {Payload : Type}

namespace StreamHistory

variable (config : StreamConfig)

/-- Steps of the stream lead from one history to the other. -/
def Leads (config : StreamConfig) (before after : StreamHistory Payload) : Prop :=
  (system config).Reachable before →
    (system config).Reachable after ∧
      (before.stream.isActivated = true → after.stream.isActivated = true) ∧
      before.requestIds ⊆ after.requestIds

namespace Leads

variable {config : StreamConfig} {before middle after : StreamHistory Payload}

theorem refl (history : StreamHistory Payload) : Leads config history history :=
  fun reachable => ⟨reachable, id, List.Subset.refl _⟩

theorem trans (first : Leads config before middle) (second : Leads config middle after) :
    Leads config before after := by
  intro reachable
  rcases first reachable with ⟨reachableMiddle, activatedFirst, idsFirst⟩
  rcases second reachableMiddle with ⟨reachableAfter, activatedSecond, idsSecond⟩
  exact ⟨reachableAfter, fun wasActivated => activatedSecond (activatedFirst wasActivated),
    List.Subset.trans idsFirst idsSecond⟩

end Leads

theorem advance_requestIds (history : StreamHistory Payload) (event : StreamEvent Payload) :
    history.requestIds ⊆ (history.advance config event).requestIds := by
  cases event with
  | invoke requestId resultType encoded timeoutMs turn loggerThrows =>
      exact List.subset_cons_self _ _
  | _ => exact List.Subset.refl _

theorem advance_leads {history : StreamHistory Payload} {event : StreamEvent Payload}
    (feasible : history.Feasible event) : Leads config history (history.advance config event) := by
  intro reachable
  have effect : Effect config history event (history.advance config event) :=
    advance_effect (reachable_admitted reachable) feasible
  refine ⟨reachable.step ⟨feasible, rfl⟩, ?_, advance_requestIds config history event⟩
  exact effect.activated (reachable_correlated reachable).1

end StreamHistory

namespace ServerStream

variable (stream : ServerStream Payload)

theorem revokeStream_isActivated (cause : DisconnectCause) :
    (stream.revokeStream cause).isActivated = stream.isActivated := by
  rw [revokeStream]
  split <;> rfl

theorem interrupted_isActivated (closes : Bool) :
    (stream.interrupted closes).isActivated = stream.isActivated := by
  rw [interrupted]
  split
  · exact stream.revokeStream_isActivated _
  · rfl

end ServerStream

namespace Link

variable {config : ConversationConfig} {link : Link Payload} {after : Link Payload}
  {frames : List (Envelope Payload × ℕ)} {frame : Envelope Payload × ℕ}

/-- The ids of the requests among some frames. -/
def requestIdsOf (frames : List (Envelope Payload × ℕ)) : List String :=
  frames.filterMap fun frame => frame.1.serverRequestId?

/-- The frame is a greeting. -/
def isHello (frame : Envelope Payload × ℕ) : Bool := frame.1.pingPong == some (some .hello)

/-- How many greetings a stream may have sent. -/
def helloLimit (link : Link Payload) : ℕ := if link.phase = .established then 0 else 1

/-- What every link keeps. -/
structure Sound (config : ConversationConfig) (link : Link Payload) : Prop where
  reachable : (StreamHistory.system config.stream).Reachable link.history
  within : link.delivered ≤ link.outgoing.length
  typed : ∀ frame ∈ link.outgoing, ∀ type, frame.1.pingPong = some type →
    type = some .hello ∨
      (type = some .activated ∨ type = some .pong) ∧ link.history.stream.isActivated = true
  greetings : (link.outgoing.filter isHello).length ≤ link.helloLimit
  requests : requestIdsOf link.outgoing ⊆ link.history.requestIds
  once : (requestIdsOf link.outgoing).Nodup

/-- A step that sends these frames. -/
structure Emits (config : ConversationConfig) (before after : Link Payload)
    (frames : List (Envelope Payload × ℕ)) : Prop where
  leads : StreamHistory.Leads config.stream before.history after.history
  outgoing : after.outgoing = before.outgoing ++ frames
  delivered : after.delivered = before.delivered
  typed : ∀ frame ∈ frames, ∀ type, frame.1.pingPong = some type →
    type = some .hello ∨
      (type = some .activated ∨ type = some .pong) ∧ after.history.stream.isActivated = true
  greetings : before.helloLimit + (frames.filter isHello).length ≤ after.helloLimit
  requests : requestIdsOf frames ⊆ after.history.requestIds
  fresh : ∀ requestId ∈ requestIdsOf frames, requestId ∉ before.history.requestIds
  once : (requestIdsOf frames).Nodup

theorem Sound.emits (sound : link.Sound config) (emits : Emits config link after frames) :
    after.Sound config := by
  rcases emits.leads sound.reachable with ⟨reachable, activated, requestIds⟩
  refine ⟨reachable, ?_, ?_, ?_, ?_, ?_⟩
  · rw [emits.delivered, emits.outgoing, List.length_append]
    exact sound.within.trans (Nat.le_add_right _ _)
  · intro frame mem type isPing
    rw [emits.outgoing, List.mem_append] at mem
    rcases mem with old | new
    · rcases sound.typed frame old type isPing with isHello | ⟨known, wasActivated⟩
      · exact Or.inl isHello
      · exact Or.inr ⟨known, activated wasActivated⟩
    · exact emits.typed frame new type isPing
  · rw [emits.outgoing, List.filter_append, List.length_append]
    have greetings := sound.greetings
    have added := emits.greetings
    omega
  · rw [emits.outgoing, requestIdsOf, List.filterMap_append]
    exact List.append_subset.mpr
      ⟨List.Subset.trans sound.requests requestIds, emits.requests⟩
  · rw [emits.outgoing, requestIdsOf, List.filterMap_append]
    refine List.nodup_append.mpr ⟨sound.once, emits.once, ?_⟩
    intro old oldMem new newMem same
    subst same
    exact emits.fresh old newMem (sound.requests oldMem)

section Emission

variable (data : Envelope Payload) (bytes : ℕ)

theorem emits_of_plain {after : Link Payload} {frames : List (Envelope Payload × ℕ)}
    (leads : StreamHistory.Leads config.stream link.history after.history)
    (outgoing : after.outgoing = link.outgoing ++ frames)
    (delivered : after.delivered = link.delivered) (phase : link.helloLimit ≤ after.helloLimit)
    (typed : ∀ frame ∈ frames, ∀ type, frame.1.pingPong = some type →
      (type = some .activated ∨ type = some .pong) ∧ after.history.stream.isActivated = true)
    (notRequest : requestIdsOf frames = []) : Emits config link after frames := by
  have noHello : frames.filter isHello = [] := by
    rw [List.filter_eq_nil_iff]
    intro frame mem isGreeting
    rcases (typed frame mem _ (eq_of_beq isGreeting)).1 with impossible | impossible
    · cases impossible
    · cases impossible
  refine ⟨leads, outgoing, delivered, ?_, ?_, ?_, ?_, ?_⟩
  · intro frame mem type isPing
    exact Or.inr (typed frame mem type isPing)
  · rw [noHello]
    exact phase
  · rw [notRequest]
    exact List.nil_subset _
  · rw [notRequest]
    intro requestId mem
    cases mem
  · rw [notRequest]
    exact List.nodup_nil

theorem advance_leads (config : ConversationConfig) (link : Link Payload)
    (event : StreamEvent Payload) (feasible : link.history.Feasible event) :
    StreamHistory.Leads config.stream link.history (link.advance config event).history :=
  StreamHistory.advance_leads config.stream feasible

theorem advance_emits {event : StreamEvent Payload} (feasible : link.history.Feasible event) :
    Emits config link (link.advance config event) [] := by
  refine emits_of_plain (StreamHistory.advance_leads _ feasible) (List.append_nil _).symm rfl le_rfl
    ?_ rfl
  intro frame mem
  cases mem

theorem writeToStream_leads (turn : Turn) :
    StreamHistory.Leads config.stream link.history
      (link.writeToStream config data bytes turn).history :=
  link.advance_leads config (.write bytes turn) trivial

theorem writeToStream_outgoing (turn : Turn) :
    (link.writeToStream config data bytes turn).outgoing = link.outgoing ∨
      (link.writeToStream config data bytes turn).outgoing =
        link.outgoing ++ [(data, bytes)] := by
  simp only [writeToStream]
  split
  · exact Or.inr rfl
  · exact Or.inl rfl

theorem writeToStream_emits {data : Envelope Payload} (notPing : data.pingPong = none)
    (notRequest : data.serverRequestId? = none) (bytes : ℕ) (turn : Turn) :
    ∃ frames, Emits config link (link.writeToStream config data bytes turn) frames := by
  have leads := @writeToStream_leads _ config link data bytes turn
  rcases @writeToStream_outgoing _ config link data bytes turn with same | sent
  · refine ⟨[], emits_of_plain leads (same.trans (List.append_nil _).symm) rfl le_rfl ?_ rfl⟩
    intro frame mem
    cases mem
  · refine ⟨_, emits_of_plain leads sent rfl le_rfl ?_ ?_⟩
    · intro frame mem type isPing
      cases List.mem_singleton.mp mem
      cases notPing.symm.trans isPing
    · simp [requestIdsOf, notRequest]

theorem writeOrCleanup_leads (turn : Turn) :
    StreamHistory.Leads config.stream link.history
      (link.writeOrCleanup config data bytes turn).history := by
  rw [writeOrCleanup]
  split
  · exact writeToStream_leads data bytes turn
  · refine (writeToStream_leads data bytes turn).trans ?_
    exact advance_leads config _ (.revoke .disconnect) trivial

theorem writeOrCleanup_outgoing (turn : Turn) :
    (link.writeOrCleanup config data bytes turn).outgoing = link.outgoing ∨
      (link.writeOrCleanup config data bytes turn).outgoing =
        link.outgoing ++ [(data, bytes)] := by
  rw [writeOrCleanup]
  split
  · exact writeToStream_outgoing data bytes turn
  · exact writeToStream_outgoing data bytes turn

theorem writeOrCleanup_delivered (turn : Turn) :
    (link.writeOrCleanup config data bytes turn).delivered = link.delivered := by
  rw [writeOrCleanup]
  split <;> rfl

theorem writeOrCleanup_phase (turn : Turn) :
    (link.writeOrCleanup config data bytes turn).phase = link.phase := by
  rw [writeOrCleanup]
  split <;> rfl

theorem hello_emits (established : link.phase = .established) (turn : Turn) :
    ∃ frames, Emits config link (link.hello config turn) frames := by
  have leads := @writeOrCleanup_leads _ config link (.ofPingPong (some .hello)) config.helloBytes
    turn
  have delivered := @writeOrCleanup_delivered _ config link (.ofPingPong (some .hello))
    config.helloBytes turn
  have before : link.helloLimit = 0 := if_pos established
  have after : (link.hello config turn).helloLimit = 1 := rfl
  rcases @writeOrCleanup_outgoing _ config link (.ofPingPong (some .hello)) config.helloBytes turn
    with same | sent
  · refine ⟨[], emits_of_plain leads (same.trans (List.append_nil _).symm) delivered ?_ ?_ rfl⟩
    · rw [before]
      exact Nat.zero_le _
    · intro frame mem
      cases mem
  · refine ⟨_, leads, sent, delivered, ?_, ?_, ?_, ?_, ?_⟩
    · intro frame mem type isPing
      cases List.mem_singleton.mp mem
      cases isPing
      exact Or.inl rfl
    · rw [before, after]
      rfl
    · exact List.nil_subset _
    · intro requestId mem
      cases mem
    · exact List.nodup_nil

theorem activateStream_leads (live : link.history.stream.revoked = false) (turn : Turn) :
    StreamHistory.Leads config.stream link.history (link.activateStream config turn).history := by
  have activates : StreamHistory.Leads config.stream link.history
      (link.advance config .activate).history := link.advance_leads config .activate live
  simp only [activateStream]
  split
  · refine activates.trans ?_
    exact advance_leads config { link.advance config .activate with phase := .activated }
      (.revoke .disconnect) trivial
  · exact activates

theorem activateStream_isActivated (turn : Turn) :
    (link.activateStream config turn).history.stream.isActivated = true := by
  simp only [activateStream]
  split
  · exact ServerStream.revokeStream_isActivated _ _
  · rfl

theorem activateStream_frame (turn : Turn) :
    (link.activateStream config turn).outgoing = link.outgoing ∧
      (link.activateStream config turn).delivered = link.delivered ∧
      (link.activateStream config turn).phase = .activated := by
  simp only [activateStream]
  split <;> exact ⟨rfl, rfl, rfl⟩

theorem activate_emits (sound : link.Sound config) (greeted : link.phase = .greeted)
    (live : link.history.stream.revoked = false) (turn : Turn) :
    ∃ frames, Emits config link (link.activate config turn) frames := by
  let active := link.activateStream config turn
  have activates : StreamHistory.Leads config.stream link.history active.history :=
    activateStream_leads live turn
  have writes := @writeOrCleanup_leads _ config active (.ofPingPong (some .activated))
    config.activatedBytes turn
  rcases @activateStream_frame _ config link turn with
    ⟨sameOutgoing, sameDelivered, isActive⟩
  have delivered : (link.activate config turn).delivered = link.delivered :=
    (writeOrCleanup_delivered _ _ _).trans sameDelivered
  have limits : link.helloLimit ≤ (link.activate config turn).helloLimit := by
    have phase : (link.activate config turn).phase = .activated :=
      (writeOrCleanup_phase _ _ _).trans isActive
    rw [helloLimit, helloLimit, greeted, phase]
    rfl
  have isActivated : (link.activate config turn).history.stream.isActivated = true :=
    (writes (activates sound.reachable).1).2.1 (activateStream_isActivated turn)
  rcases @writeOrCleanup_outgoing _ config active (.ofPingPong (some .activated))
    config.activatedBytes turn with same | sent
  · refine ⟨[], emits_of_plain (activates.trans writes) ?_ delivered limits ?_ rfl⟩
    · rw [List.append_nil, ← sameOutgoing]
      exact same
    · intro frame mem
      cases mem
  · refine ⟨[(.ofPingPong (some .activated), config.activatedBytes)],
      emits_of_plain (activates.trans writes) ?_ delivered limits ?_ rfl⟩
    · rw [← sameOutgoing]
      exact sent
    · intro frame mem type isPing
      cases List.mem_singleton.mp mem
      cases isPing
      exact ⟨Or.inl rfl, isActivated⟩

theorem serverRequestId?_serverRequest (requestId requestType : String)
    (payload : Option Payload) :
    (Envelope.serverRequest requestId requestType payload).serverRequestId? =
      (some requestId).filter (· ≠ "") := by
  simp [Envelope.serverRequestId?, Envelope.serverRequest, Envelope.requestId?]

theorem invoke_emits {requestId : String} (fresh : requestId ∉ link.history.requestIds)
    (method : String) (payload : Option Payload) (encoded : Option ℕ) (timeoutMs : ℕ)
    (turn : Turn) (loggerThrows : Bool) :
    ∃ frames, Emits config link
      (link.invoke config requestId method payload encoded timeoutMs turn loggerThrows)
      frames := by
  have leads : StreamHistory.Leads config.stream link.history
      (link.invoke config requestId method payload encoded timeoutMs turn loggerThrows).history :=
    link.advance_leads config (.invoke requestId (method ++ "Response") encoded timeoutMs turn
      loggerThrows) fresh
  have named : ∀ frame ∈ ((link.history.stream.invocationSent config.stream requestId encoded
      turn).map fun bytes => (Envelope.serverRequest requestId (method ++ "Request") payload,
        bytes)).toList, frame.1.pingPong = none ∧
      (frame.1.serverRequestId? = some requestId ∨ frame.1.serverRequestId? = none) := by
    intro frame mem
    simp only [Option.mem_toList, Option.map_eq_some_iff] at mem
    rcases mem with ⟨bytes, _, rfl⟩
    refine ⟨rfl, ?_⟩
    simp only [serverRequestId?_serverRequest]
    by_cases empty : requestId = ""
    · exact Or.inr (by simp [empty])
    · exact Or.inl (by simp [empty])
  have noHello : (((link.history.stream.invocationSent config.stream requestId encoded
      turn).map fun bytes => (Envelope.serverRequest requestId (method ++ "Request") payload,
        bytes)).toList).filter isHello = [] := by
    rw [List.filter_eq_nil_iff]
    intro frame mem isGreeting
    cases (named frame mem).1.symm.trans (eq_of_beq isGreeting)
  have ids : ∀ id ∈ requestIdsOf (((link.history.stream.invocationSent config.stream requestId
      encoded turn).map fun bytes => (Envelope.serverRequest requestId (method ++ "Request")
        payload, bytes)).toList), id = requestId := by
    intro id mem
    rcases List.mem_filterMap.mp mem with ⟨frame, frameMem, isId⟩
    rcases (named frame frameMem).2 with isRequest | notRequest
    · exact (Option.some.inj (isRequest.symm.trans isId)).symm
    · cases notRequest.symm.trans isId
  refine ⟨_, leads, rfl, rfl, ?_, ?_, ?_, ?_, ?_⟩
  · intro frame mem type isPing
    cases (named frame mem).1.symm.trans isPing
  · rw [noHello]
    exact le_rfl
  · intro id mem
    rw [ids id mem]
    exact List.mem_cons_self
  · intro id mem
    rw [ids id mem]
    exact fresh
  · cases link.history.stream.invocationSent config.stream requestId encoded turn with
    | none => exact List.nodup_nil
    | some bytes =>
        simp only [Option.map_some, Option.toList_some, requestIdsOf, List.filterMap_cons]
        split
        · exact List.nodup_nil
        · exact List.nodup_singleton _

theorem receive_emits (sound : link.Sound config) (data : Envelope Payload) (bytes : ℕ)
    (turn : Turn) :
    ∃ frames, Emits config link (link.receive config data bytes turn) frames := by
  rw [receive]
  split
  · refine ⟨[], emits_of_plain (.refl _) (List.append_nil _).symm rfl le_rfl ?_ rfl⟩
    intro frame mem
    cases mem
  · have leads : StreamHistory.Leads config.stream link.history
        (link.advance config (.receive data bytes turn)).history :=
      link.advance_leads config (.receive data bytes turn) trivial
    by_cases pong : link.history.stream.pongSent config.stream data turn = true
    · refine ⟨[(.ofPingPong (some .pong), config.stream.pongBytes)],
        emits_of_plain leads (if_pos pong) rfl le_rfl ?_ rfl⟩
      intro frame mem type isPing
      cases List.mem_singleton.mp mem
      cases isPing
      refine ⟨Or.inr rfl, (leads sound.reachable).2.1 ?_⟩
      simp only [ServerStream.pongSent, Bool.and_eq_true,
        ServerStream.interrupted_isActivated] at pong
      exact pong.1.1.2
    · refine ⟨[], emits_of_plain leads ((if_neg pong).trans (List.append_nil _).symm) rfl le_rfl ?_
        rfl⟩
      intro frame mem
      cases mem

end Emission

/-- The frames that have arrived at the client. -/
def arrived (link : Link Payload) : List (Envelope Payload × ℕ) :=
  link.outgoing.take link.delivered

theorem Emits.arrived (sound : link.Sound config) (emits : Emits config link after frames) :
    after.arrived = link.arrived := by
  rw [Link.arrived, emits.outgoing, emits.delivered, List.take_append_of_le_length sound.within]
  rfl

theorem arrived_succ (found : link.outgoing[link.delivered]? = some frame) :
    { link with delivered := link.delivered + 1 }.arrived = link.arrived ++ [frame] := by
  rw [arrived, List.take_add_one, found]
  rfl

theorem Sound.deliver (sound : link.Sound config)
    (found : link.outgoing[link.delivered]? = some frame) :
    { link with delivered := link.delivered + 1 }.Sound config := by
  rcases List.getElem?_eq_some_iff.mp found with ⟨bound, _⟩
  exact ⟨sound.reachable, bound, sound.typed, sound.greetings, sound.requests, sound.once⟩

theorem requestIdsOf_arrived (link : Link Payload) :
    (requestIdsOf link.arrived).Sublist (requestIdsOf link.outgoing) :=
  (List.take_sublist _ _).filterMap _

theorem opened_sound (now : ℤ) : (opened now : Link Payload).Sound config where
  reachable := .start ⟨now, rfl⟩
  within := le_rfl
  typed _ mem := by cases mem
  greetings := le_rfl
  requests := List.nil_subset _
  once := List.nodup_nil

end Link

namespace Conversation

variable {config : ConversationConfig} {conversation after : Conversation Payload}
  {event : ConversationEvent Payload}

/-- What a step does. -/
inductive Effect (config : ConversationConfig) (before : Conversation Payload) :
    ConversationEvent Payload → Conversation Payload → Prop where
  | connect (accepted : Bool) :
      Effect config before (.connect accepted)
        { before with client := before.client.connect accepted }
  | revoke :
      Effect config before .revokeGeneration
        { before with client := before.client.revokeGeneration before.client.generation }
  | write {message : Envelope Payload} (outcome : WriteOutcome)
      (plain : message.requestAck = false ∧ message.reply = false) :
      Effect config before (.write message outcome)
        { before with
          client := (before.client.writeMessage before.client.generation message outcome).1 }
  | timer (key : ℕ) (outcome : WriteOutcome) :
      Effect config before (.acknowledgmentTimer key outcome)
        { before with client := before.client.acknowledgmentTimer key outcome }
  | finished (key : ℕ) (error : Option String) (userError : Option Bool)
      (fields : List (String × Option Payload)) (outcome : WriteOutcome) :
      Effect config before (.handlerFinished key error userError fields outcome)
        { before with client := before.client.handlerFinished key error userError fields outcome }
  | arrived {generation : ℕ} {data : Envelope Payload} {bytes : ℕ} (turn : ClientTurn)
      (found : (before.links generation).outgoing[(before.links generation).delivered]? =
        some (data, bytes)) :
      Effect config before (.deliverToClient generation turn)
        { before.setLink generation { before.links generation with
            delivered := (before.links generation).delivered + 1 } with
          client := before.client.receive config.client generation (config.decode data) bytes turn }
  | idle {event : ConversationEvent Payload} : Effect config before event before
  | served {event : ConversationEvent Payload} (generation : ℕ) {link : Link Payload}
      {frames : List (Envelope Payload × ℕ)}
      (emits : Link.Emits config (before.links generation) link frames) :
      Effect config before event (before.setLink generation link)

theorem advance_effect (sound : ∀ generation, (conversation.links generation).Sound config)
    (feasible : conversation.Feasible event) :
    Effect config conversation event (conversation.advance config event) := by
  cases event with
  | connect accepted => exact .connect accepted
  | revokeGeneration => exact .revoke
  | write message outcome => exact .write outcome feasible
  | acknowledgmentTimer key outcome => exact .timer key outcome
  | handlerFinished key error userError fields outcome =>
      exact .finished key error userError fields outcome
  | deliverToClient generation turn =>
      simp only [advance, deliverToClient]
      split
      · exact .idle
      · rename_i data bytes found
        exact .arrived turn found
  | deliverToServer generation bytes turn =>
      simp only [advance, deliverToServer]
      split
      · exact .idle
      · rename_i data found
        rcases Link.receive_emits (sound generation) (config.decode data) bytes turn with
          ⟨frames, emits⟩
        exact .served generation ⟨emits.leads, emits.outgoing, emits.delivered, emits.typed,
          emits.greetings, emits.requests, emits.fresh, emits.once⟩
  | hello generation turn =>
      rcases Link.hello_emits feasible.1 turn with ⟨frames, emits⟩
      exact .served generation emits
  | activate generation turn =>
      rcases Link.activate_emits (sound generation) feasible.1 feasible.2 turn with ⟨frames, emits⟩
      exact .served generation emits
  | invoke generation requestId method payload encoded timeoutMs turn loggerThrows =>
      rcases Link.invoke_emits feasible method payload encoded timeoutMs turn loggerThrows with
        ⟨frames, emits⟩
      exact .served generation emits
  | writeToStream generation data bytes turn =>
      rcases Link.writeToStream_emits feasible.1 feasible.2 bytes turn with ⟨frames, emits⟩
      exact .served generation emits
  | stream generation event => exact .served generation (Link.advance_emits feasible.2)

theorem Effect.links_sound (effect : Effect config conversation event after)
    (sound : ∀ generation, (conversation.links generation).Sound config) (generation : ℕ) :
    (after.links generation).Sound config := by
  cases effect with
  | @arrived changed data bytes turn found =>
      by_cases same : generation = changed
      · subst same
        simp only [setLink, Function.update_self]
        exact (sound generation).deliver found
      · simp only [setLink, Function.update_of_ne same]
        exact sound generation
  | @served _ changed link frames emits =>
      by_cases same : generation = changed
      · subst same
        simp only [setLink, Function.update_self]
        exact (sound generation).emits emits
      · simp only [setLink, Function.update_of_ne same]
        exact sound generation
  | _ => exact sound generation

theorem reachable_links (reachable : (system config).Reachable conversation) (generation : ℕ) :
    (conversation.links generation).Sound config := by
  refine reachable.invariant (fun conversation : Conversation Payload =>
    ∀ generation, (conversation.links generation).Sound config) ?_ ?_ generation
  · rintro _ ⟨now, rfl⟩ generation
    exact Link.opened_sound (now generation)
  · rintro before event _ _ sound ⟨feasible, rfl⟩
    exact (advance_effect sound feasible).links_sound sound

theorem step_effect (reachable : (system config).Reachable conversation)
    (taken : (system config).Step conversation event after) :
    Effect config conversation event after := by
  rcases taken with ⟨feasible, rfl⟩
  exact advance_effect (reachable_links reachable) feasible

theorem Effect.arrived_mono (effect : Effect config conversation event after)
    (sound : ∀ generation, (conversation.links generation).Sound config) (generation : ℕ) :
    (conversation.links generation).arrived.Sublist (after.links generation).arrived := by
  cases effect with
  | @arrived changed data bytes turn found =>
      by_cases same : generation = changed
      · subst same
        simp only [setLink, Function.update_self]
        rw [Link.arrived_succ found]
        exact List.sublist_append_left _ _
      · simp only [setLink, Function.update_of_ne same]
        exact List.Sublist.refl _
  | @served _ changed link frames emits =>
      by_cases same : generation = changed
      · subst same
        simp only [setLink, Function.update_self]
        rw [emits.arrived (sound generation)]
      · simp only [setLink, Function.update_of_ne same]
        exact List.Sublist.refl _
  | _ => exact List.Sublist.refl _

end Conversation

end ServerFoundation.Srpc
