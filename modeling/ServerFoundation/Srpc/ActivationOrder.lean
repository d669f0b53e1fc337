import ServerFoundation.Srpc.ServerFrames

/-!
# Activation comes before connection

A client completes the connection of a generation when it sees `ACTIVATED`, or, if
the codec drops the types of pings, at the second ping. The server sends one ping
before it activates a stream, so in both cases the stream has been activated.
-/

namespace ServerFoundation.Srpc

variable {Payload : Type}

namespace ClientSession

/-- No connection is completed or set up. -/
structure Unfinished (before after : ClientSession Payload) : Prop where
  completed : after.completed = before.completed
  generation : before.generation ≤ after.generation
  awaiting : after.awaitingActivation = before.awaitingActivation ∨ after.awaitingActivation = none
  connected : after.isConnected = true →
    before.isConnected = true ∧ after.generation = before.generation
  current : ∀ generation, after.IsCurrent generation → after.isConnected = false →
    before.IsCurrent generation ∧ before.isConnected = false ∨ before.generation < generation

namespace Unfinished

variable {before middle after : ClientSession Payload}

theorem of_eq (completed : after.completed = before.completed)
    (generation : after.generation = before.generation) (ws : after.ws = before.ws)
    (awaiting : after.awaitingActivation = before.awaitingActivation)
    (connected : after.isConnected = before.isConnected) : Unfinished before after where
  completed := completed
  generation := generation.ge
  awaiting := Or.inl awaiting
  connected isConnected := ⟨connected ▸ isConnected, generation⟩
  current other isCurrent disconnected := by
    rw [IsCurrent, ws, generation] at isCurrent
    exact Or.inl ⟨isCurrent, connected ▸ disconnected⟩

theorem refl (client : ClientSession Payload) : Unfinished client client :=
  of_eq rfl rfl rfl rfl rfl

theorem trans (first : Unfinished before middle) (second : Unfinished middle after) :
    Unfinished before after where
  completed := second.completed.trans first.completed
  generation := first.generation.trans second.generation
  awaiting := by
    rcases second.awaiting with same | none
    · rw [same]
      exact first.awaiting
    · exact Or.inr none
  connected isConnected := by
    rcases second.connected isConnected with ⟨connectedMiddle, sameSecond⟩
    rcases first.connected connectedMiddle with ⟨connectedBefore, sameFirst⟩
    exact ⟨connectedBefore, sameSecond.trans sameFirst⟩
  current generation isCurrent disconnected := by
    rcases second.current generation isCurrent disconnected with ⟨wasCurrent, wasDisconnected⟩ | new
    · exact first.current generation wasCurrent wasDisconnected
    · exact Or.inr (first.generation.trans_lt new)

end Unfinished

section Operations

variable (config : ClientConfig) (client : ClientSession Payload) (generation : ℕ)

theorem connect_unfinished (accepted : Bool) : Unfinished client (client.connect accepted) where
  completed := rfl
  generation := Nat.le_succ _
  awaiting := Or.inr rfl
  connected impossible := by cases impossible
  current generation isCurrent _ := by
    have same : client.generation + 1 = generation := isCurrent.2
    exact Or.inr (Nat.lt_of_succ_le same.le)

theorem revokeGeneration_unfinished : Unfinished client (client.revokeGeneration generation) := by
  rw [revokeGeneration]
  split
  · refine ⟨rfl, le_rfl, Or.inr rfl, ?_, ?_⟩
    · intro impossible
      cases impossible
    · intro other isCurrent
      cases isCurrent.1
  · exact Unfinished.refl client

theorem interrupted_unfinished (disconnects : Bool) :
    Unfinished client (client.interrupted disconnects) := by
  rw [interrupted]
  split
  · exact client.revokeGeneration_unfinished _
  · exact Unfinished.refl client

theorem writeMessage_unfinished (message : Envelope Payload) (outcome : WriteOutcome) :
    Unfinished client (client.writeMessage generation message outcome).1 := by
  cases outcome with
  | notEncodable => exact Unfinished.refl client
  | notOpen => exact Unfinished.refl client
  | overLimit => exact client.revokeGeneration_unfinished generation
  | threw => exact client.revokeGeneration_unfinished generation
  | sent loggerDisconnects =>
      rw [writeMessage]
      split
      · refine Unfinished.trans ?_ (interrupted_unfinished _ loggerDisconnects)
        exact Unfinished.of_eq rfl rfl rfl rfl rfl
      · exact Unfinished.refl client

theorem greet_unfinished (type : PingPongType) (outcome : WriteOutcome) :
    Unfinished client (client.greet generation type outcome).1 := by
  rw [greet]
  split
  · refine Unfinished.trans ?_ (writeMessage_unfinished _ _ _ _)
    exact Unfinished.of_eq rfl rfl rfl rfl rfl
  · exact Unfinished.of_eq rfl rfl rfl rfl rfl

theorem acknowledgmentTimer_unfinished (key : ℕ) (outcome : WriteOutcome) :
    Unfinished client (client.acknowledgmentTimer key outcome) := by
  rw [acknowledgmentTimer]
  split
  · exact Unfinished.refl client
  · split
    · refine Unfinished.trans ?_ (writeMessage_unfinished _ _ _ _)
      exact Unfinished.of_eq rfl rfl rfl rfl rfl
    · exact Unfinished.refl client

theorem handlerFinished_unfinished (key : ℕ) (error : Option String) (userError : Option Bool)
    (fields : List (String × Option Payload)) (outcome : WriteOutcome) :
    Unfinished client (client.handlerFinished key error userError fields outcome) := by
  rw [handlerFinished]
  split
  · exact Unfinished.refl client
  · rename_i message _
    have written : Unfinished client
        (client.writeReply message error userError fields outcome) := by
      rw [writeReply]
      split
      · exact Unfinished.refl client
      · exact client.writeMessage_unfinished _ _ _
    rw [forget]
    split
    · exact written.trans (Unfinished.of_eq rfl rfl rfl rfl rfl)
    · exact written.trans (Unfinished.of_eq rfl rfl rfl rfl rfl)

theorem startHandler_unfinished (data : Envelope Payload) (bytes : ℕ) :
    Unfinished client (client.startHandler config generation data bytes) := by
  rw [startHandler]
  split
  · exact client.revokeGeneration_unfinished generation
  · exact Unfinished.of_eq rfl rfl rfl rfl rfl

end Operations

section Ordering

variable {untyped : Prop} {pings : ℕ → ℕ} {active : ℕ → Prop} {config : ClientConfig}
  {client after : ClientSession Payload}

/-- A completed connection belongs to an active stream, and one that is being set up without types
has seen a ping. -/
structure Ordered (untyped : Prop) (pings : ℕ → ℕ) (active : ℕ → Prop)
    (client : ClientSession Payload) : Prop where
  awaiting : ∀ generation helloReceived,
    client.awaitingActivation = some (generation, helloReceived) → untyped →
    helloReceived = true ∧ 1 ≤ pings generation
  activated : ∀ generation ∈ client.completed, active generation
  once : client.completed.Nodup
  bounded : ∀ generation ∈ client.completed, generation ≤ client.generation
  pending : ∀ generation, client.IsCurrent generation → client.isConnected = false →
    generation ∉ client.completed
  connected : client.isConnected = true → client.generation ∈ client.completed

namespace Ordered

section

variable (ordered : client.Ordered untyped pings active)
include ordered

theorem mono {pings' : ℕ → ℕ} {active' : ℕ → Prop}
    (more : ∀ generation, pings generation ≤ pings' generation)
    (stays : ∀ generation, active generation → active' generation) :
    client.Ordered untyped pings' active' where
  awaiting generation helloReceived isAwaiting noTypes := by
    rcases ordered.awaiting generation helloReceived isAwaiting noTypes with ⟨received, seen⟩
    exact ⟨received, seen.trans (more generation)⟩
  activated generation mem := stays generation (ordered.activated generation mem)
  once := ordered.once
  bounded := ordered.bounded
  pending := ordered.pending
  connected := ordered.connected

theorem unfinished (unchanged : Unfinished client after) : after.Ordered untyped pings active where
  awaiting generation helloReceived isAwaiting noTypes := by
    rcases unchanged.awaiting with same | none
    · rw [same] at isAwaiting
      exact ordered.awaiting generation helloReceived isAwaiting noTypes
    · cases none.symm.trans isAwaiting
  activated generation mem := by
    rw [unchanged.completed] at mem
    exact ordered.activated generation mem
  once := by
    rw [unchanged.completed]
    exact ordered.once
  bounded generation mem := by
    rw [unchanged.completed] at mem
    exact (ordered.bounded generation mem).trans unchanged.generation
  pending generation isCurrent disconnected := by
    rw [unchanged.completed]
    rcases unchanged.current generation isCurrent disconnected with
      ⟨wasCurrent, wasDisconnected⟩ | new
    · exact ordered.pending generation wasCurrent wasDisconnected
    · intro mem
      exact absurd (ordered.bounded generation mem) (not_le.mpr new)
  connected isConnected := by
    rcases unchanged.connected isConnected with ⟨wasConnected, same⟩
    rw [unchanged.completed, same]
    exact ordered.connected wasConnected

theorem await {generation : ℕ} {helloReceived : Bool}
    (seen : untyped → helloReceived = true ∧ 1 ≤ pings generation) (listener : MessageListener) :
    { client with
      awaitingActivation := some (generation, helloReceived)
      listener := listener }.Ordered untyped pings active where
  awaiting other received isAwaiting noTypes := by
    cases isAwaiting
    exact seen noTypes
  activated := ordered.activated
  once := ordered.once
  bounded := ordered.bounded
  pending := ordered.pending
  connected := ordered.connected

theorem complete {generation : ℕ} (isActive : active generation) :
    (client.completeConnection generation).Ordered untyped pings active := by
  rw [completeConnection]
  split
  · rename_i completes
    refine ⟨?_, ?_, ?_, ?_, ?_, ?_⟩
    · intro other received isAwaiting
      cases isAwaiting
    · intro other mem
      rcases List.mem_cons.mp mem with rfl | old
      · exact isActive
      · exact ordered.activated other old
    · exact List.nodup_cons.mpr ⟨ordered.pending generation completes.1 completes.2, ordered.once⟩
    · intro other mem
      rcases List.mem_cons.mp mem with rfl | old
      · exact completes.1.2.ge
      · exact ordered.bounded other old
    · intro other _ impossible
      cases impossible
    · intro _
      rw [completes.1.2]
      exact List.mem_cons_self
  · exact ordered

end

end Ordered

/-- What the client may rely on when a frame of the server arrives. -/
structure Timely (untyped : Prop) (before pings : ℕ → ℕ) (active : ℕ → Prop) (generation : ℕ)
    (data : Envelope Payload) : Prop where
  more : ∀ generation, before generation ≤ pings generation
  bare : untyped → ∀ type, data.pingPong = some type → type = none
  counted : untyped → data.pingPong.isSome = true → 1 ≤ pings generation
  second : untyped → data.pingPong.isSome = true → 1 ≤ before generation → active generation
  named : ¬untyped → ∀ type, data.pingPong = some type → type.getD .unspecified ≠ .unspecified
  activates : data.pingPong = some (some .activated) → active generation

variable {before : ℕ → ℕ} {generation : ℕ} {data : Envelope Payload}

theorem activated_of_type {received : Option PingPongType}
    (isActivated : received.getD .unspecified = .activated) : received = some .activated := by
  cases received with
  | none => cases isActivated
  | some type => exact congrArg some isActivated

section

variable (ordered : client.Ordered untyped before active)
include ordered

section

variable (timely : Timely untyped before pings active generation data)
include timely

theorem handleInitialHandshake_ordered (turn : ClientTurn) :
    (client.handleInitialHandshake generation data turn).Ordered untyped pings active := by
  have later : client.Ordered untyped pings active := ordered.mono timely.more fun _ => id
  rw [handleInitialHandshake]
  split
  · rename_i received _ isPing
    have greeted := later.unfinished (client.greet_unfinished generation
      (received.getD .unspecified) turn.outcome)
    have seen : untyped → decide (IsGreeting (received.getD .unspecified)) = true ∧
        1 ≤ pings generation := by
      intro noTypes
      refine ⟨decide_eq_true (Or.inr ?_), timely.counted noTypes (by rw [isPing]; rfl)⟩
      rw [timely.bare noTypes received isPing]
      rfl
    simp only
    split
    · exact greeted
    · split
      · rename_i isActivated
        refine (greeted.await seen .handleMessage).complete ?_
        apply timely.activates
        rw [isPing, activated_of_type isActivated]
      · exact greeted.await seen .handleMessage
  · exact later.unfinished (client.revokeGeneration_unfinished generation)

theorem receivePingPong_ordered {received : Option PingPongType}
    (isPing : data.pingPong = some received) (turn : ClientTurn) :
    (client.receivePingPong generation (received.getD .unspecified) turn).Ordered untyped pings
      active := by
  have later : client.Ordered untyped pings active := ordered.mono timely.more fun _ => id
  simp only [receivePingPong]
  split
  · have answered := (later.unfinished (client.writeMessage_unfinished generation
      (.helloAnswer (received.getD .unspecified)) turn.outcome))
    split
    · refine answered.await ?_ _
      intro noTypes
      exact ⟨rfl, timely.counted noTypes (by rw [isPing]; rfl)⟩
    · exact answered
  · split
    · rename_i completes
      refine later.complete ?_
      rcases completes with isActivated | ⟨isBare, activating⟩
      · apply timely.activates
        rw [isPing, activated_of_type isActivated]
      · by_cases noTypes : untyped
        · refine timely.second noTypes (by rw [isPing]; rfl) ?_
          simp only [isActivating, Option.any_eq_true] at activating
          rcases activating with ⟨⟨other, helloReceived⟩, isAwaiting, same⟩
          have sameGeneration : other = generation := eq_of_beq same
          rw [sameGeneration] at isAwaiting
          exact (ordered.awaiting generation helloReceived isAwaiting noTypes).2
        · exact absurd isBare (timely.named noTypes received isPing)
    · exact later

theorem dispatchMessage_ordered (bytes : ℕ) (turn : ClientTurn) :
    (client.dispatchMessage config generation data bytes turn).Ordered untyped pings active := by
  have later : client.Ordered untyped pings active := ordered.mono timely.more fun _ => id
  have revoked := later.unfinished (client.revokeGeneration_unfinished generation)
  rw [dispatchMessage]
  split
  · split
    · exact revoked
    · exact later
  · split
    · rename_i received isPing
      exact receivePingPong_ordered ordered timely isPing turn
    · split
      · exact later
      · split
        · split
          · exact later
          · exact revoked
        · split
          · exact revoked
          · split
            · split
              · exact later
              · exact revoked
            · exact later.unfinished (client.startHandler_unfinished config generation data bytes)

theorem receive_ordered (bytes : ℕ) (turn : ClientTurn) :
    (client.receive config generation data bytes turn).Ordered untyped pings active := by
  have later : client.Ordered untyped pings active := ordered.mono timely.more fun _ => id
  have revoked := later.unfinished (client.revokeGeneration_unfinished generation)
  rw [receive]
  split
  · split
    · exact handleInitialHandshake_ordered ordered timely turn
    · rw [handleMessage]
      split
      · exact revoked
      · split
        · exact revoked
        · exact dispatchMessage_ordered
            (ordered.unfinished (client.interrupted_unfinished _)) timely bytes turn
    · exact later
  · exact later

end

end

end Ordering

end ClientSession

namespace Link

variable {config : ConversationConfig} {link : Link Payload}

/-- The number of pings that have arrived at the client. -/
def pings (link : Link Payload) : ℕ :=
  (link.arrived.filter fun frame => frame.1.pingPong.isSome).length

theorem Sound.activated_of_pings (sound : link.Sound config)
    (two : 2 ≤ (link.outgoing.filter fun frame => frame.1.pingPong.isSome).length) :
    link.history.stream.isActivated = true := by
  by_contra notActivated
  have same : (link.outgoing.filter fun frame => frame.1.pingPong.isSome) =
      link.outgoing.filter isHello := by
    refine List.filter_congr ?_
    intro frame mem
    cases isPing : frame.1.pingPong with
    | none => simp [isHello, isPing]
    | some type =>
        rcases sound.typed frame mem type isPing with rfl | ⟨_, isActivated⟩
        · simp [isHello, isPing]
        · exact absurd isActivated notActivated
  have greetings := sound.greetings
  rw [same] at two
  have limit : link.helloLimit ≤ 1 := by
    rw [helloLimit]
    split <;> omega
  omega

theorem pings_le_of_arrived {after : Link Payload}
    (arrived : link.arrived.Sublist after.arrived) : link.pings ≤ after.pings :=
  (arrived.filter _).length_le

theorem pings_le_outgoing (link : Link Payload) :
    link.pings ≤ (link.outgoing.filter fun frame => frame.1.pingPong.isSome).length :=
  ((List.take_sublist _ _).filter _).length_le

end Link

namespace Conversation

variable {config : ConversationConfig} {conversation after : Conversation Payload}
  {event : ConversationEvent Payload}

/-- The stream of the generation has executed `activateStream`. -/
def Activated (conversation : Conversation Payload) (generation : ℕ) : Prop :=
  (conversation.links generation).history.stream.isActivated = true

/-- The client is in order with the server. -/
def Ordered (config : ConversationConfig) (conversation : Conversation Payload) : Prop :=
  conversation.client.Ordered (config.keepsPingPongType = false)
    (fun generation => (conversation.links generation).pings) conversation.Activated

theorem Effect.activated_mono (effect : Effect config conversation event after)
    (sound : ∀ generation, (conversation.links generation).Sound config) {generation : ℕ}
    (isActivated : conversation.Activated generation) : after.Activated generation := by
  cases effect with
  | @arrived changed data bytes turn found =>
      by_cases same : generation = changed
      · subst same
        simp only [Activated, setLink, Function.update_self]
        exact isActivated
      · simp only [Activated, setLink, Function.update_of_ne same]
        exact isActivated
  | @served _ changed link frames emits =>
      by_cases same : generation = changed
      · subst same
        simp only [Activated, setLink, Function.update_self]
        exact (emits.leads (sound generation).reachable).2.1 isActivated
      · simp only [Activated, setLink, Function.update_of_ne same]
        exact isActivated
  | _ => exact isActivated

theorem timely_of_arrived (sound : ∀ generation, (conversation.links generation).Sound config)
    {generation : ℕ} {data : Envelope Payload} {bytes : ℕ}
    (found : (conversation.links generation).outgoing[(conversation.links generation).delivered]? =
      some (data, bytes)) :
    ClientSession.Timely (config.keepsPingPongType = false)
      (fun generation => (conversation.links generation).pings)
      (fun other => if other = generation then
        { conversation.links generation with
          delivered := (conversation.links generation).delivered + 1 }.pings
        else (conversation.links other).pings)
      conversation.Activated generation (config.decode data) := by
  have frameSound := sound generation
  have mem : (data, bytes) ∈ (conversation.links generation).outgoing :=
    List.mem_of_getElem? found
  have next : { conversation.links generation with
      delivered := (conversation.links generation).delivered + 1 }.pings =
        (conversation.links generation).pings + if data.pingPong.isSome then 1 else 0 := by
    rw [Link.pings, Link.arrived_succ found, List.filter_append, List.length_append]
    congr 1
    by_cases isPing : data.pingPong.isSome = true
    · simp [isPing]
    · simp [isPing]
  have decoded : (config.decode data).pingPong.isSome = data.pingPong.isSome := by
    rw [ConversationConfig.decode]
    split
    · rfl
    · simp
  refine ⟨?_, ?_, ?_, ?_, ?_, ?_⟩
  · intro other
    simp only
    split
    · rename_i same
      rw [next, same]
      exact Nat.le_add_right _ _
    · exact le_rfl
  · intro noTypes type isPing
    rw [ConversationConfig.decode, if_neg (by simp [noTypes])] at isPing
    rcases Option.map_eq_some_iff.mp isPing with ⟨_, _, rfl⟩
    rfl
  · intro _ isPing
    rw [decoded] at isPing
    simp only [if_pos]
    rw [next, if_pos isPing]
    exact Nat.le_add_left _ _
  · intro _ isPing seen
    rw [decoded] at isPing
    refine frameSound.activated_of_pings ?_
    have sent := Link.pings_le_outgoing { conversation.links generation with
      delivered := (conversation.links generation).delivered + 1 }
    rw [next, if_pos isPing] at sent
    exact (Nat.succ_le_succ seen).trans sent
  · intro types type isPing
    rw [ConversationConfig.decode, if_pos (by simpa using types)] at isPing
    rcases frameSound.typed (data, bytes) mem type isPing with rfl | ⟨rfl | rfl, _⟩
    · intro impossible
      cases impossible
    · intro impossible
      cases impossible
    · intro impossible
      cases impossible
  · intro isActivation
    rw [ConversationConfig.decode] at isActivation
    split at isActivation
    · rcases frameSound.typed (data, bytes) mem _ isActivation with impossible | ⟨_, isActivated⟩
      · cases impossible
      · exact isActivated
    · rcases Option.map_eq_some_iff.mp isActivation with ⟨_, _, impossible⟩
      cases impossible

theorem Effect.ordered_before (effect : Effect config conversation event after)
    (sound : ∀ generation, (conversation.links generation).Sound config)
    (wasOrdered : conversation.Ordered config) :
    after.client.Ordered (config.keepsPingPongType = false)
      (fun generation => (after.links generation).pings) conversation.Activated := by
  have more : ∀ generation,
      (conversation.links generation).pings ≤ (after.links generation).pings :=
    fun generation => Link.pings_le_of_arrived (effect.arrived_mono sound generation)
  cases effect with
  | connect accepted => exact wasOrdered.unfinished (ClientSession.connect_unfinished _ _)
  | revoke => exact wasOrdered.unfinished (ClientSession.revokeGeneration_unfinished _ _)
  | write outcome plain =>
      exact wasOrdered.unfinished (ClientSession.writeMessage_unfinished _ _ _ _)
  | timer key outcome =>
      exact wasOrdered.unfinished (ClientSession.acknowledgmentTimer_unfinished _ _ _)
  | finished key error userError fields outcome =>
      exact wasOrdered.unfinished (ClientSession.handlerFinished_unfinished _ _ _ _ _ _)
  | @arrived generation data bytes turn found =>
      have received := @ClientSession.receive_ordered _ _ _ _ config.client _ _ _ _ wasOrdered
        (timely_of_arrived sound found) bytes turn
      refine received.mono ?_ fun _ => id
      intro other
      simp only
      split
      · rename_i same
        subst same
        simp only [setLink, Function.update_self]
        exact le_rfl
      · exact more other
  | idle => exact wasOrdered
  | served generation emits => exact wasOrdered.mono more fun _ => id

theorem reachable_ordered (reachable : (system config).Reachable conversation) :
    conversation.Ordered config := by
  refine reachable.invariant (Ordered config) ?_ ?_
  · rintro _ ⟨now, rfl⟩
    refine ⟨?_, ?_, List.nodup_nil, ?_, ?_, ?_⟩
    · intro generation helloReceived impossible
      cases impossible
    · intro generation mem
      cases mem
    · intro generation mem
      cases mem
    · intro generation _ _ mem
      cases mem
    · intro impossible
      cases impossible
  · intro before event after reached wasOrdered taken
    have effect := step_effect reached taken
    refine (effect.ordered_before (reachable_links reached) wasOrdered).mono (fun _ => le_rfl) ?_
    exact fun generation => effect.activated_mono (reachable_links reached)

/-- A client completes the connection of a generation at most once, and only if the server has
already executed `activateStream` for it. -/
theorem connection_completed_after_activation (config : ConversationConfig)
    (conversation : Conversation Payload) (reachable : (system config).Reachable conversation) :
    conversation.client.completed.Nodup ∧
      (conversation.client.isConnected = true →
        conversation.client.generation ∈ conversation.client.completed) ∧
      ∀ event after, (system config).Step conversation event after →
        ∀ generation ∈ after.client.completed, conversation.Activated generation := by
  have ordered := reachable_ordered reachable
  refine ⟨ordered.once, ordered.connected, ?_⟩
  intro event after taken
  have effect := step_effect reachable taken
  exact (effect.ordered_before (reachable_links reachable) ordered).activated

section Sample

/-- A client and a server with default limits, and codecs that drop the types of pings. -/
def untypedConfig : ConversationConfig where
  client := ⟨3, 8 * 1024 * 1024, 64, 8 * 1024 * 1024⟩
  stream := ServerStream.defaultConfig
  keepsPingPongType := false
  helloBytes := 4
  activatedBytes := 4
  agreed := rfl

/-- A turn in which nothing goes wrong. -/
def quietClientTurn : ClientTurn := ⟨true, false, true, true, .sent false⟩

/-- The client answers the greeting, pings too early, and sees the second ping once the stream is
active. -/
def untypedHandshake : List (ConversationEvent Unit) :=
  [.connect true, .hello 1 ServerStream.quietTurn, .deliverToClient 1 quietClientTurn,
    .write (.ofPingPong (some .ping)) (.sent false), .deliverToServer 1 4 ServerStream.quietTurn,
    .deliverToServer 1 4 ServerStream.quietTurn, .activate 1 ServerStream.quietTurn]

/-- The conversation behind the handshake. -/
def afterUntypedHandshake : Conversation Unit :=
  untypedHandshake.foldl (advance untypedConfig) (initial fun _ => 0)

theorem afterUntypedHandshake_reachable :
    (system untypedConfig).Reachable afterUntypedHandshake := by
  have started : (system untypedConfig).Reachable (initial fun _ => 0 : Conversation Unit) :=
    .start ⟨fun _ => 0, rfl⟩
  exact started.follow _ _ (fun _ _ feasible => ⟨feasible, rfl⟩)
    (by decide +kernel : TransitionSystem.Follows _ Feasible _ untypedHandshake)

/-- The second ping completes the connection. -/
theorem connection_completed_after_untyped_handshake :
    afterUntypedHandshake.client.completed = [] ∧
      (afterUntypedHandshake.advance untypedConfig
        (.deliverToClient 1 quietClientTurn)).client.completed = [1] ∧
      afterUntypedHandshake.Activated 1 := by
  have completes : (afterUntypedHandshake.advance untypedConfig
      (.deliverToClient 1 quietClientTurn)).client.completed = [1] := by decide +kernel
  refine ⟨by decide +kernel, completes, ?_⟩
  refine (connection_completed_after_activation untypedConfig afterUntypedHandshake
    afterUntypedHandshake_reachable).2.2 (.deliverToClient 1 quietClientTurn) _ ⟨trivial, rfl⟩ 1 ?_
  rw [completes]
  exact List.mem_singleton.mpr rfl

end Sample

end Conversation

end ServerFoundation.Srpc
