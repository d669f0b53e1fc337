import ServerFoundation.Srpc.ClientConnection

/-!
# Reconnection timers and connect promises

Two invariants of an SRPC client, and the calls of disconnect handlers that break
them. While disconnect handlers run the client is not connected, so a call that they
make runs no further handlers, and a list of such calls has a simple effect: the
last connect or disconnect decides whether there is a socket, and any disconnect
turns reconnection off.
-/

namespace ServerFoundation.Srpc

namespace ClientCall

/-- A call of `connect` or `disconnect`. -/
def isLifecycle : ClientCall → Bool
  | .connect _ _ => true
  | .disconnect _ => true
  | .send _ _ => false

/-- A call of `disconnect`. -/
def isDisconnect : ClientCall → Bool
  | .disconnect _ => true
  | _ => false

/-- A send that is refused. -/
def isRefused : ClientCall → Bool
  | .send refused _ => refused
  | _ => false

/-- Whether a call leaves the client with a new socket. -/
def leavesSocket (before : Bool) : ClientCall → Bool
  | .connect accepted _ => accepted
  | .disconnect _ => false
  | .send _ _ => before

/-- The last connect or disconnect is a connect that was accepted. -/
def endsConnected (calls : List ClientCall) : Bool := calls.foldl leavesSocket false

end ClientCall

/-- What makes disconnect handlers run. -/
inductive Interruption where
  | superseded
  | revoked (suppressReconnect : Bool)
deriving DecidableEq, Repr

namespace SrpcClient

section Meeting

/-- A condition on what disconnect handlers call. -/
abbrev HandlerCondition := SrpcClient → Interruption → List ClientCall → Prop

variable (condition : HandlerCondition)

/-- The handlers that a call may run meet the condition. -/
def CallMeets (client : SrpcClient) : ClientCall → Prop
  | .connect _ handlers => condition client .superseded handlers
  | .disconnect handlers => condition client.beginDisconnect (.revoked true) handlers
  | .send refused handlers =>
      client.CanSend → refused = true → condition client (.revoked false) handlers

/-- Each of the calls meets the condition. -/
def CallsMeet (client : SrpcClient) : List ClientCall → Prop
  | [] => True
  | call :: rest => client.CallMeets condition call ∧ CallsMeet (client.run call) rest

/-- The calls of an event meet the condition. -/
def EventMeets (client : SrpcClient) : ClientEvent → Prop
  | .call call => client.CallMeets condition call
  | .opened _ => True
  | .activated generation handlers =>
      client.IsCurrent generation → client.isConnected = false →
        (client.completeConnection generation).CallsMeet condition handlers
  | .closed _ conflict handlers => condition client (.revoked conflict) handlers
  | .failed _ handlers => condition client (.revoked false) handlers
  | .protocolError _ handlers => condition client (.revoked false) handlers
  | .connectTimeout _ handlers => condition client (.revoked false) handlers
  | .reconnect _ handlers =>
      condition { client with reconnectionTimeout := false } .superseded handlers

end Meeting

section Equations

variable (client : SrpcClient)

theorem run_disconnect (handlers : List ClientCall) :
    client.run (.disconnect handlers) =
      client.beginDisconnect.revokeGeneration client.generation true handlers := by
  rw [run, revokeGeneration]
  rfl

theorem run_send (refused : Bool) (handlers : List ClientCall) :
    client.run (.send refused handlers) =
      if client.CanSend ∧ refused = true then
        client.revokeGeneration client.generation false handlers
      else client := by
  rw [run, revokeGeneration]
  split
  · rename_i sent
    rw [if_pos sent.1.1]
  · rfl

end Equations

/-- An invariant that every call and every event keeps, if the handlers meet the condition. -/
structure Kept (condition : HandlerCondition) (Invariant : SrpcClient → Prop) : Prop where
  initial : ∀ enableReconnect, Invariant (initial enableReconnect)
  connect : ∀ client accepted handlers, Invariant client →
    condition client .superseded handlers → Invariant (client.run (.connect accepted handlers))
  beginDisconnect : ∀ client, Invariant client → Invariant client.beginDisconnect
  revoke : ∀ client suppressReconnect handlers, Invariant client →
    client.IsCurrent client.generation → condition client (.revoked suppressReconnect) handlers →
    Invariant (client.revokeGeneration client.generation suppressReconnect handlers)
  opened : ∀ client, Invariant client → Invariant { client with wsOpen := true }
  complete : ∀ client generation, Invariant client →
    Invariant (client.completeConnection generation)
  fired : ∀ client, Invariant client → client.reconnectionTimeout = true →
    Invariant { client with reconnectionTimeout := false }

namespace Kept

variable {condition : HandlerCondition} {Invariant : SrpcClient → Prop} {client : SrpcClient}

section

variable (kept : Kept condition Invariant)
include kept

theorem revokeGeneration (holds : Invariant client) (generation : ℕ) {suppressReconnect : Bool}
    {handlers : List ClientCall} (meets : condition client (.revoked suppressReconnect) handlers) :
    Invariant (client.revokeGeneration generation suppressReconnect handlers) := by
  by_cases current : client.IsCurrent generation
  · have revoked := kept.revoke client suppressReconnect handlers holds
    rw [current.2] at revoked
    exact revoked current meets
  · rw [SrpcClient.revokeGeneration, if_neg current]
    exact holds

theorem run (holds : Invariant client) {call : ClientCall}
    (meets : client.CallMeets condition call) :
    Invariant (client.run call) := by
  cases call with
  | connect accepted handlers => exact kept.connect client accepted handlers holds meets
  | disconnect handlers =>
      rw [run_disconnect]
      exact kept.revokeGeneration (kept.beginDisconnect client holds) _ meets
  | send refused handlers =>
      rw [run_send]
      split
      · rename_i isRefused
        exact kept.revokeGeneration holds _ (meets isRefused.1 isRefused.2)
      · exact holds

theorem runAll {calls : List ClientCall} (holds : Invariant client)
    (meets : client.CallsMeet condition calls) : Invariant (client.runAll calls) := by
  induction calls generalizing client with
  | nil =>
      rw [SrpcClient.runAll]
      exact holds
  | cons call rest ih =>
      rw [SrpcClient.runAll]
      exact ih (kept.run holds meets.1) meets.2

theorem advance (holds : Invariant client) {event : ClientEvent}
    (meets : client.EventMeets condition event) : Invariant (client.advance event) := by
  cases event with
  | call call => exact kept.run holds meets
  | opened generation =>
      simp only [SrpcClient.advance]
      split
      · exact kept.opened client holds
      · exact holds
  | activated generation handlers =>
      simp only [SrpcClient.advance]
      split
      · rename_i activates
        exact kept.runAll (kept.complete client generation holds) (meets activates.1 activates.2)
      · exact holds
  | closed generation conflict handlers => exact kept.revokeGeneration holds generation meets
  | failed generation handlers => exact kept.revokeGeneration holds generation meets
  | protocolError generation handlers => exact kept.revokeGeneration holds generation meets
  | connectTimeout generation handlers =>
      simp only [SrpcClient.advance]
      split
      · exact kept.revokeGeneration holds generation meets
      · exact holds
  | reconnect accepted handlers =>
      simp only [SrpcClient.advance]
      split
      · rename_i pending
        exact kept.connect _ accepted handlers (kept.fired client holds pending) meets
      · exact holds

theorem reachable (reachable : (system.restrict (EventMeets condition)).Reachable client) :
    Invariant client := by
  refine reachable.invariant Invariant ?_ ?_
  · rintro _ ⟨enableReconnect, rfl⟩
    exact kept.initial enableReconnect
  · rintro before event _ _ holds ⟨meets, rfl⟩
    exact kept.advance holds (meets : before.EventMeets condition event)

end

end Kept

section Nested

variable {client : SrpcClient}

section

variable (idle : client.isConnected = false)
include idle

theorem run_connect_of_idle (accepted : Bool) (handlers : List ClientCall) :
    client.run (.connect accepted handlers) = client.beginConnect.finishConnect accepted := by
  rw [run, if_neg (by simp [idle])]

theorem run_disconnect_of_idle (handlers : List ClientCall) :
    client.run (.disconnect handlers) =
      if client.IsCurrent client.generation then client.beginDisconnect.beginRevoke
      else client.beginDisconnect := by
  rw [run]
  split
  · simp [idle, finishRevoke]
  · rfl

theorem run_send_of_idle (refused : Bool) (handlers : List ClientCall) :
    client.run (.send refused handlers) =
      if client.CanSend ∧ refused = true then client.beginRevoke.finishRevoke false
      else client := by
  rw [run, if_neg (by simp [idle] : ¬client.isConnected = true)]

theorem run_idle (call : ClientCall) : (client.run call).isConnected = false := by
  cases call with
  | connect accepted handlers =>
      rw [run_connect_of_idle idle, finishConnect]
      split <;> rfl
  | disconnect handlers =>
      rw [run_disconnect_of_idle idle]
      split
      · rfl
      · exact idle
  | send refused handlers =>
      rw [run_send_of_idle idle]
      split
      · rw [finishRevoke]
        split <;> rfl
      · exact idle

end

/-- A socket belongs to the current generation. -/
def Aligned (client : SrpcClient) : Prop := ∀ generation, client.ws = some generation →
  client.generation = generation

theorem Aligned.finishConnect (accepted : Bool) : (client.finishConnect accepted).Aligned := by
  intro generation found
  rw [SrpcClient.finishConnect] at found ⊢
  split at found
  · rename_i isAccepted
    rw [if_pos isAccepted]
    exact Option.some.inj found
  · cases found

theorem Aligned.finishRevoke (aligned : client.Aligned) (suppressReconnect : Bool) :
    (client.finishRevoke suppressReconnect).Aligned := by
  rw [SrpcClient.finishRevoke]
  split <;> exact aligned

theorem Aligned.beginRevoke : client.beginRevoke.Aligned := by
  intro generation found
  cases found

theorem Aligned.run (aligned : client.Aligned) (idle : client.isConnected = false)
    (call : ClientCall) : (client.run call).Aligned := by
  cases call with
  | connect accepted handlers =>
      rw [run_connect_of_idle idle]
      exact Aligned.finishConnect accepted
  | disconnect handlers =>
      rw [run_disconnect_of_idle idle]
      split
      · exact Aligned.beginRevoke
      · exact aligned
  | send refused handlers =>
      rw [run_send_of_idle idle]
      split
      · exact Aligned.beginRevoke.finishRevoke false
      · exact aligned

/-- Whatever only an accepted connect brings about and a disconnect ends is there after handlers
only if they end connected. -/
theorem leavesSocket_of_present {Holds : SrpcClient → Prop} {field : SrpcClient → Option ℕ}
    (kept : ∀ client : SrpcClient, Holds client → client.isConnected = false →
      ∀ call, Holds (client.run call))
    (current : ∀ client : SrpcClient, Holds client → ∀ generation,
      field client = some generation → client.IsCurrent generation)
    (refused : ∀ client : SrpcClient, field (client.beginConnect.finishConnect false) = none)
    (same : ∀ client : SrpcClient, field client.beginDisconnect = field client)
    (revoked : ∀ client : SrpcClient, field client.beginRevoke = none)
    (finished : ∀ client : SrpcClient, field (client.finishRevoke false) = field client)
    {calls : List ClientCall} {before : Bool} (holds : Holds client)
    (idle : client.isConnected = false) (initially : field client ≠ none → before = true)
    (present : field (client.runAll calls) ≠ none) :
    calls.foldl ClientCall.leavesSocket before = true := by
  induction calls generalizing client before with
  | nil =>
      rw [runAll] at present
      exact initially present
  | cons call rest ih =>
      rw [runAll] at present
      refine ih (kept client holds idle call) (run_idle idle call) ?_ present
      intro isPresent
      cases call with
      | connect accepted handlers =>
          rw [run_connect_of_idle idle] at isPresent
          cases accepted with
          | true => rfl
          | false => exact absurd (refused client) isPresent
      | disconnect handlers =>
          rw [run_disconnect_of_idle idle] at isPresent
          split at isPresent
          · exact absurd (revoked _) isPresent
          · rename_i notCurrent
            rw [same] at isPresent
            rcases Option.ne_none_iff_exists'.mp isPresent with ⟨generation, found⟩
            have isCurrent := current client holds generation found
            exact absurd (isCurrent.2 ▸ isCurrent) notCurrent
      | send refused handlers =>
          rw [run_send_of_idle idle] at isPresent
          split at isPresent
          · rw [finished, revoked] at isPresent
            exact absurd rfl isPresent
          · exact initially isPresent

end Nested

section Timer

variable {handlers : List ClientCall}

/-- Handlers of a revocation leave no socket behind, unless they have turned reconnection off; those
of a connect leave no reconnection timer behind. -/
def timerCondition : HandlerCondition := fun client interruption handlers =>
  client.isConnected = true → client.enableReconnect = true →
    match interruption with
    | .superseded =>
        handlers.any ClientCall.isLifecycle = true ∨ handlers.any ClientCall.isRefused = false
    | .revoked true => True
    | .revoked false =>
        handlers.any ClientCall.isDisconnect = true ∨ ClientCall.endsConnected handlers = false

/-- A pending reconnection timer means that there is no socket. -/
structure TimerSound (client : SrpcClient) : Prop where
  aligned : client.Aligned
  timer : client.reconnectionTimeout = true → client.ws = none

/-- No timer is pending and no send can start one. -/
structure Quiet (client : SrpcClient) : Prop where
  idle : client.isConnected = false
  timer : client.reconnectionTimeout = false
  cannotSend : ¬client.CanSend

variable {client : SrpcClient}

theorem Quiet.finishConnect (idle : client.isConnected = false)
    (timer : client.reconnectionTimeout = false) (accepted : Bool) :
    (client.finishConnect accepted).Quiet := by
  cases accepted with
  | true => exact ⟨idle, timer, fun canSend => by cases canSend.2⟩
  | false => exact ⟨idle, timer, fun canSend => by cases canSend.2⟩

theorem Quiet.of_lifecycle (idle : client.isConnected = false) {call : ClientCall}
    (lifecycle : call.isLifecycle = true) : (client.run call).Quiet := by
  cases call with
  | connect accepted handlers =>
      rw [run_connect_of_idle idle]
      exact Quiet.finishConnect rfl rfl accepted
  | disconnect handlers =>
      rw [run_disconnect_of_idle idle]
      split
      · exact ⟨rfl, rfl, fun canSend => by cases canSend.2⟩
      · rename_i notCurrent
        exact ⟨idle, rfl, fun canSend => notCurrent canSend.1⟩
  | send refused handlers => cases lifecycle

theorem Quiet.run (quiet : client.Quiet) (call : ClientCall) : (client.run call).Quiet := by
  cases call with
  | connect accepted handlers => exact Quiet.of_lifecycle quiet.idle rfl
  | disconnect handlers => exact Quiet.of_lifecycle quiet.idle rfl
  | send refused handlers =>
      rw [run_send_of_idle quiet.idle, if_neg fun sent => quiet.cannotSend sent.1]
      exact quiet

theorem Quiet.runAll (quiet : client.Quiet) (calls : List ClientCall) :
    (client.runAll calls).Quiet := by
  induction calls generalizing client with
  | nil =>
      rw [SrpcClient.runAll]
      exact quiet
  | cons call rest ih =>
      rw [SrpcClient.runAll]
      exact ih (quiet.run call)

section

variable (idle : client.isConnected = false) {calls : List ClientCall}
include idle

theorem Quiet.of_any_lifecycle (lifecycle : calls.any ClientCall.isLifecycle = true) :
    (client.runAll calls).Quiet := by
  induction calls generalizing client with
  | nil => cases lifecycle
  | cons call rest ih =>
      rw [SrpcClient.runAll]
      by_cases isLifecycle : call.isLifecycle = true
      · exact (Quiet.of_lifecycle idle isLifecycle).runAll rest
      · refine ih (run_idle idle call) ?_
        simpa [isLifecycle] using lifecycle

theorem timer_of_accepted (timer : client.reconnectionTimeout = false)
    (accepted : calls.any ClientCall.isRefused = false) :
    (client.runAll calls).reconnectionTimeout = false := by
  induction calls generalizing client with
  | nil =>
      rw [runAll]
      exact timer
  | cons call rest ih =>
      rw [List.any_cons, Bool.or_eq_false_iff] at accepted
      rw [runAll]
      refine ih (run_idle idle call) ?_ accepted.2
      cases call with
      | connect isAccepted handlers => exact (Quiet.of_lifecycle idle rfl).timer
      | disconnect handlers => exact (Quiet.of_lifecycle idle rfl).timer
      | send refused handlers =>
          have notRefused : ¬refused = true := by simpa [ClientCall.isRefused] using accepted.1
          rw [run_send_of_idle idle, if_neg fun sent => notRefused sent.2]
          exact timer

theorem run_reconnectOff (off : client.enableReconnect = false) (call : ClientCall) :
    (client.run call).enableReconnect = false := by
  cases call with
  | connect accepted handlers =>
      rw [run_connect_of_idle idle, finishConnect]
      split <;> exact off
  | disconnect handlers =>
      rw [run_disconnect_of_idle idle]
      split <;> rfl
  | send refused handlers =>
      rw [run_send_of_idle idle]
      split
      · rw [finishRevoke]
        split <;> exact off
      · exact off

theorem runAll_reconnectOff
    (off : client.enableReconnect = false ∨ calls.any ClientCall.isDisconnect = true) :
    (client.runAll calls).enableReconnect = false := by
  induction calls generalizing client with
  | nil =>
      rw [runAll]
      rcases off with off | impossible
      · exact off
      · cases impossible
  | cons call rest ih =>
      rw [runAll]
      refine ih (run_idle idle call) ?_
      rcases off with off | disconnects
      · exact Or.inl (run_reconnectOff idle off call)
      · cases call with
        | connect accepted handlers => exact Or.inr disconnects
        | disconnect handlers =>
            left
            rw [run_disconnect_of_idle idle]
            split <;> rfl
        | send refused handlers => exact Or.inr disconnects

theorem timer_of_reconnectOff (off : client.enableReconnect = false)
    (timer : client.reconnectionTimeout = false) (calls : List ClientCall) :
    (client.runAll calls).reconnectionTimeout = false := by
  induction calls generalizing client with
  | nil =>
      rw [runAll]
      exact timer
  | cons call rest ih =>
      rw [runAll]
      refine ih (run_idle idle call) (run_reconnectOff idle off call) ?_
      cases call with
      | connect accepted handlers => exact (Quiet.of_lifecycle idle rfl).timer
      | disconnect handlers => exact (Quiet.of_lifecycle idle rfl).timer
      | send refused handlers =>
          rw [run_send_of_idle idle]
          split
          · rw [finishRevoke, if_neg]
            · exact timer
            · intro queues
              cases off.symm.trans queues.1
          · exact timer

end

theorem ws_of_notConnected (aligned : client.Aligned) (idle : client.isConnected = false)
    (absent : client.ws = none) {calls : List ClientCall}
    (ends : ClientCall.endsConnected calls = false) : (client.runAll calls).ws = none := by
  have finished : ∀ client : SrpcClient, (client.finishRevoke false).ws = client.ws := by
    intro client
    rw [finishRevoke]
    split <;> rfl
  by_contra present
  have connects : calls.foldl ClientCall.leavesSocket false = true :=
    leavesSocket_of_present (fun _ aligned idle call => aligned.run idle call)
      (fun _ aligned generation found => ⟨found, aligned generation found⟩) (fun _ => rfl)
      (fun _ => rfl) (fun _ => rfl) finished aligned idle
      (fun isPresent => absurd absent isPresent) present
  rw [ClientCall.endsConnected, connects] at ends
  cases ends

theorem Aligned.runAll (aligned : client.Aligned) (idle : client.isConnected = false)
    (calls : List ClientCall) : (client.runAll calls).Aligned := by
  induction calls generalizing client with
  | nil =>
      rw [SrpcClient.runAll]
      exact aligned
  | cons call rest ih =>
      rw [SrpcClient.runAll]
      exact ih (aligned.run idle call) (run_idle idle call)

theorem TimerSound.connect {accepted : Bool} (meets : timerCondition client .superseded handlers) :
    (client.run (.connect accepted handlers)).TimerSound := by
  have handled : (if client.isConnected then client.beginConnect.runAll handlers
      else client.beginConnect).reconnectionTimeout = false := by
    split
    · rename_i connected
      by_cases enabled : client.enableReconnect = true
      · rcases meets connected enabled with lifecycle | isAccepted
        · exact (Quiet.of_any_lifecycle rfl lifecycle).timer
        · exact timer_of_accepted rfl rfl isAccepted
      · have off : client.beginConnect.enableReconnect = false := Bool.eq_false_iff.mpr enabled
        exact timer_of_reconnectOff rfl off rfl handlers
    · rfl
  rw [SrpcClient.run]
  refine ⟨Aligned.finishConnect accepted, ?_⟩
  intro pending
  rw [SrpcClient.finishConnect] at pending
  split at pending
  · cases handled.symm.trans pending
  · cases handled.symm.trans pending

theorem TimerSound.revoke (sound : client.TimerSound) {suppressReconnect : Bool}
    (current : client.IsCurrent client.generation)
    (meets : timerCondition client (.revoked suppressReconnect) handlers) :
    (client.revokeGeneration client.generation suppressReconnect handlers).TimerSound := by
  have timer : client.reconnectionTimeout = false := by
    by_contra pending
    have absent := sound.timer (by simpa using pending)
    cases current.1.symm.trans absent
  rw [revokeGeneration, if_pos current]
  by_cases connected : client.isConnected = true
  · rw [if_pos connected]
    have quiet : client.beginRevoke.Quiet := ⟨rfl, timer, fun canSend => by cases canSend.2⟩
    have handled := quiet.runAll handlers
    refine ⟨(Aligned.beginRevoke.runAll rfl handlers).finishRevoke _, ?_⟩
    intro pending
    rw [finishRevoke] at pending ⊢
    split at pending
    · rename_i queues
      rw [if_pos queues]
      have enabled : client.enableReconnect = true := by
        by_contra off
        have stillOff : (client.beginRevoke.runAll handlers).enableReconnect = false :=
          runAll_reconnectOff rfl (Or.inl (Bool.eq_false_iff.mpr off))
        cases stillOff.symm.trans queues.1
      have condition := meets connected enabled
      rw [queues.2.1] at condition
      rcases condition with disconnects | ends
      · have off : (client.beginRevoke.runAll handlers).enableReconnect = false :=
          runAll_reconnectOff rfl (Or.inr disconnects)
        cases off.symm.trans queues.1
      · exact ws_of_notConnected Aligned.beginRevoke rfl rfl ends
    · cases handled.timer.symm.trans pending
  · rw [if_neg connected]
    refine ⟨Aligned.beginRevoke.finishRevoke _, ?_⟩
    intro _
    rw [finishRevoke]
    split <;> rfl

theorem timerSound_kept : Kept timerCondition TimerSound where
  initial _ := ⟨(fun _ found => by cases found), fun _ => rfl⟩
  connect _ _ _ _ meets := TimerSound.connect meets
  beginDisconnect client sound := ⟨sound.aligned, fun pending => by cases pending⟩
  revoke _ _ _ sound current meets := sound.revoke current meets
  opened client sound := ⟨sound.aligned, sound.timer⟩
  complete client generation sound := by
    rw [completeConnection]
    split
    · exact ⟨sound.aligned, sound.timer⟩
    · exact sound
  fired client sound _ := ⟨sound.aligned, fun pending => by cases pending⟩

/-- A pending reconnection timer means that there is no current WebSocket, in every run whose
disconnect handlers meet the condition. -/
theorem no_socket_while_timer_pending (client : SrpcClient)
    (reachable : (system.restrict (EventMeets timerCondition)).Reachable client)
    (pending : client.reconnectionTimeout = true) : client.ws = none :=
  (timerSound_kept.reachable reachable).timer pending

/-- A connection is lost, and a disconnect handler fails to connect again. -/
def lostRun : List ClientEvent :=
  [.call (.connect true []), .activated 1 [], .closed 1 false [.connect false []]]

theorem no_socket_while_timer_pending_after_close : ∃ client,
    (system.restrict (EventMeets timerCondition)).Reachable client ∧
      client.reconnectionTimeout = true ∧ client.ws = none := by
  have started : (system.restrict (EventMeets timerCondition)).Reachable (initial true) :=
    .start ⟨true, rfl⟩
  have follows : TransitionSystem.Follows advance (EventMeets timerCondition) (initial true)
      lostRun :=
    ⟨(fun impossible => by cases impossible), fun _ _ => trivial, fun _ _ => Or.inr rfl, trivial⟩
  have reached := started.follow _ _ (fun _ _ meets => ⟨meets, rfl⟩) follows
  have pending : (lostRun.foldl advance (initial true)).reconnectionTimeout = true := by decide
  exact ⟨_, reached, pending, no_socket_while_timer_pending _ reached pending⟩

/-- A disconnect handler connects again while a lost connection is being revoked. -/
def reconnectingRun : List ClientEvent :=
  [.call (.connect true []), .activated 1 [], .closed 1 false [.connect true []]]

theorem timer_pending_with_socket : ∃ client : SrpcClient, system.Reachable client ∧
    client.reconnectionTimeout = true ∧ client.ws = some 2 := by
  have started : system.Reachable (initial true) := .start ⟨true, rfl⟩
  have follows : TransitionSystem.Follows advance (fun _ _ => True) (initial true)
      reconnectingRun := ⟨trivial, trivial, trivial, trivial⟩
  exact ⟨_, started.follow _ _ (fun _ _ _ => rfl) follows, by decide, by decide⟩

end Timer

section Promises

/-- Disconnect handlers that a connect runs settle every promise that their own connects return. -/
def promiseCondition : HandlerCondition := fun client interruption handlers =>
  interruption = .superseded → client.isConnected = true →
    ClientCall.endsConnected handlers = false

/-- A promise is settled or its pair is stored, and the stored pair belongs to the socket. -/
structure PromisesSound (client : SrpcClient) : Prop where
  aligned : client.Aligned
  pair : ∀ generation, client.connectPair = some generation → client.ws = some generation
  returned : ∀ generation ∈ client.returned,
    generation ∈ client.settled ∨ client.connectPair = some generation

variable {client : SrpcClient}

namespace PromisesSound

section

variable (sound : client.PromisesSound)
include sound

theorem settlePair :
    ∀ generation ∈ client.settlePair.returned, generation ∈ client.settlePair.settled := by
  intro generation isReturned
  rw [SrpcClient.settlePair, List.mem_append]
  rcases sound.returned generation isReturned with settled | stored
  · exact Or.inr settled
  · left
    rw [stored]
    exact List.mem_singleton.mpr rfl

theorem beginConnect : client.beginConnect.PromisesSound where
  aligned := sound.aligned
  pair _ stored := by cases stored
  returned generation isReturned := Or.inl (sound.settlePair generation isReturned)

theorem beginRevoke : client.beginRevoke.PromisesSound where
  aligned := Aligned.beginRevoke
  pair _ stored := by cases stored
  returned generation isReturned := Or.inl (sound.settlePair generation isReturned)

theorem finishRevoke (suppressReconnect : Bool) :
    (client.finishRevoke suppressReconnect).PromisesSound := by
  rw [SrpcClient.finishRevoke]
  split
  · exact ⟨sound.aligned, sound.pair, sound.returned⟩
  · exact sound

theorem beginDisconnect : client.beginDisconnect.PromisesSound :=
  ⟨sound.aligned, sound.pair, sound.returned⟩

theorem finishConnect (unstored : client.connectPair = none) (accepted : Bool) :
    (client.finishConnect accepted).PromisesSound := by
  have settled : ∀ generation ∈ client.returned, generation ∈ client.settled := by
    intro generation isReturned
    rcases sound.returned generation isReturned with settled | stored
    · exact settled
    · cases unstored.symm.trans stored
  refine ⟨Aligned.finishConnect accepted, ?_, ?_⟩
  · intro generation stored
    cases accepted with
    | true => exact stored
    | false => cases unstored.symm.trans stored
  · intro generation isReturned
    cases accepted with
    | true =>
        rcases List.mem_cons.mp isReturned with rfl | old
        · exact Or.inr rfl
        · exact Or.inl (settled generation old)
    | false => exact Or.inl (settled generation isReturned)

theorem run (idle : client.isConnected = false) (call : ClientCall) :
    (client.run call).PromisesSound := by
  cases call with
  | connect accepted handlers =>
      rw [run_connect_of_idle idle]
      exact sound.beginConnect.finishConnect rfl accepted
  | disconnect handlers =>
      rw [run_disconnect_of_idle idle]
      split
      · exact sound.beginDisconnect.beginRevoke
      · exact sound.beginDisconnect
  | send refused handlers =>
      rw [run_send_of_idle idle]
      split
      · exact sound.beginRevoke.finishRevoke false
      · exact sound

theorem runAll (idle : client.isConnected = false) (calls : List ClientCall) :
    (client.runAll calls).PromisesSound := by
  induction calls generalizing client with
  | nil =>
      rw [SrpcClient.runAll]
      exact sound
  | cons call rest ih =>
      rw [SrpcClient.runAll]
      exact ih (sound.run idle call) (run_idle idle call)

theorem unstored_of_notConnected (idle : client.isConnected = false)
    (unstored : client.connectPair = none) {calls : List ClientCall}
    (ends : ClientCall.endsConnected calls = false) : (client.runAll calls).connectPair = none := by
  have finished : ∀ client : SrpcClient,
      (client.finishRevoke false).connectPair = client.connectPair := by
    intro client
    rw [SrpcClient.finishRevoke]
    split <;> rfl
  by_contra present
  have connects : calls.foldl ClientCall.leavesSocket false = true :=
    leavesSocket_of_present (fun _ sound idle call => PromisesSound.run sound idle call)
      (fun _ sound generation stored =>
        ⟨sound.pair generation stored, sound.aligned generation (sound.pair generation stored)⟩)
      (fun _ => rfl) (fun _ => rfl) (fun _ => rfl) finished sound idle
      (fun isPresent => absurd unstored isPresent) present
  rw [ClientCall.endsConnected, connects] at ends
  cases ends

theorem connect {accepted : Bool} {handlers : List ClientCall}
    (meets : promiseCondition client .superseded handlers) :
    (client.run (.connect accepted handlers)).PromisesSound := by
  rw [SrpcClient.run]
  split
  · rename_i connected
    refine (sound.beginConnect.runAll rfl handlers).finishConnect ?_ accepted
    exact sound.beginConnect.unstored_of_notConnected rfl rfl (meets rfl connected)
  · exact sound.beginConnect.finishConnect rfl accepted

theorem revoke (current : client.IsCurrent client.generation) (suppressReconnect : Bool)
    (handlers : List ClientCall) :
    (client.revokeGeneration client.generation suppressReconnect handlers).PromisesSound := by
  rw [revokeGeneration, if_pos current]
  split
  · exact (sound.beginRevoke.runAll rfl handlers).finishRevoke suppressReconnect
  · exact sound.beginRevoke.finishRevoke suppressReconnect

end

end PromisesSound

theorem promisesSound_kept : Kept promiseCondition PromisesSound where
  initial _ := ⟨(fun _ found => by cases found), (fun _ stored => by cases stored),
    fun _ isReturned => by cases isReturned⟩
  connect _ _ _ sound meets := sound.connect meets
  beginDisconnect _ sound := sound.beginDisconnect
  revoke _ _ _ sound current _ := sound.revoke current _ _
  opened _ sound := ⟨sound.aligned, sound.pair, sound.returned⟩
  complete client generation sound := by
    rw [completeConnection]
    split
    · exact ⟨sound.aligned, (fun _ stored => by cases stored),
        fun generation isReturned => Or.inl (sound.settlePair generation isReturned)⟩
    · exact sound
  fired _ sound _ := ⟨sound.aligned, sound.pair, sound.returned⟩

/-- No promise of a connect is left hanging, in every run whose disconnect handlers meet the
condition. -/
theorem connect_promises_settled (client : SrpcClient)
    (reachable : (system.restrict (EventMeets promiseCondition)).Reachable client) :
    (∀ generation ∈ client.returned, generation ≠ client.generation →
        generation ∈ client.settled) ∧
      (client.generation ∈ client.returned → client.generation ∈ client.settled ∨
        client.connectPair = some client.generation) := by
  have sound := promisesSound_kept.reachable reachable
  refine ⟨?_, sound.returned client.generation⟩
  intro generation isReturned older
  rcases sound.returned generation isReturned with settled | stored
  · exact settled
  · exact absurd (sound.aligned generation (sound.pair generation stored)).symm older

/-- A client that is connected connects again, and a disconnect handler disconnects. -/
def supersededRun : List ClientEvent :=
  [.call (.connect true []), .activated 1 [],
    .call (.connect true [.connect true [], .disconnect []])]

theorem connect_promises_settled_after_supersede : ∃ client,
    (system.restrict (EventMeets promiseCondition)).Reachable client ∧
      client.returned = [3, 2, 1] ∧ 2 ∈ client.settled := by
  have started : (system.restrict (EventMeets promiseCondition)).Reachable (initial true) :=
    .start ⟨true, rfl⟩
  have follows : TransitionSystem.Follows advance (EventMeets promiseCondition) (initial true)
      supersededRun :=
    ⟨(fun _ impossible => by cases impossible), fun _ _ => trivial, fun _ _ => rfl, trivial⟩
  have reached := started.follow _ _ (fun _ _ meets => ⟨meets, rfl⟩) follows
  exact ⟨_, reached, by decide,
    (connect_promises_settled _ reached).1 2 (by decide) (by decide)⟩

/-- A disconnect handler connects while a connect supersedes the connection. -/
def overwrittenRun : List ClientEvent :=
  [.call (.connect true []), .activated 1 [], .call (.connect true [.connect true []])]

theorem connect_promise_left_hanging : ∃ client : SrpcClient, system.Reachable client ∧
    client.generation = 3 ∧ 2 ∈ client.returned ∧ 2 ∉ client.settled ∧
      client.connectPair = some 3 := by
  have started : system.Reachable (initial true) := .start ⟨true, rfl⟩
  have follows : TransitionSystem.Follows advance (fun _ _ => True) (initial true)
      overwrittenRun := ⟨trivial, trivial, trivial, trivial⟩
  exact ⟨_, started.follow _ _ (fun _ _ _ => rfl) follows, by decide⟩

end Promises

end SrpcClient

end ServerFoundation.Srpc
