import Mathlib.Data.List.Perm.Subperm
import ServerFoundation.Data.TransitionSystem
import ServerFoundation.Srpc.Handshake

/-!
# Replay protection of one server

The bounded map in which a server without a shared nonce consumer remembers the replay tokens it
has consumed, and the handshakes that consume them. A handshake checks its timestamp, waits for
its client key, consumes its token and waits for admission; any number of handshakes interleave
at these waits and the clock only moves forward.

A token is forgotten only once the clock has reached its expiry, and from then on the same
timestamp can no longer be consumed.
-/

namespace ServerFoundation.Srpc

/-- `authReplayNoncesByPrincipal`: the consumed tokens of each principal with their expiry. -/
abbrev ReplayStore := OrderedMap String (OrderedMap String JsNumber)

namespace ReplayStore

variable {before : ReplayStore} {expiresAt : JsNumber} {nonces : OrderedMap String JsNumber}
  {nonce principal : String}

/-- The tokens that one principal may have. -/
def maxAuthReplayNoncesPerPrincipal : ℕ := 256

/-- `pruneExpiredEntries`. -/
def pruneExpiredEntries (entries : OrderedMap String JsNumber) (now : ℤ) :
    OrderedMap String JsNumber :=
  entries.filter fun expiresAt => !expiresAt.le (.finite now)

/-- `isLocalAuthNonceReplay`. -/
def isLocalAuthNonceReplay (store : ReplayStore) (now : ℤ) (principal nonce : String) :
    ReplayStore × Bool :=
  match store.get? principal with
  | none => (store, false)
  | some nonces =>
      let nonces := pruneExpiredEntries nonces now
      if nonces.size = 0 then (store.erase principal, false)
      else
        (store.set principal nonces,
          (JsNumber.finite now).lt ((nonces.get? nonce).getD (.finite 0)))

/-- Prune every principal and delete those left empty. -/
def prunePrincipals (store : ReplayStore) (now : ℤ) : ReplayStore :=
  (store.mapValues fun nonces => pruneExpiredEntries nonces now).filter fun nonces =>
    nonces.size ≠ 0

/-- The branch of `consumeLocalAuthNonce` that makes room for a new principal. -/
def makeRoom (store : ReplayStore) (now : ℤ) (maxPrincipals : ℕ) (allowEviction : Bool) :
    ReplayStore × Bool :=
  let store := if maxPrincipals ≤ store.size then prunePrincipals store now else store
  if maxPrincipals ≤ store.size then
    if allowEviction then (store.dropOldest, true) else (store, false)
  else (store, true)

/-- The part of `consumeLocalAuthNonce` on the tokens of one principal. -/
def consumeNonce (store : ReplayStore) (now : ℤ) (principal nonce : String)
    (expiresAt : JsNumber) (allowEviction : Bool) (nonces : OrderedMap String JsNumber) :
    ReplayStore × Bool :=
  let nonces := pruneExpiredEntries nonces now
  let store := store.set principal nonces
  if (JsNumber.finite now).lt ((nonces.get? nonce).getD (.finite 0)) then (store, false)
  else if maxAuthReplayNoncesPerPrincipal ≤ nonces.size ∧ ¬allowEviction then (store, false)
  else
    let nonces :=
      if maxAuthReplayNoncesPerPrincipal ≤ nonces.size then nonces.dropOldest else nonces
    ((store.erase principal).set principal (nonces.set nonce expiresAt), true)

/-- `consumeLocalAuthNonce`. -/
def consumeLocalAuthNonce (store : ReplayStore) (now : ℤ) (maxPrincipals : ℕ)
    (principal nonce : String) (expiresAt : JsNumber) (allowEviction : Bool) :
    ReplayStore × Bool :=
  if expiresAt.le (.finite now) then (store, false)
  else
    match store.get? principal with
    | some nonces => consumeNonce store now principal nonce expiresAt allowEviction nonces
    | none =>
        match makeRoom store now maxPrincipals allowEviction with
        | (store, false) => (store, false)
        | (store, true) =>
            consumeNonce (store.set principal .empty) now principal nonce expiresAt allowEviction
              .empty

/-- `consumeAuthReplayToken` without a shared consumer. The clock is read once by each of the
two calls. -/
def consumeAuthReplayToken (store : ReplayStore) (now later : ℤ) (maxPrincipals : ℕ)
    (principal token : String) (expiresAt : JsNumber) : ReplayStore × Bool :=
  match isLocalAuthNonceReplay store now principal token with
  | (store, true) => (store, false)
  | (store, false) =>
      consumeLocalAuthNonce store later maxPrincipals principal token expiresAt false

/-- The token is remembered under this expiry. -/
def Retains (store : ReplayStore) (principal nonce : String) (expiresAt : JsNumber) : Prop :=
  ∃ nonces, store.get? principal = some nonces ∧ nonces.get? nonce = some expiresAt

/-- Everything that has not expired at the given time is still remembered. -/
def Keeps (now : ℤ) (before after : ReplayStore) : Prop :=
  ∀ principal nonce expiresAt, (JsNumber.finite now).lt expiresAt →
    Retains before principal nonce expiresAt → Retains after principal nonce expiresAt

variable {store : ReplayStore} {now : ℤ}

theorem Keeps.trans {first second third : ReplayStore} (left : Keeps now first second)
    (right : Keeps now second third) : Keeps now first third := by
  intro principal nonce expiresAt future retained
  exact right _ _ _ future (left _ _ _ future retained)

theorem Keeps.later {after : ReplayStore} {later : ℤ} (keeps : Keeps now before after)
    (ordered : now ≤ later) : Keeps later before after := by
  intro principal nonce expiresAt future retained
  exact keeps _ _ _ (JsNumber.lt_of_le_of_lt ordered future) retained

theorem not_le_of_future (future : (JsNumber.finite now).lt expiresAt) :
    expiresAt.le (.finite now) = false := by
  have number : expiresAt ≠ .nan := by
    rintro rfl
    simp [JsNumber.lt] at future
  rw [JsNumber.le_eq_not_lt number (by simp), future]
  rfl

theorem get?_pruneExpiredEntries (found : nonces.get? nonce = some expiresAt)
    (future : (JsNumber.finite now).lt expiresAt) :
    (pruneExpiredEntries nonces now).get? nonce = some expiresAt := by
  simp [pruneExpiredEntries, found, Option.filter, not_le_of_future future]

theorem keeps_of_pruned (now : ℤ) (found : store.get? principal = some nonces) :
    Keeps now store (store.set principal (pruneExpiredEntries nonces now)) := by
  rintro other nonce expiresAt future ⟨stored, isStored, inStored⟩
  by_cases same : other = principal
  · subst same
    rw [found, Option.some.injEq] at isStored
    subst isStored
    exact ⟨_, by simp, get?_pruneExpiredEntries inStored future⟩
  · exact ⟨stored, by simpa [same] using isStored, inStored⟩

theorem isLocalAuthNonceReplay_keeps (store : ReplayStore) (now : ℤ) (principal nonce : String) :
    Keeps now store (isLocalAuthNonceReplay store now principal nonce).1 := by
  simp only [isLocalAuthNonceReplay]
  cases found : store.get? principal with
  | none => exact fun _ _ _ _ retained => retained
  | some nonces =>
      simp only
      split
      · rename_i emptied
        rintro other token expiresAt future ⟨stored, isStored, inStored⟩
        by_cases same : other = principal
        · subst same
          rw [found, Option.some.injEq] at isStored
          subst isStored
          have kept := get?_pruneExpiredEntries inStored future
          rw [(OrderedMap.size_eq_zero_iff _).mp emptied token] at kept
          cases kept
        · exact ⟨stored, by simpa [same] using isStored, inStored⟩
      · exact keeps_of_pruned now found

theorem prunePrincipals_keeps (store : ReplayStore) (now : ℤ) :
    Keeps now store (prunePrincipals store now) := by
  rintro principal nonce expiresAt future ⟨stored, isStored, inStored⟩
  have kept := get?_pruneExpiredEntries inStored future
  have nonempty : (pruneExpiredEntries stored now).size ≠ 0 := by
    intro emptied
    rw [(OrderedMap.size_eq_zero_iff _).mp emptied nonce] at kept
    cases kept
  exact ⟨_, by simp [prunePrincipals, isStored, Option.filter, nonempty], kept⟩

theorem makeRoom_eq (store : ReplayStore) (now : ℤ) (maxPrincipals : ℕ) :
    (makeRoom store now maxPrincipals false).1 = store ∨
      (makeRoom store now maxPrincipals false).1 = prunePrincipals store now := by
  simp only [makeRoom, Bool.false_eq_true, if_false, apply_ite Prod.fst, ite_self]
  split
  · exact Or.inr rfl
  · exact Or.inl rfl

theorem makeRoom_keeps (store : ReplayStore) (now : ℤ) (maxPrincipals : ℕ) :
    Keeps now store (makeRoom store now maxPrincipals false).1 := by
  rcases makeRoom_eq store now maxPrincipals with unchanged | pruned
  · rw [unchanged]
    exact fun _ _ _ _ retained => retained
  · rw [pruned]
    exact prunePrincipals_keeps store now

theorem get?_makeRoom_eq_none (absent : store.get? principal = none) (now : ℤ) (maxPrincipals : ℕ) :
    (makeRoom store now maxPrincipals false).1.get? principal = none := by
  rcases makeRoom_eq store now maxPrincipals with unchanged | pruned
  · rw [unchanged, absent]
  · simp [pruned, prunePrincipals, absent]

theorem keeps_of_new (absent : store.get? principal = none) :
    Keeps now store (store.set principal .empty) := by
  rintro other nonce expiresAt future ⟨stored, isStored, inStored⟩
  have differ : other ≠ principal := by
    rintro rfl
    rw [absent] at isStored
    cases isStored
  exact ⟨stored, by simpa [differ] using isStored, inStored⟩

/-- What a consumption may do: it forgets nothing that is still alive, and when it answers
`true` the token is remembered now but was not before. -/
structure Consumes (now : ℤ) (principal nonce : String) (expiresAt : JsNumber)
    (before : ReplayStore) (outcome : ReplayStore × Bool) : Prop where
  keeps : Keeps now before outcome.1
  fresh : outcome.2 = true → ¬Retains before principal nonce expiresAt
  retains : outcome.2 = true → Retains outcome.1 principal nonce expiresAt

theorem Consumes.after {middle : ReplayStore} {outcome : ReplayStore × Bool}
    (keeps : Keeps now before middle) (future : (JsNumber.finite now).lt expiresAt)
    (consumes : Consumes now principal nonce expiresAt middle outcome) :
    Consumes now principal nonce expiresAt before outcome where
  keeps := keeps.trans consumes.keeps
  fresh accepted retained := consumes.fresh accepted (keeps _ _ _ future retained)
  retains := consumes.retains

theorem refused_consumes {after : ReplayStore} (keeps : Keeps now before after) :
    Consumes now principal nonce expiresAt before (after, false) where
  keeps := keeps
  fresh accepted := by cases accepted
  retains accepted := by cases accepted

theorem consumeNonce_consumes (found : store.get? principal = some nonces)
    (future : (JsNumber.finite now).lt expiresAt) :
    Consumes now principal nonce expiresAt store
      (consumeNonce store now principal nonce expiresAt false nonces) := by
  have pruned := keeps_of_pruned now found
  simp only [consumeNonce]
  split
  · exact refused_consumes pruned
  · rename_i notLive
    split
    · exact refused_consumes pruned
    · rename_i room
      have belowLimit : ¬maxAuthReplayNoncesPerPrincipal ≤
          (pruneExpiredEntries nonces now).size := by
        simpa using room
      have notRetained : ∀ live, (JsNumber.finite now).lt live →
          ¬Retains store principal nonce live := by
        rintro live liveFuture ⟨stored, isStored, inStored⟩
        rw [found, Option.some.injEq] at isStored
        subst isStored
        rw [get?_pruneExpiredEntries inStored liveFuture] at notLive
        exact notLive liveFuture
      rw [if_neg belowLimit]
      refine ⟨?_, fun _ => notRetained expiresAt future,
        fun _ => ⟨(pruneExpiredEntries nonces now).set nonce expiresAt, by simp, by simp⟩⟩
      intro other token live liveFuture retained
      rcases pruned other token live liveFuture retained with ⟨stored, isStored, inStored⟩
      by_cases same : other = principal
      · subst same
        have differ : token ≠ nonce := by
          rintro rfl
          exact notRetained live liveFuture retained
        simp only [OrderedMap.get?_set, if_true, Option.some.injEq] at isStored
        subst isStored
        exact ⟨(pruneExpiredEntries nonces now).set nonce expiresAt, by simp,
          by simpa [differ] using inStored⟩
      · simp only [OrderedMap.get?_set, if_neg same] at isStored
        exact ⟨stored, by simpa [same] using isStored, inStored⟩

theorem future_of_accepted (number : expiresAt ≠ .nan) {maxPrincipals : ℕ}
    (accepted : (consumeLocalAuthNonce store now maxPrincipals principal nonce expiresAt false).2 =
      true) : (JsNumber.finite now).lt expiresAt := by
  simp only [consumeLocalAuthNonce] at accepted
  split at accepted
  · cases accepted
  · rename_i notExpired
    rw [JsNumber.le_eq_not_lt number (by simp)] at notExpired
    simpa using notExpired

theorem consumeLocalAuthNonce_consumes (store : ReplayStore) (now : ℤ) (number : expiresAt ≠ .nan)
    (maxPrincipals : ℕ) (principal nonce : String) :
    Consumes now principal nonce expiresAt store
      (consumeLocalAuthNonce store now maxPrincipals principal nonce expiresAt false) := by
  simp only [consumeLocalAuthNonce]
  split
  · exact refused_consumes fun _ _ _ _ retained => retained
  · rename_i notExpired
    have future : (JsNumber.finite now).lt expiresAt := by
      rw [JsNumber.le_eq_not_lt number (by simp)] at notExpired
      simpa using notExpired
    cases found : store.get? principal with
    | some nonces => exact consumeNonce_consumes found future
    | none =>
        have roomKeeps := makeRoom_keeps store now maxPrincipals
        have stillAbsent := get?_makeRoom_eq_none found now maxPrincipals
        rcases room : makeRoom store now maxPrincipals false with ⟨roomy, hasRoom⟩
        rw [room] at roomKeeps stillAbsent
        cases hasRoom with
        | false => exact refused_consumes roomKeeps
        | true =>
            apply Consumes.after (roomKeeps.trans (keeps_of_new stillAbsent)) future
            exact consumeNonce_consumes (by simp) future

theorem consumeAuthReplayToken_consumes (store : ReplayStore) (number : expiresAt ≠ .nan)
    {later : ℤ} (ordered : now ≤ later) (maxPrincipals : ℕ) (principal token : String) :
    Consumes later principal token expiresAt store
      (consumeAuthReplayToken store now later maxPrincipals principal token expiresAt) := by
  have fastPath := (isLocalAuthNonceReplay_keeps store now principal token).later ordered
  simp only [consumeAuthReplayToken]
  rcases checked : isLocalAuthNonceReplay store now principal token with ⟨pruned, replay⟩
  rw [checked] at fastPath
  cases replay with
  | true => exact refused_consumes fastPath
  | false =>
      simp only
      have consumed := consumeLocalAuthNonce_consumes pruned later number maxPrincipals principal
        token
      refine ⟨fastPath.trans consumed.keeps, ?_, consumed.retains⟩
      intro accepted retained
      have future := future_of_accepted number accepted
      exact consumed.fresh accepted (fastPath _ _ _ future retained)

theorem future_of_consumed (store : ReplayStore) (number : expiresAt ≠ .nan) (now later : ℤ)
    (maxPrincipals : ℕ) (principal token : String)
    (accepted : (consumeAuthReplayToken store now later maxPrincipals principal token
      expiresAt).2 = true) : (JsNumber.finite later).lt expiresAt := by
  simp only [consumeAuthReplayToken] at accepted
  split at accepted
  · cases accepted
  · exact future_of_accepted number accepted

end ReplayStore

/-- A server between two events: its replay tokens, its clock and its handshakes by what they
wait for. -/
structure HandshakeServer where
  replayNonces : ReplayStore
  clock : ℤ
  awaitingKey : List Handshake
  awaitingAdmission : List Handshake
  accepted : List Handshake

/-- What happens next: a request arrives, a key lookup ends or fails, or the admission hook
answers. Each event carries the clock it reads. -/
inductive HandshakeEvent where
  | arrives (request : Request) (now : ℤ) (activeStreams : ℕ)
  | keyFetched (handshake : Handshake) (clientKey : Option String) (now later : ℤ)
  | keyFailed (handshake : Handshake)
  | admissionAnswered (handshake : Handshake) (answer : Except Rejection Unit)

namespace HandshakeServer

variable (options : ServerOptions) (hmac : String → String → String)

/-- The load that a handshake meets. -/
def load (server : HandshakeServer) (activeStreams : ℕ) : ServerLoad :=
  ⟨server.awaitingKey.length + server.awaitingAdmission.length, activeStreams⟩

/-- A request arrives. -/
def arrive (server : HandshakeServer) (request : Request) (now : ℤ) (activeStreams : ℕ) :
    HandshakeServer :=
  match beginHandshake options (server.load activeStreams) now request with
  | .error _ => { server with clock := now }
  | .ok handshake =>
      { server with clock := now, awaitingKey := server.awaitingKey ++ [handshake] }

/-- A key lookup ends. -/
def keyFetched (server : HandshakeServer) (handshake : Handshake) (clientKey : Option String)
    (now later : ℤ) : HandshakeServer :=
  let remaining := server.awaitingKey.erase handshake
  match checkSignature options hmac clientKey handshake with
  | .error _ => { server with clock := later, awaitingKey := remaining }
  | .ok () =>
      match server.replayNonces.consumeAuthReplayToken now later options.maxAuthReplayPrincipals
        handshake.clientId handshake.replayToken handshake.expiresAt with
      | (replayNonces, false) =>
          { server with replayNonces, clock := later, awaitingKey := remaining }
      | (replayNonces, true) =>
          { server with
            replayNonces
            clock := later
            awaitingKey := remaining
            awaitingAdmission := server.awaitingAdmission ++ [handshake] }

/-- The admission hook answers. -/
def admissionAnswered (server : HandshakeServer) (handshake : Handshake)
    (answer : Except Rejection Unit) : HandshakeServer :=
  let remaining := server.awaitingAdmission.erase handshake
  match answer.bind fun _ => streamInfo options handshake with
  | .ok _ =>
      { server with
        awaitingAdmission := remaining
        accepted := server.accepted ++ [handshake] }
  | .error _ => { server with awaitingAdmission := remaining }

/-- What an event does to the server. -/
def handle (server : HandshakeServer) : HandshakeEvent → HandshakeServer
  | .arrives request now activeStreams => server.arrive options request now activeStreams
  | .keyFetched handshake clientKey now later =>
      server.keyFetched options hmac handshake clientKey now later
  | .keyFailed handshake =>
      { server with awaitingKey := server.awaitingKey.erase handshake }
  | .admissionAnswered handshake answer => server.admissionAnswered options handshake answer

/-- Events concern waiting handshakes, and the clock does not decrease. -/
def Feasible (server : HandshakeServer) : HandshakeEvent → Prop
  | .arrives _ now _ => server.clock ≤ now
  | .keyFetched handshake _ now later =>
      handshake ∈ server.awaitingKey ∧ server.clock ≤ now ∧ now ≤ later
  | .keyFailed handshake => handshake ∈ server.awaitingKey
  | .admissionAnswered handshake _ => handshake ∈ server.awaitingAdmission

/-- All runs of a server that starts without handshakes and tokens. -/
def system : TransitionSystem HandshakeServer HandshakeEvent where
  Init server := ∃ clock, server = ⟨.empty, clock, [], [], []⟩
  Step before event after :=
    before.Feasible event ∧ after = before.handle options hmac event

end HandshakeServer

namespace Handshake

variable (options : ServerOptions)

/-- What replay protection is about: client id, token and timestamp. -/
def replayKey (handshake : Handshake) : String × String × JsNumber :=
  (handshake.clientId, handshake.replayToken, handshake.timestamp)

/-- What the first checks establish about the two numbers of the expiry. -/
structure Dated (handshake : Handshake) : Prop where
  drift : handshake.driftMs = Srpc.driftMs options
  driftFinite : handshake.driftMs.isFinite
  timestampFinite : handshake.timestamp.isFinite

variable {options}

theorem Dated.expiresAt_ne_nan {handshake : Handshake} (dated : handshake.Dated options) :
    handshake.expiresAt ≠ .nan :=
  JsNumber.add_ne_nan dated.timestampFinite dated.driftFinite

theorem Dated.expiresAt_eq {left right : Handshake} (leftDated : left.Dated options)
    (rightDated : right.Dated options) (same : left.timestamp = right.timestamp) :
    left.expiresAt = right.expiresAt := by
  rw [expiresAt, expiresAt, same, leftDated.drift, rightDated.drift]

end Handshake

theorem isFinite_of_isSafeInteger {number : JsNumber} (safe : number.isSafeInteger) :
    number.isFinite := by
  cases number with
  | finite _ => rfl
  | infinite _ => simp [JsNumber.isSafeInteger] at safe
  | nan => simp [JsNumber.isSafeInteger] at safe

theorem checkCredentials_dated {options : ServerOptions} {now : ℤ} {request : Request}
    {protocolVersion : ProtocolVersion} {handshake : Handshake}
    (passed : checkCredentials options now request protocolVersion = .ok handshake) :
    handshake.Dated options := by
  simp only [checkCredentials] at passed
  split at passed
  · cases passed
  · split at passed
    · cases passed
    · rename_i finite
      split at passed
      · cases passed
      · rename_i drift
        split at passed
        · cases passed
        · split at passed
          · cases passed
          · cases passed
            simp only [not_or, not_not] at finite drift
            exact ⟨rfl, isFinite_of_isSafeInteger drift.1, finite⟩

theorem beginHandshake_dated {options : ServerOptions} {load : ServerLoad} {now : ℤ}
    {request : Request} {handshake : Handshake}
    (begun : beginHandshake options load now request = .ok handshake) :
    handshake.Dated options := by
  simp only [beginHandshake] at begun
  cases checked : checkRequest options load request.query with
  | error rejection =>
      rw [checked] at begun
      cases begun
  | ok protocolVersion =>
      rw [checked] at begun
      exact checkCredentials_dated begun

namespace HandshakeServer

variable {options : ServerOptions} {hmac : String → String → String} {handshake : Handshake}
  {server : HandshakeServer}

/-- The handshakes whose token has been consumed and that were not refused since. -/
def consumed (server : HandshakeServer) : List Handshake :=
  server.awaitingAdmission ++ server.accepted

/-- No key is consumed twice, and the tokens of consumed handshakes are remembered until they
expire. -/
structure Guarded (options : ServerOptions) (server : HandshakeServer) : Prop where
  waitingDated : ∀ handshake ∈ server.awaitingKey, handshake.Dated options
  consumedDated : ∀ handshake ∈ server.consumed, handshake.Dated options
  distinct : (server.consumed.map Handshake.replayKey).Nodup
  remembered : ∀ handshake ∈ server.consumed,
    (JsNumber.finite server.clock).lt handshake.expiresAt →
      server.replayNonces.Retains handshake.clientId handshake.replayToken handshake.expiresAt

theorem Guarded.of_subperm {before after : HandshakeServer} (guarded : before.Guarded options)
    (waitingDated : ∀ handshake ∈ after.awaitingKey, handshake.Dated options)
    (consumedSub : after.consumed.Subperm before.consumed) (ordered : before.clock ≤ after.clock)
    (keeps : ReplayStore.Keeps after.clock before.replayNonces after.replayNonces) :
    after.Guarded options where
  waitingDated := waitingDated
  consumedDated handshake member := guarded.consumedDated handshake (consumedSub.subset member)
  distinct := by
    rcases consumedSub with ⟨kept, keptPerm, keptSub⟩
    have keptDistinct := guarded.distinct.sublist (keptSub.map Handshake.replayKey)
    exact (keptPerm.map Handshake.replayKey).nodup_iff.mp keptDistinct
  remembered handshake member future := by
    apply keeps _ _ _ future
    exact guarded.remembered handshake (consumedSub.subset member)
      (JsNumber.lt_of_le_of_lt ordered future)

theorem Guarded.of_consumes {before after : HandshakeServer} (guarded : before.Guarded options)
    (waitingDated : ∀ other ∈ after.awaitingKey, other.Dated options)
    (dated : handshake.Dated options)
    (consumedPerm : after.consumed.Perm (handshake :: before.consumed))
    (ordered : before.clock ≤ after.clock)
    (future : (JsNumber.finite after.clock).lt handshake.expiresAt)
    (consumes : ReplayStore.Consumes after.clock handshake.clientId handshake.replayToken
      handshake.expiresAt before.replayNonces (after.replayNonces, true)) :
    after.Guarded options where
  waitingDated := waitingDated
  consumedDated other member := by
    rcases List.mem_cons.mp (consumedPerm.mem_iff.mp member) with rfl | earlier
    · exact dated
    · exact guarded.consumedDated other earlier
  distinct := by
    rw [(consumedPerm.map Handshake.replayKey).nodup_iff, List.map_cons, List.nodup_cons]
    refine ⟨?_, guarded.distinct⟩
    intro replayed
    rcases List.mem_map.mp replayed with ⟨earlier, earlierMem, sameKey⟩
    simp only [Handshake.replayKey, Prod.mk.injEq] at sameKey
    have sameExpiry := (guarded.consumedDated earlier earlierMem).expiresAt_eq dated sameKey.2.2
    have stillRemembered := guarded.remembered earlier earlierMem (by
      rw [sameExpiry]
      exact JsNumber.lt_of_le_of_lt ordered future)
    rw [sameKey.1, sameKey.2.1, sameExpiry] at stillRemembered
    exact consumes.fresh rfl stillRemembered
  remembered other member otherFuture := by
    rcases List.mem_cons.mp (consumedPerm.mem_iff.mp member) with rfl | earlier
    · exact consumes.retains rfl
    · apply consumes.keeps _ _ _ otherFuture
      exact guarded.remembered other earlier (JsNumber.lt_of_le_of_lt ordered otherFuture)

theorem arrive_guarded (guarded : server.Guarded options) {request : Request} {now : ℤ}
    {activeStreams : ℕ} (ordered : server.clock ≤ now) :
    (server.arrive options request now activeStreams).Guarded options := by
  simp only [arrive]
  cases begun : beginHandshake options (server.load activeStreams) now request with
  | error rejection =>
      exact guarded.of_subperm guarded.waitingDated (List.Subperm.refl _) ordered
        fun _ _ _ _ retained => retained
  | ok handshake =>
      refine guarded.of_subperm ?_ (List.Subperm.refl _) ordered fun _ _ _ _ retained => retained
      intro other member
      rcases List.mem_append.mp member with earlier | new
      · exact guarded.waitingDated other earlier
      · rw [List.mem_singleton.mp new]
        exact beginHandshake_dated begun

theorem keyFetched_guarded (guarded : server.Guarded options) {clientKey : Option String}
    {now later : ℤ} (waiting : handshake ∈ server.awaitingKey) (clockLe : server.clock ≤ now)
    (nowLe : now ≤ later) :
    (server.keyFetched options hmac handshake clientKey now later).Guarded options := by
  have ordered : server.clock ≤ later := clockLe.trans nowLe
  have remaining : ∀ other ∈ server.awaitingKey.erase handshake, other.Dated options :=
    fun other member => guarded.waitingDated other (List.mem_of_mem_erase member)
  have dated := guarded.waitingDated handshake waiting
  simp only [keyFetched]
  cases checkSignature options hmac clientKey handshake with
  | error rejection =>
      exact guarded.of_subperm remaining (List.Subperm.refl _) ordered
        fun _ _ _ _ retained => retained
  | ok _ =>
      have consumes := ReplayStore.consumeAuthReplayToken_consumes server.replayNonces
        dated.expiresAt_ne_nan nowLe options.maxAuthReplayPrincipals handshake.clientId
        handshake.replayToken
      have future := ReplayStore.future_of_consumed server.replayNonces dated.expiresAt_ne_nan now
        later options.maxAuthReplayPrincipals handshake.clientId handshake.replayToken
      rcases answered : server.replayNonces.consumeAuthReplayToken now later
        options.maxAuthReplayPrincipals handshake.clientId handshake.replayToken
        handshake.expiresAt with ⟨replayNonces, answer⟩
      rw [answered] at consumes future
      cases answer with
      | false => exact guarded.of_subperm remaining (List.Subperm.refl _) ordered consumes.keeps
      | true =>
          refine guarded.of_consumes remaining dated ?_ ordered (future rfl) consumes
          simp only [consumed, List.append_assoc, List.singleton_append]
          exact List.perm_middle

theorem admissionAnswered_guarded (guarded : server.Guarded options)
    {answer : Except Rejection Unit} (waiting : handshake ∈ server.awaitingAdmission) :
    (server.admissionAnswered options handshake answer).Guarded options := by
  have erased := List.perm_cons_erase waiting
  simp only [admissionAnswered]
  cases answer.bind fun _ => streamInfo options handshake with
  | error rejection =>
      refine guarded.of_subperm guarded.waitingDated ?_ le_rfl fun _ _ _ _ retained => retained
      exact (List.erase_sublist.append_right server.accepted).subperm
  | ok info =>
      refine guarded.of_subperm guarded.waitingDated ?_ le_rfl fun _ _ _ _ retained => retained
      apply List.Perm.subperm
      simp only [consumed]
      rw [← List.append_assoc]
      refine List.perm_append_comm.trans ?_
      exact erased.symm.append_right server.accepted

theorem handle_guarded (guarded : server.Guarded options) {event : HandshakeEvent}
    (feasible : server.Feasible event) : (server.handle options hmac event).Guarded options := by
  cases event with
  | arrives request now activeStreams => exact arrive_guarded guarded feasible
  | keyFetched handshake clientKey now later =>
      exact keyFetched_guarded guarded feasible.1 feasible.2.1 feasible.2.2
  | keyFailed handshake =>
      refine guarded.of_subperm ?_ (List.Subperm.refl _) le_rfl fun _ _ _ _ retained => retained
      intro other member
      exact guarded.waitingDated other (List.mem_of_mem_erase member)
  | admissionAnswered handshake answer => exact admissionAnswered_guarded guarded feasible

theorem reachable_guarded (reachable : (system options hmac).Reachable server) :
    server.Guarded options := by
  apply reachable.invariant (Guarded options)
  · rintro _ ⟨clock, rfl⟩
    exact ⟨by simp, by simp [consumed], by simp [consumed], by simp [consumed]⟩
  · rintro before event _ _ guarded ⟨feasible, rfl⟩
    exact handle_guarded guarded feasible

/-- In every run of a server without a shared consumer, no client id and token are accepted
twice with the same timestamp. -/
theorem accepted_replayKeys_nodup (options : ServerOptions) (hmac : String → String → String)
    {server : HandshakeServer} (reachable : (system options hmac).Reachable server) :
    (server.accepted.map Handshake.replayKey).Nodup := by
  have distinct := (reachable_guarded reachable).distinct
  rw [consumed, List.map_append] at distinct
  exact distinct.of_append_right

section Replayed

instance : DecidableRel Feasible
  | server, .arrives _ now _ => inferInstanceAs (Decidable (server.clock ≤ now))
  | server, .keyFetched handshake _ now later =>
      inferInstanceAs (Decidable (handshake ∈ server.awaitingKey ∧ server.clock ≤ now ∧
        now ≤ later))
  | server, .keyFailed handshake => inferInstanceAs (Decidable (handshake ∈ server.awaitingKey))
  | server, .admissionAnswered handshake _ =>
      inferInstanceAs (Decidable (handshake ∈ server.awaitingAdmission))

/-- The options of the server. -/
def replayOptions : ServerOptions where
  defaultUnspecifiedProtocolVersion := none
  authAudience := none
  maxClientIdBytes := 1024
  maxPendingHandshakes := 128
  maxActiveStreams := 10000
  maxClientMetadataBytes := 65536
  maxAuthReplayPrincipals := 256
  supportsRequestAcknowledgments := true
  clockDriftMs := none

/-- A signed request of protocol version 2, whose stream id is the replay token. -/
def signedRequest : Request where
  path := "/srpc"
  parameters := [("appv", "1.0"), ("ts", "1700000000000"), ("id", "stream"), ("cid", "client"),
    ("signature", "9337862c14eac6e614ceabf326dc4978f1a82a483e598c7acc9086687c349ec4"), ("pv", "2")]
  address := "127.0.0.1"

/-- The HMAC of the text under that signature, with the key `secret`. -/
def signedRequestHmac (key text : String) : String :=
  if key = "secret" ∧ text = "1\n1.0\n1700000000000\nstream\nclient\n" then
    "9337862c14eac6e614ceabf326dc4978f1a82a483e598c7acc9086687c349ec4"
  else ""

/-- A handshake with a signature. -/
def signedHandshake : Handshake := ⟨signedRequest, .v2, .finite 1700000000000, .finite 30000⟩

/-- The request is accepted, and replayed in the very millisecond in which its token is forgotten.
-/
def replayRun : List HandshakeEvent :=
  [.arrives signedRequest 1700000000000 0,
    .keyFetched signedHandshake (some "secret") 1700000000005 1700000000005,
    .admissionAnswered signedHandshake (.ok ()),
    .arrives signedRequest 1700000029999 1,
    .keyFetched signedHandshake (some "secret") 1700000030000 1700000030000]

/-- A server that has seen nothing. -/
def replayStart : HandshakeServer := ⟨.empty, 1700000000000, [], [], []⟩

/-- At the expiry the replayed token is refused although it is no longer remembered. -/
theorem accepted_replayKeys_nodup_at_expiry :
    ∃ server, (system replayOptions signedRequestHmac).Reachable server ∧
      server.clock = 1700000030000 ∧ server.replayNonces.size = 0 ∧
      server.accepted = [signedHandshake] ∧
      (server.accepted.map Handshake.replayKey).Nodup := by
  have evaluated :
      TransitionSystem.Follows (handle replayOptions signedRequestHmac) Feasible replayStart
        replayRun ∧
      (replayRun.foldl (handle replayOptions signedRequestHmac) replayStart).clock =
        1700000030000 ∧
      (replayRun.foldl (handle replayOptions signedRequestHmac) replayStart).replayNonces.size =
        0 ∧
      (replayRun.foldl (handle replayOptions signedRequestHmac) replayStart).accepted =
        [signedHandshake] := by decide +kernel
  rcases evaluated with ⟨follows, clock, forgotten, accepted⟩
  have started : (system replayOptions signedRequestHmac).Reachable replayStart :=
    .start ⟨_, rfl⟩
  have reached := started.follow _ _ (fun _ _ feasible => ⟨feasible, rfl⟩) follows
  exact ⟨_, reached, clock, forgotten, accepted,
    accepted_replayKeys_nodup replayOptions signedRequestHmac reached⟩

end Replayed

end HandshakeServer

end ServerFoundation.Srpc
