import Mathlib.Algebra.Order.Ring.Int
import ServerFoundation.Data.Redis
import ServerFoundation.Data.TransitionSystem

/-!
# Cluster-wide handshake nonces

`MeshClientRedisRegistry.consumeAuthNonce` and its Lua script. Every principal
has a sorted set of consumed nonces scored by their expiry, and a shared index
scores each principal by the latest expiry it has consumed. Both keys carry a
TTL that the script recomputes from the maximum score on every acceptance.

The safety argument rests on one observation: a score is never larger than the
deadline of the key that holds it, so a key can only lapse once everything in it
has expired.
-/

namespace ServerFoundation.MeshClient

/-- The keys `auth-nonces:<principalHash>` and `auth-nonce-principals`, with Redis time in
milliseconds. -/
structure AuthNonceStore where
  nonces : String → Expiring (SortedSet String ℤ) ℤ
  principals : Expiring (SortedSet String ℤ) ℤ
  now : ℤ

namespace AuthNonceStore

variable {key : Expiring (SortedSet String ℤ) ℤ} (store : AuthNonceStore)

/-- A store without keys. -/
def empty (now : ℤ) : AuthNonceStore where
  nonces _ := ⟨.empty, none⟩
  principals := ⟨.empty, none⟩
  now := now

/-- Redis time moves on and keys past their deadline are deleted. -/
def advance (store : AuthNonceStore) (time : ℤ) : AuthNonceStore where
  nonces principal := (store.nonces principal).elapse .empty time
  principals := store.principals.elapse .empty time
  now := time

/-- Replace the nonce set of one principal. -/
def setNonces (store : AuthNonceStore) (principal : String)
    (key : Expiring (SortedSet String ℤ) ℤ) : AuthNonceStore :=
  { store with nonces := Function.update store.nonces principal key }

/-- `ZREMRANGEBYSCORE` on the principal index. -/
def prunePrincipals (store : AuthNonceStore) : AuthNonceStore :=
  { store with
    principals := store.principals.write (store.principals.value.removeUpTo store.now) }

/-- `ZREMRANGEBYSCORE` on the nonces of one principal. -/
def pruneNonces (store : AuthNonceStore) (principal : String) : AuthNonceStore :=
  store.setNonces principal
    ((store.nonces principal).write ((store.nonces principal).value.removeUpTo store.now))

/-- The writes of an accepted call: the nonce with its expiry, both TTLs, and the principal's score,
which never decreases. -/
def insertNonce (store : AuthNonceStore) (principal nonce : String) (expiresAt : ℤ) :
    AuthNonceStore :=
  let key := (store.nonces principal).write ((store.nonces principal).value.set nonce expiresAt)
  let latestExpiry := key.value.maxScore.getD expiresAt
  let key := key.expireAt (store.now + max 1 (latestExpiry - store.now))
  let priorPrincipalExpiry := (store.principals.value.get? principal).getD 0
  let principalExpiry := max priorPrincipalExpiry latestExpiry
  let principals := store.principals.write (store.principals.value.set principal principalExpiry)
  let globalExpiry := principals.value.maxScore.getD principalExpiry
  { store.setNonces principal key with
    principals := principals.expireAt (store.now + max 1 (globalExpiry - store.now)) }

/-- `CONSUME_AUTH_NONCE_SCRIPT`; the reply is `1` when the nonce was consumed. -/
def consumeAuthNonceScript (store : AuthNonceStore) (nonce : String) (expiresAt : ℤ)
    (principal : String) (maxPrincipals maxNonces : ℕ) : AuthNonceStore × ℕ :=
  if expiresAt ≤ store.now then (store, 0)
  else
    let store := store.prunePrincipals
    if store.principals.value.get? principal = none ∧
        maxPrincipals ≤ store.principals.value.size then (store, 0)
    else
      let store := store.pruneNonces principal
      if maxNonces ≤ (store.nonces principal).value.size then (store, 0)
      else if ((store.nonces principal).value.get? nonce).isSome then (store, 0)
      else (store.insertNonce principal nonce expiresAt, 1)

/-- `Number.isSafeInteger` on an integer. -/
def isSafeInteger (value : ℤ) : Bool := decide (|value| ≤ 2 ^ 53 - 1)

/-- `consumeAuthNonce`: the guards of the wrapper, then the script on the hashed principal. -/
def consumeAuthNonce (principalHash : String → String) (store : AuthNonceStore)
    (principal nonce : String) (expiresAt : ℤ) (maxPrincipals maxNonces : ℕ) :
    AuthNonceStore × Bool :=
  if principal = "" ∨ nonce = "" ∨ ¬isSafeInteger expiresAt then (store, false)
  else
    let (store, reply) := store.consumeAuthNonceScript nonce expiresAt (principalHash principal)
      maxPrincipals maxNonces
    (store, reply = 1)

/-- Scores never exceed the deadline of their key. -/
def Covered (key : Expiring (SortedSet String ℤ) ℤ) : Prop :=
  ∀ member score, key.value.get? member = some score →
    ∃ deadline, key.deadline = some deadline ∧ score ≤ deadline

theorem covered_of_removeUpTo (now : ℤ) (covered : Covered key) :
    Covered (key.write (key.value.removeUpTo now)) := by
  intro member score found
  exact covered member score (SortedSet.of_get?_removeUpTo found).1

theorem covered_of_expireAt_max (key : Expiring (SortedSet String ℤ) ℤ) (now fallback : ℤ) :
    Covered (key.expireAt (now + max 1 (key.value.maxScore.getD fallback - now))) := by
  intro member score found
  rw [Expiring.expireAt_value] at found
  rcases SortedSet.le_maxScore found with ⟨top, isTop, scoreLe⟩
  refine ⟨_, rfl, ?_⟩
  simp only [isTop, Option.getD_some]
  have := le_max_right 1 (top - now)
  omega

theorem not_lapsed_of_covered {time score : ℤ} {member : String} (covered : Covered key)
    (found : key.value.get? member = some score) (future : time < score) : ¬key.Lapsed time := by
  rcases covered member score found with ⟨deadline, isDeadline, scoreLe⟩
  rintro ⟨other, isOther, lapsed⟩
  rw [isDeadline] at isOther
  cases isOther
  omega

theorem covered_elapse (time : ℤ) (covered : Covered key) : Covered (key.elapse .empty time) := by
  by_cases lapsed : key.Lapsed time
  · rw [Expiring.elapse_of_lapsed _ lapsed]
    intro member score found
    simp at found
  · rw [Expiring.elapse_of_not_lapsed _ lapsed]
    exact covered

/-- The nonce is stored under its own expiry and the principal is indexed at least as long. -/
def Retains (store : AuthNonceStore) (principal nonce : String) (expiresAt : ℤ) : Prop :=
  (store.nonces principal).value.get? nonce = some expiresAt ∧
    ∃ score, store.principals.value.get? principal = some score ∧ expiresAt ≤ score

/-- Both kinds of keys are covered by their deadlines. -/
structure DeadlinesCover (store : AuthNonceStore) : Prop where
  nonces : ∀ principal, Covered (store.nonces principal)
  principals : Covered store.principals

theorem empty_deadlinesCover (now : ℤ) : (empty now).DeadlinesCover where
  nonces principal := by
    intro member score found
    simp [empty] at found
  principals := by
    intro member score found
    simp [empty] at found

theorem advance_deadlinesCover {store : AuthNonceStore} (time : ℤ)
    (covers : store.DeadlinesCover) : (store.advance time).DeadlinesCover where
  nonces principal := covered_elapse time (covers.nonces principal)
  principals := covered_elapse time covers.principals

theorem advance_retains {store : AuthNonceStore} {time expiresAt : ℤ}
    {principal nonce : String} (covers : store.DeadlinesCover) (future : time < expiresAt)
    (retains : store.Retains principal nonce expiresAt) :
    (store.advance time).Retains principal nonce expiresAt := by
  rcases retains with ⟨stored, score, indexed, scoreGe⟩
  have noncesAlive : ¬(store.nonces principal).Lapsed time :=
    not_lapsed_of_covered (covers.nonces principal) stored future
  have principalsAlive : ¬store.principals.Lapsed time :=
    not_lapsed_of_covered covers.principals indexed (by omega)
  refine ⟨?_, score, ?_, scoreGe⟩
  · simpa only [advance, Expiring.elapse_of_not_lapsed _ noncesAlive] using stored
  · simpa only [advance, Expiring.elapse_of_not_lapsed _ principalsAlive] using indexed

/-- While time stands still the deadlines still cover, and every consumed nonce that has not expired
is retained. -/
structure Keeps (before after : AuthNonceStore) : Prop where
  now : after.now = before.now
  covers : before.DeadlinesCover → after.DeadlinesCover
  retains : ∀ principal nonce expiresAt, before.now < expiresAt →
    before.Retains principal nonce expiresAt → after.Retains principal nonce expiresAt

theorem Keeps.refl : store.Keeps store where
  now := rfl
  covers := id
  retains _ _ _ _ := id

theorem Keeps.trans {first second third : AuthNonceStore} (left : first.Keeps second)
    (right : second.Keeps third) : first.Keeps third where
  now := right.now.trans left.now
  covers := right.covers ∘ left.covers
  retains principal nonce expiresAt future retained :=
    right.retains principal nonce expiresAt (by rw [left.now]; exact future)
      (left.retains principal nonce expiresAt future retained)

theorem prunePrincipals_keeps : store.Keeps store.prunePrincipals where
  now := rfl
  covers covers := ⟨covers.nonces, covered_of_removeUpTo store.now covers.principals⟩
  retains := by
    rintro principal nonce expiresAt future ⟨stored, score, indexed, scoreGe⟩
    exact ⟨stored, score, SortedSet.removeUpTo_kept indexed (by omega), scoreGe⟩

theorem setNonces_nonces (principal other : String) (key : Expiring (SortedSet String ℤ) ℤ) :
    (store.setNonces principal key).nonces other =
      if other = principal then key else store.nonces other := by
  simp [setNonces, Function.update_apply]

theorem pruneNonces_keeps (principal : String) :
    store.Keeps (store.pruneNonces principal) where
  now := rfl
  covers covers := by
    refine ⟨?_, covers.principals⟩
    intro other
    rw [pruneNonces, setNonces_nonces]
    split
    · exact covered_of_removeUpTo store.now (covers.nonces principal)
    · exact covers.nonces other
  retains := by
    rintro other nonce expiresAt future ⟨stored, score, indexed, scoreGe⟩
    refine ⟨?_, score, indexed, scoreGe⟩
    rw [pruneNonces, setNonces_nonces]
    split
    · rename_i same
      subst same
      exact SortedSet.removeUpTo_kept stored future
    · exact stored

theorem insertNonce_indexed (principal nonce : String) (expiresAt : ℤ) :
    (store.insertNonce principal nonce expiresAt).principals.value.get? principal =
      some (max ((store.principals.value.get? principal).getD 0)
        ((SortedSet.maxScore ((store.nonces principal).value.set nonce expiresAt)).getD
          expiresAt)) := by
  simp [insertNonce]

theorem insertNonce_spec {principal nonce : String} (expiresAt : ℤ)
    (absent : (store.nonces principal).value.get? nonce = none) :
    store.Keeps (store.insertNonce principal nonce expiresAt) ∧
      (store.insertNonce principal nonce expiresAt).Retains principal nonce expiresAt := by
  have latest_ge : ∀ member score,
      ((store.nonces principal).value.set nonce expiresAt).get? member = some score →
        score ≤ (SortedSet.maxScore
          ((store.nonces principal).value.set nonce expiresAt)).getD expiresAt := by
    intro member score found
    rcases SortedSet.le_maxScore found with ⟨top, isTop, scoreLe⟩
    rw [isTop]
    exact scoreLe
  refine ⟨⟨rfl, ?_, ?_⟩, ?_, ?_⟩
  · intro covers
    refine ⟨?_, covered_of_expireAt_max _ _ _⟩
    intro other
    rw [insertNonce, setNonces_nonces]
    split
    · exact covered_of_expireAt_max _ _ _
    · exact covers.nonces other
  · rintro other otherNonce otherExpiry future ⟨stored, score, indexed, scoreGe⟩
    refine ⟨?_, ?_⟩
    · rw [insertNonce, setNonces_nonces]
      split
      · rename_i same
        subst same
        have differ : otherNonce ≠ nonce := by
          rintro rfl
          rw [absent] at stored
          cases stored
        simpa [differ] using stored
      · exact stored
    · by_cases same : other = principal
      · subst same
        refine ⟨_, store.insertNonce_indexed other nonce expiresAt, ?_⟩
        rw [indexed]
        exact scoreGe.trans (le_max_left _ _)
      · exact ⟨score, by simpa [insertNonce, same] using indexed, scoreGe⟩
  · rw [insertNonce, setNonces_nonces, if_pos rfl]
    simp
  · refine ⟨_, store.insertNonce_indexed principal nonce expiresAt, ?_⟩
    exact (latest_ge nonce expiresAt (by simp)).trans (le_max_right _ _)

/-- Everything one script call can do: it keeps what is retained, and when it answers `1`
the nonce had not expired, was not retained before and is retained now. -/
theorem consumeAuthNonceScript_spec (nonce : String) (expiresAt : ℤ) (principal : String)
    (maxPrincipals maxNonces : ℕ) {after : AuthNonceStore} {reply : ℕ}
    (called : store.consumeAuthNonceScript nonce expiresAt principal maxPrincipals maxNonces =
      (after, reply)) :
    store.Keeps after ∧
      (reply = 1 → store.now < expiresAt ∧ ¬store.Retains principal nonce expiresAt ∧
        after.Retains principal nonce expiresAt) := by
  unfold consumeAuthNonceScript at called
  have pruned := (store.prunePrincipals_keeps).trans
    (store.prunePrincipals.pruneNonces_keeps principal)
  split at called
  · cases called
    exact ⟨.refl store, by simp⟩
  · rename_i future
    simp only at called
    split at called
    · cases called
      exact ⟨store.prunePrincipals_keeps, by simp⟩
    · split at called
      · cases called
        exact ⟨pruned, by simp⟩
      · split at called
        · cases called
          exact ⟨pruned, by simp⟩
        · rename_i absent
          cases called
          rw [Option.isSome_iff_ne_none, not_not] at absent
          rcases insertNonce_spec _ expiresAt absent with ⟨admitted, retained⟩
          refine ⟨pruned.trans admitted, fun _ => ⟨not_le.mp future, ?_, retained⟩⟩
          intro already
          have kept := (pruned.retains _ _ _ (not_le.mp future) already).1
          rw [absent] at kept
          cases kept

section Limits

variable (maxPrincipals maxNonces : ℕ)

/-- No principal has more nonces than its limit, and no more principals are indexed than theirs. -/
structure Bounded (store : AuthNonceStore) : Prop where
  nonces : ∀ principal, (store.nonces principal).value.size ≤ maxNonces
  principals : store.principals.value.size ≤ maxPrincipals

variable {maxPrincipals maxNonces} {store after : AuthNonceStore}

theorem size_elapse_le (key : Expiring (SortedSet String ℤ) ℤ) (time : ℤ) :
    (key.elapse .empty time).value.size ≤ key.value.size := by
  by_cases lapsed : key.Lapsed time
  · rw [Expiring.elapse_of_lapsed _ lapsed]
    exact Nat.zero_le _
  · rw [Expiring.elapse_of_not_lapsed _ lapsed]

theorem size_removeUpTo_le (set : SortedSet String ℤ) (limit : ℤ) :
    (set.removeUpTo limit).size ≤ set.size := List.length_filter_le _ _

theorem size_set_le (set : SortedSet String ℤ) (member : String) (score : ℤ) {bound : ℕ}
    (small : set.size ≤ bound) (room : set.get? member = none → set.size < bound) :
    (set.set member score).size ≤ bound := by
  cases found : set.get? member with
  | none =>
      rw [OrderedMap.size_set_of_absent _ _ found]
      exact room found
  | some stored =>
      rw [OrderedMap.size_set_of_present _ _ found]
      exact small

theorem Bounded.prune (bounded : Bounded maxPrincipals maxNonces store) (principal : String) :
    Bounded maxPrincipals maxNonces store.prunePrincipals ∧
      Bounded maxPrincipals maxNonces (store.prunePrincipals.pruneNonces principal) := by
  have indexed := (size_removeUpTo_le store.principals.value store.now).trans bounded.principals
  refine ⟨⟨bounded.nonces, indexed⟩, fun other => ?_, indexed⟩
  rw [pruneNonces, setNonces_nonces]
  split
  · exact (size_removeUpTo_le _ _).trans (bounded.nonces principal)
  · exact bounded.nonces other

theorem Bounded.consumeAuthNonce (bounded : Bounded maxPrincipals maxNonces store)
    {principalHash : String → String} {principal nonce : String} {expiresAt : ℤ} {accepted : Bool}
    (called : store.consumeAuthNonce principalHash principal nonce expiresAt maxPrincipals
      maxNonces = (after, accepted)) : Bounded maxPrincipals maxNonces after := by
  obtain rfl : _ = after := congrArg Prod.fst called
  unfold AuthNonceStore.consumeAuthNonce
  split
  · exact bounded
  · rcases bounded.prune (principalHash principal) with ⟨pruned, room⟩
    unfold consumeAuthNonceScript
    dsimp only
    split_ifs with _ full _ known
    all_goals first | exact bounded | exact pruned | exact room | skip
    refine ⟨fun other => ?_, ?_⟩
    · rw [insertNonce, setNonces_nonces]
      split
      · exact size_set_le _ _ _ (room.nonces _) fun _ => Nat.lt_of_not_le ‹_›
      · exact room.nonces other
    · exact size_set_le _ _ _ room.principals fun absent =>
        Nat.lt_of_not_le fun many => full ⟨absent, many⟩

end Limits

end AuthNonceStore

/-- A nonce that `consumeAuthNonce` has accepted. -/
structure ConsumedNonce where
  principal : String
  nonce : String
  expiresAt : ℤ
deriving DecidableEq, Repr

/-- The store together with every call that has returned `true`, oldest first. -/
structure AuthNonceHistory where
  store : AuthNonceStore
  consumed : List ConsumedNonce

/-- A call with its own limits, or the passing of Redis time. -/
inductive AuthNonceEvent where
  | consume (call : ConsumedNonce) (maxPrincipals maxNonces : ℕ)
  | advance (time : ℤ)

namespace AuthNonceHistory

variable (principalHash : String → String)

/-- Calls run at the current Redis time, which never decreases. -/
inductive Step : AuthNonceHistory → AuthNonceEvent → AuthNonceHistory → Prop where
  | accepted {history : AuthNonceHistory} {call : ConsumedNonce} {maxPrincipals maxNonces : ℕ}
      {store : AuthNonceStore}
      (called : history.store.consumeAuthNonce principalHash call.principal call.nonce
        call.expiresAt maxPrincipals maxNonces = (store, true)) :
      Step history (.consume call maxPrincipals maxNonces)
        ⟨store, history.consumed ++ [call]⟩
  | refused {history : AuthNonceHistory} {call : ConsumedNonce} {maxPrincipals maxNonces : ℕ}
      {store : AuthNonceStore}
      (called : history.store.consumeAuthNonce principalHash call.principal call.nonce
        call.expiresAt maxPrincipals maxNonces = (store, false)) :
      Step history (.consume call maxPrincipals maxNonces) ⟨store, history.consumed⟩
  | advance {history : AuthNonceHistory} {time : ℤ} (later : history.store.now ≤ time) :
      Step history (.advance time) ⟨history.store.advance time, history.consumed⟩

/-- Runs of `consumeAuthNonce` from empty keys. -/
def system : TransitionSystem AuthNonceHistory AuthNonceEvent where
  Init history := ∃ now, history = ⟨.empty now, []⟩
  Step := Step principalHash

/-- No nonce is accepted twice for one expiry, and an unexpired nonce stays retained. -/
structure Invariant (history : AuthNonceHistory) : Prop where
  covers : history.store.DeadlinesCover
  nodup : history.consumed.Nodup
  retains : ∀ call ∈ history.consumed, history.store.now < call.expiresAt →
    history.store.Retains (principalHash call.principal) call.nonce call.expiresAt

variable {principalHash}

theorem consumeAuthNonce_spec {store after : AuthNonceStore} {call : ConsumedNonce}
    {maxPrincipals maxNonces : ℕ} {accepted : Bool}
    (called : store.consumeAuthNonce principalHash call.principal call.nonce call.expiresAt
      maxPrincipals maxNonces = (after, accepted)) :
    store.Keeps after ∧
      (accepted = true → store.now < call.expiresAt ∧
        ¬store.Retains (principalHash call.principal) call.nonce call.expiresAt ∧
        after.Retains (principalHash call.principal) call.nonce call.expiresAt) := by
  unfold AuthNonceStore.consumeAuthNonce at called
  split at called
  · cases called
    exact ⟨.refl store, by simp⟩
  · rcases scriptCall : store.consumeAuthNonceScript call.nonce call.expiresAt
      (principalHash call.principal) maxPrincipals maxNonces with ⟨scriptAfter, reply⟩
    rw [scriptCall] at called
    cases called
    rcases AuthNonceStore.consumeAuthNonceScript_spec _ _ _ _ _ _ scriptCall with
      ⟨keeps, acceptance⟩
    exact ⟨keeps, fun answered => acceptance (by simpa using answered)⟩

theorem step_invariant {before after : AuthNonceHistory} {event : AuthNonceEvent}
    (holds : before.Invariant principalHash) (taken : Step principalHash before event after) :
    after.Invariant principalHash := by
  cases taken with
  | accepted called =>
      rename_i call maxPrincipals maxNonces store
      rcases consumeAuthNonce_spec called with ⟨keeps, acceptance⟩
      rcases acceptance rfl with ⟨future, notRetained, retained⟩
      refine ⟨keeps.covers holds.covers, ?_, ?_⟩
      · rw [List.nodup_append]
        refine ⟨holds.nodup, by simp, ?_⟩
        intro earlier earlierMem current currentMem same
        rw [List.mem_singleton] at currentMem
        subst currentMem same
        exact notRetained (holds.retains _ earlierMem future)
      · intro other otherMem otherFuture
        rcases List.mem_append.mp otherMem with earlier | current
        · rw [keeps.now] at otherFuture
          exact keeps.retains _ _ _ otherFuture (holds.retains other earlier otherFuture)
        · rw [List.mem_singleton] at current
          subst current
          exact retained
  | refused called =>
      have keeps := (consumeAuthNonce_spec called).1
      refine ⟨keeps.covers holds.covers, holds.nodup, ?_⟩
      intro call callMem future
      rw [keeps.now] at future
      exact keeps.retains _ _ _ future (holds.retains call callMem future)
  | advance later =>
      refine ⟨AuthNonceStore.advance_deadlinesCover _ holds.covers, holds.nodup, ?_⟩
      intro call callMem future
      apply AuthNonceStore.advance_retains holds.covers future
      exact holds.retains call callMem (lt_of_le_of_lt later future)

theorem reachable_invariant {history : AuthNonceHistory}
    (reachable : (system principalHash).Reachable history) :
    history.Invariant principalHash := by
  apply reachable.invariant fun history => history.Invariant principalHash
  · rintro state ⟨now, rfl⟩
    exact ⟨AuthNonceStore.empty_deadlinesCover now, by simp, by simp⟩
  · intro before event after _ holds taken
    exact step_invariant holds taken

/-- Replay protection across the cluster: no two calls with one principal, nonce and expiry return
`true`, and what retains a consumed nonce does not lapse before it expires. -/
theorem consumeAuthNonce_replay_protected (principalHash : String → String)
    {history : AuthNonceHistory} (reachable : (system principalHash).Reachable history) :
    history.consumed.Nodup ∧
      ∀ call ∈ history.consumed, history.store.now < call.expiresAt →
        (∃ score, history.store.principals.value.get? (principalHash call.principal) = some score ∧
          call.expiresAt ≤ score) ∧
        (history.store.nonces (principalHash call.principal)).value.get? call.nonce =
          some call.expiresAt ∧
        ¬history.store.principals.Lapsed history.store.now ∧
        ¬(history.store.nonces (principalHash call.principal)).Lapsed history.store.now := by
  have holds := reachable_invariant reachable
  refine ⟨holds.nodup, ?_⟩
  intro call callMem future
  rcases holds.retains call callMem future with ⟨stored, score, indexed, scoreGe⟩
  refine ⟨⟨score, indexed, scoreGe⟩, stored, ?_, ?_⟩
  · exact AuthNonceStore.not_lapsed_of_covered holds.covers.principals indexed
      (lt_of_lt_of_le future scoreGe)
  · exact AuthNonceStore.not_lapsed_of_covered
      (holds.covers.nonces (principalHash call.principal)) stored future

/-- One nonce accepted at time `0` and still retained at time `9`, one millisecond before it
expires. -/
theorem consumeAuthNonce_replay_protected_at_nine :
    ∃ history, (system id).Reachable history ∧ history.store.now = 9 ∧
      history.consumed = [⟨"client", "nonce", 10⟩] ∧
      (history.store.nonces "client").value.get? "nonce" = some 10 := by
  let accepted := (AuthNonceStore.empty 0).consumeAuthNonce id "client" "nonce" 10 1 1
  let call : ConsumedNonce := ⟨"client", "nonce", 10⟩
  have called : (AuthNonceStore.empty 0).consumeAuthNonce id "client" "nonce" 10 1 1 =
      (accepted.1, true) := Prod.ext rfl (by decide)
  have initial : (system id).Reachable ⟨.empty 0, []⟩ := .start ⟨0, rfl⟩
  have consumeStep : Step id ⟨.empty 0, []⟩ (.consume call 1 1) ⟨accepted.1, [] ++ [call]⟩ :=
    .accepted called
  have advanceStep : Step id ⟨accepted.1, [call]⟩ (.advance 9)
      ⟨accepted.1.advance 9, [call]⟩ := .advance (by decide)
  have reached := (initial.step consumeStep).step advanceStep
  have protectedCall := (consumeAuthNonce_replay_protected id reached).2 call (by simp) (by decide)
  exact ⟨_, reached, rfl, rfl, protectedCall.2.1⟩

/-- The keys never outgrow the limits that all calls of a run are made with. -/
theorem bounded_of_run {maxPrincipals maxNonces : ℕ} {events : List AuthNonceEvent}
    {history : AuthNonceHistory} (run : (system principalHash).Run events history)
    (limited : ∀ call principals nonces, .consume call principals nonces ∈ events →
      principals = maxPrincipals ∧ nonces = maxNonces) :
    history.store.Bounded maxPrincipals maxNonces := by
  induction run with
  | start initial =>
      rcases initial with ⟨now, rfl⟩
      exact ⟨fun _ => Nat.zero_le _, Nat.zero_le _⟩
  | step run taken ih =>
      have bounded := ih fun call principals nonces earlier =>
        limited call principals nonces (List.mem_append_left _ earlier)
      cases taken with
      | advance later =>
          exact ⟨fun principal =>
              (AuthNonceStore.size_elapse_le _ _).trans (bounded.nonces principal),
            (AuthNonceStore.size_elapse_le _ _).trans bounded.principals⟩
      | accepted called | refused called =>
          rcases limited _ _ _ (List.mem_append_right _ (List.mem_singleton_self _)) with ⟨rfl, rfl⟩
          exact bounded.consumeAuthNonce called

/-- Calls with one principal and one nonce at most: two are refused, and one of these is accepted
after the first has expired. -/
def limitedEvents : List AuthNonceEvent :=
  [.consume ⟨"client", "nonce", 10⟩ 1 1, .consume ⟨"client", "second", 20⟩ 1 1,
    .consume ⟨"other", "third", 20⟩ 1 1, .advance 10, .consume ⟨"other", "third", 20⟩ 1 1]

/-- After these calls both keys are as full as the limits allow. -/
theorem bounded_of_run_limited :
    ∃ history, (system id).Run limitedEvents history ∧
      history.consumed = [⟨"client", "nonce", 10⟩, ⟨"other", "third", 20⟩] ∧
      history.store.principals.value.size = 1 ∧
      (history.store.nonces "other").value.size = 1 ∧ history.store.Bounded 1 1 := by
  have initial : (system id).Run [] ⟨.empty 0, []⟩ := .start ⟨0, rfl⟩
  have consumed := initial.step
    (show Step id _ (.consume ⟨"client", "nonce", 10⟩ 1 1) ⟨_, _⟩ from
      .accepted (Prod.ext rfl (by decide +kernel)))
  have full := consumed.step
    (show Step id _ (.consume ⟨"client", "second", 20⟩ 1 1) ⟨_, _⟩ from
      .refused (Prod.ext rfl (by decide +kernel)))
  have refused := full.step
    (show Step id _ (.consume ⟨"other", "third", 20⟩ 1 1) ⟨_, _⟩ from
      .refused (Prod.ext rfl (by decide +kernel)))
  have expired := refused.step
    (show Step id _ (.advance 10) ⟨_, _⟩ from .advance (by decide +kernel))
  have run : (system id).Run limitedEvents _ := expired.step
    (show Step id _ (.consume ⟨"other", "third", 20⟩ 1 1) ⟨_, _⟩ from
      .accepted (Prod.ext rfl (by decide +kernel)))
  have limited : ∀ call principals nonces, .consume call principals nonces ∈ limitedEvents →
      principals = 1 ∧ nonces = 1 := by
    intro call principals nonces member
    simp only [limitedEvents, List.mem_cons, AuthNonceEvent.consume.injEq, reduceCtorEq,
      List.not_mem_nil, or_false, false_or] at member
    tauto
  exact ⟨_, run, rfl, by decide +kernel, by decide +kernel, bounded_of_run run limited⟩

end AuthNonceHistory

end ServerFoundation.MeshClient
