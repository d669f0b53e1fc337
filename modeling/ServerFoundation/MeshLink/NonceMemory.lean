import ServerFoundation.Data.TransitionSystem
import ServerFoundation.MeshLink.Authenticator

/-!
# How long nonces are remembered

A proof can be accepted as long as its timestamp lies within the clock skew, so for twice
the skew at most, and that is how long its nonce is remembered. The wheel has a bucket for
each second in which a remembered nonce can expire, so that a bucket is cleared only when
all its nonces have expired, and every nonce that expired in an earlier second is gone.
-/

namespace ServerFoundation.MeshLink

/-- An authenticator, the time of its last call, and the calls that it accepted. -/
structure Verifier where
  authenticator : MeshLinkAuthenticator
  clock : ℕ
  accepted : List Verification

/-- What must not be accepted twice. -/
def MeshLinkAuthIdentity.proof (identity : MeshLinkAuthIdentity) :
    String × String × JsNumber.Double :=
  (identity.processId, identity.nonce, identity.timestamp)

namespace Verifier

variable (hmac : String → List UInt8 → String)

/-- A call of `verify`. -/
def call (verifier : Verifier) (call : Verification) : Verifier :=
  match verifier.authenticator.verify hmac call with
  | (.error _, authenticator) => ⟨authenticator, call.now, verifier.accepted⟩
  | (.ok (), authenticator) => ⟨authenticator, call.now, call :: verifier.accepted⟩

/-- Calls of `verify` on a clock that never goes back. -/
def system : TransitionSystem Verifier Verification where
  Init verifier :=
    ∃ secret startedAt,
      MeshLinkAuthenticator.create secret (.finite DefaultClockSkewMs) startedAt =
          .ok verifier.authenticator ∧
        verifier.clock = startedAt ∧ verifier.accepted = []
  Step before call after := before.clock ≤ call.now ∧ after = before.call hmac call

end Verifier

section Accepted

variable {hmac : String → List UInt8 → String} {authenticator : MeshLinkAuthenticator}
    {call : Verification}

/-- What the checks establish about an accepted call. -/
structure Admits (authenticator : MeshLinkAuthenticator) (call : Verification) : Prop where
  timely : authenticator.clockSkewMs.lt
    ((JsNumber.finite call.now).sub call.identity.timestamp).abs = false
  finite : call.identity.timestamp.val.isFinite = true
  fresh : authenticator.nonces.expiries.get? (MeshLinkAuthenticator.nonceKey call.identity) = none

theorem admits_of_check (passed : authenticator.check hmac call = .ok ()) :
    Admits authenticator call := by
  unfold MeshLinkAuthenticator.check at passed
  simp only at passed
  split at passed
  · cases passed
  · rename_i complete
    split at passed
    · cases passed
    · split at passed
      · cases passed
      · rename_i timely
        split at passed
        · cases passed
        · rename_i fresh
          simp only [not_or, not_not] at complete
          exact ⟨by simpa using timely, complete.2.2.1, by simpa using fresh⟩

end Accepted

/-- A call at a time that the timestamp of its proof allows. -/
def Timely (call : Verification) : Prop :=
  ∃ value : ℚ, call.identity.timestamp.val = .finite value ∧
    |(call.now : ℚ) - value| ≤ DefaultClockSkewMs + 1 / 4

theorem Admits.isTimely {authenticator : MeshLinkAuthenticator} {call : Verification}
    (admits : Admits authenticator call)
    (skew : authenticator.clockSkewMs = .finite DefaultClockSkewMs) :
    Timely call := by
  have timely := admits.timely
  have finite := admits.finite
  rw [skew] at timely
  unfold Timely
  cases timestamp : call.identity.timestamp.val with
  | finite value =>
      refine ⟨value, rfl, ?_⟩
      rw [timestamp] at timely
      rw [sub_eq_add_neg]
      exact JsNumber.abs_le_of_abs_round (by decide) timely
  | infinite negative =>
      rw [timestamp] at finite
      cases finite
  | nan =>
      rw [timestamp] at finite
      cases finite

theorem Timely.within_ttl {earlier later : Verification} (earlierTimely : Timely earlier)
    (laterTimely : Timely later)
    (same : later.identity.timestamp = earlier.identity.timestamp) :
    later.now ≤ earlier.now + NonceTtlMs := by
  rcases earlierTimely with ⟨value, isValue, early⟩
  rcases laterTimely with ⟨other, isOther, late⟩
  rw [same, isValue] at isOther
  cases isOther
  rcases abs_le.mp early with ⟨lower, -⟩
  rcases abs_le.mp late with ⟨-, upper⟩
  have skew : ((DefaultClockSkewMs : ℕ) : ℚ) = 30000 := by norm_num [DefaultClockSkewMs]
  rw [skew] at lower upper
  have apart : (later.now : ℚ) < earlier.now + 60001 := by linarith
  have apart : later.now < earlier.now + 60001 := by exact_mod_cast apart
  have ttl : NonceTtlMs = 60000 := rfl
  omega

/-- The nonce of an accepted call is remembered until the second in which it expires has passed. -/
structure Remembers (verifier : Verifier) (call : Verification) : Prop where
  past : call.now ≤ verifier.clock
  timely : Timely call
  remembered : verifier.clock / NonceBucketMs ≤ (call.now + NonceTtlMs) / NonceBucketMs →
    verifier.authenticator.nonces.expiries.get? (MeshLinkAuthenticator.nonceKey call.identity) =
      some (call.now + NonceTtlMs)

/-- What holds between two calls. -/
structure Verifier.Sound (verifier : Verifier) : Prop where
  skew : verifier.authenticator.clockSkewMs = .finite DefaultClockSkewMs
  wheel : verifier.authenticator.nonces.Sound NonceBucketMs NonceBucketCount
  pruned : verifier.authenticator.nonces.lastPruned = verifier.clock / NonceBucketMs
  remembers : ∀ call ∈ verifier.accepted, Remembers verifier call
  unique : (verifier.accepted.map fun call => call.identity.proof).Nodup

namespace Verifier.Sound

variable {hmac : String → List UInt8 → String} {verifier : Verifier} {call : Verification}

theorem prune (sound : verifier.Sound) {now : ℕ} (later : verifier.clock ≤ now) :
    Verifier.Sound ⟨verifier.authenticator.pruneNonces now, now, verifier.accepted⟩ := by
  have seconds := Nat.div_le_div_right (c := NonceBucketMs) later
  refine ⟨sound.skew, sound.wheel.prune, ?_, ?_, sound.unique⟩
  · refine TimingWheel.lastPruned_prune.trans ?_
    rw [sound.pruned]
    exact Nat.max_eq_right seconds
  · intro call member
    have before := sound.remembers call member
    refine ⟨before.past.trans later, before.timely, ?_⟩
    intro notExpired
    exact sound.wheel.get?_prune_iff.mpr
      ⟨before.remembered (seconds.trans notExpired), notExpired⟩

theorem remember (sound : verifier.Sound) (admits : Admits verifier.authenticator call)
    (present : call.now = verifier.clock) :
    Verifier.Sound ⟨verifier.authenticator.rememberNonce call, verifier.clock,
      call :: verifier.accepted⟩ := by
  have timely := admits.isTimely sound.skew
  have ttl : NonceTtlMs = 60000 := rfl
  have width : NonceBucketMs = 1000 := rfl
  have count : NonceBucketCount = 61 := rfl
  have stored (key : String) :
      (verifier.authenticator.rememberNonce call).nonces.expiries.get? key =
        if key = MeshLinkAuthenticator.nonceKey call.identity then some (call.now + NonceTtlMs)
        else verifier.authenticator.nonces.expiries.get? key := OrderedMap.get?_set _ _ _ _
  refine ⟨sound.skew, ?_, sound.pruned, ?_, ?_⟩
  · apply sound.wheel.remember admits.fresh
    · rw [sound.pruned, present, width, ttl]
      omega
    · rw [sound.pruned, present, width, ttl, count]
      omega
  · intro other member
    rcases List.mem_cons.mp member with rfl | earlier
    · refine ⟨present.le, timely, fun _ => ?_⟩
      rw [stored, if_pos rfl]
    · have before := sound.remembers other earlier
      refine ⟨before.past, before.timely, fun notExpired => ?_⟩
      have kept := before.remembered notExpired
      rw [stored, if_neg, kept]
      intro sameKey
      rw [sameKey, admits.fresh] at kept
      cases kept
  · rw [List.map_cons, List.nodup_cons]
    refine ⟨?_, sound.unique⟩
    intro again
    rcases List.mem_map.mp again with ⟨earlier, member, same⟩
    simp only [MeshLinkAuthIdentity.proof, Prod.mk.injEq] at same
    rcases same with ⟨sameProcess, sameNonce, sameTimestamp⟩
    have before := sound.remembers earlier member
    have soon := before.timely.within_ttl timely sameTimestamp.symm
    have kept := before.remembered (Nat.div_le_div_right (by omega))
    have sameKey : MeshLinkAuthenticator.nonceKey earlier.identity =
        MeshLinkAuthenticator.nonceKey call.identity := by
      rw [MeshLinkAuthenticator.nonceKey, sameProcess, sameNonce]
      rfl
    rw [sameKey, admits.fresh] at kept
    cases kept

theorem step (sound : verifier.Sound) (later : verifier.clock ≤ call.now) :
    (verifier.call hmac call).Sound := by
  have pruned := sound.prune later
  unfold Verifier.call MeshLinkAuthenticator.verify
  simp only
  cases checked : (verifier.authenticator.pruneNonces call.now).check hmac call with
  | error message => exact pruned
  | ok => exact pruned.remember (admits_of_check checked) rfl

end Verifier.Sound

theorem Verifier.sound_of_reachable {hmac : String → List UInt8 → String} {verifier : Verifier}
    (reachable : (Verifier.system hmac).Reachable verifier) : verifier.Sound := by
  refine reachable.invariant Verifier.Sound ?_ ?_
  · rintro ⟨authenticator, clock, accepted⟩ ⟨secret, startedAt, created, isStart, isEmpty⟩
    simp only at isStart isEmpty
    subst isStart isEmpty
    unfold MeshLinkAuthenticator.create at created
    split at created
    · cases created
    · cases created
      exact ⟨rfl, TimingWheel.sound_start _ _, rfl, fun _ member => absurd member List.not_mem_nil,
        List.nodup_nil⟩
  · rintro before call after - sound ⟨later, rfl⟩
    exact sound.step later

/-- No proof is accepted twice, the buckets partition the remembered nonces by the second in which
they expire, and pruning leaves none that expired in an earlier second. -/
theorem nonceMemory_exact (hmac : String → List UInt8 → String) {verifier : Verifier}
    (reachable : (Verifier.system hmac).Reachable verifier) :
    (verifier.accepted.map fun call => call.identity.proof).Nodup ∧
      (verifier.authenticator.nonces.buckets.length = NonceBucketCount ∧
        ∀ slot bucket, verifier.authenticator.nonces.buckets[slot]? = some bucket → ∀ key,
          bucket.has key = true ↔
            ∃ expiresAt, verifier.authenticator.nonces.expiries.get? key = some expiresAt ∧
              expiresAt / NonceBucketMs % NonceBucketCount = slot) ∧
      ∀ now key expiresAt,
        (verifier.authenticator.pruneNonces now).nonces.expiries.get? key = some expiresAt →
          now / NonceBucketMs ≤ expiresAt / NonceBucketMs := by
  have sound := Verifier.sound_of_reachable reachable
  refine ⟨sound.unique, ⟨sound.wheel.slots, sound.wheel.members⟩, ?_⟩
  intro now key expiresAt remembered
  exact (sound.wheel.get?_prune_iff.mp remembered).2

/-- A proof of one process, presented some time after its timestamp. -/
def presentedProof (now : ℕ) : Verification where
  now := now
  identity :=
    { processId := "process", endpointId := some "endpoint", requesterEndpointId := none
      requestNonce := none, audienceEndpointId := none, timestamp := ⟨.finite 0, by decide⟩
      nonce := "nonce", signature := "" }
  path := "/mesh"
  purpose := .request
  responseTo := none

/-- An authenticator with a secret of sixteen bytes. -/
def sixteenBytes : MeshLinkAuthenticator :=
  ⟨"0123456789abcdef", .finite DefaultClockSkewMs, .start NonceBucketCount 0⟩

/-- A proof that is presented twice within the clock skew, and a third time when it is too old. -/
theorem nonceMemory_exact_replayed :
    let verifier := [presentedProof 0, presentedProof 30000, presentedProof 90000].foldl
      (Verifier.call fun _ _ => "") ⟨sixteenBytes, 0, []⟩
    verifier.accepted.length = 1 ∧
      (verifier.accepted.map fun call => call.identity.proof).Nodup ∧
      (verifier.authenticator.nonces.buckets.length = NonceBucketCount ∧
        ∀ slot bucket, verifier.authenticator.nonces.buckets[slot]? = some bucket → ∀ key,
          bucket.has key = true ↔
            ∃ expiresAt, verifier.authenticator.nonces.expiries.get? key = some expiresAt ∧
              expiresAt / NonceBucketMs % NonceBucketCount = slot) ∧
      ∀ now key expiresAt,
        (verifier.authenticator.pruneNonces now).nonces.expiries.get? key = some expiresAt →
          now / NonceBucketMs ≤ expiresAt / NonceBucketMs := by
  have created : MeshLinkAuthenticator.create "0123456789abcdef" (.finite DefaultClockSkewMs) 0 =
      .ok sixteenBytes := by
    unfold MeshLinkAuthenticator.create
    rw [if_neg (by decide)]
    rfl
  have initial : (Verifier.system fun _ _ => "").Reachable ⟨sixteenBytes, 0, []⟩ :=
    .start ⟨_, _, created, rfl, rfl⟩
  have follows : TransitionSystem.Follows (Verifier.call fun _ _ => "")
      (fun before call => before.clock ≤ call.now) ⟨sixteenBytes, 0, []⟩
      [presentedProof 0, presentedProof 30000, presentedProof 90000] := by decide +kernel
  have reachable := initial.follow (Verifier.call fun _ _ => "")
    (fun before call => before.clock ≤ call.now) (fun _ _ later => ⟨later, rfl⟩) follows
  exact ⟨by decide +kernel, nonceMemory_exact _ reachable⟩

end ServerFoundation.MeshLink
