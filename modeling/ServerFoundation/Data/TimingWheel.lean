import ServerFoundation.Data.OrderedSet

/-!
# Timing wheels

A map of expiry times together with a ring of buckets. A key is put into the bucket
of the period in which it expires; pruning visits the buckets of the periods that
have passed and clears them. As long as the ring covers every period in which a
remembered key can expire, a bucket never mixes two periods, so nothing is forgotten
early and nothing is left behind.
-/

namespace ServerFoundation

universe u

/-- Expiry times, the keys by bucket, and the first period that has not been pruned. -/
structure TimingWheel (Key : Type u) [DecidableEq Key] where
  expiries : OrderedMap Key ℕ
  buckets : List (OrderedSet Key)
  lastPruned : ℕ

namespace TimingWheel

variable {Key : Type u} [DecidableEq Key]

/-- A wheel of `count` empty buckets. -/
def start (count lastPruned : ℕ) : TimingWheel Key :=
  ⟨.empty, List.replicate count .empty, lastPruned⟩

/-- Delete a key that has expired. -/
def forget (now : ℕ) (expiries : OrderedMap Key ℕ) (key : Key) : OrderedMap Key ℕ :=
  match expiries.get? key with
  | some expiresAt => if expiresAt ≤ now then expiries.erase key else expiries
  | none => expiries

/-- Delete the expired keys of a bucket and clear it. -/
def visit (now : ℕ) (wheel : TimingWheel Key) (slot : ℕ) : TimingWheel Key :=
  match wheel.buckets[slot]? with
  | some bucket =>
      { wheel with
        expiries := bucket.keys.foldl (forget now) wheel.expiries
        buckets := wheel.buckets.set slot .empty }
  | none => wheel

variable (width count : ℕ)

/-- Visit the buckets of the periods that have passed, each bucket at most once. -/
def prune (now : ℕ) (wheel : TimingWheel Key) : TimingWheel Key :=
  if now / width ≤ wheel.lastPruned then wheel
  else
    let steps := min (now / width - wheel.lastPruned) count
    { (List.range steps).foldl
        (fun pruned offset => pruned.visit now ((wheel.lastPruned + offset) % count)) wheel with
      lastPruned := now / width }

/-- A key is put into the bucket of its expiry. -/
def remember (key : Key) (expiresAt : ℕ) (wheel : TimingWheel Key) : TimingWheel Key :=
  { wheel with
    expiries := wheel.expiries.set key expiresAt
    buckets := wheel.buckets.modify (expiresAt / width % count) fun bucket => bucket.add key }

/-- The buckets partition the remembered keys by the period in which they expire. -/
structure Placed (wheel : TimingWheel Key) : Prop where
  slots : wheel.buckets.length = count
  members : ∀ slot bucket, wheel.buckets[slot]? = some bucket → ∀ key,
    bucket.has key = true ↔
      ∃ expiresAt, wheel.expiries.get? key = some expiresAt ∧ expiresAt / width % count = slot

/-- The ring covers the periods in which remembered keys expire. -/
structure Sound (wheel : TimingWheel Key) : Prop extends Placed width count wheel where
  covered : ∀ key expiresAt, wheel.expiries.get? key = some expiresAt →
    wheel.lastPruned ≤ expiresAt / width ∧ expiresAt / width < wheel.lastPruned + count

variable {width count} {wheel : TimingWheel Key} {now expiresAt : ℕ} {key : Key}

theorem get?_forget_iff {expiries : OrderedMap Key ℕ} {other : Key} :
    (forget now expiries other).get? key = some expiresAt ↔
      expiries.get? key = some expiresAt ∧ ¬(key = other ∧ expiresAt ≤ now) := by
  unfold forget
  cases found : expiries.get? other with
  | none =>
      simp only
      refine ⟨fun remembered => ⟨remembered, ?_⟩, And.left⟩
      rintro ⟨rfl, -⟩
      rw [found] at remembered
      cases remembered
  | some stored =>
      simp only
      by_cases same : key = other
      · subst same
        rw [found]
        split
        · rename_i expired
          rw [OrderedMap.get?_erase, if_pos rfl]
          refine iff_of_false ?_ ?_
          · intro impossible
            cases impossible
          · rintro ⟨isStored, alive⟩
            cases isStored
            exact alive ⟨rfl, expired⟩
        · rename_i alive
          rw [found]
          refine ⟨fun isStored => ⟨isStored, ?_⟩, And.left⟩
          cases isStored
          exact fun expired => alive expired.2
      · split
        · rw [OrderedMap.get?_erase, if_neg same]
          simp [same]
        · simp [same]

theorem get?_foldl_forget_iff {keys : List Key} {expiries : OrderedMap Key ℕ} :
    (keys.foldl (forget now) expiries).get? key = some expiresAt ↔
      expiries.get? key = some expiresAt ∧ ¬(key ∈ keys ∧ expiresAt ≤ now) := by
  induction keys generalizing expiries with
  | nil => simp
  | cons other keys ih =>
      rw [List.foldl_cons, ih, get?_forget_iff, List.mem_cons]
      tauto

theorem get?_visit_iff (placed : wheel.Placed width count) {slot : ℕ} (inside : slot < count)
    (expired : ∀ key expiresAt, wheel.expiries.get? key = some expiresAt →
      expiresAt / width % count = slot → expiresAt ≤ now) :
    (wheel.visit now slot).expiries.get? key = some expiresAt ↔
      wheel.expiries.get? key = some expiresAt ∧ expiresAt / width % count ≠ slot := by
  have present : slot < wheel.buckets.length := by rwa [placed.slots]
  have found : wheel.buckets[slot]? = some wheel.buckets[slot] := List.getElem?_eq_getElem present
  unfold visit
  rw [found]
  simp only
  rw [get?_foldl_forget_iff]
  refine and_congr_right fun remembered => ?_
  rw [OrderedSet.mem_keys_iff_has, placed.members slot _ found key, not_iff_not]
  constructor
  · rintro ⟨⟨stored, isStored, inSlot⟩, -⟩
    rw [remembered] at isStored
    cases isStored
    exact inSlot
  · intro inSlot
    exact ⟨⟨expiresAt, remembered, inSlot⟩, expired key expiresAt remembered inSlot⟩

theorem Placed.visit (placed : wheel.Placed width count) {slot : ℕ} (inside : slot < count)
    (expired : ∀ key expiresAt, wheel.expiries.get? key = some expiresAt →
      expiresAt / width % count = slot → expiresAt ≤ now) :
    (wheel.visit now slot).Placed width count := by
  have remains {key : Key} {expiresAt : ℕ} :=
    @get?_visit_iff _ _ _ _ _ now expiresAt key placed slot inside expired
  have present : slot < wheel.buckets.length := by rwa [placed.slots]
  have buckets : (wheel.visit now slot).buckets = wheel.buckets.set slot .empty := by
    unfold TimingWheel.visit
    rw [List.getElem?_eq_getElem present]
  refine ⟨?_, ?_⟩
  · rw [buckets, List.length_set, placed.slots]
  · intro other bucket found key
    rw [buckets] at found
    by_cases same : other = slot
    · subst same
      rw [List.getElem?_set_self present] at found
      cases found
      rw [OrderedSet.has_empty]
      refine iff_of_false nofun ?_
      rintro ⟨expiresAt, remembered, inSlot⟩
      exact (remains.mp remembered).2 inSlot
    · rw [List.getElem?_set_ne (Ne.symm same)] at found
      rw [placed.members other bucket found key]
      refine exists_congr fun expiresAt => ?_
      rw [remains]
      constructor
      · rintro ⟨remembered, inSlot⟩
        exact ⟨⟨remembered, by omega⟩, inSlot⟩
      · rintro ⟨⟨remembered, -⟩, inSlot⟩
        exact ⟨remembered, inSlot⟩

/-- The turns of the loop that visits the periods from `lastPruned` on. -/
def sweep (count now : ℕ) (wheel : TimingWheel Key) (steps : ℕ) : TimingWheel Key :=
  (List.range steps).foldl
    (fun pruned offset => pruned.visit now ((wheel.lastPruned + offset) % count)) wheel

/-- What some turns of the loop have achieved. -/
structure Swept (width count : ℕ) (wheel : TimingWheel Key) (steps : ℕ)
    (swept : TimingWheel Key) : Prop extends Placed width count swept where
  remains : ∀ key expiresAt, swept.expiries.get? key = some expiresAt ↔
    wheel.expiries.get? key = some expiresAt ∧ wheel.lastPruned + steps ≤ expiresAt / width

theorem Sound.swept (sound : wheel.Sound width count) {steps : ℕ}
    (passed : wheel.lastPruned + steps ≤ now / width) (once : steps ≤ count) :
    Swept width count wheel steps (sweep count now wheel steps) := by
  induction steps with
  | zero =>
      refine ⟨sound.toPlaced, ?_⟩
      intro key expiresAt
      constructor
      · intro remembered
        exact ⟨remembered, (sound.covered key expiresAt remembered).1⟩
      · exact And.left
  | succ steps ih =>
      have before := ih (by omega) (by omega)
      have turn : sweep count now wheel (steps + 1) =
          (sweep count now wheel steps).visit now ((wheel.lastPruned + steps) % count) := by
        unfold sweep
        rw [List.range_succ, List.foldl_append]
        rfl
      have inside : (wheel.lastPruned + steps) % count < count := Nat.mod_lt _ (by omega)
      -- Two periods that the ring covers share a bucket only if they are the same.
      have samePeriod {key : Key} {expiresAt : ℕ}
          (remembered : (sweep count now wheel steps).expiries.get? key = some expiresAt) :
          expiresAt / width % count = (wheel.lastPruned + steps) % count ↔
            expiresAt / width = wheel.lastPruned + steps := by
        rcases (before.remains key expiresAt).mp remembered with ⟨stored, notPassed⟩
        have covered := sound.covered key expiresAt stored
        constructor
        · intro sameSlot
          have difference := Nat.sub_mod_eq_zero_of_mod_eq sameSlot
          rw [Nat.mod_eq_of_lt (by omega)] at difference
          omega
        · intro same
          rw [same]
      have expired : ∀ key expiresAt,
          (sweep count now wheel steps).expiries.get? key = some expiresAt →
          expiresAt / width % count = (wheel.lastPruned + steps) % count → expiresAt ≤ now := by
        intro key expiresAt remembered sameSlot
        have period := (samePeriod remembered).mp sameSlot
        have before : expiresAt / width < now / width := by omega
        exact Nat.le_of_lt (Nat.lt_of_div_lt_div before)
      rw [turn]
      refine ⟨before.toPlaced.visit inside expired, ?_⟩
      intro key expiresAt
      rw [get?_visit_iff before.toPlaced inside expired]
      constructor
      · rintro ⟨remembered, otherSlot⟩
        rcases (before.remains key expiresAt).mp remembered with ⟨stored, notPassed⟩
        have otherPeriod := mt (samePeriod remembered).mpr otherSlot
        exact ⟨stored, by omega⟩
      · rintro ⟨stored, later⟩
        have remembered := (before.remains key expiresAt).mpr ⟨stored, by omega⟩
        refine ⟨remembered, mt (samePeriod remembered).mp ?_⟩
        omega

theorem lastPruned_prune : (wheel.prune width count now).lastPruned =
    max wheel.lastPruned (now / width) := by
  unfold prune
  split
  · rename_i early
    exact (Nat.max_eq_left early).symm
  · rename_i late
    have later : wheel.lastPruned ≤ now / width := by omega
    exact (Nat.max_eq_right later).symm

theorem Sound.get?_prune_iff (sound : wheel.Sound width count) :
    (wheel.prune width count now).expiries.get? key = some expiresAt ↔
      wheel.expiries.get? key = some expiresAt ∧ now / width ≤ expiresAt / width := by
  unfold prune
  split
  · rename_i early
    constructor
    · intro remembered
      have covered := sound.covered key expiresAt remembered
      exact ⟨remembered, by omega⟩
    · exact And.left
  · rename_i late
    have swept := @Sound.swept _ _ width count wheel now sound
      (min (now / width - wheel.lastPruned) count) (by omega) (by omega)
    have remains := swept.remains key expiresAt
    refine remains.trans (and_congr_right fun remembered => ?_)
    have covered := sound.covered key expiresAt remembered
    omega

theorem Sound.prune (sound : wheel.Sound width count) :
    (wheel.prune width count now).Sound width count := by
  have remains {key : Key} {expiresAt : ℕ} := @get?_prune_iff _ _ _ _ _ now expiresAt key sound
  refine ⟨?_, ?_⟩
  · unfold TimingWheel.prune
    split
    · exact sound.toPlaced
    · have swept := @Sound.swept _ _ width count wheel now sound
        (min (now / width - wheel.lastPruned) count) (by omega) (by omega)
      exact ⟨swept.slots, swept.members⟩
  · intro key expiresAt remembered
    rcases remains.mp remembered with ⟨stored, notPassed⟩
    have covered := sound.covered key expiresAt stored
    rw [lastPruned_prune]
    omega

theorem Sound.remember (sound : wheel.Sound width count)
    (fresh : wheel.expiries.get? key = none)
    (begins : wheel.lastPruned ≤ expiresAt / width)
    (ends : expiresAt / width < wheel.lastPruned + count) :
    (wheel.remember width count key expiresAt).Sound width count := by
  have stored (other : Key) : (wheel.remember width count key expiresAt).expiries.get? other =
      if other = key then some expiresAt else wheel.expiries.get? other :=
    OrderedMap.get?_set _ _ _ _
  refine ⟨⟨?_, ?_⟩, ?_⟩
  · exact (List.length_modify _ _ _).trans sound.slots
  · intro slot bucket found other
    have present : ∃ before, wheel.buckets[slot]? = some before ∧
        bucket = if expiresAt / width % count = slot then before.add key else before := by
      unfold TimingWheel.remember at found
      rw [List.getElem?_modify] at found
      rcases Option.map_eq_some_iff.mp found with ⟨before, isBefore, rfl⟩
      exact ⟨before, isBefore, rfl⟩
    rcases present with ⟨before, isBefore, rfl⟩
    have members := sound.members slot before isBefore other
    rw [stored]
    by_cases same : other = key
    · subst same
      have absent : before.has other = false := by
        rw [← Bool.not_eq_true, members]
        rintro ⟨time, remembered, -⟩
        rw [fresh] at remembered
        cases remembered
      rw [if_pos rfl]
      split
      · rename_i inSlot
        rw [OrderedSet.has_add]
        simp [inSlot]
      · rename_i otherSlot
        rw [absent]
        simpa using otherSlot
    · rw [if_neg same, ← members]
      split
      · rw [OrderedSet.has_add]
        simp [same]
      · rfl
  · intro other time remembered
    rw [stored] at remembered
    split at remembered
    · cases remembered
      exact ⟨begins, ends⟩
    · exact sound.covered other time remembered

theorem sound_start (count lastPruned : ℕ) :
    (start count lastPruned : TimingWheel Key).Sound width count := by
  refine ⟨⟨List.length_replicate, ?_⟩, nofun⟩
  intro slot bucket found key
  rw [start, List.getElem?_replicate] at found
  split at found
  · cases found
    exact iff_of_false nofun nofun
  · cases found

end TimingWheel

end ServerFoundation
