import ServerFoundation.Data.Precedence
import ServerFoundation.Mutex.GroupKeys

/-!
# The order of the keys of several calls

`orderMutexKeys` sorts by `localeCompare`, and the sort is stable. Two texts that compare
equal without being equal therefore keep the order in which the caller listed them, and
only texts that compare unequal have the same order in every list.
-/

namespace ServerFoundation.Mutex

variable (md5 : String → String) {CollationKey : Type} [LinearOrder CollationKey]
  (collationKey : String → CollationKey)

/-- The flattened keys, as the caller lists them. -/
def listedTexts (keys : List MutexKey) : List String := keys.map (flattenMutexKey md5)

/-- The flattened keys, in the order in which they are acquired. -/
def orderedTexts (keys : List MutexKey) : List String :=
  (orderMutexKeys md5 collationKey keys).map (flattenMutexKey md5)

/-- Two lists agree on which of two texts comes first. -/
def SameOrder (left right : List String) (first second : String) : Prop :=
  Precedes left first second ↔ Precedes right first second

instance (left right : List String) : DecidableRel (SameOrder left right) := fun first second =>
  inferInstanceAs (Decidable (Precedes left first second ↔ Precedes right first second))

/-- The two texts are flattened keys of the list. -/
structure Lists (keys : List MutexKey) (first second : String) : Prop where
  first : first ∈ listedTexts md5 keys
  second : second ∈ listedTexts md5 keys

variable {md5 collationKey} {keys : List MutexKey} {first second : String}

theorem precedes_firstSeen_iff {items : List (MutexKey × String)} {seen : List String}
    (firstFresh : first ∉ seen) (secondFresh : second ∉ seen) :
    Precedes ((firstSeen seen items).map Prod.snd) first second ↔
      Precedes (items.map Prod.snd) first second := by
  induction items generalizing seen with
  | nil => rfl
  | cons item items ih =>
      rw [List.map_cons, firstSeen]
      by_cases isFirst : item.2 = first
      · subst isFirst
        rw [if_neg firstFresh, List.map_cons, precedes_cons_self_iff, precedes_cons_self_iff]
      by_cases isSecond : item.2 = second
      · subst isSecond
        rw [if_neg secondFresh, List.map_cons]
        exact iff_of_false not_precedes_cons_self not_precedes_cons_self
      rw [precedes_cons_of_ne isFirst isSecond]
      split
      · exact ih firstFresh secondFresh
      · rw [List.map_cons, precedes_cons_of_ne isFirst isSecond]
        apply ih
        · simpa [Ne.symm isFirst] using firstFresh
        · simpa [Ne.symm isSecond] using secondFresh

theorem precedes_orderedTexts_iff :
    Precedes (orderedTexts md5 collationKey keys) first second ↔
      Precedes ((sortedKeys md5 collationKey keys).map Prod.snd) first second := by
  have sameTexts : orderedTexts md5 collationKey keys =
      (firstSeen [] (sortedKeys md5 collationKey keys)).map Prod.snd := by
    unfold orderedTexts orderMutexKeys
    rw [List.map_map]
    refine List.map_congr_left fun item member => ?_
    have found := List.mem_of_find?_eq_some (mem_firstSeen_iff.mp member).2
    rcases List.mem_map.mp ((sortOn_perm _ _).mem_iff.mp found) with ⟨_, -, rfl⟩
    rfl
  rw [sameTexts]
  exact precedes_firstSeen_iff List.not_mem_nil List.not_mem_nil

theorem mem_sortedTexts_iff :
    first ∈ (sortedKeys md5 collationKey keys).map Prod.snd ↔ first ∈ listedTexts md5 keys := by
  have perm := (sortOn_perm (fun item : MutexKey × String => collationKey item.2)
    (keys.map fun key => (key, flattenMutexKey md5 key))).map Prod.snd
  rw [sortedKeys, perm.mem_iff, List.map_map]
  rfl

theorem sortedTexts_pairwise :
    ((sortedKeys md5 collationKey keys).map Prod.snd).Pairwise fun left right =>
      collationKey left ≤ collationKey right :=
  List.pairwise_map.mpr (sortOn_pairwise (fun item : MutexKey × String => collationKey item.2) _)

theorem precedes_of_collation_lt (listed : first ∈ listedTexts md5 keys)
    (lower : collationKey first < collationKey second) :
    Precedes (orderedTexts md5 collationKey keys) first second := by
  apply precedes_orderedTexts_iff.mpr
  apply precedes_of_rank_lt sortedTexts_pairwise (mem_sortedTexts_iff.mpr listed) lower

theorem precedes_of_collation_eq (tied : collationKey first = collationKey second) :
    Precedes (orderedTexts md5 collationKey keys) first second ↔
      Precedes (listedTexts md5 keys) first second := by
  have stable := filter_sortOn_of_rank_eq (fun item : MutexKey × String => collationKey item.2)
    (fun item => decide (collationKey item.2 = collationKey second))
    (keys.map fun key => (key, flattenMutexKey md5 key)) (by
      intro left right leftTied rightTied
      rw [of_decide_eq_true leftTied, of_decide_eq_true rightTied])
  have texts := congrArg (List.map Prod.snd) stable
  have filtered (items : List (MutexKey × String)) :
      (items.filter fun item => decide (collationKey item.2 = collationKey second)).map Prod.snd =
        (items.map Prod.snd).filter fun text =>
          decide (collationKey text = collationKey second) := by
    rw [List.filter_map]
    rfl
  rw [filtered, filtered] at texts
  have sameListed : (keys.map fun key => (key, flattenMutexKey md5 key)).map Prod.snd =
      listedTexts md5 keys := by
    rw [List.map_map]
    rfl
  rw [sameListed] at texts
  rw [precedes_orderedTexts_iff,
    ← precedes_filter_iff (fun text => decide (collationKey text = collationKey second))
      (decide_eq_true tied) (decide_eq_true rfl),
    sortedKeys, texts]
  exact precedes_filter_iff _ (decide_eq_true tied) (decide_eq_true rfl)

theorem sameOrder_iff {keys' : List MutexKey} (lists : Lists md5 keys first second)
    (lists' : Lists md5 keys' first second) :
    SameOrder (orderedTexts md5 collationKey keys) (orderedTexts md5 collationKey keys')
        first second ↔
      collationKey first ≠ collationKey second ∨
        SameOrder (listedTexts md5 keys) (listedTexts md5 keys') first second := by
  have behind {keys : List MutexKey} (lists : Lists md5 keys first second)
      (lower : collationKey second < collationKey first) :
      ¬Precedes (orderedTexts md5 collationKey keys) first second := by
    have ahead : Precedes (orderedTexts md5 collationKey keys) second first :=
      precedes_of_collation_lt lists.second lower
    unfold Precedes at *
    omega
  rcases lt_trichotomy (collationKey first) (collationKey second) with lower | tied | lower
  · refine iff_of_true ?_ (.inl lower.ne)
    exact iff_of_true (precedes_of_collation_lt lists.first lower)
      (precedes_of_collation_lt lists'.first lower)
  · unfold SameOrder
    rw [precedes_of_collation_eq tied, precedes_of_collation_eq tied]
    constructor
    · exact .inr
    · rintro (unequal | same)
      · exact absurd tied unequal
      · exact same
  · refine iff_of_true ?_ (.inl lower.ne')
    exact iff_of_false (behind lists lower) (behind lists' lower)

variable (md5 collationKey) in
/-- Two flattened keys have one order in all calls exactly if they compare unequal; two given calls
may agree on others by listing them alike. -/
theorem orderMutexKeys_global_iff (first second : String) (different : first ≠ second) :
    ((∀ keys keys', Lists md5 keys first second → Lists md5 keys' first second →
        SameOrder (orderedTexts md5 collationKey keys) (orderedTexts md5 collationKey keys')
          first second) ↔ collationKey first ≠ collationKey second) ∧
    ∀ keys keys', Lists md5 keys first second → Lists md5 keys' first second →
      (SameOrder (orderedTexts md5 collationKey keys) (orderedTexts md5 collationKey keys')
          first second ↔
        collationKey first ≠ collationKey second ∨
          SameOrder (listedTexts md5 keys) (listedTexts md5 keys') first second) := by
  have eachWay (left right : String) :
      listedTexts md5 [.primitive left, .primitive right] = [left, right] := by
    simp [listedTexts, flattenMutexKey]
  refine ⟨⟨?_, ?_⟩, ?_⟩
  · intro global tied
    have agree := global [.primitive first, .primitive second] [.primitive second, .primitive first]
      ⟨by simp [eachWay], by simp [eachWay]⟩ ⟨by simp [eachWay], by simp [eachWay]⟩
    unfold SameOrder at agree
    rw [precedes_of_collation_eq tied, precedes_of_collation_eq tied, eachWay, eachWay] at agree
    exact not_precedes_cons_self (agree.mp (precedes_cons_self_iff.mpr different))
  · intro unequal keys keys' lists lists'
    exact (sameOrder_iff lists lists').mpr (.inl unequal)
  · intro keys keys' lists lists'
    exact sameOrder_iff lists lists'

/-- A collation that knows one letter with an accent, which has two spellings. -/
def accentCollation (text : String) : List ℕ :=
  JsText.units (if text = "e\u0301" then "\u00e9" else text)

theorem orderMutexKeys_global_iff_accent :
    ¬(∀ keys keys', Lists id keys "e\u0301" "\u00e9" → Lists id keys' "e\u0301" "\u00e9" →
        SameOrder (orderedTexts id accentCollation keys) (orderedTexts id accentCollation keys')
          "e\u0301" "\u00e9") := by
  have exact := (orderMutexKeys_global_iff id accentCollation "e\u0301" "\u00e9" (by decide)).1
  rw [exact]
  decide

/-- Two callers that list the two spellings of one text the other way round acquire them the other
way round. -/
theorem orderMutexKeys_not_global :
    let composed := MutexKey.primitive "\u00e9"
    let decomposed := MutexKey.primitive "e\u0301"
    Lists id [composed, decomposed] "\u00e9" "e\u0301" ∧
      Lists id [decomposed, composed] "\u00e9" "e\u0301" ∧
      ¬SameOrder (orderedTexts id accentCollation [composed, decomposed])
        (orderedTexts id accentCollation [decomposed, composed]) "\u00e9" "e\u0301" := by
  have tied : accentCollation "\u00e9" = accentCollation "e\u0301" := by decide
  refine ⟨⟨?_, ?_⟩, ⟨?_, ?_⟩, ?_⟩
  · simp [listedTexts, flattenMutexKey]
  · simp [listedTexts, flattenMutexKey]
  · simp [listedTexts, flattenMutexKey]
  · simp [listedTexts, flattenMutexKey]
  · unfold SameOrder
    rw [precedes_of_collation_eq tied, precedes_of_collation_eq tied]
    simp only [listedTexts, List.map_cons, List.map_nil, flattenMutexKey]
    decide

end ServerFoundation.Mutex
