import Mathlib.Algebra.Order.BigOperators.Group.List
import ServerFoundation.Srpc.Handshake

/-!
# The metadata of a query

`srpcQueryMetadata` keeps two objects while it walks over a query and merges them
at the end. Here its result is described as a whole: the value under every key,
and the order in which the named keys of the result were created.
-/

namespace ServerFoundation.Srpc

variable (key : String) (entry : String × String) (query : Query)

theorem legacyKey_eq_some_iff (stripped : String) :
    legacyKey key = some stripped ↔ key = "m--" ++ stripped := by
  have spelled : ("m--" ++ stripped).toList = 'm' :: '-' :: '-' :: stripped.toList := by
    simp
  constructor
  · intro isLegacy
    simp only [legacyKey] at isLegacy
    split at isLegacy
    · rename_i rest shape
      cases isLegacy
      apply String.toList_injective
      rw [shape, spelled, String.toList_ofList]
    · cases isLegacy
  · rintro rfl
    rw [legacyKey, spelled]
    simp

theorem legacyKey_prefixed : legacyKey ("m--" ++ key) = some key :=
  (legacyKey_eq_some_iff _ _).mpr rfl

theorem legacyKey_systemName : ∀ name ∈ systemQueryParameterNames, legacyKey name = none := by
  decide

theorem prefixed_not_systemName : "m--" ++ key ∉ systemQueryParameterNames := by
  intro member
  have plain := legacyKey_systemName _ member
  rw [legacyKey_prefixed] at plain
  cases plain

theorem proto_ne_systemName : "__proto__" ∉ systemQueryParameterNames := by decide

/-- The entry of `legacyMetadata` that a query entry gives. -/
def legacyEntry (entry : String × String) : Option (String × String) :=
  if entry.1 ∈ systemQueryParameterNames then none
  else
    match legacyKey entry.1 with
    | some key => if key = "__proto__" then none else some (key, entry.2)
    | none => none

/-- The entry of `metadata` that a query entry gives. -/
def plainEntry (entry : String × String) : Option (String × String) :=
  if entry.1 ∈ systemQueryParameterNames then none
  else
    match legacyKey entry.1 with
    | some _ => none
    | none => if entry.1 = "__proto__" then none else some entry

theorem legacyEntry_eq_some_iff (key value : String) :
    legacyEntry entry = some (key, value) ↔ entry = ("m--" ++ key, value) ∧ key ≠ "__proto__" := by
  rcases entry with ⟨name, stored⟩
  constructor
  · intro isEntry
    simp only [legacyEntry] at isEntry
    split at isEntry
    · cases isEntry
    · split at isEntry
      · rename_i stripped isLegacy
        split at isEntry
        · cases isEntry
        · rename_i notProto
          cases isEntry
          exact ⟨by rw [(legacyKey_eq_some_iff _ _).mp isLegacy], notProto⟩
      · cases isEntry
  · rintro ⟨same, notProto⟩
    cases same
    simp [legacyEntry, prefixed_not_systemName, legacyKey_prefixed, notProto]

theorem plainEntry_eq_some_iff (key value : String) :
    plainEntry entry = some (key, value) ↔ entry = (key, value) ∧
      key ∉ systemQueryParameterNames ∧ legacyKey key = none ∧ key ≠ "__proto__" := by
  rcases entry with ⟨name, stored⟩
  constructor
  · intro isEntry
    simp only [plainEntry] at isEntry
    split at isEntry
    · cases isEntry
    · rename_i notSystem
      split at isEntry
      · cases isEntry
      · rename_i isPlain
        split at isEntry
        · cases isEntry
        · rename_i notProto
          cases isEntry
          exact ⟨rfl, notSystem, isPlain, notProto⟩
  · rintro ⟨same, notSystem, isPlain, notProto⟩
    cases same
    simp [plainEntry, notSystem, isPlain, notProto]

/-- The definitions that the loop makes in `legacyMetadata`, in order. -/
def legacyEntries (query : Query) : List (String × String) :=
  (JsObject.ownEntries query).filterMap legacyEntry

/-- The definitions that the loop makes in `metadata`, in order. -/
def plainEntries (query : Query) : List (String × String) :=
  (JsObject.ownEntries query).filterMap plainEntry

theorem collectMetadata_eq (collected : Query × Query) (entry : String × String) :
    collectMetadata collected entry =
      (JsObject.define collected.1 (legacyEntry entry).toList,
        JsObject.define collected.2 (plainEntry entry).toList) := by
  simp only [collectMetadata, legacyEntry, plainEntry]
  split
  · rfl
  · cases legacyKey entry.1 with
    | some key =>
        simp only [JsObject.assign]
        split <;> rfl
    | none =>
        simp only [JsObject.assign]
        split <;> rfl

theorem foldl_collectMetadata (entries : List (String × String)) (collected : Query × Query) :
    entries.foldl collectMetadata collected =
      (JsObject.define collected.1 (entries.filterMap legacyEntry),
        JsObject.define collected.2 (entries.filterMap plainEntry)) := by
  induction entries generalizing collected with
  | nil => rfl
  | cons entry rest ih =>
      rw [List.foldl_cons, ih, collectMetadata_eq]
      simp only [List.filterMap_cons]
      cases legacyEntry entry <;> cases plainEntry entry <;> rfl

theorem srpcQueryMetadata_eq :
    srpcQueryMetadata query =
      JsObject.spread (JsObject.spread .empty (JsObject.fromEntries (legacyEntries query)))
        (JsObject.fromEntries (plainEntries query)) := by
  simp only [srpcQueryMetadata, foldl_collectMetadata]
  rfl

theorem ownEntries_pairwise_ne :
    (JsObject.ownEntries query).Pairwise fun left right => left.1 ≠ right.1 :=
  List.pairwise_map.mp (JsObject.ownEntries_keys_nodup query)

theorem legacyEntries_keys_nodup : ((legacyEntries query).map Prod.fst).Nodup := by
  apply List.pairwise_map.mpr
  rw [legacyEntries, List.pairwise_filterMap]
  refine (ownEntries_pairwise_ne query).imp ?_
  rintro left right differ ⟨leftKey, leftValue⟩ isLeft ⟨rightKey, rightValue⟩ isRight same
  rw [((legacyEntry_eq_some_iff _ _ _).mp isLeft).1,
    ((legacyEntry_eq_some_iff _ _ _).mp isRight).1] at differ
  exact differ (congrArg ("m--" ++ ·) same)

theorem plainEntries_keys_nodup : ((plainEntries query).map Prod.fst).Nodup := by
  apply List.pairwise_map.mpr
  rw [plainEntries, List.pairwise_filterMap]
  refine (ownEntries_pairwise_ne query).imp ?_
  rintro left right differ ⟨leftKey, leftValue⟩ isLeft ⟨rightKey, rightValue⟩ isRight same
  rw [((plainEntry_eq_some_iff _ _ _).mp isLeft).1,
    ((plainEntry_eq_some_iff _ _ _).mp isRight).1] at differ
  exact differ same

theorem mem_legacyEntries_iff (key value : String) :
    (key, value) ∈ legacyEntries query ↔
      query.get? ("m--" ++ key) = some value ∧ key ≠ "__proto__" := by
  simp only [legacyEntries, List.mem_filterMap, legacyEntry_eq_some_iff]
  rw [← JsObject.mem_ownEntries_iff]
  constructor
  · rintro ⟨entry, member, rfl, notProto⟩
    exact ⟨member, notProto⟩
  · rintro ⟨member, notProto⟩
    exact ⟨_, member, rfl, notProto⟩

theorem mem_plainEntries_iff (key value : String) :
    (key, value) ∈ plainEntries query ↔ query.get? key = some value ∧
      key ∉ systemQueryParameterNames ∧ legacyKey key = none ∧ key ≠ "__proto__" := by
  simp only [plainEntries, List.mem_filterMap, plainEntry_eq_some_iff]
  rw [← JsObject.mem_ownEntries_iff]
  constructor
  · rintro ⟨entry, member, rfl, plain⟩
    exact ⟨member, plain⟩
  · rintro ⟨member, plain⟩
    exact ⟨_, member, rfl, plain⟩

section Lookup

variable (query : Query)

theorem get?_srpcQueryMetadata (key : String) :
    (srpcQueryMetadata query).get? key =
      ((plainEntries query).lookup key).or ((legacyEntries query).lookup key) := by
  rw [srpcQueryMetadata_eq, JsObject.get?_spread, JsObject.get?_spread,
    JsObject.get?_fromEntries (plainEntries_keys_nodup query),
    JsObject.get?_fromEntries (legacyEntries_keys_nodup query)]
  simp

theorem lookup_legacyEntries {key : String} (notProto : key ≠ "__proto__") :
    (legacyEntries query).lookup key = query.get? ("m--" ++ key) := by
  ext value
  rw [OrderedMap.lookup_eq_some_iff (legacyEntries_keys_nodup query), mem_legacyEntries_iff]
  simp [notProto]

theorem get?_srpcQueryMetadata_of_plain {key : String}
    (notSystem : key ∉ systemQueryParameterNames) (isPlain : legacyKey key = none)
    (notProto : key ≠ "__proto__") :
    (srpcQueryMetadata query).get? key = (query.get? key).or (query.get? ("m--" ++ key)) := by
  have plain : (plainEntries query).lookup key = query.get? key := by
    ext value
    rw [OrderedMap.lookup_eq_some_iff (plainEntries_keys_nodup query), mem_plainEntries_iff]
    simp [notSystem, isPlain, notProto]
  rw [get?_srpcQueryMetadata, plain, lookup_legacyEntries query notProto]

theorem lookup_plainEntries_eq_none {key : String}
    (notPlain : key ∈ systemQueryParameterNames ∨ legacyKey key ≠ none ∨ key = "__proto__") :
    (plainEntries query).lookup key = none := by
  rw [Option.eq_none_iff_forall_ne_some]
  intro value found
  rw [OrderedMap.lookup_eq_some_iff (plainEntries_keys_nodup query), mem_plainEntries_iff] at found
  rcases notPlain with isSystem | isLegacy | isProto
  · exact found.2.1 isSystem
  · exact isLegacy found.2.2.1
  · exact found.2.2.2 isProto

theorem get?_srpcQueryMetadata_of_not_plain {key : String}
    (notPlain : key ∈ systemQueryParameterNames ∨ legacyKey key ≠ none) :
    (srpcQueryMetadata query).get? key = query.get? ("m--" ++ key) := by
  have notProto : key ≠ "__proto__" := by
    rintro rfl
    rcases notPlain with isSystem | isLegacy
    · exact proto_ne_systemName isSystem
    · exact isLegacy (by decide)
  have plain := lookup_plainEntries_eq_none query (notPlain.imp_right Or.inl)
  rw [get?_srpcQueryMetadata, plain, lookup_legacyEntries query notProto, Option.none_or]

theorem get?_srpcQueryMetadata_proto : (srpcQueryMetadata query).get? "__proto__" = none := by
  have legacy : (legacyEntries query).lookup "__proto__" = none := by
    rw [Option.eq_none_iff_forall_ne_some]
    intro value found
    rw [OrderedMap.lookup_eq_some_iff (legacyEntries_keys_nodup query),
      mem_legacyEntries_iff] at found
    exact found.2 rfl
  rw [get?_srpcQueryMetadata, legacy, lookup_plainEntries_eq_none query (by simp), Option.none_or]

end Lookup

section Order

variable (query : Query) (key : String)

theorem namedKeys_srpcQueryMetadata :
    JsObject.namedKeys (srpcQueryMetadata query) =
      JsObject.namedKeys (JsObject.fromEntries (legacyEntries query)) ++
        (JsObject.namedKeys (JsObject.fromEntries (plainEntries query))).filter fun key =>
          key ∉ (legacyEntries query).map Prod.fst := by
  rw [srpcQueryMetadata_eq, JsObject.namedKeys_spread, JsObject.namedKeys_spread_empty]
  congr 1
  apply List.filter_congr
  intro key _
  have sameKeys : key ∈ (JsObject.spread .empty (JsObject.fromEntries
      (legacyEntries query))).keys ↔ key ∈ (legacyEntries query).map Prod.fst := by
    rw [OrderedMap.mem_keys_iff]
    simp only [JsObject.get?_spread, OrderedMap.get?_empty, Option.or_none,
      JsObject.get?_fromEntries (legacyEntries_keys_nodup query)]
    rw [← Option.isSome_iff_exists, Option.isSome_iff_ne_none, ne_eq,
      OrderedMap.lookup_eq_none_iff, not_not]
  simp [sameKeys]

theorem ownEntries_pairwise_sorted
    (sorted : (JsObject.named query).Pairwise fun left right =>
      JsText.units left.1 < JsText.units right.1) :
    (JsObject.ownEntries query).Pairwise fun left right =>
      JsObject.isNamed left → JsText.units left.1 < JsText.units right.1 := by
  rw [JsObject.ownEntries, List.pairwise_append]
  refine ⟨?_, ?_, ?_⟩
  · apply List.pairwise_of_forall_mem_list
    intro left leftMem right _ isNamed
    simp [JsObject.not_isNamed_of_mem_indexed query leftMem] at isNamed
  · refine sorted.imp ?_
    intro left right less _
    exact less
  · intro left leftMem right _ isNamed
    simp [JsObject.not_isNamed_of_mem_indexed query leftMem] at isNamed

theorem arrayIndex_prefixed : JsObject.arrayIndex ("m--" ++ key) = none := by
  have notDigits : JsNumber.parseDigits 10 ("m--" ++ key).toList = none := by
    simp [JsNumber.parseDigits, JsNumber.spanDigits, JsNumber.digitValue]
  simp only [JsObject.arrayIndex, notDigits]

theorem legacyEntries_pairwise_sorted
    (sorted : (JsObject.named query).Pairwise fun left right =>
      JsText.units left.1 < JsText.units right.1) :
    (JsObject.namedKeys (JsObject.fromEntries (legacyEntries query))).Pairwise fun left right =>
      JsText.units left < JsText.units right := by
  rw [JsObject.namedKeys_fromEntries (legacyEntries_keys_nodup query)]
  apply List.Pairwise.filter
  rw [List.pairwise_map, legacyEntries, List.pairwise_filterMap]
  refine (ownEntries_pairwise_sorted query sorted).imp ?_
  rintro left right less ⟨leftKey, leftValue⟩ isLeft ⟨rightKey, rightValue⟩ isRight
  rw [((legacyEntry_eq_some_iff _ _ _).mp isLeft).1,
    ((legacyEntry_eq_some_iff _ _ _).mp isRight).1] at less
  have prefixedLess := less (by simp [JsObject.isNamed, arrayIndex_prefixed])
  exact (JsText.units_append_lt_iff "m--" leftKey rightKey).mp prefixedLess

theorem plainEntries_pairwise_sorted
    (sorted : (JsObject.named query).Pairwise fun left right =>
      JsText.units left.1 < JsText.units right.1) :
    (JsObject.namedKeys (JsObject.fromEntries (plainEntries query))).Pairwise fun left right =>
      JsText.units left < JsText.units right := by
  have ordered : ((plainEntries query).map Prod.fst).Pairwise fun left right =>
      (JsObject.arrayIndex left).isNone → JsText.units left < JsText.units right := by
    rw [List.pairwise_map, plainEntries, List.pairwise_filterMap]
    refine (ownEntries_pairwise_sorted query sorted).imp ?_
    rintro left right less ⟨leftKey, leftValue⟩ isLeft ⟨rightKey, rightValue⟩ isRight
    rw [((plainEntry_eq_some_iff _ _ _).mp isLeft).1,
      ((plainEntry_eq_some_iff _ _ _).mp isRight).1] at less
    exact less
  rw [JsObject.namedKeys_fromEntries (plainEntries_keys_nodup query)]
  refine (ordered.filter _).imp_of_mem ?_
  intro left right leftMem _ less
  exact less (List.mem_filter.mp leftMem).2

theorem mem_legacyNamedKeys_iff :
    key ∈ JsObject.namedKeys (JsObject.fromEntries (legacyEntries query)) ↔
      "m--" ++ key ∈ query.keys ∧ key ≠ "__proto__" ∧ JsObject.arrayIndex key = none := by
  rw [JsObject.namedKeys_fromEntries (legacyEntries_keys_nodup query), List.mem_filter,
    OrderedMap.mem_keys_iff]
  simp [mem_legacyEntries_iff, and_assoc]

/-- A key that the server takes for unprefixed metadata. -/
def IsPlainKey (key : String) : Prop :=
  key ∉ systemQueryParameterNames ∧ legacyKey key = none ∧ key ≠ "__proto__"

theorem mem_plainNamedKeys_iff :
    key ∈ JsObject.namedKeys (JsObject.fromEntries (plainEntries query)) ↔
      key ∈ query.keys ∧ IsPlainKey key ∧ JsObject.arrayIndex key = none := by
  rw [JsObject.namedKeys_fromEntries (plainEntries_keys_nodup query), List.mem_filter,
    OrderedMap.mem_keys_iff]
  simp [mem_plainEntries_iff, IsPlainKey, and_assoc]

theorem named_srpcQueryMetadata_pairwise_iff
    (sorted : (JsObject.named query).Pairwise fun left right =>
      JsText.units left.1 < JsText.units right.1) :
    ((JsObject.named (srpcQueryMetadata query)).Pairwise fun left right =>
        JsText.units left.1 < JsText.units right.1) ↔
      ∀ stripped plain, "m--" ++ stripped ∈ query.keys → stripped ≠ "__proto__" →
        JsObject.arrayIndex stripped = none → plain ∈ query.keys → IsPlainKey plain →
        JsObject.arrayIndex plain = none → "m--" ++ plain ∉ query.keys →
        JsText.units stripped < JsText.units plain := by
  rw [JsObject.named_pairwise_iff, namedKeys_srpcQueryMetadata, List.pairwise_append]
  have newKey : ∀ plain, IsPlainKey plain →
      (plain ∉ (legacyEntries query).map Prod.fst ↔ "m--" ++ plain ∉ query.keys) := by
    intro plain isPlain
    rw [not_iff_not, OrderedMap.mem_keys_iff]
    simp [mem_legacyEntries_iff, isPlain.2.2]
  constructor
  · rintro ⟨_, _, crossing⟩ stripped plain isStripped notProto noIndex isPlain plainKey plainNoIndex
      isNew
    apply crossing stripped ((mem_legacyNamedKeys_iff query stripped).mpr
      ⟨isStripped, notProto, noIndex⟩) plain
    apply List.mem_filter.mpr
    refine ⟨(mem_plainNamedKeys_iff query plain).mpr ⟨isPlain, plainKey, plainNoIndex⟩, ?_⟩
    simpa using (newKey plain plainKey).mpr isNew
  · intro crossing
    refine ⟨legacyEntries_pairwise_sorted query sorted,
      (plainEntries_pairwise_sorted query sorted).filter _, ?_⟩
    intro stripped strippedMem plain plainMem
    rcases (mem_legacyNamedKeys_iff query stripped).mp strippedMem with
      ⟨isStripped, notProto, noIndex⟩
    rcases List.mem_filter.mp plainMem with ⟨plainNamed, isNew⟩
    rcases (mem_plainNamedKeys_iff query plain).mp plainNamed with ⟨isPlain, plainKey, plainNoIndex⟩
    apply crossing stripped plain isStripped notProto noIndex isPlain plainKey plainNoIndex
    exact (newKey plain plainKey).mp (by simpa using isNew)

end Order

section Twice

variable {metadata query : Query}

theorem no_prefixed_of_agree (same : ∀ key, key ∉ systemQueryParameterNames →
      query.get? key = metadata.get? key)
    (agree : ∀ key, metadata.get? key = (srpcQueryMetadata query).get? key) (key : String)
    (isLegacy : legacyKey key ≠ none) : metadata.get? key = none := by
  by_contra found
  have longer : ∀ count : ℕ, ∃ long, legacyKey long ≠ none ∧ metadata.get? long ≠ none ∧
      count ≤ long.length := by
    intro count
    induction count with
    | zero => exact ⟨key, isLegacy, found, Nat.zero_le _⟩
    | succ count ih =>
        rcases ih with ⟨long, longLegacy, longFound, longEnough⟩
        refine ⟨"m--" ++ long, by simp [legacyKey_prefixed], ?_, ?_⟩
        · rw [agree long, get?_srpcQueryMetadata_of_not_plain query (Or.inr longLegacy),
            same _ (prefixed_not_systemName long)] at longFound
          exact longFound
        · have grown : ("m--" ++ long).length = 3 + long.length := by
            rw [String.length_append]
            rfl
          omega
  rcases longer ((metadata.keys.map String.length).sum + 1) with ⟨long, _, longFound, tooLong⟩
  have present : long ∈ metadata.keys := by
    by_contra absent
    exact longFound ((metadata.get?_eq_none_iff long).mpr absent)
  have bounded : long.length ≤ (metadata.keys.map String.length).sum :=
    List.le_sum_of_mem (List.mem_map.mpr ⟨long, present, rfl⟩)
  omega

theorem agree_srpcQueryMetadata_iff (same : ∀ key, key ∉ systemQueryParameterNames →
      query.get? key = metadata.get? key) (noProto : metadata.get? "__proto__" = none) :
    (∀ key, metadata.get? key = (srpcQueryMetadata query).get? key) ↔
      ∀ key, key ∈ systemQueryParameterNames ∨ legacyKey key ≠ none →
        metadata.get? key = none := by
  constructor
  · intro agree key special
    rcases special with isSystem | isLegacy
    · rw [agree, get?_srpcQueryMetadata_of_not_plain query (Or.inl isSystem),
        same _ (prefixed_not_systemName key)]
      exact no_prefixed_of_agree same agree _ (by simp [legacyKey_prefixed])
    · exact no_prefixed_of_agree same agree key isLegacy
  · intro clean key
    have noPrefixed : query.get? ("m--" ++ key) = none := by
      rw [same _ (prefixed_not_systemName key)]
      exact clean _ (Or.inr (by simp [legacyKey_prefixed]))
    by_cases special : key ∈ systemQueryParameterNames ∨ legacyKey key ≠ none
    · rw [get?_srpcQueryMetadata_of_not_plain query special, noPrefixed, clean key special]
    · simp only [not_or, not_not] at special
      by_cases isProto : key = "__proto__"
      · rw [isProto, noProto, get?_srpcQueryMetadata_proto]
      · rw [get?_srpcQueryMetadata_of_plain query special.1 special.2 isProto, noPrefixed,
          same key special.1, Option.or_none]

end Twice

end ServerFoundation.Srpc
