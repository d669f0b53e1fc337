import Mathlib.Data.List.TakeWhile
import ServerFoundation.Mutex.LocalMutex

/-!
# The keys that a call acquires

`withMutexesInternal` ends its recursion at a key that is `undefined`, which is also
what it reads behind the last key. The texts that a call acquires are therefore those
of the ordered keys before the first `undefined`. They are different from each other,
and they cover all keys exactly if `undefined` is not the first key with its text.
-/

namespace ServerFoundation.Mutex

variable (md5 : String → String) {CollationKey : Type} [LinearOrder CollationKey]
  (collationKey : String → CollationKey) (keys : List MutexKey)

/-- The key is not `undefined`. -/
def MutexKey.isDefined : MutexKey → Bool
  | .undefined => false
  | _ => true

/-- The texts that a call acquires before its callback runs, in order. -/
def Request.plan : Request → List String
  | .single key => [flattenMutexKey md5 key]
  | .group keys =>
      ((orderMutexKeys md5 collationKey keys).takeWhile MutexKey.isDefined).map
        (flattenMutexKey md5)

/-- The first key with the text of `undefined` is not `undefined` itself. -/
def UndefinedIsLate (keys : List MutexKey) : Prop :=
  ∀ key, keys.find? (fun key => flattenMutexKey md5 key = "undefined") = some key →
    key.isDefined = true

variable {md5 collationKey}

theorem isDefined_eq_false_iff (key : MutexKey) : key.isDefined = false ↔ key = .undefined := by
  cases key <;> simp [MutexKey.isDefined]

theorem currentKey_eq {index : ℕ} (inside : index ≤ (keys.takeWhile MutexKey.isDefined).length) :
    currentKey keys index = (keys.takeWhile MutexKey.isDefined)[index]? := by
  induction keys generalizing index with
  | nil => rfl
  | cons key keys ih =>
      cases defined : key.isDefined with
      | false =>
          rw [isDefined_eq_false_iff] at defined
          subst defined
          simp only [List.takeWhile_cons, MutexKey.isDefined, Bool.false_eq_true, if_false,
            List.length_nil, Nat.le_zero] at inside
          subst inside
          rfl
      | true =>
          rw [List.takeWhile_cons_of_pos defined] at inside ⊢
          cases index with
          | zero => cases key <;> first | rfl | cases defined
          | succ index =>
              rw [List.length_cons, Nat.succ_le_succ_iff] at inside
              simpa [currentKey] using ih inside

theorem target_eq {call : Call}
    (inside : call.held.length ≤ (call.request.plan md5 collationKey).length) :
    call.target md5 collationKey =
      (call.request.plan md5 collationKey)[call.held.length]? := by
  unfold Call.target Request.plan at *
  cases request : call.request with
  | single key =>
      simp only
      cases call.held.length with
      | zero => rfl
      | succ length => rfl
  | group keys =>
      simp only [request, List.length_map] at inside
      simp only [List.getElem?_map]
      rw [currentKey_eq _ inside]

section Order

variable (keys : List MutexKey)

theorem mem_firstSeen_iff {items : List (MutexKey × String)} {seen : List String}
    {item : MutexKey × String} :
    item ∈ firstSeen seen items ↔
      item.2 ∉ seen ∧ items.find? (fun other => other.2 = item.2) = some item := by
  induction items generalizing seen with
  | nil => simp [firstSeen]
  | cons head items ih =>
      unfold firstSeen
      by_cases known : head.2 ∈ seen
      · rw [if_pos known, ih]
        refine and_congr_right fun fresh => ?_
        have different : head.2 ≠ item.2 := by
          intro same
          rw [same] at known
          exact fresh known
        rw [List.find?_cons_of_neg (by simpa using different)]
      · rw [if_neg known, List.mem_cons, ih, List.mem_cons, not_or]
        by_cases same : head.2 = item.2
        · rw [List.find?_cons_of_pos (by simpa using same), Option.some.injEq]
          constructor
          · rintro (rfl | ⟨⟨different, -⟩, -⟩)
            · exact ⟨known, rfl⟩
            · exact absurd same.symm different
          · rintro ⟨-, rfl⟩
            exact .inl rfl
        · rw [List.find?_cons_of_neg (by simpa using same)]
          constructor
          · rintro (rfl | ⟨⟨-, fresh⟩, found⟩)
            · exact absurd rfl same
            · exact ⟨fresh, found⟩
          · rintro ⟨fresh, found⟩
            exact .inr ⟨⟨Ne.symm same, fresh⟩, found⟩

theorem firstSeen_nodup (items : List (MutexKey × String)) (seen : List String) :
    ((firstSeen seen items).map Prod.snd).Nodup := by
  induction items generalizing seen with
  | nil => exact List.nodup_nil
  | cons head items ih =>
      unfold firstSeen
      split
      · exact ih seen
      · rw [List.map_cons, List.nodup_cons]
        refine ⟨?_, ih _⟩
        intro member
        rcases List.mem_map.mp member with ⟨item, itemMem, same⟩
        have fresh := (mem_firstSeen_iff.mp itemMem).1
        rw [same] at fresh
        exact fresh List.mem_cons_self

theorem find?_sortedKeys (text : String) :
    (sortedKeys md5 collationKey keys).find? (fun item => item.2 = text) =
      (keys.find? fun key => flattenMutexKey md5 key = text).map fun key => (key, text) := by
  have stable := filter_sortOn_of_rank_eq (fun item : MutexKey × String => collationKey item.2)
    (fun item => decide (item.2 = text)) (keys.map fun key => (key, flattenMutexKey md5 key)) (by
      intro first second firstText secondText
      rw [of_decide_eq_true firstText, of_decide_eq_true secondText])
  rw [sortedKeys, ← List.head?_filter, stable, List.head?_filter, List.find?_map]
  cases found : keys.find? ((fun item : MutexKey × String => decide (item.2 = text)) ∘
      fun key => (key, flattenMutexKey md5 key)) with
  | none =>
      have same : keys.find? (fun key => decide (flattenMutexKey md5 key = text)) = none := found
      rw [same]
      rfl
  | some key =>
      have same : keys.find? (fun key => decide (flattenMutexKey md5 key = text)) = some key :=
        found
      have isText : flattenMutexKey md5 key = text := by simpa using List.find?_some same
      rw [same]
      simp [isText]

theorem mem_orderMutexKeys_iff (key : MutexKey) :
    key ∈ orderMutexKeys md5 collationKey keys ↔
      keys.find? (fun other => flattenMutexKey md5 other = flattenMutexKey md5 key) = some key := by
  have texts : ∀ item ∈ sortedKeys md5 collationKey keys, item.2 = flattenMutexKey md5 item.1 := by
    intro item member
    rcases List.mem_map.mp ((sortOn_perm _ _).mem_iff.mp member) with ⟨_, -, rfl⟩
    rfl
  unfold orderMutexKeys
  rw [List.mem_map]
  constructor
  · rintro ⟨item, member, rfl⟩
    have found := (mem_firstSeen_iff.mp member).2
    have isText := texts item (List.mem_of_find?_eq_some found)
    rw [find?_sortedKeys, Option.map_eq_some_iff] at found
    rcases found with ⟨first, firstFound, same⟩
    have sameKey := congrArg Prod.fst same
    simp only at sameKey
    rw [← isText, ← sameKey]
    exact firstFound
  · intro found
    refine ⟨(key, flattenMutexKey md5 key), mem_firstSeen_iff.mpr ⟨List.not_mem_nil, ?_⟩, rfl⟩
    rw [find?_sortedKeys, found]
    rfl

theorem orderMutexKeys_flatten_nodup :
    ((orderMutexKeys md5 collationKey keys).map (flattenMutexKey md5)).Nodup := by
  have nodup := firstSeen_nodup (sortedKeys md5 collationKey keys) []
  have sameTexts : (orderMutexKeys md5 collationKey keys).map (flattenMutexKey md5) =
      (firstSeen [] (sortedKeys md5 collationKey keys)).map Prod.snd := by
    unfold orderMutexKeys
    rw [List.map_map]
    refine List.map_congr_left fun item member => ?_
    have found := List.mem_of_find?_eq_some (mem_firstSeen_iff.mp member).2
    rcases List.mem_map.mp ((sortOn_perm _ _).mem_iff.mp found) with ⟨_, -, rfl⟩
    rfl
  rw [sameTexts]
  exact nodup

theorem flatten_mem_orderMutexKeys {keys : List MutexKey} {key : MutexKey} (member : key ∈ keys) :
    flattenMutexKey md5 key ∈
      (orderMutexKeys md5 collationKey keys).map (flattenMutexKey md5) := by
  have isSome : (keys.find? fun other =>
      flattenMutexKey md5 other = flattenMutexKey md5 key).isSome = true := by
    rw [List.find?_isSome]
    exact ⟨key, member, decide_eq_true rfl⟩
  rcases Option.isSome_iff_exists.mp isSome with ⟨first, found⟩
  have sameText : flattenMutexKey md5 first = flattenMutexKey md5 key := by
    simpa using List.find?_some found
  refine List.mem_map.mpr ⟨first, (mem_orderMutexKeys_iff keys first).mpr ?_, sameText⟩
  rw [sameText]
  exact found

end Order

theorem plan_nodup (request : Request) : (request.plan md5 collationKey).Nodup := by
  cases request with
  | single key => exact List.nodup_singleton _
  | group keys =>
      exact ((List.takeWhile_prefix _).sublist.map _).nodup (orderMutexKeys_flatten_nodup keys)

theorem plan_covers_iff :
    (∀ key ∈ keys, flattenMutexKey md5 key ∈ (Request.group keys).plan md5 collationKey) ↔
      UndefinedIsLate md5 keys := by
  have flattened : flattenMutexKey md5 .undefined = "undefined" := by simp [flattenMutexKey]
  constructor
  · intro covers key found
    cases defined : key.isDefined with
    | true => rfl
    | false =>
        rw [isDefined_eq_false_iff] at defined
        subst defined
        have ordered : MutexKey.undefined ∈ orderMutexKeys md5 collationKey keys := by
          rw [mem_orderMutexKeys_iff, flattened]
          exact found
        have covered := covers .undefined (List.mem_of_find?_eq_some found)
        rcases List.mem_map.mp covered with ⟨other, taken, sameText⟩
        have otherDefined := List.mem_takeWhile_imp taken
        have same : other = .undefined :=
          List.inj_on_of_nodup_map (orderMutexKeys_flatten_nodup keys)
            ((List.takeWhile_prefix _).subset taken) ordered sameText
        rw [same] at otherDefined
        cases otherDefined
  · intro late key member
    have allDefined : ∀ other ∈ orderMutexKeys md5 collationKey keys,
        other.isDefined = true := by
      intro other ordered
      cases defined : other.isDefined with
      | true => rfl
      | false =>
          rw [isDefined_eq_false_iff] at defined
          subst defined
          rw [mem_orderMutexKeys_iff, flattened] at ordered
          have impossible := late .undefined ordered
          cases impossible
    have whole : (orderMutexKeys md5 collationKey keys).takeWhile MutexKey.isDefined =
        orderMutexKeys md5 collationKey keys := List.takeWhile_eq_self_iff.mpr allDefined
    simp only [Request.plan]
    rw [whole]
    exact flatten_mem_orderMutexKeys member

end ServerFoundation.Mutex
