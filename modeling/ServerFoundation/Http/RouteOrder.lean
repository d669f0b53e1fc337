import ServerFoundation.Data.LengthPrefix
import ServerFoundation.Http.RouteMatching

/-!
# Keys and precedence of routes

The key of a pattern determines the method and the segments, and different segments match
different paths. The comparison of segments is a strict order. Two lists of segments that
fit the same parts are equal, or one of them has a literal where they first differ in kind.
-/

namespace ServerFoundation.Http

section Keys

theorem length_append (left right : String) :
    JsText.length (left ++ right) = JsText.length left + JsText.length right := by
  rw [JsText.length, JsText.units_append, List.length_append]
  rfl

theorem eq_of_append_of_length {left right : String} {leftRest rightRest : List Char}
    (sameLength : JsText.length left = JsText.length right)
    (same : left.toList ++ leftRest = right.toList ++ rightRest) : left = right := by
  have longer {short long : String} {more : List Char}
      (sameLength : JsText.length short = JsText.length long)
      (isLonger : long.toList = short.toList ++ more) : short = long := by
    have whole : long = short ++ String.ofList more := by
      apply String.toList_inj.mp
      rw [String.toList_append, String.toList_ofList, isLonger]
    rw [whole, length_append] at sameLength
    have noUnits : JsText.length (String.ofList more) = 0 := by omega
    rw [JsText.length, JsText.units, List.length_eq_zero_iff, List.flatMap_eq_nil_iff,
      String.toList_ofList] at noUnits
    have empty : more = [] := List.eq_nil_iff_forall_not_mem.mpr fun char member =>
      JsText.codeUnits_ne_nil char (noUnits char member)
    rw [whole, empty]
    simp
  rcases List.append_eq_append_iff.mp same with ⟨more, isMore, -⟩ | ⟨more, isMore, -⟩
  · exact longer sameLength isMore
  · exact (longer sameLength.symm isMore).symm

theorem toList_key_literal (value : String) :
    (RouteSegment.literal value).key.toList =
      '=' :: (Nat.toDigits 10 (JsText.length value) ++ ':' :: value.toList) := by
  simp [RouteSegment.key, String.toList_append, Nat.toList_repr]

theorem key_prefixCode : PrefixCode fun segment : RouteSegment => segment.key.toList := by
  intro left right leftRest rightRest same
  cases left with
  | parameter =>
      cases right with
      | parameter => exact ⟨rfl, List.append_cancel_left same⟩
      | literal value =>
          simp only [toList_key_literal] at same
          cases same
  | literal leftValue =>
      cases right with
      | parameter =>
          simp only [toList_key_literal] at same
          cases same
      | literal rightValue =>
          simp only [toList_key_literal, List.cons_append, List.append_assoc, List.cons.injEq,
            true_and] at same
          rcases append_separator_inj same (by rw [count_colon_toDigits, count_colon_toDigits]) with
            ⟨digits, texts⟩
          have sameLength : JsText.length leftValue = JsText.length rightValue := by
            rw [← Nat.ofDigitChars_ten_toDigits (n := JsText.length leftValue), digits,
              Nat.ofDigitChars_ten_toDigits]
          have sameText := eq_of_append_of_length sameLength texts
          subst sameText
          exact ⟨rfl, List.append_cancel_left texts⟩

theorem key_ne_nil (segment : RouteSegment) : segment.key.toList ≠ [] := by
  cases segment with
  | parameter => decide
  | literal value => rw [toList_key_literal]; exact List.cons_ne_nil _ _

theorem separated_key_prefixCode :
    PrefixCode fun segment : RouteSegment => '\x00' :: segment.key.toList := by
  intro left right leftRest rightRest same
  exact key_prefixCode (List.cons.inj same).2

theorem intercalate_key_injective : Function.Injective fun segments : List RouteSegment =>
    ['\x00'].intercalate (segments.map fun segment => segment.key.toList) := by
  intro left right same
  rcases left with _ | ⟨first, left⟩
  · rcases right with _ | ⟨second, right⟩
    · rfl
    · simp only [List.map_nil, List.map_cons, List.intercalate_nil,
        intercalate_cons_flatMap] at same
      exact absurd (List.append_eq_nil_iff.mp same.symm).1 (key_ne_nil second)
  · rcases right with _ | ⟨second, right⟩
    · simp only [List.map_nil, List.map_cons, List.intercalate_nil,
        intercalate_cons_flatMap] at same
      exact absurd (List.append_eq_nil_iff.mp same).1 (key_ne_nil first)
    · simp only [List.map_cons, intercalate_cons_flatMap, List.flatMap_map,
        List.singleton_append] at same
      rcases key_prefixCode same with ⟨sameFirst, sameRest⟩
      have sameTails : left = right :=
        separated_key_prefixCode.flatMap_injective (fun _ => List.cons_ne_nil _ _) sameRest
      rw [sameFirst, sameTails]

theorem count_nul_text (method : RouteMethod) : method.text.toList.count '\x00' = 0 := by
  cases method <;> decide

theorem RouteMethod.text_injective : Function.Injective RouteMethod.text := by
  intro method other same
  revert same
  cases method <;> cases other <;> decide

theorem routePatternKey_injective {method other : RouteMethod}
    {segments otherSegments : List RouteSegment}
    (same : routePatternKey method segments = routePatternKey other otherSegments) :
    method = other ∧ segments = otherSegments := by
  have nul : "\x00".toList = ['\x00'] := rfl
  have texts := congrArg String.toList same
  simp only [routePatternKey, String.toList_append, List.append_assoc, nul, List.singleton_append,
    String.toList_intercalate, List.map_map] at texts
  rcases append_separator_inj texts (by rw [count_nul_text, count_nul_text]) with ⟨methods, keys⟩
  exact ⟨RouteMethod.text_injective (String.toList_inj.mp methods), intercalate_key_injective keys⟩

end Keys

section Precedence

variable {left right : List RouteSegment}

/-- The first list has a literal at the first position where the kinds of the segments differ. -/
inductive GoesFirst : List RouteSegment → List RouteSegment → Prop
  | here (value : String) (left right : List RouteSegment) :
      GoesFirst (.literal value :: left) (.parameter :: right)
  | later {first second : RouteSegment} (sameKind : first.rank = second.rank)
      {left right : List RouteSegment} (rest : GoesFirst left right) :
      GoesFirst (first :: left) (second :: right)

/-- The ranks of the segments, with an end that goes after every segment. -/
def ranks (segments : List RouteSegment) : List ℕ := segments.map RouteSegment.rank ++ [2]

theorem rank_lt_two (segment : RouteSegment) : segment.rank < 2 := by
  cases segment <;> simp [RouteSegment.rank]

theorem compareRouteSpecificity_neg_iff (left right : List RouteSegment) :
    compareRouteSpecificity left right < 0 ↔ ranks left < ranks right := by
  induction left generalizing right with
  | nil =>
      rcases right with _ | ⟨second, right⟩
      · simp [compareRouteSpecificity, ranks]
      · have below := rank_lt_two second
        simp only [compareRouteSpecificity, ranks, List.map_nil, List.nil_append, List.map_cons,
          List.cons_append, List.cons_lt_cons_iff, List.length_nil, List.length_cons]
        omega
  | cons first left ih =>
      have firstBelow := rank_lt_two first
      rcases right with _ | ⟨second, right⟩
      · simp only [compareRouteSpecificity, ranks, List.map_nil, List.nil_append, List.map_cons,
          List.cons_append, List.cons_lt_cons_iff, List.length_nil, List.length_cons]
        omega
      · have inRest := ih right
        simp only [ranks] at inRest
        simp only [compareRouteSpecificity, ranks, List.map_cons, List.cons_append,
          List.cons_lt_cons_iff]
        split
        · omega
        · rename_i same
          rw [not_not] at same
          simp only [same, lt_self_iff_false, true_and, false_or]
          exact inRest

theorem compareRouteSpecificity_asymm (before : compareRouteSpecificity left right < 0) :
    ¬compareRouteSpecificity right left < 0 := by
  rw [compareRouteSpecificity_neg_iff] at before ⊢
  exact lt_asymm before

theorem compareRouteSpecificity_trans {middle : List RouteSegment}
    (first : compareRouteSpecificity left middle < 0)
    (second : compareRouteSpecificity middle right < 0) :
    compareRouteSpecificity left right < 0 := by
  rw [compareRouteSpecificity_neg_iff] at first second ⊢
  exact lt_trans first second

theorem GoesFirst.compare (goesFirst : GoesFirst left right) :
    compareRouteSpecificity left right < 0 := by
  induction goesFirst with
  | here value left right => simp [compareRouteSpecificity, RouteSegment.rank]
  | later sameKind rest ih =>
      rw [compareRouteSpecificity, if_neg (not_not.mpr sameKind)]
      exact ih

theorem GoesFirst.asymm (goesFirst : GoesFirst left right) :
    ¬GoesFirst right left := fun other =>
      compareRouteSpecificity_asymm goesFirst.compare other.compare

theorem goesFirst_trichotomy {parts : List (List Char)} (leftFits : FitsAll left parts)
    (rightFits : FitsAll right parts) :
    left = right ∨ GoesFirst left right ∨ GoesFirst right left := by
  induction leftFits generalizing right with
  | nil =>
      cases rightFits
      exact .inl rfl
  | @cons first part left parts fitsFirst leftFits ih =>
      cases rightFits with
      | @cons second _ right _ fitsSecond rightFits =>
          cases first with
          | literal firstValue =>
              cases second with
              | literal secondValue =>
                  have firstText : part = firstValue.toList := fitsFirst
                  have secondText : part = secondValue.toList := fitsSecond
                  have sameValue : firstValue = secondValue :=
                    String.toList_inj.mp (firstText.symm.trans secondText)
                  rw [sameValue]
                  rcases ih rightFits with rfl | leftFirst | rightFirst
                  · exact .inl rfl
                  · exact .inr (.inl (.later rfl leftFirst))
                  · exact .inr (.inr (.later rfl rightFirst))
              | parameter => exact .inr (.inl (.here firstValue left right))
          | parameter =>
              cases second with
              | literal secondValue => exact .inr (.inr (.here secondValue right left))
              | parameter =>
                  rcases ih rightFits with rfl | leftFirst | rightFirst
                  · exact .inl rfl
                  · exact .inr (.inl (.later rfl leftFirst))
                  · exact .inr (.inr (.later rfl rightFirst))

end Precedence

section MatchSets

/-- A path through the segments, with one text for all parameters. -/
def fill (text : List Char) (segments : List RouteSegment) : List (List Char) :=
  segments.map fun segment =>
    match segment with
    | .literal value => value.toList
    | .parameter => text

theorem fitsAll_fill {text : List Char} (nonempty : text ≠ []) (segments : List RouteSegment) :
    FitsAll segments (fill text segments) := by
  induction segments with
  | nil => exact .nil
  | cons segment segments ih =>
      refine .cons ?_ ih
      cases segment with
      | literal value => exact rfl
      | parameter => exact nonempty

theorem exists_length_bound (segments : List RouteSegment) :
    ∃ bound, ∀ value, .literal value ∈ segments → value.toList.length ≤ bound := by
  induction segments with
  | nil => exact ⟨0, fun _ member => absurd member List.not_mem_nil⟩
  | cons segment segments ih =>
      rcases ih with ⟨bound, bounded⟩
      cases segment with
      | parameter =>
          refine ⟨bound, fun value member => ?_⟩
          rcases List.mem_cons.mp member with same | inRest
          · cases same
          · exact bounded value inRest
      | literal first =>
          refine ⟨max first.toList.length bound, fun value member => ?_⟩
          rcases List.mem_cons.mp member with same | inRest
          · rw [RouteSegment.literal.injEq] at same
            rw [same]
            exact le_max_left _ _
          · exact (bounded value inRest).trans (le_max_right _ _)

theorem exists_fresh (segments : List RouteSegment) :
    ∃ text : List Char, text ≠ [] ∧ '/' ∉ text ∧
      ∀ value, .literal value ∈ segments → value.toList ≠ text := by
  rcases exists_length_bound segments with ⟨bound, bounded⟩
  refine ⟨List.replicate (bound + 1) 'x', List.cons_ne_nil _ _, fun member => ?_, ?_⟩
  · exact absurd (List.eq_of_mem_replicate member) (by decide)
  · intro value member same
    have short := bounded value member
    rw [same, List.length_replicate] at short
    omega

theorem eq_of_fitsAll_fill {left right : List RouteSegment} {leftText rightText : List Char}
    (leftFresh : ∀ value, .literal value ∈ right → value.toList ≠ leftText)
    (rightFresh : ∀ value, .literal value ∈ left → value.toList ≠ rightText)
    (rightFits : FitsAll right (fill leftText left))
    (leftFits : FitsAll left (fill rightText right)) : left = right := by
  induction left generalizing right with
  | nil =>
      cases rightFits
      rfl
  | cons first left ih =>
      cases rightFits with
      | @cons second _ right _ fitsSecond rightRest =>
          cases leftFits with
          | cons fitsFirst leftRest =>
              have sameRest : left = right := ih
                (fun value member => leftFresh value (List.mem_cons_of_mem _ member))
                (fun value member => rightFresh value (List.mem_cons_of_mem _ member))
                rightRest leftRest
              rw [sameRest]
              congr 1
              cases first with
              | literal firstValue =>
                  cases second with
                  | literal secondValue =>
                      have sameText : firstValue.toList = secondValue.toList := fitsSecond
                      rw [String.toList_inj.mp sameText]
                  | parameter =>
                      have isFirst : rightText = firstValue.toList := fitsFirst
                      exact absurd isFirst.symm (rightFresh firstValue List.mem_cons_self)
              | parameter =>
                  cases second with
                  | literal secondValue =>
                      have isSecond : leftText = secondValue.toList := fitsSecond
                      exact absurd isSecond.symm (leftFresh secondValue List.mem_cons_self)
                  | parameter => rfl

theorem requestParts_fill {path : String} (joined : IsJoined path) {text : List Char}
    (nonempty : text ≠ []) (free : '/' ∉ text) :
    requestParts (String.ofList (['/'].intercalate (fill text (compilePath path).segments))) =
      fill text (compilePath path).segments := by
  have fits := fitsAll_fill nonempty (compilePath path).segments
  have plain : ∀ part ∈ fill text (compilePath path).segments, '/' ∉ part := by
    intro part member
    rcases List.mem_map.mp member with ⟨segment, isSegment, rfl⟩
    cases segment with
    | literal value => exact plain_compilePath path _ isSegment value rfl
    | parameter => exact free
  have someParts : fill text (compilePath path).segments ≠ [] := fun empty =>
    segments_ne_nil path (List.map_eq_nil_iff.mp empty)
  have split := List.splitOn_intercalate '/' plain someParts
  unfold requestParts effectivePath
  rw [String.toList_ofList, if_neg, split]
  rintro ⟨long, ends⟩
  rcases endsWithSlash_iff.mp ends with ⟨front, isFront⟩
  rw [isFront, List.splitOn_append_cons_self] at split
  rw [← split] at fits
  have root := eq_root_of_fitsAll joined (List.splitOn_ne_nil _ _) fits
  have spelled : ['/'].intercalate (front.splitOn '/') = front := List.intercalate_splitOn '/'
  have noFront : front = [] := by
    rw [← spelled, root]
    rfl
  rw [isFront, noFront] at long
  exact absurd long (by decide)

theorem segments_eq_of_matches {path other : String} (joined : IsJoined path)
    (otherJoined : IsJoined other)
    (same : ∀ request, FitsAll (compilePath path).segments (requestParts request) ↔
      FitsAll (compilePath other).segments (requestParts request)) :
    (compilePath path).segments = (compilePath other).segments := by
  rcases exists_fresh (compilePath other).segments with ⟨text, nonempty, free, fresh⟩
  rcases exists_fresh (compilePath path).segments with
    ⟨otherText, otherNonempty, otherFree, otherFresh⟩
  apply eq_of_fitsAll_fill fresh otherFresh
  · have parts := requestParts_fill joined nonempty free
    rw [← parts, ← same, parts]
    exact fitsAll_fill nonempty _
  · have parts := requestParts_fill otherJoined otherNonempty otherFree
    rw [← parts, same, parts]
    exact fitsAll_fill otherNonempty _

end MatchSets

end ServerFoundation.Http
