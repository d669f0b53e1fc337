import Mathlib.Data.List.Forall2
import ServerFoundation.Data.SeparatedText
import ServerFoundation.Http.RoutePath

/-!
# Matching of paths

The regular expression of a path accepts the texts whose parts between slashes fit its
segments. A joined path ends with a slash only if it is the root, so the attempt without
the last slash never competes with the attempt on the whole path: a request path counts as
one list of parts.
-/

namespace ServerFoundation.Http

open RegExp

/-- A part fits a segment. -/
def RouteSegment.Fits : RouteSegment → List Char → Prop
  | .literal value, part => part = value.toList
  | .parameter, part => part ≠ []

/-- The parts fit the segments one by one. -/
def FitsAll (segments : List RouteSegment) (parts : List (List Char)) : Prop :=
  List.Forall₂ RouteSegment.Fits segments parts

/-- The atoms of a segment. -/
def RouteSegment.atoms : RouteSegment → List Atom
  | .parameter => [.capture '/']
  | .literal value => value.toList.map .char

section Reading

theorem readAtoms_escaped {char : Char} (escaped : char ∈ escapedCharacters) (rest : List Char) :
    readAtoms ('\\' :: char :: rest) = (readAtoms rest).map (.char char :: ·) := by
  have isSyntax : char ∈ syntaxCharacters := escaped
  rw [readAtoms, if_pos isSyntax]

theorem readAtoms_plain {char : Char} (plain : char ∉ escapedCharacters) (rest : List Char) :
    readAtoms (char :: rest) = (readAtoms rest).map (.char char :: ·) := by
  have notSyntax : char ∉ syntaxCharacters := plain
  rw [readAtoms, if_neg notSyntax]
  · rintro rfl
    exact absurd notSyntax (by decide)
  · rintro _ _ rfl
    exact absurd notSyntax (by decide)
  · rintro _ _ rfl
    exact absurd notSyntax (by decide)

theorem readAtoms_escapeRegex (value rest : List Char) :
    readAtoms (escapeRegex value ++ rest) = (readAtoms rest).map (value.map .char ++ ·) := by
  induction value with
  | nil => simp [escapeRegex]
  | cons char value ih =>
      have unfolded : escapeRegex (char :: value) ++ rest =
          (if char ∈ escapedCharacters then ['\\', char] else [char]) ++
            (escapeRegex value ++ rest) := by
        simp [escapeRegex]
      rw [unfolded]
      by_cases escaped : char ∈ escapedCharacters
      · rw [if_pos escaped, List.cons_append, List.cons_append, List.nil_append,
          readAtoms_escaped escaped, ih, Option.map_map]
        rfl
      · rw [if_neg escaped, List.cons_append, List.nil_append, readAtoms_plain escaped, ih,
          Option.map_map]
        rfl

theorem readAtoms_pattern (segment : RouteSegment) (rest : List Char) :
    readAtoms (segment.pattern ++ rest) = (readAtoms rest).map (segment.atoms ++ ·) := by
  cases segment with
  | parameter => rfl
  | literal value => exact readAtoms_escapeRegex value.toList rest

theorem readAtoms_intercalate (segments : List RouteSegment) (rest : List Char) :
    readAtoms (['/'].intercalate (segments.map RouteSegment.pattern) ++ rest) =
      (readAtoms rest).map ([Atom.char '/'].intercalate
          (segments.map RouteSegment.atoms) ++ ·) := by
  induction segments with
  | nil => simp
  | cons segment segments ih =>
      rcases segments with _ | ⟨next, segments⟩
      · simp [readAtoms_pattern]
      · simp only [List.map_cons, List.intercalate_cons_cons, List.append_assoc] at ih ⊢
        rw [readAtoms_pattern, List.cons_append, List.nil_append,
          readAtoms_plain (by decide), ih, Option.map_map, Option.map_map]
        rfl

theorem read_compilePath (path : String) :
    read (compilePath path).regex =
      some ([Atom.char '/'].intercalate ((compilePath path).segments.map RouteSegment.atoms)) := by
  have text : (compilePath path).regex.toList = '^' ::
      (['/'].intercalate ((compilePath path).segments.map RouteSegment.pattern) ++ ['$']) := by
    simp [compilePath, String.toList_append]
  unfold RegExp.read
  rw [text]
  simp only
  rw [readAtoms_intercalate]
  simp [readAtoms]

end Reading

section Accepting

theorem accepts_append_iff {first second : List Atom} {text : List Char} :
    Accepts (first ++ second) text ↔
      ∃ front back, text = front ++ back ∧ Accepts first front ∧ Accepts second back := by
  induction first generalizing text with
  | nil =>
      constructor
      · intro accepts
        exact ⟨[], text, rfl, .nil, accepts⟩
      · rintro ⟨front, back, rfl, ⟨⟩, accepts⟩
        exact accepts
  | cons atom first ih =>
      constructor
      · intro accepts
        cases accepts with
        | char char rest =>
            rcases ih.mp rest with ⟨front, back, rfl, isFront, isBack⟩
            exact ⟨char :: front, back, rfl, .char char isFront, isBack⟩
        | capture nonempty free rest =>
            rcases ih.mp rest with ⟨front, back, rfl, isFront, isBack⟩
            exact ⟨_ ++ front, back, (List.append_assoc _ _ _).symm,
              .capture nonempty free isFront, isBack⟩
      · rintro ⟨front, back, rfl, isFront, isBack⟩
        cases isFront with
        | char char rest => exact .char char (ih.mpr ⟨_, back, rfl, rest, isBack⟩)
        | capture nonempty free rest =>
            rw [List.append_assoc]
            exact .capture nonempty free (ih.mpr ⟨_, back, rfl, rest, isBack⟩)

theorem accepts_chars_iff {value text : List Char} :
    Accepts (value.map .char) text ↔ text = value := by
  induction value generalizing text with
  | nil =>
      constructor
      · rintro ⟨⟩
        rfl
      · rintro rfl
        exact .nil
  | cons char value ih =>
      constructor
      · intro accepts
        cases accepts with
        | char char rest => rw [ih.mp rest]
      · rintro rfl
        exact .char char (ih.mpr rfl)

theorem accepts_atoms_iff {segment : RouteSegment}
    (plain : ∀ value, segment = .literal value → '/' ∉ value.toList) {text : List Char} :
    Accepts segment.atoms text ↔ segment.Fits text ∧ '/' ∉ text := by
  cases segment with
  | literal value =>
      rw [RouteSegment.atoms, accepts_chars_iff]
      exact ⟨fun same => ⟨same, same ▸ plain value rfl⟩, fun both => both.1⟩
  | parameter =>
      constructor
      · intro accepts
        cases accepts with
        | capture nonempty free rest =>
            cases rest
            rw [List.append_nil]
            exact ⟨nonempty, free⟩
      · rintro ⟨nonempty, free⟩
        have accepts := Accepts.capture nonempty free .nil
        rwa [List.append_nil] at accepts

/-- No literal contains a slash. -/
def Plain (segments : List RouteSegment) : Prop :=
  ∀ segment ∈ segments, ∀ value, segment = .literal value → '/' ∉ value.toList

theorem accepts_intercalate_iff {segments : List RouteSegment} (plain : Plain segments)
    (nonempty : segments ≠ []) {text : List Char} :
    Accepts ([Atom.char '/'].intercalate (segments.map RouteSegment.atoms)) text ↔
      ∃ parts, text = ['/'].intercalate parts ∧ (∀ part ∈ parts, '/' ∉ part) ∧
        FitsAll segments parts := by
  induction segments generalizing text with
  | nil => exact absurd rfl nonempty
  | cons segment segments ih =>
      have plainFirst := plain segment List.mem_cons_self
      rcases segments with _ | ⟨next, segments⟩
      · simp only [List.map_cons, List.map_nil, List.intercalate_singleton]
        rw [accepts_atoms_iff plainFirst]
        constructor
        · rintro ⟨fits, free⟩
          exact ⟨[text], by simp, by simpa using free, .cons fits .nil⟩
        · rintro ⟨parts, rfl, free, fits⟩
          cases fits with
          | cons fits rest =>
              cases rest
              rw [List.intercalate_singleton]
              exact ⟨fits, free _ List.mem_cons_self⟩
      · have inRest := @ih (fun other member => plain other (List.mem_cons_of_mem _ member))
          (List.cons_ne_nil _ _)
        simp only [List.map_cons, List.intercalate_cons_cons] at inRest ⊢
        rw [List.append_assoc, accepts_append_iff]
        constructor
        · rintro ⟨front, back, rfl, isFront, isBack⟩
          rw [List.cons_append, List.nil_append] at isBack
          cases isBack with
          | char _ isBack =>
              rcases inRest.mp isBack with ⟨parts, rfl, free, fits⟩
              rcases (accepts_atoms_iff plainFirst).mp isFront with ⟨fitsFirst, freeFirst⟩
              refine ⟨front :: parts, ?_, List.forall_mem_cons.mpr ⟨freeFirst, free⟩,
                .cons fitsFirst fits⟩
              cases fits
              rw [List.intercalate_cons_cons, List.append_assoc]
              rfl
        · rintro ⟨parts, rfl, free, fits⟩
          cases fits with
          | @cons _ front _ parts fitsFirst fits =>
              rw [List.forall_mem_cons] at free
              refine ⟨front, '/' :: ['/'].intercalate parts, ?_,
                (accepts_atoms_iff plainFirst).mpr ⟨fitsFirst, free.1⟩,
                .char '/' (inRest.mpr ⟨parts, rfl, free.2, fits⟩)⟩
              cases fits
              rw [List.intercalate_cons_cons, List.append_assoc]
              rfl

theorem plain_compilePath (path : String) : Plain (compilePath path).segments := by
  intro segment member value isLiteral
  rcases List.mem_map.mp member with ⟨part, isPart, rfl⟩
  unfold routeSegment at isLiteral
  split at isLiteral
  · cases isLiteral
  · rw [RouteSegment.literal.injEq] at isLiteral
    rw [← isLiteral, String.toList_ofList]
    exact not_mem_of_mem_splitOn isPart

theorem segments_ne_nil (path : String) : (compilePath path).segments ≠ [] := fun empty =>
  List.splitOn_ne_nil '/' path.toList (List.map_eq_nil_iff.mp empty)

theorem execRegex_isSome_iff (path : String) (text : List Char) :
    (execRegex (compilePath path).regex text).isSome ↔
      FitsAll (compilePath path).segments (text.splitOn '/') := by
  rw [execRegex, read_compilePath, Option.bind_some, exec_isSome_iff,
    accepts_intercalate_iff (plain_compilePath path) (segments_ne_nil path)]
  constructor
  · rintro ⟨parts, rfl, free, fits⟩
    have nonempty : parts ≠ [] := by
      rintro rfl
      exact segments_ne_nil path (List.forall₂_nil_right_iff.mp fits)
    rwa [List.splitOn_intercalate '/' free nonempty]
  · intro fits
    exact ⟨_, (List.intercalate_splitOn '/').symm, fun _ => not_mem_of_mem_splitOn, fits⟩

end Accepting

section TrailingSlash

variable {parts : List (List Char)} {path : String}

/-- The path of a request without its last slash, unless it is the root. -/
def effectivePath (path : List Char) : List Char :=
  if 1 < path.length ∧ EndsWithSlash path then path.dropLast else path

/-- The parts of a request path that routes are compared with. -/
def requestParts (path : String) : List (List Char) := (effectivePath path.toList).splitOn '/'

/-- A path as `joinPaths` returns it: the root, or without a slash at its end. -/
def IsJoined (path : String) : Prop := path = "/" ∨ ¬EndsWithSlash path.toList

theorem endsWithSlash_iff {text : List Char} :
    EndsWithSlash text ↔ ∃ front, text = front ++ ['/'] := by
  unfold EndsWithSlash
  rw [List.getLast?_eq_some_iff]

theorem intercalate_append_singleton (nonempty : parts ≠ []) (last : List Char) :
    ['/'].intercalate (parts ++ [last]) = ['/'].intercalate parts ++ '/' :: last := by
  induction parts with
  | nil => exact absurd rfl nonempty
  | cons part parts ih =>
      rcases parts with _ | ⟨next, parts⟩
      · simp
      · simp only [List.cons_append, List.intercalate_cons_cons, List.append_assoc] at ih ⊢
        rw [ih (List.cons_ne_nil _ _)]

theorem endsWithSlash_intercalate (nonempty : parts ≠ []) :
    EndsWithSlash (['/'].intercalate (parts ++ [[]])) := by
  rw [intercalate_append_singleton nonempty]
  exact endsWithSlash_iff.mpr ⟨_, rfl⟩

theorem eq_nil_of_fits_nil {part : List Char} (fits : (routeSegment part).Fits []) :
    part = [] := by
  unfold routeSegment at fits
  split at fits
  · exact absurd rfl fits
  · have same : [] = (String.ofList part).toList := fits
    rw [String.toList_ofList] at same
    exact same.symm

theorem exists_of_fitsAll_append {own front : List (List Char)}
    (fits : FitsAll (own.map routeSegment) (front ++ [[]])) :
    ∃ ownFront, own = ownFront ++ [[]] ∧ FitsAll (ownFront.map routeSegment) front := by
  induction front generalizing own with
  | nil =>
      rcases own with _ | ⟨part, own⟩
      · cases fits
      · cases fits with
        | cons fitsPart rest =>
            rw [List.map_eq_nil_iff.mp (List.forall₂_nil_right_iff.mp rest),
              eq_nil_of_fits_nil fitsPart]
            exact ⟨[], rfl, .nil⟩
  | cons part front ih =>
      rcases own with _ | ⟨ownPart, own⟩
      · cases fits
      · cases fits with
        | cons fitsPart rest =>
            rcases ih rest with ⟨ownFront, rfl, fitsFront⟩
            exact ⟨ownPart :: ownFront, rfl, .cons fitsPart fitsFront⟩

theorem eq_root_of_fitsAll (joined : IsJoined path) (nonempty : parts ≠ [])
    (fits : FitsAll (compilePath path).segments (parts ++ [[]])) : parts = [[]] := by
  rcases exists_of_fitsAll_append fits with ⟨own, isOwn, fitsFront⟩
  have ownNonempty : own ≠ [] := by
    rintro rfl
    exact nonempty (List.forall₂_nil_left_iff.mp fitsFront)
  have whole : EndsWithSlash path.toList := by
    have spelled : ['/'].intercalate (path.toList.splitOn '/') = path.toList :=
      List.intercalate_splitOn '/'
    rw [← spelled, isOwn]
    exact endsWithSlash_intercalate ownNonempty
  rcases joined with rfl | notEnding
  · have split : ("/" : String).toList.splitOn '/' = [[], []] := by decide
    rw [split] at isOwn
    have isEmpty : own = [[]] := (List.append_cancel_right isOwn).symm
    rw [isEmpty] at fitsFront
    cases fitsFront with
    | cons fitsPart rest =>
        rw [List.forall₂_nil_left_iff.mp rest]
        have noPart : _ = (String.ofList []).toList := fitsPart
        rw [noPart, String.toList_ofList]
  · exact absurd whole notEnding

theorem head?_collapseSlashes (text : List Char) : (collapseSlashes text).head? = text.head? := by
  induction text with
  | nil => rfl
  | cons char rest ih =>
      unfold collapseSlashes
      split
      · rename_i slashes
        rw [ih, List.head?_cons, slashes.1, slashes.2]
      · rfl

theorem collapseSlashes_ne (text front : List Char) :
    collapseSlashes text ≠ front ++ ['/', '/'] := by
  induction text generalizing front with
  | nil => simp [collapseSlashes]
  | cons char rest ih =>
      unfold collapseSlashes
      split
      · exact ih front
      · rename_i kept
        rintro same
        rcases front with _ | ⟨first, front⟩
        · rw [List.nil_append, List.cons.injEq] at same
          have next := head?_collapseSlashes rest
          rw [same.2] at next
          exact kept ⟨same.1, next.symm⟩
        · rw [List.cons_append, List.cons.injEq] at same
          exact ih front same.2

theorem isJoined_joinPaths (base child : String) : IsJoined (joinPaths base child) := by
  unfold joinPaths IsJoined
  simp only
  generalize isCollapsed : collapseSlashes ("/" ++ base ++ "/" ++ child).toList = collapsed
  split
  · rename_i trailing
    right
    rw [String.toList_ofList]
    intro again
    rcases endsWithSlash_iff.mp trailing.2 with ⟨front, rfl⟩
    rw [List.dropLast_concat] at again
    rcases endsWithSlash_iff.mp again with ⟨shorter, rfl⟩
    rw [List.append_assoc] at isCollapsed
    exact collapseSlashes_ne _ _ isCollapsed
  · rename_i notTrailing
    by_cases ends : EndsWithSlash collapsed
    · left
      rcases endsWithSlash_iff.mp ends with ⟨front, rfl⟩
      have short : ¬1 < (front ++ ['/']).length := fun long => notTrailing ⟨long, ends⟩
      rw [List.length_append, List.length_singleton] at short
      have noFront : front = [] := List.length_eq_zero_iff.mp (by omega)
      rw [noFront]
      rfl
    · right
      rwa [String.toList_ofList]

theorem one_lt_length_iff (ends : EndsWithSlash path.toList) :
    1 < JsText.length path ↔ 1 < path.toList.length := by
  rcases endsWithSlash_iff.mp ends with ⟨front, isFront⟩
  unfold JsText.length JsText.units
  rw [isFront, List.flatMap_append, List.length_append, List.length_append]
  have slash : (['/'].flatMap JsText.codeUnits).length = 1 := by decide
  rw [slash, List.length_singleton]
  rcases front with _ | ⟨first, front⟩
  · rfl
  · have positive : 0 < (JsText.codeUnits first).length :=
      List.length_pos_iff.mpr (JsText.codeUnits_ne_nil first)
    rw [List.flatMap_cons, List.length_append, List.length_cons]
    omega

theorem matchRoutePath_isSome_iff (joined : IsJoined path) (request : String) :
    (matchRoutePath (compilePath path).regex request).isSome ↔
      FitsAll (compilePath path).segments (requestParts request) := by
  unfold matchRoutePath requestParts effectivePath
  by_cases trailing : 1 < request.toList.length ∧ EndsWithSlash request.toList
  · have inUnits : 1 < JsText.length request ∧ EndsWithSlash request.toList :=
      ⟨(one_lt_length_iff trailing.2).mpr trailing.1, trailing.2⟩
    rw [if_pos trailing]
    have noDirect : execRegex (compilePath path).regex request.toList = none := by
      rw [← Option.not_isSome_iff_eq_none, execRegex_isSome_iff]
      intro fits
      rcases endsWithSlash_iff.mp trailing.2 with ⟨front, isFront⟩
      rw [isFront, List.splitOn_append_cons_self] at fits
      have root := eq_root_of_fitsAll joined (List.splitOn_ne_nil _ _) fits
      have noFront : front = [] := by
        have spelled : ['/'].intercalate (front.splitOn '/') = front := List.intercalate_splitOn '/'
        rw [← spelled, root]
        rfl
      rw [isFront, noFront] at trailing
      exact absurd trailing.1 (by decide)
    rw [noDirect]
    simp only
    rw [if_pos inUnits, execRegex_isSome_iff]
  · rw [if_neg trailing, ← execRegex_isSome_iff]
    have notInUnits : ¬(1 < JsText.length request ∧ EndsWithSlash request.toList) := fun both =>
      trailing ⟨(one_lt_length_iff both.2).mp both.1, both.2⟩
    split
    · rename_i found
      rw [found]
    · rename_i noMatch
      rw [noMatch, if_neg notInUnits]

end TrailingSlash

end ServerFoundation.Http
