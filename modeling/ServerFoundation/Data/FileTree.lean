import Mathlib.Data.List.Infix
import ServerFoundation.Data.SeparatedText

/-!
# Paths and file trees

Absolute POSIX paths without links. A path is resolved lexically: empty parts and dots are dropped,
and two dots drop the part before them. The text of a path lies under the text of another exactly
when its names start with the names of the other.
-/

namespace ServerFoundation

/-- A part of a path that stays when the path is resolved. -/
structure IsName (part : List Char) : Prop where
  ne_nil : part ≠ []
  free : '/' ∉ part
  ne_dot : part ≠ ['.']
  ne_dots : part ≠ ['.', '.']

/-- An absolute path: its names, none of them special. -/
@[ext]
structure AbsolutePath where
  names : List (List Char)
  proper : ∀ name ∈ names, IsName name

/-- One part of a path, after the names that are resolved. -/
def pushPart (names : List (List Char)) (part : List Char) : List (List Char) :=
  if part = [] ∨ part = ['.'] then names
  else if part = ['.', '.'] then names.dropLast
  else names ++ [part]

theorem proper_pushPart {names : List (List Char)} {part : List Char}
    (proper : ∀ name ∈ names, IsName name) (free : '/' ∉ part) :
    ∀ name ∈ pushPart names part, IsName name := by
  intro name member
  unfold pushPart at member
  split_ifs at member with dropped isDots
  · exact proper name member
  · exact proper name (List.mem_of_mem_dropLast member)
  · rcases List.mem_append.mp member with old | new
    · exact proper name old
    · rw [List.mem_singleton.mp new]
      exact ⟨fun empty => dropped (.inl empty), free, fun isDot => dropped (.inr isDot), isDots⟩

theorem proper_parts {names parts : List (List Char)} (proper : ∀ name ∈ names, IsName name)
    (free : ∀ part ∈ parts, '/' ∉ part) :
    ∀ name ∈ parts.foldl pushPart names, IsName name := by
  induction parts generalizing names with
  | nil => exact proper
  | cons part parts ih =>
      rw [List.foldl_cons]
      exact ih (proper_pushPart proper (free part List.mem_cons_self))
        fun other member => free other (List.mem_cons_of_mem _ member)

namespace AbsolutePath

variable {names : List (List Char)}

/-- The names as a text that starts with a slash. -/
def spell (names : List (List Char)) : List Char := names.flatMap ('/' :: ·)

/-- The text of a path. -/
def render (path : AbsolutePath) : List Char :=
  if path.names = [] then ['/'] else spell path.names

/-- The path `/`. -/
def root : AbsolutePath := ⟨[], fun _ member => absurd member (List.not_mem_nil)⟩

/-- The path that a text means below another one. -/
def below (path : AbsolutePath) (text : List Char) : AbsolutePath where
  names := (text.splitOn '/').foldl pushPart path.names
  proper := proper_parts path.proper fun _ => not_mem_of_mem_splitOn

/-- `path.posix.normalize` of an absolute path. -/
def normalizeString (text : List Char) : AbsolutePath := root.below text

/-- `resolve(base, text)` for a base that is resolved. -/
def resolve (base : AbsolutePath) (text : List Char) : AbsolutePath :=
  normalizeString (if text.head? = some '/' then text else base.render ++ '/' :: text)

theorem splitOn_spell (free : ∀ name ∈ names, '/' ∉ name) (text : List Char) :
    (spell names ++ '/' :: text).splitOn '/' = [] :: names ++ text.splitOn '/' := by
  induction names with
  | nil => exact List.splitOn_append_cons_self_of_not_mem List.not_mem_nil text
  | cons name names ih =>
      have others := ih fun other member => free other (List.mem_cons_of_mem _ member)
      have isFree := free name List.mem_cons_self
      cases names with
      | nil =>
          have inner := List.splitOn_append_cons_self_of_not_mem isFree text
          simp only [spell, List.flatMap_cons, List.flatMap_nil, List.append_nil, List.cons_append,
            List.nil_append]
          rw [List.splitOn_cons_eq_if_modifyHead, inner]
          simp
      | cons next names =>
          simp only [spell, List.flatMap_cons, List.cons_append, List.append_assoc] at others ⊢
          rw [List.splitOn_cons_eq_if_modifyHead] at others ⊢
          have inner := List.splitOn_append_cons_self_of_not_mem isFree
            (next ++ (names.flatMap ('/' :: ·) ++ '/' :: text))
          rw [inner]
          simpa using others

theorem foldl_pushPart_names (proper : ∀ name ∈ names, IsName name) (before : List (List Char)) :
    names.foldl pushPart before = before ++ names := by
  induction names generalizing before with
  | nil => simp
  | cons name names ih =>
      have isName := proper name List.mem_cons_self
      have pushed : pushPart before name = before ++ [name] := by
        simp [pushPart, isName.ne_nil, isName.ne_dot, isName.ne_dots]
      have others := ih fun other member => proper other (List.mem_cons_of_mem _ member)
      rw [List.foldl_cons, pushed, others]
      simp

theorem pushPart_nil (names : List (List Char)) : pushPart names [] = names := by
  simp [pushPart]

theorem below_slash (path : AbsolutePath) (text : List Char) :
    path.below ('/' :: text) = path.below text := by
  refine AbsolutePath.ext ?_
  change (('/' :: text).splitOn '/').foldl pushPart path.names = _
  rw [List.splitOn_cons_eq_if_modifyHead]
  simp [below, pushPart_nil]

theorem below_dropWhile (path : AbsolutePath) (text : List Char) :
    path.below (text.dropWhile (· = '/')) = path.below text := by
  induction text with
  | nil => rfl
  | cons char text ih =>
      by_cases isSlash : char = '/'
      · subst isSlash
        rw [List.dropWhile_cons_of_pos (by simp), ih, below_slash]
      · rw [List.dropWhile_cons_of_neg (by simpa using isSlash)]

theorem resolve_relative (base : AbsolutePath) {text : List Char}
    (relative : text.head? ≠ some '/') : base.resolve text = base.below text := by
  have free : ∀ name ∈ base.names, '/' ∉ name := fun name member => (base.proper name member).free
  refine AbsolutePath.ext ?_
  simp only [resolve, if_neg relative, normalizeString, below, root, render]
  split_ifs with isRoot
  · simp [isRoot, List.splitOn_cons_eq_if_modifyHead, pushPart_nil]
  · rw [splitOn_spell free, List.cons_append, List.foldl_cons, List.foldl_append, pushPart_nil,
      foldl_pushPart_names base.proper, List.nil_append]

/-! ### Paths under a path -/

theorem name_append_inj {left right leftRest rightRest : List Char} (leftFree : '/' ∉ left)
    (rightFree : '/' ∉ right) (leftEnds : leftRest.head?.getD '/' = '/')
    (rightEnds : rightRest.head?.getD '/' = '/') (same : left ++ leftRest = right ++ rightRest) :
    left = right ∧ leftRest = rightRest := by
  have cut {name rest : List Char} (free : '/' ∉ name) (ends : rest.head?.getD '/' = '/') :
      (name ++ rest).takeWhile (· ≠ '/') = name := by
    have inName : ∀ char ∈ name, decide (char ≠ '/') = true := by
      intro char member
      exact decide_eq_true fun isSlash => free (isSlash ▸ member)
    rw [List.takeWhile_append_of_pos inName]
    cases rest with
    | nil => simp
    | cons char rest => simp_all
  have isLeft := cut leftFree leftEnds
  rw [same, cut rightFree rightEnds] at isLeft
  subst isLeft
  exact ⟨rfl, List.append_cancel_left same⟩

theorem spell_head (names : List (List Char)) : (spell names).head?.getD '/' = '/' := by
  cases names <;> rfl

theorem prefix_of_spell {others : List (List Char)} {rest : List Char}
    (free : ∀ name ∈ names, '/' ∉ name) (othersFree : ∀ name ∈ others, '/' ∉ name)
    (ends : rest.head?.getD '/' = '/') (same : spell names ++ rest = spell others) :
    names <+: others := by
  induction names generalizing others with
  | nil => exact List.nil_prefix
  | cons name names ih =>
      cases others with
      | nil => simp [spell] at same
      | cons other others =>
          simp only [spell, List.flatMap_cons, List.cons_append, List.append_assoc] at same
          have restHead : (spell names ++ rest).head?.getD '/' = '/' := by
            cases names with
            | nil => exact ends
            | cons next names => rfl
          rcases name_append_inj (free name List.mem_cons_self)
            (othersFree other List.mem_cons_self) restHead (spell_head others)
            (List.cons.inj same).2 with ⟨rfl, sameRest⟩
          rw [List.prefix_cons_inj]
          exact ih (fun next member => free next (List.mem_cons_of_mem _ member))
            (fun next member => othersFree next (List.mem_cons_of_mem _ member)) sameRest

theorem spell_ne_nil (nonempty : names ≠ []) : spell names ≠ [] := by
  cases names with
  | nil => exact absurd rfl nonempty
  | cons name names => simp [spell]

theorem getLast?_spell (proper : ∀ name ∈ names, IsName name) (nonempty : names ≠ []) :
    (spell names).getLast? ≠ some '/' := by
  rcases List.eq_nil_or_concat names with rfl | ⟨before, name, rfl⟩
  · exact absurd rfl nonempty
  · have isName := proper name (by simp)
    intro last
    simp only [spell, List.concat_eq_append, List.flatMap_append, List.flatMap_cons,
      List.flatMap_nil, List.append_nil, List.getLast?_append] at last
    rw [List.getLast?_cons_of_ne_nil isName.ne_nil] at last
    cases inName : name.getLast? with
    | none => exact isName.ne_nil (List.getLast?_eq_none_iff.mp inName)
    | some char =>
        rw [inName, Option.some_or, Option.some.injEq] at last
        exact isName.free (last ▸ List.mem_of_getLast? inName)

end AbsolutePath

/-! ### The file system -/

/-- A file or a directory. -/
inductive FileTree where
  | file (bytes : List UInt8)
  | directory (entries : List (List Char × FileTree))

/-- Why a file operation fails. -/
inductive FileError where
  | notFound
  | notDirectory
  | isDirectory
  | nameTooLong
  | invalidArgument
deriving DecidableEq, Repr

namespace FileTree

/-- The number of bytes of a text. -/
def byteLength (text : List Char) : ℕ := (text.flatMap String.utf8EncodeChar).length

/-- The node that a path leads to. -/
def walk : FileTree → List (List Char) → Except FileError FileTree
  | node, [] => .ok node
  | .file _, _ :: _ => .error .notDirectory
  | .directory entries, name :: rest =>
      if 255 < byteLength name then .error .nameTooLong
      else
        match entries.lookup name with
        | none => .error .notFound
        | some node => walk node rest

/-- What every call checks about the text of a path. -/
def openPath (tree : FileTree) (path : AbsolutePath) : Except FileError FileTree :=
  if Char.ofNat 0 ∈ path.render then .error .invalidArgument
  else if 4095 < byteLength path.render then .error .nameTooLong
  else tree.walk path.names

/-- `fs.stat`. -/
def stat (tree : FileTree) (path : AbsolutePath) : Except FileError FileTree := tree.openPath path

/-- `fs.readFile`. -/
def readFile (tree : FileTree) (path : AbsolutePath) : Except FileError (List UInt8) :=
  match tree.openPath path with
  | .error error => .error error
  | .ok (.directory _) => .error .isDirectory
  | .ok (.file bytes) => .ok bytes

/-- The walk meets a file where it needs a directory, or a name that is too long. -/
def Blocked (tree : FileTree) (names : List (List Char)) : Prop :=
  ∃ before name after, names = before ++ name :: after ∧
    ((∃ bytes, tree.walk before = .ok (.file bytes)) ∨
      ∃ entries, tree.walk before = .ok (.directory entries) ∧ 255 < byteLength name)

/-- The file system refuses a path without looking for what it names. -/
def Refused (tree : FileTree) (path : AbsolutePath) : Prop :=
  Char.ofNat 0 ∈ path.render ∨ 4095 < byteLength path.render ∨ tree.Blocked path.names

theorem blocked_cons_iff (entries : List (List Char × FileTree)) (name : List Char)
    (rest : List (List Char)) :
    (FileTree.directory entries).Blocked (name :: rest) ↔ 255 < byteLength name ∨
      ∃ node, entries.lookup name = some node ∧ byteLength name ≤ 255 ∧ node.Blocked rest := by
  constructor
  · rintro ⟨before, last, after, same, blocked⟩
    cases before with
    | nil =>
        rcases List.cons.inj same with ⟨rfl, rfl⟩
        rcases blocked with ⟨bytes, isFile⟩ | ⟨inner, -, long⟩
        · cases isFile
        · exact .inl long
    | cons head before =>
        rcases List.cons.inj same with ⟨rfl, rfl⟩
        by_cases long : 255 < byteLength name
        · exact .inl long
        · simp only [walk, if_neg long] at blocked
          cases found : entries.lookup name with
          | none => simp [found] at blocked
          | some node =>
              simp only [found] at blocked
              exact .inr ⟨node, rfl, by omega, before, last, after, rfl, blocked⟩
  · rintro (long | ⟨node, found, short, before, last, after, rfl, blocked⟩)
    · exact ⟨[], name, rest, rfl, .inr ⟨entries, rfl, long⟩⟩
    · refine ⟨name :: before, last, after, rfl, ?_⟩
      simpa only [walk, if_neg (Nat.not_lt.mpr short), found] using blocked

theorem walk_blocked_iff (tree : FileTree) (names : List (List Char)) :
    (∃ error, tree.walk names = .error error ∧ error ≠ .notFound) ↔ tree.Blocked names := by
  induction names generalizing tree with
  | nil =>
      constructor
      · rintro ⟨error, failed, -⟩
        simp [walk] at failed
      · rintro ⟨before, name, after, same, -⟩
        simp at same
  | cons name rest ih =>
      cases tree with
      | file bytes =>
          refine ⟨fun _ => ⟨[], name, rest, rfl, .inl ⟨bytes, by simp [walk]⟩⟩, fun _ => ?_⟩
          exact ⟨.notDirectory, rfl, by decide⟩
      | directory entries =>
          rw [blocked_cons_iff]
          by_cases long : 255 < byteLength name
          · simp [walk, long]
          · cases found : entries.lookup name with
            | none => simp [walk, long, found]
            | some node =>
                have step : (FileTree.directory entries).walk (name :: rest) = node.walk rest := by
                  simp only [walk, if_neg long, found]
                rw [step, ih node]
                simp only [long, false_or, Option.some.injEq, exists_eq_left', Nat.not_lt.mp long,
                  true_and]

theorem refused_iff (tree : FileTree) (path : AbsolutePath) :
    tree.Refused path ↔ ∃ error, tree.stat path = .error error ∧ error ≠ .notFound := by
  unfold Refused stat openPath
  split_ifs with hasNul long
  · simp [hasNul]
  · simp [hasNul, long]
  · simp [hasNul, long, walk_blocked_iff]

end FileTree

end ServerFoundation
