import ServerFoundation.Data.FileTree
import ServerFoundation.Data.PercentEncoding

/-!
# Static files

A request path is decoded once and resolved below the directory of the static files. What the file
system reads for it lies in that directory. A path that names no file is left to the fallback,
unless the file system refuses it with another error than that there is no such entry.
-/

namespace ServerFoundation.Http

/-- A setting that may be left out, switched off or given. -/
inductive SpaFallback where
  | absent
  | undefined
  | disabled
  | file (path : String)
deriving DecidableEq, Repr

/-- `StaticFilesOptions`. -/
structure StaticFilesOptions where
  directory : Option String := none
  index : Option String := none
  spaFallback : SpaFallback := .absent
deriving DecidableEq, Repr

/-- `ResolvedStaticFilesOptions`. -/
structure ResolvedStaticFilesOptions where
  directory : String
  index : String
  spaFallback : Option String
  serveIndex : Bool
deriving DecidableEq, Repr

/-- The options of an application that serves static files, or the error that it throws. -/
def resolveStaticFilesOptions (config : StaticFilesOptions) (fallbackControllerEnabled : Bool) :
    Except String ResolvedStaticFilesOptions :=
  if fallbackControllerEnabled ∧ config.spaFallback ≠ .absent then
    .error "staticFiles.spaFallback cannot be used with fallbackController"
  else
    let index := config.index.getD "index.html"
    .ok
      { directory := config.directory.getD "static"
        index
        spaFallback :=
          if fallbackControllerEnabled then none
          else
            match config.spaFallback with
            | .disabled => none
            | .file path => some path
            | .absent | .undefined => some index
        serveIndex := !fallbackControllerEnabled }

/-- The extension of the last name, which is never two dots. -/
def extname (path : AbsolutePath) : List Char :=
  match (path.names.getLast?.getD []).reverse.span (· ≠ '.') with
  | (_, []) | (_, [_]) => []
  | (after, _ :: _ :: _) => '.' :: after.reverse

/-- `getStaticContentType`. -/
def getStaticContentType (path : AbsolutePath) : String :=
  match String.ofList ((extname path).map Char.toLower) with
  | ".html" => "text/html; charset=utf-8"
  | ".js" | ".mjs" => "text/javascript; charset=utf-8"
  | ".css" => "text/css; charset=utf-8"
  | ".json" => "application/json; charset=utf-8"
  | ".svg" => "image/svg+xml"
  | ".png" => "image/png"
  | ".jpg" | ".jpeg" => "image/jpeg"
  | ".gif" => "image/gif"
  | ".webp" => "image/webp"
  | ".ico" => "image/x-icon"
  | ".txt" => "text/plain; charset=utf-8"
  | ".woff" => "font/woff"
  | ".woff2" => "font/woff2"
  | _ => "application/octet-stream"

/-- The calls of the file system. -/
inductive FileCall where
  | stat
  | readFile
deriving DecidableEq, Repr

/-- What becomes of a request: it goes on to the router, is answered, or fails with the error of a
call. -/
inductive StaticOutcome where
  | routed
  | responded (status : ℕ) (headers : List (String × String)) (body : List UInt8)
  | thrown (call : FileCall) (error : FileError)
deriving DecidableEq, Repr

/-- An outcome with the paths that the file system was asked for. -/
structure StaticAnswer where
  outcome : StaticOutcome
  accessed : List AbsolutePath

/-- The answer to a path that cannot be served. -/
def badRequest : StaticOutcome :=
  .responded 400 [("content-type", "text/plain")] (utf8Bytes "Bad request")

/-- The answer with a file. -/
def servedFile (file : AbsolutePath) (body : List UInt8) : StaticOutcome :=
  .responded 200
    [("content-length", toString body.length), ("content-type", getStaticContentType file)] body

/-- `isPathInside`. -/
def isPathInside (base candidate : List Char) : Bool :=
  candidate = base ||
    (if base.getLast? = some '/' then base else base ++ ['/']).isPrefixOf candidate

/-- `isNotFoundError`. -/
def isNotFoundError (error : FileError) : Bool := error = .notFound

/-- The end of `serveStaticFile`, once it has chosen a file. -/
def sendFile (tree : FileTree) (file : AbsolutePath) (before : List AbsolutePath) : StaticAnswer :=
  ⟨match tree.readFile file with
    | .ok body => servedFile file body
    | .error error => if isNotFoundError error then .routed else .thrown .readFile error,
    before ++ [file]⟩

/-- The file is not there: the fallback is sent instead. -/
def sendFallback (options : ResolvedStaticFilesOptions) (tree : FileTree) (base : AbsolutePath)
    (before : List AbsolutePath) : StaticAnswer :=
  match options.spaFallback with
  | none => ⟨.routed, before⟩
  | some fallback =>
      -- The empty text is no fallback.
      if fallback = "" then ⟨.routed, before⟩
      else
        let file := base.resolve fallback.toList
        if isPathInside base.render file.render then sendFile tree file before
        else ⟨badRequest, before⟩

/-- `serveStaticFile`. -/
def serveStaticFile (cwd : AbsolutePath) (options : ResolvedStaticFilesOptions) (tree : FileTree)
    (path : List Char) : StaticAnswer :=
  let base := cwd.resolve options.directory.toList
  match decodeURIComponent path with
  | none => ⟨badRequest, []⟩
  | some decoded =>
      if decoded = "/" ∧ options.serveIndex = false then ⟨.routed, []⟩
      else
        let relative :=
          if decoded = "/" then options.index.toList else decoded.toList.dropWhile (· = '/')
        let file := base.resolve relative
        if isPathInside base.render file.render then
          match tree.stat file with
          | .ok (.file _) => sendFile tree file [file]
          | .ok (.directory _) => sendFallback options tree base [file]
          | .error error =>
              if isNotFoundError error then sendFallback options tree base [file]
              else ⟨.thrown .stat error, [file]⟩
        else ⟨badRequest, []⟩

/-! ### What is meant -/

/-- The path that a decoded request path stands for. -/
def denotedPath (options : ResolvedStaticFilesOptions) (base : AbsolutePath) (decoded : String) :
    AbsolutePath :=
  if decoded = "/" then base.resolve options.index.toList else base.below decoded.toList

/-- The bytes of the regular file at a path. -/
def regularFile (tree : FileTree) (file : AbsolutePath) : Option (List UInt8) :=
  match tree.stat file with
  | .ok (.file bytes) => some bytes
  | _ => none

/-- The file of the application, if the options name one; the empty text names none. -/
def spaFile (options : ResolvedStaticFilesOptions) (base : AbsolutePath) : Option AbsolutePath :=
  (options.spaFallback.filter (· ≠ "")).map fun fallback => base.resolve fallback.toList

/-- What a request falls back to: the file of the application, if it is a regular one in the
directory, and else routing. -/
def fallbackOutcome (options : ResolvedStaticFilesOptions) (tree : FileTree)
    (base : AbsolutePath) : StaticOutcome :=
  match spaFile options base with
  | none => .routed
  | some file =>
      if base.names <+: file.names then
        match regularFile tree file with
        | some bytes => servedFile file bytes
        | none => .routed
      else .routed

/-- The file of the request, a bad request for a path that is no text or leaves the directory, and
the fallback in every other case. -/
def intendedOutcome (cwd : AbsolutePath) (options : ResolvedStaticFilesOptions) (tree : FileTree)
    (path : List Char) : StaticOutcome :=
  let base := cwd.resolve options.directory.toList
  match decodeURIComponent path with
  | none => badRequest
  | some decoded =>
      if decoded = "/" ∧ options.serveIndex = false then .routed
      else
        let file := denotedPath options base decoded
        if base.names <+: file.names then
          match regularFile tree file with
          | some bytes => servedFile file bytes
          | none => fallbackOutcome options tree base
        else badRequest

/-- The path stays in the directory and is looked up as a file. -/
def LooksUp (cwd : AbsolutePath) (options : ResolvedStaticFilesOptions) (path : List Char)
    (file : AbsolutePath) : Prop :=
  ∃ decoded, decodeURIComponent path = some decoded ∧
    ¬(decoded = "/" ∧ options.serveIndex = false) ∧
    (cwd.resolve options.directory.toList).names <+:
      (denotedPath options (cwd.resolve options.directory.toList) decoded).names ∧
    denotedPath options (cwd.resolve options.directory.toList) decoded = file

/-- The file system refuses what the path stands for. -/
def RefusedRequest (cwd : AbsolutePath) (options : ResolvedStaticFilesOptions) (tree : FileTree)
    (path : List Char) : Prop :=
  ∃ file, LooksUp cwd options path file ∧ tree.Refused file

/-- The options name a file of the application that cannot be served. -/
def UnusableFallback (options : ResolvedStaticFilesOptions) (tree : FileTree)
    (base : AbsolutePath) : Prop :=
  ∃ file, spaFile options base = some file ∧ (¬base.names <+: file.names ∨
    (∃ entries, tree.stat file = .ok (.directory entries)) ∨ tree.Refused file)

/-- The path stands for no regular file, and the file of the application cannot be had. -/
def LacksFallback (cwd : AbsolutePath) (options : ResolvedStaticFilesOptions) (tree : FileTree)
    (path : List Char) : Prop :=
  (∃ file, LooksUp cwd options path file ∧ regularFile tree file = none) ∧
    UnusableFallback options tree (cwd.resolve options.directory.toList)

/-! ### The prefix test -/

theorem isPathInside_iff (base candidate : AbsolutePath) :
    isPathInside base.render candidate.render = true ↔ base.names <+: candidate.names := by
  have free (path : AbsolutePath) : ∀ name ∈ path.names, '/' ∉ name :=
    fun name member => (path.proper name member).free
  rw [isPathInside, Bool.or_eq_true, decide_eq_true_iff, List.isPrefixOf_iff_prefix]
  by_cases isRoot : base.names = []
  · refine ⟨fun _ => isRoot ▸ List.nil_prefix, fun _ => .inr ?_⟩
    rw [AbsolutePath.render, if_pos isRoot, if_pos (by rfl), AbsolutePath.render]
    split_ifs with bothRoot
    · exact List.prefix_rfl
    · cases names : candidate.names with
      | nil => exact absurd names bothRoot
      | cons name rest => exact ⟨name ++ AbsolutePath.spell rest, rfl⟩
  · have spelled : base.render = AbsolutePath.spell base.names := if_neg isRoot
    rw [spelled, if_neg (AbsolutePath.getLast?_spell base.proper isRoot)]
    constructor
    · rintro (same | ⟨rest, same⟩)
      · by_cases rootCandidate : candidate.names = []
        · rw [AbsolutePath.render, if_pos rootCandidate] at same
          exact absurd (same ▸ rfl) (AbsolutePath.getLast?_spell base.proper isRoot)
        · rw [AbsolutePath.render, if_neg rootCandidate] at same
          have noRest : AbsolutePath.spell base.names ++ [] = AbsolutePath.spell candidate.names :=
            (List.append_nil _).trans same.symm
          exact AbsolutePath.prefix_of_spell (free base) (free candidate) (by rfl) noRest
      · by_cases rootCandidate : candidate.names = []
        · rw [AbsolutePath.render, if_pos rootCandidate] at same
          have size := congrArg List.length same
          have positive := List.length_pos_of_ne_nil (AbsolutePath.spell_ne_nil isRoot)
          simp only [List.length_append, List.length_cons, List.length_nil] at size
          omega
        · rw [AbsolutePath.render, if_neg rootCandidate, List.append_assoc] at same
          exact AbsolutePath.prefix_of_spell (free base) (free candidate) rfl same
    · rintro ⟨rest, same⟩
      have notRoot : candidate.names ≠ [] := by
        intro empty
        rw [empty, List.append_eq_nil_iff] at same
        exact isRoot same.1
      rw [AbsolutePath.render, if_neg notRoot, ← same]
      cases rest with
      | nil => exact .inl (by rw [List.append_nil])
      | cons name rest =>
          refine .inr ⟨name ++ AbsolutePath.spell rest, ?_⟩
          simp [AbsolutePath.spell]

variable (options : ResolvedStaticFilesOptions)

theorem resolve_relative_path (base : AbsolutePath) (decoded : String) :
    base.resolve (if decoded = "/" then options.index.toList
      else decoded.toList.dropWhile (· = '/')) = denotedPath options base decoded := by
  unfold denotedPath
  split_ifs with isIndex
  · rfl
  · have relative : (decoded.toList.dropWhile (· = '/')).head? ≠ some '/' := by
      intro slash
      have stops := List.head?_dropWhile_not (fun char => decide (char = '/')) decoded.toList
      rw [slash] at stops
      simp at stops
    rw [AbsolutePath.resolve_relative base relative, AbsolutePath.below_dropWhile]

theorem sendFile_of_stat {tree : FileTree} {file : AbsolutePath} {bytes : List UInt8}
    (isFile : tree.stat file = .ok (.file bytes)) (before : List AbsolutePath) :
    (sendFile tree file before).outcome = servedFile file bytes := by
  have found : tree.readFile file = .ok bytes := by
    unfold FileTree.readFile
    rw [show tree.openPath file = .ok (.file bytes) from isFile]
  simp only [sendFile, found]

theorem sendFallback_eq_iff (tree : FileTree) (base : AbsolutePath) (before : List AbsolutePath) :
    (sendFallback options tree base before).outcome = fallbackOutcome options tree base ↔
      ¬UnusableFallback options tree base := by
  unfold sendFallback fallbackOutcome UnusableFallback
  cases given : options.spaFallback with
  | none =>
      have isFile : spaFile options base = none := by simp [spaFile, given]
      simp [isFile]
  | some fallback =>
      by_cases empty : fallback = ""
      · have isFile : spaFile options base = none := by simp [spaFile, given, empty]
        simp [isFile, empty]
      have isFile : spaFile options base = some (base.resolve fallback.toList) := by
        simp [spaFile, given, Option.filter, empty]
      by_cases isInside : base.names <+: (base.resolve fallback.toList).names
      swap
      · simp [isFile, empty, isInside, isPathInside_iff, badRequest]
      simp only [isFile, empty, isInside, isPathInside_iff, FileTree.refused_iff, if_true, if_false]
      unfold sendFile FileTree.readFile regularFile
      rw [show tree.openPath = tree.stat from rfl]
      cases found : tree.stat (base.resolve fallback.toList) with
      | ok node => cases node <;> simp [found, isInside, isNotFoundError]
      | error error =>
          by_cases missing : error = .notFound <;> simp [found, isInside, isNotFoundError, missing]

theorem fallbackOutcome_ne_thrown (tree : FileTree) (base : AbsolutePath) (call : FileCall)
    (error : FileError) : fallbackOutcome options tree base ≠ .thrown call error := by
  unfold fallbackOutcome servedFile
  cases spaFile options base with
  | none => exact nofun
  | some file =>
      simp only
      split_ifs
      · cases regularFile tree file <;> simp
      · simp

theorem accessed_sendFallback (tree : FileTree) {base : AbsolutePath} {before : List AbsolutePath}
    (inside : ∀ file ∈ before, base.names <+: file.names) :
    ∀ file ∈ (sendFallback options tree base before).accessed, base.names <+: file.names := by
  unfold sendFallback
  cases options.spaFallback with
  | none => exact inside
  | some fallback =>
      simp only
      split_ifs with empty isInside
      · exact inside
      · intro file member
        rcases List.mem_append.mp member with old | new
        · exact inside file old
        · rw [List.mem_singleton.mp new]
          exact (isPathInside_iff _ _).mp isInside
      · exact inside

/-! ### Confined, and as intended unless a path is refused -/

theorem accessed_inside (cwd : AbsolutePath) (options : ResolvedStaticFilesOptions)
    (tree : FileTree) (path : List Char) :
    ∀ file ∈ (serveStaticFile cwd options tree path).accessed,
      (cwd.resolve options.directory.toList).names <+: file.names := by
  unfold serveStaticFile
  cases decodeURIComponent path with
  | none => exact fun file member => absurd member List.not_mem_nil
  | some decoded =>
      simp only [resolve_relative_path]
      generalize cwd.resolve options.directory.toList = base
      have here (file : AbsolutePath)
          (isInside : isPathInside base.render file.render = true) :
          ∀ other ∈ [file], base.names <+: other.names := by
        intro other member
        rw [List.mem_singleton.mp member]
        exact (isPathInside_iff _ _).mp isInside
      split_ifs with isRouted isInside
      · exact fun file member => absurd member List.not_mem_nil
      · have fallback := accessed_sendFallback options tree (here _ isInside)
        cases tree.stat (denotedPath options base decoded) with
        | ok node =>
            cases node with
            | file bytes =>
                intro file member
                rcases List.mem_append.mp member with old | new
                · exact here _ isInside file old
                · exact here _ isInside file new
            | directory entries => exact fallback
        | error error =>
            simp only
            split_ifs
            · exact fallback
            · exact here _ isInside
      · exact fun file member => absurd member List.not_mem_nil

theorem outcome_eq_intended_iff (cwd : AbsolutePath) (options : ResolvedStaticFilesOptions)
    (tree : FileTree) (path : List Char) :
    (serveStaticFile cwd options tree path).outcome = intendedOutcome cwd options tree path ↔
      ¬RefusedRequest cwd options tree path ∧ ¬LacksFallback cwd options tree path := by
  unfold serveStaticFile intendedOutcome RefusedRequest LacksFallback LooksUp
  cases decodeURIComponent path with
  | none => simp
  | some decoded =>
      simp only [resolve_relative_path, isPathInside_iff, Option.some.injEq, exists_eq_left']
      generalize cwd.resolve options.directory.toList = base
      by_cases isRouted : decoded = "/" ∧ options.serveIndex = false
      · simp [isRouted]
      by_cases isInside : base.names <+: (denotedPath options base decoded).names
      swap
      · simp [isRouted, isInside]
      have lookedUp (property : AbsolutePath → Prop) :
          (∃ file, (¬(decoded = "/" ∧ options.serveIndex = false) ∧
            base.names <+: (denotedPath options base decoded).names ∧
              denotedPath options base decoded = file) ∧ property file) ↔
            property (denotedPath options base decoded) := by
        simp [isRouted, isInside]
      rw [lookedUp, lookedUp, if_neg isRouted, if_neg isRouted, if_pos isInside, if_pos isInside,
        FileTree.refused_iff]
      unfold regularFile
      cases found : tree.stat (denotedPath options base decoded) with
      | ok node =>
          cases node with
          | file bytes => simp [sendFile_of_stat found]
          | directory entries => simp [sendFallback_eq_iff]
      | error error =>
          by_cases missing : error = .notFound
          · simp [isNotFoundError, missing, sendFallback_eq_iff]
          · have thrown := fallbackOutcome_ne_thrown options tree base .stat error
            simp [isNotFoundError, missing, thrown.symm]

/-- A request never leads out of the directory, and has the intended outcome exactly when the file
system does not refuse its path and the fallback that it may need can be had. -/
theorem serveStaticFile_sound_iff (cwd : AbsolutePath) (options : ResolvedStaticFilesOptions)
    (tree : FileTree) (path : List Char) :
    (∀ file ∈ (serveStaticFile cwd options tree path).accessed,
        (cwd.resolve options.directory.toList).names <+: file.names) ∧
      ((serveStaticFile cwd options tree path).outcome = intendedOutcome cwd options tree path ↔
        ¬RefusedRequest cwd options tree path ∧ ¬LacksFallback cwd options tree path) :=
  ⟨accessed_inside cwd options tree path, outcome_eq_intended_iff cwd options tree path⟩

theorem decodeURIComponent_of_not_mem {text : List Char} (free : '%' ∉ text) :
    decodeURIComponent text = some (String.ofList text) := by
  induction text with
  | nil => rw [decodeURIComponent]
  | cons char text ih =>
      have other : char ≠ '%' := fun same => free (same ▸ List.mem_cons_self)
      rw [decodeURIComponent, if_neg other, ih fun member => free (List.mem_cons_of_mem _ member)]
      rw [Option.map_some, String.singleton_eq_ofList, ← String.ofList_append,
        List.singleton_append]

/-- A single page application with one asset. -/
def sampleTree : FileTree :=
  .directory [("static".toList, .directory
    [("index.html".toList, .file [60]), ("a.txt".toList, .file [97])])]

/-- A path below a regular file fails, where any other unknown path gets the page. -/
theorem serveStaticFile_fails_below_file :
    ∃ options, resolveStaticFilesOptions {} false = .ok options ∧
      (serveStaticFile AbsolutePath.root options sampleTree "/a.txt/b".toList).outcome =
        .thrown .stat .notDirectory ∧
      intendedOutcome AbsolutePath.root options sampleTree "/a.txt/b".toList =
        .responded 200 [("content-length", "1"), ("content-type", "text/html; charset=utf-8")]
          [60] := by
  refine ⟨_, rfl, ?_, ?_⟩
  · unfold serveStaticFile
    rw [decodeURIComponent_of_not_mem (by decide)]
    decide +kernel
  · unfold intendedOutcome
    rw [decodeURIComponent_of_not_mem (by decide)]
    decide +kernel

end ServerFoundation.Http
