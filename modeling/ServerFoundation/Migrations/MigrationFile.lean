import Mathlib.Data.List.Forall2
import ServerFoundation.Data.JsText
import ServerFoundation.Sql.StatementScan

/-!
# Migration files

`buildMigrationFileContent` writes the statements of a plan as calls with template literals,
and a statement of several lines with its lines indented. Whoever runs the file reads the
literals back, with every line break as a line feed.
-/

namespace ServerFoundation.Migrations

section Writer

/-- `COMMENT_PREFIX`. -/
def commentPrefix : List Char := [Char.ofNat 0, 't', 'a', 'b', 'l', 'e', ':']

/-- A statement, or the name of the table that the statements behind it are about. -/
inductive Entry where
  | statement (text : List Char)
  | comment (name : List Char)

/-- What `startsWith(COMMENT_PREFIX)` tells apart. -/
def Entry.ofText (text : List Char) : Entry :=
  if commentPrefix <+: text then .comment (text.drop commentPrefix.length) else .statement text

/-- The backtick. -/
def backtick : Char := Char.ofNat 96

/-- `.replace(/char/g, text)`. -/
def replaceAll (char : Char) (replacement text : List Char) : List Char :=
  text.flatMap fun found => if found = char then replacement else [found]

/-- A statement as a template literal writes it. -/
def escapeTemplate (statement : List Char) : List Char :=
  replaceAll '$' ['\\', '$'] (replaceAll backtick ['\\', backtick]
    (replaceAll '\\' ['\\', '\\'] statement))

/-- `.split('\n')`. -/
def splitLines : List Char → List (List Char)
  | [] => [[]]
  | char :: rest =>
      if char = '\n' then [] :: splitLines rest
      else
        match splitLines rest with
        | [] => [[char]]
        | line :: lines => (char :: line) :: lines

/-- As many spaces as are asked for. -/
def spaces (count : ℕ) : List Char := List.replicate count ' '

/-- What stands before a statement. -/
def callStart : List Char := "await db.rawExecute(".toList ++ [backtick]

/-- What stands behind a statement. -/
def callEnd : List Char := backtick :: ");".toList

/-- `formatStatement`. -/
def formatStatement (statement : List Char) : List Char :=
  let escaped := escapeTemplate statement
  if '\n' ∉ escaped then spaces 4 ++ callStart ++ escaped ++ callEnd
  else
    spaces 4 ++ callStart ++ '\n' ::
      ['\n'].intercalate ((splitLines escaped).map fun line => spaces 8 ++ line) ++
      '\n' :: spaces 4 ++ callEnd

/-- What stands before the name of a table. -/
def commentStart : List Char := "// Table: ".toList

/-- The lines of an entry. -/
def Entry.lines : Entry → List (List Char)
  | .statement text => [formatStatement text]
  | .comment name => [[], spaces 4 ++ commentStart ++ name]

/-- What stands before the first statement. -/
def fileStart : List Char :=
  ("import \x7b createMigration \x7d from '@zyno-io/ts-server-foundation';\n\n" ++
    "export default createMigration(async db => \x7b").toList

/-- What stands behind the last statement. -/
def fileEnd : List Char := "\x7d);\n".toList

/-- `buildMigrationFileContent`. -/
def buildMigrationFileContent (statements : List (List Char)) : List Char :=
  fileStart ++ ['\n'].intercalate (statements.flatMap fun text => (Entry.ofText text).lines) ++
    '\n' :: fileEnd

end Writer

section Reader

/-- The value of a template literal whose opening backtick has been read, and what follows it.
Substitutions and escapes other than those of the writer are not read. -/
@[grind =]
def readTemplate : List Char → Option (List Char × List Char)
  | [] => none
  | '\\' :: char :: rest =>
      if char = '\\' ∨ char = backtick ∨ char = '$' then
        (readTemplate rest).map fun read => (char :: read.1, read.2)
      else none
  | '\r' :: '\n' :: rest => (readTemplate rest).map fun read => ('\n' :: read.1, read.2)
  | '\r' :: rest => (readTemplate rest).map fun read => ('\n' :: read.1, read.2)
  | '$' :: '{' :: _ => none
  | char :: rest =>
      if char = backtick then some ([], rest)
      else if char = '\\' then none
      else (readTemplate rest).map fun read => (char :: read.1, read.2)

/-- What follows a text at the start of another. -/
def behind (start text : List Char) : Option (List Char) :=
  if start <+: text then some (text.drop start.length) else none

/-- The arguments of the calls in the body of a migration, one after the other. -/
@[grind =]
def readBody : ℕ → List Char → Option (List (List Char))
  | 0, _ => none
  | budget + 1, text =>
      let text := text.dropWhile JsNumber.isWhiteSpace
      match behind ['/', '/'] text, behind callStart text, behind ['}', ')', ';'] text with
      | some rest, _, _ => readBody budget
        (rest.dropWhile fun char => !JsText.isLineTerminator char)
      | none, some rest, _ =>
          (readTemplate rest).bind fun read =>
            (behind [')', ';'] read.2).bind fun rest =>
              (readBody budget rest).map fun calls => read.1 :: calls
      | none, none, some rest => if rest.all JsNumber.isWhiteSpace then some [] else none
      | none, none, none => none

/-- The statements that a migration file executes. -/
def evaluate (file : List Char) : Option (List (List Char)) :=
  (behind fileStart file).bind fun body => readBody (body.length + 1) body

end Reader

section Sql

/-- How a database reads a statement. MySQL has the first two of these rules and Postgres the
last. -/
structure Lexis where
  /-- A backslash escapes inside of quotes. -/
  escapes : Bool
  /-- `#` starts a comment. -/
  hashes : Bool
  /-- A marker like `$tag$` opens quotes. -/
  dollars : Bool

/-- The rules of `splitSqlStatements`. -/
def Lexis.scanner : Lexis := ⟨true, true, true⟩

/-- What may become a mark of several characters outside of quotes. -/
inductive Beginning where
  | nothing
  | dash
  | slash
  | dollar (tag : List Char)
deriving DecidableEq

/-- Where the reader of a statement is. A quotation knows whether the next character is escaped, or
what it has read of the marker that closes it. -/
inductive Mode where
  | code (beginning : Beginning)
  | lineComment
  | blockComment (star : Bool)
  | quote (mark : Char) (escaped : Bool)
  | dollarQuote (tag : List Char) (closing : Option (List Char))
deriving DecidableEq

/-- The characters that open a quotation. -/
def isQuote (char : Char) : Bool := char = '\'' || char = '"' || char = backtick

/-- The white space of SQL. -/
def isSqlSpace (char : Char) : Bool := char.toNat ∈ [0x9, 0xA, 0xB, 0xC, 0xD, 0x20]

/-- The start of a statement. -/
def Mode.start : Mode := .code .nothing

/-- Inside of quotes, the marks that close them included. -/
def Mode.quoted : Mode → Bool
  | .quote _ _ => true
  | .dollarQuote _ _ => true
  | _ => false

/-- White space ends what had begun, and a line break ends a comment. -/
def Mode.blank (char : Char) : Mode → Mode
  | .code _ => .code .nothing
  | .lineComment => if char = '\n' ∨ char = '\r' then .code .nothing else .lineComment
  | .blockComment _ => .blockComment false
  | .quote mark _ => .quote mark false
  | .dollarQuote tag _ => .dollarQuote tag none

variable (lexis : Lexis)

/-- Behind a character outside of quotes and comments. -/
def Mode.begin (char : Char) : Mode :=
  if isQuote char then .quote char false
  else if char = '#' ∧ lexis.hashes then .lineComment
  else
    .code (if char = '-' then .dash else if char = '/' then .slash
      else if char = '$' ∧ lexis.dollars then .dollar [] else .nothing)

/-- Behind a character that is no white space. -/
def Mode.step (char : Char) : Mode → Mode
  | .code .nothing => .begin lexis char
  | .code .dash => if char = '-' then .lineComment else .begin lexis char
  | .code .slash => if char = '*' then .blockComment false else .begin lexis char
  | .code (.dollar tag) =>
      if char = '$' then .dollarQuote tag none
      else if if tag = [] then Sql.isTagStart char else Sql.isTagPart char then
        .code (.dollar (tag ++ [char]))
      else .begin lexis char
  | .lineComment => .lineComment
  | .blockComment star => if star ∧ char = '/' then .start else .blockComment (char = '*')
  | .quote mark true => .quote mark false
  | .quote mark false =>
      if lexis.escapes ∧ mark ≠ backtick ∧ char = '\\' then .quote mark true
      else if char = mark then .start
      else .quote mark false
  | .dollarQuote tag closing =>
      if char = '$' then
        if closing = some tag then .start else .dollarQuote tag (some [])
      else
        .dollarQuote tag ((closing.map fun read => read ++ [char]).filter fun read =>
          read.isPrefixOf tag)

/-- The mode behind a character. -/
def Mode.next (mode : Mode) (char : Char) : Mode :=
  if isSqlSpace char then mode.blank char else mode.step lexis char

/-- Where the reader is behind a text. -/
def Mode.behind (mode : Mode) (text : List Char) : Mode := text.foldl (Mode.next lexis) mode

/-- What white space outside of quotes amounts to: of the line breaks, the one that ends a
comment counts. -/
inductive Gap where
  | none
  | space
  | line
deriving DecidableEq

/-- The text of a gap. -/
def Gap.text : Gap → List (Bool × Char)
  | .none => []
  | .space => [(false, ' ')]
  | .line => [(false, '\n')]

/-- The gap with one more blank character. -/
def Gap.widen (gap : Gap) (mode : Mode) (char : Char) : Gap :=
  if mode = .lineComment ∧ (char = '\n' ∨ char = '\r') then .line
  else if gap = .line then .line
  else .space

/-- The characters of a statement, each with whether it is quoted, and one gap for all white space
between them that is not. -/
def significant (mode : Mode) (gap : Gap) : List Char → List (Bool × Char)
  | [] => []
  | char :: rest =>
      if mode.quoted then (true, char) :: significant (mode.next lexis char) .none rest
      else if isSqlSpace char then
        significant (mode.next lexis char) (gap.widen mode char) rest
      else gap.text ++ (false, char) :: significant (mode.next lexis char) .none rest

/-- Two statements differ only in white space outside of quoted strings and identifiers. -/
def SameSql (left right : List Char) : Prop :=
  significant lexis .start .space left = significant lexis .start .space right

/-- The text inside of quotes, with the marks that close them. -/
def quotedText (mode : Mode) : List Char → List Char
  | [] => []
  | char :: rest =>
      if mode.quoted then char :: quotedText (mode.next lexis char) rest
      else quotedText (mode.next lexis char) rest

/-- No line break inside of quotes; in a statement of several lines all quotes are closed. -/
structure Clean (statement : List Char) : Prop where
  oneLine : ∀ char ∈ quotedText lexis .start statement, char ≠ '\n' ∧ char ≠ '\r'
  closed : '\n' ∈ statement → (Mode.start.behind lexis statement).quoted = false

end Sql

end ServerFoundation.Migrations
