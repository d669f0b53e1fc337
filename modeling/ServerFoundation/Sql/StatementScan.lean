import ServerFoundation.Data.WhileLoop
import ServerFoundation.Sql.Query

/-!
# Scanning for statements

The two scanners that cut a text with several statements, one of which also notes the
placeholders. Both walk over the text in the same modes; a scan is a loop over a state with the
current index in it.
-/

namespace ServerFoundation.Sql

/-- The variables `quote`, `dollarQuote`, `inLineComment` and `inBlockComment`, of which one at
most is set. -/
inductive ScanMode where
  | statement
  | lineComment
  | blockComment
  | dollarQuote (tag : List Char)
  | quote (mark : Char)

/-- `BoundPlaceholder`. -/
structure BoundPlaceholder where
  start : ℕ
  stop : ℕ
  bindingIndex : ℕ

/-- `BoundStatement`. -/
structure BoundStatement where
  start : ℕ
  stop : ℕ
  placeholders : List BoundPlaceholder

/-- `text.slice(start, stop)`. -/
def slice (text : List Char) (start stop : ℕ) : List Char :=
  (text.drop start).take (stop - start)

section Lexemes

/-- The first character of a dollar tag. -/
def isTagStart (char : Char) : Bool := char.isAlpha ∨ char = '_'

/-- The other characters of a dollar tag. -/
def isTagPart (char : Char) : Bool := char.isAlphanum ∨ char = '_'

/-- A dollar quote marker, by its tag. -/
def dollarMarker (tag : List Char) : List Char := '$' :: tag ++ ['$']

/-- The tag of `/^\$[A-Za-z_][A-Za-z0-9_]*\$|^\$\$/`. -/
def readDollarQuoteMarker : List Char → Option (List Char)
  | '$' :: '$' :: _ => some []
  | '$' :: first :: rest =>
      if isTagStart first ∧ (rest.dropWhile isTagPart).head? = some '$' then
        some (first :: rest.takeWhile isTagPart)
      else none
  | _ => none

/-- `/^\$([1-9]\d*)/`, with the group. -/
def readPlaceholder : List Char → Option (List Char)
  | '$' :: first :: rest =>
      if first.isDigit ∧ first ≠ '0' then some (first :: rest.takeWhile Char.isDigit) else none
  | _ => none

/-- The number that digits spell. -/
def numberOf (digits : List Char) : ℕ :=
  digits.foldl (fun number digit => 10 * number + (digit.toNat - '0'.toNat)) 0

/-- The first character behind the white space from an index on. -/
def skipSpace (text : List Char) (start : ℕ) : ℕ → ℕ
  | 0 => start
  | count + 1 =>
      if text[start]?.any JsNumber.isWhiteSpace then skipSpace text (start + 1) count else start

/-- The end of the text before the white space up to an index. -/
def skipSpaceBack (text : List Char) (stop : ℕ) : ℕ → ℕ
  | 0 => stop
  | count + 1 =>
      if text[stop - 1]?.any JsNumber.isWhiteSpace then skipSpaceBack text (stop - 1) count
      else stop

/-- `trimStartIndex`. -/
def trimStartIndex (text : List Char) (start stop : ℕ) : ℕ := skipSpace text start (stop - start)

/-- `trimEndIndex`. -/
def trimEndIndex (text : List Char) (start stop : ℕ) : ℕ := skipSpaceBack text stop (stop - start)

end Lexemes

section Scanners

variable (text : List Char) (dialect : Dialect)

/-- Where both scanners go before they look at placeholders and semicolons: the next mode and the
next index. -/
def scanLexeme (i : ℕ) (char : Char) : ScanMode → Option (ScanMode × ℕ)
  | .lineComment =>
      some (if char = '\n' ∨ char = '\r' then .statement else .lineComment, i + 1)
  | .blockComment =>
      some (if char = '*' ∧ text[i + 1]? = some '/' then (.statement, i + 2)
        else (.blockComment, i + 1))
  | .dollarQuote tag =>
      some (if dollarMarker tag <+: text.drop i then (.statement, i + (dollarMarker tag).length)
        else (.dollarQuote tag, i + 1))
  | .quote mark =>
      some (if (mark = '\'' ∨ mark = '"') ∧ char = '\\' then (.quote mark, i + 2)
        else if char = mark then
          if text[i + 1]? = some mark then (.quote mark, i + 2) else (.statement, i + 1)
        else (.quote mark, i + 1))
  | .statement =>
      if char = '-' ∧ text[i + 1]? = some '-' then some (.lineComment, i + 2)
      else if char = '#' then some (.lineComment, i + 1)
      else if char = '/' ∧ text[i + 1]? = some '*' then some (.blockComment, i + 2)
      else if char = '\'' ∨ char = '"' ∨ char = Char.ofNat 96 then some (.quote char, i + 1)
      else (readDollarQuoteMarker (text.drop i)).map fun tag =>
        (.dollarQuote tag, i + (dollarMarker tag).length)

/-- A placeholder of the dialect. -/
def placeholderAt (i mysqlBindingIndex : ℕ) : Option BoundPlaceholder :=
  match dialect with
  | .postgres => (readPlaceholder (text.drop i)).map fun digits =>
      ⟨i, i + 1 + digits.length, numberOf digits - 1⟩
  | .mysql => if text[i]? = some '?' then some ⟨i, i + 1, mysqlBindingIndex⟩ else none

/-- The variables of `findBoundSqlStatements`. -/
structure BoundScan where
  statements : List BoundStatement
  statementStart : ℕ
  mode : ScanMode
  mysqlBindingIndex : ℕ
  currentPlaceholders : List BoundPlaceholder
  i : ℕ

/-- A statement between two indices, unless it is blank. -/
def boundStatement (start stop : ℕ) (placeholders : List BoundPlaceholder) :
    Option BoundStatement :=
  let first := trimStartIndex text start stop
  let last := trimEndIndex text start stop
  if first < last then
    some ⟨first, last, placeholders.filter fun placeholder =>
      first ≤ placeholder.start ∧ placeholder.stop ≤ last⟩
  else none

/-- The statements, with one that ends here. -/
def BoundScan.close (scan : BoundScan) (stop : ℕ) : List BoundStatement :=
  scan.statements ++
    (boundStatement text scan.statementStart stop scan.currentPlaceholders).toList

/-- A turn of the loop. -/
def BoundScan.advance (scan : BoundScan) : BoundScan :=
  match text[scan.i]? with
  | none => scan
  | some char =>
      match scanLexeme text scan.i char scan.mode with
      | some (mode, i) => { scan with mode := mode, i := i }
      | none =>
          match placeholderAt text dialect scan.i scan.mysqlBindingIndex with
          | some placeholder =>
              { scan with
                currentPlaceholders := scan.currentPlaceholders ++ [placeholder]
                mysqlBindingIndex :=
                  if dialect = .mysql then scan.mysqlBindingIndex + 1 else scan.mysqlBindingIndex
                i := placeholder.stop }
          | none =>
              if char = ';' then
                { scan with
                  statements := scan.close text scan.i
                  statementStart := scan.i + 1
                  currentPlaceholders := []
                  i := scan.i + 1 }
              else { scan with i := scan.i + 1 }

/-- The loop of `scanBoundSql`. -/
def boundLoop : WhileLoop BoundScan where
  continues scan := scan.i < text.length
  body := BoundScan.advance text dialect

/-- The statements of a text, if the scan ends. -/
def findBoundSqlStatements : Option (List BoundStatement) :=
  ((boundLoop text dialect).run text.length ⟨[], 0, .statement, 0, [], 0⟩).map fun scan =>
    scan.close text text.length

/-- The variables of `splitSqlStatements`. -/
structure SplitScan where
  statements : List (List Char)
  statementStart : ℕ
  mode : ScanMode
  i : ℕ

/-- The statements, with one that ends here. -/
def SplitScan.close (scan : SplitScan) (stop : ℕ) : List (List Char) :=
  let statement := JsNumber.trim (slice text scan.statementStart stop)
  if statement = [] then scan.statements else scan.statements ++ [statement]

/-- A turn of the loop. -/
def SplitScan.advance (scan : SplitScan) : SplitScan :=
  match text[scan.i]? with
  | none => scan
  | some char =>
      match scanLexeme text scan.i char scan.mode with
      | some (mode, i) => { scan with mode := mode, i := i }
      | none =>
          if char = ';' then
            { scan with
              statements := scan.close text scan.i
              statementStart := scan.i + 1
              i := scan.i + 1 }
          else { scan with i := scan.i + 1 }

/-- The loop of `splitSqlStatements`. -/
def splitLoop : WhileLoop SplitScan where
  continues scan := scan.i < text.length
  body := SplitScan.advance text

/-- The texts of the statements, if the scan ends. -/
def splitSqlStatements : Option (List (List Char)) :=
  ((splitLoop text).run text.length ⟨[], 0, .statement, 0⟩).map fun scan =>
    scan.close text text.length

end Scanners

end ServerFoundation.Sql
