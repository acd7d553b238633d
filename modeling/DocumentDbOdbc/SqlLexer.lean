/-
`SqlLexer` and `SqlToken`: the tokens of an SQL text.

The lexer is a position in the text and the last token. `scan` looks at the
character there and says where the token, the comment or the blanks that start
with it end; `Shift` skips until there is a token. A character that starts
nothing, such as `@`, makes an empty word, and the lexer stays where it is.

Positions are `int32_t` in the source, and so is the size of the text they are
compared with: of a text of 2 GiB or more the lexer sees what is left of the
size (`limit`).
-/
import DocumentDbOdbc.Diagnostic

namespace DocumentDbOdbc

/-- `TokenType::Type`. -/
inductive TokenType where
  | minus | quoted | string | dot | comma | parenthesisLeft | parenthesisRight | semicolon | word | eod
  deriving DecidableEq, Repr

/-- `SqlToken`; the text is what `ToString` returns. -/
structure SqlToken where
  text : Str
  type : TokenType
  deriving DecidableEq, Repr

/-- `SqlToken::ToLower`. -/
def SqlToken.toLower (t : SqlToken) : Str := DocumentDbOdbc.toLower t.text

/-! ## Characters -/

/-- `iscntrl(c) || isspace(c)`. -/
def isBlank (c : UInt8) : Bool := c < 32 || c == 127 || isSpace c

/-! ## The lexer -/

structure SqlLexer where
  sql : Str
  pos : Nat := 0
  currentToken : SqlToken := ⟨[], .eod⟩
  deriving DecidableEq, Repr

/-- What starts at a position: something to skip or a token, with the position
behind it, or a literal that is not closed. -/
inductive Lexeme where
  | skip (pos : Nat)
  | token (type : TokenType) (pos : Nat)
  | unclosed (pos : Nat) (error : OdbcError)
  deriving DecidableEq, Repr

namespace SqlLexer

/-- `IsDelimiter`. -/
def isDelimiter (c : UInt8) : Bool := !isAlnum c && c != 95

variable (l : SqlLexer)

/-- `static_cast<int32_t>(sql.size())`, or zero if that is negative. -/
def limit : Nat := (Int32.ofNat l.sql.length).toInt.toNat

/-- `IsEod` at a position. -/
def isEodAt (pos : Nat) : Bool := l.limit ≤ pos

/-- `IsEod`. -/
def isEod : Bool := l.isEodAt l.pos

/-- `HaveData` at a position. -/
def haveDataAt (pos num : Nat) : Bool := pos + num < l.sql.length

/-- `SetEod`. -/
def setEod : SqlLexer := { l with pos := l.limit, currentToken := ⟨[], .eod⟩ }

/-- `sql[pos]`. -/
def charAt (pos : Nat) : UInt8 := l.sql.getD pos 0

/-- `while (!IsEod() && p(sql[pos])) ++pos;` -/
def skipWhile (p : UInt8 → Bool) (pos : Nat) : Nat :=
  pos + (((l.sql.take l.limit).drop pos).takeWhile p).length

/-- The loop of a literal in quotes `q`, from the position of the opening
quote: the position where it stops, and whether that is the closing quote.
Every round moves on, so with the characters left as fuel it ends by itself. -/
def closeQuote (q : UInt8) : Nat → Nat → Nat × Bool
  | 0, pos => (pos + 1, false)
  | fuel + 1, pos =>
    if l.isEodAt (pos + 1) then (pos + 1, false)
    else if l.charAt (pos + 1) = q then
      if !l.haveDataAt (pos + 1) 2 || l.charAt (pos + 2) ≠ q then (pos + 1, true)
      else closeQuote q fuel (pos + 2)
    else closeQuote q fuel (pos + 1)

/-- A literal in quotes. -/
def scanQuoted (q : UInt8) (type : TokenType) (message : String) (pos : Nat) : Lexeme :=
  match l.closeQuote q (l.limit - pos) pos with
  | (pos, true) => .token type (pos + 1)
  | (pos, false) => .unclosed pos ⟨.sHY000GeneralError, ascii message⟩

/-- The `switch` of `Shift`. -/
def scan (pos : Nat) : Lexeme :=
  let c := l.charAt pos
  if c = 45 then
    if l.haveDataAt pos 1 && l.charAt (pos + 1) = 45 then
      .skip (l.skipWhile (fun c => c != 10 && c != 13) (pos + 2))
    else .token .minus (pos + 1)
  else if c = 34 then l.scanQuoted 34 .quoted "Unclosed quoted identifier." pos
  else if c = 39 then l.scanQuoted 39 .string "Unclosed string literal." pos
  else if c = 46 then .token .dot (pos + 1)
  else if c = 44 then .token .comma (pos + 1)
  else if c = 59 then .token .semicolon (pos + 1)
  else if c = 40 then .token .parenthesisLeft (pos + 1)
  else if c = 41 then .token .parenthesisRight (pos + 1)
  else if isBlank c then .skip (l.skipWhile isBlank (pos + 1))
  else .token .word (l.skipWhile (fun c => !isDelimiter c) pos)

/-- The loop of `Shift`; what is skipped is not empty, so with the characters
left as fuel it ends by itself. -/
def shiftLoop : Nat → Nat → SqlLexer × Except OdbcError Bool
  | 0, _ => (l.setEod, .ok false)
  | fuel + 1, pos =>
    if l.isEodAt pos then (l.setEod, .ok false)
    else
      match l.scan pos with
      | .skip next => shiftLoop fuel next
      | .token type next =>
        ({ l with pos := next, currentToken := ⟨(l.sql.take next).drop pos, type⟩ }, .ok true)
      | .unclosed next error => ({ l with pos := next }, .error error)

/-- `SqlLexer::Shift`. -/
def shift : SqlLexer × Except OdbcError Bool := l.shiftLoop (l.limit - l.pos) l.pos

/-- `SqlLexer::ExpectNextToken`. -/
def expectNextToken (typ : TokenType) (expected : Str) : Bool :=
  match l.shift with
  | (_, .error _) => false
  | (_, .ok false) => false
  | (l, .ok true) => l.currentToken.type = typ && l.currentToken.toLower = expected

end SqlLexer

/-! ## The pre-check -/

/-- The loop of `IsInternalCommand`; it goes on behind a semicolon only. -/
def isInternalCommandLoop : Nat → SqlLexer → Bool
  | 0, _ => false
  | fuel + 1, l =>
    match l.shift with
    | (_, .error _) => false
    | (_, .ok false) => false
    | (l, .ok true) =>
      if l.currentToken.type ≠ .semicolon then
        if l.currentToken.type = .word && l.currentToken.toLower = ascii "set" then
          l.expectNextToken .word (ascii "streaming")
        else false
      else isInternalCommandLoop fuel l

/-- `sql_utils::IsInternalCommand`. -/
def isInternalCommand (sql : Str) : Bool := isInternalCommandLoop (sql.length + 1) { sql }

example : isInternalCommand (ascii ";-- x\n Set streaming on") = true ∧
    isInternalCommand (ascii "set 'streaming'") = false := by decide

end DocumentDbOdbc
