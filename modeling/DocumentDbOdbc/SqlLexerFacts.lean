/-
Progress of the lexer.

A text is read once more, character by character, with nothing but the mode the
reader is in (`Mode`). A character that starts nothing is harmless in a comment
or a literal; elsewhere `Shift` makes an empty token of it and stands still. So
the lexer gets to the end just where there is none (`shift_progress_iff`).
-/
import DocumentDbOdbc.SqlParserFacts

namespace DocumentDbOdbc

/-! ## Modes -/

/-- What a character is read in: the plain text, possibly behind a `-`, a
comment, a literal, or a literal behind a quote that may end it. -/
inductive Mode where
  | plain | dash | comment | literal (q : UInt8) | closing (q : UInt8)
  deriving DecidableEq, Repr

/-- No token, comment or blank begins with it. -/
def startsNothing (c : UInt8) : Bool :=
  SqlLexer.isDelimiter c && !isBlank c && !([45, 34, 39, 46, 44, 59, 40, 41] : List UInt8).contains c

namespace Mode

/-- The mode a character of the plain text leads to. -/
def start (c : UInt8) : Mode :=
  if c = 45 then .dash else if c = 34 ∨ c = 39 then .literal c else .plain

def next : Mode → UInt8 → Mode
  | .plain, c => start c
  | .dash, c => if c = 45 then .comment else start c
  | .comment, c => if c = 10 ∨ c = 13 then .plain else .comment
  | .literal q, c => if c = q then .closing q else .literal q
  | .closing q, c => if c = q then .literal q else start c

/-- In this mode a character may have to start something. -/
def outside : Mode → Bool
  | .plain | .dash | .closing _ => true
  | .comment | .literal _ => false

/-- No character that starts nothing is met outside of comments and literals. -/
def clean : Mode → Str → Bool
  | _, [] => true
  | m, c :: s => !(m.outside && startsNothing c) && clean (m.next c) s

@[simp] theorem clean_nil (m : Mode) : clean m [] = true := rfl

theorem clean_cons (m : Mode) (c : UInt8) (s : Str) :
    clean m (c :: s) = (!(m.outside && startsNothing c) && clean (m.next c) s) := rfl

theorem clean_plain_cons {c : UInt8} (s : Str) (h : startsNothing c = false) :
    clean .plain (c :: s) = clean (start c) s := by
  rw [clean_cons, h]
  rfl

/-- A `-` alone or a quote that ends a literal leads back to the plain text. -/
theorem clean_dash {s : Str} (h : s.head? ≠ some 45) : clean .dash s = clean .plain s := by
  cases s with
  | nil => rfl
  | cons c s =>
    have hc : c ≠ 45 := fun hc => h (congrArg some hc)
    rw [clean_cons, clean_cons, next, next, if_neg hc]
    rfl

theorem clean_closing {q : UInt8} {s : Str} (h : s.head? ≠ some q) : clean (.closing q) s = clean .plain s := by
  cases s with
  | nil => rfl
  | cons c s =>
    have hc : c ≠ q := fun hc => h (congrArg some hc)
    rw [clean_cons, clean_cons, next, next, if_neg hc]
    rfl

/-- A run of characters that keep the plain mode. -/
theorem clean_plain_dropWhile {p : UInt8 → Bool} (h : ∀ c, p c = true → startsNothing c = false ∧ start c = .plain)
    (s : Str) : clean .plain s = clean .plain (s.dropWhile p) := by
  induction s with
  | nil => rfl
  | cons c s ih =>
    rw [List.dropWhile_cons]
    split
    next hc => rw [clean_plain_cons s (h c hc).1, (h c hc).2, ih]
    next => rfl

theorem clean_comment (s : Str) :
    clean .comment s = clean .plain (s.dropWhile fun c => c != 10 && c != 13) := by
  induction s with
  | nil => rfl
  | cons c s ih =>
    rw [List.dropWhile_cons, clean_cons, next]
    split
    next hc =>
      have hend : ¬ ((c != 10 && c != 13) = true) := by
        rcases hc with rfl | rfl <;> decide
      have hplain : startsNothing c = false ∧ start c = .plain := by
        rcases hc with rfl | rfl <;> decide
      rw [if_neg hend, clean_plain_cons s hplain.1, hplain.2]
      rfl
    next hc =>
      have hin : (c != 10 && c != 13) = true := by simpa [not_or] using hc
      rw [if_pos hin, ← ih]
      rfl

end Mode

/-! ## Words and blanks -/

theorem isWord_plain {c : UInt8} (h : (!SqlLexer.isDelimiter c) = true) :
    startsNothing c = false ∧ Mode.start c = .plain := by
  have hd : SqlLexer.isDelimiter c = false := by simpa using h
  refine ⟨by rw [startsNothing, hd]; rfl, ?_⟩
  have hne : ∀ d, SqlLexer.isDelimiter d = true → c ≠ d := by
    rintro d hd' rfl
    rw [hd] at hd'
    cases hd'
  simp [Mode.start, hne 45 (by decide), hne 34 (by decide), hne 39 (by decide)]

theorem isBlank_plain {c : UInt8} (h : isBlank c = true) : startsNothing c = false ∧ Mode.start c = .plain := by
  refine ⟨by rw [startsNothing, h]; simp, ?_⟩
  have hne : ∀ d, isBlank d = false → c ≠ d := by
    rintro d hd rfl
    rw [h] at hd
    cases hd
  simp [Mode.start, hne 45 (by decide), hne 34 (by decide), hne 39 (by decide)]

/-- The position a lexeme leaves. -/
def Lexeme.stop : Lexeme → Nat
  | .skip next | .token _ next | .unclosed next _ => next

namespace SqlLexer

variable (l : SqlLexer)

/-! ## What the lexer sees -/

/-- The text up to the limit, from a position on. -/
def seen (pos : Nat) : Str := (l.sql.take l.limit).drop pos

theorem seen_eq_cons {pos : Nat} (h : pos < l.limit) : l.seen pos = l.charAt pos :: l.seen (pos + 1) := by
  have hlength : pos < (l.sql.take l.limit).length := by
    rw [List.length_take]
    have := l.limit_le_length
    omega
  have hsql : pos < l.sql.length := Nat.lt_of_lt_of_le h l.limit_le_length
  rw [seen, List.drop_eq_getElem_cons hlength, List.getElem_take, charAt, List.getD_eq_getElem?_getD,
    List.getElem?_eq_getElem hsql]
  rfl

theorem seen_eq_nil {pos : Nat} (h : l.limit ≤ pos) : l.seen pos = [] := by
  rw [seen, List.drop_eq_nil_iff, List.length_take]
  omega

theorem seen_skipWhile (p : UInt8 → Bool) (pos : Nat) : l.seen (l.skipWhile p pos) = (l.seen pos).dropWhile p := by
  have h : ∀ s : Str, s.drop (s.takeWhile p).length = s.dropWhile p := by
    intro s
    induction s with
    | nil => rfl
    | cons c s ih =>
      rw [List.takeWhile_cons, List.dropWhile_cons]
      split
      · exact ih
      · rfl
  rw [skipWhile, seen, ← List.drop_drop]
  exact h (l.seen pos)

theorem head?_seen {pos : Nat} (h : pos < l.limit) : (l.seen pos).head? = some (l.charAt pos) := by
  rw [l.seen_eq_cons h]
  rfl

/-! ## Reading the text and its modes -/

/-- A quote that closes the literal leads back to the plain text, though the
text may end in another one. -/
theorem clean_closing_seen {q : UInt8} {pos : Nat} (h : (!l.haveDataAt (pos + 1) 2 || l.charAt (pos + 2) ≠ q) = true) :
    Mode.clean (.closing q) (l.seen (pos + 2)) = Mode.clean .plain (l.seen (pos + 2)) := by
  by_cases hhead : (l.seen (pos + 2)).head? = some q
  · have hmore : pos + 2 < l.limit := by
      by_contra hnot
      rw [l.seen_eq_nil (by omega)] at hhead
      cases hhead
    rw [l.head?_seen hmore, Option.some.injEq] at hhead
    have hlast : l.limit ≤ pos + 2 + 1 := by
      have hle := l.limit_le_length
      simp [haveDataAt, hhead] at h
      omega
    rw [l.seen_eq_cons hmore, l.seen_eq_nil hlast, Mode.clean_cons, Mode.clean_cons]
    rfl
  · exact Mode.clean_closing hhead

/-- A pair of quotes stays in the literal. -/
theorem clean_pair {q : UInt8} (hstart : startsNothing q = false) {pos : Nat} (hq : l.charAt (pos + 2) = q) :
    Mode.clean (.closing q) (l.seen (pos + 2)) = Mode.clean (.literal q) (l.seen (pos + 3)) := by
  by_cases hmore : pos + 2 < l.limit
  · rw [l.seen_eq_cons hmore, Mode.clean_cons, Mode.next, hq, if_pos rfl, hstart]
    rfl
  · rw [l.seen_eq_nil (by omega), l.seen_eq_nil (by omega)]
    rfl

/-- Where the loop of a literal stops, the reader is in the plain text again, or
it has seen nothing that starts nothing. -/
theorem clean_closeQuote {q : UInt8} (hstart : startsNothing q = false) {fuel pos : Nat}
    (hfuel : l.limit ≤ pos + 1 + fuel) :
    Mode.clean (.literal q) (l.seen (pos + 1)) =
      if (l.closeQuote q fuel pos).2 then Mode.clean .plain (l.seen ((l.closeQuote q fuel pos).1 + 1)) else true := by
  induction fuel generalizing pos with
  | zero =>
    rw [l.closeQuote_eod hfuel, l.seen_eq_nil hfuel]
    rfl
  | succ fuel ih =>
    by_cases hEod : l.limit ≤ pos + 1
    · rw [l.closeQuote_eod hEod, l.seen_eq_nil hEod]
      rfl
    have hlt : pos + 1 < l.limit := by omega
    rw [l.seen_eq_cons hlt, Mode.clean_cons, Mode.next]
    by_cases hq : l.charAt (pos + 1) = q
    · rw [l.closeQuote_quote hlt hq, if_pos hq]
      simp only [Mode.outside, Bool.false_and, Bool.not_false, Bool.true_and]
      split
      next hstop => exact l.clean_closing_seen hstop
      next hpair =>
        rw [← ih (by omega)]
        refine l.clean_pair hstart ?_
        simp at hpair
        exact hpair.2
    · rw [l.closeQuote_other hlt hq, if_neg hq]
      exact ih (by omega)

/-- A loop that finds no closing quote has seen everything. -/
theorem limit_le_closeQuote (q : UInt8) {fuel pos : Nat} (hfuel : l.limit ≤ pos + 1 + fuel)
    (h : (l.closeQuote q fuel pos).2 = false) : l.limit ≤ (l.closeQuote q fuel pos).1 := by
  induction fuel generalizing pos with
  | zero => exact hfuel
  | succ fuel ih =>
    by_cases hEod : l.limit ≤ pos + 1
    · rw [l.closeQuote_eod hEod]
      exact hEod
    have hlt : pos + 1 < l.limit := by omega
    by_cases hq : l.charAt (pos + 1) = q
    · rw [l.closeQuote_quote hlt hq] at h ⊢
      split at h
      next => cases h
      next hpair =>
        rw [if_neg hpair]
        exact ih (by omega) h
    · rw [l.closeQuote_other hlt hq] at h ⊢
      exact ih (by omega) h

/-- A lexeme and the modes: behind it the reader is in the plain text; an empty
word starts nothing. -/
def LexemeReads (pos : Nat) : Lexeme → Prop
  | .skip next => Mode.clean .plain (l.seen pos) = Mode.clean .plain (l.seen next)
  | .token _ next =>
    (pos < next ∧ Mode.clean .plain (l.seen pos) = Mode.clean .plain (l.seen next)) ∨
      (next = pos ∧ Mode.clean .plain (l.seen pos) = false)
  | .unclosed next _ => Mode.clean .plain (l.seen pos) = true ∧ l.limit ≤ next

theorem scanQuoted_reads {q : UInt8} (hstart : startsNothing q = false) (hmode : Mode.start q = .literal q)
    (type : TokenType) (message : String) {pos : Nat} (h : pos < l.limit) (hc : l.charAt pos = q) :
    l.LexemeReads pos (l.scanQuoted q type message pos) := by
  have hclose := l.clean_closeQuote hstart (by omega : l.limit ≤ pos + 1 + (l.limit - pos))
  have hlt := l.lt_closeQuote q (l.limit - pos) pos
  have hopen : Mode.clean .plain (l.seen pos) = Mode.clean (.literal q) (l.seen (pos + 1)) := by
    rw [l.seen_eq_cons h, hc, Mode.clean_plain_cons _ hstart, hmode]
  rw [scanQuoted]
  split
  · next next heq =>
    rw [heq] at hclose hlt
    exact .inl ⟨by omega, hopen.trans hclose⟩
  · next next heq =>
    have hseen := l.limit_le_closeQuote q (by omega : l.limit ≤ pos + 1 + (l.limit - pos))
    rw [heq] at hclose hseen
    exact ⟨hopen.trans hclose, hseen rfl⟩

theorem comment_reads {pos : Nat} (h : pos < l.limit) (hc : l.charAt pos = 45) (hnext : l.charAt (pos + 1) = 45) :
    Mode.clean .plain (l.seen pos) =
      Mode.clean .plain (l.seen (l.skipWhile (fun c => c != 10 && c != 13) (pos + 2))) := by
  rw [l.seen_skipWhile, ← Mode.clean_comment, l.seen_eq_cons h, hc, Mode.clean_plain_cons _ (by decide)]
  by_cases hmore : pos + 1 < l.limit
  · rw [l.seen_eq_cons hmore, hnext]
    rfl
  · rw [l.seen_eq_nil (by omega), l.seen_eq_nil (by omega)]
    rfl

theorem minus_reads {pos : Nat} (h : pos < l.limit) (hc : l.charAt pos = 45)
    (hnext : l.haveDataAt pos 1 = true → l.charAt (pos + 1) ≠ 45) :
    Mode.clean .plain (l.seen pos) = Mode.clean .plain (l.seen (pos + 1)) := by
  rw [l.seen_eq_cons h, hc, Mode.clean_plain_cons _ (by decide)]
  refine Mode.clean_dash fun hhead => ?_
  have hmore : pos + 1 < l.limit := by
    by_contra hnot
    rw [l.seen_eq_nil (by omega)] at hhead
    cases hhead
  rw [l.head?_seen hmore, Option.some.injEq] at hhead
  exact hnext (decide_eq_true (Nat.lt_of_lt_of_le hmore l.limit_le_length)) hhead

theorem word_reads {pos : Nat} (h : pos < l.limit) (hb : isBlank (l.charAt pos) = false)
    (hc : ([45, 34, 39, 46, 44, 59, 40, 41] : List UInt8).contains (l.charAt pos) = false) :
    l.LexemeReads pos (.token .word (l.skipWhile (fun c => !isDelimiter c) pos)) := by
  have hcons := l.seen_eq_cons h
  have hend : l.skipWhile (fun c => !isDelimiter c) pos =
      pos + ((l.seen pos).takeWhile fun c => !isDelimiter c).length := rfl
  cases hword : !isDelimiter (l.charAt pos) with
  | true =>
    have hmove : pos < l.skipWhile (fun c => !isDelimiter c) pos := by
      rw [hend, hcons, List.takeWhile_cons, hword, if_pos rfl, List.length_cons]
      omega
    refine .inl ⟨hmove, ?_⟩
    rw [l.seen_skipWhile, ← Mode.clean_plain_dropWhile fun _ => isWord_plain]
  | false =>
    refine .inr ⟨?_, ?_⟩
    · rw [hend, hcons, List.takeWhile_cons, hword, if_neg Bool.false_ne_true]
      rfl
    · have hdelimiter : isDelimiter (l.charAt pos) = true := by simpa using hword
      have hnothing : startsNothing (l.charAt pos) = true := by rw [startsNothing, hdelimiter, hb, hc]; rfl
      rw [hcons, Mode.clean_cons, hnothing]
      rfl

theorem Scans.reads {pos : Nat} {lexeme : Lexeme} (hs : l.Scans pos lexeme) (h : pos < l.limit) :
    l.LexemeReads pos lexeme := by
  cases hs with
  | comment hc _ hnext => exact l.comment_reads h hc hnext
  | minus hc hnext => exact .inl ⟨Nat.lt_succ_self pos, l.minus_reads h hc hnext⟩
  | literal hq hc =>
    rcases hq with ⟨rfl, -⟩ | ⟨rfl, -⟩
    · exact l.scanQuoted_reads (by decide) (by decide) _ _ h hc
    · exact l.scanQuoted_reads (by decide) (by decide) _ _ h hc
  | single hsingle hc =>
    have hAll : ∀ p ∈ singles, startsNothing p.1 = false ∧ Mode.start p.1 = .plain := by decide
    obtain ⟨hstart, hmode⟩ := hAll _ hsingle
    refine .inl ⟨Nat.lt_succ_self pos, ?_⟩
    rw [l.seen_eq_cons h, hc, Mode.clean_plain_cons _ hstart, hmode]
  | blank hc =>
    have hplain := isBlank_plain hc
    show Mode.clean .plain (l.seen pos) = Mode.clean .plain (l.seen _)
    rw [l.seen_skipWhile, ← Mode.clean_plain_dropWhile fun _ => isBlank_plain, l.seen_eq_cons h,
      Mode.clean_plain_cons _ hplain.1, hplain.2]
  | word hb hc => exact l.word_reads h hb hc

/-! ## Staying in the text -/

theorem skipWhile_le (p : UInt8 → Bool) {pos : Nat} (h : pos ≤ l.sql.length) : l.skipWhile p pos ≤ l.sql.length := by
  have hlimit := l.limit_le_length
  have htake : ((l.seen pos).takeWhile p).length ≤ (l.seen pos).length := (List.takeWhile_prefix p).length_le
  have hlength : (l.seen pos).length = min l.limit l.sql.length - pos := by rw [seen, List.length_drop, List.length_take]
  have hend : l.skipWhile p pos = pos + ((l.seen pos).takeWhile p).length := rfl
  omega

theorem closeQuote_le (q : UInt8) (fuel : Nat) {pos : Nat} (h : pos < l.sql.length) :
    (l.closeQuote q fuel pos).1 ≤ l.sql.length ∧
      ((l.closeQuote q fuel pos).2 = true → (l.closeQuote q fuel pos).1 < l.sql.length) := by
  have hlimit := l.limit_le_length
  induction fuel generalizing pos with
  | zero => exact ⟨h, fun hclosed => (by cases hclosed)⟩
  | succ fuel ih =>
    by_cases hEod : l.limit ≤ pos + 1
    · rw [l.closeQuote_eod hEod]
      exact ⟨h, fun hclosed => (by cases hclosed)⟩
    have hlt : pos + 1 < l.sql.length := by omega
    by_cases hq : l.charAt (pos + 1) = q
    · rw [l.closeQuote_quote (by omega) hq]
      split
      · exact ⟨Nat.le_of_lt hlt, fun _ => hlt⟩
      next hpair =>
        refine ih ?_
        simp [haveDataAt] at hpair
        omega
    · rw [l.closeQuote_other (by omega) hq]
      exact ih hlt

theorem scanQuoted_le (q : UInt8) (type : TokenType) (message : String) {pos : Nat} (h : pos < l.sql.length) :
    (l.scanQuoted q type message pos).stop ≤ l.sql.length := by
  have hle := l.closeQuote_le q (l.limit - pos) h
  rw [scanQuoted]
  split
  · next next heq =>
    rw [heq] at hle
    exact hle.2 rfl
  · next next heq =>
    rw [heq] at hle
    exact hle.1

theorem Scans.stop_le {pos : Nat} {lexeme : Lexeme} (hs : l.Scans pos lexeme) (h : pos < l.sql.length) :
    lexeme.stop ≤ l.sql.length := by
  cases hs with
  | comment _ hmore => exact l.skipWhile_le _ (of_decide_eq_true hmore)
  | minus | single => exact h
  | literal => exact l.scanQuoted_le _ _ _ h
  | blank => exact l.skipWhile_le _ h
  | word => exact l.skipWhile_le _ (Nat.le_of_lt h)

/-! ## Progress -/

/-- What a call of `Shift` at a position does. -/
structure ShiftReads (pos : Nat) (l' : SqlLexer) (r : Except OdbcError Bool) : Prop where
  sql : l'.sql = l.sql
  bounded : l'.pos ≤ l.sql.length
  token : r = .ok true → (pos < l'.pos ∧ l'.currentToken.text ≠ [] ∧
      Mode.clean .plain (l.seen pos) = Mode.clean .plain (l.seen l'.pos)) ∨
    (l'.currentToken.text = [] ∧ Mode.clean .plain (l.seen pos) = false)
  ended : r ≠ .ok true → Mode.clean .plain (l.seen pos) = true ∧ l.limit ≤ l'.pos

theorem setEod_reads {pos : Nat} (h : l.limit ≤ pos) : l.ShiftReads pos l.setEod (.ok false) where
  sql := rfl
  bounded := l.limit_le_length
  token hr := by cases hr
  ended _ := ⟨by rw [l.seen_eq_nil h]; rfl, Nat.le_refl _⟩

theorem shiftLoop_reads {fuel pos : Nat} (hfuel : l.limit ≤ pos + fuel) :
    l.ShiftReads pos (l.shiftLoop fuel pos).1 (l.shiftLoop fuel pos).2 := by
  induction fuel generalizing pos with
  | zero => exact l.setEod_reads hfuel
  | succ fuel ih =>
    by_cases hEod : l.limit ≤ pos
    · rw [l.shiftLoop_eod hEod]
      exact l.setEod_reads hEod
    have hlt : pos < l.limit := by omega
    have hlength : pos < l.sql.length := Nat.lt_of_lt_of_le hlt l.limit_le_length
    have hreads := (l.scan_scans pos).reads l hlt
    have hmoves := l.scan_movesOn pos
    have hle := (l.scan_scans pos).stop_le l hlength
    rw [l.shiftLoop_round hlt]
    cases hscan : l.scan pos with
    | skip next =>
      rw [hscan] at hreads hmoves
      have hmove : pos < next := hmoves
      have hrest := ih (by omega : l.limit ≤ next + fuel)
      have hsame : Mode.clean .plain (l.seen pos) = Mode.clean .plain (l.seen next) := hreads
      refine ⟨hrest.sql, hrest.bounded, fun hr => ?_, fun hr => ⟨hsame.trans (hrest.ended hr).1, (hrest.ended hr).2⟩⟩
      rcases hrest.token hr with ⟨hless, htext, hclean⟩ | ⟨htext, hclean⟩
      · exact .inl ⟨Nat.lt_trans hmove hless, htext, hsame.trans hclean⟩
      · exact .inr ⟨htext, hsame.trans hclean⟩
    | token type next =>
      rw [hscan] at hreads hle
      refine ⟨rfl, hle, fun _ => ?_, fun hr => absurd rfl hr⟩
      rcases hreads with ⟨hmove, hclean⟩ | ⟨rfl, hclean⟩
      · refine .inl ⟨hmove, ?_, hclean⟩
        rw [ne_eq, List.drop_eq_nil_iff, List.length_take]
        omega
      · refine .inr ⟨?_, hclean⟩
        rw [List.drop_eq_nil_iff, List.length_take]
        omega
    | unclosed next error =>
      rw [hscan] at hreads hle
      exact ⟨rfl, hle, fun hr => (by cases hr), fun _ => hreads⟩

/-- **`Shift`** moves on to a token, or there is none, where the text is clean. -/
theorem shift_reads : l.ShiftReads l.pos l.shift.1 l.shift.2 := l.shiftLoop_reads (by omega)

/-- The lexer after so many calls of `Shift`. -/
def calls : Nat → SqlLexer → SqlLexer
  | 0, l => l
  | n + 1, l => calls n l.shift.1

/-- Every call that returns true moves on to a token that is not empty, the
position stays within the text, and of the calls, one more than there are
characters, some does not return true. -/
structure Progress (sql : Str) : Prop where
  token : ∀ n, (calls n { sql }).shift.2 = .ok true →
    (calls n { sql }).shift.1.currentToken.text ≠ [] ∧ (calls n { sql }).pos < (calls n { sql }).shift.1.pos
  bounded : ∀ n, (calls n { sql }).pos ≤ sql.length
  ends : ∃ n ≤ sql.length, (calls n { sql }).shift.2 ≠ .ok true

theorem seen_shift (pos : Nat) : l.shift.1.seen pos = l.seen pos := by
  rw [seen, seen, limit, limit, l.shift_reads.sql]

/-- The position stays within the text, whatever the text is. -/
theorem calls_bounded (n : Nat) {l : SqlLexer} (hpos : l.pos ≤ l.sql.length) :
    (calls n l).sql = l.sql ∧ (calls n l).pos ≤ l.sql.length := by
  induction n generalizing l with
  | zero => exact ⟨rfl, hpos⟩
  | succ n ih =>
    have hreads := l.shift_reads
    obtain ⟨hsql, hle⟩ := ih (l := l.shift.1) (by rw [hreads.sql]; exact hreads.bounded)
    rw [hreads.sql] at hsql hle
    exact ⟨hsql, hle⟩

/-- A call leaves a clean text clean. -/
theorem clean_shift (h : Mode.clean .plain (l.seen l.pos) = true) :
    Mode.clean .plain (l.shift.1.seen l.shift.1.pos) = true := by
  have hreads := l.shift_reads
  rw [l.seen_shift]
  by_cases hr : l.shift.2 = .ok true
  · rcases hreads.token hr with ⟨-, -, hsame⟩ | ⟨-, hdirty⟩
    · rw [← hsame, h]
    · rw [h] at hdirty
      cases hdirty
  · rw [l.seen_eq_nil (hreads.ended hr).2]
    rfl

theorem clean_calls (n : Nat) {l : SqlLexer} (h : Mode.clean .plain (l.seen l.pos) = true) :
    Mode.clean .plain ((calls n l).seen (calls n l).pos) = true := by
  induction n generalizing l with
  | zero => exact h
  | succ n ih => exact ih (l.clean_shift h)

/-- As long as the calls return true, the position is moved on. -/
theorem le_pos_calls {n : Nat} {l : SqlLexer} (hclean : Mode.clean .plain (l.seen l.pos) = true)
    (h : ∀ k < n, (calls k l).shift.2 = .ok true) : l.pos + n ≤ (calls n l).pos := by
  induction n generalizing l with
  | zero => exact Nat.le_refl _
  | succ n ih =>
    have hrest := ih (l.clean_shift hclean) fun k hk => h (k + 1) (by omega)
    rcases l.shift_reads.token (h 0 (Nat.succ_pos n)) with ⟨hless, -⟩ | ⟨-, hdirty⟩
    · rw [calls]
      omega
    · rw [hclean] at hdirty
      cases hdirty

/-- In a text that is not clean some call returns an empty token. -/
theorem exists_empty {n : Nat} {l : SqlLexer} (hleft : l.sql.length ≤ l.pos + n)
    (hdirty : Mode.clean .plain (l.seen l.pos) = false) :
    ∃ k, (calls k l).shift.2 = .ok true ∧ (calls k l).shift.1.currentToken.text = [] := by
  induction n generalizing l with
  | zero =>
    rw [l.seen_eq_nil (by have := l.limit_le_length; omega)] at hdirty
    cases hdirty
  | succ n ih =>
    have hreads := l.shift_reads
    have hr : l.shift.2 = .ok true := by
      by_contra hne
      rw [(hreads.ended hne).1] at hdirty
      cases hdirty
    rcases hreads.token hr with ⟨hless, -, hsame⟩ | ⟨htext, -⟩
    · obtain ⟨k, hk⟩ := ih (l := l.shift.1) (by rw [hreads.sql]; omega) (by rw [l.seen_shift, ← hsame, hdirty])
      exact ⟨k + 1, hk⟩
    · exact ⟨0, hr, htext⟩

/-- **Progress** is made on a text just when no character that starts nothing
stands outside of its comments and literals; the position stays within any
text. -/
theorem shift_progress_iff (sql : Str) :
    (Progress sql ↔ Mode.clean .plain (seen { sql } 0) = true) ∧ ∀ n, (calls n { sql }).pos ≤ sql.length := by
  have hbounded : ∀ n, (calls n { sql }).pos ≤ sql.length := fun n => (calls_bounded n (Nat.zero_le _)).2
  refine ⟨⟨fun h => ?_, fun hclean => ⟨fun n hr => ?_, hbounded, ?_⟩⟩, hbounded⟩
  · by_contra hdirty
    obtain ⟨k, hr, htext⟩ := exists_empty (n := sql.length) (l := { sql }) (by simp) (by simpa using hdirty)
    exact (h.token k hr).1 htext
  · rcases (calls n { sql }).shift_reads.token hr with ⟨hless, htext, -⟩ | ⟨-, hdirty⟩
    · exact ⟨htext, hless⟩
    · rw [clean_calls n hclean] at hdirty
      cases hdirty
  · by_contra hnone
    simp only [not_exists, not_and, ne_eq, not_not] at hnone
    have hle := le_pos_calls (n := sql.length + 1) hclean fun k hk => hnone k (by omega)
    have := hbounded (sql.length + 1)
    omega

/-- A lone `@`: the token is empty, again and again. -/
theorem shift_no_progress : ¬ ∀ sql : Str, Progress sql := fun h =>
  absurd ((h (ascii "@")).token 0 (by decide)).1 (by decide)

end SqlLexer

end DocumentDbOdbc
