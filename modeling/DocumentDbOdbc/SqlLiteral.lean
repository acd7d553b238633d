/-
The literals the lexer reads.

A literal in quotes ends at its first quote that is not one of a pair
(`literalLength`). The lexer looks for a second quote only where two characters
follow the first, so a pair at the end of the text ends the literal
(`closeQuote_eq_iff`), and nothing else goes wrong (`shift_literal_iff`).
-/
import DocumentDbOdbc.SqlLexerFacts

namespace DocumentDbOdbc

namespace SqlLexer

variable (l : SqlLexer)

/-! ## Literals -/

/-- The characters up to the first quote that is not one of a pair, with it. -/
def literalLength (q : UInt8) : Str → Option Nat
  | [] => none
  | [c] => if c = q then some 1 else none
  | c :: d :: s =>
    if c ≠ q then (literalLength q (d :: s)).map (· + 1)
    else if d = q then (literalLength q s).map (· + 2)
    else some 1

/-- The text ends in a pair of quotes. -/
def endsInPair (q : UInt8) : Str → Bool
  | [] | [_] => false
  | c :: d :: s =>
    if c ≠ q then endsInPair q (d :: s)
    else if d = q then s.isEmpty || endsInPair q s
    else false

theorem literalLength_pos {q : UInt8} {s : Str} {n : Nat} (h : literalLength q s = some n) : 1 ≤ n := by
  fun_induction literalLength q s generalizing n with
  | case1 | case3 => cases h
  | case2 | case6 =>
    obtain rfl := Option.some.inj h
    exact Nat.le_refl 1
  | case4 | case5 =>
    obtain ⟨m, -, rfl⟩ := Option.map_eq_some_iff.mp h
    omega

theorem two_le_of_endsInPair {q : UInt8} {s : Str} (h : endsInPair q s = true) : 2 ≤ s.length := by
  fun_cases endsInPair q s with
  | case1 | case2 => cases h
  | _ => simp

section

variable {q c : UInt8} {s : Str}

theorem literalLength_cons_ne (h : c ≠ q) : literalLength q (c :: s) = (literalLength q s).map (· + 1) := by
  cases s with
  | nil => simp [literalLength, h]
  | cons d s => rw [literalLength, if_pos h]

theorem literalLength_pair : literalLength q (q :: q :: s) = (literalLength q s).map (· + 2) := by
  rw [literalLength, if_neg (fun h => h rfl), if_pos rfl]

theorem literalLength_closing (h : s.head? ≠ some q) : literalLength q (q :: s) = some 1 := by
  cases s with
  | nil => rw [literalLength, if_pos rfl]
  | cons d s => rw [literalLength, if_neg (fun h => h rfl), if_neg (fun hd => h (congrArg some hd))]

theorem endsInPair_cons_ne (h : c ≠ q) : endsInPair q (c :: s) = endsInPair q s := by
  cases s with
  | nil => rfl
  | cons d s => rw [endsInPair, if_pos h]

theorem endsInPair_pair : endsInPair q (q :: q :: s) = (s.isEmpty || endsInPair q s) := by
  rw [endsInPair, if_neg (fun h => h rfl), if_pos rfl]

end

theorem drop_eq_cons {pos : Nat} (h : pos < l.sql.length) : l.sql.drop pos = l.charAt pos :: l.sql.drop (pos + 1) := by
  rw [List.drop_eq_getElem_cons h, charAt, List.getD_eq_getElem?_getD, List.getElem?_eq_getElem h]
  rfl

/-- The same end, from `k` characters before. -/
theorem closes_moved {f : Option Nat} {pos k e : Nat} {p : Prop} :
    ((∃ n, f = some n ∧ e = pos + k + n) ∨ f = none ∧ p) ↔
      (∃ n, f.map (· + k) = some n ∧ e = pos + n) ∨ f.map (· + k) = none ∧ p := by
  cases f with
  | none => simp
  | some m =>
    simp
    omega

/-- Where a literal that opens at `pos` ends: at its first unpaired quote, or
with the text, at the first quote of a pair. -/
def ClosesAt (q : UInt8) (pos e : Nat) : Prop :=
  e < l.limit ∧ ((∃ n, literalLength q (l.sql.drop (pos + 1)) = some n ∧ e = pos + n) ∨
    (literalLength q (l.sql.drop (pos + 1)) = none ∧ endsInPair q (l.sql.drop (pos + 1)) = true ∧ e + 2 = l.sql.length))

/-- Behind the limit nothing is closed. -/
theorem not_closesAt {q : UInt8} {pos e : Nat} (h : l.limit ≤ pos + 1) : ¬ l.ClosesAt q pos e := by
  rintro ⟨hlt, ⟨n, hn, rfl⟩ | ⟨-, hpair, he⟩⟩
  · have := literalLength_pos hn
    omega
  · have htwo := two_le_of_endsInPair hpair
    rw [List.length_drop] at htwo
    omega

section

variable {q : UInt8} {pos e : Nat}

theorem closesAt_other (h : pos + 1 < l.sql.length) (hq : l.charAt (pos + 1) ≠ q) :
    l.ClosesAt q pos e ↔ l.ClosesAt q (pos + 1) e := by
  rw [ClosesAt, ClosesAt, l.drop_eq_cons h, literalLength_cons_ne hq, endsInPair_cons_ne hq]
  exact and_congr_right fun _ => closes_moved.symm

/-- A pair that is seen is skipped. -/
theorem closesAt_pair (h : pos + 3 < l.sql.length) (hq : l.charAt (pos + 1) = q) (hpair : l.charAt (pos + 2) = q) :
    l.ClosesAt q pos e ↔ l.ClosesAt q (pos + 2) e := by
  have hempty : (l.sql.drop (pos + 3)).isEmpty = false := by
    rw [List.isEmpty_eq_false_iff, ne_eq, List.drop_eq_nil_iff]
    omega
  rw [ClosesAt, ClosesAt, l.drop_eq_cons (by omega : pos + 1 < l.sql.length), hq,
    l.drop_eq_cons (by omega : pos + 1 + 1 < l.sql.length), hpair, literalLength_pair, endsInPair_pair, hempty,
    Bool.false_or]
  exact and_congr_right fun _ => closes_moved.symm

/-- A pair at the end of the text is not seen as one. -/
theorem closesAt_lastPair (h : pos + 3 = l.sql.length) (hq : l.charAt (pos + 1) = q) (hpair : l.charAt (pos + 2) = q) :
    l.ClosesAt q pos e ↔ e < l.limit ∧ e = pos + 1 := by
  have hempty : l.sql.drop (pos + 1 + 1 + 1) = [] := List.drop_eq_nil_of_le (by omega)
  rw [ClosesAt, l.drop_eq_cons (by omega : pos + 1 < l.sql.length), hq,
    l.drop_eq_cons (by omega : pos + 1 + 1 < l.sql.length), hpair, literalLength_pair, endsInPair_pair, hempty]
  simp [literalLength]
  omega

theorem closesAt_closing (h : pos + 1 < l.sql.length) (hq : l.charAt (pos + 1) = q)
    (hhead : (l.sql.drop (pos + 2)).head? ≠ some q) : l.ClosesAt q pos e ↔ e < l.limit ∧ e = pos + 1 := by
  rw [ClosesAt, l.drop_eq_cons h, hq, literalLength_closing hhead]
  simp

end

/-- **The loop of a literal.** -/
theorem closeQuote_eq_iff (q : UInt8) {fuel pos e : Nat} (hfuel : l.limit ≤ pos + 1 + fuel) :
    l.closeQuote q fuel pos = (e, true) ↔ l.ClosesAt q pos e := by
  induction fuel generalizing pos with
  | zero =>
    rw [l.closeQuote_eod hfuel]
    exact iff_of_false (by simp) (l.not_closesAt hfuel)
  | succ fuel ih =>
    by_cases hEod : l.limit ≤ pos + 1
    · rw [l.closeQuote_eod hEod]
      exact iff_of_false (by simp) (l.not_closesAt hEod)
    have hlt : pos + 1 < l.limit := by omega
    have hlength : pos + 1 < l.sql.length := Nat.lt_of_lt_of_le hlt l.limit_le_length
    have hstop : (pos + 1, true) = (e, true) ↔ e < l.limit ∧ e = pos + 1 := by
      simp
      omega
    by_cases hq : l.charAt (pos + 1) = q
    · rw [l.closeQuote_quote hlt hq]
      by_cases hmore : pos + 2 < l.sql.length
      · by_cases hpair : l.charAt (pos + 2) = q
        · by_cases hseen : pos + 3 < l.sql.length
          · rw [if_neg (by simp [haveDataAt, hseen, hpair]), ih (by omega), l.closesAt_pair hseen hq hpair]
          · rw [if_pos (by simp [haveDataAt, hseen]), hstop, l.closesAt_lastPair (by omega) hq hpair]
        · have hhead : (l.sql.drop (pos + 2)).head? ≠ some q := by
            rw [l.drop_eq_cons hmore, List.head?_cons, ne_eq, Option.some.injEq]
            exact hpair
          rw [if_pos (by simp [hpair]), hstop, l.closesAt_closing hlength hq hhead]
      · have hnone : ¬ pos + 1 + 2 < l.sql.length := by omega
        have hhead : (l.sql.drop (pos + 2)).head? ≠ some q := by
          rw [List.drop_eq_nil_of_le (by omega)]
          simp
        rw [if_pos (by simp [haveDataAt, hnone]), hstop, l.closesAt_closing hlength hq hhead]
    · rw [l.closeQuote_other hlt hq, ih (by omega), l.closesAt_other hlength hq]

/-! ## Where tokens start -/

/-- Comments and blanks only, from a position to the start of a token. -/
inductive Skips : Nat → Nat → Prop
  | here (pos) : Skips pos pos
  | skip {pos next start} (h : l.scan pos = .skip next) (hr : Skips next start) : Skips pos start

theorem Skips.le {pos start : Nat} (h : l.Skips pos start) : pos ≤ start := by
  induction h with
  | here => exact Nat.le_refl _
  | @skip pos next start hscan _ ih =>
    have hmoves := l.scan_movesOn pos
    rw [hscan] at hmoves
    exact Nat.le_trans (Nat.le_of_lt hmoves) ih

theorem shiftLoop_fuel {n m pos : Nat} (hn : l.limit ≤ pos + n) (hm : n ≤ m) : l.shiftLoop m pos = l.shiftLoop n pos := by
  induction n generalizing m pos with
  | zero => exact l.shiftLoop_eod hn m
  | succ n ih =>
    obtain ⟨m, rfl⟩ : ∃ k, m = k + 1 := ⟨m - 1, by omega⟩
    by_cases hEod : l.limit ≤ pos
    · rw [l.shiftLoop_eod hEod, l.shiftLoop_eod hEod]
    rw [l.shiftLoop_round (by omega), l.shiftLoop_round (by omega)]
    have hmoves := l.scan_movesOn pos
    split
    next next hscan =>
      rw [hscan] at hmoves
      have hmove : pos < next := hmoves
      exact ih (by omega) (by omega)
    · rfl
    · rfl

/-- What is skipped does not matter. -/
theorem shiftLoop_of_skips {pos start : Nat} (h : l.Skips pos start) :
    l.shiftLoop (l.limit - pos) pos = l.shiftLoop (l.limit - start) start := by
  induction h with
  | here => rfl
  | @skip pos next start hscan hr ih =>
    have hmoves := l.scan_movesOn pos
    rw [hscan] at hmoves
    have hmove : pos < next := hmoves
    rw [← ih]
    by_cases hEod : l.limit ≤ pos
    · rw [l.shiftLoop_eod hEod, l.shiftLoop_eod (by omega)]
    · obtain ⟨k, hk⟩ : ∃ k, l.limit - pos = k + 1 := ⟨l.limit - pos - 1, by omega⟩
      rw [hk, l.shiftLoop_round (by omega), hscan]
      exact l.shiftLoop_fuel (by omega) (by omega)

/-! ## Literals of a text -/

def literalType (q : UInt8) : TokenType := if q = 34 then .quoted else .string

/-- The error of a literal that is not closed. -/
def unclosedLiteral (q : UInt8) : OdbcError :=
  ⟨.sHY000GeneralError, ascii (if q = 34 then "Unclosed quoted identifier." else "Unclosed string literal.")⟩

/-- `Shift` returns the literal that starts there up to its first unpaired
quote, or the error if there is none. -/
def ReadsLiteral (start : Nat) (q : UInt8) : Prop :=
  match literalLength q (l.sql.drop (start + 1)) with
  | some n =>
    l.shift = ({ l with
      pos := start + n + 1
      currentToken := ⟨(l.sql.take (start + n + 1)).drop start, literalType q⟩ }, .ok true)
  | none => l.shift.2 = .error (unclosedLiteral q)

/-- The quote is where the lexer sees it; if there is none, the text does not
end in a pair that the lexer sees. -/
def LiteralSafe (start : Nat) (q : UInt8) : Prop :=
  match literalLength q (l.sql.drop (start + 1)) with
  | some n => start + n < l.limit
  | none => start < l.limit ∧ ¬ (endsInPair q (l.sql.drop (start + 1)) = true ∧ l.sql.length < l.limit + 2)

theorem scan_quote {pos : Nat} {q : UInt8} (hc : l.charAt pos = q) (hq : q = 34 ∨ q = 39) :
    ∃ message, l.scan pos = l.scanQuoted q (literalType q) message pos ∧
      unclosedLiteral q = ⟨.sHY000GeneralError, ascii message⟩ := by
  rcases hq with rfl | rfl
  · exact ⟨"Unclosed quoted identifier.", by simp [scan, hc, literalType], by simp [unclosedLiteral]⟩
  · exact ⟨"Unclosed string literal.", by simp [scan, hc, literalType], by simp [unclosedLiteral]⟩

/-- **Literals** are read as they should be just where they are safe. -/
theorem readsLiteral_iff {start : Nat} {q : UInt8} (hskips : l.Skips l.pos start) (hc : l.charAt start = q)
    (hq : q = 34 ∨ q = 39) : l.ReadsLiteral start q ↔ l.LiteralSafe start q := by
  have hshift : l.shift = l.shiftLoop (l.limit - start) start := l.shiftLoop_of_skips hskips
  by_cases hEod : l.limit ≤ start
  · -- nothing is seen there
    rw [l.shiftLoop_eod hEod] at hshift
    rw [ReadsLiteral, LiteralSafe, hshift]
    cases literalLength q (l.sql.drop (start + 1)) with
    | none => exact iff_of_false (by simp) (by omega)
    | some n => exact iff_of_false (by simp) (by simp only; omega)
  obtain ⟨message, hscan, hmessage⟩ := l.scan_quote hc hq
  obtain ⟨k, hk⟩ : ∃ k, l.limit - start = k + 1 := ⟨l.limit - start - 1, by omega⟩
  rw [hk, l.shiftLoop_round (by omega), hscan, scanQuoted] at hshift
  have hclose : ∀ {e}, l.closeQuote q (l.limit - start) start = (e, true) ↔ l.ClosesAt q start e :=
    l.closeQuote_eq_iff q (by omega)
  rw [ReadsLiteral, LiteralSafe, hshift]
  rcases hr : l.closeQuote q (l.limit - start) start with ⟨e, closed⟩
  cases closed with
  | false =>
    have hnot : ∀ e', ¬ l.ClosesAt q start e' := by
      intro e' h
      rw [hclose.mpr h] at hr
      cases hr
    cases hlength : literalLength q (l.sql.drop (start + 1)) with
    | none =>
      refine iff_of_true (by rw [hmessage]) ⟨by omega, fun hunsafe => ?_⟩
      obtain ⟨hpair, hlt⟩ := hunsafe
      have htwo := two_le_of_endsInPair hpair
      rw [List.length_drop] at htwo
      exact hnot (l.sql.length - 2) ⟨by omega, .inr ⟨hlength, hpair, by omega⟩⟩
    | some n => exact iff_of_false (by simp) fun hlt => hnot (start + n) ⟨hlt, .inl ⟨n, hlength, rfl⟩⟩
  | true =>
    obtain ⟨hlt, hend⟩ := hclose.mp hr
    cases hlength : literalLength q (l.sql.drop (start + 1)) with
    | none =>
      rcases hend with ⟨n, hn, -⟩ | ⟨-, hpair, he⟩
      · rw [hlength] at hn
        cases hn
      · exact iff_of_false (by simp) fun hsafe => hsafe.2 ⟨hpair, by omega⟩
    | some n =>
      rcases hend with ⟨m, hm, rfl⟩ | ⟨hnone, -⟩
      · obtain rfl : n = m := Option.some.inj (hlength.symm.trans hm)
        exact iff_of_true rfl hlt
      · rw [hlength] at hnone
        cases hnone

/-! ## A whole scan -/

/-- The tokens of so many calls of `Shift`, up to the first that does not
return true. -/
def tokens : Nat → SqlLexer → List SqlToken
  | 0, _ => []
  | n + 1, l => if l.shift.2 = .ok true then l.shift.1.currentToken :: tokens n l.shift.1 else []

/-- Disjoint parts of the text behind a position, in order. -/
inductive InOrder (sql : Str) : Nat → List SqlToken → Prop
  | nil (pos) : InOrder sql pos []
  | cons {pos start stop token tokens} (hstart : pos ≤ start) (hstop : start ≤ stop) (hle : stop ≤ sql.length)
    (htext : token.text = (sql.take stop).drop start) (hr : InOrder sql stop tokens) : InOrder sql pos (token :: tokens)

theorem tokens_inOrder (n : Nat) (l : SqlLexer) : InOrder l.sql l.pos (tokens n l) := by
  induction n generalizing l with
  | zero => exact .nil _
  | succ n ih =>
    rw [tokens]
    split
    next hr =>
      have hreads := l.shift_reads
      obtain ⟨start, hle, -, hscan, hsql, htext⟩ := l.shiftLoop_spec (Prod.ext rfl hr : l.shift = (l.shift.1, .ok true))
      have hmoves := l.scan_movesOn start
      rw [hscan] at hmoves
      have hrest := ih l.shift.1
      rw [hsql] at hrest
      exact .cons hle hmoves.1 hreads.bounded htext hrest
    next => exact .nil _

/-- **Literals.** A literal is read to its first unpaired quote, or is an error
without one, just where the lexer sees that quote, or there is none and the text
does not end in a pair; the tokens of a scan are disjoint parts of the text in
order. -/
theorem shift_literal_iff (l : SqlLexer) {start : Nat} {q : UInt8} (hskips : l.Skips l.pos start)
    (hc : l.charAt start = q) (hq : q = 34 ∨ q = 39) :
    (l.ReadsLiteral start q ↔ l.LiteralSafe start q) ∧ ∀ n, InOrder l.sql l.pos (tokens n l) :=
  ⟨l.readsLiteral_iff hskips hc hq, fun n => tokens_inOrder n l⟩

/-- An escaped quote in the middle. -/
theorem shift_literal_escaped :
    shift { sql := ascii " 'it''s' x" } =
      (⟨ascii " 'it''s' x", 8, ⟨ascii "'it''s'", .string⟩⟩, .ok true) := by
  have hskips : Skips { sql := ascii " 'it''s' x" } 0 1 := .skip (by decide : _ = Lexeme.skip 1) (.here 1)
  have hsafe : LiteralSafe { sql := ascii " 'it''s' x" } 1 39 := (by decide : 1 + 6 < limit { sql := ascii " 'it''s' x" })
  exact (shift_literal_iff { sql := ascii " 'it''s' x" } hskips (by decide) (.inr rfl)).1.mpr hsafe

/-- A pair at the end of the text, which is taken for the end of the literal. -/
theorem shift_literal_not_read :
    ¬ ∀ (l : SqlLexer) (start : Nat) (q : UInt8), l.Skips l.pos start → l.charAt start = q → q = 34 ∨ q = 39 →
      l.ReadsLiteral start q := by
  intro h
  have hread : (shift { sql := ascii "'a''" }).2 = .error (unclosedLiteral 39) :=
    h { sql := ascii "'a''" } 0 39 (.here 0) (by decide) (.inr rfl)
  exact absurd hread (by decide)

end SqlLexer

end DocumentDbOdbc
