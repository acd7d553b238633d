/-
The pre-check for internal commands and the parser.

Both walk over the same lexer and skip semicolons. Their rounds agree
(`isInternalCommandLoop_iff`), so the pre-check accepts a text just when the
parser gets as far as `SqlSetStreamingCommand::Parse`. The loops end: a
semicolon and the name of an option are not empty, so `Shift` has moved on
(`shift_spec`), and more fuel than there are characters changes nothing.
-/
import DocumentDbOdbc.SqlParser

namespace DocumentDbOdbc

/-! ## Throwing -/

section Throwing

variable {ε α β : Type}

@[simp] theorem ok_bind (a : α) (f : α → Except ε β) : (Except.ok a >>= f) = f a := rfl

@[simp] theorem error_bind (e : ε) (f : α → Except ε β) : (Except.error e >>= f) = .error e := rfl

@[simp] theorem pure_eq_ok (a : α) : (pure a : Except ε α) = .ok a := rfl

@[simp] theorem throw_eq_error (e : ε) : (throw e : Except ε α) = .error e := rfl

theorem bind_eq_ok {x : Except ε α} {f : α → Except ε β} {b : β} :
    (x >>= f) = .ok b ↔ ∃ a, x = .ok a ∧ f a = .ok b := by
  cases x <;> simp

end Throwing

/-- Where a lexeme ends: only a word can be empty. -/
def Lexeme.MovesOn (pos : Nat) : Lexeme → Prop
  | .skip next => pos < next
  | .token type next => pos ≤ next ∧ (type ≠ .word → pos < next)
  | .unclosed next _ => pos < next

namespace SqlLexer

variable (l : SqlLexer)

/-! ## Moving on -/

theorem lt_closeQuote (q : UInt8) (fuel pos : Nat) : pos < (l.closeQuote q fuel pos).1 := by
  induction fuel generalizing pos with
  | zero => exact Nat.lt_succ_self pos
  | succ fuel ih =>
    rw [closeQuote]
    split
    · exact Nat.lt_succ_self pos
    split
    · split
      · exact Nat.lt_succ_self pos
      · exact Nat.lt_trans (by omega) (ih (pos + 2))
    · exact Nat.lt_trans (Nat.lt_succ_self pos) (ih (pos + 1))

section

variable {q : UInt8} {pos : Nat}

/-- No quote is found at the end, however many rounds are left. -/
theorem closeQuote_eod (h : l.limit ≤ pos + 1) (fuel : Nat) : l.closeQuote q fuel pos = (pos + 1, false) := by
  cases fuel with
  | zero => rfl
  | succ fuel => rw [closeQuote, isEodAt, decide_eq_true h, if_pos rfl]

theorem closeQuote_quote (h : pos + 1 < l.limit) (hq : l.charAt (pos + 1) = q) (fuel : Nat) :
    l.closeQuote q (fuel + 1) pos =
      if !l.haveDataAt (pos + 1) 2 || l.charAt (pos + 2) ≠ q then (pos + 1, true) else l.closeQuote q fuel (pos + 2) := by
  rw [closeQuote, isEodAt, decide_eq_false (by omega), if_neg Bool.false_ne_true, if_pos hq]

theorem closeQuote_other (h : pos + 1 < l.limit) (hq : l.charAt (pos + 1) ≠ q) (fuel : Nat) :
    l.closeQuote q (fuel + 1) pos = l.closeQuote q fuel (pos + 1) := by
  rw [closeQuote, isEodAt, decide_eq_false (by omega), if_neg Bool.false_ne_true, if_neg hq]

end

theorem le_skipWhile (p : UInt8 → Bool) (pos : Nat) : pos ≤ l.skipWhile p pos := Nat.le_add_right _ _

theorem scanQuoted_movesOn (q : UInt8) (type : TokenType) (message : String) (pos : Nat) :
    Lexeme.MovesOn pos (l.scanQuoted q type message pos) := by
  have h := l.lt_closeQuote q (l.limit - pos) pos
  rw [scanQuoted]
  split
  · next next heq =>
    rw [heq] at h
    exact ⟨by omega, fun _ => by omega⟩
  · next next heq =>
    rw [heq] at h
    exact h

/-- The tokens of one character, but for the minus. -/
def singles : List (UInt8 × TokenType) :=
  [(46, .dot), (44, .comma), (59, .semicolon), (40, .parenthesisLeft), (41, .parenthesisRight)]

/-- The branches of the `switch`. -/
inductive Scans (pos : Nat) : Lexeme → Prop
  | comment (hc : l.charAt pos = 45) (hmore : l.haveDataAt pos 1 = true) (hnext : l.charAt (pos + 1) = 45) :
    Scans pos (.skip (l.skipWhile (fun c => c != 10 && c != 13) (pos + 2)))
  | minus (hc : l.charAt pos = 45) (hnext : l.haveDataAt pos 1 = true → l.charAt (pos + 1) ≠ 45) :
    Scans pos (.token .minus (pos + 1))
  | literal {q type message} (hq : (q = 34 ∧ type = .quoted) ∨ (q = 39 ∧ type = .string)) (hc : l.charAt pos = q) :
    Scans pos (l.scanQuoted q type message pos)
  | single {c type} (h : (c, type) ∈ singles) (hc : l.charAt pos = c) : Scans pos (.token type (pos + 1))
  | blank (hc : isBlank (l.charAt pos) = true) : Scans pos (.skip (l.skipWhile isBlank (pos + 1)))
  | word (hb : isBlank (l.charAt pos) = false)
    (hc : ([45, 34, 39, 46, 44, 59, 40, 41] : List UInt8).contains (l.charAt pos) = false) :
    Scans pos (.token .word (l.skipWhile (fun c => !isDelimiter c) pos))

theorem scan_scans (pos : Nat) : l.Scans pos (l.scan pos) := by
  simp only [scan]
  split
  next hc =>
    split
    next hcomment =>
      rw [Bool.and_eq_true, decide_eq_true_eq] at hcomment
      exact .comment hc hcomment.1 hcomment.2
    next hminus =>
      rw [Bool.and_eq_true, decide_eq_true_eq] at hminus
      exact .minus hc fun hmore hnext => hminus ⟨hmore, hnext⟩
  split
  next hc => exact .literal (.inl ⟨rfl, rfl⟩) hc
  split
  next hc => exact .literal (.inr ⟨rfl, rfl⟩) hc
  split
  next hc => exact .single (by decide) hc
  split
  next hc => exact .single (by decide) hc
  split
  next hc => exact .single (by decide) hc
  split
  next hc => exact .single (by decide) hc
  split
  next hc => exact .single (by decide) hc
  split
  next hc => exact .blank hc
  next h45 h34 h39 h46 h44 h59 h40 h41 hblank =>
    refine .word (by simpa using hblank) ?_
    simp [h45, h34, h39, h46, h44, h59, h40, h41]

theorem Scans.movesOn {pos : Nat} {lexeme : Lexeme} (h : l.Scans pos lexeme) : lexeme.MovesOn pos := by
  cases h with
  | comment => exact Nat.lt_of_lt_of_le (by omega) (l.le_skipWhile _ (pos + 2))
  | literal => exact l.scanQuoted_movesOn ..
  | minus | single => exact ⟨Nat.le_succ pos, fun _ => Nat.lt_succ_self pos⟩
  | blank => exact Nat.lt_of_lt_of_le (Nat.lt_succ_self pos) (l.le_skipWhile _ (pos + 1))
  | word => exact ⟨l.le_skipWhile _ pos, fun h => absurd rfl h⟩

theorem scan_movesOn (pos : Nat) : (l.scan pos).MovesOn pos := (l.scan_scans pos).movesOn

/-- At the end the loop of `Shift` is over, however many rounds are left. -/
theorem shiftLoop_eod {pos : Nat} (h : l.limit ≤ pos) (fuel : Nat) : l.shiftLoop fuel pos = (l.setEod, .ok false) := by
  cases fuel with
  | zero => rfl
  | succ fuel => rw [shiftLoop, isEodAt, decide_eq_true h, if_pos rfl]

/-- Before the end a round handles one lexeme. -/
theorem shiftLoop_round {pos : Nat} (h : pos < l.limit) (fuel : Nat) :
    l.shiftLoop (fuel + 1) pos =
      match l.scan pos with
      | .skip next => l.shiftLoop fuel next
      | .token type next =>
        ({ l with pos := next, currentToken := ⟨(l.sql.take next).drop pos, type⟩ }, .ok true)
      | .unclosed next error => ({ l with pos := next }, .error error) := by
  have hEod : ¬ l.isEodAt pos = true := by
    rw [isEodAt, decide_eq_true_eq]
    omega
  exact if_neg hEod

/-- What a round of `Shift` that finds a token does. -/
theorem shiftLoop_spec {fuel pos : Nat} {l' : SqlLexer} (h : l.shiftLoop fuel pos = (l', .ok true)) :
    ∃ start, pos ≤ start ∧ start < l.limit ∧ l.scan start = .token l'.currentToken.type l'.pos ∧
      l'.sql = l.sql ∧ l'.currentToken.text = (l.sql.take l'.pos).drop start := by
  induction fuel generalizing pos with
  | zero => cases h
  | succ fuel ih =>
    by_cases hEod : l.limit ≤ pos
    · rw [l.shiftLoop_eod hEod] at h
      cases h
    rw [l.shiftLoop_round (by omega)] at h
    split at h
    · next next heq =>
      obtain ⟨start, hle, hrest⟩ := ih h
      have hskip := l.scan_movesOn pos
      rw [heq] at hskip
      exact ⟨start, Nat.le_trans (Nat.le_of_lt hskip) hle, hrest⟩
    · next type next heq =>
      obtain ⟨rfl, -⟩ := Prod.mk.inj h
      exact ⟨pos, Nat.le_refl pos, by omega, heq, rfl, rfl⟩
    · cases h

/-- The same text at the same or a later position. -/
structure Follows (l l' : SqlLexer) : Prop where
  sql : l'.sql = l.sql
  pos : l.pos ≤ l'.pos

theorem Follows.trans {l l' l'' : SqlLexer} (h : Follows l l') (h' : Follows l' l'') : Follows l l'' :=
  ⟨h'.sql.trans h.sql, h.pos.trans h'.pos⟩

/-- The characters left. -/
def left : Nat := l.limit - l.pos

theorem Follows.left_le {l l' : SqlLexer} (h : Follows l l') : l'.left ≤ l.left := by
  have hlimit : l'.limit = l.limit := by rw [limit, h.sql, limit]
  have := h.pos
  rw [left, left, hlimit]
  omega

theorem limit_le_length : l.limit ≤ l.sql.length := by
  have hn : (Int32.ofNat l.sql.length).toInt = (l.sql.length : Int).bmod 4294967296 := Int32.toInt_ofNat'
  rw [limit, hn, Int.bmod_def]
  split <;> omega

/-- **`Shift`** moves on, unless the token is an empty word. -/
theorem shift_spec {l l' : SqlLexer} (h : l.shift = (l', .ok true)) :
    Follows l l' ∧
      (l'.currentToken.type ≠ .word ∨ l'.currentToken.text ≠ [] → l'.left < l.left) := by
  obtain ⟨start, hle, hlt, hscan, hsql, htext⟩ := l.shiftLoop_spec h
  have hmove := l.scan_movesOn start
  rw [hscan] at hmove
  have hlimit : l'.limit = l.limit := by rw [limit, hsql, limit]
  refine ⟨⟨hsql, hle.trans hmove.1⟩, fun hne => ?_⟩
  have hlast : start < l'.pos := by
    rcases hne with hword | hne
    · exact hmove.2 hword
    · by_contra hnot
      refine hne (htext.trans (List.drop_eq_nil_of_le ?_))
      rw [List.length_take]
      omega
  rw [left, left, hlimit]
  omega

theorem shiftOrThrow_eq_ok {l l' : SqlLexer} {hasNext : Bool} (h : l.shiftOrThrow = .ok (l', hasNext)) :
    l.shift = (l', .ok hasNext) := by
  rw [shiftOrThrow] at h
  rcases hs : l.shift with ⟨l'', e | b⟩
  · rw [hs] at h
    cases h
  · rw [hs] at h
    cases h
    rfl

theorem shiftOrThrow_eq_error {l : SqlLexer} {e : OdbcError} (h : l.shiftOrThrow = .error e) :
    ∃ l', l.shift = (l', .error e) := by
  rw [shiftOrThrow] at h
  rcases hs : l.shift with ⟨l', e' | b⟩
  · rw [hs] at h
    cases h
    exact ⟨l', rfl⟩
  · rw [hs] at h
    cases h

end SqlLexer

/-! ## The two walks -/

open SqlLexer SqlParser

/-- `ProcessCommand` gets to `Parse` just when the pre-check finds the second
word. -/
theorem processCommand_iff (l : SqlLexer) :
    (∃ l', processCommand l = .ok l') ↔
      l.currentToken.toLower = ascii "set" ∧ l.expectNextToken .word (ascii "streaming") = true := by
  rw [processCommand, expectNextToken]
  by_cases hset : l.currentToken.toLower = ascii "set"
  · rw [if_pos hset]
    cases hs : l.shiftOrThrow with
    | error e =>
      obtain ⟨l', hl'⟩ := shiftOrThrow_eq_error hs
      simp [hl']
    | ok r =>
      obtain ⟨l', hasNext⟩ := r
      rw [shiftOrThrow_eq_ok hs]
      cases hasNext with
      | false => simp
      | true =>
        by_cases hw : l'.currentToken.type = .word ∧ l'.currentToken.toLower = ascii "streaming"
        · simp [hset, hw]
        · simp [hw]
  · simp [hset]

/-- One round of both walks and the rounds after it. -/
theorem isInternalCommandLoop_iff (fuel : Nat) (l : SqlLexer) :
    isInternalCommandLoop fuel l = true ↔ ∃ l', findCommand fuel l = .ok (some l') := by
  induction fuel generalizing l with
  | zero => simp [isInternalCommandLoop, findCommand]
  | succ fuel ih =>
    rw [isInternalCommandLoop, findCommand]
    cases hs : l.shiftOrThrow with
    | error e =>
      obtain ⟨l', hl'⟩ := shiftOrThrow_eq_error hs
      simp [hl']
    | ok r =>
      obtain ⟨l', hasNext⟩ := r
      rw [shiftOrThrow_eq_ok hs]
      cases hasNext with
      | false => simp
      | true =>
        simp only [ok_bind, Bool.not_true, Bool.false_eq_true, if_false]
        cases htype : l'.currentToken.type with
        | semicolon => simpa using ih l'
        | word =>
          have hfound : (∃ l'', (processCommand l' >>= fun a => Except.ok (some a)) = .ok (some l'')) ↔
              ∃ l'', processCommand l' = .ok l'' := by
            cases processCommand l' <;> simp
          simpa using (hfound.trans (processCommand_iff l')).symm
        | _ => simp

/-! ## The loops end -/

theorem findCommand_fuel {n m : Nat} {l : SqlLexer} (hn : l.left < n) (hm : n ≤ m) :
    findCommand m l = findCommand n l := by
  induction n generalizing m l with
  | zero => exact absurd hn (Nat.not_lt_zero _)
  | succ n ih =>
    obtain ⟨m, rfl⟩ : ∃ k, m = k + 1 := ⟨m - 1, by omega⟩
    rw [findCommand, findCommand]
    cases hs : l.shiftOrThrow with
    | error e => rfl
    | ok r =>
      obtain ⟨l', hasNext⟩ := r
      cases hasNext with
      | false => rfl
      | true =>
        simp only [ok_bind, Bool.not_true, Bool.false_eq_true, if_false]
        cases htype : l'.currentToken.type with
        | semicolon =>
          have hless := (shift_spec (shiftOrThrow_eq_ok hs)).2 (.inl (by simp [htype]))
          exact ih (by omega) (by omega)
        | _ => rfl

theorem isInternalCommandLoop_fuel {n m : Nat} {l : SqlLexer} (hn : l.left < n) (hm : n ≤ m) :
    isInternalCommandLoop m l = isInternalCommandLoop n l := by
  rw [Bool.eq_iff_iff, isInternalCommandLoop_iff, isInternalCommandLoop_iff, findCommand_fuel hn hm]

namespace SqlSetStreamingCommand

theorem expectBool_follows {l : SqlLexer} {r : SqlLexer × Bool} (h : expectBool l = .ok r) :
    Follows l r.1 := by
  obtain ⟨⟨l', hasNext⟩, hs, h⟩ := bind_eq_ok.mp h
  cases hasNext with
  | false => cases h
  | true =>
    obtain ⟨b, -, h⟩ := bind_eq_ok.mp h
    cases h
    exact (shift_spec (shiftOrThrow_eq_ok hs)).1

theorem expectSign_follows {l : SqlLexer} {r : SqlLexer × Int} (h : expectSign l = .ok r) : Follows l r.1 := by
  rw [expectSign] at h
  split at h
  · obtain ⟨⟨l', hasNext⟩, hs, h⟩ := bind_eq_ok.mp h
    cases hasNext with
    | false => cases h
    | true =>
      cases h
      exact (shift_spec (shiftOrThrow_eq_ok hs)).1
  · cases h
    exact ⟨rfl, Nat.le_refl _⟩

theorem expectInt_follows {indeterminate : Int} {l : SqlLexer} {r : SqlLexer × Int32}
    (h : expectInt indeterminate l = .ok r) : Follows l r.1 := by
  obtain ⟨⟨l', hasNext⟩, hs, h⟩ := bind_eq_ok.mp h
  cases hasNext with
  | false => cases h
  | true =>
    obtain ⟨⟨l'', sign⟩, hsign, h⟩ := bind_eq_ok.mp h
    dsimp only at h
    split at h
    · cases h
      exact (shift_spec (shiftOrThrow_eq_ok hs)).1.trans (expectSign_follows hsign)
    · cases h

theorem expectPositiveInteger_follows {indeterminate : Int} {l : SqlLexer} {description : String}
    {r : SqlLexer × Int32} (h : expectPositiveInteger indeterminate l description = .ok r) :
    Follows l r.1 := by
  obtain ⟨⟨l', n⟩, hInt, h⟩ := bind_eq_ok.mp h
  dsimp only at h
  split at h
  · cases h
  · cases h
    exact expectInt_follows hInt

/-- The value of an option is read after its check, and nothing behind it. -/
theorem optionValue_follows {α : Type} {check : Except OdbcError Unit} {l : SqlLexer}
    {value : Except OdbcError (SqlLexer × α)} {f : SqlLexer × α → Except OdbcError (SqlSetStreamingCommand × SqlLexer)}
    {r : SqlSetStreamingCommand × SqlLexer} (hvalue : ∀ {v}, value = .ok v → Follows l v.1)
    (hf : ∀ {v r}, f v = .ok r → r.2 = v.1) (h : (check >>= fun _ => value >>= f) = .ok r) : Follows l r.2 := by
  obtain ⟨-, -, h⟩ := bind_eq_ok.mp h
  obtain ⟨v, hv, h⟩ := bind_eq_ok.mp h
  rw [hf h]
  exact hvalue hv

/-- An option has a name, and what follows it is behind it. -/
theorem parseOption_spec {indeterminate : Int} {cmd : SqlSetStreamingCommand} {l : SqlLexer}
    {r : SqlSetStreamingCommand × SqlLexer} (h : parseOption indeterminate cmd l = .ok r) :
    l.currentToken.text ≠ [] ∧ Follows l r.2 := by
  have hname : ∀ name : Str, name ≠ [] → l.currentToken.toLower = name → l.currentToken.text ≠ [] := by
    rintro name hne rfl htext
    exact hne (by rw [SqlToken.toLower, htext]; rfl)
  simp only [parseOption] at h
  split at h
  · next hn => exact ⟨hname _ (by decide) hn, optionValue_follows expectPositiveInteger_follows (by rintro _ _ ⟨⟩; rfl) h⟩
  split at h
  · next hn => exact ⟨hname _ (by decide) hn, optionValue_follows expectPositiveInteger_follows (by rintro _ _ ⟨⟩; rfl) h⟩
  split at h
  · next hn => exact ⟨hname _ (by decide) hn, optionValue_follows expectPositiveInteger_follows (by rintro _ _ ⟨⟩; rfl) h⟩
  split at h
  · next hn => exact ⟨hname _ (by decide) hn, optionValue_follows expectBool_follows (by rintro _ _ ⟨⟩; rfl) h⟩
  split at h
  · next hn => exact ⟨hname _ (by decide) hn, optionValue_follows expectPositiveInteger_follows (by rintro _ _ ⟨⟩; rfl) h⟩
  split at h
  · next hn =>
    obtain ⟨-, -, h⟩ := bind_eq_ok.mp h
    cases h
    exact ⟨hname _ (by decide) hn, rfl, Nat.le_refl _⟩
  · cases h

/-- A round that reads an option leaves less. -/
theorem left_lt_of_parseOption {indeterminate : Int} {cmd cmd' : SqlSetStreamingCommand} {l l₁ l₂ : SqlLexer}
    (hs : l.shift = (l₁, .ok true)) (h : parseOption indeterminate cmd l₁ = .ok (cmd', l₂)) : l₂.left < l.left := by
  obtain ⟨htext, hfollows⟩ := parseOption_spec h
  exact Nat.lt_of_le_of_lt hfollows.left_le ((shift_spec hs).2 (.inr htext))

theorem parseLoop_fuel {indeterminate : Int} {n m : Nat} {cmd : SqlSetStreamingCommand} {l : SqlLexer}
    (hn : l.left < n) (hm : n ≤ m) : parseLoop indeterminate m cmd l = parseLoop indeterminate n cmd l := by
  induction n generalizing m cmd l with
  | zero => exact absurd hn (Nat.not_lt_zero _)
  | succ n ih =>
    obtain ⟨m, rfl⟩ : ∃ k, m = k + 1 := ⟨m - 1, by omega⟩
    rw [parseLoop, parseLoop]
    cases hs : l.shiftOrThrow with
    | error e => rfl
    | ok r =>
      obtain ⟨l', hasNext⟩ := r
      simp only [ok_bind]
      split
      · next hmore =>
        cases hp : parseOption indeterminate cmd l' with
        | error e => rfl
        | ok r =>
          obtain ⟨cmd', l''⟩ := r
          obtain rfl : hasNext = true := (Bool.and_eq_true_iff.mp hmore).1
          have hless := left_lt_of_parseOption (shiftOrThrow_eq_ok hs) hp
          exact ih (l := l'') (by omega) (by omega)
      · rfl

end SqlSetStreamingCommand

/-- More rounds than characters change nothing: the loops have ended. -/
def LoopsEnd (indeterminate : Int) (sql : Str) : Prop :=
  ∀ fuel, sql.length < fuel →
    isInternalCommandLoop fuel { sql } = isInternalCommand sql ∧ findCommand fuel { sql } = find sql ∧
    ∀ cmd l, l.sql = sql → SqlSetStreamingCommand.parseLoop indeterminate fuel cmd l =
      SqlSetStreamingCommand.parseLoop indeterminate (sql.length + 1) cmd l

theorem left_lt (l : SqlLexer) : l.left < l.sql.length + 1 := by
  have := l.limit_le_length
  rw [left]
  omega

theorem loopsEnd (indeterminate : Int) (sql : Str) : LoopsEnd indeterminate sql := by
  intro fuel hfuel
  refine ⟨isInternalCommandLoop_fuel (left_lt { sql }) hfuel, findCommand_fuel (left_lt { sql }) hfuel, ?_⟩
  rintro cmd l rfl
  exact SqlSetStreamingCommand.parseLoop_fuel (left_lt l) hfuel

/-! ## Preparing a query -/

/-- **The pre-check agrees with the parser**, and a command it lets through is
never null. -/
theorem isInternalCommand_iff (sql : Str) (indeterminate : Int) :
    (isInternalCommand sql = true ↔ ∃ l, find sql = .ok (some l)) ∧
    (isInternalCommand sql = true →
      (∃ cmd, getNextCommand indeterminate sql = .ok (some cmd)) ∨
        ∃ err, getNextCommand indeterminate sql = .error err) ∧
    internalPrepareSqlQuery indeterminate sql ≠ .assertionFailed ∧ LoopsEnd indeterminate sql := by
  have hiff : isInternalCommand sql = true ↔ ∃ l, find sql = .ok (some l) :=
    isInternalCommandLoop_iff _ _
  have hnext : isInternalCommand sql = true →
      (∃ cmd, getNextCommand indeterminate sql = .ok (some cmd)) ∨
        ∃ err, getNextCommand indeterminate sql = .error err := by
    intro h
    obtain ⟨l, hl⟩ := hiff.mp h
    rw [getNextCommand, hl]
    cases hp : SqlSetStreamingCommand.parse indeterminate l with
    | error err => exact .inr ⟨err, by simp [hp]⟩
    | ok r => exact .inl ⟨r.1, by simp [hp]⟩
  refine ⟨hiff, hnext, ?_, loopsEnd indeterminate sql⟩
  rw [internalPrepareSqlQuery]
  split
  · next h =>
    rw [processInternalCommand]
    rcases hnext h with ⟨cmd, hcmd⟩ | ⟨err, herr⟩
    · simp [hcmd]
    · simp [herr]
  · simp

end DocumentDbOdbc
