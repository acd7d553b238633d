/-
The grammar of `SET STREAMING`, and that `Parse` accepts just its sentences.

A sentence is what stands before the first semicolon or the end (`Upto`). An
option is spelled by its name and, but for one, a value. Where `Parse` reads a
value off a character that starts no token, the lexer stands still there, and
the next round throws (`Stuck`); otherwise every round reads one option
(`parseOption_reads`), which gives `parse_accepts_iff`.
-/
import DocumentDbOdbc.SqlParserFacts

namespace DocumentDbOdbc

open SqlLexer

/-! ## Sentences -/

/-- The tokens before the first semicolon or the end of the text. -/
inductive Upto : SqlLexer → List SqlToken → Prop
  | eod {l} (h : l.shift.2 = .ok false) : Upto l []
  | semicolon {l} (h : l.shift.2 = .ok true) (hs : l.shift.1.currentToken.type = .semicolon) : Upto l []
  | token {l tokens} (h : l.shift.2 = .ok true) (hs : l.shift.1.currentToken.type ≠ .semicolon)
    (hr : Upto l.shift.1 tokens) : Upto l (l.shift.1.currentToken :: tokens)

/-- `1` and `ON`, or `0` and `OFF`. -/
def SpellsBool (b : Bool) (token : SqlToken) : Prop :=
  if b then token.toLower = ascii "1" ∨ token.toLower = ascii "on"
  else token.toLower = ascii "0" ∨ token.toLower = ascii "off"

/-- A numeral of a number from 1 to `INT32_MAX`. -/
structure SpellsPositive (n : Nat) (token : SqlToken) : Prop where
  word : token.type = .word
  digits : allDigits token.text = true
  value : Numeral.numeralValue token.text = n
  pos : 1 ≤ n
  le : n ≤ int32Max

/-- The options with a number. -/
inductive NumberOption where
  | batchSize | perNodeBufferSize | perNodeParallelOperations | flushFrequency
  deriving DecidableEq, Repr

/-- `WORD_…`. -/
def NumberOption.name : NumberOption → Str
  | .batchSize => ascii "batch_size"
  | .perNodeBufferSize => ascii "per_node_buffer_size"
  | .perNodeParallelOperations => ascii "per_node_parallel_operations"
  | .flushFrequency => ascii "flush_frequency"

inductive StreamingOption where
  | ordered
  | allowOverwrite (b : Bool)
  | number (o : NumberOption) (n : Nat)
  deriving DecidableEq, Repr

/-- The tokens of an option. -/
inductive Spells : StreamingOption → List SqlToken → Prop
  | ordered {name} (h : name.toLower = ascii "ordered") : Spells .ordered [name]
  | allowOverwrite {name value b} (h : name.toLower = ascii "allow_overwrite") (hv : SpellsBool b value) :
    Spells (.allowOverwrite b) [name, value]
  | number {name value o n} (h : name.toLower = NumberOption.name o) (hv : SpellsPositive n value) :
    Spells (.number o n) [name, value]

/-- The tokens of options, one after the other. -/
inductive SpellsAll : List StreamingOption → List SqlToken → Prop
  | nil : SpellsAll [] []
  | cons {o os tokens rest} (h : Spells o tokens) (hr : SpellsAll os rest) : SpellsAll (o :: os) (tokens ++ rest)

/-- A sentence behind `SET STREAMING`. -/
inductive Sentence : Bool → List StreamingOption → List SqlToken → Prop
  | mk {enabled options token tokens} (h : SpellsBool enabled token) (hr : SpellsAll options tokens)
    (hoff : enabled = false → options = []) : Sentence enabled options (token :: tokens)

/-! ## Settings -/

namespace StreamingOption

def isOrdered : StreamingOption → Bool
  | .ordered => true
  | _ => false

/-- The value of an `ALLOW_OVERWRITE`. -/
def overwriteGiven : StreamingOption → Option Bool
  | .allowOverwrite b => some b
  | _ => none

/-- The value of this option with a number. -/
def numberGiven (o : NumberOption) : StreamingOption → Option Nat
  | .number o' n => if o' = o then some n else none
  | _ => none

end StreamingOption

open StreamingOption

/-- The last value the options give, or the default. -/
def lastOr {α : Type} (f : StreamingOption → Option α) (default : α) (options : List StreamingOption) : α :=
  ((options.filterMap f).getLast?).getD default

/-- The command of a sentence: every setting is that of its last option. -/
def settings (enabled : Bool) (options : List StreamingOption) : SqlSetStreamingCommand where
  enabled
  allowOverwrite := lastOr overwriteGiven false options
  batchSize := .ofNat (lastOr (numberGiven .batchSize) 2048 options)
  parallelOpsPerNode := .ofNat (lastOr (numberGiven .perNodeParallelOperations) 0 options)
  bufferSizePerNode := .ofNat (lastOr (numberGiven .perNodeBufferSize) 0 options)
  flushFrequency := .ofNat (lastOr (numberGiven .flushFrequency) 0 options)
  ordered := options.any isOrdered

/-- The two lists differ in the order of different options at most. -/
structure SameOptions (options options' : List StreamingOption) : Prop where
  ordered : .ordered ∈ options ↔ .ordered ∈ options'
  overwrite : options.filterMap overwriteGiven = options'.filterMap overwriteGiven
  number : ∀ o, options.filterMap (numberGiven o) = options'.filterMap (numberGiven o)

theorem any_isOrdered (options : List StreamingOption) : options.any isOrdered = decide (.ordered ∈ options) := by
  rw [Bool.eq_iff_iff, List.any_eq_true, decide_eq_true_iff]
  constructor
  · rintro ⟨o, ho, hordered⟩
    cases o with
    | ordered => exact ho
    | allowOverwrite | number => cases hordered
  · exact fun h => ⟨_, h, rfl⟩

/-- **The order** of different options does not matter. -/
theorem settings_eq {options options' : List StreamingOption} (h : SameOptions options options') (enabled : Bool) :
    settings enabled options = settings enabled options' := by
  simp only [settings, lastOr, h.overwrite, h.number, any_isOrdered, h.ordered]

/-- What one option does to a command. -/
def StreamingOption.apply (cmd : SqlSetStreamingCommand) : StreamingOption → SqlSetStreamingCommand
  | .ordered => { cmd with ordered := true }
  | .allowOverwrite b => { cmd with allowOverwrite := b }
  | .number .batchSize n => { cmd with batchSize := .ofNat n }
  | .number .perNodeBufferSize n => { cmd with bufferSizePerNode := .ofNat n }
  | .number .perNodeParallelOperations n => { cmd with parallelOpsPerNode := .ofNat n }
  | .number .flushFrequency n => { cmd with flushFrequency := .ofNat n }

theorem lastOr_concat {α : Type} (f : StreamingOption → Option α) (default : α) (options : List StreamingOption)
    (o : StreamingOption) : lastOr f default (options ++ [o]) = (f o).getD (lastOr f default options) := by
  rw [lastOr, List.filterMap_append]
  cases h : f o with
  | none => simp [h, lastOr]
  | some v => simp [h]

/-- The options are applied one after the other. -/
theorem foldl_apply (enabled : Bool) (options : List StreamingOption) :
    options.foldl StreamingOption.apply { enabled } = settings enabled options := by
  induction options using List.reverseRecOn with
  | nil => rfl
  | append_singleton options o ih =>
    rw [List.foldl_append, ih]
    cases o with
    | ordered => simp [StreamingOption.apply, settings, lastOr_concat, overwriteGiven, numberGiven, isOrdered]
    | allowOverwrite b => simp [StreamingOption.apply, settings, lastOr_concat, overwriteGiven, numberGiven, isOrdered]
    | number o n => cases o <;> simp [StreamingOption.apply, settings, lastOr_concat, overwriteGiven, numberGiven, isOrdered]

/-! ## Reading tokens -/

theorem shiftOrThrow_eq_ok_iff {l l' : SqlLexer} {hasNext : Bool} :
    l.shiftOrThrow = .ok (l', hasNext) ↔ l.shift = (l', .ok hasNext) := by
  refine ⟨shiftOrThrow_eq_ok, fun h => ?_⟩
  rw [shiftOrThrow, h]
  rfl

section

variable {l l' : SqlLexer}

theorem closeQuote_congr (h : l'.sql = l.sql) (q : UInt8) (fuel pos : Nat) :
    l'.closeQuote q fuel pos = l.closeQuote q fuel pos := by
  obtain ⟨sql, p, t⟩ := l
  obtain ⟨sql', p', t'⟩ := l'
  obtain rfl : sql' = sql := h
  induction fuel generalizing pos with
  | zero => rfl
  | succ fuel ih =>
    rw [closeQuote, closeQuote, ih, ih]
    rfl

/-- A lexeme depends on the text alone. -/
theorem scan_congr (h : l'.sql = l.sql) (pos : Nat) : l'.scan pos = l.scan pos := by
  have hclose := @closeQuote_congr l l' h
  obtain ⟨sql, p, t⟩ := l
  obtain ⟨sql', p', t'⟩ := l'
  obtain rfl : sql' = sql := h
  rw [scan, scan]
  simp only [scanQuoted, hclose]
  rfl

/-- A call that makes an empty token of a character that starts nothing, again
and again. -/
def Stuck (l : SqlLexer) : Prop := l.shift = (l, .ok true) ∧ l.currentToken.text = []

theorem stuck_of_empty (h : l.shift = (l', .ok true)) (ht : l'.currentToken.text = []) : Stuck l' := by
  obtain ⟨start, -, hlt, hscan, hsql, htext⟩ := l.shiftLoop_spec h
  have hmoves := l.scan_movesOn start
  rw [hscan] at hmoves
  have hlength := l.limit_le_length
  have hstart : start = l'.pos := by
    rw [ht, eq_comm, List.drop_eq_nil_iff, List.length_take] at htext
    have := hmoves.1
    omega
  have hlimit : l'.limit = l.limit := by rw [limit, hsql, limit]
  obtain ⟨k, hk⟩ : ∃ k, l'.limit - l'.pos = k + 1 := ⟨l'.limit - l'.pos - 1, by omega⟩
  refine ⟨?_, ht⟩
  rw [shift, hk, l'.shiftLoop_round (by omega), scan_congr hsql, ← hstart, hscan]
  simp only [hstart, hsql]
  rw [hstart, ← hsql] at htext
  rw [← hsql, ← htext]

theorem scanQuoted_eq_token {q : UInt8} {type type' : TokenType} {message : String} {pos next : Nat}
    (h : l.scanQuoted q type message pos = .token type' next) : type' = type := by
  rw [scanQuoted] at h
  split at h <;> cases h
  rfl

theorem SqlLexer.Scans.semicolon {pos next : Nat} {lexeme : Lexeme} (h : l.Scans pos lexeme)
    (hs : lexeme = .token .semicolon next) : l.charAt pos = 59 ∧ next = pos + 1 := by
  cases h with
  | comment | minus | blank | word => cases hs
  | literal hq =>
    rcases hq with ⟨-, rfl⟩ | ⟨-, rfl⟩
    · cases scanQuoted_eq_token hs
    · cases scanQuoted_eq_token hs
  | single h hc =>
    cases hs
    have hAll : ∀ p ∈ singles, p.2 = .semicolon → p.1 = 59 := by decide
    exact ⟨hc.trans (hAll _ h rfl), rfl⟩

theorem text_of_semicolon (h : l.shift = (l', .ok true)) (hs : l'.currentToken.type = .semicolon) :
    l'.currentToken.text = ascii ";" := by
  obtain ⟨start, -, hlt, hscan, -, htext⟩ := l.shiftLoop_spec h
  rw [hs] at hscan
  obtain ⟨hc, hnext⟩ := (l.scan_scans start).semicolon hscan
  have hlength : start < l.sql.length := Nat.lt_of_lt_of_le hlt l.limit_le_length
  have hchar : l.sql[start] = 59 := by
    rw [charAt, List.getD_eq_getElem?_getD, List.getElem?_eq_getElem hlength] at hc
    exact hc
  rw [htext, hnext, List.take_add_one, List.getElem?_eq_getElem hlength, List.drop_append, hchar]
  simp [Nat.min_eq_left hlength.le]
  rfl

end

section

variable {l l' : SqlLexer} {tokens : List SqlToken}

theorem Upto.of_shift (hs : l.shift = (l', .ok true)) (htype : l'.currentToken.type ≠ .semicolon) (h : Upto l' tokens) :
    Upto l (l'.currentToken :: tokens) := by
  obtain rfl : l.shift.1 = l' := congrArg Prod.fst hs
  exact .token (congrArg Prod.snd hs) htype h

theorem Upto.shift_eq {token : SqlToken} (h : Upto l (token :: tokens)) :
    ∃ l', l.shift = (l', .ok true) ∧ l'.currentToken.type ≠ .semicolon ∧ token = l'.currentToken ∧ Upto l' tokens := by
  cases h with
  | token h hs hr => exact ⟨_, Prod.ext rfl h, hs, rfl, hr⟩

theorem Spells.exists_cons {o : StreamingOption} (h : Spells o tokens) : ∃ name values, tokens = name :: values := by
  cases h <;> exact ⟨_, _, rfl⟩

end

/-! ## Values -/

theorem tokenToBoolean_eq_ok_iff {token : SqlToken} {b : Bool} : tokenToBoolean token = .ok b ↔ SpellsBool b token := by
  have hdiff : ∀ t : Str, (t = ascii "1" ∨ t = ascii "on") → ¬ (t = ascii "0" ∨ t = ascii "off") := by
    rintro t (rfl | rfl) <;> decide
  rw [tokenToBoolean, SpellsBool]
  simp only [Bool.or_eq_true, decide_eq_true_eq]
  split
  next hon =>
    cases b with
    | true => simpa using hon
    | false => simpa using hdiff _ hon
  next hon =>
    split
    next hoff =>
      cases b with
      | true => simpa using hon
      | false => simpa using hoff
    next hoff =>
      cases b with
      | true => simpa using hon
      | false => simpa using hoff

namespace SqlSetStreamingCommand

theorem expectBool_eq_ok_iff {l l' : SqlLexer} {b : Bool} :
    expectBool l = .ok (l', b) ↔ l.shift = (l', .ok true) ∧ SpellsBool b l'.currentToken := by
  rw [← shiftOrThrow_eq_ok_iff, ← tokenToBoolean_eq_ok_iff, expectBool]
  cases l.shiftOrThrow with
  | error e => simp
  | ok r =>
    obtain ⟨l₁, hasNext⟩ := r
    cases hasNext with
    | false => simp
    | true =>
      cases hb : tokenToBoolean l₁.currentToken with
      | error e =>
        simp [hb]
        rintro rfl
        simp [hb]
      | ok b' =>
        simp [hb]
        rintro rfl
        simp [hb]

/-- The sign, and the token behind it. -/
theorem expectSign_eq_ok {l l' : SqlLexer} {sign : Int} (h : expectSign l = .ok (l', sign)) :
    (sign = 1 ∧ l' = l) ∨ (sign = -1 ∧ l.shift = (l', .ok true)) := by
  rw [expectSign] at h
  split at h
  · obtain ⟨⟨l₁, hasNext⟩, hs, h⟩ := bind_eq_ok.mp h
    cases hasNext with
    | false => cases h
    | true =>
      cases h
      exact .inr ⟨rfl, shiftOrThrow_eq_ok hs⟩
  · cases h
    exact .inl ⟨rfl, rfl⟩

/-- What `ExpectPositiveInteger` reads, unless it is stuck. Behind a `-` no
number is positive. -/
theorem expectPositiveInteger_spec {indeterminate : Int} {l l' : SqlLexer} {description : String} {val : Int32}
    (h : expectPositiveInteger indeterminate l description = .ok (l', val)) :
    Stuck l' ∨ ∃ n, l.shift = (l', .ok true) ∧ SpellsPositive n l'.currentToken ∧ val = .ofNat n := by
  obtain ⟨⟨l₂, val'⟩, hInt, h⟩ := bind_eq_ok.mp h
  dsimp only at h
  split at h
  · cases h
  next hpos =>
  cases h
  obtain ⟨⟨l₁, hasNext⟩, hs, hInt⟩ := bind_eq_ok.mp hInt
  cases hasNext with
  | false => cases hInt
  | true =>
    obtain ⟨⟨l₃, sign⟩, hsign, hInt⟩ := bind_eq_ok.mp hInt
    dsimp only at hInt
    split at hInt
    next hword =>
      cases hInt
      have hshift := shiftOrThrow_eq_ok hs
      simp only [Bool.and_eq_true, decide_eq_true_eq] at hword
      obtain ⟨⟨⟨htype, hdigits⟩, hmin⟩, hmax⟩ := hword
      by_cases htext : l'.currentToken.text = []
      · left
        rcases expectSign_eq_ok hsign with ⟨-, rfl⟩ | ⟨-, hshift'⟩
        · exact stuck_of_empty hshift htext
        · exact stuck_of_empty hshift' htext
      · right
        rw [streamInt_digits _ _ _ hdigits htext] at hmin hmax hpos ⊢
        rw [Int32.le_iff_toInt_le, Int32.toInt_ofInt_of_le hmin (by omega), Int32.toInt_zero] at hpos
        rcases expectSign_eq_ok hsign with ⟨rfl, rfl⟩ | ⟨rfl, -⟩
        · refine ⟨_, hshift, ⟨htype, hdigits, rfl, by omega, by simp only [int32Max]; omega⟩, ?_⟩
          have hval : 1 * min (Numeral.numeralValue l'.currentToken.text : Int) 9223372036854775807 =
              (Numeral.numeralValue l'.currentToken.text : Nat) := by omega
          rw [hval]
          rfl
        · omega
    · cases hInt

theorem expectPositiveInteger_of_spells {l l' : SqlLexer} {n : Nat} (h : l.shift = (l', .ok true))
    (hn : SpellsPositive n l'.currentToken) (indeterminate : Int) (description : String) :
    expectPositiveInteger indeterminate l description = .ok (l', .ofNat n) := by
  have htext : l'.currentToken.text ≠ [] := by
    intro htext
    have hpos := hn.pos
    rw [← hn.value, htext] at hpos
    exact absurd hpos (by decide)
  have hle := hn.le
  have hpos := hn.pos
  have hs : l.shiftOrThrow = .ok (l', true) := shiftOrThrow_eq_ok_iff.mpr h
  have hsign : expectSign l' = .ok (l', 1) := by
    rw [expectSign, if_neg]
    · rfl
    · rw [hn.word]
      decide
  have hval : 1 * streamInt (-9223372036854775808) 9223372036854775807 indeterminate l'.currentToken.text = (n : Int) := by
    rw [streamInt_digits _ _ _ hn.digits htext, hn.value]
    simp only [int32Max] at hle
    omega
  have hInt : expectInt indeterminate l = .ok (l', .ofNat n) := by
    simp only [int32Max] at hle
    have hmax : (n : Int) ≤ 2147483647 := by omega
    have hmin : -2147483648 ≤ (n : Int) := by omega
    simp only [expectInt, hs, hsign, ok_bind, Bool.not_true, Bool.false_eq_true, if_false, hval, hn.word, hn.digits, hmin,
      hmax, decide_true, Bool.and_self, if_true]
    rfl
  have hnot : ¬ Int32.ofNat n ≤ 0 := by
    simp only [int32Max] at hle
    rw [Int32.le_iff_toInt_le, toInt32_ofNat (by omega), Int32.toInt_zero]
    omega
  simp only [expectPositiveInteger, hInt, ok_bind, hnot, if_false]
  rfl

/-! ## Options -/

/-- The option of the current token, and the lexer behind it. -/
inductive Reads : StreamingOption → SqlLexer → SqlLexer → Prop
  | ordered {l} (h : l.currentToken.toLower = ascii "ordered") : Reads .ordered l l
  | allowOverwrite {l l' b} (h : l.currentToken.toLower = ascii "allow_overwrite") (hs : l.shift = (l', .ok true))
    (hv : SpellsBool b l'.currentToken) : Reads (.allowOverwrite b) l l'
  | number {l l' o n} (h : l.currentToken.toLower = NumberOption.name o) (hs : l.shift = (l', .ok true))
    (hv : SpellsPositive n l'.currentToken) : Reads (.number o n) l l'

section

variable {indeterminate : Int} {cmd cmd' : SqlSetStreamingCommand} {l l' : SqlLexer}

theorem checkEnabled_eq_ok_iff {token : SqlToken} : cmd.checkEnabled token = .ok () ↔ cmd.enabled = true := by
  rw [checkEnabled]
  split <;> simp_all

/-- An option with a number: its name is checked, its number is stored. -/
theorem numberOption_spec (o : NumberOption) (store : Int32 → SqlSetStreamingCommand) {token : SqlToken}
    {description : String} (hname : l.currentToken.toLower = o.name)
    (hstore : ∀ n ≤ int32Max, store (.ofNat n) = (StreamingOption.number o n).apply cmd)
    (h : (cmd.checkEnabled token >>= fun _ => expectPositiveInteger indeterminate l description >>= fun v =>
      .ok (store v.2, v.1)) = .ok (cmd', l')) :
    cmd.enabled = true ∧ (Stuck l' ∨ ∃ o, Reads o l l' ∧ cmd' = o.apply cmd) := by
  obtain ⟨⟨⟩, hcheck, h⟩ := bind_eq_ok.mp h
  obtain ⟨⟨l₁, val⟩, hval, h⟩ := bind_eq_ok.mp h
  cases h
  refine ⟨checkEnabled_eq_ok_iff.mp hcheck, ?_⟩
  rcases expectPositiveInteger_spec hval with hstuck | ⟨n, hs, hn, rfl⟩
  · exact .inl hstuck
  · exact .inr ⟨.number o n, .number hname hs hn, hstore n hn.le⟩

theorem flushFrequency_eq {n : Nat} (h : n ≤ int32Max) : Int64.ofInt (Int32.ofNat n).toInt = .ofNat n := by
  simp only [int32Max] at h
  rw [toInt32_ofNat (by omega), Int64.ofInt_eq_ofNat]

/-- **A round** reads one option, or is stuck. -/
theorem parseOption_reads (h : parseOption indeterminate cmd l = .ok (cmd', l')) :
    cmd.enabled = true ∧ (Stuck l' ∨ ∃ o, Reads o l l' ∧ cmd' = o.apply cmd) := by
  simp only [parseOption] at h
  split at h
  next hname => exact numberOption_spec .batchSize (fun n => { cmd with batchSize := n }) hname (fun _ _ => rfl) h
  split at h
  next hname => exact numberOption_spec .perNodeBufferSize (fun n => { cmd with bufferSizePerNode := n }) hname (fun _ _ => rfl) h
  split at h
  next hname =>
    exact numberOption_spec .perNodeParallelOperations (fun n => { cmd with parallelOpsPerNode := n }) hname
      (fun _ _ => rfl) h
  split at h
  next hname =>
    obtain ⟨⟨⟩, hcheck, h⟩ := bind_eq_ok.mp h
    obtain ⟨⟨l₁, b⟩, hb, h⟩ := bind_eq_ok.mp h
    cases h
    obtain ⟨hs, hv⟩ := expectBool_eq_ok_iff.mp hb
    exact ⟨checkEnabled_eq_ok_iff.mp hcheck, .inr ⟨.allowOverwrite b, .allowOverwrite hname hs hv, rfl⟩⟩
  split at h
  next hname =>
    refine numberOption_spec .flushFrequency (fun n => { cmd with flushFrequency := .ofInt n.toInt }) hname
      (fun n hn => ?_) h
    simp only [StreamingOption.apply, flushFrequency_eq hn]
  split at h
  next hname =>
    obtain ⟨⟨⟩, hcheck, h⟩ := bind_eq_ok.mp h
    cases h
    exact ⟨checkEnabled_eq_ok_iff.mp hcheck, .inr ⟨.ordered, .ordered hname, rfl⟩⟩
  · cases h

theorem parseOption_of_reads {o : StreamingOption} (h : Reads o l l') (henabled : cmd.enabled = true) (indeterminate : Int) :
    parseOption indeterminate cmd l = .ok (o.apply cmd, l') := by
  have hcheck : cmd.checkEnabled l.currentToken = .ok () := checkEnabled_eq_ok_iff.mpr henabled
  cases h with
  | ordered h =>
    simp only [parseOption, h, hcheck, ok_bind, pure_eq_ok]
    rfl
  | @allowOverwrite _ _ b h hs hv =>
    have hval : expectBool l = .ok (l', b) := expectBool_eq_ok_iff.mpr ⟨hs, hv⟩
    simp only [parseOption, h, hcheck, hval, ok_bind, pure_eq_ok]
    rfl
  | @number _ _ o n h hs hv =>
    have hval := expectPositiveInteger_of_spells hs hv indeterminate
    cases o with
    | batchSize | perNodeBufferSize | perNodeParallelOperations =>
      simp only [NumberOption.name] at h
      simp only [parseOption, h, hcheck, hval, ok_bind, pure_eq_ok]
      rfl
    | flushFrequency =>
      simp only [NumberOption.name] at h
      simp only [parseOption, h, hcheck, hval, ok_bind, pure_eq_ok, flushFrequency_eq hv.le]
      rfl

theorem parseLoop_end (h : l.shift = (l', .ok false)) (fuel : Nat) :
    parseLoop indeterminate (fuel + 1) cmd l = .ok (cmd, l') := by
  rw [parseLoop, shiftOrThrow_eq_ok_iff.mpr h]
  rfl

theorem parseLoop_semicolon (h : l.shift = (l', .ok true)) (htype : l'.currentToken.type = .semicolon) (fuel : Nat) :
    parseLoop indeterminate (fuel + 1) cmd l = .ok (cmd, l') := by
  rw [parseLoop, shiftOrThrow_eq_ok_iff.mpr h, ok_bind]
  simp [htype]

theorem parseLoop_option (h : l.shift = (l', .ok true)) (htype : l'.currentToken.type ≠ .semicolon) (fuel : Nat) :
    parseLoop indeterminate (fuel + 1) cmd l =
      (parseOption indeterminate cmd l' >>= fun r => parseLoop indeterminate fuel r.1 r.2) := by
  rw [parseLoop, shiftOrThrow_eq_ok_iff.mpr h, ok_bind]
  simp only [Bool.true_and, decide_eq_true_eq, if_pos htype]

/-- The round behind a stuck one throws: no option has an empty name. -/
theorem not_parseLoop_of_stuck {fuel : Nat} (h : Stuck l) (hl : l.left < fuel) :
    parseLoop indeterminate fuel cmd l ≠ .ok (cmd', l') := by
  intro hloop
  obtain ⟨fuel, rfl⟩ : ∃ k, fuel = k + 1 := ⟨fuel - 1, by omega⟩
  have htype : l.currentToken.type ≠ .semicolon := by
    intro htype
    have htext := text_of_semicolon h.1 htype
    rw [h.2] at htext
    exact absurd htext (by decide)
  rw [parseLoop_option h.1 htype] at hloop
  obtain ⟨r, hoption, -⟩ := bind_eq_ok.mp hloop
  exact (parseOption_spec hoption).1 h.2

theorem type_ne_of_spellsBool {b : Bool} (hs : l.shift = (l', .ok true)) (hv : SpellsBool b l'.currentToken) :
    l'.currentToken.type ≠ .semicolon := by
  intro htype
  have htext : l'.currentToken.toLower = ascii ";" := by
    rw [SqlToken.toLower, text_of_semicolon hs htype]
    decide
  rw [SpellsBool, htext] at hv
  cases b <;> exact absurd hv (by decide)

end

section

variable {l l' : SqlLexer} {tokens : List SqlToken}

/-- The tokens that are read are those of the option, and the other way round. -/
theorem Reads.spells {o : StreamingOption} (h : Reads o l l') (hr : Upto l' tokens) :
    ∃ values, Spells o (l.currentToken :: values) ∧ Upto l (values ++ tokens) := by
  cases h with
  | ordered h => exact ⟨[], .ordered h, hr⟩
  | allowOverwrite h hs hv => exact ⟨[_], .allowOverwrite h hv, .of_shift hs (type_ne_of_spellsBool hs hv) hr⟩
  | number h hs hv => exact ⟨[_], .number h hv, .of_shift hs (by rw [hv.word]; decide) hr⟩

theorem reads_of_spells {o : StreamingOption} {values : List SqlToken} (h : Spells o (l.currentToken :: values))
    (hr : Upto l (values ++ tokens)) : ∃ l', Reads o l l' ∧ Upto l' tokens := by
  cases h with
  | ordered h => exact ⟨l, .ordered h, hr⟩
  | allowOverwrite h hv =>
    obtain ⟨l', hs, -, rfl, hrest⟩ := hr.shift_eq
    exact ⟨l', .allowOverwrite h hs hv, hrest⟩
  | number h hv =>
    obtain ⟨l', hs, -, rfl, hrest⟩ := hr.shift_eq
    exact ⟨l', .number h hs hv, hrest⟩

end

theorem apply_enabled (cmd : SqlSetStreamingCommand) (o : StreamingOption) : (o.apply cmd).enabled = cmd.enabled := by
  cases o with
  | ordered | allowOverwrite => rfl
  | number o n => cases o <;> rfl

section

variable {indeterminate : Int} {fuel : Nat} {cmd cmd' : SqlSetStreamingCommand} {l l' : SqlLexer}

/-- What the loop accepts are options, and none where streaming is off. -/
theorem parseLoop_sound (hfuel : l.left < fuel) (h : parseLoop indeterminate fuel cmd l = .ok (cmd', l')) :
    ∃ tokens options, Upto l tokens ∧ SpellsAll options tokens ∧ (cmd.enabled = false → options = []) ∧
      cmd' = options.foldl StreamingOption.apply cmd := by
  induction fuel generalizing cmd l with
  | zero => exact absurd hfuel (Nat.not_lt_zero _)
  | succ fuel ih =>
    have hround := h
    rw [parseLoop] at hround
    obtain ⟨⟨l₁, hasNext⟩, hs, -⟩ := bind_eq_ok.mp hround
    have hshift := shiftOrThrow_eq_ok hs
    cases hasNext with
    | false =>
      rw [parseLoop_end hshift] at h
      cases h
      exact ⟨[], [], .eod (congrArg Prod.snd hshift), .nil, fun _ => rfl, rfl⟩
    | true =>
      by_cases htype : l₁.currentToken.type = .semicolon
      · rw [parseLoop_semicolon hshift htype] at h
        cases h
        obtain rfl : l.shift.1 = l' := congrArg Prod.fst hshift
        exact ⟨[], [], .semicolon (congrArg Prod.snd hshift) htype, .nil, fun _ => rfl, rfl⟩
      · rw [parseLoop_option hshift htype] at h
        obtain ⟨⟨cmd₁, l₂⟩, hoption, h⟩ := bind_eq_ok.mp h
        have hless := left_lt_of_parseOption hshift hoption
        obtain ⟨henabled, hstuck | ⟨o, hreads, rfl⟩⟩ := parseOption_reads hoption
        · exact absurd h (not_parseLoop_of_stuck hstuck (by omega : l₂.left < fuel))
        · obtain ⟨tokens, options, hupto, hspells, -, rfl⟩ := ih (by omega : l₂.left < fuel) h
          obtain ⟨values, hspellsOption, huptoOption⟩ := hreads.spells hupto
          refine ⟨_, o :: options, .of_shift hshift htype huptoOption, .cons hspellsOption hspells, fun hoff => ?_, rfl⟩
          rw [henabled] at hoff
          cases hoff

/-- Options are accepted, where streaming is on. -/
theorem parseLoop_complete (hfuel : l.left < fuel) {tokens : List SqlToken} {options : List StreamingOption}
    (hupto : Upto l tokens) (hspells : SpellsAll options tokens) (hoff : cmd.enabled = false → options = []) :
    ∃ l', parseLoop indeterminate fuel cmd l = .ok (options.foldl StreamingOption.apply cmd, l') := by
  induction fuel generalizing cmd l tokens options with
  | zero => exact absurd hfuel (Nat.not_lt_zero _)
  | succ fuel ih =>
    cases hspells with
    | nil =>
      cases hupto with
      | eod h => exact ⟨_, parseLoop_end (Prod.ext rfl h) fuel⟩
      | semicolon h htype => exact ⟨_, parseLoop_semicolon (Prod.ext rfl h) htype fuel⟩
    | @cons o os tokens rest hspellsOption hspells =>
      have henabled : cmd.enabled = true := by
        by_contra hne
        cases hoff (by simpa using hne)
      obtain ⟨name, values, rfl⟩ := hspellsOption.exists_cons
      obtain ⟨l₁, hshift, htype, rfl, huptoOption⟩ := hupto.shift_eq
      obtain ⟨l₂, hreads, huptoRest⟩ := reads_of_spells hspellsOption huptoOption
      have hoption := parseOption_of_reads hreads henabled indeterminate
      have hless := left_lt_of_parseOption hshift hoption
      have hon : (o.apply cmd).enabled = false → os = [] := by
        intro h
        rw [apply_enabled, henabled] at h
        cases h
      rw [parseLoop_option hshift htype, hoption]
      exact ih (by omega : l₂.left < fuel) huptoRest hspells hon

end

/-- **The loop** accepts the tokens of options up to the semicolon or the end,
and none where streaming is off. -/
theorem parseLoop_eq_ok_iff {indeterminate : Int} {fuel : Nat} {cmd cmd' : SqlSetStreamingCommand} {l : SqlLexer}
    (hfuel : l.left < fuel) :
    (∃ l', parseLoop indeterminate fuel cmd l = .ok (cmd', l')) ↔
      ∃ tokens options, Upto l tokens ∧ SpellsAll options tokens ∧ (cmd.enabled = false → options = []) ∧
        cmd' = options.foldl StreamingOption.apply cmd := by
  constructor
  · rintro ⟨l', h⟩
    exact parseLoop_sound hfuel h
  · rintro ⟨tokens, options, hupto, hspells, hoff, rfl⟩
    exact parseLoop_complete hfuel hupto hspells hoff

/-- **The grammar.** `Parse` accepts the sentences and nothing else, the command
has the last value of every setting, and the order of different options does
not matter. -/
theorem parse_accepts_iff (indeterminate : Int) (l : SqlLexer) :
    (∀ cmd, (∃ l', parse indeterminate l = .ok (cmd, l')) ↔
      ∃ tokens enabled options, Upto l tokens ∧ Sentence enabled options tokens ∧ cmd = settings enabled options) ∧
    ((∃ err, parse indeterminate l = .error err) ↔
      ¬ ∃ tokens enabled options, Upto l tokens ∧ Sentence enabled options tokens) ∧
    ∀ enabled options options', SameOptions options options' → settings enabled options = settings enabled options' := by
  have haccept : ∀ cmd, (∃ l', parse indeterminate l = .ok (cmd, l')) ↔
      ∃ tokens enabled options, Upto l tokens ∧ Sentence enabled options tokens ∧ cmd = settings enabled options := by
    intro cmd
    constructor
    · rintro ⟨l', h⟩
      obtain ⟨⟨l₁, enabled⟩, hbool, hloop⟩ := bind_eq_ok.mp h
      obtain ⟨hs, hv⟩ := expectBool_eq_ok_iff.mp hbool
      obtain ⟨tokens, options, hupto, hspells, hoff, rfl⟩ := (parseLoop_eq_ok_iff (left_lt l₁)).mp ⟨l', hloop⟩
      exact ⟨_, enabled, options, .of_shift hs (type_ne_of_spellsBool hs hv) hupto, .mk hv hspells hoff,
        foldl_apply enabled options⟩
    · rintro ⟨_, enabled, options, hupto, ⟨hv, hspells, hoff⟩, rfl⟩
      obtain ⟨l₁, hs, -, rfl, huptoRest⟩ := hupto.shift_eq
      have hbool : expectBool l = .ok (l₁, enabled) := expectBool_eq_ok_iff.mpr ⟨hs, hv⟩
      obtain ⟨l', hloop⟩ := (parseLoop_eq_ok_iff (left_lt l₁)).mpr
        ⟨_, options, huptoRest, hspells, hoff, (foldl_apply enabled options).symm⟩
      exact ⟨l', by rw [parse, hbool, ok_bind]; exact hloop⟩
  refine ⟨haccept, ?_, fun enabled _ _ h => settings_eq h enabled⟩
  constructor
  · rintro ⟨err, herr⟩ ⟨tokens, enabled, options, hupto, hsentence⟩
    obtain ⟨l', hok⟩ := (haccept _).mpr ⟨tokens, enabled, options, hupto, hsentence, rfl⟩
    rw [herr] at hok
    cases hok
  · intro hnone
    cases hp : parse indeterminate l with
    | error err => exact ⟨err, rfl⟩
    | ok r =>
      obtain ⟨tokens, enabled, options, hupto, hsentence, -⟩ := (haccept r.1).mp ⟨r.2, hp⟩
      exact absurd ⟨tokens, enabled, options, hupto, hsentence⟩ hnone

end SqlSetStreamingCommand

end DocumentDbOdbc
