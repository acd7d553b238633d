/-
Printing a configuration and parsing it back.

`ToMap` lists the set fields in the order of their keys, whatever that order
is (`toMap_eq`); each becomes a segment that the parser reads back as the
text that was printed (`segmentOf_content`), and each handler undoes the
printer of its field (`handleAttr_textOf`). The invariant of the parser's
run (`Restored`) says that the fields handled so far are those of the printed
configuration and all others but the port are still fresh.
-/
import DocumentDbOdbc.ConnectionStringFacts

namespace DocumentDbOdbc

namespace ConnectionStringParser

open DocumentDbOdbc.Configuration

variable {H : Host}

/-! ## The printed map -/

theorem attrOfKey_key (a : Attr) : attrOfKey (toLower (stripSurroundingWhitespaces a.key)) = some a := by
  cases a <;> decide

theorem key_inj {a b : Attr} (h : a.key = b.key) : a = b := by
  have := attrOfKey_key a
  rw [h, attrOfKey_key b] at this
  exact (Option.some.inj this).symm

/-- The text of a field. -/
def textOf (c : Configuration H) (a : Attr) : Str := valueText a.kind (c.getValue a)

def entryOf (c : Configuration H) (a : Attr) : Str × Str := (a.key, textOf c a)

theorem put_entryOf (c : Configuration H) (a : Attr) {l : List Attr} (h : a ∉ l) :
    ∃ l' : List Attr, l'.Perm (a :: l) ∧
      ArgumentMap.put a.key (textOf c a) (l.map (entryOf c)) = l'.map (entryOf c) := by
  induction l with
  | nil => exact ⟨[a], .refl _, rfl⟩
  | cons b l ih =>
    have hne : a.key ≠ b.key := fun he => h (by simp [key_inj he])
    obtain ⟨l', hp, he⟩ := ih fun hm => h (by simp [hm])
    simp only [List.map_cons, entryOf, ArgumentMap.put, if_neg hne] at he ⊢
    split
    · exact ⟨a :: b :: l, .refl _, rfl⟩
    · exact ⟨b :: l', (hp.cons b).trans (.swap a b l), by simp [entryOf, ← he]⟩

theorem foldl_addToMap (c : Configuration H) {os l : List Attr} (h : (os ++ l).Nodup) :
    ∃ l' : List Attr, l'.Perm (os.filter c.isSet ++ l) ∧
      os.foldl (fun m a => addToMap m a.key (c.attr a)) (l.map (entryOf c)) = l'.map (entryOf c) := by
  induction os generalizing l with
  | nil => exact ⟨l, .refl _, rfl⟩
  | cons a os ih =>
    rw [List.cons_append, List.nodup_cons] at h
    rw [List.foldl_cons, addToMap]
    by_cases hs : (c.attr a).isSet = true
    · obtain ⟨l₁, hp₁, he₁⟩ := put_entryOf c a fun hm => h.1 (List.mem_append_right os hm)
      have hn : (os ++ l₁).Nodup := by
        have hp : (os ++ l₁).Perm (a :: (os ++ l)) := (hp₁.append_left os).trans List.perm_middle
        rw [hp.nodup_iff, List.nodup_cons]
        exact h
      obtain ⟨l', hp', he'⟩ := ih hn
      refine ⟨l', ?_, ?_⟩
      · rw [List.filter_cons_of_pos (by exact hs)]
        exact (hp'.trans (hp₁.append_left _)).trans List.perm_middle
      · rw [if_pos hs, ← he', ← he₁]
        rfl
    · obtain ⟨l', hp', he'⟩ := ih h.2
      refine ⟨l', ?_, ?_⟩
      · rwa [List.filter_cons_of_neg (by exact hs)]
      · rw [if_neg hs]
        exact he'

/-- The map holds the set fields, each once. -/
theorem toMap_eq (c : Configuration H) :
    ∃ l : List Attr, l.Nodup ∧ (∀ a, a ∈ l ↔ c.isSet a = true) ∧ c.toMap = l.map (entryOf c) := by
  have hNodup : mapOrder.Nodup := by decide
  have hAll : ∀ a, a ∈ mapOrder := by
    intro a
    cases a <;> decide
  have hNil : (mapOrder ++ []).Nodup := by rwa [List.append_nil]
  obtain ⟨l, hp, he⟩ := foldl_addToMap c hNil
  rw [List.append_nil] at hp
  refine ⟨l, ?_, fun a => ?_, he⟩
  · rw [hp.nodup_iff]
    exact hNodup.filter _
  · simp [hp.mem_iff, hAll a]

/-! ## Printed segments -/

/-- A text the printer can write so that the parser reads it back. -/
structure PlainText (t : Str) : Prop where
  ne_nil : t ≠ []
  plain : ∀ x ∈ t, x ≠ 59 ∧ x ≠ 61 ∧ x ≠ 123 ∧ x ≠ 125 ∧ x ≠ 0
  space : ∀ x ∈ t, isSpace x = true → x = 32

def isPlain (x : UInt8) : Bool :=
  x != 59 && x != 61 && x != 123 && x != 125 && x != 0 && (!isSpace x || x == 32)

theorem plainText_iff {t : Str} : PlainText t ↔ t ≠ [] ∧ t.all isPlain = true := by
  have hchar : ∀ x, isPlain x = true ↔
      (x ≠ 59 ∧ x ≠ 61 ∧ x ≠ 123 ∧ x ≠ 125 ∧ x ≠ 0) ∧ (isSpace x = true → x = 32) := by
    intro x
    simp [isPlain, and_assoc, imp_iff_not_or]
  simp only [List.all_eq_true, hchar]
  constructor
  · rintro ⟨hne, hplain, hspace⟩
    exact ⟨hne, fun x hx => ⟨hplain x hx, hspace x hx⟩⟩
  · rintro ⟨hne, h⟩
    exact ⟨hne, fun x hx => (h x hx).1, fun x hx => (h x hx).2⟩

instance (t : Str) : Decidable (PlainText t) := decidable_of_iff _ plainText_iff.symm

/-- The segment `ToConnectString` writes for a field, without its `;`. -/
def segmentOf (c : Configuration H) (a : Attr) : Segment :=
  ⟨a.key, if 32 ∈ textOf c a then braced (textOf c a) else textOf c a⟩

theorem connectStringEntry_eq {c : Configuration H} {a : Attr} (h : PlainText (textOf c a)) :
    connectStringEntry a.key (textOf c a) = (segmentOf c a).text ++ [59] := by
  have hEq : ascii "=" = [61] := rfl
  have hEnd : ascii ";" = [59] := rfl
  have hOpen : ascii "=\x7b" = [61, 123] := rfl
  have hClose : ascii "\x7d;" = [125, 59] := rfl
  rw [connectStringEntry, if_neg h.ne_nil]
  by_cases hs : 32 ∈ textOf c a
  · simp [segmentOf, Segment.text, braced, hs, hOpen, hClose]
  · simp [segmentOf, Segment.text, hs, hEq, hEnd]

theorem segmentOf_wellFormed {c : Configuration H} {a : Attr} (h : PlainText (textOf c a)) :
    (segmentOf c a).WellFormed := by
  have h59 : 59 ∉ textOf c a := fun hm => (h.plain 59 hm).1 rfl
  have h61 : 61 ∉ textOf c a := fun hm => (h.plain 61 hm).2.1 rfl
  have h0 : 0 ∉ textOf c a := fun hm => (h.plain 0 hm).2.2.2.2 rfl
  refine ⟨Option.isSome_iff_exists.mpr ⟨a, attrOfKey_key a⟩, ?_, ?_, ?_⟩ <;>
    · simp only [segmentOf]
      split <;> simp [braced, h59, h61, h0]

/-- Spaces are kept by the braces, and without a space there is nothing to
strip. -/
theorem segmentOf_content {c : Configuration H} {a : Attr} (h : PlainText (textOf c a)) :
    (segmentOf c a).content = textOf c a := by
  simp only [segmentOf, Segment.content]
  split
  · exact stripBraces_braced _
  · next hs =>
    have hTrim : stripSurroundingWhitespaces (textOf c a) = textOf c a := by
      refine Separated.trim_eq_self_of_forall fun x hx => ?_
      by_contra hsp
      exact hs (h.space x hx (by simpa using hsp) ▸ hx)
    rw [hTrim, stripBraces, if_neg]
    rintro ⟨hHead, -⟩
    exact (h.plain 123 (List.mem_of_mem_head? hHead)).2.2.1 rfl

theorem flatMap_eq_intercalate (l : List Segment) :
    (l.flatMap fun s => s.text ++ [59]) = [59].intercalate (l.map Segment.text ++ [[]]) := by
  induction l with
  | nil => rfl
  | cons s l ih =>
    rw [List.flatMap_cons, ih, List.map_cons, List.cons_append,
      List.intercalate_cons_of_ne_nil (by simp)]

/-- A text whose segments all end in `;`: behind the last one there is an
empty segment, which is no pair. -/
theorem parse_terminated (c : Configuration H) {l : List Segment} (h : ∀ s ∈ l, s.WellFormed) :
    parseConnectionString c (l.flatMap fun s => s.text ++ [59]) =
      l.reverse.foldl Segment.handle (c, []) := by
  have hNul : (0 : UInt8) ∉ l.flatMap fun s => s.text ++ [59] := by
    intro hm
    obtain ⟨s, hs, hx⟩ := List.mem_flatMap.mp hm
    rcases List.mem_append.mp hx with hx | hx
    · exact (h s hs).not_mem_text.2 hx
    · simp at hx
  rw [parseConnectionString, parse_eq_foldl, rdropWhile_nul hNul, flatMap_eq_intercalate,
    List.splitOn_intercalate _ _ (by simp), List.reverse_append, List.foldl_append, ← List.map_reverse]
  · exact foldl_handleSegment_text (fun s hs => h s (List.mem_reverse.mp hs)) _
  · intro t ht
    rcases List.mem_append.mp ht with ht | ht
    · obtain ⟨s, hs, rfl⟩ := List.mem_map.mp ht
      exact (h s hs).not_mem_text.1
    · simp [List.mem_singleton.mp ht]

/-! ## Handlers undo printers -/

/-- The configurations that can be printed and read back. A set log level is
known and a set log path a directory by `Configuration.admitted`. -/
structure Printable (c : Configuration H) : Prop where
  text : ∀ a, a.kind = .text → c.isSet a = true → PlainText (textOf c a)
  hostname : c.isSet .hostname = true → 58 ∉ textOf c .hostname
  port : c.isSet .port = true → c.getValue .port ≠ (0 : UInt16)
  loginTimeoutSec : c.isSet .loginTimeoutSec = true → (0 : Int32) ≤ c.getValue .loginTimeoutSec
  scanLimit : c.isSet .scanLimit = true → (0 : Int32) < c.getValue .scanLimit
  defaultFetchSize : c.isSet .defaultFetchSize = true → (0 : Int32) < c.getValue .defaultFetchSize
  readPreference : c.isSet .readPreference = true → c.getValue .readPreference ≠ ReadPreference.unknown
  scanMethod : c.isSet .scanMethod = true → c.getValue .scanMethod ≠ ScanMethod.unknown

theorem plainText_decimal (n : Nat) : PlainText (Numeral.decimal n) := by
  have hd := Numeral.isDigit_of_mem_decimal n
  refine ⟨Numeral.decimal_ne_nil n, fun x hx => ?_, fun x hx hs => ?_⟩
  · refine ⟨?_, ?_, ?_, ?_, ?_⟩ <;>
      · rintro rfl
        exact absurd (hd _ hx) (by decide)
  · rw [isSpace_of_isDigit (hd x hx)] at hs
    cases hs

theorem int32Text_of_nonneg {n : Int32} (h : 0 ≤ n) : int32Text n = Numeral.decimal n.toInt.natAbs := by
  have h0 : ¬ n.toInt < 0 := Int.not_lt.mpr (Int32.le_iff_toInt_le.mp h)
  rw [int32Text, intText, if_neg h0]

theorem plainText_int32Text {n : Int32} (h : 0 ≤ n) : PlainText (int32Text n) := by
  rw [int32Text_of_nonneg h]
  exact plainText_decimal _

theorem textOf_plain {c : Configuration H} (hc : Printable c) {a : Attr} (hs : c.isSet a = true) :
    PlainText (textOf c a) := by
  by_cases hk : a.kind = .text
  · exact hc.text a hk hs
  have hflag : ∀ b : Bool, PlainText (if b then ascii "true" else ascii "false") := by
    intro b
    cases b <;> decide
  cases a with
  | port => exact plainText_decimal _
  | loginTimeoutSec => exact plainText_int32Text (hc.loginTimeoutSec hs)
  | scanLimit => exact plainText_int32Text (Int32.le_of_lt (hc.scanLimit hs))
  | defaultFetchSize => exact plainText_int32Text (Int32.le_of_lt (hc.defaultFetchSize hs))
  | retryReads | tls | tlsAllowInvalidHostnames | sshEnable | sshStrictHostKeyChecking | refreshSchema =>
    exact hflag _
  | readPreference =>
    simp only [textOf, valueText]
    cases c.getValue .readPreference <;> decide
  | logLevel =>
    simp only [textOf, valueText]
    cases c.getValue .logLevel <;> decide
  | scanMethod =>
    simp only [textOf, valueText]
    cases c.getValue .scanMethod <;> decide
  | dsn | driver | database | hostname | user | password | appName | replicaSet | tlsCaFile | sshUser
  | sshHost | sshPrivateKeyFile | sshPrivateKeyPassphrase | sshKnownHostsFile | logPath | schemaName =>
    exact absurd rfl hk

theorem handleBool_flag (set : Configuration H → Bool → Configuration H) (c : Configuration H)
    (key : Str) (b : Bool) : handleBool set c key (valueText .flag b) = (set c b, []) := by
  cases b <;> rfl

theorem handlePort_decimal (c : Configuration H) (key : Str) {port : UInt16} (h : port ≠ 0) :
    handlePort c key (Numeral.decimal port.toNat) = (c.setPort port, []) := by
  have hlt : port.toNat < 65536 := port.toNat_lt
  have hpos : 1 ≤ port.toNat := by
    rw [Nat.one_le_iff_ne_zero]
    intro h0
    exact h (UInt16.toNat_inj.mp h0)
  have hlen : (Numeral.decimal port.toNat).length ≤ 4 + 1 :=
    Numeral.length_decimal_le (hlt.trans (by decide))
  have hsize := H.sizeofString_ge
  have hvalid : ValidPort H (Numeral.decimal port.toNat) := by
    refine ⟨Numeral.decimal_ne_nil _, allDigits_decimal _, by omega, ?_, ?_⟩ <;>
      simp only [Numeral.numeralValue_decimal, uint16Max] <;> omega
  rw [handlePort_valid hvalid, Numeral.numeralValue_decimal, UInt16.ofNat_toNat]

theorem handleNumber_int32Text (set : Configuration H → Int32 → Configuration H) (least : Nat)
    (m₁ m₂ m₃ : String) (c : Configuration H) (key : Str) {n : Int32} (h : 0 ≤ n)
    (hl : (least : Int) ≤ n.toInt) :
    handleNumber set least m₁ m₂ m₃ c key (int32Text n) = (set c n, []) := by
  have h0 : 0 ≤ n.toInt := Int32.le_iff_toInt_le.mp h
  have hlt : n.toInt < 2147483648 := n.toInt_lt
  have hlen : (Numeral.decimal n.toInt.natAbs).length ≤ 9 + 1 :=
    Numeral.length_decimal_le (by omega)
  have hsize := H.sizeofString_ge
  have hvalid : ValidNumber H least (Numeral.decimal n.toInt.natAbs) := by
    refine ⟨allDigits_decimal _, by omega, ?_, ?_⟩ <;> rw [Numeral.numeralValue_decimal]
    · omega
    · simp only [uint32Max]
      omega
  have hback : Int32.ofNat n.toInt.natAbs = n := by
    rw [← Int32.ofInt_eq_ofNat, Int.natAbs_of_nonneg h0, Int32.ofInt_toInt]
  rw [int32Text_of_nonneg h, handleNumber_valid set hvalid, Numeral.numeralValue_decimal, hback]

theorem parseSingleAddress_host {v : Str} (h : 58 ∉ v) :
    parseSingleAddress H v {} = (true, { host := v, port := 27017, range := 0 }, []) := by
  rw [parseSingleAddress, List.count_eq_zero_of_not_mem h]
  rfl

theorem handleReadPreference_toString (c : Configuration H) {p : ReadPreference} (h : p ≠ .unknown) :
    handleReadPreference c p.toString = (c.setReadPreference p, []) := by
  have hp : ReadPreference.fromString p.toString .unknown = p := by cases p <;> decide
  simp only [handleReadPreference, hp, if_neg h]

theorem handleScanMethod_toString (c : Configuration H) {m : ScanMethod} (h : m ≠ .unknown) :
    handleScanMethod c m.toString = (c.setScanMethod m, []) := by
  have hm : ScanMethod.fromString m.toString .unknown = m := by cases m <;> decide
  simp only [handleScanMethod, hm, if_neg h]

theorem handleLogLevel_toString (c : Configuration H) {l : LogLevel} (h : l ≠ .unknown) :
    handleLogLevel c l.toString = (c.setValue .logLevel l h, []) := by
  have hl : LogLevel.fromString l.toString .unknown = l := by cases l <;> decide
  simp only [handleLogLevel, hl, if_neg h, setLogLevel, dif_pos h]

theorem attr_eq_of_isSet {c : Configuration H} {a : Attr} (h : c.isSet a = true) :
    c.attr a = ⟨c.getValue a, true⟩ := by
  rw [Configuration.isSet] at h
  rw [Configuration.getValue, ← h]

theorem restores_of_eq {c c' : Configuration H} {key t : Str} {a : Attr} {v : a.Val} (hv : a.Admits H v)
    (hs : c.attr a = ⟨v, true⟩) (h : handleAttr c' key t a = (c'.setValue a v hv, [])) :
    (handleAttr c' key t a).2 = [] ∧ (handleAttr c' key t a).1.attr a = c.attr a := by
  rw [h, hs]
  exact ⟨rfl, setValue_attr_self _ _ _ hv⟩

/-- A handler given the printed text of its field restores the field and adds
no record; only `user` and `password` look at what was there before. -/
theorem handleAttr_textOf {c : Configuration H} (hc : Printable c) {a : Attr} (hs : c.isSet a = true)
    (c' : Configuration H) (key : Str)
    (hfresh : a = .user ∨ a = .password → c'.attr a = (fresh H).attr a) :
    (handleAttr c' key (textOf c a) a).2 = [] ∧ (handleAttr c' key (textOf c a) a).1.attr a = c.attr a := by
  have hset := attr_eq_of_isSet hs
  have hadm := c.admitted a hs
  have hpos : ∀ {n : Int32}, 0 < n → 0 ≤ n ∧ ((1 : Nat) : Int) ≤ n.toInt := by
    intro n h
    have : 0 < n.toInt := by simpa using Int32.lt_iff_toInt_lt.mp h
    exact ⟨Int32.le_of_lt h, by omega⟩
  cases a with
  | dsn | driver | database | appName | replicaSet | tlsCaFile | sshUser | sshHost
  | sshPrivateKeyFile | sshPrivateKeyPassphrase | sshKnownHostsFile | schemaName =>
    exact restores_of_eq trivial hset rfl
  | user =>
    have hu : c'.getUser = [] := congrArg SettableValue.val (hfresh (.inl rfl))
    exact restores_of_eq trivial hset (by simp [handleAttr, handleUser, hu]; rfl)
  | password =>
    have hp : c'.getPassword = [] := congrArg SettableValue.val (hfresh (.inr rfl))
    exact restores_of_eq trivial hset (by simp [handleAttr, handlePassword, hp]; rfl)
  | hostname =>
    have hAddr := parseSingleAddress_host (H := H) (hc.hostname hs)
    rw [hset, handleAttr_hostname, handleHostname_hostname, hAddr]
    exact ⟨by simp [handleHostname, hAddr], rfl⟩
  | port => exact restores_of_eq trivial hset (handlePort_decimal c' key (hc.port hs))
  | loginTimeoutSec =>
    have h0 := hc.loginTimeoutSec hs
    have hle : ((0 : Nat) : Int) ≤ Int32.toInt (c.getValue .loginTimeoutSec) := by
      simpa using Int32.le_iff_toInt_le.mp h0
    exact restores_of_eq trivial hset (handleNumber_int32Text _ _ _ _ _ c' key h0 hle)
  | scanLimit =>
    obtain ⟨h0, h1⟩ := hpos (hc.scanLimit hs)
    exact restores_of_eq trivial hset (handleNumber_int32Text _ _ _ _ _ c' key h0 h1)
  | defaultFetchSize =>
    obtain ⟨h0, h1⟩ := hpos (hc.defaultFetchSize hs)
    exact restores_of_eq trivial hset (handleNumber_int32Text _ _ _ _ _ c' key h0 h1)
  | retryReads | tls | tlsAllowInvalidHostnames | sshEnable | sshStrictHostKeyChecking | refreshSchema =>
    exact restores_of_eq trivial hset (handleBool_flag _ c' key _)
  | readPreference =>
    exact restores_of_eq trivial hset (handleReadPreference_toString c' (hc.readPreference hs))
  | scanMethod => exact restores_of_eq trivial hset (handleScanMethod_toString c' (hc.scanMethod hs))
  | logLevel => exact restores_of_eq hadm hset (handleLogLevel_toString c' hadm)
  | logPath =>
    have hd : H.isValidDirectory (c.getValue .logPath) = true := hadm
    exact restores_of_eq hd hset (by simp [handleAttr, textOf, valueText, setLogPath, hd])

/-! ## The whole run -/

/-- What holds after the segments of `done` have been handled. -/
structure Restored (c : Configuration H) (done : List Attr) (p : Parsed H) : Prop where
  quiet : p.2 = []
  same : ∀ a ∈ done, p.1.attr a = c.attr a
  untouched : ∀ a, a ∉ done → a ≠ .port → p.1.attr a = (fresh H).attr a

/-- One segment more: its own field is restored, and an address leaves a port
that was already restored alone. -/
theorem Restored.handle {c : Configuration H} (hc : Printable c) {done : List Attr} {a : Attr}
    {p : Parsed H} (h : Restored c done p) (hdone : ∀ b ∈ done, c.isSet b = true) (ha : a ∉ done)
    (hs : c.isSet a = true) : Restored c (a :: done) (Segment.handle p (segmentOf c a)) := by
  have hHandle : Segment.handle p (segmentOf c a) =
      ((handleAttr p.1 (stripSurroundingWhitespaces a.key) (textOf c a) a).1,
        p.2 ++ (handleAttr p.1 (stripSurroundingWhitespaces a.key) (textOf c a) a).2) := by
    have hKey : (segmentOf c a).key = a.key := rfl
    simp only [Segment.handle, handlePair, handleAttributePair, hKey, attrOfKey_key,
      segmentOf_content (textOf_plain hc hs)]
  have hOwn := handleAttr_textOf hc hs p.1 (stripSurroundingWhitespaces a.key) (by
    rintro (rfl | rfl) <;> exact h.untouched _ ha (by decide))
  rw [hHandle]
  refine ⟨by simp [h.quiet, hOwn.1], fun b hb => ?_, fun b hb hport => ?_⟩
  · by_cases hba : b = a
    · subst hba
      exact hOwn.2
    · have hd : b ∈ done := (List.mem_cons.mp hb).resolve_left hba
      by_cases ht : Touches a b
      · obtain ⟨rfl, rfl⟩ := ht.resolve_left hba
        have hset : (p.1.attr .port).isSet = true := by
          rw [h.same _ hd]
          exact hdone _ hd
        rw [handleAttr_hostname, handleHostname_port, portUnlessSet, if_pos hset, h.same _ hd]
      · rw [handleAttr_frame _ _ _ ht, h.same b hd]
  · have hba : ¬ Touches a b := by
      rintro (rfl | ⟨-, rfl⟩)
      · exact hb (List.mem_cons_self ..)
      · exact hport rfl
    rw [handleAttr_frame _ _ _ hba]
    exact h.untouched b (fun hm => hb (List.mem_cons_of_mem a hm)) hport

theorem Restored.foldl {c : Configuration H} (hc : Printable c) {l done : List Attr} {p : Parsed H}
    (h : Restored c done p) (hdone : ∀ b ∈ done, c.isSet b = true) (hn : (l ++ done).Nodup)
    (hl : ∀ a ∈ l, c.isSet a = true) :
    Restored c (l.reverse ++ done) ((l.map (segmentOf c)).foldl Segment.handle p) := by
  induction l generalizing done p with
  | nil => exact h
  | cons a l ih =>
    rw [List.cons_append, List.nodup_cons] at hn
    have ha : a ∉ done := fun hm => hn.1 (List.mem_append_right l hm)
    have hs := hl a (by simp)
    rw [List.map_cons, List.foldl_cons, List.reverse_cons, List.append_assoc]
    refine ih (h.handle hc hdone ha hs) ?_ ?_ fun b hb => hl b (by simp [hb])
    · intro b hb
      rcases List.mem_cons.mp hb with rfl | hb
      · exact hs
      · exact hdone b hb
    · rw [List.singleton_append, List.perm_middle.nodup_iff, List.nodup_cons]
      exact hn

/-- **Print and parse.** Parsing what `toConnectString` printed into a fresh
configuration restores every field that was set and reports nothing. -/
theorem parseConnectionString_toConnectString {c : Configuration H} (hc : Printable c) :
    let p := parseConnectionString (fresh H) c.toConnectString
    p.2 = [] ∧ ∀ a, c.isSet a = true → p.1.attr a = c.attr a := by
  obtain ⟨l, hn, hmem, hmap⟩ := toMap_eq c
  have hset : ∀ a ∈ l, c.isSet a = true := fun a => (hmem a).mp
  have hText : c.toConnectString = (l.map (segmentOf c)).flatMap fun s => s.text ++ [59] := by
    rw [toConnectString, hmap, List.flatMap_map, List.flatMap_map]
    exact List.flatMap_congr fun a ha => connectStringEntry_eq (textOf_plain hc (hset a ha))
  have hwf : ∀ s ∈ l.map (segmentOf c), s.WellFormed := by
    intro s hs
    obtain ⟨a, ha, rfl⟩ := List.mem_map.mp hs
    exact segmentOf_wellFormed (textOf_plain hc (hset a ha))
  have hInit : Restored c [] (fresh H, []) := ⟨rfl, by simp, fun _ _ _ => rfl⟩
  have hRun := hInit.foldl hc (l := l.reverse) (by simp) (by simpa using hn) (by simpa using hset)
  rw [List.reverse_reverse, List.append_nil, List.map_reverse] at hRun
  rw [hText, parse_terminated _ hwf]
  exact ⟨hRun.quiet, fun a ha => hRun.same a ((hmem a).mpr ha)⟩

theorem parseConnectionString_toConnectString_password :
    let c := ((((fresh .diskless).setHostname (ascii "db")).setPort 27018).setScanLimit 7).setPassword
      (ascii " p w ")
    let p := parseConnectionString (fresh .diskless) c.toConnectString
    p.2 = [] ∧ p.1.getPassword = ascii " p w " ∧ p.1.attr .port = ⟨27018, true⟩ := by
  have h := parseConnectionString_toConnectString
    (c := ((((fresh .diskless).setHostname (ascii "db")).setPort 27018).setScanLimit 7).setPassword
      (ascii " p w "))
    { text := by
        intro a
        cases a <;> decide
      hostname := by decide
      port := by decide
      loginTimeoutSec := by decide
      scanLimit := by decide
      defaultFetchSize := by decide
      readPreference := by decide
      scanMethod := by decide }
  exact ⟨h.1, congrArg SettableValue.val (h.2 .password (by decide)), h.2 .port (by decide)⟩

end ConnectionStringParser

end DocumentDbOdbc
