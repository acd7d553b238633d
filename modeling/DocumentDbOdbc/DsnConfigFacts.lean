/-
Registering a data source and reading it back.

`ReadDsnConfiguration` gives each unset field the value its own text stands
for and looks at no other field (`readDsnConfiguration_attr`). `RegisterDsn`
leaves in the section what it was given, without the credentials
(`registerDsn_entry`). Between the two stand the conversions to and from
`SQLWCHAR` and the buffer of `ReadDsnString`, whose second, larger read never
happens (`readDsnString_eq`): a text that `Fits` comes back, any other is cut.
-/
import DocumentDbOdbc.DsnConfig
import DocumentDbOdbc.ConnectionStringRoundTrip

namespace DocumentDbOdbc

open DocumentDbOdbc.Configuration ConnectionStringParser

variable {H : Host}

/-! ## Reading -/

/-- What the statements of `ReadDsnConfiguration` about a field store for a
text. -/
def Attr.dsnValue (H : Host) (indeterminate : Int32) (text : Str) :
    (a : Attr) → Option { v : a.Val // a.Admits H v }
  | .dsn | .driver => none
  | .hostname | .database | .user | .password | .appName | .replicaSet | .tlsCaFile | .sshUser | .sshHost
  | .sshPrivateKeyFile | .sshPrivateKeyPassphrase | .sshKnownHostsFile | .schemaName => some ⟨text, trivial⟩
  | .port => some ⟨.ofInt (lexicalCastInt indeterminate text).toInt, trivial⟩
  | .loginTimeoutSec => some ⟨lexicalCastInt indeterminate text, trivial⟩
  | .scanLimit | .defaultFetchSize =>
    if lexicalCastInt indeterminate text > 0 then some ⟨lexicalCastInt indeterminate text, trivial⟩ else none
  | .retryReads | .tls | .tlsAllowInvalidHostnames | .sshEnable | .sshStrictHostKeyChecking
  | .refreshSchema => some ⟨text == ascii "true", trivial⟩
  | .readPreference => some ⟨.fromString text .primary, trivial⟩
  | .scanMethod => some ⟨.fromString text .random, trivial⟩
  | .logLevel =>
    if h : LogLevel.fromString text .error ≠ .unknown then some ⟨.fromString text .error, h⟩ else none
  | .logPath => if h : H.isValidDirectory text = true then some ⟨text, h⟩ else none

namespace Installer

variable (i : Installer) (dsn : Str)

/-- What a data source holds for a field. -/
def found (H : Host) (a : Attr) : Option { v : a.Val // a.Admits H v } :=
  (i.readDsnString dsn a.key).bind fun text => a.dsnValue H i.indeterminate text

theorem fillUnset_eq {α : Type} {a : Attr} {c : Configuration H} {set : Configuration H → α → Configuration H}
    (value : Option α) {accept : α → Option { v : a.Val // a.Admits H v }}
    (hset : ∀ x, set c x = store a (accept x) c) :
    fillUnset a value set c = if c.isSet a then c else store a (value.bind accept) c := by
  cases value with
  | none => simp [fillUnset, store]
  | some x => simp [fillUnset, hset]

/-- A text that is converted first. -/
theorem fillUnset_map {α : Type} {a : Attr} {c : Configuration H} {set : Configuration H → α → Configuration H}
    (text : Option Str) {convert : Str → α} {accept : Str → Option { v : a.Val // a.Admits H v }}
    (hset : ∀ t, set c (convert t) = store a (accept t) c) :
    fillUnset a (text.map convert) set c = if c.isSet a then c else store a (text.bind accept) c := by
  cases text with
  | none => simp [fillUnset, store]
  | some t => simp [fillUnset, hset]

theorem readDsnAttr_eq (c : Configuration H) (a : Attr) :
    i.readDsnAttr dsn c a = if c.isSet a then c else store a (i.found dsn H a) c := by
  cases a with
  | dsn | driver => simp [readDsnAttr, found, Attr.dsnValue, store]
  | port | loginTimeoutSec | retryReads | tls | tlsAllowInvalidHostnames | sshEnable
  | sshStrictHostKeyChecking | refreshSchema =>
    simp only [readDsnAttr, found, readDsnInt, readDsnBool]
    exact fillUnset_map _ fun _ => rfl
  | scanLimit | defaultFetchSize =>
    simp only [readDsnAttr, found, readDsnInt]
    refine fillUnset_map _ fun t => ?_
    simp only [Attr.dsnValue]
    split <;> rfl
  | logLevel | logPath =>
    simp only [readDsnAttr, found]
    refine fillUnset_eq _ fun t => ?_
    simp only [Attr.dsnValue, setLogLevel, setLogPath]
    split <;> rfl
  | hostname | database | user | password | appName | replicaSet | tlsCaFile | sshUser | sshHost
  | sshPrivateKeyFile | sshPrivateKeyPassphrase | sshKnownHostsFile | schemaName | readPreference
  | scanMethod =>
    simp only [readDsnAttr, found]
    exact fillUnset_eq _ fun _ => rfl

theorem readDsnAttr_attr_of_ne (c : Configuration H) {a x : Attr} (h : x ≠ a) :
    (i.readDsnAttr dsn c a).attr x = c.attr x := by
  rw [readDsnAttr_eq]
  split
  · rfl
  · exact store_attr_of_ne _ c h

/-- A field keeps its value if it is set, and else takes what was found. -/
def fill (a : Attr) (o : Option { v : a.Val // a.Admits H v }) (sv : SettableValue a.Val) :
    SettableValue a.Val :=
  if sv.isSet then sv else o.elim sv fun v => ⟨v.1, true⟩

theorem readDsnAttr_attr_self (c : Configuration H) (a : Attr) :
    (i.readDsnAttr dsn c a).attr a = fill a (i.found dsn H a) (c.attr a) := by
  rw [readDsnAttr_eq, fill, Configuration.isSet]
  split
  · rfl
  · exact store_attr_self a _ c

theorem foldl_readDsnAttr {l : List Attr} (hn : l.Nodup) (c : Configuration H) (a : Attr) :
    (l.foldl (i.readDsnAttr dsn) c).attr a =
      if a ∈ l then fill a (i.found dsn H a) (c.attr a) else c.attr a := by
  induction l generalizing c with
  | nil => simp
  | cons b l ih =>
    rw [List.nodup_cons] at hn
    rw [List.foldl_cons, ih hn.2]
    by_cases hab : a = b
    · subst hab
      rw [if_neg hn.1, if_pos (List.mem_cons_self ..), readDsnAttr_attr_self]
    · simp [readDsnAttr_attr_of_ne i dsn c hab, hab]

/-- **Reading a data source** field by field. -/
theorem readDsnConfiguration_attr (c : Configuration H) (a : Attr) :
    (i.readDsnConfiguration dsn c).attr a = fill a (i.found (cStr dsn) H a) (c.attr a) := by
  have hNodup : readOrder.Nodup := by decide
  have h := i.foldl_readDsnAttr (cStr dsn) hNodup c a
  rw [readDsnConfiguration]
  by_cases ha : a ∈ readOrder
  · rwa [if_pos ha] at h
  · -- the two fields that are not read
    have hfound : i.found (cStr dsn) H a = none := by
      cases a with
      | dsn | driver => simp [found, Attr.dsnValue]
      | _ => exact absurd (by decide) ha
    rw [if_neg ha] at h
    rw [hfound]
    simpa [fill] using h

/-- A field that is set stays as it is. -/
theorem readDsnConfiguration_of_isSet {c : Configuration H} {a : Attr} (h : c.isSet a = true) :
    (i.readDsnConfiguration dsn c).attr a = c.attr a := by
  rw [readDsnConfiguration_attr, fill]
  exact if_pos h

theorem readDsnConfiguration_fresh (a : Attr) :
    (i.readDsnConfiguration dsn (fresh H)).attr a =
      (i.found (cStr dsn) H a).elim ⟨a.defaultValue H, false⟩ fun v => ⟨v.1, true⟩ := by
  rw [readDsnConfiguration_attr]
  rfl

end Installer

/-! ## The texts of numbers -/

theorem lexicalCastInt_int32Text (indeterminate n : Int32) : lexicalCastInt indeterminate (int32Text n) = n := by
  have hlt : n.toInt < 2147483648 := n.toInt_lt
  have hge : -2147483648 ≤ n.toInt := n.le_toInt
  rw [lexicalCastInt, int32Text, streamInt_intText _ hge (by omega), Int32.ofInt_toInt]

/-- Digits are read up to the largest `int`. -/
theorem lexicalCastInt_digits (indeterminate : Int32) {s : Str} (h : allDigits s = true) (hne : s ≠ []) :
    (lexicalCastInt indeterminate s).toInt = Min.min (Numeral.numeralValue s : Int) 2147483647 := by
  rw [lexicalCastInt, streamInt_digits _ _ _ h hne, Int32.toInt_ofInt_of_le (by omega) (by omega)]

theorem uint16_ofInt_natCast {n : Nat} (h : n < 65536) : UInt16.ofInt n = UInt16.ofNat n := by
  have hmod : ((n : Int) % 2 ^ 16).toNat = n := by omega
  rw [UInt16.ofInt, hmod]

theorem lexicalCastInt_decimal (indeterminate : Int32) (port : UInt16) :
    UInt16.ofInt (lexicalCastInt indeterminate (Numeral.decimal port.toNat)).toInt = port := by
  have hlt : port.toNat < 65536 := port.toNat_lt
  rw [lexicalCastInt_digits _ (allDigits_decimal _) (Numeral.decimal_ne_nil _),
    Numeral.numeralValue_decimal, Int.min_eq_left (by omega), uint16_ofInt_natCast hlt, UInt16.ofNat_toNat]

/-! ## The buffer -/

theorem cStr_of_not_mem {s : Str} (h : 0 ∉ s) : cStr s = s := by
  rw [cStr, List.takeWhile_eq_self_iff]
  intro c hc
  rw [bne_iff_ne]
  rintro rfl
  exact h hc

namespace ProfileStore

variable (P : Platform) (s : ProfileStore)

theorem convertIn_plain {t : Str} (h : t.all isPlainChar = true) (n : Nat) :
    P.convertIn t n = ((t.take n).map UInt8.toNat, decide (t.length ≤ n)) := by
  have hchar : ∀ c ∈ t, 0 < c ∧ c < 0x80 := by
    intro c hc
    simpa [isPlainChar] using List.all_eq_true.mp h c hc
  have hnul : 0 ∉ t := fun hmem => absurd (hchar 0 hmem).1 (by decide)
  rw [Platform.convertIn, cStr_of_not_mem hnul]
  exact Utf8.decode_ascii _ _ n fun c hc => (hchar c hc).2

theorem toWCHARVector_plain {t : Str} (h : t.all isPlainChar = true) :
    P.toWCHARVector t = t.map UInt8.toNat := by
  have hnul : 0 ∉ t := fun hmem => absurd (List.all_eq_true.mp h 0 hmem) (by decide)
  rw [Platform.toWCHARVector, convertIn_plain P h, cStr_of_not_mem hnul]
  simp

theorem sqlWcharToString_plain {t : Str} (h : t.all isPlainChar = true) :
    sqlWcharToString (t.map UInt8.toNat) = t := by
  induction t with
  | nil => rfl
  | cons c t ih =>
    simp only [List.all_cons, Bool.and_eq_true] at h
    have hc : c.toNat < 0x80 := by
      have := h.1
      simp only [isPlainChar, Bool.and_eq_true, decide_eq_true_eq, UInt8.lt_iff_toNat_lt] at this
      simpa using this.2
    have ih := ih h.2
    rw [sqlWcharToString] at ih ⊢
    rw [List.map_cons, List.flatMap_cons, ih, Utf8.encode, if_pos hc, UInt8.ofNat_toNat]
    rfl

/-- The number of characters copied is below the size of the buffer, so the
buffer is never enlarged. -/
theorem readDsnString_eq (dsn key : Str) :
    s.readDsnString P dsn key =
      let res := sqlWcharToString (((s (P.toWCHARVector dsn) (P.toWCHARVector key)).getD
        (P.toWCHARVector unique)).take (bufferSize - 1))
      if res ≠ unique then some res else none := by
  have hsize : ∀ w : WideStr, ¬ bufferSize < (w.take (bufferSize - 1)).length := by
    intro w
    rw [List.length_take]
    omega
  simp only [readDsnString, getPrivateProfileString, hsize, if_false]

theorem unique_plain : unique.all isPlainChar = true := by decide

theorem readDsnString_missing {dsn key : Str} (h : s (P.toWCHARVector dsn) (P.toWCHARVector key) = none) :
    s.readDsnString P dsn key = none := by
  have hlen : unique.length ≤ bufferSize - 1 := by decide
  rw [readDsnString_eq, h, Option.getD_none, toWCHARVector_plain P unique_plain, List.take_of_length_le,
    sqlWcharToString_plain unique_plain]
  · simp
  · rwa [List.length_map]

/-- A text that converts to `SQLWCHAR` completely and leaves room for the
terminator in the buffer of `ReadDsnString`. -/
def Fits (text : Str) : Prop :=
  (P.convertIn text text.length).2 = true ∧ (P.convertIn text text.length).1.length < bufferSize

instance (text : Str) : Decidable (Fits P text) := inferInstanceAs (Decidable (_ ∧ _))

theorem fits_plain {t : Str} (h : t.all isPlainChar = true) : Fits P t ↔ t.length < bufferSize := by
  simp [Fits, convertIn_plain P h]

theorem flatMap_encode_eq_nil {w : WideStr} (h : w.flatMap Utf8.encode = []) : w = [] := by
  cases w with
  | nil => rfl
  | cons x w => exact absurd (List.append_eq_nil_iff.mp h).1 (Utf8.encode_ne_nil x)

/-- **What was stored comes back** just when it fits. -/
theorem readDsnString_stored {dsn key v : Str}
    (h : s (P.toWCHARVector dsn) (P.toWCHARVector key) = some (P.toWCHARVector v)) (hnul : 0 ∉ v)
    (hu : v ≠ unique) : s.readDsnString P dsn key = some v ↔ Fits P v := by
  obtain ⟨rest, hv, hrest⟩ := Utf8.decode_spec P.sqlWchar.maxCode P.surrogates v.length v
  have hconv : P.convertIn v v.length =
      Utf8.decode (Utf8.next P.sqlWchar.maxCode P.surrogates) v.length v := by
    rw [Platform.convertIn, cStr_of_not_mem hnul]
    rfl
  have hw : P.toWCHARVector v = (P.convertIn v v.length).1 := by
    rw [Platform.toWCHARVector, cStr_of_not_mem hnul]
  rw [← hconv] at hv hrest
  rw [readDsnString_eq, h, Option.getD_some, hw, Fits, hrest]
  generalize (P.convertIn v v.length).1 = w at hv
  have hpos : 0 < bufferSize := by decide
  constructor
  · intro hread
    have hcut : sqlWcharToString (w.take (bufferSize - 1)) = v := by
      dsimp only at hread
      split at hread
      · exact Option.some.inj hread
      · cases hread
    -- the part read is the whole text, so nothing of it was left behind
    have hsplit : w.flatMap Utf8.encode =
        (w.take (bufferSize - 1)).flatMap Utf8.encode ++ (w.drop (bufferSize - 1)).flatMap Utf8.encode := by
      rw [← List.flatMap_append, List.take_append_drop]
    rw [hsplit, List.append_assoc, ← sqlWcharToString, hcut, List.self_eq_append_right,
      List.append_eq_nil_iff] at hv
    have hdrop := flatMap_encode_eq_nil hv.1
    rw [List.drop_eq_nil_iff] at hdrop
    exact ⟨hv.2, by omega⟩
  · rintro ⟨rfl, hlen⟩
    have hcut : sqlWcharToString (w.take (bufferSize - 1)) = v := by
      rw [List.take_of_length_le (by omega), hv, List.append_nil]
      rfl
    simp only [hcut]
    exact if_pos hu

/-! ## Registering -/

/-- Writing and removing never fail: a missing entry is as good as removed. -/
theorem writeDsnString_eq (dsn key : Str) (value : Option Str) :
    s.writeDsnString P dsn key value =
      (fun d k => if d = P.toWCHARVector dsn ∧ k = P.toWCHARVector key then value.map P.toWCHARVector
        else s d k, true) := by
  simp only [writeDsnString, writePrivateProfileString]
  cases value with
  | some v => rfl
  | none =>
    by_cases h : s (P.toWCHARVector dsn) (P.toWCHARVector key) = none
    · have hput : s = fun d k => if d = P.toWCHARVector dsn ∧ k = P.toWCHARVector key then none else s d k := by
        funext d k
        by_cases hk : d = P.toWCHARVector dsn ∧ k = P.toWCHARVector key
        · simp [hk, h]
        · simp [hk]
      simpa [h] using hput
    · simp [h]

theorem attr_key_plain (a : Attr) : a.key.all isPlainChar = true := by
  cases a <;> decide

theorem toWCHARVector_inj {t u : Str} (ht : t.all isPlainChar = true) (hu : u.all isPlainChar = true)
    (h : P.toWCHARVector t = P.toWCHARVector u) : t = u := by
  rw [toWCHARVector_plain P ht, toWCHARVector_plain P hu] at h
  exact List.map_injective_iff.mpr (fun _ _ => UInt8.toNat_inj.mp) h

/-- The loop leaves other entries alone and writes each of its own. -/
theorem registerEntries_spec (c : Configuration H) (dsn : Str) {l : List Attr} (hn : l.Nodup) :
    let written := registerEntries P dsn (l.map (entryOf c)) s
    written.2 = true ∧
    (∀ k, (∀ a ∈ l, k ≠ P.toWCHARVector a.key) →
      written.1 (P.toWCHARVector dsn) k = s (P.toWCHARVector dsn) k) ∧
    ∀ a ∈ l, written.1 (P.toWCHARVector dsn) (P.toWCHARVector a.key) =
      if isCredential a.key then none else some (P.toWCHARVector (textOf c a)) := by
  induction l generalizing s with
  | nil => exact ⟨rfl, fun _ _ => rfl, by simp⟩
  | cons b l ih =>
    rw [List.nodup_cons] at hn
    simp only [List.map_cons, entryOf, registerEntries, writeDsnString_eq, if_true]
    obtain ⟨hok, hother, hown⟩ := ih _ hn.2
    refine ⟨hok, fun k hk => ?_, fun a ha => ?_⟩
    · refine (hother k fun a ha => hk a (List.mem_cons_of_mem b ha)).trans ?_
      simp [hk b (List.mem_cons_self ..)]
    · rcases List.mem_cons.mp ha with rfl | ha
      · -- the entries behind it have other keys
        refine (hother _ fun b hb he => ?_).trans ?_
        · exact hn.1 (key_inj (toWCHARVector_inj P (attr_key_plain _) (attr_key_plain _) he) ▸ hb)
        · cases isCredential a.key <;> simp
      · exact hown a ha

/-- The fields a data source keeps. -/
def isKept : Attr → Bool
  | .dsn | .driver | .user | .password | .sshPrivateKeyPassphrase => false
  | _ => true

theorem isCredential_key {a : Attr} (h : isKept a = true) : isCredential a.key = false := by
  cases a <;> first | decide | cases h

/-- **What is registered**: the fields that are set, and no credentials. -/
theorem registerDsn_entry (c : Configuration H) (driver : Str) :
    let written := s.registerDsn P c driver
    written.2 = true ∧
    (∀ key, isCredential key = true →
      written.1 (P.toWCHARVector (cStr c.getDsn)) (P.toWCHARVector key) = none) ∧
    ∀ a, isKept a = true → written.1 (P.toWCHARVector (cStr c.getDsn)) (P.toWCHARVector a.key) =
      if c.isSet a then some (P.toWCHARVector (textOf c a)) else none := by
  obtain ⟨l, hn, hmem, hmap⟩ := toMap_eq c
  have hfilter : (l.map (entryOf c)).filter (fun e => e.1 != Attr.dsn.key && e.1 != Attr.driver.key) =
      (l.filter fun a => a.key != Attr.dsn.key && a.key != Attr.driver.key).map (entryOf c) := by
    rw [List.filter_map]
    rfl
  have hdriver : (ascii "Driver").all isPlainChar = true := by decide
  -- the new section has one entry, which is none of the driver's keys
  have hempty : ∀ {t : Str}, t.all isPlainChar = true → t ≠ ascii "Driver" →
      s.writeDsnToIni (P.toWCHARVector (cStr c.getDsn)) (P.toWCHARVector driver)
        (P.toWCHARVector (cStr c.getDsn)) (P.toWCHARVector t) = none := by
    intro t ht hne
    have hkey : P.toWCHARVector t ≠ (ascii "Driver").map UInt8.toNat := by
      rw [← toWCHARVector_plain P hdriver]
      exact fun he => hne (toWCHARVector_inj P ht hdriver he)
    simp [writeDsnToIni, hkey]
  obtain ⟨hok, hother, hown⟩ := registerEntries_spec P
    (s.writeDsnToIni (P.toWCHARVector (cStr c.getDsn)) (P.toWCHARVector driver)) c (cStr c.getDsn)
    (hn.filter fun a => a.key != Attr.dsn.key && a.key != Attr.driver.key)
  simp only [registerDsn, hmap, hfilter]
  refine ⟨hok, fun key hkey => ?_, fun a ha => ?_⟩
  · have hplain : key.all isPlainChar = true ∧ key ≠ ascii "Driver" := by
      simp only [isCredential, Bool.or_eq_true, decide_eq_true_eq] at hkey
      rcases hkey with (((rfl | rfl) | rfl) | rfl) | rfl <;> decide
    by_cases hl : ∃ a ∈ l.filter (fun a => a.key != Attr.dsn.key && a.key != Attr.driver.key), a.key = key
    · obtain ⟨a, ha, rfl⟩ := hl
      rw [hown a ha, if_pos hkey]
    · rw [hother _ fun a ha he => hl ⟨a, ha, (toWCHARVector_inj P hplain.1 (attr_key_plain a) he).symm⟩]
      exact hempty hplain.1 hplain.2
  · have hfilt : (a.key != Attr.dsn.key && a.key != Attr.driver.key) = true := by
      cases a <;> first | decide | cases ha
    by_cases hs : c.isSet a = true
    · rw [if_pos hs, hown a (List.mem_filter.mpr ⟨(hmem a).mpr hs, hfilt⟩), isCredential_key ha]
      rfl
    · rw [if_neg hs, hother]
      · exact hempty (attr_key_plain a) (by cases a <;> decide)
      · intro b hb he
        obtain rfl : a = b := key_inj (toWCHARVector_inj P (attr_key_plain a) (attr_key_plain b) he)
        exact hs ((hmem a).mp (List.mem_filter.mp hb).1)

/-! ## Round trip -/

/-- The configurations a data source can hold. A set log level is known and a
set log path a directory by `Configuration.admitted`. -/
structure Registrable (c : Configuration H) : Prop where
  text : ∀ a, a.kind = .text → c.isSet a = true → 0 ∉ textOf c a ∧ textOf c a ≠ unique
  scanLimit : c.isSet .scanLimit = true → (0 : Int32) < c.getValue .scanLimit
  defaultFetchSize : c.isSet .defaultFetchSize = true → (0 : Int32) < c.getValue .defaultFetchSize
  readPreference : c.isSet .readPreference = true → c.getValue .readPreference ≠ ReadPreference.unknown
  scanMethod : c.isSet .scanMethod = true → c.getValue .scanMethod ≠ ScanMethod.unknown

/-- The conversions of `ReadDsnConfiguration` undo those of `ToMap`. -/
theorem dsnValue_textOf {c : Configuration H} (hc : Registrable c) {a : Attr} (hk : isKept a = true)
    (hs : c.isSet a = true) (indeterminate : Int32) :
    a.dsnValue H indeterminate (textOf c a) = some ⟨c.getValue a, c.admitted a hs⟩ := by
  have hflag : ∀ b : Bool, ((if b then ascii "true" else ascii "false") == ascii "true") = b := by decide
  have hnumber : ∀ {n : Int32}, 0 < n → (if lexicalCastInt indeterminate (int32Text n) > 0 then
      some (⟨lexicalCastInt indeterminate (int32Text n), trivial⟩ : { _v : Int32 // True }) else none) =
      some ⟨n, trivial⟩ := by
    intro n hn
    simp only [lexicalCastInt_int32Text]
    exact if_pos hn
  cases a with
  | dsn | driver | user | password | sshPrivateKeyPassphrase => cases hk
  | database | hostname | appName | replicaSet | tlsCaFile | sshUser | sshHost | sshPrivateKeyFile
  | sshKnownHostsFile | schemaName => rfl
  | port => exact congrArg some (Subtype.ext (lexicalCastInt_decimal indeterminate _))
  | loginTimeoutSec => exact congrArg some (Subtype.ext (lexicalCastInt_int32Text indeterminate _))
  | scanLimit => exact hnumber (hc.scanLimit hs)
  | defaultFetchSize => exact hnumber (hc.defaultFetchSize hs)
  | retryReads | tls | tlsAllowInvalidHostnames | sshEnable | sshStrictHostKeyChecking | refreshSchema =>
    exact congrArg some (Subtype.ext (hflag _))
  | readPreference =>
    have hback : ∀ p : ReadPreference, p ≠ .unknown → ReadPreference.fromString p.toString .primary = p := by
      intro p hp
      cases p <;> first | decide | exact absurd rfl hp
    exact congrArg some (Subtype.ext (hback _ (hc.readPreference hs)))
  | scanMethod =>
    have hback : ∀ m : ScanMethod, m ≠ .unknown → ScanMethod.fromString m.toString .random = m := by
      intro m hm
      cases m <;> first | decide | exact absurd rfl hm
    exact congrArg some (Subtype.ext (hback _ (hc.scanMethod hs)))
  | logLevel =>
    have hl : c.getValue .logLevel ≠ LogLevel.unknown := c.admitted .logLevel hs
    have hback : ∀ l : LogLevel, l ≠ .unknown → LogLevel.fromString l.toString .error = l := by
      intro l hl
      cases l <;> first | decide | exact absurd rfl hl
    have hread := hback _ hl
    exact (dif_pos (by rwa [← hread] at hl)).trans (congrArg some (Subtype.ext hread))
  | logPath =>
    have hd : H.isValidDirectory (c.getValue .logPath) = true := c.admitted .logPath hs
    exact dif_pos hd

/-- A text field takes the text as it is. -/
theorem dsnValue_text {a : Attr} (hk : a.kind = .text) {indeterminate : Int32} {t : Str}
    {v : { v : a.Val // a.Admits H v }} (h : a.dsnValue H indeterminate t = some v) :
    valueText a.kind v.1 = t := by
  cases a with
  | dsn | driver => cases h
  | database | hostname | user | password | appName | replicaSet | tlsCaFile | sshUser | sshHost
  | sshPrivateKeyFile | sshPrivateKeyPassphrase | sshKnownHostsFile | schemaName =>
    cases Option.some.inj h
    rfl
  | logPath =>
    simp only [Attr.dsnValue] at h
    split at h
    · cases Option.some.inj h
      rfl
    · cases h
  | port | loginTimeoutSec | readPreference | retryReads | tls | tlsAllowInvalidHostnames | sshEnable
  | sshStrictHostKeyChecking | logLevel | scanMethod | scanLimit | refreshSchema | defaultFetchSize =>
    cases hk

/-- The texts of the other types are short and plain. -/
theorem textOf_fits (c : Configuration H) {a : Attr} (ha : a.kind ≠ .text) :
    (textOf c a).all isPlainChar = true ∧ (textOf c a).length < 36 := by
  have hdigits : ∀ n, (Numeral.decimal n).all isPlainChar = true := by
    intro n
    rw [List.all_eq_true]
    intro c hc
    exact isPlainChar_of_isDigit (Numeral.isDigit_of_mem_decimal n c hc)
  have hint : ∀ n : Int32, (int32Text n).all isPlainChar = true ∧ (int32Text n).length < 36 := by
    intro n
    have hlt : n.toInt < 2147483648 := n.toInt_lt
    have hge : -2147483648 ≤ n.toInt := n.le_toInt
    have hlen : (Numeral.decimal n.toInt.natAbs).length ≤ 9 + 1 := Numeral.length_decimal_le (by omega)
    rw [int32Text, intText]
    split
    · refine ⟨by rw [List.all_cons, hdigits]; decide, ?_⟩
      rw [List.length_cons]
      omega
    · exact ⟨hdigits _, by omega⟩
  cases a with
  | port =>
    have hlt : UInt16.toNat (c.getValue .port) < 65536 := UInt16.toNat_lt _
    have hlen : (Numeral.decimal (UInt16.toNat (c.getValue .port))).length ≤ 4 + 1 :=
      Numeral.length_decimal_le (by omega)
    exact ⟨hdigits _, Nat.lt_of_le_of_lt hlen (by decide)⟩
  | loginTimeoutSec | scanLimit | defaultFetchSize => exact hint _
  | retryReads | tls | tlsAllowInvalidHostnames | sshEnable | sshStrictHostKeyChecking | refreshSchema =>
    have hflag : ∀ b : Bool, (valueText .flag b).all isPlainChar = true ∧ (valueText .flag b).length < 36 := by
      decide
    exact hflag _
  | readPreference =>
    simp only [textOf, valueText]
    cases c.getValue .readPreference <;> decide
  | logLevel =>
    simp only [textOf, valueText]
    cases c.getValue .logLevel <;> decide
  | scanMethod =>
    simp only [textOf, valueText]
    cases c.getValue .scanMethod <;> decide
  | dsn | driver | database | hostname | user | password | appName | replicaSet | tlsCaFile | sshUser
  | sshHost | sshPrivateKeyFile | sshPrivateKeyPassphrase | sshKnownHostsFile | logPath | schemaName =>
    exact absurd rfl ha

/-- One field of a registered data source, read into an empty configuration. -/
theorem readDsnConfiguration_registered {c : Configuration H} (hc : Registrable c) (driver : Str)
    (indeterminate : Int32) {a : Attr} (hk : isKept a = true) (hs : c.isSet a = true) :
    (((s.registerDsn P c driver).1.installer P indeterminate).readDsnConfiguration c.getDsn (fresh H)).attr a =
      c.attr a ↔ (a.kind = .text → Fits P (textOf c a)) := by
  have hentry := (registerDsn_entry P s c driver).2.2 a hk
  rw [if_pos hs] at hentry
  -- What is registered matters by its entries only.
  generalize (s.registerDsn P c driver).1 = registered at hentry ⊢
  have hread := readDsnString_stored P registered hentry
  have hback : registered.readDsnString P (cStr c.getDsn) a.key = some (textOf c a) →
      (registered.installer P indeterminate).found (cStr c.getDsn) H a =
        some ⟨c.getValue a, c.admitted a hs⟩ := fun hstr =>
    Option.bind_eq_some_iff.mpr ⟨_, hstr, dsnValue_textOf hc hk hs indeterminate⟩
  rw [Installer.readDsnConfiguration_fresh, attr_eq_of_isSet hs]
  by_cases hkind : a.kind = .text
  · obtain ⟨hnul, hu⟩ := hc.text a hkind hs
    rw [← hread hnul hu]
    constructor
    · intro hattr _
      obtain ⟨v, hfound, hv⟩ : ∃ v, (registered.installer P indeterminate).found
          (cStr c.getDsn) H a = some v ∧ v.1 = c.getValue a := by
        cases hf : (registered.installer P indeterminate).found (cStr c.getDsn) H a with
        | none =>
          rw [hf] at hattr
          cases congrArg SettableValue.isSet hattr
        | some v =>
          rw [hf] at hattr
          exact ⟨v, rfl, congrArg SettableValue.val hattr⟩
      obtain ⟨t, ht, htv⟩ := Option.bind_eq_some_iff.mp hfound
      have htext := dsnValue_text hkind htv
      rw [hv] at htext
      rw [textOf, htext]
      exact ht
    · intro hstr
      rw [hback (hstr hkind)]
      rfl
  · obtain ⟨hplain, hlen⟩ := textOf_fits c hkind
    have hnul : 0 ∉ textOf c a := fun hmem => absurd (List.all_eq_true.mp hplain 0 hmem) (by decide)
    have hu : textOf c a ≠ unique := by
      intro he
      rw [he] at hlen
      exact absurd hlen (by decide)
    have hsize : 36 < bufferSize := by decide
    have hstr := (hread hnul hu).mpr ((fits_plain P hplain).mpr (by omega))
    rw [hback hstr]
    exact ⟨fun _ ht => absurd ht hkind, fun _ => rfl⟩

/-- **Register and read back.** The fields a data source keeps come back, and
the credentials stay out of it, just when every text fits. -/
theorem registerDsn_roundTrip_iff {c : Configuration H} (hc : Registrable c) (driver : Str)
    (indeterminate : Int32) :
    ((∀ a, isKept a = true → c.isSet a = true →
        (((s.registerDsn P c driver).1.installer P indeterminate).readDsnConfiguration c.getDsn
          (fresh H)).attr a = c.attr a) ∧
      (∀ key, isCredential key = true →
        (s.registerDsn P c driver).1 (P.toWCHARVector (cStr c.getDsn)) (P.toWCHARVector key) = none) ∧
      ∀ (i : Installer) (dsn : Str) (target : Configuration H) (a : Attr), target.isSet a = true →
        (i.readDsnConfiguration dsn target).attr a = target.attr a) ↔
    ∀ a, isKept a = true → a.kind = .text → c.isSet a = true → Fits P (textOf c a) := by
  constructor
  · rintro ⟨hback, -, -⟩ a hk ht hs
    exact (readDsnConfiguration_registered P s hc driver indeterminate hk hs).mp (hback a hk hs) ht
  · intro hfits
    refine ⟨fun a hk hs => ?_, (registerDsn_entry P s c driver).2.1, fun i dsn target a h => ?_⟩
    · exact (readDsnConfiguration_registered P s hc driver indeterminate hk hs).mpr fun ht => hfits a hk ht hs
    · exact i.readDsnConfiguration_of_isSet dsn h

theorem registerDsn_roundTrip_iff_database :
    let c := (((fresh .diskless).setDatabase [0x64, 0xC3, 0xA9]).setPort 27018).setPassword (ascii "pw")
    let r := ((registerDsn .unixOdbc (fun _ _ => none) c (ascii "Amazon DocumentDB")).1.installer .unixOdbc
      0).readDsnConfiguration c.getDsn (fresh .diskless)
    r.attr .database = ⟨[0x64, 0xC3, 0xA9], true⟩ ∧ r.attr .port = ⟨27018, true⟩ := by
  have h := registerDsn_roundTrip_iff .unixOdbc (fun _ _ => none)
    (c := (((fresh .diskless).setDatabase [0x64, 0xC3, 0xA9]).setPort 27018).setPassword (ascii "pw"))
    { text := by
        intro a
        cases a <;> decide
      scanLimit := by decide
      defaultFetchSize := by decide
      readPreference := by decide
      scanMethod := by decide } (ascii "Amazon DocumentDB") 0
  have hfits := h.mpr (by
    intro a
    cases a <;> decide)
  exact ⟨hfits.1 .database rfl rfl, hfits.1 .port rfl rfl⟩

/-- A name that does not fit in the buffer is cut. -/
theorem readDsnConfiguration_longName {v : Str} (hplain : v.all isPlainChar = true)
    (hlen : bufferSize ≤ v.length) (driver : Str) (indeterminate : Int32) :
    let c := (fresh H).setDatabase v
    Registrable c ∧ c.isSet .database = true ∧
      (((s.registerDsn P c driver).1.installer P indeterminate).readDsnConfiguration c.getDsn (fresh H)).attr
        .database ≠ c.attr .database := by
  intro c
  have hset : c.attr .database = ⟨v, true⟩ := setValue_attr_self _ .database _ trivial
  have hunset : ∀ a, a ≠ .database → c.isSet a ≠ true := by
    intro a ha
    have hfresh : c.attr a = (fresh H).attr a := setValue_attr_of_ne (fresh H) (a := .database) v trivial ha
    rw [Configuration.isSet, hfresh]
    exact Bool.false_ne_true
  have hs : c.isSet .database = true := congrArg SettableValue.isSet hset
  have htext : textOf c .database = v := congrArg SettableValue.val hset
  have hc : Registrable c := by
    refine ⟨fun a hk ha => ?_, fun h => ?_, fun h => ?_, fun h => ?_, fun h => ?_⟩
    · by_cases hd : a = .database
      · subst hd
        rw [htext]
        refine ⟨fun hmem => absurd (List.all_eq_true.mp hplain 0 hmem) (by decide), ?_⟩
        rintro rfl
        exact absurd hlen (by decide)
      · exact absurd ha (hunset a hd)
    all_goals exact absurd h (hunset _ (by decide))
  refine ⟨hc, hs, fun hback => ?_⟩
  have hfits := (readDsnConfiguration_registered P s hc driver indeterminate rfl hs).mp hback rfl
  rw [htext, fits_plain P hplain] at hfits
  omega

/-- A database name of `BUFFER_SIZE` letters loses its last one. -/
theorem registerDsn_long_name :
    let c := (fresh .diskless).setDatabase (List.replicate bufferSize 97)
    Registrable c ∧ c.isSet .database = true ∧
      (((registerDsn .unixOdbc (fun _ _ => none) c (ascii "Amazon DocumentDB")).1.installer .unixOdbc
        0).readDsnConfiguration c.getDsn (fresh .diskless)).attr .database ≠ c.attr .database := by
  refine readDsnConfiguration_longName .unixOdbc (fun _ _ => none) ?_ ?_ (ascii "Amazon DocumentDB") 0
  · rw [List.all_replicate]
    decide
  · rw [List.length_replicate]

end ProfileStore

end DocumentDbOdbc
