/-
A connection string and a data source with the same text.

Both front ends start from an empty configuration: the parser handles the one
segment `key=v`, `ReadDsnConfiguration` reads a data source whose only entry
is `v` under `key`. `FrontEndsAgree` lists, field by field, the texts for
which the getter of the field then returns the same value; it is exact
(`frontEnds_agree_iff`). The parser folds case, checks digits and ranges and
splits an address; the data source does none of this.
-/
import DocumentDbOdbc.DsnConfigFacts
import Mathlib.Tactic.SplitIfs

namespace DocumentDbOdbc

open DocumentDbOdbc.Configuration ConnectionStringParser

variable {H : Host}

/-! ## One entry -/

/-- A text without the characters that mean something in a connection string,
and without whitespace around it. -/
structure EntryText (v : Str) : Prop where
  plain : ∀ x ∈ v, x ≠ 59 ∧ x ≠ 61 ∧ x ≠ 123 ∧ x ≠ 125 ∧ x ≠ 0
  trimmed : stripSurroundingWhitespaces v = v

theorem entryText_iff {v : Str} :
    EntryText v ↔ v.all (fun x => x != 59 && x != 61 && x != 123 && x != 125 && x != 0) = true ∧
      stripSurroundingWhitespaces v = v := by
  simp only [List.all_eq_true, Bool.and_eq_true, bne_iff_ne, and_assoc]
  exact ⟨fun h => ⟨h.plain, h.trimmed⟩, fun h => ⟨h.1, h.2⟩⟩

instance (v : Str) : Decidable (EntryText v) := decidable_of_iff _ entryText_iff.symm

/-- What `ReadDsnString` finds in a data source with one entry. -/
def Installer.HasOnly (i : Installer) (dsn key v : Str) : Prop :=
  ∀ a : Attr, i.readDsnString dsn a.key = if a.key = key then some v else none

/-- A profile store with one entry. -/
def ProfileStore.only (P : Platform) (dsn key v : Str) : ProfileStore := fun d k =>
  if d = P.toWCHARVector dsn ∧ k = P.toWCHARVector key then some (P.toWCHARVector v) else none

theorem ProfileStore.only_hasOnly (P : Platform) (dsn : Str) {key v : Str}
    (hkey : key.all isPlainChar = true) (hnul : 0 ∉ v) (hu : v ≠ unique) (hfits : Fits P v)
    (indeterminate : Int32) : ((only P dsn key v).installer P indeterminate).HasOnly dsn key v := by
  intro a
  rw [Installer.readDsnString, installer]
  by_cases hk : a.key = key
  · rw [if_pos hk]
    exact (readDsnString_stored P _ (by simp [only, hk]) hnul hu).mpr hfits
  · have hne : P.toWCHARVector a.key ≠ P.toWCHARVector key := fun he =>
      hk (toWCHARVector_inj P (attr_key_plain a) hkey he)
    rw [if_neg hk]
    exact readDsnString_missing P _ (by simp [only, hne])

theorem readDsnConfiguration_only {i : Installer} {dsn key v : Str} (h : i.HasOnly (cStr dsn) key v)
    (a : Attr) :
    (i.readDsnConfiguration dsn (fresh H)).getValue a =
      if a.key = key then (a.dsnValue H i.indeterminate v).elim (a.defaultValue H) fun v => v.1
      else a.defaultValue H := by
  rw [Configuration.getValue, Installer.readDsnConfiguration_fresh, Installer.found, h a]
  by_cases hk : a.key = key
  · rw [if_pos hk, if_pos hk, Option.bind_some]
    cases a.dsnValue H i.indeterminate v <;> rfl
  · rw [if_neg hk, if_neg hk]
    rfl

theorem attrOfKey_of_mem {key : Str} {a : Attr} (h : (key, a) ∈ keywords) :
    attrOfKey (toLower (stripSurroundingWhitespaces key)) = some a ∧ stripSurroundingWhitespaces key = key := by
  have hAll : ∀ p ∈ keywords, attrOfKey (toLower (stripSurroundingWhitespaces p.1)) = some p.2 ∧
      stripSurroundingWhitespaces p.1 = p.1 := by decide
  exact hAll (key, a) h

theorem parseConnectionString_only {key v : Str} {a : Attr} (hkey : (key, a) ∈ keywords) (hv : EntryText v) :
    (parseConnectionString (fresh H) (key ++ 61 :: v)).1 = (handleAttr (fresh H) key v a).1 := by
  obtain ⟨ha, hstrip⟩ := attrOfKey_of_mem hkey
  have hwf : ∀ s ∈ [(⟨key, v⟩ : Segment)], s.WellFormed := by
    intro s hs
    obtain rfl := List.mem_singleton.mp hs
    exact ⟨Option.isSome_iff_exists.mpr ⟨a, ha⟩, fun h => (hv.plain _ h).1 rfl,
      fun h => (hv.plain _ h).2.1 rfl, fun h => (hv.plain _ h).2.2.2.2 rfl⟩
  have hcontent : Segment.content ⟨key, v⟩ = v := by
    rw [Segment.content, hv.trimmed, stripBraces, if_neg]
    rintro ⟨hHead, -⟩
    exact (hv.plain 123 (List.mem_of_mem_head? hHead)).2.2.1 rfl
  have hparse := parse_joined_fst (fresh H) hwf
  rw [List.reverse_singleton, List.foldl_cons, List.foldl_nil, apply_eq (s := ⟨key, v⟩) ha, hcontent,
    hstrip] at hparse
  rwa [joined, List.map_singleton, List.intercalate_singleton] at hparse

/-! ## Where they agree -/

/-- Digits the parser takes and an `int` can hold; a text the parser refuses
has to be worth `dflt` in the data source. -/
def NumbersAgree (H : Host) (least : Nat) (v : Str) (worthDefault : Prop) : Prop :=
  if ValidNumber H least v ∧ v ≠ [] then Numeral.numeralValue v ≤ int32Max else worthDefault

/-- `true`, `false` in any case, and anything but `true` where the default is
false. -/
def FlagsAgree (v : Str) (dflt : Bool) : Prop :=
  v = ascii "true" ∨ toLower v ≠ ascii "true" ∧ (toLower v = ascii "false" ∨ dflt = false)

/-- The texts for which the two front ends agree, by field. -/
def FrontEndsAgree (H : Host) (indeterminate : Int32) (key v : Str) : Attr → Prop
  | .dsn => v = ascii "DocumentDB DSN"
  | .driver => v = ascii "Amazon DocumentDB"
  | .user => key = Attr.user.key ∨ v = []
  | .password => key = Attr.password.key ∨ v = []
  | .hostname => 58 ∉ v
  | .port => ValidPort H v ∨ UInt16.ofInt (lexicalCastInt indeterminate v).toInt = 27017
  | .loginTimeoutSec => NumbersAgree H 0 v (lexicalCastInt indeterminate v = 0)
  | .scanLimit =>
    NumbersAgree H 1 v (lexicalCastInt indeterminate v ≤ 0 ∨ lexicalCastInt indeterminate v = 1000)
  | .defaultFetchSize =>
    NumbersAgree H 1 v (lexicalCastInt indeterminate v ≤ 0 ∨ lexicalCastInt indeterminate v = 2000)
  | .retryReads | .tls | .sshStrictHostKeyChecking => FlagsAgree v true
  | .tlsAllowInvalidHostnames | .sshEnable | .refreshSchema => FlagsAgree v false
  | .database | .appName | .readPreference | .replicaSet | .tlsCaFile | .sshUser | .sshHost
  | .sshPrivateKeyFile | .sshPrivateKeyPassphrase | .sshKnownHostsFile | .logLevel | .logPath
  | .scanMethod | .schemaName => True

/-! ## Field by field -/

/-- A flag, where `get` is the getter of what `set` sets. -/
theorem flagsAgree_iff (set : Configuration H → Bool → Configuration H) (get : Configuration H → Bool)
    (hget : ∀ c b, get (set c b) = b) (c : Configuration H) (key v : Str) :
    (v == ascii "true") = get (handleBool set c key v).1 ↔ FlagsAgree v (get c) := by
  have hparsed : get (handleBool set c key v).1 = (stringToBool v).getD (get c) := by
    rw [handleBool]
    cases stringToBool v with
    | none => rfl
    | some b => exact hget c b
  have hne : ascii "false" ≠ ascii "true" := by decide
  have hself : toLower (ascii "true") = ascii "true" := by decide
  rw [hparsed, FlagsAgree, stringToBool]
  by_cases ht : v = ascii "true"
  · simp [ht, hself]
  · have hv : (v == ascii "true") = false := beq_eq_false_iff_ne.mpr ht
    by_cases hl : toLower v = ascii "true"
    · simp [hv, hl, ht]
    · by_cases hf : toLower v = ascii "false"
      · simp [hv, hf, ht, hne]
      · simp only [hv, hl, hf, ht, if_false, Option.getD_none, false_or, not_false_eq_true, true_and, ne_eq]
        exact eq_comm

/-- Above `INT32_MAX` the parser's value is negative and the data source's is
`INT32_MAX`. -/
theorem int32_ofNat_eq_iff {n : Nat} (h : n ≤ uint32Max) {x : Int32}
    (hx : x.toInt = Min.min (n : Int) 2147483647) : x = Int32.ofNat n ↔ n ≤ int32Max := by
  have hn : (Int32.ofNat n).toInt = (n : Int).bmod 4294967296 := Int32.toInt_ofNat'
  rw [← Int32.toInt_inj, hx, hn, Int.bmod_def]
  simp only [uint32Max, int32Max] at h ⊢
  split <;> omega

/-- A number that the data source reads as `x`; an empty text is a number to
the parser where zero is allowed. -/
theorem numbersAgree_iff (set : Configuration H → Int32 → Configuration H) (get : Configuration H → Int32)
    (hget : ∀ c n, get (set c n) = n) (indeterminate : Int32) {least : Nat} {m₁ m₂ m₃ : String}
    (c : Configuration H) (key : Str) {v : Str} {x : Int32} {worthDefault : Prop}
    (hvalid : ValidNumber H least v → v ≠ [] → x = lexicalCastInt indeterminate v)
    (hdflt : x = get c ↔ worthDefault) (hnil : ValidNumber H least [] → get c = 0) :
    x = get (handleNumber set least m₁ m₂ m₃ c key v).1 ↔ NumbersAgree H least v worthDefault := by
  rw [NumbersAgree]
  by_cases hv : ValidNumber H least v
  · rw [handleNumber_valid set hv, hget]
    by_cases hne : v = []
    · subst hne
      rw [if_neg (by simp), ← hdflt, hnil hv]
      rfl
    · rw [if_pos ⟨hv, hne⟩, hvalid hv hne]
      exact int32_ofNat_eq_iff hv.2.2.2 (lexicalCastInt_digits indeterminate hv.1 hne)
  · rw [handleNumber_invalid set hv, if_neg fun h => hv h.1, hdflt]

/-- A positive number is stored, any other leaves the default. -/
theorem positiveAgree_iff (set : Configuration H → Int32 → Configuration H) (get : Configuration H → Int32)
    (hget : ∀ c n, get (set c n) = n) (indeterminate : Int32) {m₁ m₂ m₃ : String} (c : Configuration H)
    (key v : Str) :
    ((if lexicalCastInt indeterminate v > 0 then
        some (⟨lexicalCastInt indeterminate v, trivial⟩ : { _n : Int32 // True }) else none).elim (get c)
          fun n => n.1) = get (handleNumber set 1 m₁ m₂ m₃ c key v).1 ↔
    NumbersAgree H 1 v (lexicalCastInt indeterminate v ≤ 0 ∨ lexicalCastInt indeterminate v = get c) := by
  refine numbersAgree_iff set get hget indeterminate c key (fun hv hne => ?_) ?_
    fun h => absurd h.2.2.1 (by decide)
  · have hcast := lexicalCastInt_digits indeterminate hv.1 hne
    have hpos : lexicalCastInt indeterminate v > 0 := by
      have := hv.2.2.1
      rw [gt_iff_lt, Int32.lt_iff_toInt_lt, hcast, Int32.toInt_zero]
      omega
    rw [if_pos hpos]
    rfl
  · by_cases hpos : lexicalCastInt indeterminate v > 0
    · rw [if_pos hpos]
      exact (or_iff_right (Int32.not_le.mpr hpos)).symm
    · rw [if_neg hpos]
      exact iff_of_true rfl (.inl (Int32.not_lt.mp hpos))

theorem parsePortRange_host (value : Str) (e : EndPoint) : (parsePortRange value e).2.1.host = e.host := by
  simp only [parsePortRange]
  repeat' split
  all_goals rfl

/-- An address keeps its colons in the data source. -/
theorem host_eq_iff (v : Str) : v = (parseSingleAddress H v {}).2.1.host ↔ 58 ∉ v := by
  by_cases hmem : 58 ∈ v
  · have hcount : v.count 58 ≠ 0 := fun h => List.count_eq_zero.mp h hmem
    have hne : v ≠ [] := List.ne_nil_of_mem hmem
    have hshort : v ≠ v.take (v.idxOf 58) := by
      intro he
      have hlen := congrArg List.length he
      have := List.idxOf_lt_length_of_mem hmem
      rw [List.length_take] at hlen
      omega
    refine iff_of_false ?_ (not_not_intro hmem)
    rw [parseSingleAddress]
    simp only [hcount, if_false]
    split
    · exact hne
    split
    · exact hshort
    · rw [parsePortRange_host]
      exact hshort
  · rw [parseSingleAddress_host hmem]
    exact iff_of_true rfl hmem

theorem portsAgree_iff (indeterminate : Int32) (key v : Str) :
    UInt16.ofInt (lexicalCastInt indeterminate v).toInt = (handlePort (fresh H) key v).1.getValue .port ↔
      ValidPort H v ∨ UInt16.ofInt (lexicalCastInt indeterminate v).toInt = 27017 := by
  by_cases h : ValidPort H v
  · refine iff_of_true ?_ (.inl h)
    have hmax := h.2.2.2.2
    simp only [uint16Max] at hmax
    rw [handlePort_valid h, lexicalCastInt_digits _ h.2.1 h.1, Int.min_eq_left (by omega),
      uint16_ofInt_natCast (by omega)]
    exact (congrArg SettableValue.val (setValue_attr_self (fresh H) .port _ trivial)).symm
  · rw [handlePort_invalid h, or_iff_right h]
    rfl

/-- A field that only a known word sets. -/
theorem getValue_ite {p : Prop} [Decidable p] (c : Configuration H) (a : Attr) (v : a.Val) (h : a.Admits H v)
    (diag : List StatusRecord) :
    (if p then (c, diag) else (c.setValue a v h, [])).1.getValue a = if p then c.getValue a else v := by
  split
  · rfl
  · exact getValue_setValue c a v h

/-- An unknown word is the default either way. -/
theorem readPreference_fromString (v : Str) (d : ReadPreference) :
    ReadPreference.fromString v d =
      if ReadPreference.fromString v .unknown = .unknown then d else ReadPreference.fromString v .unknown := by
  simp only [ReadPreference.fromString]
  split_ifs
  all_goals first | rfl | next h => exact absurd rfl h | next h => cases h

theorem scanMethod_fromString (v : Str) (d : ScanMethod) :
    ScanMethod.fromString v d =
      if ScanMethod.fromString v .unknown = .unknown then d else ScanMethod.fromString v .unknown := by
  simp only [ScanMethod.fromString]
  split_ifs
  all_goals first | rfl | next h => exact absurd rfl h | next h => cases h

theorem logLevel_fromString (v : Str) (d : LogLevel) :
    LogLevel.fromString v d =
      if LogLevel.fromString v .unknown = .unknown then d else LogLevel.fromString v .unknown := by
  simp only [LogLevel.fromString]
  split_ifs
  all_goals first | rfl | next h => exact absurd rfl h | next h => cases h

theorem key_of_mem {key : Str} {a : Attr} (h : (key, a) ∈ keywords) :
    a.key = key ∨ a.key ≠ key ∧ (a = .user ∨ a = .password) := by
  have hAll : ∀ p ∈ keywords, p.2.key = p.1 ∨ p.2.key ≠ p.1 ∧ (p.2 = .user ∨ p.2 = .password) := by decide
  exact hAll (key, a) h

/-- The data source knows the field by this key. -/
theorem frontEnds_agree_iff_of_key (indeterminate : Int32) (v : Str) (a : Attr) :
    (a.dsnValue H indeterminate v).elim (a.defaultValue H) (fun v => v.1) =
      (handleAttr (fresh H) a.key v a).1.getValue a ↔ FrontEndsAgree H indeterminate a.key v a := by
  cases a with
  | dsn | driver => exact eq_comm
  | user | password => exact iff_of_true rfl (.inl rfl)
  | hostname =>
    rw [handleAttr_hostname, Configuration.getValue, handleHostname_hostname]
    exact host_eq_iff v
  | port => exact portsAgree_iff indeterminate _ v
  | loginTimeoutSec =>
    exact numbersAgree_iff setLoginTimeoutSeconds (fun c => c.getValue .loginTimeoutSec)
      (fun c n => getValue_setValue c .loginTimeoutSec n trivial) indeterminate (fresh H) _ (fun _ _ => rfl)
      Iff.rfl fun _ => rfl
  | scanLimit =>
    exact positiveAgree_iff setScanLimit (fun c => c.getValue .scanLimit)
      (fun c n => getValue_setValue c .scanLimit n trivial) indeterminate (fresh H) _ v
  | defaultFetchSize =>
    exact positiveAgree_iff setDefaultFetchSize (fun c => c.getValue .defaultFetchSize)
      (fun c n => getValue_setValue c .defaultFetchSize n trivial) indeterminate (fresh H) _ v
  | retryReads =>
    exact flagsAgree_iff setRetryReads (fun c => c.getValue .retryReads) (fun c b => getValue_setValue c .retryReads b trivial)
      (fresh H) _ v
  | tls =>
    exact flagsAgree_iff setTls (fun c => c.getValue .tls) (fun c b => getValue_setValue c .tls b trivial)
      (fresh H) _ v
  | tlsAllowInvalidHostnames =>
    exact flagsAgree_iff setTlsAllowInvalidHostnames (fun c => c.getValue .tlsAllowInvalidHostnames) (fun c b => getValue_setValue c .tlsAllowInvalidHostnames b trivial)
      (fresh H) _ v
  | sshEnable =>
    exact flagsAgree_iff setSshEnable (fun c => c.getValue .sshEnable) (fun c b => getValue_setValue c .sshEnable b trivial)
      (fresh H) _ v
  | sshStrictHostKeyChecking =>
    exact flagsAgree_iff setSshStrictHostKeyChecking (fun c => c.getValue .sshStrictHostKeyChecking) (fun c b => getValue_setValue c .sshStrictHostKeyChecking b trivial)
      (fresh H) _ v
  | refreshSchema =>
    exact flagsAgree_iff setRefreshSchema (fun c => c.getValue .refreshSchema) (fun c b => getValue_setValue c .refreshSchema b trivial)
      (fresh H) _ v
  | readPreference =>
    refine iff_of_true ((readPreference_fromString v .primary).trans ?_) trivial
    exact (getValue_ite (fresh H) .readPreference _ trivial _).symm
  | scanMethod =>
    refine iff_of_true ((scanMethod_fromString v .random).trans ?_) trivial
    exact (getValue_ite (fresh H) .scanMethod _ trivial _).symm
  | logLevel =>
    have hread := logLevel_fromString v .error
    have hknown : LogLevel.fromString v .error ≠ .unknown := by
      rw [hread]
      split
      · decide
      · assumption
    refine iff_of_true ?_ trivial
    simp only [Attr.dsnValue, handleAttr, handleLogLevel]
    rw [dif_pos hknown]
    refine hread.trans ?_
    split
    · rfl
    · next h =>
      rw [setLogLevel, dif_pos h]
      exact (getValue_setValue (fresh H) .logLevel _ h).symm
  | logPath =>
    refine iff_of_true ?_ trivial
    simp only [Attr.dsnValue, handleAttr, setLogPath]
    split
    · exact (getValue_setValue (fresh H) .logPath _ _).symm
    · rfl
  | database | appName | replicaSet | tlsCaFile | sshUser | sshHost | sshPrivateKeyFile
  | sshPrivateKeyPassphrase | sshKnownHostsFile | schemaName => exact iff_of_true rfl trivial

/-- **The two front ends** agree on just these texts. -/
theorem frontEnds_agree_iff {i : Installer} {dsn key v : Str} {a : Attr} (hkey : (key, a) ∈ keywords)
    (hv : EntryText v) (hi : i.HasOnly (cStr dsn) key v) :
    (i.readDsnConfiguration dsn (fresh H)).getValue a =
      (parseConnectionString (fresh H) (key ++ 61 :: v)).1.getValue a ↔
    FrontEndsAgree H i.indeterminate key v a := by
  rw [readDsnConfiguration_only hi, parseConnectionString_only hkey hv]
  rcases key_of_mem hkey with rfl | ⟨hne, ha⟩
  · rw [if_pos rfl]
    exact frontEnds_agree_iff_of_key i.indeterminate v a
  · -- `uid` and `pwd`, which only the parser knows
    rw [if_neg hne]
    rcases ha with rfl | rfl
    · have hparsed : (handleAttr (fresh H) key v .user).1.getValue .user = v :=
        getValue_setValue (fresh H) .user v trivial
      rw [hparsed]
      exact eq_comm.trans (or_iff_right fun h => hne h.symm).symm
    · have hparsed : (handleAttr (fresh H) key v .password).1.getValue .password = v :=
        getValue_setValue (fresh H) .password v trivial
      rw [hparsed]
      exact eq_comm.trans (or_iff_right fun h => hne h.symm).symm

theorem frontEnds_agree_iff_port :
    let i := (ProfileStore.only .unixOdbc (ascii "prod") (ascii "port") (ascii "27018")).installer .unixOdbc 0
    (i.readDsnConfiguration (ascii "prod") (fresh .diskless)).getValue .port =
      (parseConnectionString (fresh .diskless) (ascii "port" ++ 61 :: ascii "27018")).1.getValue .port := by
  intro i
  have hi : i.HasOnly (cStr (ascii "prod")) (ascii "port") (ascii "27018") :=
    ProfileStore.only_hasOnly .unixOdbc (ascii "prod") (by decide) (by decide) (by decide) (by decide) 0
  exact (frontEnds_agree_iff (a := .port) (by decide) (by decide) hi).mpr (.inl (by decide))

/-- A data source reads `TRUE` as false and wraps a port that is too large,
where the parser reads true and keeps the default. -/
theorem frontEnds_disagree :
    let source (a : Attr) (v : Str) := (ProfileStore.only .unixOdbc (ascii "prod") a.key v).installer .unixOdbc 0
    let read (a : Attr) (v : Str) := (source a v).readDsnConfiguration (ascii "prod") (fresh .diskless)
    let parsed (a : Attr) (v : Str) := (parseConnectionString (fresh .diskless) (a.key ++ 61 :: v)).1
    EntryText (ascii "TRUE") ∧ EntryText (ascii "70000") ∧
      (source .tls (ascii "TRUE")).HasOnly (ascii "prod") Attr.tls.key (ascii "TRUE") ∧
      (source .port (ascii "70000")).HasOnly (ascii "prod") Attr.port.key (ascii "70000") ∧
      (read .tls (ascii "TRUE")).getValue .tls ≠ (parsed .tls (ascii "TRUE")).getValue .tls ∧
      (read .port (ascii "70000")).getValue .port ≠ (parsed .port (ascii "70000")).getValue .port := by
  intro source read parsed
  have htls : (source .tls (ascii "TRUE")).HasOnly (cStr (ascii "prod")) Attr.tls.key (ascii "TRUE") :=
    ProfileStore.only_hasOnly .unixOdbc (ascii "prod") (by decide) (by decide) (by decide) (by decide) 0
  have hport : (source .port (ascii "70000")).HasOnly (cStr (ascii "prod")) Attr.port.key (ascii "70000") :=
    ProfileStore.only_hasOnly .unixOdbc (ascii "prod") (by decide) (by decide) (by decide) (by decide) 0
  refine ⟨by decide, by decide, htls, hport, ?_, ?_⟩
  · rw [readDsnConfiguration_only htls .tls]
    decide
  · rw [readDsnConfiguration_only hport .port]
    decide

end DocumentDbOdbc
