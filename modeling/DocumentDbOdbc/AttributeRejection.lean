/-
What a rejected attribute leaves behind, and what a numeric one stores.

A handler that says the value is ignored or the default is used returns the
configuration it was given; `hostname` alone has already stored what is before
the colon, and a port (`handleAttributePair_rejected`). The numbers of the
other numeric attributes are read as 64-bit ones, compared with `UINT32_MAX`
and then stored in 32 bits with a sign (`handleAttributePair_number`).
-/
import DocumentDbOdbc.HostnameAttribute

namespace DocumentDbOdbc

namespace ConnectionStringParser

variable {H : Host}

/-! ## Rejected attributes -/

/-- The two records that report a value that is used. -/
theorem not_rejects_rewriting {message : Str} (hi : message.count 73 = 0) (hu : message.count 117 ≤ 1) :
    ¬ Rejects [optionValueChanged message] := by
  rintro ⟨r, hr, hsays⟩
  obtain rfl := List.mem_singleton.mp hr
  -- an `I`, or more than one `u`
  rcases hsays with h | h | h
  · have := h.sublist.count_le 73
    exact absurd (this.trans (le_of_eq hi)) (by decide)
  · have := h.sublist.count_le 117
    exact absurd (this.trans hu) (by decide)
  · have := h.sublist.count_le 117
    exact absurd (this.trans hu) (by decide)

/-- A handler that rejects returns the configuration it was given. -/
def KeepsRejected (c : Configuration H) (r : Parsed H) : Prop := Rejects r.2 → r.1 = c

theorem keepsRejected_self (c : Configuration H) (diag : List StatusRecord) : KeepsRejected c (c, diag) := fun _ => rfl

theorem keepsRejected_stored (c c' : Configuration H) : KeepsRejected c (c', []) :=
  fun h => absurd h not_rejects_nil

theorem keepsRejected_ite {p : Prop} [Decidable p] (c c' : Configuration H) (diag : List StatusRecord) :
    KeepsRejected c (if p then (c, diag) else (c', [])) := by
  split
  · exact keepsRejected_self c diag
  · exact keepsRejected_stored c c'

theorem handlePort_keepsRejected (c : Configuration H) (key value : Str) : KeepsRejected c (handlePort c key value) := by
  by_cases h : ValidPort H value
  · rw [handlePort_valid h]
    exact keepsRejected_stored c _
  · exact fun _ => handlePort_invalid h c key

theorem handleNumber_keepsRejected (set : Configuration H → Int32 → Configuration H) (least : Nat) (m₁ m₂ m₃ : String)
    (c : Configuration H) (key value : Str) : KeepsRejected c (handleNumber set least m₁ m₂ m₃ c key value) := by
  by_cases h : ValidNumber H least value
  · rw [handleNumber_valid set h]
    exact keepsRejected_stored c _
  · exact fun _ => handleNumber_invalid set h m₁ m₂ m₃ c key

theorem handleBool_keepsRejected (set : Configuration H → Bool → Configuration H) (c : Configuration H) (key value : Str) :
    KeepsRejected c (handleBool set c key value) := by
  rw [handleBool]
  cases stringToBool value with
  | none => exact keepsRejected_self c _
  | some b => exact keepsRejected_stored c _

theorem handleUser_keepsRejected (c : Configuration H) (value : Str) : KeepsRejected c (handleUser c value) := by
  rw [handleUser]
  split
  · exact fun h => absurd h (not_rejects_rewriting (by decide) (by decide))
  · exact keepsRejected_stored c _

theorem handlePassword_keepsRejected (c : Configuration H) (value : Str) : KeepsRejected c (handlePassword c value) := by
  rw [handlePassword]
  split
  · exact fun h => absurd h (not_rejects_rewriting (by decide) (by decide))
  · exact keepsRejected_stored c _

theorem handleAttr_keepsRejected (c : Configuration H) (key value : Str) {a : Attr} (ha : a ≠ .hostname) :
    KeepsRejected c (handleAttr c key value a) := by
  cases a with
  | hostname => exact absurd rfl ha
  | port => exact handlePort_keepsRejected c key value
  | loginTimeoutSec | scanLimit | defaultFetchSize => exact handleNumber_keepsRejected _ _ _ _ _ c key value
  | retryReads | tls | tlsAllowInvalidHostnames | sshEnable | sshStrictHostKeyChecking | refreshSchema =>
    exact handleBool_keepsRejected _ c key value
  | user => exact handleUser_keepsRejected c value
  | password => exact handlePassword_keepsRejected c value
  | readPreference | logLevel | scanMethod => exact keepsRejected_ite c _ _
  | dsn | driver | database | appName | replicaSet | tlsCaFile | sshUser | sshHost | sshPrivateKeyFile
  | sshPrivateKeyPassphrase | sshKnownHostsFile | logPath | schemaName => exact keepsRejected_stored c _

/-- What the handler of `hostname` stores is there already. -/
theorem handleHostname_eq_self (c : Configuration H) (value : Str) :
    (handleHostname c value).1 = c ↔
      c.attr .hostname = ⟨(parseSingleAddress H value {}).2.1.host, true⟩ ∧ c.isSet .port = true := by
  constructor
  · intro h
    have hport := handleHostname_port c value
    rw [h] at hport
    refine ⟨(congrArg (Configuration.attr · .hostname) h).symm.trans (handleHostname_hostname c value), ?_⟩
    rw [Configuration.isSet, hport, portUnlessSet]
    split
    next hset => exact hset
    · rfl
  · rintro ⟨hhost, hport⟩
    have hset : (c.attr .port).isSet = true := hport
    ext1
    funext x
    by_cases hx : x = .hostname
    · subst hx
      rw [handleHostname_hostname, hhost]
    · by_cases hp : x = .port
      · subst hp
        rw [handleHostname_port, portUnlessSet, if_pos hset]
      · exact handleHostname_frame c value hx hp

/-- Where the pair is an address that is ignored, what it stores is there
already. -/
def IgnoredAddressStored (c : Configuration H) (key value : Str) : Prop :=
  attrOfKey (toLower key) = some .hostname → (∀ host n, ¬ Address value host n) →
    c.attr .hostname = ⟨hostOfIgnored value, true⟩ ∧ c.isSet .port = true

/-- **A rejected attribute** changes nothing, except for an address whose host
or port is not what is set already. -/
theorem handleAttributePair_rejected (c : Configuration H) (key value : Str) :
    (Rejects (handleAttributePair c key value).2 → (handleAttributePair c key value).1 = c) ↔
      IgnoredAddressStored c key value := by
  rw [handleAttributePair, IgnoredAddressStored]
  cases ha : attrOfKey (toLower key) with
  | none => exact ⟨fun _ h => absurd h (by simp), fun _ => keepsRejected_self c _⟩
  | some a =>
    by_cases hhost : a = .hostname
    · subst hhost
      simp only [handleAttr_hostname, forall_const]
      by_cases haddress : ∃ host n, Address value host n
      · obtain ⟨host, n, hn⟩ := haddress
        obtain ⟨e, he, -⟩ := parseSingleAddress_of_address (H := H) {} hn
        have hdiag : (handleHostname c value).2 = [] := by rw [handleHostname, he]
        rw [hdiag]
        exact ⟨fun _ h => absurd hn (h host n), fun _ h => absurd h not_rejects_nil⟩
      · simp only [not_exists] at haddress
        obtain ⟨-, hstored, hrejects⟩ := parseSingleAddress_of_not (H := H) haddress
        have hdiag : Rejects (handleHostname c value).2 := hrejects
        rw [handleHostname_eq_self, hstored]
        exact ⟨fun h _ => h hdiag, fun h _ => h haddress⟩
    · exact ⟨fun _ h => absurd (Option.some.inj h) hhost, fun _ => handleAttr_keepsRejected c key value hhost⟩

/-- An address that is ignored, and its host is set all the same. -/
theorem handleAttributePair_rejected_lost :
    ¬ ∀ (c : Configuration Host.diskless) (key value : Str),
      Rejects (handleAttributePair c key value).2 → (handleAttributePair c key value).1 = c := by
  intro h
  have hnot : ∀ host n, ¬ Address (ascii "example.com:0") host n := by
    intro host n haddress
    obtain ⟨e, he, -⟩ := parseSingleAddress_of_address (H := Host.diskless) {} haddress
    have hfails : (parseSingleAddress Host.diskless (ascii "example.com:0") {}).1 = false := by decide
    rw [he] at hfails
    cases hfails
  have hdiag := (parseSingleAddress_of_not (H := Host.diskless) hnot).2.2
  have hc := h (.fresh .diskless) (ascii "hostname") (ascii "example.com:0") hdiag
  have hset : (handleAttributePair (.fresh Host.diskless) (ascii "hostname") (ascii "example.com:0")).1.isSet .hostname =
    true := by decide
  rw [hc] at hset
  cases hset

/-! ## Numbers -/

/-- The number a field holds, for the fields that hold one. -/
def numberOf : (k : Kind) → k.Val → Int
  | .port, v => v.toNat
  | .number, v => v.toInt
  | _, _ => 0

/-- A numeral of decimal digits. -/
def Decimal (value : Str) : Prop := value ≠ [] ∧ allDigits value = true

/-- The number of the text is stored in the field, and nothing else. -/
structure StoresNumber (c : Configuration H) (a : Attr) (value : Str) (r : Parsed H) : Prop where
  decimal : Decimal value
  set : r.1.isSet a = true
  number : numberOf a.kind (r.1.getValue a) = Numeral.numeralValue value
  frame : ∀ b, b ≠ a → r.1.attr b = c.attr b
  silent : r.2 = []

theorem StoresNumber.of_setValue (c : Configuration H) {a : Attr} {v : a.Val} (h : a.Admits H v) {value : Str}
    (hd : Decimal value) (hn : numberOf a.kind v = Numeral.numeralValue value) :
    StoresNumber c a value (c.setValue a v h, []) where
  decimal := hd
  set := congrArg SettableValue.isSet (setValue_attr_self c a v h)
  number := by rw [getValue_setValue]; exact hn
  frame := fun _ hb => setValue_attr_of_ne c v h hb
  silent := rfl

/-- The text is rejected, and nothing is stored. -/
def RejectsNumber (c : Configuration H) (r : Parsed H) : Prop := Rejects r.2 ∧ r.1 = c

/-- A number that does not fit 32 bits with a sign, but is let through. -/
def Wraps (H : Host) (value : Str) : Prop :=
  allDigits value = true ∧ value.length < H.sizeofString ∧ 2 ^ 31 ≤ Numeral.numeralValue value ∧
    Numeral.numeralValue value ≤ uint32Max

instance (H : Host) (value : Str) : Decidable (Wraps H value) := inferInstanceAs (Decidable (_ ∧ _))

/-- The port is safe, the other numbers are unless they wrap, and the login
timeout must not be empty. -/
def NumberSafe (H : Host) (a : Attr) (value : Str) : Prop :=
  a = .port ∨ ¬ Wraps H value ∧ ¬ (a = .loginTimeoutSec ∧ value = [])

/-- A message that ends in saying that the default is used. -/
def EndsInDefault (msg : String) : Prop := ∃ pre : String, msg = pre ++ "Using default value."

theorem EndsInDefault.rejects {msg : String} (h : EndsInDefault msg) (key value : Str) :
    Rejects [optionValueChanged (makeErrorMessage msg key value)] := by
  obtain ⟨pre, rfl⟩ := h
  refine rejects_single (.inr (.inl ⟨ascii pre, ascii "." ++ (ascii " [key='" ++ key ++ ascii "', value='" ++ value ++
    ascii "']"), ?_⟩))
  have hmsg : ascii "Using default value." = ascii "Using default value" ++ ascii "." := ascii_append "Using default value" "."
  simp only [optionValueChanged, makeErrorMessage, ascii_append pre, hmsg, List.append_assoc]

theorem rejectsNumber_of_rejected {c : Configuration H} {key value : Str} {r : Parsed H} {messages : List String}
    (h : ∃ m ∈ messages, r = rejected c (makeErrorMessage m key value)) (hm : ∀ m ∈ messages, EndsInDefault m) :
    RejectsNumber c r := by
  obtain ⟨m, hmem, rfl⟩ := h
  exact ⟨(hm m hmem).rejects key value, rfl⟩

theorem handlePort_rejects {value : Str} (h : ¬ ValidPort H value) (c : Configuration H) (key : Str) :
    RejectsNumber c (handlePort c key value) := by
  refine rejectsNumber_of_rejected (handlePort_eq_rejected h c key) ?_
  simp only [List.forall_mem_cons, List.not_mem_nil, false_imp_iff, implies_true, and_true]
  exact ⟨⟨"Port attribute value is empty. ", by decide⟩,
    ⟨"Port attribute value contains unexpected characters. ", by decide⟩,
    ⟨"Port attribute value is too large. ", by decide⟩, ⟨"Port attribute value is out of range. ", by decide⟩⟩

/-- The port is stored exactly or rejected. -/
theorem handlePort_exact (c : Configuration H) (key value : Str) :
    StoresNumber c .port value (handlePort c key value) ∨ RejectsNumber c (handlePort c key value) := by
  by_cases h : ValidPort H value
  · rw [handlePort_valid h]
    have hn : (UInt16.ofNat (Numeral.numeralValue value)).toNat = Numeral.numeralValue value := toNat_port h.2.2.2.2
    exact .inl (.of_setValue c trivial ⟨h.1, h.2.1⟩ (congrArg Int.ofNat hn))
  · exact .inr (handlePort_rejects h c key)

theorem toInt_ofNat_eq_iff {n : Nat} (h : n ≤ uint32Max) : (Int32.ofNat n).toInt = n ↔ n < 2 ^ 31 := by
  have hsize : Int32.size = 4294967296 := rfl
  simp only [uint32Max] at h
  rw [Int32.toInt_ofNat', hsize, Int.bmod_def]
  split <;> omega

/-- The handler of a 32-bit number stores it exactly or rejects it, unless it
wraps or is empty and let through. -/
theorem handleNumber_exact (a : Attr) {set : Configuration H → Int32 → Configuration H} (least : Nat)
    {m₁ m₂ m₃ : String}
    (hset : ∀ c n, ∃ v : a.Val, ∃ h : a.Admits H v, set c n = c.setValue a v h ∧ numberOf a.kind v = n.toInt)
    (h₁ : EndsInDefault m₁) (h₂ : EndsInDefault m₂) (h₃ : EndsInDefault m₃) (hleast : least ≤ 1)
    (c : Configuration H) (key value : Str) :
    (StoresNumber c a value (handleNumber set least m₁ m₂ m₃ c key value) ∨
      RejectsNumber c (handleNumber set least m₁ m₂ m₃ c key value)) ↔
      ¬ Wraps H value ∧ ¬ (least = 0 ∧ value = []) := by
  by_cases h : ValidNumber H least value
  · have hle : Numeral.numeralValue value ≤ uint32Max := h.2.2.2
    obtain ⟨v, hv, hc, hn⟩ := hset c (Int32.ofNat (Numeral.numeralValue value))
    rw [handleNumber_valid set h, hc]
    constructor
    · rintro (hstored | hrejected)
      · have hnumber := hstored.number
        rw [getValue_setValue, hn, toInt_ofNat_eq_iff hle] at hnumber
        exact ⟨fun hw => absurd hw.2.2.1 (by omega), fun he => hstored.decimal.1 he.2⟩
      · exact absurd hrejected.1 not_rejects_nil
    · rintro ⟨hw, he⟩
      have hlt : Numeral.numeralValue value < 2 ^ 31 := by
        by_contra hge
        exact hw ⟨h.1, h.2.1, by omega, hle⟩
      have hne : value ≠ [] := by
        rintro rfl
        exact he ⟨Nat.le_zero.mp h.2.2.1, rfl⟩
      exact .inl (.of_setValue c hv ⟨hne, h.1⟩ (hn.trans ((toInt_ofNat_eq_iff hle).mpr hlt)))
  · refine ⟨fun _ => ⟨fun hw => ?_, ?_⟩, fun _ => .inr (rejectsNumber_of_rejected
      (handleNumber_eq_rejected set h m₁ m₂ m₃ c key) ?_)⟩
    · have hge := hw.2.2.1
      exact h ⟨hw.1, hw.2.1, by omega, hw.2.2.2⟩
    · rintro ⟨rfl, rfl⟩
      have hsize := H.sizeofString_ge
      exact h ⟨rfl, by simp only [List.length_nil]; omega, Nat.zero_le _, by decide⟩
    · simp only [List.forall_mem_cons, List.not_mem_nil, false_imp_iff, implies_true, and_true]
      exact ⟨h₁, h₂, h₃⟩

/-- The numeric fields. -/
def numericAttrs : List Attr := [.port, .loginTimeoutSec, .scanLimit, .defaultFetchSize]

/-- **A numeric attribute** is stored exactly or rejected just when its number
does not wrap; an empty login timeout is stored as zero. -/
theorem handleAttributePair_number (c : Configuration H) {a : Attr} (ha : a ∈ numericAttrs) {key : Str}
    (hkey : attrOfKey (toLower key) = some a) (value : Str) :
    (StoresNumber c a value (handleAttributePair c key value) ∨ RejectsNumber c (handleAttributePair c key value)) ↔
      NumberSafe H a value := by
  have hpair : handleAttributePair c key value = handleAttr c key value a := by rw [handleAttributePair, hkey]
  rw [hpair, NumberSafe]
  simp only [numericAttrs, List.mem_cons, List.not_mem_nil, or_false] at ha
  rcases ha with rfl | rfl | rfl | rfl
  · exact iff_of_true (handlePort_exact c key value) (.inl rfl)
  · refine (handleNumber_exact .loginTimeoutSec 0 (fun c n => ⟨n, trivial, rfl, rfl⟩)
      ⟨"Login timeout seconds attribute value contains unexpected characters. ", by decide⟩
      ⟨"Login timeout seconds attribute value is too large. ", by decide⟩
      ⟨"Login timeout seconds attribute value is out of range. ", by decide⟩ (by omega) c key value).trans ?_
    simp
  · refine (handleNumber_exact .scanLimit 1 (fun c n => ⟨n, trivial, rfl, rfl⟩)
      ⟨"Scan limit attribute value contains unexpected characters. ", by decide⟩
      ⟨"Scan limit size attribute value is too large. ", by decide⟩
      ⟨"Scan limit attribute value is out of range. ", by decide⟩ (by omega) c key value).trans ?_
    simp
  · refine (handleNumber_exact .defaultFetchSize 1 (fun c n => ⟨n, trivial, rfl, rfl⟩)
      ⟨"Default fetch size attribute value contains unexpected characters. ", by decide⟩
      ⟨"Default fetch size attribute value is too large. ", by decide⟩
      ⟨"Default fetch size attribute value is out of range. ", by decide⟩ (by omega) c key value).trans ?_
    simp

theorem handleAttributePair_number_limit :
    let r := handleAttributePair (.fresh Host.diskless) (ascii "SCAN_LIMIT") (ascii "0007")
    StoresNumber (.fresh Host.diskless) .scanLimit (ascii "0007") r ∨ RejectsNumber (.fresh Host.diskless) r :=
  (handleAttributePair_number (.fresh .diskless) (a := .scanLimit) (by decide) (by decide) (ascii "0007")).mpr
    (.inr (by decide))

/-- `UINT32_MAX` is within the limit and is stored as `-1`. -/
theorem handleAttributePair_number_wrapped :
    ¬ ∀ (c : Configuration Host.diskless) (a : Attr), a ∈ numericAttrs → ∀ key value : Str,
      attrOfKey (toLower key) = some a → StoresNumber c a value (handleAttributePair c key value) ∨
        RejectsNumber c (handleAttributePair c key value) := by
  intro h
  have hnumber := h (.fresh .diskless) .defaultFetchSize (by decide) (ascii "default_fetch_size") (ascii "4294967295")
    (by decide)
  have hset : (handleAttributePair (.fresh Host.diskless) (ascii "default_fetch_size") (ascii "4294967295")).1.isSet
    .defaultFetchSize = true := by decide
  rcases hnumber with hstored | hrejected
  · exact absurd hstored.number (by decide)
  · rw [hrejected.2] at hset
    cases hset

end ConnectionStringParser

end DocumentDbOdbc
