/-
What the connection-string parser does to a whole text.

The loop is a fold over the segments from right to left (`parse_eq_foldl`).
A handler changes each field by a function of that field alone
(`handleAttr_pointwise`): even `hostname`, which also writes the port, asks
only whether the port is set. Handlers of different fields therefore commute,
and the order of the segments does not matter (`foldl_apply_perm`).
-/
import DocumentDbOdbc.ConnectionString
import Mathlib.Data.List.Nodup

namespace DocumentDbOdbc

namespace ConnectionStringParser

variable {H : Host}

/-! ## The loop as a fold -/

/-- The pair a segment stands for: what is before and after its last `=`. -/
def segmentPair (segment : Str) : Option (Str × Str) :=
  match Separated.rfind 61 segment with
  | some (eqPos + 1) =>
    some (stripSurroundingWhitespaces (segment.take (eqPos + 1)),
      stripBraces (stripSurroundingWhitespaces (segment.drop (eqPos + 2))))
  | _ => none

theorem parseRound_none {d : UInt8} {s : Str} (h : Separated.rfind d s = none) :
    parseRound d s = (segmentPair s, none) := by
  simp only [parseRound, h, segmentPair]
  cases hEq : Separated.rfind 61 s with
  | none => simp
  | some i => cases i <;> simp

/-- A round handles the segment behind the last delimiter: an `=` found in
front of it belongs to another segment and is ignored. -/
theorem parseRound_some {d : UInt8} {s : Str} {pos : Nat} (h : Separated.rfind d s = some pos) :
    parseRound d s = (segmentPair (s.drop (pos + 1)), some (s.take pos)) := by
  obtain ⟨l, r, rfl, -, rfl⟩ := Separated.rfind_eq_some h
  have hDrop : (l ++ d :: r).drop (l.length + 1) = r := by simp [← List.drop_drop]
  have hEq := Separated.rfind_append 61 r (l ++ [d])
  rw [List.append_assoc, List.singleton_append, List.length_append, List.length_singleton] at hEq
  simp only [parseRound, h, segmentPair, hDrop, hEq]
  cases hr : Separated.rfind 61 r with
  | some i =>
    cases i with
    | zero => simp
    | succ i =>
      have hTake : (List.take (l.length + 1 + (i + 1)) (l ++ d :: r)).drop (l.length + 1) =
          r.take (i + 1) := by
        rw [List.drop_take, hDrop]
        congr 1
        omega
      have hValue : List.drop (l.length + 1 + (i + 1) + 1) (l ++ d :: r) = r.drop (i + 2) := by
        rw [← hDrop, List.drop_drop, hDrop]
        congr 1
      simp [hTake, hValue]
  | none =>
    -- the last `=`, if any, is in `l`
    have hlt : (Separated.rfind 61 (l ++ [d])).getD 0 ≤ l.length := by
      cases hl : Separated.rfind 61 (l ++ [d]) with
      | none => simp
      | some j =>
        have := Separated.rfind_lt hl
        simp only [List.length_append, List.length_singleton] at this
        simp only [Option.getD_some]
        omega
    have hnot : ¬ l.length + 1 < (Separated.rfind 61 (l ++ [d])).getD 0 := by omega
    simp [hnot]

/-- What one segment adds to what has been parsed. -/
def handleSegment (p : Parsed H) (segment : Str) : Parsed H := handlePair p (segmentPair segment)

theorem parseLoop_eq_foldl {d : UInt8} (fuel : Nat) (p : Parsed H) (s : Str) (h : s.length ≤ fuel) :
    parseLoop d fuel p s = (s.splitOn d).reverse.foldl handleSegment p := by
  -- every round leaves a shorter text, so the fuel does not run out
  induction fuel generalizing p s with
  | zero =>
    obtain rfl : s = [] := List.eq_nil_of_length_eq_zero (by omega)
    rfl
  | succ fuel ih =>
    cases s with
    | nil => rfl
    | cons x s =>
      rw [parseLoop.eq_3 _ _ _ _ (by simp)]
      cases hs : Separated.rfind d (x :: s) with
      | none =>
        rw [parseRound_none hs, Separated.rfind_none_splitOn hs]
        rfl
      | some pos =>
        have hlt := Separated.rfind_lt hs
        rw [parseRound_some hs, Separated.rfind_some_splitOn hs, List.reverse_append,
          List.foldl_append]
        refine ih _ _ ?_
        rw [List.length_take]
        omega

/-- **The parser is a fold** over the segments, the last one first. -/
theorem parse_eq_foldl (d : UInt8) (c : Configuration H) (s : Str) :
    parse d c s = ((s.rdropWhile (· == 0)).splitOn d).reverse.foldl handleSegment (c, []) :=
  parseLoop_eq_foldl _ _ _ le_rfl

/-! ## What a handler touches -/

@[simp] theorem setValue_attr_self (c : Configuration H) (a : Attr) (v : a.Val) (h : a.Admits H v) :
    (c.setValue a v h).attr a = ⟨v, true⟩ := by
  simp [Configuration.setValue]

theorem setValue_attr_of_ne (c : Configuration H) {a x : Attr} (v : a.Val) (h : a.Admits H v)
    (hx : x ≠ a) : (c.setValue a v h).attr x = c.attr x := by
  simp [Configuration.setValue, hx]

theorem getValue_setValue (c : Configuration H) (a : Attr) (v : a.Val) (h : a.Admits H v) :
    (c.setValue a v h).getValue a = v :=
  congrArg SettableValue.val (setValue_attr_self c a v h)

/-- Set the field to an admitted value, if there is one. -/
def store (a : Attr) (o : Option { v : a.Val // a.Admits H v }) (c : Configuration H) :
    Configuration H :=
  o.elim c fun v => c.setValue a v.1 v.2

@[simp] theorem store_attr_self (a : Attr) (o : Option { v : a.Val // a.Admits H v })
    (c : Configuration H) : (store a o c).attr a = o.elim (c.attr a) fun v => ⟨v.1, true⟩ := by
  cases o <;> simp [store]

theorem store_attr_of_ne {a x : Attr} (o : Option { v : a.Val // a.Admits H v }) (c : Configuration H)
    (hx : x ≠ a) : (store a o c).attr x = c.attr x := by
  cases o <;> simp [store, setValue_attr_of_ne, hx]

/-- A handler that either stores an admitted value into `a` or leaves the
configuration alone, whatever the configuration is. -/
def Stores (a : Attr) (handle : Configuration H → Str → Parsed H) : Prop :=
  ∃ o : Option { v : a.Val // a.Admits H v }, ∀ c key, (handle c key).1 = store a o c

theorem handleBool_stores (a : Attr) {set : Configuration H → Bool → Configuration H}
    (st : Bool → { v : a.Val // a.Admits H v }) (hset : ∀ c b, set c b = c.setValue a (st b).1 (st b).2)
    (value : Str) : Stores a fun c key => handleBool set c key value := by
  refine ⟨(stringToBool value).map st, fun c key => ?_⟩
  simp only [handleBool]
  cases stringToBool value <;> simp [rejected, store, hset]

/-- The texts `handleNumber` takes. -/
def ValidNumber (H : Host) (least : Nat) (value : Str) : Prop :=
  allDigits value = true ∧ value.length < H.sizeofString ∧
    least ≤ Numeral.numeralValue value ∧ Numeral.numeralValue value ≤ uint32Max

instance (H : Host) (least : Nat) (value : Str) : Decidable (ValidNumber H least value) :=
  inferInstanceAs (Decidable (_ ∧ _))

theorem handleNumber_valid (set : Configuration H → Int32 → Configuration H) {least : Nat} {value : Str}
    (h : ValidNumber H least value) (m₁ m₂ m₃ : String) (c : Configuration H) (key : Str) :
    handleNumber set least m₁ m₂ m₃ c key value = (set c (Int32.ofNat (Numeral.numeralValue value)), []) := by
  obtain ⟨h₁, h₂, h₃, h₄⟩ := h
  have he : extractDigits int64Max value = Numeral.numeralValue value :=
    Nat.min_eq_left (h₄.trans (by decide))
  simp [handleNumber, h₁, Nat.not_le.mpr h₂, he, Nat.not_lt.mpr h₃, Nat.not_lt.mpr h₄]

/-- Of the others it says which of its messages applies. -/
theorem handleNumber_eq_rejected (set : Configuration H → Int32 → Configuration H) {least : Nat} {value : Str}
    (h : ¬ ValidNumber H least value) (m₁ m₂ m₃ : String) (c : Configuration H) (key : Str) :
    ∃ m ∈ [m₁, m₂, m₃], handleNumber set least m₁ m₂ m₃ c key value = rejected c (makeErrorMessage m key value) := by
  simp only [handleNumber]
  split
  · exact ⟨m₁, by simp, rfl⟩
  split
  · exact ⟨m₂, by simp, rfl⟩
  split
  · exact ⟨m₃, by simp, rfl⟩
  next h₁ h₂ h₃ =>
    have hle : extractDigits int64Max value ≤ Numeral.numeralValue value := Nat.min_le_left _ _
    refine absurd ⟨by simpa using h₁, by omega, by omega, ?_⟩ h
    simp only [extractDigits, int64Max, uint32Max] at h₃ ⊢
    omega

theorem handleNumber_invalid (set : Configuration H → Int32 → Configuration H) {least : Nat} {value : Str}
    (h : ¬ ValidNumber H least value) (m₁ m₂ m₃ : String) (c : Configuration H) (key : Str) :
    (handleNumber set least m₁ m₂ m₃ c key value).1 = c := by
  obtain ⟨m, -, hm⟩ := handleNumber_eq_rejected set h m₁ m₂ m₃ c key
  rw [hm]
  rfl

theorem handleNumber_stores (a : Attr) {set : Configuration H → Int32 → Configuration H}
    (st : Int32 → { v : a.Val // a.Admits H v }) (hset : ∀ c n, set c n = c.setValue a (st n).1 (st n).2)
    (least : Nat) (m₁ m₂ m₃ : String) (value : Str) :
    Stores a fun c key => handleNumber set least m₁ m₂ m₃ c key value := by
  by_cases h : ValidNumber H least value
  · exact ⟨some (st (Int32.ofNat (Numeral.numeralValue value))), fun c key =>
      (congrArg Prod.fst (handleNumber_valid set h m₁ m₂ m₃ c key)).trans (hset c _)⟩
  · exact ⟨none, fun c key => handleNumber_invalid set h m₁ m₂ m₃ c key⟩

/-- The texts `handlePort` takes. -/
def ValidPort (H : Host) (value : Str) : Prop :=
  value ≠ [] ∧ allDigits value = true ∧ value.length < H.sizeofString ∧
    1 ≤ Numeral.numeralValue value ∧ Numeral.numeralValue value ≤ uint16Max

instance (H : Host) (value : Str) : Decidable (ValidPort H value) := inferInstanceAs (Decidable (_ ∧ _))

theorem handlePort_valid {value : Str} (h : ValidPort H value) (c : Configuration H) (key : Str) :
    handlePort c key value = (c.setPort (UInt16.ofNat (Numeral.numeralValue value)), []) := by
  obtain ⟨h₀, h₁, h₂, h₃, h₄⟩ := h
  have he : extractDigits int32Max value = Numeral.numeralValue value :=
    Nat.min_eq_left (h₄.trans (by decide))
  simp [handlePort, h₀, h₁, Nat.not_le.mpr h₂, he, Nat.ne_of_gt h₃, Nat.not_lt.mpr h₄]

/-- Of the others it says which of its messages applies. -/
theorem handlePort_eq_rejected {value : Str} (h : ¬ ValidPort H value) (c : Configuration H) (key : Str) :
    ∃ m ∈ ["Port attribute value is empty. Using default value.",
        "Port attribute value contains unexpected characters. Using default value.",
        "Port attribute value is too large. Using default value.",
        "Port attribute value is out of range. Using default value."],
      handlePort c key value = rejected c (makeErrorMessage m key value) := by
  simp only [handlePort]
  split
  · exact ⟨_, by simp, rfl⟩
  split
  · exact ⟨_, List.mem_cons_of_mem _ (List.mem_cons_self ..), rfl⟩
  split
  · exact ⟨_, List.mem_cons_of_mem _ (List.mem_cons_of_mem _ (List.mem_cons_self ..)), rfl⟩
  split
  · exact ⟨_, List.mem_cons_of_mem _ (List.mem_cons_of_mem _ (List.mem_cons_of_mem _ (List.mem_cons_self ..))), rfl⟩
  next h₀ h₁ h₂ h₃ =>
    refine absurd ⟨h₀, by simpa using h₁, by omega, ?_, ?_⟩ h
    · have : extractDigits int32Max value ≤ Numeral.numeralValue value := Nat.min_le_left _ _
      omega
    · simp only [extractDigits, int32Max, uint16Max] at h₃ ⊢
      omega

theorem handlePort_invalid {value : Str} (h : ¬ ValidPort H value) (c : Configuration H) (key : Str) :
    (handlePort c key value).1 = c := by
  obtain ⟨m, -, hm⟩ := handlePort_eq_rejected h c key
  rw [hm]
  rfl

theorem handlePort_stores (value : Str) : Stores (H := H) .port fun c key => handlePort c key value := by
  by_cases h : ValidPort H value
  · exact ⟨some ⟨UInt16.ofNat (Numeral.numeralValue value), trivial⟩, fun c key =>
      congrArg Prod.fst (handlePort_valid h c key)⟩
  · exact ⟨none, fun c key => handlePort_invalid h c key⟩

/-- Every handler but that of `hostname` writes its own field only, and what
it writes depends on the text only. -/
theorem handleAttr_stores (value : Str) {a : Attr} (ha : a ≠ .hostname) :
    Stores (H := H) a fun c key => handleAttr c key value a := by
  cases a with
  | hostname => exact absurd rfl ha
  | dsn | driver | database | user | password | appName | replicaSet | tlsCaFile | sshUser | sshHost
  | sshPrivateKeyFile | sshPrivateKeyPassphrase | sshKnownHostsFile | schemaName =>
    exact ⟨some ⟨value, trivial⟩, fun c key => rfl⟩
  | port => exact handlePort_stores value
  | retryReads => exact handleBool_stores .retryReads (fun b => ⟨b, trivial⟩) (fun _ _ => rfl) value
  | tls => exact handleBool_stores .tls (fun b => ⟨b, trivial⟩) (fun _ _ => rfl) value
  | tlsAllowInvalidHostnames =>
    exact handleBool_stores .tlsAllowInvalidHostnames (fun b => ⟨b, trivial⟩) (fun _ _ => rfl) value
  | sshEnable => exact handleBool_stores .sshEnable (fun b => ⟨b, trivial⟩) (fun _ _ => rfl) value
  | sshStrictHostKeyChecking =>
    exact handleBool_stores .sshStrictHostKeyChecking (fun b => ⟨b, trivial⟩) (fun _ _ => rfl) value
  | refreshSchema => exact handleBool_stores .refreshSchema (fun b => ⟨b, trivial⟩) (fun _ _ => rfl) value
  | loginTimeoutSec =>
    exact handleNumber_stores .loginTimeoutSec (fun n => ⟨n, trivial⟩) (fun _ _ => rfl) _ _ _ _ value
  | scanLimit => exact handleNumber_stores .scanLimit (fun n => ⟨n, trivial⟩) (fun _ _ => rfl) _ _ _ _ value
  | defaultFetchSize =>
    exact handleNumber_stores .defaultFetchSize (fun n => ⟨n, trivial⟩) (fun _ _ => rfl) _ _ _ _ value
  | readPreference =>
    by_cases h : ReadPreference.fromString value .unknown = .unknown
    · exact ⟨none, fun c key => by simp [handleAttr, handleReadPreference, store, h, rejected]⟩
    · exact ⟨some ⟨ReadPreference.fromString value .unknown, trivial⟩, fun c key => by
        simp [handleAttr, handleReadPreference, store, h, Configuration.setReadPreference]⟩
  | scanMethod =>
    by_cases h : ScanMethod.fromString value .unknown = .unknown
    · exact ⟨none, fun c key => by simp [handleAttr, handleScanMethod, store, h, rejected]⟩
    · exact ⟨some ⟨ScanMethod.fromString value .unknown, trivial⟩, fun c key => by
        simp [handleAttr, handleScanMethod, store, h, Configuration.setScanMethod]⟩
  | logLevel =>
    by_cases h : LogLevel.fromString value .unknown = .unknown
    · exact ⟨none, fun c key => by simp [handleAttr, handleLogLevel, store, h, rejected]⟩
    · exact ⟨some ⟨LogLevel.fromString value .unknown, h⟩, fun c key => by
        simp [handleAttr, handleLogLevel, store, h, Configuration.setLogLevel]⟩
  | logPath =>
    by_cases h : H.isValidDirectory value = true
    · exact ⟨some ⟨value, h⟩, fun c key => by simp [handleAttr, store, h, Configuration.setLogPath]⟩
    · exact ⟨none, fun c key => by simp [handleAttr, store, h, Configuration.setLogPath]⟩

/-- The fields the segment of `a` may write. -/
def Touches (a x : Attr) : Prop := x = a ∨ a = .hostname ∧ x = .port

/-- The port an address leaves behind, where none is set. -/
def portUnlessSet (port : UInt16) (sv : SettableValue UInt16) : SettableValue UInt16 :=
  if sv.isSet then sv else ⟨port, true⟩

theorem handleHostname_eq (c : Configuration H) (value : Str) :
    (handleHostname c value).1 =
      let endpoint := (parseSingleAddress H value {}).2.1
      if (c.attr .port).isSet then c.setHostname endpoint.host
      else (c.setHostname endpoint.host).setPort endpoint.port := by
  have hPort : (c.setHostname (parseSingleAddress H value {}).2.1.host).attr .port = c.attr .port :=
    setValue_attr_of_ne c _ _ (by decide)
  simp only [handleHostname, Configuration.isSet, hPort]
  cases (c.attr Attr.port).isSet <;> rfl

theorem handleHostname_hostname (c : Configuration H) (value : Str) :
    (handleHostname c value).1.attr .hostname = ⟨(parseSingleAddress H value {}).2.1.host, true⟩ := by
  rw [handleHostname_eq]
  dsimp only
  split
  · exact setValue_attr_self c .hostname _ _
  · rw [Configuration.setPort, setValue_attr_of_ne _ _ _ (by decide)]
    exact setValue_attr_self c .hostname _ _

theorem handleHostname_port (c : Configuration H) (value : Str) :
    (handleHostname c value).1.attr .port =
      portUnlessSet (parseSingleAddress H value {}).2.1.port (c.attr .port) := by
  rw [handleHostname_eq, portUnlessSet]
  dsimp only
  split
  · exact setValue_attr_of_ne c _ _ (by decide)
  · exact setValue_attr_self _ .port _ _

theorem handleHostname_frame (c : Configuration H) (value : Str) {x : Attr} (hh : x ≠ .hostname)
    (hp : x ≠ .port) : (handleHostname c value).1.attr x = c.attr x := by
  rw [handleHostname_eq]
  dsimp only
  split
  · exact setValue_attr_of_ne c _ _ hh
  · rw [Configuration.setPort, setValue_attr_of_ne _ _ _ hp]
    exact setValue_attr_of_ne c _ _ hh

@[simp] theorem handleAttr_hostname (c : Configuration H) (key value : Str) :
    handleAttr c key value .hostname = handleHostname c value := rfl

theorem handleAttr_frame (c : Configuration H) (key value : Str) {a x : Attr} (h : ¬ Touches a x) :
    (handleAttr c key value a).1.attr x = c.attr x := by
  simp only [Touches, not_or, not_and] at h
  by_cases ha : a = .hostname
  · subst ha
    exact handleHostname_frame c value h.1 (h.2 rfl)
  · obtain ⟨o, ho⟩ := handleAttr_stores (H := H) value ha
    rw [ho c key, store_attr_of_ne o c h.1]

/-- A handler changes a field by a function of that field alone. -/
theorem handleAttr_pointwise (value : Str) (a x : Attr) :
    ∃ f : SettableValue x.Val → SettableValue x.Val, ∀ (c : Configuration H) (key : Str),
      (handleAttr c key value a).1.attr x = f (c.attr x) := by
  by_cases ht : Touches a x
  · by_cases ha : a = .hostname
    · subst ha
      rcases ht with rfl | ⟨-, rfl⟩
      · exact ⟨fun _ => _, fun c _ => handleHostname_hostname c value⟩
      · exact ⟨_, fun c _ => handleHostname_port c value⟩
    · obtain ⟨o, ho⟩ := handleAttr_stores (H := H) value ha
      obtain rfl : x = a := ht.resolve_right fun h => ha h.1
      refine ⟨fun sv => o.elim sv fun v => ⟨v.1, true⟩, fun c key => ?_⟩
      rw [ho c key, store_attr_self]
  · exact ⟨id, fun c key => handleAttr_frame c key value ht⟩

/-- A valid port is kept by a later address and overwrites an earlier one; an
invalid one does nothing. -/
theorem hostname_port_comm (c : Configuration H) (key key' value value' : Str) :
    (handleAttr (handleAttr c key value .hostname).1 key' value' .port).1.attr .port =
      (handleAttr (handleAttr c key' value' .port).1 key value .hostname).1.attr .port := by
  obtain ⟨o, ho⟩ := handleAttr_stores (H := H) value' (a := .port) (by decide)
  rw [ho, ho, handleAttr_hostname, handleAttr_hostname, store_attr_self, handleHostname_port,
    handleHostname_port, store_attr_self]
  cases o with
  | none => rfl
  | some v => rfl

/-- **Handlers of different fields commute.** -/
theorem handleAttr_comm (c : Configuration H) {a b : Attr} (hab : a ≠ b) (key key' value value' : Str) :
    (handleAttr (handleAttr c key value a).1 key' value' b).1 =
      (handleAttr (handleAttr c key' value' b).1 key value a).1 := by
  ext1
  funext x
  by_cases ha : Touches a x
  · by_cases hb : Touches b x
    · -- both write `x`: one is `hostname`, the other `port`
      rcases ha with rfl | ⟨rfl, rfl⟩
      · rcases hb with rfl | ⟨rfl, rfl⟩
        · exact absurd rfl hab
        · exact (hostname_port_comm c key' key value' value).symm
      · rcases hb with rfl | ⟨rfl, -⟩
        · exact hostname_port_comm c key key' value value'
        · exact absurd rfl hab
    · obtain ⟨f, hf⟩ := handleAttr_pointwise (H := H) value a x
      rw [handleAttr_frame _ _ _ hb, hf, hf, handleAttr_frame _ _ _ hb]
  · obtain ⟨f, hf⟩ := handleAttr_pointwise (H := H) value' b x
    rw [handleAttr_frame _ _ _ ha, hf, hf, handleAttr_frame _ _ _ ha]

/-! ## The records -/

/-- Records that only say that a value was changed or ignored. -/
def OptionRecords (l : List StatusRecord) : Prop := ∀ r ∈ l, r.sqlState = .s01S02OptionValueChanged

theorem optionRecords_nil : OptionRecords [] := by simp [OptionRecords]

theorem optionRecords_single (message : Str) : OptionRecords [optionValueChanged message] := by
  simp [OptionRecords, optionValueChanged]

theorem OptionRecords.append {l l' : List StatusRecord} (h : OptionRecords l) (h' : OptionRecords l') :
    OptionRecords (l ++ l') := by
  intro r hr
  rcases List.mem_append.mp hr with hr | hr
  · exact h r hr
  · exact h' r hr

theorem parsePort_records (value : Str) : OptionRecords (parsePort value).2 := by
  simp only [parsePort]
  split
  · exact optionRecords_single _
  split
  · exact optionRecords_single _
  split
  · exact optionRecords_single _
  · exact optionRecords_nil

theorem parsePortRange_records (value : Str) (e : EndPoint) : OptionRecords (parsePortRange value e).2.2 := by
  simp only [parsePortRange]
  split
  · exact parsePort_records value
  split
  · exact optionRecords_single _
  split
  · exact parsePort_records _
  split
  · exact (parsePort_records _).append (parsePort_records _)
  split
  · exact ((parsePort_records _).append (parsePort_records _)).append (optionRecords_single _)
  · exact (parsePort_records _).append (parsePort_records _)

theorem parseSingleAddress_records (value : Str) (e : EndPoint) :
    OptionRecords (parseSingleAddress H value e).2.2 := by
  simp only [parseSingleAddress]
  split
  · exact optionRecords_nil
  split
  · exact optionRecords_single _
  split
  · exact optionRecords_single _
  · exact parsePortRange_records _ _

theorem handlePort_records (c : Configuration H) (key value : Str) :
    OptionRecords (handlePort c key value).2 := by
  simp only [handlePort, rejected]
  repeat' split
  all_goals first | exact optionRecords_single _ | exact optionRecords_nil

theorem handleNumber_records (set : Configuration H → Int32 → Configuration H) (least : Nat)
    (m₁ m₂ m₃ : String) (c : Configuration H) (key value : Str) :
    OptionRecords (handleNumber set least m₁ m₂ m₃ c key value).2 := by
  simp only [handleNumber, rejected]
  repeat' split
  all_goals first | exact optionRecords_single _ | exact optionRecords_nil

theorem handleBool_records (set : Configuration H → Bool → Configuration H) (c : Configuration H)
    (key value : Str) : OptionRecords (handleBool set c key value).2 := by
  simp only [handleBool, rejected]
  split
  · exact optionRecords_single _
  · exact optionRecords_nil

theorem handleAttr_records (c : Configuration H) (key value : Str) (a : Attr) :
    OptionRecords (handleAttr c key value a).2 := by
  cases a with
  | hostname => exact parseSingleAddress_records _ _
  | port => exact handlePort_records c key value
  | loginTimeoutSec | scanLimit | defaultFetchSize => exact handleNumber_records _ _ _ _ _ c key value
  | retryReads | tls | tlsAllowInvalidHostnames | sshEnable | sshStrictHostKeyChecking | refreshSchema =>
    exact handleBool_records _ c key value
  | readPreference | logLevel | scanMethod | user | password =>
    simp only [handleAttr, handleReadPreference, handleLogLevel, handleScanMethod, handleUser,
      handlePassword, rejected]
    split
    · exact optionRecords_single _
    · exact optionRecords_nil
  | dsn | driver | database | appName | replicaSet | tlsCaFile | sshUser | sshHost | sshPrivateKeyFile
  | sshPrivateKeyPassphrase | sshKnownHostsFile | logPath | schemaName => exact optionRecords_nil

theorem handleSegment_records {p : Parsed H} (h : OptionRecords p.2) (segment : Str) :
    OptionRecords (handleSegment p segment).2 := by
  simp only [handleSegment]
  cases segmentPair segment with
  | none => exact h
  | some pair =>
    obtain ⟨key, value⟩ := pair
    have hpair : OptionRecords (handleAttributePair p.1 key value).2 := by
      rw [handleAttributePair]
      split
      · exact handleAttr_records _ _ _ _
      · exact optionRecords_single _
    exact h.append hpair

/-- Whatever the text, the parser reports nothing worse than a changed
option. -/
theorem parseConnectionString_records (c : Configuration H) (s : Str) :
    OptionRecords (parseConnectionString c s).2 := by
  have hfold : ∀ (l : List Str) (p : Parsed H), OptionRecords p.2 →
      OptionRecords (l.foldl handleSegment p).2 := by
    intro l
    induction l with
    | nil => exact fun p h => h
    | cons t l ih => exact fun p h => ih _ (handleSegment_records h t)
  rw [parseConnectionString, parse_eq_foldl]
  exact hfold _ _ optionRecords_nil

/-! ## Texts made of segments -/

/-- `key=value`. -/
structure Segment where
  key : Str
  value : Str
  deriving DecidableEq, Repr

namespace Segment

def text (s : Segment) : Str := s.key ++ 61 :: s.value

/-- The field the key names, whatever its case and the whitespace around it. -/
def attr (s : Segment) : Option Attr := attrOfKey (toLower (stripSurroundingWhitespaces s.key))

/-- The value the handler gets. -/
def content (s : Segment) : Str := stripBraces (stripSurroundingWhitespaces s.value)

/-- A recognized key, and a value without the characters the parser cuts at. -/
structure WellFormed (s : Segment) : Prop where
  recognized : s.attr.isSome
  noDelimiter : 59 ∉ s.value
  noEquals : 61 ∉ s.value
  noNul : 0 ∉ s.value

instance (s : Segment) : Decidable s.WellFormed :=
  decidable_of_iff (s.attr.isSome ∧ 59 ∉ s.value ∧ 61 ∉ s.value ∧ 0 ∉ s.value)
    ⟨fun ⟨h₁, h₂, h₃, h₄⟩ => ⟨h₁, h₂, h₃, h₄⟩, fun ⟨h₁, h₂, h₃, h₄⟩ => ⟨h₁, h₂, h₃, h₄⟩⟩

/-- One round of the parser on the segment. -/
def handle (p : Parsed H) (s : Segment) : Parsed H :=
  handlePair p (some (stripSurroundingWhitespaces s.key, s.content))

/-- What the segment does to a configuration. -/
def apply (c : Configuration H) (s : Segment) : Configuration H :=
  (handleAttributePair c (stripSurroundingWhitespaces s.key) s.content).1

end Segment

/-- The segments with `;` between them. -/
def joined (l : List Segment) : Str := [59].intercalate (l.map Segment.text)

/-- Keywords are made of lower-case letters and underscores. -/
theorem attrOfKey_chars {k : Str} {a : Attr} (h : attrOfKey k = some a) : k ≠ [] ∧ ∀ x ∈ k, 95 ≤ x := by
  have hAll : keywords.all (fun p => !p.1.isEmpty && p.1.all fun x => decide (95 ≤ x)) = true := by decide
  obtain ⟨l₁, l₂, hl, -⟩ := List.lookup_eq_some_iff.mp h
  simpa using List.all_eq_true.mp hAll (k, a) (by rw [hl]; simp)

theorem Segment.WellFormed.key_ne_nil {s : Segment} (h : s.WellFormed) : s.key ≠ [] := by
  obtain ⟨a, ha⟩ := Option.isSome_iff_exists.mp h.recognized
  intro hk
  rw [Segment.attr, hk] at ha
  exact (attrOfKey_chars ha).1 rfl

/-- A recognized key has no `;`, `=` or NUL in it: these are no whitespace, so
they would still be there when the key is looked up. -/
theorem Segment.WellFormed.not_mem_key {s : Segment} (h : s.WellFormed) {x : UInt8} (hx : x < 95)
    (hs : isSpace x = false) (hl : toLowerChar x = x) : x ∉ s.key := by
  obtain ⟨a, ha⟩ := Option.isSome_iff_exists.mp h.recognized
  intro hmem
  have hTrim : x ∈ stripSurroundingWhitespaces s.key := Separated.mem_trim hmem hs
  have hLower : x ∈ toLower (stripSurroundingWhitespaces s.key) := by
    rw [toLower, List.mem_map]
    exact ⟨x, hTrim, hl⟩
  exact absurd ((attrOfKey_chars ha).2 x hLower) (UInt8.not_le.mpr hx)

theorem Segment.WellFormed.segmentPair_text {s : Segment} (h : s.WellFormed) :
    segmentPair s.text = some (stripSurroundingWhitespaces s.key, s.content) := by
  obtain ⟨n, hn⟩ := Nat.exists_eq_succ_of_ne_zero (List.length_pos_of_ne_nil h.key_ne_nil).ne'
  have hf := Separated.rfind_append_cons_self s.key h.noEquals
  have hTake : List.take (n + 1) (s.key ++ 61 :: s.value) = s.key := by
    rw [← Nat.succ_eq_add_one, ← hn, List.take_left]
  have hDrop : List.drop (n + 2) (s.key ++ 61 :: s.value) = s.value := by
    rw [show n + 2 = s.key.length + 1 by omega, ← List.drop_drop, List.drop_left]
    rfl
  simp only [segmentPair, Segment.text, hf, hn, Segment.content]
  rw [hTake, hDrop]

theorem Segment.WellFormed.not_mem_text {s : Segment} (h : s.WellFormed) : 59 ∉ s.text ∧ 0 ∉ s.text := by
  have h59 := h.not_mem_key (x := 59) (by decide) (by decide) (by decide)
  have h0 := h.not_mem_key (x := 0) (by decide) (by decide) (by decide)
  simp [Segment.text, h59, h0, h.noDelimiter, h.noNul]

theorem nul_not_mem_joined {l : List Segment} (h : ∀ s ∈ l, s.WellFormed) : (0 : UInt8) ∉ joined l := by
  refine Separated.not_mem_intercalate (by decide) fun s hs => ?_
  obtain ⟨u, hu, rfl⟩ := List.mem_map.mp hs
  exact (h u hu).not_mem_text.2

theorem rdropWhile_nul {s : Str} (h : (0 : UInt8) ∉ s) : s.rdropWhile (· == 0) = s := by
  rw [List.rdropWhile_eq_self_iff]
  intro hne hz
  have hmem := List.getLast_mem hne
  rw [beq_iff_eq.mp hz] at hmem
  exact h hmem

/-- Segments put in place of their texts. -/
theorem foldl_handleSegment_text {l : List Segment} (h : ∀ s ∈ l, s.WellFormed) (p : Parsed H) :
    (l.map Segment.text).foldl handleSegment p = l.foldl Segment.handle p := by
  rw [List.foldl_map]
  refine List.foldl_ext _ _ _ fun p s hs => ?_
  rw [handleSegment, (h s hs).segmentPair_text]
  rfl

/-- Parsing segments joined by `;` handles them from right to left. -/
theorem parse_joined (c : Configuration H) {l : List Segment} (h : ∀ s ∈ l, s.WellFormed) :
    parseConnectionString c (joined l) = l.reverse.foldl Segment.handle (c, []) := by
  rw [parseConnectionString, parse_eq_foldl, rdropWhile_nul (nul_not_mem_joined h)]
  cases l with
  | nil => rfl
  | cons s l =>
    have hSplit : (joined (s :: l)).splitOn 59 = (s :: l).map Segment.text := by
      refine List.splitOn_intercalate _ (fun t ht => ?_) (by simp)
      obtain ⟨u, hu, rfl⟩ := List.mem_map.mp ht
      exact (h u hu).not_mem_text.1
    rw [hSplit, ← List.map_reverse, foldl_handleSegment_text]
    intro u hu
    exact h u (List.mem_reverse.mp hu)

theorem foldl_handle_fst (l : List Segment) (p : Parsed H) :
    (l.foldl Segment.handle p).1 = l.foldl Segment.apply p.1 :=
  (List.foldl_hom Prod.fst fun _ _ => rfl).symm

theorem parse_joined_fst (c : Configuration H) {l : List Segment} (h : ∀ s ∈ l, s.WellFormed) :
    (parseConnectionString c (joined l)).1 = l.reverse.foldl Segment.apply c := by
  rw [parse_joined c h, foldl_handle_fst]

theorem apply_eq {s : Segment} {a : Attr} (h : s.attr = some a) (c : Configuration H) :
    s.apply c = (handleAttr c (stripSurroundingWhitespaces s.key) s.content a).1 := by
  rw [Segment.attr] at h
  rw [Segment.apply, handleAttributePair, h]

/-! ## Order of the segments -/

theorem apply_comm {s t : Segment} (hs : s.attr.isSome) (ht : t.attr.isSome) (hst : s.attr ≠ t.attr)
    (c : Configuration H) : t.apply (s.apply c) = s.apply (t.apply c) := by
  obtain ⟨a, ha⟩ := Option.isSome_iff_exists.mp hs
  obtain ⟨b, hb⟩ := Option.isSome_iff_exists.mp ht
  have hab : a ≠ b := by
    rintro rfl
    exact hst (ha.trans hb.symm)
  rw [apply_eq ha, apply_eq hb, apply_eq ha, apply_eq hb]
  exact handleAttr_comm c hab _ _ _ _

theorem foldl_apply_perm {l₁ l₂ : List Segment} (hp : l₁.Perm l₂) (hr : ∀ s ∈ l₁, s.attr.isSome)
    (hd : (l₁.map Segment.attr).Nodup) (c : Configuration H) :
    l₁.foldl Segment.apply c = l₂.foldl Segment.apply c := by
  refine hp.foldl_eq' (fun s hs t ht c => ?_) c
  by_cases hst : s.attr = t.attr
  · rw [List.inj_on_of_nodup_map hd hs ht hst]
  · exact apply_comm (hr s hs) (hr t ht) hst c

/-- **The order of the segments does not matter** when no two of them name
the same field, and a valid port wins over the one in an address. -/
theorem parseConnectionString_perm (c : Configuration H) {l₁ l₂ : List Segment} (hp : l₁.Perm l₂)
    (hw : ∀ s ∈ l₁, s.WellFormed) (hd : (l₁.map Segment.attr).Nodup) :
    (parseConnectionString c (joined l₁)).1 = (parseConnectionString c (joined l₂)).1 ∧
    ∀ s ∈ l₁, s.attr = some .port → ValidPort H s.content →
      (parseConnectionString c (joined l₁)).1.attr .port =
        ⟨UInt16.ofNat (Numeral.numeralValue s.content), true⟩ := by
  have hfold : ∀ {l : List Segment}, l₁.Perm l →
      (parseConnectionString c (joined l₁)).1 = l.reverse.foldl Segment.apply c := by
    intro l hl
    rw [parse_joined_fst c hw]
    refine foldl_apply_perm ?_ (fun s hs => (hw s (List.mem_reverse.mp hs)).recognized) ?_ c
    · exact (l₁.reverse_perm.trans hl).trans l.reverse_perm.symm
    · rw [List.map_reverse, List.nodup_reverse]
      exact hd
  refine ⟨?_, fun s hs hport hvalid => ?_⟩
  · rw [hfold hp, parse_joined_fst c fun s hs => hw s (hp.mem_iff.mpr hs)]
  · -- move the port to the front, where it is handled last
    rw [hfold (List.perm_cons_erase hs), List.reverse_cons, List.foldl_append, List.foldl_cons,
      List.foldl_nil, apply_eq hport]
    rw [show handleAttr (H := H) _ _ _ Attr.port = _ from handlePort_valid hvalid _ _]
    exact setValue_attr_self _ .port _ trivial

theorem parseConnectionString_perm_address :
    let address : Segment := ⟨ascii "Hostname", ascii "db:1"⟩
    let port : Segment := ⟨ascii "PORT", ascii "27018"⟩
    let c := (parseConnectionString (.fresh .diskless) (joined [address, port])).1
    c = (parseConnectionString (.fresh .diskless) (joined [port, address])).1 ∧
      c.attr .port = ⟨27018, true⟩ := by
  have h := parseConnectionString_perm (.fresh .diskless)
    (List.Perm.swap (⟨ascii "PORT", ascii "27018"⟩ : Segment) ⟨ascii "Hostname", ascii "db:1"⟩ [])
    (by decide) (by decide)
  exact ⟨h.1, h.2 ⟨ascii "PORT", ascii "27018"⟩ (by decide) (by decide) (by decide)⟩

/-! ## A segment in braces -/

theorem apply_congr {s : Segment} (hs : s.attr.isSome) {c c' : Configuration H} {x : Attr}
    (h : c.attr x = c'.attr x) : (s.apply c).attr x = (s.apply c').attr x := by
  obtain ⟨a, ha⟩ := Option.isSome_iff_exists.mp hs
  obtain ⟨f, hf⟩ := handleAttr_pointwise (H := H) s.content a x
  rw [apply_eq ha, apply_eq ha, hf, hf, h]

theorem foldl_apply_congr {x : Attr} {l : List Segment} {c c' : Configuration H}
    (hl : ∀ s ∈ l, s.attr.isSome) (h : c.attr x = c'.attr x) :
    (l.foldl Segment.apply c).attr x = (l.foldl Segment.apply c').attr x := by
  induction l generalizing c c' with
  | nil => exact h
  | cons s l ih => exact ih (fun t ht => hl t (by simp [ht])) (apply_congr (hl s (by simp)) h)

theorem foldl_apply_frame {x : Attr} {l : List Segment} (c : Configuration H)
    (h : ∀ s ∈ l, ∃ a, s.attr = some a ∧ ¬ Touches a x) : (l.foldl Segment.apply c).attr x = c.attr x := by
  induction l generalizing c with
  | nil => rfl
  | cons s l ih =>
    obtain ⟨a, ha, hx⟩ := h s (by simp)
    rw [List.foldl_cons, ih _ fun t ht => h t (by simp [ht]), apply_eq ha]
    exact handleAttr_frame _ _ _ hx

/-- The text attributes other than `hostname` take the value as it is; only
`log_path` asks whether it is a directory. -/
theorem handleAttr_text (c : Configuration H) (key value : Str) {a : Attr} (hk : a.kind = .text)
    (ha : a ≠ .hostname) (hdir : a = .logPath → H.isValidDirectory value = true) :
    (handleAttr c key value a).1.isSet a = true ∧
      Configuration.valueText a.kind ((handleAttr c key value a).1.getValue a) = value := by
  cases a with
  | hostname => exact absurd rfl ha
  | logPath =>
    have hset : (handleAttr c key value .logPath).1 = c.setValue .logPath value (hdir rfl) := by
      simp [handleAttr, Configuration.setLogPath, hdir rfl]
    rw [hset]
    simp [Configuration.isSet, Configuration.getValue, Configuration.valueText]
  | dsn | driver | database | user | password | appName | replicaSet | tlsCaFile | sshUser | sshHost
  | sshPrivateKeyFile | sshPrivateKeyPassphrase | sshKnownHostsFile | schemaName =>
    simp [handleAttr, handleUser, handlePassword, Configuration.isSet, Configuration.getValue,
      Configuration.setValue, Configuration.valueText, Configuration.setDsn, Configuration.setDriver,
      Configuration.setDatabase, Configuration.setUser, Configuration.setPassword,
      Configuration.setApplicationName, Configuration.setReplicaSet, Configuration.setTlsCaFile,
      Configuration.setSshUser, Configuration.setSshHost, Configuration.setSshPrivateKeyFile,
      Configuration.setSshPrivateKeyPassphrase, Configuration.setSshKnownHostsFile,
      Configuration.setSchemaName]
  | port | loginTimeoutSec | readPreference | retryReads | tls | tlsAllowInvalidHostnames | sshEnable
  | sshStrictHostKeyChecking | logLevel | scanMethod | scanLimit | refreshSchema | defaultFetchSize =>
    cases hk

/-- `{v}` -/
def braced (v : Str) : Str := 123 :: v ++ [125]

/-- Whatever whitespace `v` has, it is safe between the braces. -/
theorem stripBraces_braced (v : Str) : stripBraces (stripSurroundingWhitespaces (braced v)) = v := by
  have hHead : (braced v).head? = some 123 := rfl
  have hLast : (braced v).getLast? = some 125 := List.getLast?_concat
  have hTrim : stripSurroundingWhitespaces (braced v) = braced v := by
    refine Separated.trim_eq_self (fun x hx => ?_) fun x hx => ?_
    · obtain rfl : 123 = x := by simpa [hHead] using hx
      rfl
    · obtain rfl : 125 = x := by simpa [hLast] using hx
      rfl
  rw [hTrim, stripBraces, if_pos ⟨hHead, hLast⟩]
  simp [braced]

/-- **A value in braces** without `;`, `=` and NUL reaches its attribute
unchanged, unless a segment further left names the attribute again, and no
other attribute notices the segment. -/
theorem parseConnectionString_braced (c : Configuration H) {l r : List Segment} {key v : Str} {a : Attr}
    (hkey : attrOfKey (toLower (stripSurroundingWhitespaces key)) = some a) (hk : a.kind = .text)
    (ha : a ≠ .hostname) (hv : 59 ∉ v ∧ 61 ∉ v ∧ 0 ∉ v)
    (hdir : a = .logPath → H.isValidDirectory v = true) (hw : ∀ s ∈ l ++ r, s.WellFormed)
    (hl : ∀ s ∈ l, s.attr ≠ some a) :
    let c' := (parseConnectionString c (joined (l ++ ⟨key, braced v⟩ :: r))).1
    c'.isSet a = true ∧ Configuration.valueText a.kind (c'.getValue a) = v ∧
    ∀ b, b ≠ a → c'.attr b = (parseConnectionString c (joined (l ++ r))).1.attr b := by
  have hs : Segment.WellFormed ⟨key, braced v⟩ :=
    ⟨by simp [Segment.attr, hkey], by simp [braced, hv.1], by simp [braced, hv.2.1],
      by simp [braced, hv.2.2]⟩
  have hAll : ∀ s ∈ l ++ ⟨key, braced v⟩ :: r, s.WellFormed := by
    intro s hmem
    rcases List.mem_append.mp hmem with h | h
    · exact hw s (List.mem_append_left r h)
    · rcases List.mem_cons.mp h with rfl | h
      · exact hs
      · exact hw s (List.mem_append_right l h)
  have hSome : ∀ s ∈ l.reverse, s.attr.isSome := fun s h =>
    (hw s (List.mem_append_left r (List.mem_reverse.mp h))).recognized
  have hApply : ∀ c : Configuration H, Segment.apply c ⟨key, braced v⟩ =
      (handleAttr c (stripSurroundingWhitespaces key) v a).1 := by
    intro c
    rw [apply_eq (s := ⟨key, braced v⟩) hkey, Segment.content, stripBraces_braced]
  intro c'
  have hc' : c' = l.reverse.foldl Segment.apply
      (handleAttr (r.reverse.foldl Segment.apply c) (stripSurroundingWhitespaces key) v a).1 := by
    simp only [c', parse_joined_fst c hAll, List.reverse_append, List.reverse_cons, List.foldl_append,
      List.foldl_cons, List.foldl_nil, hApply]
  have hNotPort : a ≠ .port := by
    rintro rfl
    cases hk
  have hOwn : c'.attr a =
      (handleAttr (r.reverse.foldl Segment.apply c) (stripSurroundingWhitespaces key) v a).1.attr a := by
    rw [hc']
    refine foldl_apply_frame _ fun s hmem => ?_
    obtain ⟨b, hb⟩ := Option.isSome_iff_exists.mp (hSome s hmem)
    refine ⟨b, hb, ?_⟩
    rintro (rfl | ⟨-, hp⟩)
    · exact hl s (List.mem_reverse.mp hmem) hb
    · exact hNotPort hp
  have hText := handleAttr_text (r.reverse.foldl Segment.apply c) (stripSurroundingWhitespaces key) v hk
    ha hdir
  refine ⟨?_, ?_, fun b hb => ?_⟩
  · rw [Configuration.isSet, hOwn]
    exact hText.1
  · rw [Configuration.getValue, hOwn]
    exact hText.2
  · rw [hc', parse_joined_fst c hw, List.reverse_append, List.foldl_append]
    refine foldl_apply_congr hSome (handleAttr_frame _ _ _ ?_)
    rintro (rfl | ⟨h, -⟩)
    · exact hb rfl
    · exact ha h

theorem parseConnectionString_braced_password :
    let c := (parseConnectionString (.fresh .diskless)
      (joined ([⟨ascii "hostname", ascii "db:1"⟩] ++ ⟨ascii "PWD", braced (ascii " a \x7d")⟩ ::
        [⟨ascii "user", ascii "me"⟩]))).1
    c.getPassword = ascii " a \x7d" ∧ c.getUser = ascii "me" := by
  have h := @parseConnectionString_braced _ (.fresh .diskless) [⟨ascii "hostname", ascii "db:1"⟩]
    [⟨ascii "user", ascii "me"⟩] (ascii "PWD") (ascii " a \x7d") .password (by decide) rfl (by decide) (by decide)
    (by decide) (by decide) (by decide)
  exact ⟨h.2.1, congrArg SettableValue.val (h.2.2 .user (by decide))⟩

/-- Braces do not protect everything: `SetLogPath` drops what is no directory,
a segment further left is handled later, and the separators are searched
before the braces are looked at. -/
theorem parseConnectionString_braced_lost :
    let parsed (l : List Segment) := (parseConnectionString (.fresh .diskless) (joined l)).1
    (parsed [⟨ascii "log_path", braced (ascii "/none")⟩]).isSet .logPath = false ∧
    (parsed [⟨ascii "uid", ascii "a"⟩, ⟨ascii "user", braced (ascii "b")⟩]).getUser = ascii "a" ∧
    (parsed [⟨ascii "pwd", braced (ascii "a;b")⟩]).getPassword = ascii "\x7ba" ∧
    (parsed [⟨ascii "pwd", braced (ascii "a=b")⟩]).isSet .password = false := by
  decide

end ConnectionStringParser

end DocumentDbOdbc
