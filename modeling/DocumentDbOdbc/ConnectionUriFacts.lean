/-
What can be read back of the connection strings.

`EncodeURIComponent` is the writer of `Percent` that leaves the unreserved
characters alone. It writes bytes below 16 with one digit, so a text is read
back exactly when it has none; no text, whatever its bytes, brings a delimiter
into the URI. A connection string is an encoded URI
(`toJdbcConnectionString_eq`, `toMongoDbConnectionString_eq`), so the same
condition on its components says when it is read back.
-/
import DocumentDbOdbc.ConnectionUri

namespace DocumentDbOdbc

/-- The text has no byte that is written with one digit. -/
def TwoDigits (s : Str) : Prop := ∀ c ∈ s, 16 ≤ c

theorem encodeURIComponent_eq (s : Str) : encodeURIComponent s = Percent.encode isUnescaped s := rfl

theorem isUnescaped_percent : isUnescaped 37 = false := by decide

theorem isUnescaped_low {c : UInt8} (h : c < 16) : isUnescaped c = false := by
  have hlow : ∀ n < 16, isUnescaped (UInt8.ofNat n) = false := by decide
  have hc := hlow c.toNat (UInt8.lt_iff_toNat_lt.mp h)
  rwa [UInt8.ofNat_toNat] at hc

theorem twoDigits_iff (s : Str) : (∀ c ∈ s, isUnescaped c = false → ¬ c < 16) ↔ TwoDigits s := by
  refine forall₂_congr fun c _ => ?_
  rw [UInt8.not_lt]
  refine ⟨fun h => ?_, fun h _ => h⟩
  by_contra hlt
  exact hlt (h (isUnescaped_low (UInt8.not_le.mp hlt)))

/-- The delimiters of URIs. -/
def uriDelimiters : Str := ascii ":/?#[]@&="

/-- An encoded text does not end the component it stands in. -/
theorem uriDelimiter_not_mem {d : UInt8} (hd : d ∈ uriDelimiters) (s : Str) : d ∉ encodeURIComponent s := by
  have hAll : uriDelimiters.all (fun d => !isUnescaped d && d != 37 &&
      (List.range 16).all fun n => Percent.hexDigit n != d) = true := by decide
  have h := List.all_eq_true.mp hAll d hd
  simp only [Bool.and_eq_true, Bool.not_eq_true', bne_iff_ne, List.all_eq_true, List.mem_range] at h
  intro hmem
  rcases Percent.mem_encode hmem with hkeep | hpercent | ⟨n, hn, hdigit⟩
  · rw [h.1.1] at hkeep
    cases hkeep
  · exact h.1.2 hpercent
  · exact h.2 n hn hdigit.symm

/-! ## The keys -/

namespace Configuration

variable {H : Host}

theorem mem_put {key value : Str} {o : Str × Str} : ∀ {m : ArgumentMap}, o ∈ ArgumentMap.put key value m →
    o = (key, value) ∨ o ∈ m
  | [], h => .inl (List.mem_singleton.mp h)
  | (k, v) :: m, h => by
    rw [ArgumentMap.put] at h
    split at h
    · rcases List.mem_cons.mp h with rfl | h
      · exact .inl rfl
      · exact .inr (List.mem_cons_of_mem _ h)
    split at h
    · rcases List.mem_cons.mp h with rfl | h
      · exact .inl rfl
      · exact .inr h
    · rcases List.mem_cons.mp h with rfl | h
      · exact .inr (List.mem_cons_self ..)
      · exact (mem_put h).imp id (List.mem_cons_of_mem _)

/-- The keys of the map are those of the source. -/
theorem mem_addOptions (c : Configuration H) {o : Str × Str} {options : List (Attr × String)} {res : ArgumentMap}
    (h : o ∈ c.addOptions options res) : o ∈ res ∨ ∃ p ∈ options, o.1 = ascii p.2 := by
  induction options generalizing res with
  | nil => exact .inl h
  | cons p options ih =>
    rw [addOptions, List.foldl_cons] at h
    rcases ih h with h | ⟨q, hq, hkey⟩
    · split at h
      · rcases mem_put h with rfl | h
        · exact .inr ⟨p, List.mem_cons_self .., rfl⟩
        · exact .inl h
      · exact .inl h
    · exact .inr ⟨q, List.mem_cons_of_mem _ hq, hkey⟩

/-- No `=`, `&` or `?`. -/
def PlainKey (key : Str) : Prop := 61 ∉ key ∧ 38 ∉ key ∧ 63 ∉ key

instance (key : Str) : Decidable (PlainKey key) := inferInstanceAs (Decidable (_ ∧ _))

theorem plainKey_of_mem {p : Attr × String} (h : p ∈ mongoCommonOptions ++ jdbcOptions) : PlainKey (ascii p.2) := by
  have hAll : (mongoCommonOptions ++ jdbcOptions).all (fun p => decide (PlainKey (ascii p.2))) = true := by decide
  exact of_decide_eq_true (List.all_eq_true.mp hAll p h)

theorem plainKey_mongo (c : Configuration H) {o : Str × Str} (h : o ∈ c.toMongoCommonOptionsMap []) : PlainKey o.1 := by
  rcases mem_addOptions c h with h | ⟨p, hp, hkey⟩
  · cases h
  · rw [hkey]
    exact plainKey_of_mem (List.mem_append_left _ hp)

theorem plainKey_jdbc (c : Configuration H) {o : Str × Str} (h : o ∈ c.toJdbcOptionsMap []) : PlainKey o.1 := by
  rcases mem_addOptions c h with h | ⟨p, hp, hkey⟩
  · exact plainKey_mongo c h
  · rw [hkey]
    exact plainKey_of_mem (List.mem_append_right _ hp)

/-! ## The strings as URIs -/

/-- What the JDBC connection string is about. -/
def jdbcUri (c : Configuration H) : Percent.Uri where
  user := c.getUser
  password := c.getPassword
  path := c.getValue .database
  options := (ascii "appName", c.getValue .appName) :: (c.toJdbcOptionsMap []).filter fun (key, value) =>
    key ≠ ascii "logLevel" ∧ key ≠ ascii "logPath" ∧ value ≠ []

/-- What the MongoDB connection string is about. -/
def mongoUri (c : Configuration H) : Percent.Uri where
  user := c.getUser
  password := c.getPassword
  path := ascii "admin"
  options := (ascii "appName", c.getValue .appName) :: (ascii "authMechanism", ascii "SCRAM-SHA-1") ::
    ((if (c.getValue .loginTimeoutSec : Int32) ≠ 0 then
      [(ascii "connectTimeoutMS", intText (1000 * (c.getValue .loginTimeoutSec : Int32).toInt))] else []) ++
      (c.toMongoCommonOptionsMap []).filter fun (_, value) => value ≠ [])

/-- The text of the options behind the first one. -/
theorem intercalate_cons (first : Str) (rest : List Str) :
    [38].intercalate (first :: rest) = first ++ rest.flatMap fun s => 38 :: s := by
  induction rest generalizing first with
  | nil => simp
  | cons s rest ih => rw [List.intercalate_cons_cons, ih, List.flatMap_cons]; simp

theorem subsequentOption_eq (key value : Str) :
    subsequentOption key value = 38 :: Percent.optionText (key, encodeURIComponent value) := by
  have hand : ascii "&" = [38] := by decide
  have heq : ascii "=" = [61] := by decide
  simp [subsequentOption, Percent.optionText, hand, heq]

/-- The loop over the map, which leaves some entries out. -/
theorem flatMap_filter (p : Str × Str → Bool) (options : ArgumentMap) :
    ((((options.filter p).map fun o => (o.1, Percent.encode isUnescaped o.2)).map Percent.optionText).flatMap
      fun s => 38 :: s) = options.flatMap fun o => if p o then subsequentOption o.1 o.2 else [] := by
  induction options with
  | nil => rfl
  | cons o options ih =>
    rw [List.filter_cons, List.flatMap_cons]
    split
    · rw [List.map_cons, List.map_cons, List.flatMap_cons, ih, subsequentOption_eq, encodeURIComponent_eq]
    · rw [ih, List.nil_append]

theorem toJdbcConnectionString_eq (c : Configuration H) : c.toJdbcConnectionString =
    (c.jdbcUri.encode isUnescaped (c.getValue .hostname ++ 58 :: c.portText)).text (ascii "jdbc:documentdb://") := by
  have hrest := flatMap_filter (fun (key, value) => key ≠ ascii "logLevel" ∧ key ≠ ascii "logPath" ∧ value ≠ [])
    (c.toJdbcOptionsMap [])
  have hscheme : ascii "jdbc:documentdb://" = ascii "jdbc:documentdb:" ++ ascii "//" := by decide
  have happ : ascii "?appName=" = 63 :: (ascii "appName" ++ [61]) := by decide
  have hcolon : ascii ":" = [58] := by decide
  have hat : ascii "@" = [64] := by decide
  have hslash : ascii "/" = [47] := by decide
  simp only [Percent.Raw.text, Percent.Uri.encode, jdbcUri, List.map_cons, intercalate_cons, hrest, hscheme,
    Percent.optionText, toJdbcConnectionString, encodeURIComponent_eq, happ, hcolon, hat, hslash, decide_eq_true_eq]
  simp only [List.append_assoc, List.cons_append, List.nil_append]

theorem toMongoDbConnectionString_eq (c : Configuration H) (localSSHTunnelPort : Int32) :
    ∃ authority, c.toMongoDbConnectionString localSSHTunnelPort =
      (c.mongoUri.encode isUnescaped authority).text (ascii "mongodb://") := by
  have hrest := flatMap_filter (fun (_, value) => value ≠ []) (c.toMongoCommonOptionsMap [])
  have hscheme : ascii "mongodb://" = ascii "mongodb:" ++ ascii "//" := by decide
  have hmechanism : ascii "=SCRAM-SHA-1" = 61 :: Percent.encode isUnescaped (ascii "SCRAM-SHA-1") := by decide
  have hadmin : ascii "/admin" = 47 :: Percent.encode isUnescaped (ascii "admin") := by decide
  have hcolon : ascii ":" = [58] := by decide
  have hat : ascii "@" = [64] := by decide
  have hquestion : ascii "?" = [63] := by decide
  have hand : ascii "&" = [38] := by decide
  have heq : ascii "=" = [61] := by decide
  refine ⟨(if localSSHTunnelPort = 0 then c.getValue .hostname else ascii "localhost") ++
    58 :: (if localSSHTunnelPort = 0 then c.portText else int32Text localSSHTunnelPort), ?_⟩
  simp only [Percent.Raw.text, Percent.Uri.encode, mongoUri, List.map_cons, List.map_append, intercalate_cons,
    List.flatMap_cons, List.flatMap_append, hrest, hscheme, Percent.optionText, toMongoDbConnectionString,
    encodeURIComponent_eq, hmechanism, hadmin, hcolon, hat, hquestion, hand, heq, decide_eq_true_eq]
  by_cases ht : (c.getValue .loginTimeoutSec : Int32) = 0
  · simp [ht]
  · simp [ht, subsequentOption_eq, encodeURIComponent_eq, Percent.optionText]

/-! ## Reading them back -/

theorem encoded_clean {u : Percent.Uri} (authority : Str) (hne : u.options ≠ []) (hkey : ∀ o ∈ u.options, PlainKey o.1) :
    (u.encode isUnescaped authority).Clean where
  user := uriDelimiter_not_mem (by decide) _
  password := uriDelimiter_not_mem (by decide) _
  path := ⟨uriDelimiter_not_mem (by decide) _, uriDelimiter_not_mem (by decide) _⟩
  options := by simpa [Percent.Uri.encode] using hne
  key o ho := by
    obtain ⟨p, hp, rfl⟩ := List.mem_map.mp ho
    exact hkey p hp
  value o ho := by
    obtain ⟨p, -, rfl⟩ := List.mem_map.mp ho
    exact ⟨uriDelimiter_not_mem (by decide) _, uriDelimiter_not_mem (by decide) _⟩

theorem jdbcUri_clean (c : Configuration H) (authority : Str) : (c.jdbcUri.encode isUnescaped authority).Clean := by
  refine encoded_clean authority (by simp [jdbcUri]) ?_
  simp only [jdbcUri, List.forall_mem_cons]
  exact ⟨by decide, fun o ho => plainKey_jdbc c (List.mem_of_mem_filter ho)⟩

theorem mongoUri_clean (c : Configuration H) (authority : Str) : (c.mongoUri.encode isUnescaped authority).Clean := by
  refine encoded_clean authority (by simp [mongoUri]) ?_
  simp only [mongoUri, List.forall_mem_cons, List.forall_mem_append]
  refine ⟨by decide, by decide, ?_, fun o ho => plainKey_mongo c (List.mem_of_mem_filter ho)⟩
  split
  · simp only [List.forall_mem_singleton]
    decide
  · simp

theorem read_jdbc_iff (c : Configuration H) :
    Percent.read (ascii "jdbc:documentdb://") c.toJdbcConnectionString = some c.jdbcUri ↔ c.jdbcUri.All TwoDigits := by
  rw [toJdbcConnectionString_eq, Percent.read_encode_iff isUnescaped_percent _ _ (c.jdbcUri_clean _)]
  simp only [twoDigits_iff]

theorem read_mongo_iff (c : Configuration H) (localSSHTunnelPort : Int32) :
    Percent.read (ascii "mongodb://") (c.toMongoDbConnectionString localSSHTunnelPort) = some c.mongoUri ↔
      c.mongoUri.All TwoDigits := by
  obtain ⟨authority, h⟩ := c.toMongoDbConnectionString_eq localSSHTunnelPort
  rw [h, Percent.read_encode_iff isUnescaped_percent _ _ (c.mongoUri_clean _)]
  simp only [twoDigits_iff]

end Configuration

/-- **Escaping** is undone by percent-decoding exactly for the texts without
bytes below 16, and so are the connection strings. No text brings a delimiter
with it. -/
theorem encodeURIComponent_reversible (s : Str) {H : Host} (c : Configuration H) (localSSHTunnelPort : Int32) :
    (Percent.decode (encodeURIComponent s) = some s ∧ Percent.Escaped isUnescaped (encodeURIComponent s) ↔
      TwoDigits s) ∧
    (∀ t : Str, TwoDigits s → TwoDigits t → encodeURIComponent s = encodeURIComponent t → s = t) ∧
    (∀ d ∈ uriDelimiters, d ∉ encodeURIComponent s) ∧
    (Percent.read (ascii "jdbc:documentdb://") c.toJdbcConnectionString = some c.jdbcUri ↔
      c.jdbcUri.All TwoDigits) ∧
    (Percent.read (ascii "mongodb://") (c.toMongoDbConnectionString localSSHTunnelPort) = some c.mongoUri ↔
      c.mongoUri.All TwoDigits) := by
  refine ⟨?_, fun t hs ht h => ?_, fun d hd => uriDelimiter_not_mem hd s,
    c.read_jdbc_iff, c.read_mongo_iff localSSHTunnelPort⟩
  · rw [← twoDigits_iff, ← Percent.decode_encode_iff isUnescaped_percent, encodeURIComponent_eq]
    refine and_iff_left_of_imp fun h => ?_
    exact Percent.escaped_encode ((Percent.decode_encode_iff isUnescaped_percent s).mp h)
  · exact Percent.encode_injOn isUnescaped_percent ((twoDigits_iff s).mpr hs) ((twoDigits_iff t).mpr ht) h

/-- A byte below 16 takes the next character for its second digit. -/
theorem encodeURIComponent_merges :
    (¬ ∀ s : Str, Percent.decode (encodeURIComponent s) = some s) ∧
    (¬ ∀ s t : Str, encodeURIComponent s = encodeURIComponent t → s = t) ∧
    Percent.decode (encodeURIComponent (1 :: ascii "2")) = some [18] := by
  refine ⟨fun h => ?_, fun h => ?_, by decide⟩
  · exact absurd (h (1 :: ascii "2")) (by decide)
  · exact absurd (h (1 :: ascii "2") [18] (by decide)) (by decide)

end DocumentDbOdbc
