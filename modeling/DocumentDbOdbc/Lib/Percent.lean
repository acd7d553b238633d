/-
Percent-encoding of bytes, and URIs made of encoded components.

`decode` is the strict reader: a `%` needs two hexadecimal digits behind it.
A writer that leaves out leading zeros (`hexNumber`) writes a byte below 16
with one digit, and the reader takes the next character for the second: the
text it gets is shorter than the one that was written (`length_decode`), so
it is the same one exactly when every byte below 16 is left unescaped
(`decode_encode_iff`).

`read` cuts a URI at its delimiters: user and password from the left, path and
options from the right, whatever the authority between them is.
-/
import Mathlib.Data.List.Forall2
import DocumentDbOdbc.Lib.Separated

namespace Percent

/-! ## Digits -/

/-- A hexadecimal digit, upper case. -/
def hexDigit (n : Nat) : UInt8 := UInt8.ofNat (if n < 10 then 48 + n else 55 + n)

/-- The value of a hexadecimal digit of either case. -/
def hexValue (c : UInt8) : Option Nat :=
  if 48 ≤ c ∧ c ≤ 57 then some (c.toNat - 48)
  else if 65 ≤ c ∧ c ≤ 70 then some (c.toNat - 55)
  else if 97 ≤ c ∧ c ≤ 102 then some (c.toNat - 87)
  else none

/-- A byte in base 16, without leading zeros. -/
def hexNumber (c : UInt8) : List UInt8 :=
  if c < 16 then [hexDigit c.toNat] else [hexDigit (c.toNat / 16), hexDigit (c.toNat % 16)]

theorem hexValue_hexDigit : ∀ {n : Nat}, n < 16 → hexValue (hexDigit n) = some n := by decide

theorem hexValue_percent : hexValue 37 = none := by decide

/-! ## Writing and reading -/

/-- Leave the bytes of `keep` as they are and escape the others. -/
def encode (keep : UInt8 → Bool) (s : List UInt8) : List UInt8 :=
  s.flatMap fun c => if keep c then [c] else 37 :: hexNumber c

/-- Read a text in which every `%` is followed by two digits. -/
def decode : List UInt8 → Option (List UInt8)
  | [] => some []
  | c :: s =>
    if c = 37 then
      match s with
      | h :: l :: rest =>
        (hexValue h).bind fun h => (hexValue l).bind fun l => (decode rest).map (UInt8.ofNat (16 * h + l) :: ·)
      | _ => none
    else (decode s).map (c :: ·)

/-- Kept characters and `%XX` triplets. -/
inductive Escaped (keep : UInt8 → Bool) : List UInt8 → Prop
  | nil : Escaped keep []
  | char {c s} (hc : keep c = true) (hs : Escaped keep s) : Escaped keep (c :: s)
  | triplet {h l s} (hh : (hexValue h).isSome) (hl : (hexValue l).isSome) (hs : Escaped keep s) :
    Escaped keep (37 :: h :: l :: s)

theorem decode_char {c : UInt8} (hc : c ≠ 37) (s : List UInt8) : decode (c :: s) = (decode s).map (c :: ·) := by
  rw [decode.eq_def]
  simp only [if_neg hc]

theorem decode_triplet {h l : UInt8} (s : List UInt8) :
    decode (37 :: h :: l :: s) = (hexValue h).bind fun h => (hexValue l).bind fun l =>
      (decode s).map (UInt8.ofNat (16 * h + l) :: ·) := by
  rw [decode, if_pos rfl]

section

variable {keep : UInt8 → Bool} (hkeep : keep 37 = false)

theorem encode_cons_keep {c : UInt8} (hc : keep c = true) (s : List UInt8) : encode keep (c :: s) = c :: encode keep s := by
  simp [encode, hc]

theorem encode_cons_escape {c : UInt8} (hc : keep c = false) (s : List UInt8) :
    encode keep (c :: s) = 37 :: (hexNumber c ++ encode keep s) := by
  simp [encode, hc]

include hkeep in
theorem ne_percent {c : UInt8} (hc : keep c = true) : c ≠ 37 := by
  rintro rfl
  rw [hkeep] at hc
  cases hc

theorem hexNumber_low {c : UInt8} (hc : c < 16) : hexNumber c = [hexDigit c.toNat] := if_pos hc

theorem hexNumber_high {c : UInt8} (hc : ¬ c < 16) : hexNumber c = [hexDigit (c.toNat / 16), hexDigit (c.toNat % 16)] :=
  if_neg hc

/-- A byte written with two digits is read back. -/
theorem decode_hexNumber {c : UInt8} (hc : ¬ c < 16) (s : List UInt8) :
    decode (37 :: (hexNumber c ++ s)) = (decode s).map (c :: ·) := by
  have hlt : c.toNat < 256 := c.toNat_lt
  have hdiv : c.toNat / 16 < 16 := by omega
  have hmod : c.toNat % 16 < 16 := by omega
  have hbyte : UInt8.ofNat (16 * (c.toNat / 16) + c.toNat % 16) = c := by
    rw [show 16 * (c.toNat / 16) + c.toNat % 16 = c.toNat by omega, UInt8.ofNat_toNat]
  rw [hexNumber_high hc, List.cons_append, List.cons_append, List.nil_append, decode_triplet, hexValue_hexDigit hdiv,
    hexValue_hexDigit hmod, Option.bind_some, Option.bind_some, hbyte]

theorem escaped_encode {s : List UInt8} (h : ∀ c ∈ s, keep c = false → ¬ c < 16) : Escaped keep (encode keep s) := by
  induction s with
  | nil => exact .nil
  | cons c s ih =>
    have hs := ih fun x hx => h x (List.mem_cons_of_mem _ hx)
    cases hc : keep c with
    | true =>
      rw [encode_cons_keep hc]
      exact .char hc hs
    | false =>
      have hlt : c.toNat < 256 := c.toNat_lt
      have hdiv : c.toNat / 16 < 16 := by omega
      have hmod : c.toNat % 16 < 16 := by omega
      rw [encode_cons_escape hc, hexNumber_high (h c (List.mem_cons_self ..) hc)]
      exact .triplet (by rw [hexValue_hexDigit hdiv]; rfl) (by rw [hexValue_hexDigit hmod]; rfl) hs

/-- A byte written with one digit takes the next character for the other. -/
theorem decode_oneDigit {c : UInt8} (hc : keep c = false) (hlow : c < 16) {s r : List UInt8}
    (h : decode (encode keep (c :: s)) = some r) :
    ∃ x s' b r', s = x :: s' ∧ r = b :: r' ∧ decode (encode keep s') = some r' := by
  rw [encode_cons_escape hc, hexNumber_low hlow, List.singleton_append] at h
  cases s with
  | nil => cases h
  | cons x s =>
    cases hx : keep x with
    | true =>
      rw [encode_cons_keep hx, decode_triplet] at h
      obtain ⟨a, -, h⟩ := Option.bind_eq_some_iff.mp h
      obtain ⟨b, -, h⟩ := Option.bind_eq_some_iff.mp h
      obtain ⟨r, hr, rfl⟩ := Option.map_eq_some_iff.mp h
      exact ⟨x, s, _, r, rfl, rfl, hr⟩
    | false =>
      -- the next character is a `%`
      rw [encode_cons_escape hx, decode_triplet, hexValue_percent] at h
      obtain ⟨a, -, h⟩ := Option.bind_eq_some_iff.mp h
      cases h

include hkeep in
/-- Every other byte is read back. -/
theorem decode_encode_cons {c : UInt8} (hc : ¬ (keep c = false ∧ c < 16)) (s : List UInt8) :
    decode (encode keep (c :: s)) = (decode (encode keep s)).map (c :: ·) := by
  cases hk : keep c with
  | true => rw [encode_cons_keep hk, decode_char (ne_percent hkeep hk)]
  | false => rw [encode_cons_escape hk, decode_hexNumber fun hlow => hc ⟨hk, hlow⟩]

include hkeep in
/-- Where no byte is written with one digit, the text is read back. -/
theorem decode_encode {s : List UInt8} (h : ∀ c ∈ s, keep c = false → ¬ c < 16) : decode (encode keep s) = some s := by
  induction s with
  | nil => rfl
  | cons c s ih =>
    have hc : ¬ (keep c = false ∧ c < 16) := fun hone => h c (List.mem_cons_self ..) hone.1 hone.2
    rw [decode_encode_cons hkeep hc, ih fun x hx => h x (List.mem_cons_of_mem _ hx), Option.map_some]

include hkeep in
/-- What is read is not longer than what was written, and shorter if a byte
was written with one digit. -/
theorem length_decode {s r : List UInt8} (h : decode (encode keep s) = some r) :
    r.length ≤ s.length ∧ ((∃ c ∈ s, keep c = false ∧ c < 16) → r.length < s.length) := by
  -- the one-digit case goes on behind the next byte
  induction hn : s.length using Nat.strong_induction_on generalizing s r with
  | _ n ih =>
    subst hn
    cases s with
    | nil =>
      obtain rfl : [] = r := Option.some.inj h
      simp
    | cons c s =>
      by_cases hc : keep c = false ∧ c < 16
      · obtain ⟨x, s, b, r, rfl, rfl, hr⟩ := decode_oneDigit hc.1 hc.2 h
        have hle := (ih s.length (by simp only [List.length_cons]; omega) hr rfl).1
        have hlt : (b :: r).length < (c :: x :: s).length := by
          simp only [List.length_cons]
          omega
        exact ⟨Nat.le_of_lt hlt, fun _ => hlt⟩
      · rw [decode_encode_cons hkeep hc, Option.map_eq_some_iff] at h
        obtain ⟨r, hr, rfl⟩ := h
        obtain ⟨hle, hlt⟩ := ih s.length (Nat.lt_succ_self _) hr rfl
        refine ⟨Nat.succ_le_succ hle, ?_⟩
        rintro ⟨x, hx, hone⟩
        rcases List.mem_cons.mp hx with rfl | hx
        · exact absurd hone hc
        · exact Nat.succ_lt_succ (hlt ⟨x, hx, hone⟩)

include hkeep in
/-- **The round trip** holds exactly when no byte is written with one digit. -/
theorem decode_encode_iff (s : List UInt8) :
    decode (encode keep s) = some s ↔ ∀ c ∈ s, keep c = false → ¬ c < 16 := by
  refine ⟨fun h c hc hk hlt => ?_, decode_encode hkeep⟩
  exact absurd ((length_decode hkeep h).2 ⟨c, hc, hk, hlt⟩) (Nat.lt_irrefl _)

include hkeep in
theorem encode_injOn {s t : List UInt8} (hs : ∀ c ∈ s, keep c = false → ¬ c < 16)
    (ht : ∀ c ∈ t, keep c = false → ¬ c < 16) (h : encode keep s = encode keep t) : s = t := by
  have hd := decode_encode hkeep hs
  rw [h, decode_encode hkeep ht] at hd
  exact (Option.some.inj hd).symm

/-- What an encoded text is made of. -/
theorem mem_encode {s : List UInt8} {x : UInt8} (h : x ∈ encode keep s) :
    keep x = true ∨ x = 37 ∨ ∃ n < 16, x = hexDigit n := by
  obtain ⟨c, -, hx⟩ := List.mem_flatMap.mp h
  split at hx
  next hc =>
    obtain rfl := List.mem_singleton.mp hx
    exact .inl hc
  · rcases List.mem_cons.mp hx with rfl | hx
    · exact .inr (.inl rfl)
    · have hlt : c.toNat < 256 := c.toNat_lt
      rw [hexNumber] at hx
      split at hx
      next hlow =>
        obtain rfl := List.mem_singleton.mp hx
        exact .inr (.inr ⟨c.toNat, UInt8.lt_iff_toNat_lt.mp hlow, rfl⟩)
      · rcases List.mem_cons.mp hx with rfl | hx
        · exact .inr (.inr ⟨c.toNat / 16, by omega, rfl⟩)
        · obtain rfl := List.mem_singleton.mp hx
          exact .inr (.inr ⟨c.toNat % 16, by omega, rfl⟩)

end

/-! ## Cutting -/

/-- Cut at the first `d`. -/
def cut (d : UInt8) (s : List UInt8) : Option (List UInt8 × List UInt8) :=
  if d ∈ s then some (s.takeWhile (· != d), (s.dropWhile (· != d)).tail) else none

/-- Cut at the last `d`. -/
def cutLast (d : UInt8) (s : List UInt8) : Option (List UInt8 × List UInt8) :=
  (Separated.rfind d s).map fun i => (s.take i, s.drop (i + 1))

theorem cut_append {d : UInt8} {a : List UInt8} (ha : d ∉ a) (b : List UInt8) : cut d (a ++ d :: b) = some (a, b) := by
  have hrow : ∀ x ∈ a, (x != d) = true := fun x hx => by simpa using fun h : x = d => ha (h ▸ hx)
  have hstop : ∀ x ∈ (d :: b).head?, (x != d) = false := by simp
  rw [cut, if_pos (by simp), Separated.takeWhile_row hrow hstop, Separated.dropWhile_row hrow hstop, List.tail_cons]

theorem cutLast_append {d : UInt8} {b : List UInt8} (hb : d ∉ b) (a : List UInt8) :
    cutLast d (a ++ d :: b) = some (a, b) := by
  have hdrop : (a ++ d :: b).drop (a.length + 1) = b := by simp [← List.drop_drop]
  rw [cutLast, Separated.rfind_append_cons_self a hb, Option.map_some, List.take_left, hdrop]

/-! ## URIs -/

/-- What a URI says, its components decoded. -/
structure Uri where
  user : List UInt8
  password : List UInt8
  path : List UInt8
  options : List (List UInt8 × List UInt8)
  deriving DecidableEq

/-- The components of a URI as they stand in it; the authority is host and
port. -/
structure Raw where
  user : List UInt8
  password : List UInt8
  authority : List UInt8
  path : List UInt8
  options : List (List UInt8 × List UInt8)

/-- `key=value` -/
def optionText (o : List UInt8 × List UInt8) : List UInt8 := o.1 ++ 61 :: o.2

/-- `scheme user:password@authority/path?key=value&key=value` -/
def Raw.text (scheme : List UInt8) (r : Raw) : List UInt8 :=
  scheme ++ (r.user ++ 58 :: (r.password ++ 64 :: (r.authority ++ 47 :: r.path ++ 63 ::
    [38].intercalate (r.options.map optionText))))

/-- No component holds the delimiter that ends it. -/
structure Raw.Clean (r : Raw) : Prop where
  user : 58 ∉ r.user
  password : 64 ∉ r.password
  path : 47 ∉ r.path ∧ 63 ∉ r.path
  options : r.options ≠ []
  key : ∀ o ∈ r.options, 61 ∉ o.1 ∧ 38 ∉ o.1 ∧ 63 ∉ o.1
  value : ∀ o ∈ r.options, 38 ∉ o.2 ∧ 63 ∉ o.2

/-- Decode the components. -/
def Raw.decode (r : Raw) : Option Uri :=
  (Percent.decode r.user).bind fun user =>
  (Percent.decode r.password).bind fun password =>
  (Percent.decode r.path).bind fun path =>
  (r.options.mapM fun o => (Percent.decode o.2).map (o.1, ·)).map fun options => { user, password, path, options }

/-- Cut a URI into its components, the query at the last `?`. -/
def cutUri (scheme uri : List UInt8) : Option Raw :=
  if scheme.isPrefixOf uri then
    (cut 58 (uri.drop scheme.length)).bind fun (user, rest) =>
    (cut 64 rest).bind fun (password, rest) =>
    (cutLast 63 rest).bind fun (rest, query) =>
    (cutLast 47 rest).bind fun (authority, path) =>
    ((query.splitOn 38).mapM (cut 61)).map fun options => { user, password, authority, path, options }
  else none

/-- Read a URI. -/
def read (scheme uri : List UInt8) : Option Uri := (cutUri scheme uri).bind Raw.decode

theorem mapM_cut {options : List (List UInt8 × List UInt8)} (h : ∀ o ∈ options, 61 ∉ o.1) :
    (options.map optionText).mapM (cut 61) = some options := by
  induction options with
  | nil => rfl
  | cons o options ih =>
    rw [List.map_cons, List.mapM_cons, optionText, cut_append (h o (List.mem_cons_self ..)),
      ih fun x hx => h x (List.mem_cons_of_mem _ hx)]
    rfl

/-- **A clean URI** is cut into the components it was made of. -/
theorem cutUri_text (scheme : List UInt8) {r : Raw} (h : r.Clean) : cutUri scheme (r.text scheme) = some r := by
  have hquery : 63 ∉ [38].intercalate (r.options.map optionText) := by
    refine Separated.not_mem_intercalate (by decide) fun s hs => ?_
    obtain ⟨o, ho, rfl⟩ := List.mem_map.mp hs
    simp [optionText, (h.key o ho).2.2, (h.value o ho).2]
  have hsplit : ([38].intercalate (r.options.map optionText)).splitOn 38 = r.options.map optionText := by
    refine List.splitOn_intercalate _ (fun s hs => ?_) (by simpa using h.options)
    obtain ⟨o, ho, rfl⟩ := List.mem_map.mp hs
    simp [optionText, (h.key o ho).2.1, (h.value o ho).1]
  have hprefix : scheme.isPrefixOf (r.text scheme) = true := by simp [Raw.text]
  have hrest : (r.text scheme).drop scheme.length = r.user ++ 58 :: (r.password ++ 64 :: (r.authority ++ 47 :: r.path ++ 63 ::
      [38].intercalate (r.options.map optionText))) := by
    rw [Raw.text, List.drop_left]
  simp only [cutUri, hprefix, hrest, cut_append h.user, cut_append h.password, cutLast_append hquery,
    cutLast_append h.path.1, hsplit, mapM_cut fun o ho => (h.key o ho).1, if_true, Option.bind_some, Option.map_some]

theorem read_text (scheme : List UInt8) {r : Raw} (h : r.Clean) : read scheme (r.text scheme) = r.decode := by
  rw [read, cutUri_text scheme h, Option.bind_some]

/-! ## Encoded URIs -/

section

variable {keep : UInt8 → Bool} (hkeep : keep 37 = false)

/-- The URI with its components encoded. -/
def Uri.encode (keep : UInt8 → Bool) (authority : List UInt8) (u : Uri) : Raw where
  user := Percent.encode keep u.user
  password := Percent.encode keep u.password
  authority
  path := Percent.encode keep u.path
  options := u.options.map fun o => (o.1, Percent.encode keep o.2)

/-- Every component of the URI satisfies `p`. -/
structure Uri.All (p : List UInt8 → Prop) (u : Uri) : Prop where
  user : p u.user
  password : p u.password
  path : p u.path
  options : ∀ o ∈ u.options, p o.2

theorem mapM_decode_encode (options : List (List UInt8 × List UInt8)) :
    ((options.map fun o => (o.1, encode keep o.2)).mapM fun o => (decode o.2).map (o.1, ·)) = some options ↔
      ∀ o ∈ options, decode (encode keep o.2) = some o.2 := by
  induction options with
  | nil => simp
  | cons o options ih =>
    obtain ⟨key, value⟩ := o
    rw [List.map_cons, List.mapM_cons, List.forall_mem_cons, ← ih]
    cases hv : decode (encode keep value) with
    | none => simp
    | some v =>
      cases hs : (options.map fun o => (o.1, encode keep o.2)).mapM fun o => (decode o.2).map (o.1, ·) with
      | none => simp
      | some l => simp

/-- Decoding an encoded URI gives it back just when this holds of every
component. -/
theorem decode_encode_uri (authority : List UInt8) (u : Uri) :
    (u.encode keep authority).decode = some u ↔ u.All fun s => decode (encode keep s) = some s := by
  constructor
  · intro h
    obtain ⟨user, huser, h⟩ := Option.bind_eq_some_iff.mp h
    obtain ⟨password, hpassword, h⟩ := Option.bind_eq_some_iff.mp h
    obtain ⟨path, hpath, h⟩ := Option.bind_eq_some_iff.mp h
    obtain ⟨options, hoptions, rfl⟩ := Option.map_eq_some_iff.mp h
    exact ⟨huser, hpassword, hpath, (mapM_decode_encode options).mp hoptions⟩
  · intro h
    rw [Raw.decode, Uri.encode, h.user, h.password, h.path, (mapM_decode_encode u.options).mpr h.options]
    rfl

include hkeep in
/-- **Reading a written URI** gives it back exactly when no byte of its
components is written with one digit. -/
theorem read_encode_iff (scheme authority : List UInt8) {u : Uri} (h : (u.encode keep authority).Clean) :
    read scheme ((u.encode keep authority).text scheme) = some u ↔ u.All fun s => ∀ c ∈ s, keep c = false → ¬ c < 16 := by
  rw [read_text scheme h, decode_encode_uri]
  simp only [decode_encode_iff hkeep]

end

end Percent
