/-
Addresses, and what a text with several `hostname` attributes makes of them.

`ParseSingleAddress` takes a host alone, `host:port` and `host:port..port`
(`Address`) and reports that it ignores anything else. The handler of
`hostname` writes the host every time but the port only where none is set, and
the segments are handled from right to left: the host is that of the leftmost
address of a text, the port that of the rightmost
(`parseConnectionString_address`).
-/
import DocumentDbOdbc.ConnectionStringFacts

namespace DocumentDbOdbc

/-! ## Records that say a value is not used -/

/-- The record says that the value or the address is ignored, or that the
default is used. -/
def StatusRecord.SaysIgnored (r : StatusRecord) : Prop :=
  ascii "Ignoring" <:+: r.message ∨ ascii "Using default value" <:+: r.message ∨
    ascii "Default value used" <:+: r.message

def Rejects (diag : List StatusRecord) : Prop := ∃ r ∈ diag, r.SaysIgnored

theorem not_rejects_nil : ¬ Rejects [] := by simp [Rejects]

theorem Rejects.append_right {diag : List StatusRecord} (h : Rejects diag) (diag' : List StatusRecord) :
    Rejects (diag' ++ diag) := by
  obtain ⟨r, hr, hsays⟩ := h
  exact ⟨r, List.mem_append_right _ hr, hsays⟩

theorem rejects_single {message : Str} (h : (optionValueChanged message).SaysIgnored) :
    Rejects [optionValueChanged message] :=
  ⟨_, List.mem_singleton_self _, h⟩

/-- What every record of the address parser ends in. -/
theorem rejects_address (s : Str) : Rejects [optionValueChanged (s ++ ascii "'. Ignoring address.")] :=
  rejects_single (.inl ⟨s ++ ascii "'. ", ascii " address.", by rw [List.append_assoc, List.append_assoc]; rfl⟩)

/-! ## Ports -/

/-- A text that `ParsePort` takes for the number `n`. -/
structure PortText (text : Str) (n : Nat) : Prop where
  digits : allDigits (stripSurroundingWhitespaces text) = true
  length : (stripSurroundingWhitespaces text).length < 6
  value : Numeral.numeralValue (stripSurroundingWhitespaces text) = n
  pos : 1 ≤ n
  le : n ≤ uint16Max

/-- What `ParsePortRange` takes, with the number it begins with. -/
inductive PortRange : Str → Nat → Prop
  | single {text n} (h : PortText text n) : PortRange text n
  | range {first last n m} (hf : PortText first n) (hl : PortText last m) (hle : n ≤ m) :
    PortRange (first ++ 46 :: 46 :: last) n

/-- What `ParseSingleAddress` takes, with its host and its port, the default
where there is none. -/
inductive Address : Str → Str → Nat → Prop
  | host {host} (hh : 58 ∉ host) : Address host host 27017
  | port {host text n} (hh : 58 ∉ host) (hp : PortRange text n) : Address (host ++ 58 :: text) host n

theorem PortText.not_mem {text : Str} {n : Nat} (h : PortText text n) {x : UInt8} (hs : isSpace x = false)
    (hd : Numeral.isDigit x = false) : x ∉ text := by
  intro hx
  have hdigit := List.all_eq_true.mp h.digits x (Separated.mem_trim hx hs)
  rw [hd] at hdigit
  cases hdigit

theorem PortRange.not_mem {text : Str} {n : Nat} (h : PortRange text n) : 58 ∉ text := by
  cases h with
  | single h => exact h.not_mem (by decide) (by decide)
  | range hf hl _ =>
    have hfirst : (58 : UInt8) ∉ _ := hf.not_mem (by decide) (by decide)
    have hlast : (58 : UInt8) ∉ _ := hl.not_mem (by decide) (by decide)
    simp [hfirst, hlast]

theorem PortRange.bounds {text : Str} {n : Nat} (h : PortRange text n) : 1 ≤ n ∧ n ≤ uint16Max := by
  cases h with
  | single h => exact ⟨h.pos, h.le⟩
  | range hf _ _ => exact ⟨hf.pos, hf.le⟩

theorem PortRange.ne_nil {text : Str} {n : Nat} (h : PortRange text n) : text ≠ [] := by
  cases h with
  | single h =>
    rintro rfl
    have hpos := h.pos
    rw [← h.value] at hpos
    exact absurd hpos (by decide)
  | range => simp

theorem toNat_port {n : Nat} (h : n ≤ uint16Max) : (UInt16.ofNat n).toNat = n :=
  UInt16.toNat_ofNat_of_lt (Nat.lt_succ_of_le h)

theorem port_ne_zero {n : Nat} (h : 1 ≤ n ∧ n ≤ uint16Max) : UInt16.ofNat n ≠ 0 := by
  intro h0
  have hn := toNat_port h.2
  rw [h0] at hn
  exact absurd h.1 (by rw [← hn]; decide)

theorem parsePort_of_portText {text : Str} {n : Nat} (h : PortText text n) :
    parsePort text = (UInt16.ofNat n, []) := by
  have hpos := h.pos
  have hle := h.le
  have he : extractDigits int32Max (stripSurroundingWhitespaces text) = n := by
    rw [extractDigits, h.value]
    exact Nat.min_eq_left (hle.trans (by decide))
  have hzero : ¬ (n = 0 ∨ uint16Max < n) := by omega
  simp only [parsePort, h.digits, Nat.not_le.mpr h.length, he, hzero, Bool.not_true, Bool.false_eq_true, if_false]

theorem parsePort_of_not {text : Str} (h : ∀ n, ¬ PortText text n) :
    (parsePort text).1 = 0 ∧ Rejects (parsePort text).2 := by
  simp only [parsePort]
  split
  · exact ⟨rfl, rejects_address _⟩
  next hdigits =>
  split
  · exact ⟨rfl, rejects_address _⟩
  next hlength =>
  split
  · exact ⟨rfl, rejects_address _⟩
  next hrange =>
    refine absurd ⟨by simpa using hdigits, by omega, rfl, ?_, ?_⟩ (h _)
    · have : extractDigits int32Max (stripSurroundingWhitespaces text) ≤
        Numeral.numeralValue (stripSurroundingWhitespaces text) := Nat.min_le_left _ _
      omega
    · simp only [extractDigits, int32Max, uint16Max] at hrange ⊢
      omega

/-! ## Ranges -/

section

variable (endPoint : EndPoint)

theorem idxOf?_cut {x : UInt8} {a : Str} (ha : x ∉ a) (b : Str) : (a ++ x :: b).idxOf? x = some a.length := by
  rw [List.idxOf?_eq_some_iff]
  refine ⟨by simp, by simp, fun j hj => ?_⟩
  rw [List.getElem_append_left hj]
  exact fun h => ha (h ▸ List.getElem_mem hj)

/-- A range with both its dots. -/
theorem parsePortRange_dots {first : Str} (hf : 46 ∉ first) (last : Str) :
    parsePortRange (first ++ 46 :: 46 :: last) endPoint =
      if (parsePort first).1 = 0 then (false, endPoint, (parsePort first).2)
      else if (parsePort last).1 = 0 then (false, endPoint, (parsePort first).2 ++ (parsePort last).2)
      else if (parsePort last).1 < (parsePort first).1 then
        (false, endPoint, (parsePort first).2 ++ (parsePort last).2 ++ [optionValueChanged
          (ascii "Port range end is less than port range begin in the following address: '" ++
            (first ++ 46 :: 46 :: last) ++ ascii "'. Ignoring address.")])
      else (true, { endPoint with port := (parsePort first).1, range := (parsePort last).1 - (parsePort first).1 },
        (parsePort first).2 ++ (parsePort last).2) := by
  have hcut : (first ++ 46 :: 46 :: last).idxOf? 46 = some first.length := idxOf?_cut hf _
  have hdots : ¬ ((first ++ 46 :: 46 :: last).length < first.length + 2 ∨
      (first ++ 46 :: 46 :: last)[first.length + 1]? ≠ some 46) := by
    simp
  have hdrop : (first ++ 46 :: 46 :: last).drop (first.length + 2) = last := by
    simp [← List.drop_drop]
  simp only [parsePortRange, hcut, if_neg hdots, List.take_left, hdrop]

theorem parsePortRange_single {text : Str} {n : Nat} (h : PortText text n) :
    parsePortRange text endPoint = (true, { endPoint with port := UInt16.ofNat n, range := 0 }, []) := by
  have hcut : text.idxOf? 46 = none := List.idxOf?_eq_none_iff.mpr (h.not_mem (by decide) (by decide))
  have hne := port_ne_zero ⟨h.pos, h.le⟩
  simp only [parsePortRange, hcut, parsePort_of_portText h, Prod.mk.injEq, and_true]
  simpa using hne

/-- The range is the last port minus the first. -/
theorem parsePortRange_range {first last : Str} {n m : Nat} (hf : PortText first n) (hl : PortText last m)
    (hle : n ≤ m) :
    parsePortRange (first ++ 46 :: 46 :: last) endPoint =
      (true, { endPoint with port := UInt16.ofNat n, range := UInt16.ofNat (m - n) }, []) := by
  have hlt : ¬ UInt16.ofNat m < UInt16.ofNat n := by
    rw [UInt16.lt_iff_toNat_lt, toNat_port hl.le, toNat_port hf.le]
    omega
  have hsub : UInt16.ofNat m - UInt16.ofNat n = UInt16.ofNat (m - n) := by
    have hm := hl.le
    rw [← UInt16.toNat_inj, UInt16.toNat_sub_of_le _ _ (UInt16.not_lt.mp hlt), toNat_port hl.le, toNat_port hf.le,
      toNat_port (by omega)]
  rw [parsePortRange_dots endPoint (hf.not_mem (by decide) (by decide)), parsePort_of_portText hf,
    parsePort_of_portText hl]
  simp only [if_neg (port_ne_zero ⟨hf.pos, hf.le⟩), if_neg (port_ne_zero ⟨hl.pos, hl.le⟩), if_neg hlt, hsub,
    List.append_nil]

theorem parsePortRange_of_portRange {text : Str} {n : Nat} (h : PortRange text n) :
    ∃ range, parsePortRange text endPoint = (true, { endPoint with port := UInt16.ofNat n, range }, []) := by
  cases h with
  | single h => exact ⟨0, parsePortRange_single endPoint h⟩
  | range hf hl hle => exact ⟨_, parsePortRange_range endPoint hf hl hle⟩

theorem parsePort_cases (text : Str) :
    (∃ n, PortText text n ∧ parsePort text = (UInt16.ofNat n, [])) ∨
      (parsePort text).1 = 0 ∧ Rejects (parsePort text).2 := by
  by_cases h : ∃ n, PortText text n
  · obtain ⟨n, hn⟩ := h
    exact .inl ⟨n, hn, parsePort_of_portText hn⟩
  · exact .inr (parsePort_of_not (not_exists.mp h))

/-- Anything else is reported, and the host is kept. -/
theorem parsePortRange_of_not {text : Str} (h : ∀ n, ¬ PortRange text n) :
    (parsePortRange text endPoint).1 = false ∧ (parsePortRange text endPoint).2.1.host = endPoint.host ∧
      Rejects (parsePortRange text endPoint).2.2 := by
  by_cases hdot : (46 : UInt8) ∈ text
  · obtain ⟨first, rest, rfl, hf⟩ := List.eq_append_cons_of_mem hdot
    by_cases hrest : ∃ last, rest = 46 :: last
    · obtain ⟨last, rfl⟩ := hrest
      rw [parsePortRange_dots endPoint hf]
      rcases parsePort_cases first with ⟨n, hn, hfirst⟩ | ⟨hzero, hrejects⟩
      · rcases parsePort_cases last with ⟨m, hm, hlast⟩ | ⟨hzero, hrejects⟩
        · have hlt : UInt16.ofNat m < UInt16.ofNat n := by
            rw [UInt16.lt_iff_toNat_lt, toNat_port hm.le, toNat_port hn.le]
            by_contra hle
            exact h n (.range hn hm (by omega))
          rw [hfirst, hlast, if_neg (port_ne_zero ⟨hn.pos, hn.le⟩), if_neg (port_ne_zero ⟨hm.pos, hm.le⟩), if_pos hlt]
          exact ⟨rfl, rfl, (rejects_address _).append_right _⟩
        · rw [hfirst, if_neg (port_ne_zero ⟨hn.pos, hn.le⟩), if_pos hzero]
          exact ⟨rfl, rfl, hrejects.append_right _⟩
      · rw [if_pos hzero]
        exact ⟨rfl, rfl, hrejects⟩
    · have hcut : (first ++ 46 :: rest).idxOf? 46 = some first.length := idxOf?_cut hf _
      have hnot : (first ++ 46 :: rest).length < first.length + 2 ∨
          (first ++ 46 :: rest)[first.length + 1]? ≠ some 46 := by
        cases rest with
        | nil => simp
        | cons x rest =>
          have hx : (first ++ 46 :: x :: rest)[first.length + 1]? = some x := by simp
          right
          rw [hx]
          rintro ⟨rfl⟩
          exact hrest ⟨rest, rfl⟩
      simp only [parsePortRange, hcut, if_pos hnot]
      exact ⟨trivial, trivial, rejects_address _⟩
  · have hcut : text.idxOf? 46 = none := List.idxOf?_eq_none_iff.mpr hdot
    obtain ⟨hzero, hrejects⟩ := parsePort_of_not fun n hn => h n (.single hn)
    simp only [parsePortRange, hcut, hzero]
    exact ⟨by decide, trivial, hrejects⟩

/-! ## Addresses -/

variable {H : Host}

/-- An address with one colon. -/
theorem parseSingleAddress_colon {host text : Str} (hh : 58 ∉ host) (ht : 58 ∉ text) :
    parseSingleAddress H (host ++ 58 :: text) endPoint =
      if text = [] then (false, { endPoint with host }, [optionValueChanged
        (ascii "Port is missing in the following address: '" ++ (host ++ 58 :: text) ++ ascii "'. Ignoring address.")])
      else parsePortRange text { endPoint with host } := by
  have hcount : (host ++ 58 :: text).count 58 = 1 := by
    simp [List.count_eq_zero.mpr hh, List.count_eq_zero.mpr ht]
  have hcut : (host ++ 58 :: text).idxOf 58 = host.length := by
    rw [List.idxOf_append_of_notMem hh, List.idxOf_cons_self, Nat.add_zero]
  have hdrop : (host ++ 58 :: text).drop (host.length + 1) = text := by
    simp [← List.drop_drop]
  simp [parseSingleAddress, hcount, hcut, hdrop]

theorem parseSingleAddress_of_address {text host : Str} {n : Nat} (h : Address text host n) :
    ∃ e, parseSingleAddress H text endPoint = (true, e, []) ∧ e.host = host ∧ e.port = UInt16.ofNat n := by
  cases h with
  | host hh =>
    have hcount : text.count 58 = 0 := List.count_eq_zero.mpr hh
    exact ⟨_, by rw [parseSingleAddress, hcount, if_pos rfl], rfl, rfl⟩
  | @port host text n hh hp =>
    obtain ⟨range, hrange⟩ := parsePortRange_of_portRange { endPoint with host } hp
    exact ⟨_, by rw [parseSingleAddress_colon endPoint hh hp.not_mem, if_neg hp.ne_nil, hrange], rfl, rfl⟩

/-- The host that is stored of an address that is ignored. -/
def hostOfIgnored (text : Str) : Str := if text.count 58 = 1 then text.takeWhile (· != 58) else []

theorem takeWhile_colon {host : Str} (hh : 58 ∉ host) (text : Str) :
    (host ++ 58 :: text).takeWhile (· != 58) = host := by
  refine Separated.takeWhile_row (fun x hx => ?_) (by simp)
  simpa using fun h : x = 58 => hh (h ▸ hx)

/-- **What is no address** is reported, but what is before its colon is stored
as the host. -/
theorem parseSingleAddress_of_not {text : Str} (h : ∀ host n, ¬ Address text host n) :
    (parseSingleAddress H text {}).1 = false ∧ (parseSingleAddress H text {}).2.1.host = hostOfIgnored text ∧
      Rejects (parseSingleAddress H text {}).2.2 := by
  have hcolon : (58 : UInt8) ∈ text := by
    by_contra hno
    exact h _ _ (.host hno)
  obtain ⟨host, rest, rfl, hh⟩ := List.eq_append_cons_of_mem hcolon
  by_cases hrest : (58 : UInt8) ∈ rest
  · have hpos : 0 < rest.count 58 := List.count_pos_iff.mpr hrest
    have hcount : (host ++ 58 :: rest).count 58 = rest.count 58 + 1 := by
      simp [List.count_eq_zero.mpr hh]
    have h0 : (host ++ 58 :: rest).count 58 ≠ 0 := by omega
    have h1 : (host ++ 58 :: rest).count 58 ≠ 1 := by omega
    simp only [parseSingleAddress, hostOfIgnored, if_neg h0, if_neg h1]
    rw [if_pos h1]
    exact ⟨rfl, rfl, rejects_address _⟩
  · have hcount : (host ++ 58 :: rest).count 58 = 1 := by
      simp [List.count_eq_zero.mpr hh, List.count_eq_zero.mpr hrest]
    rw [parseSingleAddress_colon _ hh hrest, hostOfIgnored, if_pos hcount, takeWhile_colon hh]
    split
    · exact ⟨rfl, rfl, rejects_address _⟩
    · exact parsePortRange_of_not _ fun n hn => h _ _ (.port hh hn)

end

theorem Address.le_uint16Max {text host : Str} {n : Nat} (h : Address text host n) : n ≤ uint16Max := by
  cases h with
  | host => decide
  | port _ hp => exact hp.bounds.2

/-- An address has one host and one port. -/
theorem Address.unique {text host host' : Str} {n n' : Nat} (h : Address text host n) (h' : Address text host' n') :
    host = host' ∧ n = n' := by
  obtain ⟨e, he, hhost, hport⟩ := parseSingleAddress_of_address (H := Host.diskless) {} h
  obtain ⟨e', he', hhost', hport'⟩ := parseSingleAddress_of_address (H := Host.diskless) {} h'
  obtain rfl : e = e' := congrArg (fun r => r.2.1) (he.symm.trans he')
  refine ⟨hhost.symm.trans hhost', ?_⟩
  rw [← toNat_port h.le_uint16Max, ← toNat_port h'.le_uint16Max, ← hport, ← hport']

/-! ## Several addresses in a text -/

namespace ConnectionStringParser

variable {H : Host}

/-- The pairs of a text, from left to right. -/
def attributePairs (str : Str) : List (Str × Str) :=
  ((str.rdropWhile (· == 0)).splitOn 59).filterMap segmentPair

/-- The values that pairs give to a field. -/
def valuesIn (a : Attr) (pairs : List (Str × Str)) : List Str :=
  pairs.filterMap fun (key, value) => if attrOfKey (toLower key) = some a then some value else none

/-- The values a text gives to a field, from left to right. -/
def valuesOf (a : Attr) (str : Str) : List Str := valuesIn a (attributePairs str)

/-- What the pairs do to a configuration, the first one first. -/
def applyPairs (c : Configuration H) (pairs : List (Str × Str)) : Configuration H :=
  pairs.foldl (fun c pair => (handleAttributePair c pair.1 pair.2).1) c

theorem applyPairs_cons (c : Configuration H) (key value : Str) (pairs : List (Str × Str)) :
    applyPairs c ((key, value) :: pairs) = applyPairs (handleAttributePair c key value).1 pairs := by
  unfold applyPairs
  rw [List.foldl_cons]

theorem handlePair_fst (p : Parsed H) (key value : Str) :
    (handlePair p (some (key, value))).1 = (handleAttributePair p.1 key value).1 := rfl

theorem foldl_handleSegment_fst (segments : List Str) (p : Parsed H) :
    (segments.foldl handleSegment p).1 = applyPairs p.1 (segments.filterMap segmentPair) := by
  induction segments generalizing p with
  | nil => rfl
  | cons segment segments ih =>
    rw [List.foldl_cons, ih, handleSegment]
    cases hs : segmentPair segment with
    | none =>
      rw [List.filterMap_cons_none hs]
      rfl
    | some pair =>
      obtain ⟨key, value⟩ := pair
      rw [List.filterMap_cons_some hs, handlePair_fst, applyPairs_cons]

/-- The pairs of a text are handled from right to left. -/
theorem parseConnectionString_fst (c : Configuration H) (str : Str) :
    (parseConnectionString c str).1 = applyPairs c (attributePairs str).reverse := by
  rw [parseConnectionString, parse_eq_foldl, foldl_handleSegment_fst, List.filterMap_reverse, attributePairs]

theorem valuesIn_cons (a : Attr) (key value : Str) (pairs : List (Str × Str)) :
    valuesIn a ((key, value) :: pairs) =
      if attrOfKey (toLower key) = some a then value :: valuesIn a pairs else valuesIn a pairs := by
  by_cases h : attrOfKey (toLower key) = some a <;> simp [valuesIn, h]

theorem valuesIn_reverse (a : Attr) (pairs : List (Str × Str)) :
    valuesIn a pairs.reverse = (valuesIn a pairs).reverse := by
  rw [valuesIn, valuesIn, List.filterMap_reverse]

/-- A pair that names a field which does not touch `x`, or none, keeps `x`. -/
theorem handleAttributePair_frame (c : Configuration H) {key : Str} (value : Str) {x : Attr}
    (h : ∀ a, attrOfKey (toLower key) = some a → ¬ Touches a x) :
    (handleAttributePair c key value).1.attr x = c.attr x := by
  rw [handleAttributePair]
  cases ha : attrOfKey (toLower key) with
  | none => rfl
  | some a => exact handleAttr_frame c key value (h a ha)

theorem applyPairs_hostname (pairs : List (Str × Str)) (c : Configuration H) :
    (applyPairs c pairs).attr .hostname =
      (valuesIn .hostname pairs).getLast?.elim (c.attr .hostname) fun v => ⟨(parseSingleAddress H v {}).2.1.host, true⟩ := by
  induction pairs generalizing c with
  | nil => rfl
  | cons pair pairs ih =>
    obtain ⟨key, value⟩ := pair
    rw [applyPairs_cons, ih, valuesIn_cons]
    split
    next hkey =>
      rw [List.getLast?_cons]
      cases (valuesIn .hostname pairs).getLast? with
      | some v => simp only [Option.getD_some, Option.elim_some]
      | none =>
        simp only [Option.getD_none, Option.elim_some, Option.elim_none, handleAttributePair, hkey,
          handleAttr_hostname, handleHostname_hostname]
    next hkey =>
      rw [handleAttributePair_frame c value fun a ha => ?_]
      rintro (rfl | ⟨rfl, -⟩)
      · exact hkey ha
      · exact hkey ha

/-- Only the first of two addresses sets the port. -/
theorem portUnlessSet_twice (port port' : UInt16) (sv : SettableValue UInt16) :
    portUnlessSet port' (portUnlessSet port sv) = portUnlessSet port sv := by
  by_cases h : sv.isSet = true <;> simp [portUnlessSet, h]

/-- Without a valid `port`, the port is the one of the first address that is
handled. -/
theorem applyPairs_port (pairs : List (Str × Str)) (c : Configuration H)
    (h : ∀ v ∈ valuesIn .port pairs, ¬ ValidPort H v) :
    (applyPairs c pairs).attr .port =
      (valuesIn .hostname pairs).head?.elim (c.attr .port) fun v =>
        portUnlessSet (parseSingleAddress H v {}).2.1.port (c.attr .port) := by
  induction pairs generalizing c with
  | nil => rfl
  | cons pair pairs ih =>
    obtain ⟨key, value⟩ := pair
    have hrest : ∀ v ∈ valuesIn .port pairs, ¬ ValidPort H v := by
      intro v hv
      refine h v ?_
      rw [valuesIn_cons]
      split
      · exact List.mem_cons_of_mem _ hv
      · exact hv
    rw [applyPairs_cons, ih _ hrest, valuesIn_cons .hostname]
    split
    next hkey =>
      have hport : (handleAttributePair c key value).1.attr .port =
          portUnlessSet (parseSingleAddress H value {}).2.1.port (c.attr .port) := by
        simp only [handleAttributePair, hkey, handleAttr_hostname, handleHostname_port]
      simp only [hport, List.head?_cons, Option.elim_some]
      cases (valuesIn .hostname pairs).head? with
      | none => simp only [Option.elim_none]
      | some v => simp only [Option.elim_some, portUnlessSet_twice]
    next hkey =>
      have hport : (handleAttributePair c key value).1.attr .port = c.attr .port := by
        by_cases hp : attrOfKey (toLower key) = some .port
        · rw [handleAttributePair, hp]
          refine congrArg (Configuration.attr · .port) (handlePort_invalid (h value ?_) c key)
          rw [valuesIn_cons, if_pos hp]
          exact List.mem_cons_self ..
        · refine handleAttributePair_frame c value fun a ha => ?_
          rintro (rfl | ⟨rfl, -⟩)
          · exact hp ha
          · exact hkey ha
      rw [hport]

/-- The leftmost address is handled last, and its host stays. -/
theorem parseConnectionString_hostname (c : Configuration H) (str : Str) :
    (parseConnectionString c str).1.attr .hostname =
      (valuesOf .hostname str).head?.elim (c.attr .hostname) fun v => ⟨(parseSingleAddress H v {}).2.1.host, true⟩ := by
  rw [parseConnectionString_fst, applyPairs_hostname, valuesIn_reverse, ← valuesOf, List.getLast?_reverse]

/-- The rightmost address is handled first, and its port stays. -/
theorem parseConnectionString_port (c : Configuration H) {str : Str} (h : ∀ v ∈ valuesOf .port str, ¬ ValidPort H v) :
    (parseConnectionString c str).1.attr .port =
      (valuesOf .hostname str).getLast?.elim (c.attr .port) fun v =>
        portUnlessSet (parseSingleAddress H v {}).2.1.port (c.attr .port) := by
  have hpairs : ∀ v ∈ valuesIn .port (attributePairs str).reverse, ¬ ValidPort H v := by
    intro v hv
    rw [valuesIn_reverse] at hv
    exact h v (List.mem_reverse.mp hv)
  rw [parseConnectionString_fst, applyPairs_port _ _ hpairs, valuesIn_reverse, ← valuesOf, List.head?_reverse]

/-- Some address of the text has the host of the leftmost one and the port of
the rightmost one. -/
def EndsAgree (addresses : List Str) : Prop :=
  ∃ v ∈ addresses, ∃ host n, Address v host n ∧ (∀ first ∈ addresses.head?, ∃ m, Address first host m) ∧
    ∀ last ∈ addresses.getLast?, ∃ host', Address last host' n

/-- **Host and port of a text** without a valid `port` are those of one
address exactly when its leftmost and its rightmost address agree. -/
theorem parseConnectionString_address (c : Configuration H) (str : Str) (hc : c.isSet .port = false)
    (ha : ∀ v ∈ valuesOf .hostname str, ∃ host n, Address v host n)
    (hp : ∀ v ∈ valuesOf .port str, ¬ ValidPort H v) :
    (∃ v ∈ valuesOf .hostname str, Address v ((parseConnectionString c str).1.getValue .hostname)
      ((parseConnectionString c str).1.getValue .port : UInt16).toNat) ↔ EndsAgree (valuesOf .hostname str) := by
  have hhost := parseConnectionString_hostname c str
  have hport := parseConnectionString_port c hp
  cases hv : valuesOf .hostname str with
  | nil => simp [EndsAgree]
  | cons first rest =>
    rw [hv] at ha hhost hport
    obtain ⟨last, hlast⟩ : ∃ last, (first :: rest).getLast? = some last := ⟨_, List.getLast?_eq_some_getLast (by simp)⟩
    obtain ⟨host, m, hfirst⟩ := ha first (List.mem_cons_self ..)
    obtain ⟨host', n, hlastAddress⟩ := ha last (List.mem_of_getLast? hlast)
    obtain ⟨e, he, rfl, -⟩ := parseSingleAddress_of_address (H := H) {} hfirst
    obtain ⟨e', he', -, hn⟩ := parseSingleAddress_of_address (H := H) {} hlastAddress
    have hHost : (parseConnectionString c str).1.getValue .hostname = e.host := by
      rw [Configuration.getValue, hhost, List.head?_cons, Option.elim_some, he]
    have hPort : ((parseConnectionString c str).1.getValue .port : UInt16).toNat = n := by
      have hunset : (c.attr .port).isSet = false := hc
      rw [Configuration.getValue, hport, hlast, Option.elim_some, he', portUnlessSet, hunset, hn]
      exact toNat_port hlastAddress.le_uint16Max
    rw [hHost, hPort]
    constructor
    · rintro ⟨v, hmem, haddress⟩
      refine ⟨v, hmem, e.host, n, haddress, ?_, ?_⟩
      · rintro _ ⟨⟩
        exact ⟨m, hfirst⟩
      · rintro last' hlast'
        obtain rfl : last = last' := Option.some.inj (hlast.symm.trans hlast')
        exact ⟨host', hlastAddress⟩
    · rintro ⟨v, hmem, host'', n', haddress, hleft, hright⟩
      obtain ⟨m', hm'⟩ := hleft first rfl
      obtain ⟨h', hh'⟩ := hright last hlast
      obtain rfl := (hfirst.unique hm').1
      obtain rfl := (hlastAddress.unique hh').2
      exact ⟨v, hmem, haddress⟩

theorem parseConnectionString_address_one :
    let str := ascii "port=x;Hostname=db:1;user=me"
    ∃ v ∈ valuesOf .hostname str,
      Address v ((parseConnectionString (.fresh .diskless) str).1.getValue .hostname)
        ((parseConnectionString (.fresh .diskless) str).1.getValue .port : UInt16).toNat := by
  have hValue : valuesOf .hostname (ascii "port=x;Hostname=db:1;user=me") = [ascii "db:1"] := by decide
  have hAddressHost : 58 ∉ ascii "db" := by decide
  have hAddressPort : PortText (ascii "1") 1 := ⟨by decide, by decide, by decide, by decide, by decide⟩
  have hAddress : Address (ascii "db:1") (ascii "db") 1 := .port hAddressHost (.single hAddressPort)
  refine (parseConnectionString_address (.fresh .diskless) _ rfl ?_ (by decide)).mpr ?_
  · rw [hValue]
    rintro v (_ | ⟨_, ⟨⟩⟩)
    exact ⟨_, _, hAddress⟩
  · rw [hValue]
    exact ⟨_, List.mem_singleton_self _, _, _, hAddress, by rintro _ ⟨⟩; exact ⟨_, hAddress⟩,
      by rintro _ ⟨⟩; exact ⟨_, hAddress⟩⟩

/-- Two addresses, and the port of one goes with the host of the other. -/
theorem parseConnectionString_address_mixed :
    ¬ ∀ (c : Configuration Host.diskless) (str : Str), c.isSet .port = false → valuesOf .hostname str ≠ [] →
      (∀ v ∈ valuesOf .hostname str, ∃ host n, Address v host n) →
      (∀ v ∈ valuesOf .port str, ¬ ValidPort Host.diskless v) →
      ∃ v ∈ valuesOf .hostname str, Address v ((parseConnectionString c str).1.getValue .hostname)
        ((parseConnectionString c str).1.getValue .port : UInt16).toNat := by
  intro h
  have hValues : valuesOf .hostname (ascii "HOSTNAME=a:1;HOSTNAME=b:2") = [ascii "a:1", ascii "b:2"] := by decide
  have hAHost : 58 ∉ ascii "a" := by decide
  have hAPort : PortText (ascii "1") 1 := ⟨by decide, by decide, by decide, by decide, by decide⟩
  have hA : Address (ascii "a:1") (ascii "a") 1 := .port hAHost (.single hAPort)
  have hBHost : 58 ∉ ascii "b" := by decide
  have hBPort : PortText (ascii "2") 2 := ⟨by decide, by decide, by decide, by decide, by decide⟩
  have hB : Address (ascii "b:2") (ascii "b") 2 := .port hBHost (.single hBPort)
  have hHost : (parseConnectionString (.fresh .diskless) (ascii "HOSTNAME=a:1;HOSTNAME=b:2")).1.getValue .hostname =
      ascii "a" := by decide
  have hPort : ((parseConnectionString (.fresh .diskless) (ascii "HOSTNAME=a:1;HOSTNAME=b:2")).1.getValue .port :
      UInt16) = 2 := by decide
  obtain ⟨v, hv, haddress⟩ := h (.fresh .diskless) (ascii "HOSTNAME=a:1;HOSTNAME=b:2") rfl (by decide)
    (by
      rw [hValues]
      rintro v (_ | ⟨_, _ | ⟨_, ⟨⟩⟩⟩)
      · exact ⟨_, _, hA⟩
      · exact ⟨_, _, hB⟩)
    (by decide)
  rw [hHost, hPort] at haddress
  rw [hValues] at hv
  rcases hv with _ | ⟨_, _ | ⟨_, ⟨⟩⟩⟩
  · exact absurd (hA.unique haddress).2 (by decide)
  · exact absurd (hB.unique haddress).1 (by decide)

end ConnectionStringParser

end DocumentDbOdbc
