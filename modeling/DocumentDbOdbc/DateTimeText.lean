/-
Dates and times put as text, and the same text put as a string.

`PutDate`, `PutTimestamp` and `PutTime` do not use `PutStrToStrBuffer`: they
set the indicator first and to the length of the whole text in characters,
compare that with the length of the buffer in bytes, and leave a text that
does not fit to `strftime`. `put_text_agrees_iff` says for which buffers the
application sees no difference.
-/
import DocumentDbOdbc.BufferMemory

namespace DocumentDbOdbc

open Effect ApplicationDataBuffer

/-- What the application sees of a `Put`: its result, the text before the
terminator and the indicator. -/
structure Seen where
  result : Except Fault ConversionResult
  text : Option (List Nat)
  indicator : Option (List UInt8)

namespace ApplicationDataBuffer

/-- The text made of a date or a time that is in the calendar. -/
def PutCall.tmText (P : Platform) : PutCall → Option Str
  | .date (some ms) => (P.toGmTime (ms.tdiv 1000)).map Tm.dateText
  | .timestamp (some v) => (P.toGmTime v.seconds).map Tm.timestampText
  | .time (some ms) => (P.toGmTime (ms.tdiv 1000)).map Tm.timeText
  | _ => none

def see (b : ApplicationDataBuffer) (w : Nat) (x : Put) (m : Memory.Mem) : Seen where
  result := x.value
  text := b.getData.map (readText (b.stored x m) w (b.buflen.toNat / w))
  indicator := b.getResLen.map fun r => Memory.read (b.stored x m) r 8

/-- The two look the same, whatever was in memory. -/
def LooksLike (b : ApplicationDataBuffer) (w : Nat) (x y : Put) : Prop := ∀ m, b.see w x m = b.see w y m

/-- The call leaves what `PutString` leaves for the text, whatever `strftime`
leaves in an array that is too short. -/
def TextAgrees (P : Platform) (b : ApplicationDataBuffer) (call : PutCall) (text : Str) : Prop :=
  ∀ overflow : Str → Nat → Str,
    b.LooksLike (b.charBytes P) (b.put { P with strftimeOverflow := overflow } call)
      (b.put { P with strftimeOverflow := overflow } (.string (some text)))

/-- Without data, there is no indicator and no truncation is reported. With
data, there is no room and no indicator; or there is room for the text and the
terminator, also in the count of bytes that `CopyStringToBuffer` makes of the
length, and the length in characters is that in bytes or is not stored. -/
def TextFits (b : ApplicationDataBuffer) (w len : Nat) : Prop :=
  if b.buffer.isSome then
    (b.buflen = 0 ∧ ¬ b.reslen.isSome) ∨
      ((w * (len + 1) : Nat) ≤ b.buflen ∧ w * (len + 1) ≤ b.buflen.toNat * w % 18446744073709551616 ∧
        (w = 1 ∨ ¬ b.reslen.isSome))
  else len + 1 ≤ b.buflen ∧ ¬ b.reslen.isSome

variable {P : Platform} {b : ApplicationDataBuffer} {p : Int} {w : Nat} {text : Str}

/-! ## Stores after the length -/

theorem getData_eq_none (h : b.getData = none) : ¬ b.buffer.isSome := by
  rw [getData, applyOffset, Option.map_eq_none_iff] at h
  simp [h]

theorem getResLen_of_isSome (h : b.reslen.isSome) : ∃ r, b.getResLen = some r := by
  obtain ⟨r, hr⟩ := Option.isSome_iff_exists.mp h
  exact ⟨_, by rw [getResLen, applyOffset, hr]; rfl⟩

theorem log_storeLen_none (h : ¬ b.reslen.isSome) (v : Int) : (b.storeLen v).log = [] := by
  rw [storeLen, if_neg h]
  rfl

/-- The indicator after the length was stored and then a text. -/
theorem read_len_text {r v : Int} {s : Str} {n : Nat} (hp : b.getData = some p) (hr : b.getResLen = some r)
    (hapart : b.Apart n) (hroom : w * (s.length + 1) ≤ n) (m : Memory.Mem) :
    Memory.read (Memory.write (Memory.writes m ((b.storeLen v).log.filterMap b.resolve)) ⟨p, textBytes w s⟩) r 8 =
      leBytes 8 v := by
  have hdisjoint := hapart p hp r hr
  rw [Memory.read_write_of_disjoint, storeLen_of_getResLen hr, log_emit, List.filterMap_cons, resolve_indicator_some hr]
  · have h := Memory.read_write_self m r (leBytes 8 v)
    rwa [length_leBytes] at h
  · rw [length_textBytes]
    dsimp only
    omega

/-- A length that is stored is seen. -/
theorem looksLike_pure_iff {x : Put} {r r' : ConversionResult} {len : Nat} (hlen : 0 < len ∧ len ≤ 19)
    (hstored : ∀ m, b.stored x m = Memory.writes m ((b.storeLen len).log.filterMap b.resolve)) (hx : x.value = .ok r) :
    b.LooksLike w x (pure r') ↔ r = r' ∧ ¬ b.reslen.isSome := by
  have hpure : ∀ m, b.stored (pure r') m = m := fun _ => rfl
  constructor
  · intro h
    have hresult := congrArg Seen.result (h fun _ => 0)
    refine ⟨Except.ok.inj (hx.symm.trans hresult), fun hreslen => ?_⟩
    obtain ⟨q, hq⟩ := getResLen_of_isSome hreslen
    have hindicator := congrArg Seen.indicator (h fun _ => 0)
    simp only [see, hq, Option.map_some, hstored, hpure, storeLen_of_getResLen hq, log_emit, List.filterMap_cons,
      resolve_indicator_some hq, List.filterMap_nil, Option.some.injEq] at hindicator
    have hread := Memory.read_write_self (fun _ => 0) q (leBytes 8 (len : Int))
    rw [length_leBytes] at hread
    have hzero : Memory.read (fun _ => 0) q 8 = leBytes 8 0 := by rw [Memory.read]; decide
    have heq := leBytes_injective (v := (len : Int)) (w := 0) (fits_eight.mpr (by omega)) (fits_eight.mpr (by omega))
      (hread.symm.trans (hindicator.trans hzero))
    omega
  · rintro ⟨rfl, hreslen⟩ m
    rw [see, see, hstored, hpure, log_storeLen_none hreslen, hx]
    rfl

/-! ## What is stored -/

/-- The result of the three operations, by the length in bytes. -/
def tmResult (b : ApplicationDataBuffer) (len : Nat) : ConversionResult :=
  if b.buflen < len + 1 then .varlenDataTruncated else .success

theorem ifData_null (h : b.getData = none) (x : Eff Store Fault Unit) : b.ifData x = pure () := if_neg (getData_eq_none h)

/-- The length, the stores and the result. -/
theorem storeLen_ifData_eq (hp : b.getData = some p) {x : Eff Store Fault Unit} (hx : x.value = .ok ()) (len : Int)
    (r : ConversionResult) :
    (do
      b.storeLen len
      b.ifData x
      pure r : Put) = ⟨(b.storeLen len).log ++ x.log, .ok r⟩ := by
  rw [ifData_of_getData hp, bind_of_ok (storeLen_value b _), bind_of_ok hx]
  simp

theorem storeLen_ifData_null (h : b.getData = none) (x : Eff Store Fault Unit) (len : Int) (r : ConversionResult) :
    (do
      b.storeLen len
      b.ifData x
      pure r : Put) = ⟨(b.storeLen len).log, .ok r⟩ := by
  rw [ifData_null h, bind_of_ok (storeLen_value b _), bind_of_ok rfl]
  simp

theorem putTmToCharBuffer_eq (hp : b.getData = some p) (text : Str) (len : Nat) :
    b.putTmToCharBuffer P text len =
      ⟨(b.storeLen len).log ++ [⟨.data, 0, P.strftime text (sizeT b.buflen)⟩], .ok (b.tmResult len)⟩ := by
  unfold putTmToCharBuffer tmResult
  rw [storeLen_ifData_eq hp (storeData_value (isSome_buffer hp) _ _), storeData_of_getData hp]
  rfl

/-- The bytes `CopyStringToBuffer` takes the buffer to have. -/
def copyLength (b : ApplicationDataBuffer) (w : Nat) : Nat := sizeT b.buflen * w % 18446744073709551616

theorem copyLength_cases (P : Platform) (b : ApplicationDataBuffer) :
    b.copyLength P.wcharBytes = 0 ∨ P.wcharBytes ≤ b.copyLength P.wcharBytes ∧
      outBufferLenChars P (b.copyLength P.wcharBytes) = b.copyLength P.wcharBytes / P.wcharBytes - 1 := by
  have hw := P.wcharBytes_range
  have hlt : b.copyLength P.wcharBytes < 18446744073709551616 := Nat.mod_lt _ (by decide)
  have hdvd : P.wcharBytes ∣ b.copyLength P.wcharBytes := by
    unfold copyLength
    exact (Nat.dvd_mod_iff (by rcases hw with h | h <;> rw [h] <;> decide)).mpr (Nat.dvd_mul_left _ _)
  rcases Nat.eq_zero_or_pos (b.copyLength P.wcharBytes) with h | h
  · exact .inl h
  · have hle := Nat.le_of_dvd h hdvd
    exact .inr ⟨hle, outBufferLenChars_eq hle hlt⟩

theorem putTmToWcharBuffer_eq (hp : b.getData = some p) {s : Str} {tmp : Int} (htmp : 0 ≤ tmp)
    (hs : cStr (P.strftime text (sizeT tmp)) = s) (hplain : ∀ c ∈ s, isPlainChar c = true) (len : Nat) :
    b.putTmToWcharBuffer P text len tmp =
      ⟨(b.storeLen len).log ++ (if b.copyLength P.wcharBytes = 0 then []
          else textStores P.wcharBytes (s.take (b.copyLength P.wcharBytes / P.wcharBytes - 1))), .ok (b.tmResult len)⟩ := by
  unfold putTmToWcharBuffer
  rw [if_neg (by omega), hs, storeLen_ifData_eq hp (copyStringToBuffer_value (isSome_buffer hp) _ _), tmResult]
  congr 2
  show (b.copyUtf8StringToSqlWcharString P s (b.copyLength P.wcharBytes) >>= fun _ => pure ()).log = _
  rcases copyLength_cases P b with h | ⟨h, hchars⟩
  · rw [h, if_pos rfl, copyUtf8StringToSqlWcharString, if_pos rfl]
    rfl
  · have hw := P.wcharBytes_range
    rw [if_neg (by omega), copyUtf8StringToSqlWcharString, if_neg (by omega), hchars, convertIn_plain_eq hplain]
    simp only [storeData_of_getData hp, List.length_map]
    rfl

/-! ## What is seen -/

/-- The length, then a text. -/
theorem stored_len_text {x : Put} {v : Int} {t : Str} (hp : b.getData = some p)
    (hlog : x.log = (b.storeLen v).log ++ textStores w t) (m : Memory.Mem) :
    b.stored x m = Memory.write (Memory.writes m ((b.storeLen v).log.filterMap b.resolve)) ⟨p, textBytes w t⟩ := by
  rw [stored_eq x m hlog, writes_textStores hp]

/-- The text that is seen. -/
theorem see_text {x : Put} {m m' : Memory.Mem} {t : Str} (hp : b.getData = some p) (hw : 0 < w)
    (hplain : ∀ c ∈ t, isPlainChar c = true) (hstored : b.stored x m = Memory.write m' ⟨p, textBytes w t⟩) :
    (b.see w x m).text = some ((t.take (b.buflen.toNat / w)).map UInt8.toNat) := by
  rw [see, hp, hstored]
  exact congrArg some (readText_textBytes hw hplain m' p _)

/-- Where there is no data, nothing but the length is stored. -/
theorem null_looksLike_iff (hp : b.getData = none) {x : Put} (hlen : 0 < text.length ∧ text.length ≤ 19)
    (hx : x = ⟨(b.storeLen text.length).log, .ok (b.tmResult text.length)⟩) :
    b.LooksLike w x (pure .success) ↔ TextFits b w text.length := by
  rw [looksLike_pure_iff hlen (fun m => by rw [hx]; rfl) (by rw [hx]), TextFits, if_neg (getData_eq_none hp), tmResult]
  refine and_congr_left fun _ => ?_
  split
  · next h => exact iff_of_false (by decide) (by omega)
  · next h => exact iff_of_true rfl (by omega)

/-- Where there is no room at all, too. -/
theorem empty_looksLike_iff (hp : b.getData = some p) (hempty : b.buflen = 0) {x : Put}
    (hlen : 0 < text.length ∧ text.length ≤ 19) (hw : 0 < w)
    (hstored : ∀ m, b.stored x m = Memory.writes m ((b.storeLen text.length).log.filterMap b.resolve))
    (hx : x.value = .ok (b.tmResult text.length)) :
    b.LooksLike w x (pure .varlenDataTruncated) ↔ TextFits b w text.length := by
  have hcut : b.tmResult text.length = .varlenDataTruncated := if_pos (by omega)
  rw [looksLike_pure_iff hlen hstored hx, TextFits, if_pos (isSome_buffer hp), hcut]
  have hroom : 0 < w * (text.length + 1) := Nat.mul_pos hw (Nat.succ_pos _)
  constructor
  · rintro ⟨-, h⟩
    exact .inl ⟨hempty, h⟩
  · rintro (⟨-, h⟩ | ⟨h, -⟩)
    · exact ⟨rfl, h⟩
    · omega

/-! ## Narrow characters -/

section

variable (hnarrow : NarrowsAscii P) (hplain : ∀ c ∈ text, isPlainChar c = true)
  (hlen : 0 < text.length ∧ text.length ≤ 19) (hp : b.getData = some p) (hapart : b.Apart b.buflen.toNat)

include hnarrow hplain hlen hp hapart

theorem char_looksLike (h : text.length + 1 ≤ b.buflen) :
    b.LooksLike 1 (b.putTmToCharBuffer P text text.length) (b.putStrToCharBuffer P text) := by
  have hsize := sizeT_of_nonneg (b := b) (by omega)
  have htake : text.take (b.buflen.toNat - 1) = text := List.take_of_length_le (by omega)
  have hx := putTmToCharBuffer_eq (P := P) hp text text.length
  have hy := putStrToCharBuffer_plain hnarrow hplain hp (by omega)
  simp only [htake, int32Cast_of_lt (show text.length < 2 ^ 31 by omega)] at hy
  have hstrftime : P.strftime text (sizeT b.buflen) = textBytes 1 text := by
    rw [Platform.strftime, if_pos (by omega), textBytes, charsBytes, flatMap_leBytes_one]
    rfl
  have hstored : b.stored (b.putTmToCharBuffer P text text.length) = b.stored (b.putStrToCharBuffer P text) := by
    funext m
    rw [stored_textStores hp hapart (congrArg Eff.log hy) (by omega) m,
      stored_eq (b.putTmToCharBuffer P text text.length) m (congrArg Eff.log hx), hstrftime, List.filterMap_cons,
      resolve_data_some hp, Nat.cast_zero, Int.add_zero]
    rfl
  have hvalue : (b.putTmToCharBuffer P text text.length).value = (b.putStrToCharBuffer P text).value := by
    rw [hx, hy, if_pos (by omega), tmResult, if_neg (by omega)]
  intro m
  rw [see, see, hstored, hvalue]

/-- `strftime` may leave the array as it is. -/
theorem char_unlike (hover : ∀ n, P.strftimeOverflow text n = []) (h : 1 ≤ b.buflen ∧ b.buflen ≤ text.length) :
    ¬ b.LooksLike 1 (b.putTmToCharBuffer P text text.length) (b.putStrToCharBuffer P text) := by
  intro hlooks
  have hsize := sizeT_of_nonneg (b := b) (by omega)
  -- memory full of ones has no terminator
  have htext := congrArg Seen.text (hlooks fun _ => 1)
  have hx := putTmToCharBuffer_eq (P := P) hp text text.length
  have hstrftime : P.strftime text (sizeT b.buflen) = [] := by
    rw [Platform.strftime, if_neg (by omega), hover, List.take_nil]
  have hxstored : b.stored (b.putTmToCharBuffer P text text.length) (fun _ => 1) =
      Memory.writes (fun _ => 1) ((b.storeLen text.length).log.filterMap b.resolve) := by
    rw [stored_eq _ _ (congrArg Eff.log hx), hstrftime, List.filterMap_cons, resolve_data_some hp]
    exact Memory.write_nil _ _
  have hones : readText (b.stored (b.putTmToCharBuffer P text text.length) fun _ => 1) 1 (b.buflen.toNat / 1) p =
      (List.replicate (b.buflen.toNat / 1) 1).map UInt8.toNat := by
    rw [hxstored, Nat.div_one]
    refine readText_of_read (fun c hc => ?_) ?_ (fun hlt => ?_) (by simp)
    · simp at hc
      omega
    · rw [flatMap_leBytes_one, Memory.read_writes_of_disjoint]
      · simp [Memory.read]
      · intro w' hw'
        have := storeLen_apart hp hapart _ hw'
        rw [List.length_map, List.length_replicate, Nat.one_mul]
        exact this
    · simp at hlt
  have hy := putStrToCharBuffer_plain hnarrow hplain hp h.1
  have hytext := see_text hp (by decide) (fun c hc => hplain c (List.mem_of_mem_take hc))
    (stored_textStores hp hapart (congrArg Eff.log hy) (by rw [List.length_take]; omega) fun _ => 1)
  rw [hytext, see, hp, Option.map_some, hones, Option.some.injEq] at htext
  have hlengths := congrArg List.length htext
  simp at hlengths
  omega

/-- Whatever `strftime` leaves in an array that is too short. -/
theorem char_looksLike_iff (h0 : 0 ≤ b.buflen) :
    (∀ overflow : Str → Nat → Str, b.LooksLike 1 (b.putTmToCharBuffer { P with strftimeOverflow := overflow } text text.length)
      (b.putStrToCharBuffer { P with strftimeOverflow := overflow } text)) ↔ TextFits b 1 text.length := by
  have hbuf := isSome_buffer hp
  have hrange := b.buflen_range
  have hsize := sizeT_of_nonneg h0
  rcases Int.lt_or_eq_of_le h0 with hpos | hempty
  · have hfits : TextFits b 1 text.length ↔ text.length + 1 ≤ b.buflen := by
      rw [TextFits, if_pos hbuf]
      omega
    rw [hfits]
    constructor
    · intro hlooks
      by_contra hno
      exact char_unlike (P := { P with strftimeOverflow := fun _ _ => [] }) hnarrow hplain hlen hp hapart (fun _ => rfl)
        (by omega) (hlooks _)
    · exact fun h overflow => char_looksLike (P := { P with strftimeOverflow := overflow }) hnarrow hplain hlen hp hapart h
  · refine (forall_congr' fun overflow => ?_).trans (forall_const _)
    have hy : b.putStrToCharBuffer { P with strftimeOverflow := overflow } text = pure .varlenDataTruncated := by
      rw [putStrToCharBuffer, if_neg (by simp [Option.isSome_iff_ne_none.mp hbuf]), if_pos (by omega)]
    have hx := putTmToCharBuffer_eq (P := { P with strftimeOverflow := overflow }) hp text text.length
    rw [hy]
    refine empty_looksLike_iff hp hempty.symm hlen (by decide) (fun m => ?_) (congrArg Eff.value hx)
    rw [stored_eq _ m (congrArg Eff.log hx), Platform.strftime, if_neg (by omega), hsize, ← hempty, Int.toNat_zero,
      List.take_zero, List.filterMap_cons, resolve_data_some hp]
    exact Memory.write_nil _ _

end

/-! ## Wide characters -/

/-- The local string has the text, or what an array that is too short holds of
it. -/
theorem cStr_strftime_take (hover : ∀ n, P.strftimeOverflow text n = text) (hplain : ∀ c ∈ text, isPlainChar c = true)
    (n : Nat) : cStr (P.strftime text n) = text.take n := by
  by_cases h : text.length + 1 ≤ n
  · rw [cStr_strftime hplain h, List.take_of_length_le (by omega)]
  · rw [Platform.strftime, if_neg h, hover, cStr_plain fun c hc => hplain c (List.mem_of_mem_take hc)]

theorem length_lt_wide (P : Platform) (len : Nat) : P.wcharBytes + len ≤ P.wcharBytes * (len + 1) := by
  rcases P.wcharBytes_range with hw | hw <;> rw [hw] <;> omega

/-- The characters there is room for, beside the terminator. -/
theorem chars_le {w len n : Nat} (hw : 0 < w) (h : w * (len + 1) ≤ n) : len ≤ n / w - 1 := by
  have := (Nat.le_div_iff_mul_le hw).mpr (Nat.mul_comm w _ ▸ h)
  omega

section

variable (hplain : ∀ c ∈ text, isPlainChar c = true) (hlen : 0 < text.length ∧ text.length ≤ 19)
  (hp : b.getData = some p) {tmp : Int} (htmp : tmp = text.length + 1 ∨ tmp = b.buflen)

include hplain hlen hp htmp

/-- What is put where the text has room in the local string. -/
theorem putTmToWcharBuffer_room (h : text.length + 1 ≤ b.buflen) :
    b.putTmToWcharBuffer P text text.length tmp =
      ⟨(b.storeLen text.length).log ++ (if b.copyLength P.wcharBytes = 0 then []
          else textStores P.wcharBytes (text.take (b.copyLength P.wcharBytes / P.wcharBytes - 1))), .ok .success⟩ := by
  have hsize := sizeT_of_nonneg (b := b) (by omega)
  have hroom : text.length + 1 ≤ sizeT tmp := by
    rcases htmp with htmp | htmp
    · rw [htmp, sizeT, Int.emod_eq_of_lt (by omega) (by omega)]
      omega
    · rw [htmp, hsize]
      omega
  have hresult : b.tmResult text.length = .success := if_neg (by omega)
  rw [putTmToWcharBuffer_eq hp (by omega) (cStr_strftime hplain hroom) hplain, hresult]

theorem wide_looksLike (h : (P.wcharBytes * (text.length + 1) : Nat) ≤ b.buflen)
    (hcopy : P.wcharBytes * (text.length + 1) ≤ b.copyLength P.wcharBytes) (hreslen : ¬ b.reslen.isSome) :
    b.putTmToWcharBuffer P text text.length tmp = b.putStrToWcharBuffer P text := by
  have hw := P.wcharBytes_range
  have hwide := length_lt_wide P text.length
  have hchars := chars_le (by omega) hcopy
  have hroom : P.wcharBytes * (text.length + 1) ≤ b.buflen.toNat := by omega
  have hunits := chars_le (by omega) hroom
  rw [putTmToWcharBuffer_room hplain hlen hp htmp (by omega), if_neg (by omega), List.take_of_length_le hchars,
    putStrToWcharBuffer_plain hplain hp (by omega), List.take_of_length_le hunits, if_pos hunits,
    log_storeLen_none hreslen, log_storeLen_none hreslen, List.append_nil, List.nil_append]

/-- With an indicator the length in characters is seen for that in bytes. -/
theorem wide_unlike_indicator (hapart : b.Apart b.buflen.toNat) (h : (P.wcharBytes * (text.length + 1) : Nat) ≤ b.buflen)
    (hcopy : P.wcharBytes * (text.length + 1) ≤ b.copyLength P.wcharBytes) (hreslen : b.reslen.isSome) :
    ¬ b.LooksLike P.wcharBytes (b.putTmToWcharBuffer P text text.length tmp) (b.putStrToWcharBuffer P text) := by
  intro hlooks
  have hw := P.wcharBytes_range
  have hwide := length_lt_wide P text.length
  have hchars := chars_le (by omega) hcopy
  have hroom : P.wcharBytes * (text.length + 1) ≤ b.buflen.toNat := by omega
  have hunits := chars_le (by omega) hroom
  obtain ⟨r, hr⟩ := getResLen_of_isSome hreslen
  have hx := putTmToWcharBuffer_room (P := P) hplain hlen hp htmp (by omega)
  rw [if_neg (by omega), List.take_of_length_le hchars] at hx
  have hy := putStrToWcharBuffer_plain hplain hp (P := P) (by omega)
  rw [List.take_of_length_le hunits] at hy
  have hindicator := congrArg Seen.indicator (hlooks fun _ => 0)
  simp only [see, hr, Option.map_some, Option.some.injEq] at hindicator
  rw [stored_len_text hp (congrArg Eff.log hx), stored_textStores hp hapart (congrArg Eff.log hy) hroom,
    read_len_text hp hr hapart hroom, read_len_text hp hr hapart hroom,
    int32Cast_of_lt (by rcases hw with hw | hw <;> rw [hw] <;> omega)] at hindicator
  have heq := leBytes_injective (fits_eight.mpr (by omega))
    (fits_eight.mpr (by rcases hw with hw | hw <;> rw [hw] <;> omega)) hindicator
  rcases hw with hw | hw <;> rw [hw] at heq <;> omega

/-- The length in characters is enough and the one in bytes is not. -/
theorem wide_unlike_result (h : text.length + 1 ≤ b.buflen) (hshort : b.buflen < (P.wcharBytes * (text.length + 1) : Nat))
    (hw : P.wcharBytes ≤ b.buflen) :
    ¬ b.LooksLike P.wcharBytes (b.putTmToWcharBuffer P text text.length tmp) (b.putStrToWcharBuffer P text) := by
  intro hlooks
  have hresult := congrArg Seen.result (hlooks fun _ => 0)
  have hdiv : b.buflen.toNat / P.wcharBytes < text.length + 1 :=
    (Nat.div_lt_iff_lt_mul (by have := P.wcharBytes_range; omega)).mpr (by rw [Nat.mul_comm]; omega)
  rw [see, see, putTmToWcharBuffer_room hplain hlen hp htmp h, putStrToWcharBuffer_plain hplain hp hw] at hresult
  dsimp only at hresult
  rw [if_neg (by omega)] at hresult
  cases hresult

/-- The count of bytes wraps around, and the text is cut. -/
theorem wide_unlike_wrapped (hapart : b.Apart b.buflen.toNat) (h : (P.wcharBytes * (text.length + 1) : Nat) ≤ b.buflen)
    (hcopy : b.copyLength P.wcharBytes < P.wcharBytes * (text.length + 1)) :
    ¬ b.LooksLike P.wcharBytes (b.putTmToWcharBuffer P text text.length tmp) (b.putStrToWcharBuffer P text) := by
  intro hlooks
  have hw := P.wcharBytes_range
  have hwide := length_lt_wide P text.length
  have hroom : P.wcharBytes * (text.length + 1) ≤ b.buflen.toNat := by omega
  have hunits := chars_le (by omega) hroom
  have htext := congrArg Seen.text (hlooks fun _ => 0)
  have hx := putTmToWcharBuffer_room (P := P) hplain hlen hp htmp (by omega)
  have hy := putStrToWcharBuffer_plain hplain hp (P := P) (by omega)
  rw [List.take_of_length_le hunits] at hy
  rw [see_text hp (by omega) hplain (stored_textStores hp hapart (congrArg Eff.log hy) hroom _),
    List.take_of_length_le (by omega)] at htext
  rcases copyLength_cases P b with hzero | ⟨hne, -⟩
  · -- nothing is stored where there was no text
    rw [if_pos hzero, List.append_nil] at hx
    have hempty : readText (b.stored (b.putTmToWcharBuffer P text text.length tmp) fun _ => 0) P.wcharBytes
        (b.buflen.toNat / P.wcharBytes) p = [] := by
      rw [hx, stored]
      refine readText_of_read (by simp) (by simp [Memory.read]) (fun _ => ?_) (Nat.zero_le _)
      rw [List.length_nil, Nat.mul_zero, Nat.cast_zero, Int.add_zero, Memory.read_writes_of_disjoint]
      · rcases hw with hw | hw <;> rw [hw] <;> rfl
      · intro w' hw'
        have := storeLen_apart hp hapart _ hw'
        omega
    rw [see, hp, Option.map_some, hempty, Option.some.injEq] at htext
    have hlength := congrArg List.length htext
    simp at hlength
    omega
  · rw [if_neg (by omega)] at hx
    rw [see_text hp (by omega) (fun c hc => hplain c (List.mem_of_mem_take hc)) (stored_len_text hp (congrArg Eff.log hx) _),
      Option.some.injEq] at htext
    have hcut : b.copyLength P.wcharBytes / P.wcharBytes < text.length + 1 :=
      (Nat.div_lt_iff_lt_mul (by omega)).mpr (by rw [Nat.mul_comm]; omega)
    have hlength := congrArg List.length htext
    simp at hlength
    omega

/-- `strftime` may leave as much of the text as there is room for; what is
copied of it leaves no terminator in the buffer. -/
theorem wide_unlike_text (hapart : b.Apart b.buflen.toNat) (hover : ∀ n, P.strftimeOverflow text n = text) (h : b.buflen ≤ text.length)
    (hw : P.wcharBytes ≤ b.buflen) :
    ¬ b.LooksLike P.wcharBytes (b.putTmToWcharBuffer P text text.length tmp) (b.putStrToWcharBuffer P text) := by
  intro hlooks
  have hwide := P.wcharBytes_range
  have hsize := sizeT_of_nonneg (b := b) (by omega)
  have htext := congrArg Seen.text (hlooks fun _ => 0)
  have hcopy : b.copyLength P.wcharBytes = b.buflen.toNat * P.wcharBytes := by
    rw [copyLength, hsize, Nat.mod_eq_of_lt]
    rcases hwide with hwide | hwide <;> rw [hwide] <;> omega
  have hchars : b.copyLength P.wcharBytes / P.wcharBytes - 1 = b.buflen.toNat - 1 := by
    rw [hcopy, Nat.mul_div_cancel _ (by omega)]
  have hne : b.copyLength P.wcharBytes ≠ 0 := by
    rw [hcopy]
    exact (Nat.mul_pos (by omega) (by omega)).ne'
  have htake : (text.take (sizeT tmp)).take (b.buflen.toNat - 1) = text.take (b.buflen.toNat - 1) := by
    rw [List.take_take]
    congr 1
    rcases htmp with htmp | htmp
    · rw [htmp, sizeT, Int.emod_eq_of_lt (by omega) (by omega)]
      omega
    · rw [htmp, hsize]
      omega
  have hx := putTmToWcharBuffer_eq (P := P) hp (show 0 ≤ tmp by omega) (cStr_strftime_take hover hplain _)
    (fun c hc => hplain c (List.mem_of_mem_take hc)) text.length
  rw [if_neg hne, hchars, htake] at hx
  have hunits : b.buflen.toNat / P.wcharBytes ≤ b.buflen.toNat - 1 := by
    rcases hwide with hwide | hwide <;> rw [hwide] at hw ⊢ <;> omega
  have hpos : 1 ≤ b.buflen.toNat / P.wcharBytes := (Nat.one_le_div_iff (by omega)).mpr (by omega)
  have hroom : P.wcharBytes * ((text.take (b.buflen.toNat / P.wcharBytes - 1)).length + 1) ≤ b.buflen.toNat := by
    have hle := Nat.mul_div_le b.buflen.toNat P.wcharBytes
    refine (Nat.mul_le_mul_left _ ?_).trans hle
    rw [List.length_take]
    omega
  have hy := putStrToWcharBuffer_plain hplain hp hw
  rw [see_text hp (by omega) (fun c hc => hplain c (List.mem_of_mem_take hc)) (stored_len_text hp (congrArg Eff.log hx) _),
    see_text hp (by omega) (fun c hc => hplain c (List.mem_of_mem_take hc))
      (stored_textStores hp hapart (congrArg Eff.log hy) hroom _), Option.some.injEq] at htext
  have hlength := congrArg List.length htext
  simp at hlength
  omega

omit hplain hlen htmp in
theorem wide_fits_iff (hchar : P.wcharBytes ≤ b.buflen) :
    TextFits b P.wcharBytes text.length ↔ (P.wcharBytes * (text.length + 1) : Nat) ≤ b.buflen ∧
      P.wcharBytes * (text.length + 1) ≤ b.copyLength P.wcharBytes ∧ ¬ b.reslen.isSome := by
  have hw := P.wcharBytes_range
  rw [TextFits, if_pos (isSome_buffer hp), copyLength, sizeT_of_nonneg (by omega)]
  constructor
  · rintro (⟨h, -⟩ | ⟨h, hcopy, hone | hreslen⟩)
    · omega
    · omega
    · exact ⟨h, hcopy, hreslen⟩
  · exact fun ⟨h, hcopy, hreslen⟩ => .inr ⟨h, hcopy, .inr hreslen⟩

theorem fits_of_wide_looksLike (hapart : b.Apart b.buflen.toNat) (hover : ∀ n, P.strftimeOverflow text n = text) (hchar : P.wcharBytes ≤ b.buflen)
    (hlooks : b.LooksLike P.wcharBytes (b.putTmToWcharBuffer P text text.length tmp) (b.putStrToWcharBuffer P text)) :
    TextFits b P.wcharBytes text.length := by
  rw [wide_fits_iff hp hchar]
  by_contra hno
  by_cases hcut : b.buflen ≤ text.length
  · exact wide_unlike_text hplain hlen hp htmp hapart hover hcut hchar hlooks
  by_cases hshort : b.buflen < (P.wcharBytes * (text.length + 1) : Nat)
  · exact wide_unlike_result hplain hlen hp htmp (by omega) hshort hchar hlooks
  by_cases hcopy : b.copyLength P.wcharBytes < P.wcharBytes * (text.length + 1)
  · exact wide_unlike_wrapped hplain hlen hp htmp hapart (by omega) hcopy hlooks
  have hreslen : b.reslen.isSome := by
    by_contra hreslen
    exact hno ⟨by omega, by omega, hreslen⟩
  exact wide_unlike_indicator hplain hlen hp htmp hapart (by omega) (by omega) hreslen hlooks

theorem wide_empty_iff (hempty : b.buflen = 0) :
    b.LooksLike P.wcharBytes (b.putTmToWcharBuffer P text text.length tmp) (b.putStrToWcharBuffer P text) ↔
      TextFits b P.wcharBytes text.length := by
  have hw := P.wcharBytes_range
  have hsize := sizeT_of_nonneg (b := b) (by omega)
  have hbuf := isSome_buffer hp
  have hy : b.putStrToWcharBuffer P text = pure .varlenDataTruncated := by
    rw [putStrToWcharBuffer, if_neg (by simp [Option.isSome_iff_ne_none.mp hbuf]), if_pos (by omega)]
  have hzero : b.copyLength P.wcharBytes = 0 := by
    rw [copyLength, hsize, hempty, Int.toNat_zero, Nat.zero_mul, Nat.zero_mod]
  have hlocal : ∀ c ∈ cStr (P.strftime text (sizeT tmp)), isPlainChar c = true := by
    rcases htmp with htmp | htmp
    · rwa [cStr_strftime hplain]
      rw [htmp, sizeT, Int.emod_eq_of_lt (by omega) (by omega)]
      omega
    · rw [htmp, hsize, hempty, Int.toNat_zero, Platform.strftime, if_neg (by omega), List.take_zero]
      simp [cStr]
  have hx := putTmToWcharBuffer_eq (P := P) hp (show 0 ≤ tmp by omega) rfl hlocal text.length
  rw [if_pos hzero, List.append_nil] at hx
  rw [hy]
  exact empty_looksLike_iff hp hempty hlen (by omega) (fun m => by rw [hx]; rfl) (by rw [hx])

/-- Whatever `strftime` leaves in a local string that is too short. -/
theorem wide_looksLike_iff (hapart : b.Apart b.buflen.toNat) (h0 : 0 ≤ b.buflen) (hdvd : (P.wcharBytes : Int) ∣ b.buflen) :
    (∀ overflow : Str → Nat → Str, b.LooksLike P.wcharBytes
      (b.putTmToWcharBuffer { P with strftimeOverflow := overflow } text text.length tmp)
      (b.putStrToWcharBuffer { P with strftimeOverflow := overflow } text)) ↔ TextFits b P.wcharBytes text.length := by
  rcases Int.lt_or_eq_of_le h0 with hpos | hempty
  · have hchar : (P.wcharBytes : Int) ≤ b.buflen := Int.le_of_dvd hpos hdvd
    constructor
    · intro hlooks
      exact fits_of_wide_looksLike (P := { P with strftimeOverflow := fun t _ => t }) hplain hlen hp htmp hapart (fun _ => rfl)
        hchar (hlooks _)
    · intro hfits overflow m
      obtain ⟨h, hcopy, hreslen⟩ := (wide_fits_iff hp hchar).mp hfits
      rw [wide_looksLike (P := { P with strftimeOverflow := overflow }) hplain hlen hp htmp h hcopy hreslen]
  · refine (forall_congr' fun overflow => ?_).trans (forall_const _)
    exact wide_empty_iff (P := { P with strftimeOverflow := overflow }) hplain hlen hp htmp hempty.symm

end

/-! ## The three operations -/

/-- The operations put the text as the helpers do. -/
theorem put_tmText {call : PutCall} (h : call.tmText P = some text) :
    (∀ c ∈ text, isPlainChar c = true) ∧ (0 < text.length ∧ text.length ≤ 19) ∧
      ∃ tmp : Int, (tmp = text.length + 1 ∨ tmp = b.buflen) ∧ ∀ overflow : Str → Nat → Str,
        b.put { P with strftimeOverflow := overflow } call =
          match b.type with
          | .char => b.putTmToCharBuffer { P with strftimeOverflow := overflow } text text.length
          | .wchar => b.putTmToWcharBuffer { P with strftimeOverflow := overflow } text text.length tmp
          | _ => b.put { P with strftimeOverflow := overflow } call := by
  cases call with
  | date ms =>
    cases ms with
    | none => cases h
    | some ms =>
      obtain ⟨t, ht, rfl⟩ := Option.map_eq_some_iff.mp h
      have hten := t.length_dateText
      refine ⟨t.isPlainChar_dateText, by omega, 11, .inl (by rw [hten]; rfl), fun overflow => ?_⟩
      unfold put putDate
      simp only [Option.elim_some, ht, hten]
      cases b.type <;> rfl
  | timestamp v =>
    cases v with
    | none => cases h
    | some v =>
      obtain ⟨t, ht, rfl⟩ := Option.map_eq_some_iff.mp h
      have hlen := t.length_timestampText
      refine ⟨t.isPlainChar_timestampText, by omega, b.buflen, .inr rfl, fun overflow => ?_⟩
      unfold put putTimestamp
      simp only [Option.elim_some, ht, hlen]
      cases b.type <;> rfl
  | time ms =>
    cases ms with
    | none => cases h
    | some ms =>
      obtain ⟨t, ht, rfl⟩ := Option.map_eq_some_iff.mp h
      have hlen := t.length_timeText
      refine ⟨t.isPlainChar_timeText, by omega, b.buflen, .inr rfl, fun overflow => ?_⟩
      unfold put putTime
      simp only [Option.elim_some, ht, hlen]
      cases b.type <;> rfl
  | _ => cases h

/-- **Dates and times as text.** The three operations leave what `PutString`
leaves for their text if and only if the text fits by all of their measures. -/
theorem put_text_agrees_iff (hnarrow : NarrowsAscii P) (htype : b.type = .char ∨ b.type = .wchar) (h0 : 0 ≤ b.buflen)
    (hdvd : (b.charBytes P : Int) ∣ b.buflen) (hapart : b.Apart b.buflen.toNat) {call : PutCall}
    (htext : call.tmText P = some text) :
    TextAgrees P b call text ↔ TextFits b (b.charBytes P) text.length := by
  obtain ⟨hplain, hlen, tmp, htmp, hput⟩ := put_tmText (b := b) htext
  unfold TextAgrees
  cases hp : b.getData with
  | none =>
    have hnull := getData_eq_none hp
    have hbuf : b.buffer.isNone := by simpa using hnull
    refine (forall_congr' fun overflow => ?_).trans (forall_const _)
    have hy : b.put { P with strftimeOverflow := overflow } (.string (some text)) = pure .success := by
      show b.putString _ text = _
      rcases htype with htype | htype
      · rw [putString, htype]
        exact if_pos hbuf
      · rw [putString, htype]
        exact if_pos hbuf
    have hx : b.put { P with strftimeOverflow := overflow } call =
        ⟨(b.storeLen text.length).log, .ok (b.tmResult text.length)⟩ := by
      rcases htype with htype | htype <;> rw [hput, htype] <;> exact storeLen_ifData_null hp _ _ _
    rw [hy]
    exact null_looksLike_iff hp hlen hx
  | some p =>
    rcases htype with htype | htype
    · have hw : b.charBytes P = 1 := by rw [charBytes, htype]
      rw [hw, ← char_looksLike_iff hnarrow hplain hlen hp hapart h0]
      refine forall_congr' fun overflow => ?_
      have hy : b.put { P with strftimeOverflow := overflow } (.string (some text)) =
          b.putStrToCharBuffer { P with strftimeOverflow := overflow } text := by
        show b.putString _ text = _
        rw [putString, htype]
      rw [hput, hy, htype]
    · have hw : b.charBytes P = P.wcharBytes := by rw [charBytes, htype]
      rw [hw] at hdvd ⊢
      rw [← wide_looksLike_iff hplain hlen hp htmp hapart h0 hdvd]
      refine forall_congr' fun overflow => ?_
      have hy : b.put { P with strftimeOverflow := overflow } (.string (some text)) =
          b.putStrToWcharBuffer { P with strftimeOverflow := overflow } text := by
        show b.putString _ text = _
        rw [putString, htype]
      rw [hput, hy, htype]

/-- A timestamp in twenty narrow characters. -/
theorem put_text_agrees_runs :
    let b : ApplicationDataBuffer := ⟨.char, some 100, 20, some 200, 0, 0, by decide⟩
    TextAgrees .unixOdbc b (.timestamp (some ⟨951782400, 0⟩)) (ascii "2000-02-29 00:00:00") ↔ TextFits b 1 19 := by
  intro b
  have hnarrow : NarrowsAscii .unixOdbc := fun c hc => if_pos hc
  have hapart : b.Apart b.buflen.toNat := by
    rintro p ⟨⟩ r ⟨⟩
    decide
  exact put_text_agrees_iff hnarrow (.inl rfl) (by decide) (by decide) hapart (by decide +kernel)

/-- A date in wide characters, with room for all of it: the indicator is 10,
where that of a string is 20. -/
theorem put_text_disagrees :
    let b : ApplicationDataBuffer := ⟨.wchar, some 100, 40, some 200, 0, 0, by decide⟩
    ¬ TextAgrees .unixOdbc b (.date (some 951782400000)) (ascii "2000-02-29") := by
  intro b h
  have hindicator := congrArg Seen.indicator (h (fun _ _ => []) fun _ => 0)
  exact absurd hindicator (by decide +kernel)

end ApplicationDataBuffer

end DocumentDbOdbc
