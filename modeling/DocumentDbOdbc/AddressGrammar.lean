/-
The grammar of an address, with the range of ports it names.

`ParseSingleAddress` accepts the addresses of the grammar and no other text
(`parseSingleAddress_grammar`). The last port is at most 65535, so neither the
conversions to `uint16_t` nor the difference of the two ports lose anything.
-/
import DocumentDbOdbc.HostnameAttribute

namespace DocumentDbOdbc

/-- A port, or two of them with `..` between: the first port and how many come after it. -/
inductive PortSpan : Str → Nat → Nat → Prop
  | single {text n} (h : PortText text n) : PortSpan text n 0
  | range {first last n m} (hf : PortText first n) (hl : PortText last m) (hle : n ≤ m) :
    PortSpan (first ++ 46 :: 46 :: last) n (m - n)

/-- An address with its host, its first port and how many ports come after it. -/
inductive AddressSyntax : Str → Str → Nat → Nat → Prop
  | host {host} (hh : 58 ∉ host) : AddressSyntax host host 27017 0
  | port {host text n range} (hh : 58 ∉ host) (hp : PortSpan text n range) :
    AddressSyntax (host ++ 58 :: text) host n range

theorem PortSpan.portRange {text : Str} {n range : Nat} (h : PortSpan text n range) : PortRange text n := by
  cases h with
  | single h => exact .single h
  | range hf hl hle => exact .range hf hl hle

theorem PortRange.exists_portSpan {text : Str} {n : Nat} (h : PortRange text n) : ∃ range, PortSpan text n range := by
  cases h with
  | single h => exact ⟨0, .single h⟩
  | range hf hl hle => exact ⟨_, .range hf hl hle⟩

theorem AddressSyntax.address {text host : Str} {n range : Nat} (h : AddressSyntax text host n range) :
    Address text host n := by
  cases h with
  | host hh => exact .host hh
  | port hh hp => exact .port hh hp.portRange

theorem Address.exists_syntax {text host : Str} {n : Nat} (h : Address text host n) :
    ∃ range, AddressSyntax text host n range := by
  cases h with
  | host hh => exact ⟨0, .host hh⟩
  | port hh hp =>
    obtain ⟨range, hspan⟩ := hp.exists_portSpan
    exact ⟨range, .port hh hspan⟩

theorem PortSpan.bounds {text : Str} {n range : Nat} (h : PortSpan text n range) : 1 ≤ n ∧ n + range ≤ uint16Max := by
  cases h with
  | single h => exact ⟨h.pos, h.le⟩
  | range hf hl hle =>
    have hpos := hf.pos
    have hmax := hl.le
    omega

theorem AddressSyntax.bounds {text host : Str} {n range : Nat} (h : AddressSyntax text host n range) :
    1 ≤ n ∧ n + range ≤ uint16Max := by
  cases h with
  | host => decide
  | port _ hp => exact hp.bounds

theorem parsePortRange_of_portSpan {text : Str} {n range : Nat} (h : PortSpan text n range) (endPoint : EndPoint) :
    parsePortRange text endPoint =
      (true, { endPoint with port := UInt16.ofNat n, range := UInt16.ofNat range }, []) := by
  cases h with
  | single h => exact parsePortRange_single endPoint h
  | range hf hl hle => exact parsePortRange_range endPoint hf hl hle

variable {H : Host}

theorem parseSingleAddress_eq {text host : Str} {n range : Nat} (h : AddressSyntax text host n range) :
    parseSingleAddress H text {} = (true, ⟨host, UInt16.ofNat n, UInt16.ofNat range⟩, []) := by
  cases h with
  | host hh =>
    have hcount : text.count 58 = 0 := List.count_eq_zero.mpr hh
    rw [parseSingleAddress, hcount, if_pos rfl]
    rfl
  | @port host text n range hh hp =>
    rw [parseSingleAddress_colon {} hh hp.portRange.not_mem, if_neg hp.portRange.ne_nil, parsePortRange_of_portSpan hp]

/-- **The grammar**: the texts that are accepted, and the end point made of them. -/
theorem parseSingleAddress_grammar (text : Str) :
    ((parseSingleAddress H text {}).1 = true ↔ ∃ host n range, AddressSyntax text host n range) ∧
      ∀ host n range, AddressSyntax text host n range →
        (parseSingleAddress H text {}).2.1.host = host ∧ (parseSingleAddress H text {}).2.1.port.toNat = n ∧
          (parseSingleAddress H text {}).2.1.range.toNat = range ∧ n + range ≤ uint16Max := by
  refine ⟨⟨fun hsuccess => ?_, ?_⟩, ?_⟩
  · by_contra hno
    have hnot : ∀ host n, ¬ Address text host n := fun host n h => by
      obtain ⟨range, hsyntax⟩ := h.exists_syntax
      exact hno ⟨host, n, range, hsyntax⟩
    have hfailure := parseSingleAddress_of_not (H := H) hnot
    rw [hfailure.1] at hsuccess
    cases hsuccess
  · rintro ⟨host, n, range, h⟩
    rw [parseSingleAddress_eq h]
  · intro host n range h
    have hbounds := h.bounds
    rw [parseSingleAddress_eq h]
    exact ⟨rfl, toNat_port (by omega), toNat_port (by omega), hbounds.2⟩

theorem parseSingleAddress_grammar_range :
    (parseSingleAddress .diskless (ascii "db: 1000 ..1010") {}).2.1.range.toNat = 10 := by
  have hhost : 58 ∉ ascii "db" := by decide
  have hfirst : PortText (ascii " 1000 ") 1000 := ⟨by decide, by decide, by decide, by decide, by decide⟩
  have hlast : PortText (ascii "1010") 1010 := ⟨by decide, by decide, by decide, by decide, by decide⟩
  have hsyntax := AddressSyntax.port hhost (.range hfirst hlast (by omega))
  exact ((parseSingleAddress_grammar _).2 _ _ _ hsyntax).2.2.1

end DocumentDbOdbc
