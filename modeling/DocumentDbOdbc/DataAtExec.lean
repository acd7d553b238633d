/-
Data at execution: what `PutData` leaves of the chunks it is called for.

For characters of one byte and for bytes the chunks are put one behind another,
and the parameter is ready when the announced number is there. Wide characters
take the branch of the types of a fixed size, where each call stores anew, and
the mark of a null is read by nobody (`dataAtExec_chunks`).
-/
import DocumentDbOdbc.ParameterRow

namespace DocumentDbOdbc

open ApplicationDataBuffer Outcome

namespace App.Parameter

/-- A chunk, in the memory of the application when `PutData` is called. -/
structure Chunk where
  memory : Memory.Mem
  address : Int
  bytes : List UInt8
  held : Memory.read memory address bytes.length = bytes

/-- The text of a list of chunks. -/
def concat (chunks : List Chunk) : List UInt8 := chunks.flatMap (·.bytes)

/-- Calls of `PutData`, each with the length of its chunk. -/
def putChunks (p : Parameter) : List Chunk → Except Fault Parameter
  | [] => .ok p
  | c :: rest => do
    let p ← p.putData c.memory (some c.address) c.bytes.length
    p.putChunks rest

/-- `SQL_LEN_DATA_AT_EXEC(length)`. -/
def lenDataAtExec (length : Nat) : Int := -(length : Int) - 100

/-- The length of the parameter is `SQL_LEN_DATA_AT_EXEC(n)`. -/
structure Awaits (p : Parameter) (m : Memory.Mem) (n : Nat) : Prop where
  type : p.buffer.type = .char ∨ p.buffer.type = .wchar ∨ p.buffer.type = .binary
  indicator : p.buffer.indicator m = some (lenDataAtExec n)

/-- However the data is cut, it is put together, the parameter is ready when all
of it is there, and a null is ready and is written. -/
def PutTogether (L : InputLib) (p : Parameter) (m : Memory.Mem) (n : Nat) : Prop :=
  ∀ chunks, ∃ q, p.putChunks chunks = .ok q ∧ q.storedData = p.storedData ++ concat chunks ∧
    (q.isDataReady m ↔ q.storedData.length = n) ∧
    ∀ data, ∃ r, q.putData m data (-1) = .ok r ∧ r.isDataReady m ∧ ∀ offset idx, r.write L m offset idx = .ok [.null]

variable {L : InputLib} {p : Parameter} {m : Memory.Mem} {n : Nat}

/-! ## Sizes -/

theorem int32_dataAtExec (hn : n + 100 < 2147483648) :
    Int32.ofInt (lenDataAtExec n) ≤ -100 ∧ (-Int32.ofInt (lenDataAtExec n) + -100).toInt = n := by
  unfold lenDataAtExec
  constructor
  · rw [Int32.le_iff_toInt_le, Int32.toInt_ofInt_of_le (by omega) (by omega), show (-100 : Int32).toInt = -100 from rfl]
    omega
  · rw [← Int32.ofInt_neg, show (-100 : Int32) = Int32.ofInt (-100) from rfl, ← Int32.ofInt_add,
      show -(-(n : Int) - 100) + -100 = n by omega]
    exact Int32.toInt_ofInt_of_le (by omega) (by omega)

theorem isDataAtExec_of_awaits (hind : p.buffer.indicator m = some (lenDataAtExec n)) (hn : n + 100 < 2147483648) :
    p.buffer.isDataAtExec m = true := by
  rw [isDataAtExec, hind]
  simpa using .inl (int32_dataAtExec hn).1

theorem getDataAtExecSize_of_awaits (hind : p.buffer.indicator m = some (lenDataAtExec n)) (hn : n + 100 < 2147483648)
    (htype : p.buffer.type = .char ∨ p.buffer.type = .binary) : p.buffer.getDataAtExecSize m = n := by
  obtain ⟨hle, hsize⟩ := int32_dataAtExec hn
  unfold getDataAtExecSize
  obtain htype | htype := htype
  · simp only [htype, hind, hle, if_true, hsize, reduceCtorEq, if_false]
  · simp only [htype, hind, hle, if_true, hsize, reduceCtorEq, if_false]

/-- The unit of a wide character is two bytes. -/
theorem getDataAtExecSize_wchar (hind : p.buffer.indicator m = some (lenDataAtExec n)) (hn : n < 1073741824)
    (htype : p.buffer.type = .wchar) : p.buffer.getDataAtExecSize m = 2 * n := by
  obtain ⟨hle, hsize⟩ := int32_dataAtExec (n := n) (by omega)
  unfold getDataAtExecSize
  simp only [htype, hind, hle, if_true, Int32.toInt_mul, hsize]
  rw [show (2 : Int32).toInt = 2 from rfl, Int.bmod_eq_of_le (by omega) (by omega)]
  omega

/-! ## Chunks -/

/-- The data of a chunk is put behind what is there. -/
theorem putData_append (htype : p.buffer.type = .char ∨ p.buffer.type = .binary) (c : Chunk) :
    p.putData c.memory (some c.address) c.bytes.length = .ok { p with storedData := p.storedData ++ c.bytes } := by
  have hlen : (c.bytes.length : Int) ≠ -5 ∧ (c.bytes.length : Int) ≠ -1 ∧ (c.bytes.length : Int) ≠ -3 := by omega
  unfold putData
  rw [if_neg hlen.1, if_neg hlen.2.1, if_pos htype]
  simp only [hlen.2.2, and_false, if_false, copyFrom, Int.toNat_natCast, c.held, Except.map]
  split
  · next hle =>
    have hnil : c.bytes = [] := List.eq_nil_of_length_eq_zero (by omega)
    rw [hnil, List.append_nil]
  · rfl

theorem putChunks_append (htype : p.buffer.type = .char ∨ p.buffer.type = .binary) (chunks : List Chunk) :
    p.putChunks chunks = .ok { p with storedData := p.storedData ++ concat chunks } := by
  induction chunks generalizing p with
  | nil => simp [putChunks, concat]
  | cons c rest ih =>
    rw [putChunks, putData_append htype, Outcome.ok_bind]
    refine Eq.trans (ih ?_) ?_
    · exact htype
    · simp [concat]

/-- A call for a wide parameter takes the announced number of characters from where
the chunk begins, and nothing is left of those before. -/
theorem putData_replace (htype : p.buffer.type = .wchar) {c : Chunk}
    (hind : p.buffer.indicator c.memory = some (lenDataAtExec n))
    (hpos : 0 < n) (hn : n < 1073741824) :
    p.putData c.memory (some c.address) c.bytes.length =
      .ok { p with storedData := Memory.read c.memory c.address (2 * n) } := by
  have hlen : (c.bytes.length : Int) ≠ -5 ∧ (c.bytes.length : Int) ≠ -1 := by omega
  have hsize := getDataAtExecSize_wchar hind hn htype
  have hnat : (2 * (n : Int)).toNat = 2 * n := by omega
  unfold putData
  rw [if_neg hlen.1, if_neg hlen.2, if_neg (by simp [htype])]
  simp only [hsize]
  rw [if_neg (by omega), if_neg (by omega), copyFrom, hnat]
  rfl

theorem putChunks_replace (htype : p.buffer.type = .wchar) {chunks : List Chunk}
    (hind : ∀ c ∈ chunks, p.buffer.indicator c.memory = some (lenDataAtExec n)) (hpos : 0 < n) (hn : n < 1073741824) :
    p.putChunks chunks = .ok { p with
      storedData := (chunks.getLast?.map fun c => Memory.read c.memory c.address (2 * n)).getD p.storedData } := by
  induction chunks generalizing p with
  | nil => rfl
  | cons c rest ih =>
    rw [putChunks, putData_replace htype (hind c List.mem_cons_self) hpos hn, Outcome.ok_bind]
    refine Eq.trans (ih ?_ ?_) ?_
    · exact htype
    · exact fun x hx => hind x (List.mem_cons_of_mem c hx)
    · rw [List.getLast?_cons]
      cases rest.getLast? <;> rfl

/-- The buffer stays the one that was bound. -/
theorem putData_buffer (p : Parameter) (m : Memory.Mem) (data : Option Int) (len : Int) :
    Ends (fun _ => True) (p.putData m data len) fun q => q.buffer = p.buffer := by
  have hcopy : ∀ n, Ends (fun _ => True) (copyFrom m data n) fun _ => True := fun n => ends_true _
  unfold putData
  dsimp only
  refine .ite rfl (.ite rfl (.ite ?_ ?_))
  · exact .ite rfl ((hcopy _).map fun _ _ => rfl)
  · exact .ite trivial (.ite trivial ((hcopy _).map fun _ _ => rfl))

theorem putChunks_buffer (chunks : List Chunk) : Ends (fun _ => True) (p.putChunks chunks) fun q => q.buffer = p.buffer := by
  induction chunks generalizing p with
  | nil => exact rfl
  | cons c rest ih => exact (putData_buffer p ..).bind fun q hq => ih.mono fun r hr => hr.trans hq

/-! ## Nulls -/

theorem putData_null (p : Parameter) (m : Memory.Mem) (data : Option Int) :
    p.putData m data (-1) = .ok { p with nullData := true } := rfl

/-- No data that was stored is written as a null. -/
theorem write_ne_null (hexec : p.buffer.isDataAtExec m = true) (offset : Int) (idx : Nat) :
    p.write L m offset idx ≠ .ok [.null] := by
  have hnull : p.buffer.indicator m ≠ some (-1) := fun h => by
    rw [not_isDataAtExec_of_null h] at hexec
    cases hexec
  rw [write_dataAtExec hnull hexec]
  split
  · nofun
  · exact writeCase_ne_null (isSome_getData_storedBuffer ..)

/-- A null that is announced is not written, and where the announced number is
not one of data at execution no data is waited for. -/
theorem not_putTogether (L : InputLib) (p : Parameter) (m : Memory.Mem) (n : Nat) : ¬ PutTogether L p m n := by
  intro h
  by_cases hexec : p.buffer.isDataAtExec m = true
  · obtain ⟨q, hq, -, -, hnull⟩ := h []
    obtain rfl := Except.ok.inj hq
    obtain ⟨r, hr, -, hwrite⟩ := hnull none
    obtain rfl := Except.ok.inj ((putData_null p m none).symm.trans hr)
    exact write_ne_null (p := { p with nullData := true }) hexec 0 0 (hwrite 0 0)
  · -- with nothing to wait for, any number of bytes is ready
    have hready : ∀ q : Parameter, q.buffer = p.buffer → q.isDataReady m = true := fun q hq => by
      rw [isDataReady, hq, eq_false_of_ne_true hexec]
      rfl
    let c : Chunk := ⟨fun _ => 0, 0, [0], rfl⟩
    obtain ⟨q, hq, -, hn, -⟩ := h []
    obtain rfl := Except.ok.inj hq
    obtain ⟨q', hq', hstored, hn', -⟩ := h [c]
    have hlen := hn'.mp (hready q' ((putChunks_buffer [c]).of_eq_ok hq'))
    rw [hstored, List.length_append, hn.mp (hready p rfl)] at hlen
    exact absurd hlen (by simp [concat, c])

/-! ## The announced number -/

/-- Data at execution is ready when its bytes are there. -/
theorem isDataReady_iff {q : Parameter} (hq : q.buffer = p.buffer) (hexec : p.buffer.isDataAtExec m = true) {k : Nat}
    (hsize : p.buffer.getDataAtExecSize m = k) (hmax : q.storedData.length ≤ 9223372036854775807) :
    q.isDataReady m = true ↔ q.storedData.length = k := by
  have hlen : sqlLen q.storedData.length = q.storedData.length := Int.bmod_eq_of_le (by omega) (by omega)
  simp only [isDataReady, hq, hexec, hsize, hlen, Bool.not_true, Bool.false_or, decide_eq_true_iff]
  omega

/-- **Data at execution.** The law holds of no parameter, since a null is not
written. Characters and bytes are put together, and are ready when `n` of them are
there; wide characters are replaced, `2 * n` bytes at a time; and after a null all
is as before. -/
theorem dataAtExec_chunks (L : InputLib) (h : p.Awaits m n) :
    ¬ PutTogether L p m n ∧
    (p.buffer.type ≠ .wchar → ∀ chunks, ∃ q, p.putChunks chunks = .ok q ∧ q.storedData = p.storedData ++ concat chunks ∧
      (n + 100 < 2147483648 → q.storedData.length ≤ 9223372036854775807 →
        (q.isDataReady m = true ↔ q.storedData.length = n))) ∧
    (p.buffer.type = .wchar → 0 < n → n < 1073741824 →
      ∀ chunks, (∀ c ∈ chunks, p.buffer.indicator c.memory = some (lenDataAtExec n)) → ∃ q, p.putChunks chunks = .ok q ∧
        ∀ c, chunks.getLast? = some c →
          q.storedData = Memory.read c.memory c.address (2 * n) ∧ q.isDataReady m = true) ∧
    ∀ (q : Parameter) (data : Option Int), ∃ r, q.putData m data (-1) = .ok r ∧ r.isDataReady m = q.isDataReady m ∧
      ∀ offset idx, r.write L m offset idx = q.write L m offset idx := by
  refine ⟨not_putTogether L p m n, fun hwide chunks => ?_, fun hwide hpos hn chunks hind => ?_, fun q data => ?_⟩
  · have htype : p.buffer.type = .char ∨ p.buffer.type = .binary := by
      obtain htype | htype | htype := h.type
      · exact .inl htype
      · exact absurd htype hwide
      · exact .inr htype
    refine ⟨_, putChunks_append htype chunks, rfl, fun hn hmax => isDataReady_iff rfl ?_ ?_ hmax⟩
    · exact isDataAtExec_of_awaits h.indicator hn
    · exact getDataAtExecSize_of_awaits h.indicator hn htype
  · refine ⟨_, putChunks_replace hwide hind hpos hn, fun c hc => ?_⟩
    have hread : (chunks.getLast?.map fun c => Memory.read c.memory c.address (2 * n)).getD p.storedData =
        Memory.read c.memory c.address (2 * n) := by rw [hc, Option.map_some, Option.getD_some]
    have hexec := isDataAtExec_of_awaits h.indicator (show n + 100 < 2147483648 by omega)
    have hsize : p.buffer.getDataAtExecSize m = (2 * n : Nat) := by
      rw [getDataAtExecSize_wchar h.indicator hn hwide]
      omega
    have hready : ∀ q : Parameter, q.buffer = p.buffer → q.storedData.length = 2 * n → q.isDataReady m = true :=
      fun q hq hlength => (isDataReady_iff hq hexec hsize (by omega)).mpr hlength
    exact ⟨hread, hready _ rfl ((congrArg List.length hread).trans (Memory.length_read ..))⟩
  · exact ⟨_, putData_null q m data, rfl, fun _ _ => rfl⟩

/-- Two characters are awaited, in one chunk or in two. -/
theorem dataAtExec_chunks_runs :
    let p : Parameter :=
      { buffer := ⟨.char, none, 0, some 200, 0, 0, by decide⟩, sqlType := 12, columnSize := 10, decDigits := 0 }
    let m : Memory.Mem := fun a => if a = 200 then 154 else if 200 < a ∧ a < 208 then 255 else 0
    ¬ PutTogether .ieee p m 2 ∧ ∀ chunks, ∃ q, p.putChunks chunks = .ok q ∧ q.storedData = [] ++ concat chunks ∧
      (2 + 100 < 2147483648 → q.storedData.length ≤ 9223372036854775807 →
        (q.isDataReady m = true ↔ q.storedData.length = 2)) := by
  intro p m
  have hawaits : p.Awaits m 2 := ⟨.inl rfl, by decide +kernel⟩
  obtain ⟨hnot, hchars, -⟩ := dataAtExec_chunks .ieee hawaits
  exact ⟨hnot, hchars (by decide)⟩

/-- After the two characters a null is sent, and the characters are written. -/
theorem dataAtExec_null_not_written :
    let p : Parameter :=
      { buffer := ⟨.char, none, 0, some 200, 0, 0, by decide⟩, sqlType := 12, columnSize := 10, decDigits := 0 }
    let m : Memory.Mem := fun a => if a = 200 then 154 else if 200 < a ∧ a < 208 then 255 else 0
    p.Awaits m 2 ∧ ¬ PutTogether .ieee p m 2 := by
  intro p m
  refine ⟨⟨.inl rfl, by decide +kernel⟩, fun h => ?_⟩
  obtain ⟨q, hq, -, -, hnull⟩ := h [⟨fun a => if a = 0 then 104 else 105, 0, [104, 105], rfl⟩]
  have hput : p.putChunks [⟨fun a => if a = 0 then 104 else 105, 0, [104, 105], rfl⟩] =
    .ok { p with storedData := [104, 105] } := rfl
  obtain rfl := Except.ok.inj (hput.symm.trans hq)
  obtain ⟨r, hr, -, hwrite⟩ := hnull none
  obtain rfl := Except.ok.inj (Eq.trans rfl hr)
  have hvalue : ({ p with storedData := [104, 105], nullData := true } : Parameter).write .ieee m 0 0 =
    .ok [.string [104, 105]] := by
    decide +kernel
  cases hvalue.symm.trans (hwrite 0 0)

end App.Parameter

end DocumentDbOdbc
