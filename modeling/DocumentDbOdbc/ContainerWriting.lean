/-
Writing containers, over whole runs of calls.

`Log` is what the calls so far amount to: the values written, and the container
that is open. `run_writer`: the writer is where its log says, whatever is called
in whatever order, as long as nobody uses the number 0 and `WriteObject` is not
called inside a container, which it does not notice.
-/
import DocumentDbOdbc.ContainerReading

namespace DocumentDbOdbc

open Interop Outcome Slice

namespace Binary

namespace ContainerWriter

/-! ## Logs -/

/-- A write, or a container and its elements. -/
inductive Item where
  | plain (value : List UInt8)
  | container (type : ContainerType) (elements : List (List UInt8))

def Item.bytes : Item → List UInt8
  | .plain value => value
  | .container type elements => type.hdr :: (leBytes 4 elements.length ++ (type.typ ++ elements.flatten))

/-- A container that is being written. -/
structure Opened where
  type : ContainerType
  room : Fin 4 → UInt8
  elements : List (List UInt8) := []

def Opened.bytes (o : Opened) : List UInt8 := o.type.hdr :: (List.ofFn o.room ++ (o.type.typ ++ o.elements.flatten))

structure Log where
  items : List Item := []
  opened : Option Opened := none
  /-- How many containers were started. -/
  started : Nat := 0

namespace Log

variable (log : Log)

def bytes : List UInt8 := log.items.flatMap Item.bytes

/-- What a call adds; `none` where it is refused. -/
def perform : Call → Option Log
  | .write value | .writeObject value =>
    match log.opened with
    | none => some { log with items := log.items ++ [.plain value] }
    | some _ => none
  | .start type room =>
    match log.opened with
    | none => some { log with opened := some { type, room }, started := log.started + 1 }
    | some _ => none
  | .writeElement id value =>
    match log.opened with
    | none => none
    | some o =>
      if id = Int32.ofNat log.started then some { log with opened := some { o with elements := o.elements ++ [value] } }
      else none
  | .commitContainer id =>
    match log.opened with
    | none => none
    | some o =>
      if id = Int32.ofNat log.started then
        some { log with items := log.items ++ [.container o.type o.elements], opened := none }
      else none

def run (calls : List Call) : Log := calls.foldl (fun log call => (log.perform call).getD log) log

/-- The writer of the log, over a stream that began with `base`. -/
def writer (base : List UInt8) : ContainerWriter :=
  match log.opened with
  | none => { stream := base ++ log.bytes, elemIdGen := Int32.ofNat log.started }
  | some o =>
    { stream := base ++ log.bytes ++ o.bytes
      elemIdGen := Int32.ofNat log.started
      elemId := Int32.ofNat log.started
      elemCnt := Int32.ofNat o.elements.length
      elemPos := (base ++ log.bytes).length }

/-- Who has an open container has started one, and the numbers have not come
round to 0. -/
structure Valid : Prop where
  started : log.opened.isSome → 0 < log.started
  few : log.started < 2 ^ 32

end Log

/-- No call uses the number 0, and `WriteObject` stays out of containers. -/
def Call.Fair (log : Log) : Call → Prop
  | .writeObject _ => log.opened = none
  | .writeElement id _ | .commitContainer id => id ≠ 0
  | .write _ | .start _ _ => True

def AllFair : Log → List Call → Prop
  | _, [] => True
  | log, call :: calls => call.Fair log ∧ AllFair ((log.perform call).getD log) calls

/-! ## One call -/

theorem toInt_int32_ofNat (n : Nat) : ∃ k : Int, (Int32.ofNat n).toInt = n - 2 ^ 32 * k := by
  refine ⟨(n : Int).bdiv (2 ^ 32), ?_⟩
  have hdecomposed := Int.bmod_add_bdiv (n : Int) (2 ^ 32)
  have htoInt : (Int32.ofNat n).toInt = (n : Int).bmod (2 ^ 32) := Int32.toInt_ofNat'
  omega

theorem int32_ofNat_ne_zero {n : Nat} (hpos : 0 < n) (hfew : n < 2 ^ 32) : Int32.ofNat n ≠ 0 := fun h => by
  obtain ⟨k, hk⟩ := toInt_int32_ofNat n
  have hzero : (Int32.ofNat n).toInt = 0 := congrArg Int32.toInt h
  omega

theorem leBytes_int32_ofNat (n : Nat) : leBytes 4 (Int32.ofNat n).toInt = leBytes 4 n := by
  obtain ⟨k, hk⟩ := toInt_int32_ofNat n
  rw [hk]
  refine List.map_congr_left fun i hi => ?_
  have hlt := List.mem_range.mp hi
  congr 2
  match i, hlt with
  | 0, _ | 1, _ | 2, _ | 3, _ => omega

/-- The count goes where room was left for it. -/
theorem patch_count (stream : List UInt8) (hdr : UInt8) (room : Fin 4 → UInt8) (n : Nat) (rest : List UInt8) :
    Slice.patch (stream ++ hdr :: (List.ofFn room ++ rest)) ((stream.length : Int) + 1).toNat
      (leBytes 4 (Int32.ofNat n).toInt) = stream ++ hdr :: (leBytes 4 n ++ rest) := by
  have hroom : (leBytes 4 (n : Int)).length = (List.ofFn room).length := by
    rw [length_leBytes, List.length_ofFn]
  have hpos : ((stream.length : Int) + 1).toNat = (stream ++ [hdr]).length := by
    rw [List.length_append, List.length_singleton]
    omega
  rw [leBytes_int32_ofNat, hpos, List.append_cons, patch_append _ _ _ hroom, ← List.append_cons]

variable {log : Log}

/-- **One call** takes the writer of a log to that of the next. -/
theorem perform_writer (base : List UInt8) (h : log.Valid) {call : Call} (hfair : call.Fair log) :
    match log.perform call with
    | some log' => (log.writer base).perform call = .ok (log'.writer base)
    | none => ∃ e, (log.writer base).perform call = .error e := by
  obtain ⟨items, opened, started⟩ := log
  have hbytes : ∀ item, base ++ (items ++ [item]).flatMap Item.bytes = base ++ items.flatMap Item.bytes ++ item.bytes :=
    fun item => by rw [List.flatMap_append, List.flatMap_singleton, List.append_assoc]
  cases opened with
  | none =>
    have hplain : ∀ value, (Log.writer ⟨items, none, started⟩ base).put value =
        Log.writer ⟨items ++ [.plain value], none, started⟩ base := fun value => by
      simp only [Log.writer, Log.bytes, hbytes]
      rfl
    cases call with
    | write value => exact congrArg Except.ok (hplain value)
    | writeObject value => exact congrArg Except.ok (hplain value)
    | start type room =>
      have hgen : Int32.ofNat (started + 1) = Int32.ofNat started + 1 := Int32.ofNat_add started 1
      have hopened : (⟨type, room, []⟩ : Opened).bytes = type.hdr :: List.ofFn room ++ type.typ := by
        rw [Opened.bytes, List.flatten_nil, List.append_nil]
        rfl
      dsimp only [Log.perform]
      simp only [Log.writer, hgen, hopened]
      rfl
    | writeElement id value => exact ⟨_, congrArg (· >>= _) (if_pos (Ne.symm hfair))⟩
    | commitContainer id => exact ⟨_, congrArg (· >>= _) (if_pos (Ne.symm hfair))⟩
  | some o =>
    have hid : Int32.ofNat started ≠ 0 := int32_ofNat_ne_zero (h.started rfl) h.few
    have hbusy : (Log.writer ⟨items, some o, started⟩ base).checkSingleMode true =
        .error (.binary (ascii "Operation cannot be performed when container is being written.")) :=
      if_pos ⟨rfl, hid⟩
    cases call with
    | write value => exact ⟨_, congrArg (· >>= _) hbusy⟩
    | writeObject value => cases hfair
    | start type room => exact ⟨_, congrArg (· >>= _) (congrArg (· >>= _) hbusy)⟩
    | writeElement id value =>
      dsimp only [Log.perform]
      by_cases hsame : id = Int32.ofNat started
      · have hsession : (Log.writer ⟨items, some o, started⟩ base).checkSession id = .ok () :=
          if_neg (not_not_intro hsame.symm)
        have hopened : ({ o with elements := o.elements ++ [value] } : Opened).bytes = o.bytes ++ value := by
          simp only [Opened.bytes, List.flatten_append, List.flatten_singleton, List.cons_append, List.append_assoc]
        have hcnt : Int32.ofNat (o.elements.length + 1) = Int32.ofNat o.elements.length + 1 :=
          Int32.ofNat_add o.elements.length 1
        rw [if_pos hsame]
        dsimp only
        rw [perform, ContainerWriter.writeElement, hsession, ok_bind]
        simp only [Log.writer, put, hopened, List.length_append, List.length_singleton, hcnt, ← List.append_assoc]
        rfl
      · rw [if_neg hsame]
        exact ⟨_, congrArg (· >>= _) (if_pos (Ne.symm hsame))⟩
    | commitContainer id =>
      dsimp only [Log.perform]
      by_cases hsame : id = Int32.ofNat started
      · have hsession : (Log.writer ⟨items, some o, started⟩ base).checkSession id = .ok () :=
          if_neg (not_not_intro hsame.symm)
        have hpatch : Slice.patch (base ++ items.flatMap Item.bytes ++ o.bytes)
            (((base ++ items.flatMap Item.bytes).length : Int) + 1).toNat (leBytes 4 (Int32.ofNat o.elements.length).toInt) =
            base ++ items.flatMap Item.bytes ++ (Item.container o.type o.elements).bytes :=
          patch_count _ o.type.hdr o.room o.elements.length _
        rw [if_pos hsame]
        dsimp only
        rw [perform, ContainerWriter.commitContainer, hsession, ok_bind]
        simp only [Log.writer, Log.bytes, hbytes, hpatch]
      · rw [if_neg hsame]
        exact ⟨_, congrArg (· >>= _) (if_pos (Ne.symm hsame))⟩

/-! ## Runs -/

/-- What a call can do to a log. -/
theorem Log.started_perform (log : Log) (call : Call) : match log.perform call with
    | none => True
    | some log' => log'.started ≤ log.started + 1 ∧ log.started ≤ log'.started ∧
        (log'.opened.isSome → log.opened.isSome ∨ log.started < log'.started) := by
  obtain ⟨items, opened, started⟩ := log
  cases opened with
  | none =>
    cases call with
    | write value => exact ⟨Nat.le_succ _, Nat.le_refl _, nofun⟩
    | writeObject value => exact ⟨Nat.le_succ _, Nat.le_refl _, nofun⟩
    | start type room => exact ⟨Nat.le_refl _, Nat.le_succ _, fun _ => .inr (Nat.lt_succ_self _)⟩
    | writeElement id value => trivial
    | commitContainer id => trivial
  | some o =>
    cases call with
    | write value => trivial
    | writeObject value => trivial
    | start type room => trivial
    | writeElement id value =>
      dsimp only [Log.perform]
      by_cases hsame : id = Int32.ofNat started
      · rw [if_pos hsame]
        exact ⟨Nat.le_succ _, Nat.le_refl _, fun _ => .inl rfl⟩
      · rw [if_neg hsame]
        trivial
    | commitContainer id =>
      dsimp only [Log.perform]
      by_cases hsame : id = Int32.ofNat started
      · rw [if_pos hsame]
        exact ⟨Nat.le_succ _, Nat.le_refl _, nofun⟩
      · rw [if_neg hsame]
        trivial

/-- **A run of calls** takes the writer to where the log of the run says. -/
theorem run_writer (base : List UInt8) : ∀ {calls : List Call} {log : Log}, log.Valid → AllFair log calls →
    log.started + calls.length < 2 ^ 32 → (log.writer base).run calls = (log.run calls).writer base
  | [], _, _, _, _ => rfl
  | call :: calls, log, h, hfair, hfew => by
    rw [List.length_cons] at hfew
    have hstep := perform_writer base h hfair.1
    have hstarted := log.started_perform call
    have hrest := hfair.2
    rw [ContainerWriter.run, Log.run, List.foldl_cons, List.foldl_cons]
    cases hlog : log.perform call with
    | none =>
      rw [hlog] at hstep hrest
      obtain ⟨e, he⟩ := hstep
      rw [he]
      exact run_writer base h hrest (by omega)
    | some log' =>
      rw [hlog] at hstep hstarted hrest
      obtain ⟨hle, hmono, hopened⟩ := hstarted
      dsimp only at hstep
      rw [hstep]
      refine run_writer base ⟨fun h' => ?_, by omega⟩ hrest (by omega)
      obtain hold | hnew := hopened h'
      · exact lt_of_lt_of_le (h.started hold) hmono
      · omega

/-! ## What a run leaves to be skipped -/

/-- An element, and for a map a key and a value, of containers so deep. -/
def ContainerType.Element (depth : Nat) : ContainerType → List UInt8 → Prop
  | .map _, bytes => ∃ key value : Value, key.depth ≤ depth ∧ value.depth ≤ depth ∧ bytes = key.bytes ++ value.bytes
  | _, bytes => ∃ v : Value, v.depth ≤ depth ∧ bytes = v.bytes

/-- What was written are values. -/
def Item.OfValues (depth : Nat) : Item → Prop
  | .plain bytes => ∃ v : Value, v.depth ≤ depth + 1 ∧ bytes = v.bytes
  | .container type elements => ∀ bytes ∈ elements, ContainerType.Element depth type bytes

theorem exists_values {depth : Nat} : ∀ {elements : List (List UInt8)},
    (∀ bytes ∈ elements, ∃ v : Value, v.depth ≤ depth ∧ bytes = v.bytes) →
    ∃ values : Values, values.depth ≤ depth ∧ values.length = elements.length ∧ values.bytes = elements.flatten
  | [], _ => ⟨.nil, Nat.zero_le _, rfl, rfl⟩
  | bytes :: elements, h => by
    obtain ⟨v, hdepth, hv⟩ := h bytes List.mem_cons_self
    obtain ⟨values, hdepth', hlength, hvalues⟩ := exists_values fun b hb => h b (List.mem_cons_of_mem bytes hb)
    refine ⟨.cons v values, max_le hdepth hdepth', congrArg (· + 1) hlength, ?_⟩
    rw [Values.bytes, hvalues, List.flatten_cons, hv]

theorem exists_entries {depth : Nat} : ∀ {elements : List (List UInt8)},
    (∀ bytes ∈ elements, ∃ key value : Value, key.depth ≤ depth ∧ value.depth ≤ depth ∧ bytes = key.bytes ++ value.bytes) →
    ∃ entries : Entries, entries.depth ≤ depth ∧ entries.length = elements.length ∧ entries.bytes = elements.flatten
  | [], _ => ⟨.nil, Nat.zero_le _, rfl, rfl⟩
  | bytes :: elements, h => by
    obtain ⟨key, value, hkey, hvalue, hbytes⟩ := h bytes List.mem_cons_self
    obtain ⟨entries, hdepth', hlength, hentries⟩ := exists_entries fun b hb => h b (List.mem_cons_of_mem bytes hb)
    refine ⟨.cons key value entries, max_le hkey (max_le hvalue hdepth'), congrArg (· + 1) hlength, ?_⟩
    rw [Entries.bytes, hentries, List.flatten_cons, hbytes, List.append_assoc]

theorem exists_value_of_elements {depth : Nat} {hdr : UInt8} (hlayout : layout hdr = .elements) {elements : List (List UInt8)}
    (h : ∀ bytes ∈ elements, ∃ v : Value, v.depth ≤ depth ∧ bytes = v.bytes) :
    ∃ v : Value, v.depth ≤ depth + 1 ∧ hdr :: (leBytes 4 elements.length ++ elements.flatten) = v.bytes := by
  obtain ⟨values, hdepth, hlength, hvalues⟩ := exists_values h
  exact ⟨.elements hdr values hlayout, Nat.succ_le_succ hdepth, by rw [Value.bytes, hlength, hvalues]⟩

/-- A container of values is a value. -/
theorem Item.exists_value {depth : Nat} {item : Item} (h : item.OfValues depth) :
    ∃ v : Value, v.depth ≤ depth + 1 ∧ item.bytes = v.bytes := by
  cases item with
  | plain bytes => exact h
  | container type elements =>
    cases type with
    | array => exact exists_value_of_elements (show layout 23 = .elements from rfl) h
    | stringArray => exact exists_value_of_elements (show layout 20 = .elements from rfl) h
    | collection typ =>
      obtain ⟨values, hdepth, hlength, hvalues⟩ := exists_values h
      exact ⟨.collection typ values, Nat.succ_le_succ hdepth, by rw [Item.bytes, Value.bytes, hlength, hvalues]; rfl⟩
    | map typ =>
      obtain ⟨entries, hdepth, hlength, hentries⟩ := exists_entries h
      exact ⟨.map typ entries, Nat.succ_le_succ hdepth, by rw [Item.bytes, Value.bytes, hlength, hentries]; rfl⟩

theorem takes_items {depth : Nat} : ∀ {items : List Item}, (∀ item ∈ items, item.OfValues depth) →
    Takes (repeatRead (skip (depth + 2)) items.length) (items.flatMap Item.bytes)
  | [], _ => takes_repeatRead_zero _
  | item :: items, h => by
    obtain ⟨v, hdepth, hv⟩ := Item.exists_value (h item List.mem_cons_self)
    rw [List.flatMap_cons, hv]
    exact takes_repeatRead_succ (skips_value v hdepth) (takes_items fun i hi => h i (List.mem_cons_of_mem item hi))

theorem writeElements_eq : ∀ (values : List (List UInt8)) (w : ContainerWriter),
    values.foldlM (fun w value => w.writeElement w.elemId value) w =
      .ok { w with stream := w.stream ++ values.flatten, elemCnt := w.elemCnt + Int32.ofNat values.length }
  | [], w => by
    have hcnt : w.elemCnt + Int32.ofNat 0 = w.elemCnt := Int32.add_zero _
    rw [List.flatten_nil, List.append_nil, List.length_nil, hcnt]
    rfl
  | value :: values, w => by
    have hwrite : w.writeElement w.elemId value = .ok { w with stream := w.stream ++ value, elemCnt := w.elemCnt + 1 } := by
      rw [ContainerWriter.writeElement, checkSession, if_neg (fun h => h rfl)]
      rfl
    have hcnt : w.elemCnt + Int32.ofNat (values.length + 1) = w.elemCnt + 1 + Int32.ofNat values.length := by
      rw [Int32.ofNat_add, Int32.add_comm (Int32.ofNat values.length), ← Int32.add_assoc]
      rfl
    rw [List.foldlM_cons, hwrite, ok_bind, writeElements_eq values, List.flatten_cons, List.length_cons, hcnt,
      ← List.append_assoc]

theorem writeCollection_eq {w : ContainerWriter} (hsingle : w.elemId = 0) (hcnt : w.elemCnt = 0) (room : Fin 4 → UInt8)
    (typ : UInt8) (values : List (List UInt8)) : w.writeCollection room typ values =
      .ok { stream := w.stream ++ ContainerReader.collectionBytes typ values, elemIdGen := w.elemIdGen + 1 } := by
  have hmode : w.checkSingleMode true = .ok () := by
    rw [checkSingleMode, hsingle]
    rfl
  have hstart : w.perform (.start (.collection typ) room) =
      .ok ⟨w.stream ++ 24 :: (List.ofFn room ++ [typ]), w.elemIdGen + 1, w.elemIdGen + 1, 0, w.stream.length⟩ := by
    rw [perform, startContainerSession, hmode, ← hcnt]
    rfl
  have hpatch : Slice.patch (w.stream ++ 24 :: (List.ofFn room ++ [typ]) ++ values.flatten) ((w.stream.length : Int) + 1).toNat
      (leBytes 4 (Int32.ofNat values.length).toInt) = w.stream ++ ContainerReader.collectionBytes typ values := by
    have hsplit : w.stream ++ 24 :: (List.ofFn room ++ [typ]) ++ values.flatten =
        w.stream ++ 24 :: (List.ofFn room ++ typ :: values.flatten) := by
      simp only [List.append_assoc, List.cons_append, List.nil_append]
    rw [hsplit]
    exact patch_count w.stream 24 room values.length (typ :: values.flatten)
  rw [writeCollection, hstart, ok_bind, writeElements_eq, ok_bind, ContainerWriter.commitContainer, checkSession,
    if_neg (fun h => h rfl), ok_bind, Int32.zero_add]
  exact congrArg (fun stream => Except.ok (⟨stream, w.elemIdGen + 1, 0, 0, -1⟩ : ContainerWriter)) hpatch

end ContainerWriter

end Binary

end DocumentDbOdbc
