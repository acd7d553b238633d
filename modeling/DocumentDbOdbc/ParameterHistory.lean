/-
Histories of a set of parameters: what is left of an earlier execution when a
parameter is bound again and when the set is prepared.

What a parameter should have at any time is told by the calls since it was bound
or prepared (`toldBy`). `BindParameter` leaves the stored data of the entry it
assigns to, and `Prepare` leaves the parameter that is selected; in a history
where neither is there to be left, the set behaves as told (`history_forgets`).
-/
import DocumentDbOdbc.DataAtExec

namespace DocumentDbOdbc

open ApplicationDataBuffer Outcome

namespace App

namespace Parameter

/-- The parameter with nothing put. -/
def cleared (p : Parameter) : Parameter := { p with nullData := false, storedData := [] }

/-- The parameters are ready at the same times, and write the same values. -/
structure Alike (p q : Parameter) : Prop where
  ready : ∀ m, p.isDataReady m = q.isDataReady m
  write : ∀ L m offset idx, p.write L m offset idx = q.write L m offset idx

/-- The same is bound, and what is stored is the same or never looked at. -/
structure Related (p q : Parameter) : Prop where
  buffer : p.buffer = q.buffer
  sqlType : p.sqlType = q.sqlType
  columnSize : p.columnSize = q.columnSize
  stored : p.storedData = q.storedData ∨ p.buffer.reslen = none

theorem indicator_of_reslen {b : ApplicationDataBuffer} (h : b.reslen = none) (m : Memory.Mem) : b.indicator m = none := by
  rw [indicator, getResLen, applyOffset, h]
  rfl

variable {p q : Parameter}

theorem Related.alike (h : Related p q) : Alike p q := by
  have helement : ∀ offset idx, p.elementBuffer offset idx = q.elementBuffer offset idx := fun offset idx => by
    rw [elementBuffer, elementBuffer, h.buffer]
  obtain hstored | hnone := h.stored
  · constructor
    · intro m
      rw [isDataReady, isDataReady, h.buffer, hstored]
    · intro L m offset idx
      rw [write, write, helement, h.buffer, h.sqlType, h.columnSize, hstored]
  · have hexec : ∀ m, q.buffer.isDataAtExec m = false := fun m => by
      rw [isDataAtExec, indicator_of_reslen (h.buffer ▸ hnone)]
    constructor
    · intro m
      simp only [isDataReady, h.buffer, hexec, Bool.not_false, Bool.true_or]
    · intro L m offset idx
      simp only [write, helement, h.buffer, h.sqlType, h.columnSize, hexec, Bool.false_eq_true, if_false]

/-- What is put is put into both. -/
theorem putData_related (h : Related p q) (m : Memory.Mem) (data : Option Int) (len : Int) :
    Ends (fun _ => True) (p.putData m data len) fun p' => ∃ q', q.putData m data len = .ok q' ∧ Related p' q' := by
  unfold putData
  rw [← h.buffer]
  by_cases hdefault : len = -5
  · rw [if_pos hdefault, if_pos hdefault]
    exact ⟨q, rfl, h⟩
  rw [if_neg hdefault, if_neg hdefault]
  by_cases hnull : len = -1
  · rw [if_pos hnull, if_pos hnull]
    exact ⟨_, rfl, rfl, h.sqlType, h.columnSize, h.stored⟩
  rw [if_neg hnull, if_neg hnull]
  by_cases htype : p.buffer.type = .char ∨ p.buffer.type = .binary
  · rw [if_pos htype, if_pos htype]
    dsimp only
    generalize (if p.buffer.type = .char ∧ len = -3 then _ else len) = slen
    by_cases hempty : slen ≤ 0
    · rw [if_pos hempty, if_pos hempty]
      exact ⟨q, rfl, h⟩
    · rw [if_neg hempty, if_neg hempty]
      cases copyFrom m data slen.toNat with
      | ok bytes => exact ⟨_, rfl, rfl, h.sqlType, h.columnSize, h.stored.imp_left (congrArg (· ++ bytes))⟩
      | error e => trivial
  · rw [if_neg htype, if_neg htype]
    dsimp only
    generalize p.buffer.getDataAtExecSize m = size
    by_cases hneg : size < 0
    · rw [if_pos hneg]
      trivial
    rw [if_neg hneg, if_neg hneg]
    by_cases hzero : size = 0
    · rw [if_pos hzero]
      trivial
    · rw [if_neg hzero, if_neg hzero]
      cases copyFrom m data size.toNat with
      | ok bytes => exact ⟨_, rfl, rfl, h.sqlType, h.columnSize, .inl rfl⟩
      | error e => trivial

end Parameter

namespace ParameterSet

open Parameter

inductive Call where
  | bindParameter (idx : UInt16) (param : Parameter)
  | putData (idx : UInt16) (m : Memory.Mem) (data : Option Int) (len : Int)
  | selectNextParameter (m : Memory.Mem)
  | prepare (m : Memory.Mem)
  | unbindParameter (idx : UInt16)

/-- The set after a call, in the memory of the time. -/
def perform (s : ParameterSet) : Call → Except Fault ParameterSet
  | .bindParameter idx param => .ok (s.bindParameter idx param)
  | .putData idx m data len => s.putData idx m data len
  | .selectNextParameter m => .ok (s.selectNextParameter m).1
  | .prepare m => .ok (s.prepare m).1
  | .unbindParameter idx => .ok (s.unbindParameter idx)

def run (s : ParameterSet) : List Call → Except Fault ParameterSet
  | [] => .ok s
  | call :: calls => do
    let s ← s.perform call
    s.run calls

/-- What holds of every call of a history, and of the sets before and after it. -/
def Along (P : ParameterSet → Call → ParameterSet → Prop) (s : ParameterSet) : List Call → Prop
  | [] => True
  | call :: calls => ∀ s', s.perform call = .ok s' → P s call s' ∧ Along P s' calls

/-! ## What is told -/

/-- The parameters a set should have. -/
abbrev Told := UInt16 → Option Parameter

/-- Binding and preparing leave nothing of what was put; `Prepare` comes as far as
there is room. -/
def Told.after (told : Told) (s : ParameterSet) : Call → Told
  | .bindParameter idx param => fun k => if k = idx then some param.cleared else told k
  | .putData idx m data len => fun k =>
    if k = idx then (told k).map fun p => (p.putData m data len).toOption.getD p else told k
  | .selectNextParameter _ => told
  | .prepare m => fun k => (told k).map fun p => if (s.prepareStop m).all fun stop => k ≤ stop then p.cleared else p
  | .unbindParameter idx => fun k => if k = idx then none else told k

/-- What the calls tell from a set on. -/
def toldBy (told : Told) (s : ParameterSet) : List Call → Told
  | [] => told
  | call :: calls =>
    match s.perform call with
    | .ok s' => toldBy (told.after s call) s' calls
    | .error _ => told

/-- A parameter that was bound is as in a new set, and after `Prepare` returns none
is selected and all are as if nothing had been put. -/
def Forgets (s : ParameterSet) (call : Call) (s' : ParameterSet) : Prop :=
  match call with
  | .bindParameter idx param => ∃ p q, s'.getParameter idx = some p ∧
      (({} : ParameterSet).bindParameter idx param).getParameter idx = some q ∧ Alike p q
  | .prepare m => s.prepareStop m = none →
      s'.isParameterSelected = false ∧ ∀ k p, s'.getParameter k = some p → Alike p p.cleared
  | _ => True

/-- There is nothing to be left: no stored data in an entry bound again, unless no
indicator asks for it, and no parameter selected in a set that is prepared. -/
def LeavesNothing (s : ParameterSet) (call : Call) : Prop :=
  match call with
  | .bindParameter idx param => param.buffer.reslen = none ∨ ∀ p ∈ s.getParameter idx, p.storedData = []
  | .prepare m => s.prepareStop m = none → s.isParameterSelected = false
  | _ => True

variable {s s' : ParameterSet} {call : Call} {told : Told}

/-! ## Calls -/

theorem getParameter_bindParameter (s : ParameterSet) (idx : UInt16) (param : Parameter) :
    (s.bindParameter idx param).getParameter idx = some (((s.getParameter idx).getD .empty).assign param) :=
  s.parameters.find_upsert_self idx _

theorem related_assign {param : Parameter} {old : Option Parameter}
    (h : param.buffer.reslen = none ∨ ∀ p ∈ old, p.storedData = []) :
    Related ((old.getD .empty).assign param) param.cleared := by
  refine ⟨rfl, rfl, rfl, h.symm.imp_left fun hold => ?_⟩
  cases old with
  | none => rfl
  | some p => exact hold p rfl

/-- A parameter that is bound again is as in a new set if nothing is left to it. -/
theorem bindParameter_forgets {idx : UInt16} {param : Parameter} (h : s.LeavesNothing (.bindParameter idx param)) :
    s.Forgets (.bindParameter idx param) (s.bindParameter idx param) :=
  ⟨_, _, getParameter_bindParameter .., getParameter_bindParameter .., (related_assign h).alike⟩

theorem getParameter_prepare (s : ParameterSet) (m : Memory.Mem) (k : UInt16) : (s.prepare m).1.getParameter k =
    (s.getParameter k).map fun p => if (s.prepareStop m).all fun stop => k ≤ stop then p.resetStoredData else p :=
  s.parameters.find_mapWithKey k _

/-- Preparing clears the parameters, and leaves the selection. -/
theorem prepare_forgets_iff (s : ParameterSet) (m : Memory.Mem) :
    s.Forgets (.prepare m) (s.prepare m).1 ↔ s.LeavesNothing (.prepare m) := by
  refine forall_congr' fun hstop => and_iff_left fun k p hp => ?_
  rw [getParameter_prepare, hstop] at hp
  obtain ⟨p, -, rfl⟩ := Option.map_eq_some_iff.mp hp
  have hrelated : Related p.resetStoredData p.resetStoredData.cleared := ⟨rfl, rfl, rfl, .inl rfl⟩
  exact hrelated.alike

theorem forgets_of_leavesNothing (h : s.LeavesNothing call) (hs : s.perform call = .ok s') : s.Forgets call s' := by
  cases call with
  | bindParameter idx param =>
    obtain rfl := Except.ok.inj hs
    exact bindParameter_forgets h
  | prepare m =>
    obtain rfl := Except.ok.inj hs
    exact (prepare_forgets_iff s m).mpr h
  | _ => trivial

/-! ## The parameters that are told -/

/-- The set has the parameters that are told. -/
def Keeps (told : Told) (s : ParameterSet) : Prop := ∀ k, Option.Rel Related (s.getParameter k) (told k)

theorem keeps_bindParameter {idx : UInt16} {param : Parameter} (h : s.Keeps told)
    (hclean : s.LeavesNothing (.bindParameter idx param)) :
    (s.bindParameter idx param).Keeps (told.after s (.bindParameter idx param)) := by
  intro k
  unfold Told.after
  dsimp only
  by_cases hk : k = idx
  · subst hk
    rw [if_pos rfl, getParameter_bindParameter]
    exact .some (related_assign hclean)
  · rw [if_neg hk]
    have hother : (s.bindParameter idx param).getParameter k = s.getParameter k := s.parameters.find_upsert_of_ne idx hk _
    rw [hother]
    exact h k

/-- Data is put into a parameter that is bound, and into no other. -/
theorem getParameter_putData {idx : UInt16} {m : Memory.Mem} {data : Option Int} {len : Int}
    (hs : s.putData idx m data len = .ok s') :
    (∀ k ≠ idx, s'.getParameter k = s.getParameter k) ∧
      ((s.getParameter idx = none ∧ s'.getParameter idx = none) ∨
        ∃ p p', s.getParameter idx = some p ∧ p.putData m data len = .ok p' ∧ s'.getParameter idx = some p') := by
  unfold ParameterSet.putData at hs
  cases hp : s.getParameter idx with
  | none =>
    rw [hp] at hs
    obtain rfl := Except.ok.inj hs
    exact ⟨fun _ _ => rfl, .inl ⟨rfl, hp⟩⟩
  | some p =>
    rw [hp] at hs
    dsimp only at hs
    cases hput : p.putData m data len with
    | error e =>
      rw [hput] at hs
      cases hs
    | ok p' =>
      rw [hput] at hs
      obtain rfl := Except.ok.inj hs
      exact ⟨fun k hk => s.parameters.find_upsert_of_ne idx hk _,
        .inr ⟨p, p', rfl, hput, s.parameters.find_upsert_self idx _⟩⟩

theorem keeps_putData {idx : UInt16} {m : Memory.Mem} {data : Option Int} {len : Int} (h : s.Keeps told)
    (hs : s.putData idx m data len = .ok s') : s'.Keeps (told.after s (.putData idx m data len)) := by
  obtain ⟨hother, hself⟩ := getParameter_putData hs
  intro k
  unfold Told.after
  dsimp only
  by_cases hk : k = idx
  · subst hk
    rw [if_pos rfl]
    have hk := h k
    generalize told k = y at hk
    obtain ⟨hnone, hnone'⟩ | ⟨p, p', hp, hput, hp'⟩ := hself
    · rw [hnone] at hk
      cases hk
      rw [hnone']
      exact .none
    · rw [hp] at hk
      cases hk with
      | some hrelated =>
        obtain ⟨q', hq', hrelated'⟩ := (putData_related hrelated m data len).of_eq_ok hput
        rw [hp', Option.map_some, hq']
        exact .some hrelated'
  · rw [if_neg hk, hother k hk]
    exact h k

theorem keeps_prepare (h : s.Keeps told) (m : Memory.Mem) : (s.prepare m).1.Keeps (told.after s (.prepare m)) := by
  intro k
  rw [getParameter_prepare]
  unfold Told.after
  dsimp only
  have hk := h k
  generalize s.getParameter k = x at hk
  generalize told k = y at hk
  cases hk with
  | none => exact .none
  | some hrelated =>
    refine .some ?_
    split
    · exact ⟨hrelated.buffer, hrelated.sqlType, hrelated.columnSize, .inl rfl⟩
    · exact hrelated

theorem keeps_unbindParameter (h : s.Keeps told) (idx : UInt16) :
    (s.unbindParameter idx).Keeps (told.after s (.unbindParameter idx)) := by
  intro k
  have herase : (s.unbindParameter idx).getParameter k = if k = idx then none else s.getParameter k :=
    s.parameters.find_erase idx k
  rw [herase]
  unfold Told.after
  dsimp only
  split
  · exact .none
  · exact h k

theorem getParameter_selectNextParameter (s : ParameterSet) (m : Memory.Mem) (k : UInt16) :
    (s.selectNextParameter m).1.getParameter k = s.getParameter k := by
  unfold selectNextParameter
  split <;> rfl

/-- A call leads from what is told before to what is told after it. -/
theorem keeps_perform (h : s.Keeps told) (hclean : s.LeavesNothing call) (hs : s.perform call = .ok s') :
    s'.Keeps (told.after s call) := by
  cases call with
  | bindParameter idx param =>
    obtain rfl := Except.ok.inj hs
    exact keeps_bindParameter h hclean
  | putData idx m data len => exact keeps_putData h hs
  | selectNextParameter m =>
    obtain rfl := Except.ok.inj hs
    exact fun k => (getParameter_selectNextParameter s m k).symm ▸ h k
  | prepare m =>
    obtain rfl := Except.ok.inj hs
    exact keeps_prepare h m
  | unbindParameter idx =>
    obtain rfl := Except.ok.inj hs
    exact keeps_unbindParameter h idx

/-! ## Histories -/

theorem along_forgets {calls : List Call} (h : Along (fun s call _ => s.LeavesNothing call) s calls) :
    Along Forgets s calls := by
  induction calls generalizing s with
  | nil => trivial
  | cons call calls ih =>
    intro s' hs
    obtain ⟨hclean, hrest⟩ := h s' hs
    exact ⟨forgets_of_leavesNothing hclean hs, ih hrest⟩

theorem keeps_run {calls : List Call} (h : s.Keeps told) (hclean : Along (fun s call _ => s.LeavesNothing call) s calls)
    (hs : s.run calls = .ok s') : s'.Keeps (toldBy told s calls) := by
  induction calls generalizing s told with
  | nil =>
    obtain rfl := Except.ok.inj hs
    exact h
  | cons call calls ih =>
    unfold toldBy
    rw [run] at hs
    cases hcall : s.perform call with
    | error e =>
      rw [hcall, error_bind] at hs
      cases hs
    | ok s₁ =>
      rw [hcall, ok_bind] at hs
      obtain ⟨hfirst, hrest⟩ := hclean s₁ hcall
      exact ih (keeps_perform h hfirst hcall) hrest hs

/-- **Histories.** In a history where nothing is left to a binding or to a `Prepare`,
each of them forgets what was before, and every parameter is at every time as the
calls tell since. -/
theorem history_forgets {calls : List Call} (h : Along (fun s call _ => s.LeavesNothing call) {} calls) :
    Along Forgets {} calls ∧
      ∀ s, ({} : ParameterSet).run calls = .ok s →
        ∀ k, Option.Rel Alike (s.getParameter k) (toldBy (fun _ => none) {} calls k) := by
  refine ⟨along_forgets h, fun s hs k => ?_⟩
  have hempty : ({} : ParameterSet).Keeps fun _ => none := fun k => .none
  have hk := keeps_run hempty h hs k
  generalize s.getParameter k = x at hk
  generalize toldBy (fun _ => none) {} calls k = y at hk
  cases hk with
  | none => exact .none
  | some hrelated => exact .some hrelated.alike

/-- Two characters are sent, the set is prepared, and the parameter is bound again. -/
theorem history_forgets_runs :
    let p : Parameter :=
      { buffer := ⟨.char, none, 0, some 200, 0, 0, by decide⟩, sqlType := 12, columnSize := 10, decDigits := 0 }
    let m : Memory.Mem := fun a => if a = 200 then 154 else if 200 < a ∧ a < 208 then 255 else 0
    Along Forgets {} [.bindParameter 1 p, .putData 1 m (some 200) 2, .prepare m, .bindParameter 1 p] := by
  intro p m
  refine (history_forgets ?_).1
  intro s₁ hs₁
  obtain rfl := Except.ok.inj hs₁
  refine ⟨.inr fun q hq => ?_, fun s₂ hs₂ => ⟨trivial,
    fun s₃ hs₃ => ⟨fun _ => ?_, fun s₄ hs₄ => ⟨.inr fun q hq => ?_, trivial⟩⟩⟩⟩
  · rw [getParameter, show ({} : ParameterSet).parameters = .empty from rfl, SortedMap.find_empty] at hq
    cases hq
  · obtain rfl := Except.ok.inj hs₂
    rfl
  · obtain rfl := Except.ok.inj hs₂
    obtain rfl := Except.ok.inj hs₃
    rw [getParameter_prepare] at hq
    obtain ⟨q, -, rfl⟩ := Option.map_eq_some_iff.mp hq
    rw [if_pos (by decide +kernel)]
    rfl

/-- Data that was sent is there after the parameter is bound again, and a parameter
that was selected is so after `Prepare`. -/
theorem history_not_forgotten :
    let p : Parameter :=
      { buffer := ⟨.char, none, 0, some 200, 0, 0, by decide⟩, sqlType := 12, columnSize := 10, decDigits := 0 }
    let m : Memory.Mem := fun a => if a = 200 then 154 else if 200 < a ∧ a < 208 then 255 else 0
    ¬ Along Forgets {} [.bindParameter 1 p, .putData 1 m (some 200) 2, .bindParameter 1 p] ∧
      ¬ Along Forgets {} [.bindParameter 1 p, .selectNextParameter m, .prepare m] := by
  intro p m
  constructor
  · intro h
    obtain ⟨-, h⟩ := h _ rfl
    obtain ⟨-, h⟩ := h _ rfl
    obtain ⟨⟨q, q', hq, hq', halike⟩, -⟩ := h _ rfl
    obtain rfl : q = { p with storedData := Memory.read m 200 2 } := Option.some.inj (hq.symm.trans rfl)
    obtain rfl : q' = p := Option.some.inj (hq'.symm.trans rfl)
    exact absurd (halike.ready m) (by decide +kernel)
  · intro h
    obtain ⟨-, h⟩ := h _ rfl
    obtain ⟨-, h⟩ := h _ rfl
    obtain ⟨hforgets, -⟩ := h _ rfl
    obtain ⟨hselected, -⟩ := hforgets (by decide +kernel)
    exact absurd hselected (by decide +kernel)

end ParameterSet

end App

end DocumentDbOdbc
