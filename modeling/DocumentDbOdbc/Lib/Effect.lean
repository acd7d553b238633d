/-
Computations that do things in order and may stop on the way.

`Eff σ ε α` is the list of events a computation caused, oldest first, and the
value it ended with or the error that stopped it; the events before an error
stay. `All p` says that every event satisfies `p`, with a rule for each way of
building a computation, so that a property of all events of a program is
proved along its text.
-/
import Mathlib.Init

namespace Effect

/-- Events of type `σ`, then a value of type `α` or an error of type `ε`. -/
structure Eff (σ ε α : Type) where
  log : List σ
  value : Except ε α

variable {σ ε α β : Type}

def emit (e : σ) : Eff σ ε Unit := ⟨[e], .ok ()⟩

def raise (e : ε) : Eff σ ε α := ⟨[], .error e⟩

protected def Eff.bind (x : Eff σ ε α) (f : α → Eff σ ε β) : Eff σ ε β :=
  match x.value with
  | .ok a => ⟨x.log ++ (f a).log, (f a).value⟩
  | .error e => ⟨x.log, .error e⟩

instance : Monad (Eff σ ε) where
  pure a := ⟨[], .ok a⟩
  bind := Eff.bind

@[simp] theorem log_pure (a : α) : (pure a : Eff σ ε α).log = [] := rfl
@[simp] theorem value_pure (a : α) : (pure a : Eff σ ε α).value = .ok a := rfl
@[simp] theorem log_emit (e : σ) : (emit e : Eff σ ε Unit).log = [e] := rfl
@[simp] theorem value_emit (e : σ) : (emit e : Eff σ ε Unit).value = .ok () := rfl
@[simp] theorem log_raise (e : ε) : (raise e : Eff σ ε α).log = [] := rfl
@[simp] theorem value_raise (e : ε) : (raise e : Eff σ ε α).value = .error e := rfl

theorem bind_of_ok {x : Eff σ ε α} {a : α} (h : x.value = .ok a) (f : α → Eff σ ε β) :
    x >>= f = ⟨x.log ++ (f a).log, (f a).value⟩ := by
  change Eff.bind x f = _
  rw [Eff.bind, h]

theorem bind_of_error {x : Eff σ ε α} {e : ε} (h : x.value = .error e) (f : α → Eff σ ε β) :
    x >>= f = ⟨x.log, .error e⟩ := by
  change Eff.bind x f = _
  rw [Eff.bind, h]

theorem emit_bind (e : σ) (f : Unit → Eff σ ε β) : emit e >>= f = ⟨e :: (f ()).log, (f ()).value⟩ := rfl

@[simp] theorem raise_bind (e : ε) (f : α → Eff σ ε β) : raise e >>= f = raise e := rfl

theorem value_bind (x : Eff σ ε α) (f : α → Eff σ ε β) :
    (x >>= f).value = x.value.bind fun a => (f a).value := by
  cases h : x.value with
  | ok a => rw [bind_of_ok h]; rfl
  | error e => rw [bind_of_error h]; rfl

theorem bind_congr_value {x : Eff σ ε α} {f g : α → Eff σ ε β} (h : ∀ a, x.value = .ok a → f a = g a) :
    x >>= f = x >>= g := by
  cases hx : x.value with
  | ok a => rw [bind_of_ok hx, bind_of_ok hx, h a hx]
  | error e => rw [bind_of_error hx, bind_of_error hx]

/-- Going on with the value itself changes nothing. -/
theorem bind_eq_self {x : Eff σ ε α} {f : α → Eff σ ε α} (h : ∀ a, x.value = .ok a → f a = pure a) :
    x >>= f = x := by
  obtain ⟨log, value⟩ := x
  cases value with
  | ok a => simp [bind_of_ok (x := ⟨log, .ok a⟩) rfl, h a rfl]
  | error e => rw [bind_of_error (x := ⟨log, .error e⟩) rfl]

/-- A computation ends well if and only if each of its two halves does. -/
theorem value_bind_eq_ok {x : Eff σ ε α} {f : α → Eff σ ε β} {b : β} :
    (x >>= f).value = .ok b ↔ ∃ a, x.value = .ok a ∧ (f a).value = .ok b := by
  cases h : x.value with
  | ok a =>
    rw [bind_of_ok h]
    simp
  | error e =>
    rw [bind_of_error h]
    simp

theorem bind_assoc {γ : Type} (x : Eff σ ε α) (f : α → Eff σ ε β) (g : β → Eff σ ε γ) :
    x >>= f >>= g = x >>= fun a => f a >>= g := by
  cases hx : x.value with
  | ok a =>
    rw [bind_of_ok hx, bind_of_ok hx]
    cases hf : (f a).value with
    | ok c =>
      rw [bind_of_ok hf, bind_of_ok rfl, List.append_assoc]
    | error e =>
      rw [bind_of_error hf, bind_of_error rfl]
  | error e => rw [bind_of_error hx, bind_of_error hx, bind_of_error rfl]

/-- The same computation with other events; those without an image are left
out. -/
def Eff.mapLog {τ : Type} (f : σ → Option τ) (x : Eff σ ε α) : Eff τ ε α := ⟨x.log.filterMap f, x.value⟩

@[simp] theorem value_mapLog {τ : Type} (f : σ → Option τ) (x : Eff σ ε α) :
    (x.mapLog f).value = x.value := rfl

/-! ## Every event -/

def All (p : σ → Prop) (x : Eff σ ε α) : Prop := ∀ e ∈ x.log, p e

variable {p : σ → Prop}

@[simp] theorem all_pure (a : α) : All p (pure a : Eff σ ε α) := by simp [All]

@[simp] theorem all_raise (e : ε) : All p (raise e : Eff σ ε α) := by simp [All]

@[simp] theorem all_emit {e : σ} : All p (emit e : Eff σ ε Unit) ↔ p e := by simp [All]

theorem All.bind {x : Eff σ ε α} {f : α → Eff σ ε β} (hx : All p x)
    (hf : ∀ a, x.value = .ok a → All p (f a)) : All p (x >>= f) := by
  cases h : x.value with
  | ok a =>
    rw [bind_of_ok h]
    intro e he
    rcases List.mem_append.mp he with he | he
    · exact hx e he
    · exact hf a h e he
  | error e =>
    rw [bind_of_error h]
    exact hx

/-- The events of the first half are events of the whole. -/
theorem mem_log_bind_left {x : Eff σ ε α} {f : α → Eff σ ε β} {e : σ} (h : e ∈ x.log) :
    e ∈ (x >>= f).log := by
  cases hx : x.value with
  | ok a =>
    rw [bind_of_ok hx]
    exact List.mem_append_left _ h
  | error _ =>
    rw [bind_of_error hx]
    exact h

/-- Those of the second half are if it is reached. -/
theorem mem_log_bind_right {x : Eff σ ε α} {f : α → Eff σ ε β} {a : α} {e : σ} (hx : x.value = .ok a)
    (h : e ∈ (f a).log) : e ∈ (x >>= f).log := by
  rw [bind_of_ok hx]
  exact List.mem_append_right _ h

end Effect
