/-
The handle registry that keeps native objects alive for the other side of the
bridge, and the threads that use it at the same time.

A step is one access to shared memory: a read of `closed`, an atomic operation
on a counter, an assignment of a fast slot, or a call on a segment, which holds
the segment's lock. What a thread has between two of its steps is its `Call`.
-/
import DocumentDbOdbc.Lib.Run
import DocumentDbOdbc.Lib.SortedMap

namespace DocumentDbOdbc

namespace Handles

/-- `SharedPointer<void>`; `none` is the pointer to nothing. -/
abbrev Pointer (τ : Type) := Option τ

variable {τ : Type}

/-- `HandleRegistrySegment`. -/
structure HandleRegistrySegment (τ : Type) where
  map : SortedMap Int (Pointer τ) := .empty

namespace HandleRegistrySegment

variable (segment : HandleRegistrySegment τ) (hnd hnd' : Int) (entry : Pointer τ)

def get : Pointer τ := (segment.map.find hnd).getD none

def put : HandleRegistrySegment τ := ⟨segment.map.upsert hnd fun _ => entry⟩

def remove : HandleRegistrySegment τ := ⟨segment.map.erase hnd⟩

def clear (_ : HandleRegistrySegment τ) : HandleRegistrySegment τ := ⟨.empty⟩

theorem get_put : (segment.put hnd entry).get hnd' = if hnd' = hnd then entry else segment.get hnd' := by
  unfold get put
  split
  · next h =>
    subst h
    rw [SortedMap.find_upsert_self]
    rfl
  · next h => rw [SortedMap.find_upsert_of_ne _ _ h]

theorem get_remove : (segment.remove hnd).get hnd' = if hnd' = hnd then none else segment.get hnd' := by
  unfold get remove
  rw [SortedMap.find_erase]
  split <;> rfl

theorem get_clear : segment.clear.get hnd = none := rfl

end HandleRegistrySegment

/-- `Atomics::IncrementAndGet32` and its 64-bit sibling: the new value of the
counter. -/
def incrementAndGet (bits : Nat) (ctr : Int) : Int := (ctr + 1).bmod (2 ^ bits)

theorem incrementAndGet_eq {bits : Nat} {ctr : Int} (h : 0 ≤ ctr) (hfit : ctr + 1 < 2 ^ bits) :
    incrementAndGet (bits + 1) ctr = ctr + 1 := by
  have hpow : (2 : Int) ^ (bits + 1) = 2 * 2 ^ bits := Int.pow_succ' 2 bits
  refine Int.bmod_eq_of_le (by push_cast; omega) (by push_cast; omega)

structure HandleRegistry (τ : Type) where
  fastCap : Int
  fastCtr : Int
  fast : List (Pointer τ)
  slowSegmentCnt : Int
  slowCtr : Int
  slow : List (HandleRegistrySegment τ)
  closed : Bool

namespace HandleRegistry

/-- The constructor. -/
def create (fastCap slowSegmentCnt : Nat) : HandleRegistry τ where
  fastCap := fastCap
  fastCtr := 0
  fast := List.replicate fastCap none
  slowSegmentCnt := slowSegmentCnt
  slowCtr := fastCap
  slow := List.replicate slowSegmentCnt {}
  closed := false

variable (r : HandleRegistry τ) (hnd : Int) (target : Pointer τ)

/-- `hnd % slowSegmentCnt`, the segment of a handle. -/
def segmentIdx : Nat := (hnd.tmod r.slowSegmentCnt).toNat

def setFast (idx : Int) : HandleRegistry τ := { r with fast := r.fast.set idx.toNat target }

def putSlow : HandleRegistry τ := { r with slow := r.slow.modify (r.segmentIdx hnd) (·.put hnd target) }

def removeSlow : HandleRegistry τ := { r with slow := r.slow.modify (r.segmentIdx hnd) (·.remove hnd) }

def clearSegment (i : Nat) : HandleRegistry τ := { r with slow := r.slow.modify i (·.clear) }

/-- `Release`. -/
def release : HandleRegistry τ :=
  if hnd < 0 then r
  else if hnd < r.fastCap then r.setFast none hnd
  else r.removeSlow hnd

/-- `Get`; `none` is an access outside of the array. -/
def get : Option (Pointer τ) :=
  if hnd < r.fastCap then
    if 0 ≤ hnd then r.fast[hnd.toNat]? else none
  else (r.slow[r.segmentIdx hnd]?).map (·.get hnd)

end HandleRegistry

/-- What a thread asks of the registry: one of the four `Allocate…`, `Release`,
`Get` or `Close`. -/
inductive Request (τ : Type) where
  | allocate (target : Pointer τ) (critical safe : Bool)
  | release (hnd : Int)
  | get (hnd : Int)
  | close

/-- Where a thread stands in its call. -/
inductive Call (τ : Type) where
  | idle
  | allocate (target : Pointer τ) (critical safe : Bool)
  /-- Before `fastCtr < fastCap`. -/
  | fastCheck (target : Pointer τ) (safe : Bool)
  | fastTake (target : Pointer τ) (safe : Bool)
  | fastStore (target : Pointer τ) (safe : Bool) (fastIdx : Int)
  /-- Before the second look at `closed`. -/
  | fastRecheck (target : Pointer τ) (safe : Bool) (fastIdx : Int)
  | fastUndo (target : Pointer τ) (fastIdx : Int)
  | slowTake (target : Pointer τ) (safe : Bool)
  | slowStore (target : Pointer τ) (safe : Bool) (slowIdx : Int)
  | slowRecheck (target : Pointer τ) (safe : Bool) (slowIdx : Int)
  | slowUndo (target : Pointer τ) (slowIdx : Int)
  | release (hnd : Int)
  | get (hnd : Int)
  | close
  | sweepFast (i : Nat)
  | sweepSlow (i : Nat)

def Request.start : Request τ → Call τ
  | .allocate target critical safe => .allocate target critical safe
  | .release hnd => .release hnd
  | .get hnd => .get hnd
  | .close => .close

/-- What an observer sees of a step. -/
inductive Event (τ : Type) where
  | call (request : Request τ)
  /-- A step inside a call. -/
  | internal
  /-- `Allocate0` returns. -/
  | allocated (target : Pointer τ) (hnd : Int)
  | released (hnd : Int)
  | got (hnd : Int) (res : Option (Pointer τ))
  /-- The handle registry was open and a `Close` is the one that closed it. -/
  | closed
  /-- A `Close` returns, after its sweep or at once. -/
  | swept
  | alreadyClosed

/-- The next step of a call: what it makes of the registry, where the thread
stands after it, and what is seen of it. -/
def advance (r : HandleRegistry τ) : Call τ → HandleRegistry τ × Call τ × Event τ
  | .idle => (r, .idle, .internal)
  | .allocate target critical safe =>
    if r.closed then (r, .idle, .allocated target (-1))
    else if critical then (r, .fastCheck target safe, .internal)
    else (r, .slowTake target safe, .internal)
  | .fastCheck target safe =>
    if r.fastCtr < r.fastCap then (r, .fastTake target safe, .internal) else (r, .slowTake target safe, .internal)
  | .fastTake target safe =>
    let ctr := incrementAndGet 32 r.fastCtr
    let fastIdx := ctr - 1
    if fastIdx < r.fastCap then ({ r with fastCtr := ctr }, .fastStore target safe fastIdx, .internal)
    else ({ r with fastCtr := ctr }, .slowTake target safe, .internal)
  | .fastStore target safe fastIdx => (r.setFast target fastIdx, .fastRecheck target safe fastIdx, .internal)
  | .fastRecheck target safe fastIdx =>
    if safe && r.closed then (r, .fastUndo target fastIdx, .internal) else (r, .idle, .allocated target fastIdx)
  | .fastUndo target fastIdx => (r.setFast none fastIdx, .idle, .allocated target (-1))
  | .slowTake target safe =>
    let ctr := incrementAndGet 64 r.slowCtr
    ({ r with slowCtr := ctr }, .slowStore target safe (ctr - 1), .internal)
  | .slowStore target safe slowIdx => (r.putSlow slowIdx target, .slowRecheck target safe slowIdx, .internal)
  | .slowRecheck target safe slowIdx =>
    if safe && r.closed then (r, .slowUndo target slowIdx, .internal) else (r, .idle, .allocated target slowIdx)
  | .slowUndo target slowIdx => (r.removeSlow slowIdx, .idle, .allocated target (-1))
  | .release hnd => (r.release hnd, .idle, .released hnd)
  | .get hnd => (r, .idle, .got hnd (r.get hnd))
  | .close => if r.closed then (r, .idle, .alreadyClosed) else ({ r with closed := true }, .sweepFast 0, .closed)
  | .sweepFast i =>
    if i < r.fastCap then (r.setFast none i, .sweepFast (i + 1), .internal) else (r, .sweepSlow 0, .internal)
  | .sweepSlow i =>
    if i < r.slowSegmentCnt then (r.clearSegment i, .sweepSlow (i + 1), .internal) else (r, .idle, .swept)

/-- The registry and the threads. -/
structure State (ι τ : Type) where
  registry : HandleRegistry τ
  calls : ι → Call τ

variable {ι : Type} [DecidableEq ι]

/-- A thread begins a call, or makes the next step of the one it is in. -/
inductive Step : State ι τ → Event τ → State ι τ → Prop
  | call {s : State ι τ} (i : ι) (request : Request τ) (h : s.calls i = .idle) :
      Step s (.call request) { s with calls := Function.update s.calls i request.start }
  | advance {s : State ι τ} (i : ι) (h : s.calls i ≠ .idle) :
      Step s (advance s.registry (s.calls i)).2.2
        ⟨(advance s.registry (s.calls i)).1, Function.update s.calls i (advance s.registry (s.calls i)).2.1⟩

/-- A registry that was just made; no thread uses it. -/
def initial (ι : Type) (fastCap slowSegmentCnt : Nat) : State ι τ := ⟨.create fastCap slowSegmentCnt, fun _ => .idle⟩

end Handles

end DocumentDbOdbc
