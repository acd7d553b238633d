/-
Byte-addressed memory and lists of writes to it.

A write stores a row of bytes from an address on. What is read at an address
after a list of writes is the last byte written there (`writes_eq`), so a list
of writes is cut down, address by address, to the bytes it writes
(`written`). `frame_iff` says that it leaves an address alone in every memory
exactly if none of the writes covers it.
-/
import Mathlib.Init

namespace Memory

/-- What is stored at each address. -/
abbrev Mem := Int → UInt8

structure Write where
  addr : Int
  bytes : List UInt8
  deriving DecidableEq, Repr

/-- The address is one of those written. -/
def Write.Covers (w : Write) (a : Int) : Prop := w.addr ≤ a ∧ a < w.addr + w.bytes.length

instance (w : Write) (a : Int) : Decidable (w.Covers a) := inferInstanceAs (Decidable (_ ∧ _))

/-- The byte the write stores at the address. -/
def Write.byteAt (w : Write) (a : Int) : Option UInt8 :=
  if w.Covers a then some (w.bytes.getD (a - w.addr).toNat 0) else none

def write (m : Mem) (w : Write) : Mem := fun a => (w.byteAt a).getD (m a)

/-- The writes in order, the first one first. -/
def writes (m : Mem) (l : List Write) : Mem := l.foldl write m

@[simp] theorem writes_cons (m : Mem) (w : Write) (l : List Write) :
    writes m (w :: l) = writes (write m w) l := rfl

theorem writes_append (m : Mem) (l l' : List Write) : writes m (l ++ l') = writes (writes m l) l' :=
  List.foldl_append

theorem write_of_not_covers (m : Mem) {w : Write} {a : Int} (h : ¬ w.Covers a) : write m w a = m a := by
  rw [write, Write.byteAt, if_neg h]
  rfl

/-- One byte. -/
theorem write_byte (m : Mem) (a : Int) (x : UInt8) (a' : Int) : write m ⟨a, [x]⟩ a' = if a' = a then x else m a' := by
  split
  · next h =>
    subst h
    simp [write, Write.byteAt, Write.Covers, Int.lt_succ]
  · next h =>
    refine write_of_not_covers m fun hcovers => h ?_
    simp only [Write.Covers, List.length_singleton] at hcovers
    omega

/-! ## The bytes written at an address -/

def written (l : List Write) (a : Int) : List UInt8 := l.filterMap (·.byteAt a)

@[simp] theorem written_append (l l' : List Write) (a : Int) :
    written (l ++ l') a = written l a ++ written l' a :=
  List.filterMap_append

theorem written_flatMap {α : Type} (l : List α) (f : α → List Write) (a : Int) :
    written (l.flatMap f) a = l.flatMap fun x => written (f x) a :=
  List.filterMap_flatMap

theorem byteAt_eq_none {w : Write} {a : Int} : w.byteAt a = none ↔ ¬ w.Covers a := by
  unfold Write.byteAt
  split <;> simp_all

/-- The bytes of a write, by their places in it. -/
theorem byteAt_offset (w : Write) {i : Nat} (h : i < w.bytes.length) :
    w.byteAt (w.addr + i) = some (w.bytes.getD i 0) := by
  have hcovers : w.Covers (w.addr + i) := ⟨by omega, by omega⟩
  have hoff : w.addr + (i : Int) - w.addr = i := by omega
  rw [Write.byteAt, if_pos hcovers, hoff, Int.toNat_natCast]

theorem written_singleton (w : Write) (a : Int) : written [w] a = (w.byteAt a).toList := by
  rw [written, List.filterMap_cons, List.filterMap_nil]
  cases w.byteAt a <;> rfl

theorem written_eq_nil {l : List Write} {a : Int} : written l a = [] ↔ ∀ w ∈ l, ¬ w.Covers a := by
  simp only [written, List.filterMap_eq_nil_iff, byteAt_eq_none]

/-- The last byte written is the one that is read. -/
theorem writes_eq (l : List Write) (m : Mem) (a : Int) :
    writes m l a = (written l a).getLastD (m a) := by
  induction l generalizing m with
  | nil => rfl
  | cons w l ih =>
    rw [writes_cons, ih]
    unfold written
    rw [List.filterMap_cons]
    cases h : w.byteAt a with
    | none => simp only [write, h, Option.getD_none]
    | some c => simp only [write, h, Option.getD_some, List.getLastD_cons]

theorem writes_frame {l : List Write} {a : Int} (m : Mem) (h : ∀ w ∈ l, ¬ w.Covers a) :
    writes m l a = m a := by
  rw [writes_eq, written_eq_nil.mpr h]
  rfl

/-- **Frame.** An address is left alone in every memory if and only if no
write covers it. -/
theorem frame_iff {l : List Write} {a : Int} :
    (∀ m : Mem, writes m l a = m a) ↔ ∀ w ∈ l, ¬ w.Covers a := by
  refine ⟨fun h => ?_, fun h m => writes_frame m h⟩
  rw [← written_eq_nil]
  cases hc : written l a with
  | nil => rfl
  | cons c cs =>
    -- a byte that is written replaces both a 0 and a 1
    have h0 := h fun _ => 0
    have h1 := h fun _ => 1
    rw [writes_eq, hc, List.getLastD_cons] at h0 h1
    exact absurd (h0.symm.trans h1) (by decide)

/-! ## Rows of bytes -/

/-- The bytes from an address on. -/
def read (m : Mem) (a : Int) (n : Nat) : List UInt8 := (List.range n).map fun i => m (a + (i : Nat))

@[simp] theorem length_read (m : Mem) (a : Int) (n : Nat) : (read m a n).length = n := by simp [read]

theorem read_add (m : Mem) (a : Int) (n k : Nat) : read m a (n + k) = read m a n ++ read m (a + (n : Nat)) k := by
  simp [read, List.range_add, Int.add_assoc, Function.comp_def]

theorem read_congr {m m' : Mem} {a : Int} {n : Nat} (h : ∀ i < n, m (a + (i : Nat)) = m' (a + (i : Nat))) :
    read m a n = read m' a n :=
  List.map_congr_left fun i hi => h i (List.mem_range.mp hi)

/-- A part of what was written is read. -/
theorem read_write (m : Mem) (a : Int) (bytes : List UInt8) {k n : Nat} (h : k + n ≤ bytes.length) :
    read (write m ⟨a, bytes⟩) (a + (k : Nat)) n = (bytes.drop k).take n := by
  refine List.ext_getElem (by simp; omega) fun i hi _ => ?_
  rw [length_read] at hi
  have hki : k + i < bytes.length := by omega
  have hbyte := byteAt_offset ⟨a, bytes⟩ hki
  dsimp only at hbyte
  rw [Int.natCast_add, ← Int.add_assoc] at hbyte
  simp [read, write, hbyte, hki]

theorem read_write_self (m : Mem) (a : Int) (bytes : List UInt8) : read (write m ⟨a, bytes⟩) a bytes.length = bytes := by
  have h := read_write m a bytes (k := 0) (n := bytes.length) (by omega)
  rwa [Int.natCast_zero, Int.add_zero, List.drop_zero, List.take_length] at h

/-- Elsewhere a write changes nothing. -/
theorem read_write_of_disjoint (m : Mem) {w : Write} {a : Int} {n : Nat}
    (h : w.addr + w.bytes.length ≤ a ∨ a + n ≤ w.addr) : read (write m w) a n = read m a n := by
  refine read_congr fun i hi => write_of_not_covers m fun hcovers => ?_
  unfold Write.Covers at hcovers
  omega

/-- Writes elsewhere leave a row of bytes as it is. -/
theorem read_writes_of_disjoint (m : Mem) {l : List Write} {a : Int} {n : Nat}
    (h : ∀ w ∈ l, w.addr + w.bytes.length ≤ a ∨ a + n ≤ w.addr) : read (writes m l) a n = read m a n :=
  read_congr fun i hi => writes_frame m fun w hw hcovers => by
    have := h w hw
    unfold Write.Covers at hcovers
    omega

/-- What was there before is not read in a row that one of the writes stores. -/
theorem read_writes_of_stored {l : List Write} {w : Write} (hw : w ∈ l) {a : Int} {n : Nat}
    (h : w.addr ≤ a ∧ a + n ≤ w.addr + w.bytes.length) (m m' : Mem) : read (writes m l) a n = read (writes m' l) a n := by
  refine read_congr fun i hi => ?_
  rw [writes_eq, writes_eq]
  cases hc : written l (a + (i : Nat)) with
  | nil => exact absurd ⟨by omega, by omega⟩ (written_eq_nil.mp hc w hw)
  | cons c cs => rw [List.getLastD_cons, List.getLastD_cons]

/-- The two writes have no address in common. -/
def Write.Disjoint (w w' : Write) : Prop := w.addr + w.bytes.length ≤ w'.addr ∨ w'.addr + w'.bytes.length ≤ w.addr

/-- Each of several fields is read back. -/
theorem read_writes_of_mem {l : List Write} (hl : l.Pairwise Write.Disjoint) {w : Write} (hw : w ∈ l) (m : Mem) :
    read (writes m l) w.addr w.bytes.length = w.bytes := by
  induction l generalizing m with
  | nil => cases hw
  | cons w' l ih =>
    obtain ⟨hfirst, hl⟩ := List.pairwise_cons.mp hl
    rw [writes_cons]
    rcases List.mem_cons.mp hw with rfl | hw
    · rw [read_writes_of_disjoint _ fun w' hw' => (hfirst w' hw').symm, read_write_self]
    · exact ih hl hw _

/-! ## Writes put together -/

theorem write_nil (m : Mem) (a : Int) : write m ⟨a, []⟩ = m := by
  funext x
  refine write_of_not_covers m ?_
  rintro ⟨hlow, hhigh⟩
  simp only [List.length_nil] at hlow hhigh
  omega

/-- Two writes in a row are one. -/
theorem write_append (m : Mem) (a : Int) (l l' : List UInt8) :
    write (write m ⟨a, l⟩) ⟨a + l.length, l'⟩ = write m ⟨a, l ++ l'⟩ := by
  funext x
  by_cases hx : a ≤ x ∧ x < a + l.length + l'.length
  · obtain ⟨i, rfl⟩ : ∃ i : Nat, x = a + i := ⟨(x - a).toNat, by omega⟩
    have hboth := byteAt_offset ⟨a, l ++ l'⟩ (i := i) (by rw [List.length_append]; omega)
    rw [write, write, write, hboth]
    by_cases hi : i < l.length
    · have hfirst := byteAt_offset ⟨a, l⟩ hi
      have hsecond : Write.byteAt ⟨a + l.length, l'⟩ (a + i) = none := by
        rw [byteAt_eq_none, Write.Covers]
        dsimp only
        omega
      dsimp only at hfirst ⊢
      rw [hfirst, hsecond, List.getD_eq_getElem?_getD, List.getD_eq_getElem?_getD, List.getElem?_append_left hi]
      rfl
    · have hsecond := byteAt_offset ⟨a + l.length, l'⟩ (i := i - l.length) (by dsimp only; omega)
      have hplace : a + (l.length : Int) + ((i - l.length : Nat) : Int) = a + i := by omega
      dsimp only at hsecond ⊢
      rw [hplace] at hsecond
      rw [hsecond, List.getD_eq_getElem?_getD, List.getD_eq_getElem?_getD, List.getElem?_append_right (by omega)]
      rfl
  · have hnone : ∀ (y : Int) (k : List UInt8), a ≤ y → y + k.length ≤ a + l.length + l'.length → ¬ Write.Covers ⟨y, k⟩ x := by
      intro y k hy hk
      rintro ⟨hlow, hhigh⟩
      dsimp only at hlow hhigh
      omega
    rw [write_of_not_covers _ (hnone _ _ (by omega) (by omega)), write_of_not_covers _ (hnone _ _ (by omega) (by omega)),
      write_of_not_covers _ (hnone _ _ (by omega) (by rw [List.length_append]; omega))]

/-- Writes to different places may change their order. -/
theorem write_comm (m : Mem) {w w' : Write} (h : w.Disjoint w') : write (write m w) w' = write (write m w') w := by
  funext x
  by_cases hx : w.Covers x
  · have hx' : ¬ w'.Covers x := by
      unfold Write.Disjoint at h
      unfold Write.Covers at hx ⊢
      omega
    rw [write_of_not_covers _ hx', write, write, write_of_not_covers _ hx']
  · rw [write_of_not_covers _ hx]
    show (w'.byteAt x).getD (write m w x) = (w'.byteAt x).getD (m x)
    rw [write_of_not_covers _ hx]

theorem writes_write_comm (m : Mem) {l : List Write} {w : Write} (h : ∀ w' ∈ l, w.Disjoint w') :
    writes (write m w) l = write (writes m l) w := by
  induction l generalizing m with
  | nil => rfl
  | cons w' l ih =>
    rw [writes_cons, writes_cons, write_comm m (h w' (List.mem_cons_self ..)), ih _ fun x hx => h x (List.mem_cons_of_mem _ hx)]

/-- A write moved elsewhere. -/
def Write.shift (d : Int) (w : Write) : Write := ⟨w.addr + d, w.bytes⟩

theorem byteAt_shift (w : Write) (a d : Int) : (w.shift d).byteAt (a + d) = w.byteAt a := by
  have hc : (w.shift d).Covers (a + d) ↔ w.Covers a := by
    simp only [Write.Covers, Write.shift]
    omega
  have ha : a + d - (w.shift d).addr = a - w.addr := by
    simp only [Write.shift]
    omega
  simp only [Write.byteAt, hc, ha]
  rfl

/-! ## What is left in every memory -/

/-- No byte of the row is written. -/
def Outside (l : List Write) (a : Int) (n : Nat) : Prop := ∀ w ∈ l, w.addr + w.bytes.length ≤ a ∨ a + n ≤ w.addr

theorem Outside.frame {l : List Write} {a x : Int} {n : Nat} (h : Outside l a n) (hlow : a ≤ x) (hhigh : x < a + n)
    (m : Mem) : writes m l x = m x := by
  refine writes_frame m fun w hw hcovers => ?_
  have := h w hw
  unfold Write.Covers at hcovers
  omega

theorem Outside.append {l l' : List Write} {a : Int} {n : Nat} (h : Outside l a n) (h' : Outside l' a n) :
    Outside (l ++ l') a n := List.forall_mem_append.mpr ⟨h, h'⟩

/-- A part of the row. -/
theorem Outside.mono {l : List Write} {a b : Int} {n k : Nat} (h : Outside l a n) (hlow : a ≤ b) (hhigh : b + k ≤ a + n) :
    Outside l b k := fun w hw => by
  have := h w hw
  omega

/-- The writes leave these bytes at an address, whatever was there before. -/
def Leaves (l : List Write) (a : Int) (bytes : List UInt8) : Prop :=
  ∀ m, read (writes m l) a bytes.length = bytes

theorem leaves_append_self (l : List Write) (a : Int) (bytes : List UInt8) : Leaves (l ++ [⟨a, bytes⟩]) a bytes := by
  intro m
  rw [writes_append]
  exact read_write_self _ a bytes

theorem leaves_append_iff {l l' : List Write} {a : Int} {bytes : List UInt8} (h : Outside l' a bytes.length) :
    Leaves (l ++ l') a bytes ↔ Leaves l a bytes := by
  refine forall_congr' fun m => ?_
  rw [writes_append, read_writes_of_disjoint _ h]

theorem Leaves.unique {l : List Write} {a : Int} {bytes bytes' : List UInt8} (h : Leaves l a bytes)
    (h' : Leaves l a bytes') (hlen : bytes.length = bytes'.length) : bytes = bytes' := by
  have hread := h fun _ => 0
  rw [hlen, h'] at hread
  exact hread.symm

/-- What is not written may be anything. -/
theorem not_leaves_of_outside {l : List Write} {a : Int} {bytes : List UInt8} (h : Outside l a bytes.length)
    (hne : bytes ≠ []) : ¬ Leaves l a bytes := by
  intro hleaves
  have hzero := hleaves fun _ => 0
  have hone := hleaves fun _ => 1
  rw [read_writes_of_disjoint _ h] at hzero hone
  have hpos : 0 < bytes.length := List.length_pos_iff.mpr hne
  have h0 : bytes[0]? = some 0 := by
    rw [← hzero]
    simp [read, hpos]
  have h1 : bytes[0]? = some 1 := by
    rw [← hone]
    simp [read, hpos]
  rw [h0] at h1
  exact absurd h1 (by decide)

end Memory
