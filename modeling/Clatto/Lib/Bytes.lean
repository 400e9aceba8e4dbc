import Mathlib.Data.List.Basic
import Mathlib.Data.List.Induction
import Mathlib.Tactic.Ring

/-! Byte strings as slices see them: big-endian reads and writes, sub-slices and
copies, once as total functions and once with the range check that a slice
expression makes before it touches memory. -/

namespace Clatto

abbrev Bytes := List UInt8

/-- The two ways a computation over slices can fail to return: an index or a
slice bound out of range, or a loop that makes no progress. -/
inductive Fault where
  | outOfRange
  | hang
  deriving DecidableEq, Repr

abbrev Checked := Except Fault

/-- A value that is only defined while its bounds check passes. -/
def inRange (bounds : Prop) [Decidable bounds] (value : α) : Checked α :=
  if bounds then .ok value else .error .outOfRange

theorem inRange_of {bounds : Prop} [Decidable bounds] (holds : bounds) (value : α) :
    inRange bounds value = .ok value := if_pos holds

theorem Checked.pure_eq (value : α) : (pure value : Checked α) = .ok value := rfl

theorem Checked.ok_bind (value : α) (next : α → Checked β) :
    (Except.ok value : Checked α) >>= next = next value := rfl

/-- Conversion to an unsigned integer of 16 bits. -/
def uint16 (value : Int) : Nat := (value % 65536).toNat

/-- Conversion to an unsigned integer of 32 bits. -/
def uint32 (value : Int) : Nat := (value % 4294967296).toNat

@[simp] theorem uint16_natCast (value : Nat) : uint16 value = value % 65536 := by
  unfold uint16
  omega

@[simp] theorem uint32_natCast (value : Nat) : uint32 value = value % 4294967296 := by
  unfold uint32
  omega

namespace Bytes

def byteAt (b : Bytes) (i : Nat) : UInt8 := b.getD i 0

def be16 (b : Bytes) (i : Nat) : Nat :=
  (byteAt b i).toNat * 256 + (byteAt b (i + 1)).toNat

def be32 (b : Bytes) (i : Nat) : Nat := be16 b i * 65536 + be16 b (i + 2)

/-- The number a whole byte string spells, most significant byte first. -/
def toNat (b : Bytes) : Nat := b.foldl (fun high byte => high * 256 + byte.toNat) 0

/-- The low `width` bytes of a number, most significant byte first. -/
def ofNat : (width : Nat) → Nat → Bytes
  | 0, _ => []
  | width + 1, value => ofNat width (value / 256) ++ [UInt8.ofNat value]

/-- The bytes from `lo` up to `hi`. -/
def sub (b : Bytes) (lo hi : Nat) : Bytes := (b.take hi).drop lo

def enc16 (value : Nat) : Bytes := [UInt8.ofNat (value / 256), UInt8.ofNat value]

def enc32 (value : Nat) : Bytes := enc16 (value / 65536) ++ enc16 value

/-- Overwrite the bytes from an offset on. Whatever does not fit is left out, so
the length never changes. -/
def splice : Bytes → Nat → Bytes → Bytes
  | [], _, _ => []
  | x :: b, n + 1, w => x :: splice b n w
  | x :: b, 0, [] => x :: b
  | _ :: b, 0, y :: w => y :: splice b 0 w

/-- Checked `b[i]`. -/
def index (b : Bytes) (i : Nat) : Checked UInt8 := inRange (i < b.length) (byteAt b i)

/-- Checked `b[lo:hi]`, held to the length rather than the capacity. -/
def slice (b : Bytes) (lo hi : Nat) : Checked Bytes :=
  inRange (lo ≤ hi ∧ hi ≤ b.length) (sub b lo hi)

/-- Checked `binary.BigEndian.Uint16(b[i:])`. -/
def uint16At (b : Bytes) (i : Nat) : Checked Nat := inRange (i + 2 ≤ b.length) (be16 b i)

/-- Checked `binary.BigEndian.Uint32(b[i:])`. -/
def uint32At (b : Bytes) (i : Nat) : Checked Nat := inRange (i + 4 ≤ b.length) (be32 b i)

/-- Checked `b[i] = value`. -/
def put8 (b : Bytes) (i : Nat) (value : UInt8) : Checked Bytes :=
  inRange (i + 1 ≤ b.length) (splice b i [value])

/-- Checked `binary.BigEndian.PutUint16(b[i:], value)`. -/
def put16 (b : Bytes) (i : Nat) (value : Nat) : Checked Bytes :=
  inRange (i + 2 ≤ b.length) (splice b i (enc16 value))

/-- Checked `binary.BigEndian.PutUint32(b[i:], value)`. -/
def put32 (b : Bytes) (i : Nat) (value : Nat) : Checked Bytes :=
  inRange (i + 4 ≤ b.length) (splice b i (enc32 value))

/-- Checked `copy(b[lo:hi], src)`: as many bytes as both sides have. -/
def copyTo (b : Bytes) (lo hi : Nat) (src : Bytes) : Checked Bytes :=
  inRange (lo ≤ hi ∧ hi ≤ b.length) (splice b lo (src.take (hi - lo)))

/-- Checked `copy(b[lo:], src)`. -/
def copyFrom (b : Bytes) (lo : Nat) (src : Bytes) : Checked Bytes := copyTo b lo b.length src

theorem byteAt_cons_zero (x : UInt8) (b : Bytes) : byteAt (x :: b) 0 = x := rfl

theorem byteAt_cons_succ (x : UInt8) (b : Bytes) (i : Nat) :
    byteAt (x :: b) (i + 1) = byteAt b i := by simp [byteAt]

theorem byteAt_append_left {a : Bytes} {i : Nat} (inside : i < a.length) (b : Bytes) :
    byteAt (a ++ b) i = byteAt a i := by
  simp [byteAt, List.getElem?_append_left inside]

theorem byteAt_append_right {a : Bytes} {i : Nat} (past : a.length ≤ i) (b : Bytes) :
    byteAt (a ++ b) i = byteAt b (i - a.length) := by
  simp [byteAt, List.getElem?_append_right past]

theorem be16_append_left {a : Bytes} {i : Nat} (inside : i + 1 < a.length) (b : Bytes) :
    be16 (a ++ b) i = be16 a i := by
  rw [be16, byteAt_append_left (by omega), byteAt_append_left inside]
  rfl

theorem be16_append_right {a : Bytes} {i : Nat} (past : a.length ≤ i) (b : Bytes) :
    be16 (a ++ b) i = be16 b (i - a.length) := by
  rw [be16, byteAt_append_right past, byteAt_append_right (by omega), Nat.sub_add_comm past]
  rfl

theorem be32_append_right {a : Bytes} {i : Nat} (past : a.length ≤ i) (b : Bytes) :
    be32 (a ++ b) i = be32 b (i - a.length) := by
  rw [be32, be16_append_right past, be16_append_right (by omega), Nat.sub_add_comm past]
  rfl

theorem byteAt_take {b : Bytes} {n i : Nat} (inside : i < n) : byteAt (b.take n) i = byteAt b i := by
  simp [byteAt, inside]

theorem byteAt_drop (b : Bytes) (n i : Nat) : byteAt (b.drop n) i = byteAt b (n + i) := by
  simp [byteAt]

theorem byteAt_sub {b : Bytes} {lo hi i : Nat} (inside : lo + i < hi) :
    byteAt (sub b lo hi) i = byteAt b (lo + i) := by
  rw [sub, byteAt_drop, byteAt_take inside]

theorem be16_sub {b : Bytes} {lo hi i : Nat} (inside : lo + i + 1 < hi) :
    be16 (sub b lo hi) i = be16 b (lo + i) := by
  rw [be16, byteAt_sub (by omega), byteAt_sub (by omega)]
  rfl

theorem be32_sub {b : Bytes} {lo hi i : Nat} (inside : lo + i + 3 < hi) :
    be32 (sub b lo hi) i = be32 b (lo + i) := by
  rw [be32, be16_sub (by omega), be16_sub (by omega)]
  rfl

theorem be16_lt (b : Bytes) (i : Nat) : be16 b i < 65536 := by
  have high := (byteAt b i).toNat_lt
  have low := (byteAt b (i + 1)).toNat_lt
  unfold be16
  omega

theorem length_sub (b : Bytes) (lo hi : Nat) : (sub b lo hi).length = min hi b.length - lo := by
  simp [sub]

theorem length_sub_of_le {b : Bytes} {hi : Nat} (inside : hi ≤ b.length) (lo : Nat) :
    (sub b lo hi).length = hi - lo := by
  rw [length_sub]
  omega

theorem sub_sub {b : Bytes} {lo hi i j : Nat} (inside : lo + j ≤ hi) :
    sub (sub b lo hi) i j = sub b (lo + i) (lo + j) := by
  simp only [sub, List.take_drop, List.take_take, List.drop_drop]
  congr 2
  omega

theorem sub_zero (b : Bytes) (hi : Nat) : sub b 0 hi = b.take hi := rfl

theorem sub_length (b : Bytes) (lo : Nat) : sub b lo b.length = b.drop lo := by
  simp [sub]

theorem sub_full (b : Bytes) : sub b 0 b.length = b := by simp [sub]

theorem sub_append_sub {b : Bytes} {lo mid hi : Nat} (first : lo ≤ mid) (second : mid ≤ hi) :
    sub b lo mid ++ sub b mid hi = sub b lo hi := by
  unfold sub
  have split : (b.take hi).drop lo =
      ((b.take hi).drop lo).take (mid - lo) ++ ((b.take hi).drop lo).drop (mid - lo) :=
    (List.take_append_drop _ _).symm
  rw [split, List.drop_drop, List.take_drop, List.take_take]
  congr 3 <;> omega

@[simp] theorem length_splice (b : Bytes) (lo : Nat) (w : Bytes) :
    (splice b lo w).length = b.length := by
  fun_induction splice b lo w with
  | case1 => rfl
  | case2 x b n w ih => simp [ih]
  | case3 => rfl
  | case4 x b y w ih => simp [ih]

@[simp] theorem length_enc16 (value : Nat) : (enc16 value).length = 2 := rfl

@[simp] theorem length_enc32 (value : Nat) : (enc32 value).length = 4 := rfl

@[simp] theorem length_ofNat (width value : Nat) : (ofNat width value).length = width := by
  induction width generalizing value with
  | zero => rfl
  | succ width ih => simp [ofNat, ih]

theorem splice_cons_succ (x : UInt8) (b : Bytes) (n : Nat) (w : Bytes) :
    splice (x :: b) (n + 1) w = x :: splice b n w := rfl

theorem splice_cons_zero (x y : UInt8) (b w : Bytes) :
    splice (x :: b) 0 (y :: w) = y :: splice b 0 w := rfl

theorem splice_nil (b : Bytes) (lo : Nat) : splice b lo [] = b := by
  induction b generalizing lo with
  | nil => rfl
  | cons x b ih =>
    cases lo with
    | zero => rfl
    | succ lo => simp [splice, ih]

theorem splice_append {a : Bytes} {lo : Nat} (past : a.length ≤ lo) (b w : Bytes) :
    splice (a ++ b) lo w = a ++ splice b (lo - a.length) w := by
  induction a generalizing lo with
  | nil => simp
  | cons x a ih =>
    cases lo with
    | zero => simp at past
    | succ lo =>
      rw [List.cons_append, splice_cons_succ, ih (by simpa using past)]
      simp

theorem splice_over {a w : Bytes} (same : w.length = a.length) (b : Bytes) :
    splice (a ++ b) 0 w = w ++ b := by
  induction a generalizing w with
  | nil =>
    have empty : w = [] := List.eq_nil_of_length_eq_zero same
    simp [empty, splice_nil]
  | cons x a ih =>
    cases w with
    | nil => simp at same
    | cons y w =>
      rw [List.cons_append, splice_cons_zero, ih (by simpa using same), List.cons_append]

theorem splice_eq {b w : Bytes} {lo : Nat} (fits : lo + w.length ≤ b.length) :
    splice b lo w = b.take lo ++ w ++ b.drop (lo + w.length) := by
  have parts : b = b.take lo ++ ((b.drop lo).take w.length ++ b.drop (lo + w.length)) := by
    rw [← List.drop_drop, List.take_append_drop, List.take_append_drop]
  have before : (b.take lo).length = lo := by simp; omega
  conv_lhs => rw [parts, splice_append (by omega), before, Nat.sub_self]
  rw [splice_over (by simp; omega), List.append_assoc]

theorem splice_all {b w : Bytes} (same : w.length = b.length) : splice b 0 w = w := by
  simpa using splice_over same []

theorem splice_front {b w : Bytes} (fits : w.length ≤ b.length) :
    splice b 0 w = w ++ b.drop w.length := by
  simpa using @splice_eq b w 0 (by omega)

theorem splice_append_left {a w : Bytes} {lo : Nat} (fits : lo + w.length ≤ a.length) (b : Bytes) :
    splice (a ++ b) lo w = splice a lo w ++ b := by
  rw [splice_eq (by simp; omega), splice_eq fits, List.take_append_of_le_length (by omega),
    List.drop_append_of_le_length fits]
  simp

/-- A write over a write of the same size leaves nothing of the first. -/
theorem splice_splice {v w : Bytes} (same : w.length = v.length) (b : Bytes) (lo : Nat) :
    splice (splice b lo v) lo w = splice b lo w := by
  fun_induction splice b lo v generalizing w with
  | case1 => rfl
  | case2 x b n v ih => rw [splice_cons_succ, splice_cons_succ, ih same]
  | case3 => rfl
  | case4 x b y v ih =>
    cases w with
    | nil => simp at same
    | cons z w => rw [splice_cons_zero, splice_cons_zero, ih (by simpa using same)]

theorem take_splice {n lo : Nat} (before : n ≤ lo) (b w : Bytes) :
    (splice b lo w).take n = b.take n := by
  fun_induction splice b lo w generalizing n with
  | case1 => rfl
  | case2 x b lo w ih =>
    cases n with
    | zero => rfl
    | succ n => rw [List.take_succ_cons, List.take_succ_cons, ih (by omega)]
  | case3 => rfl
  | case4 => simp [Nat.le_zero.mp before]

theorem window_split {b : Bytes} {lo hi : Nat} (ordered : lo ≤ hi) :
    b = b.take lo ++ (sub b lo hi ++ b.drop hi) := by
  rw [sub, ← List.append_assoc]
  have front : b.take lo = (b.take hi).take lo := by rw [List.take_take, Nat.min_eq_left ordered]
  rw [front, List.take_append_drop, List.take_append_drop]

theorem sub_window {a m z : Bytes} {lo hi : Nat} (before : a.length = lo)
    (width : lo + m.length = hi) : sub (a ++ (m ++ z)) lo hi = m := by
  subst before
  subst width
  simp [sub, List.take_append]

theorem sub_splice_inside {b w : Bytes} {lo hi i : Nat} (fits : lo + i + w.length ≤ hi)
    (bound : hi ≤ b.length) : sub (splice b (lo + i) w) lo hi = splice (sub b lo hi) i w := by
  have width : (sub b lo hi).length = hi - lo := length_sub_of_le bound lo
  have before : (b.take lo).length = lo := by simp; omega
  conv_lhs => rw [window_split (b := b) (show lo ≤ hi by omega)]
  rw [splice_append (by omega), before, Nat.add_sub_cancel_left, splice_append_left (by omega),
    sub_window before (by simp; omega)]

theorem sub_splice_outside {b w : Bytes} {lo hi start : Nat}
    (apart : hi ≤ start ∨ start + w.length ≤ lo) (fits : start + w.length ≤ b.length) :
    sub (splice b start w) lo hi = sub b lo hi := by
  rw [splice_eq fits]
  rcases apart with after | before
  · simp only [sub, List.append_assoc]
    rw [List.take_append_of_le_length (by simp; omega), List.take_take, Nat.min_eq_left after]
  · simp only [sub, List.drop_take]
    congr 1
    rw [List.append_assoc, List.drop_append, List.drop_append]
    simp only [List.length_take, List.drop_drop]
    have first : (b.take start).drop lo = [] := List.drop_eq_nil_of_le (by simp; omega)
    have second : w.drop (lo - min start b.length) = [] := List.drop_eq_nil_of_le (by omega)
    rw [first, second]
    simp only [List.nil_append]
    congr 1
    omega

theorem index_eq {b : Bytes} {i : Nat} (bound : i < b.length) : index b i = .ok (byteAt b i) :=
  inRange_of bound _

theorem slice_eq {b : Bytes} {lo hi : Nat} (ordered : lo ≤ hi) (bound : hi ≤ b.length) :
    slice b lo hi = .ok (sub b lo hi) := inRange_of ⟨ordered, bound⟩ _

theorem uint16At_eq {b : Bytes} {i : Nat} (bound : i + 2 ≤ b.length) :
    uint16At b i = .ok (be16 b i) := inRange_of bound _

theorem uint32At_eq {b : Bytes} {i : Nat} (bound : i + 4 ≤ b.length) :
    uint32At b i = .ok (be32 b i) := inRange_of bound _

theorem put8_eq {b : Bytes} {i : Nat} (bound : i + 1 ≤ b.length) (value : UInt8) :
    put8 b i value = .ok (splice b i [value]) := inRange_of bound _

theorem put16_eq {b : Bytes} {i : Nat} (bound : i + 2 ≤ b.length) (value : Nat) :
    put16 b i value = .ok (splice b i (enc16 value)) := inRange_of bound _

theorem put32_eq {b : Bytes} {i : Nat} (bound : i + 4 ≤ b.length) (value : Nat) :
    put32 b i value = .ok (splice b i (enc32 value)) := inRange_of bound _

theorem copyTo_eq {b src : Bytes} {lo hi : Nat} (width : lo + src.length = hi)
    (bound : hi ≤ b.length) : copyTo b lo hi src = .ok (splice b lo src) := by
  rw [copyTo, inRange_of ⟨by omega, bound⟩, List.take_of_length_le (by omega)]

theorem copyFrom_eq {b src : Bytes} {lo : Nat} (fits : lo + src.length ≤ b.length) :
    copyFrom b lo src = .ok (splice b lo src) := by
  rw [copyFrom, copyTo, inRange_of ⟨by omega, le_rfl⟩, List.take_of_length_le (by omega)]

theorem slice_window {a m z : Bytes} {lo hi : Nat} (before : a.length = lo)
    (width : lo + m.length = hi) : slice (a ++ (m ++ z)) lo hi = .ok m := by
  rw [slice_eq (by omega) (by simp; omega), sub_window before width]

theorem copyTo_window {a m w : Bytes} {lo hi : Nat} (before : a.length = lo)
    (width : lo + m.length = hi) (same : w.length = m.length) (z : Bytes) :
    copyTo (a ++ (m ++ z)) lo hi w = .ok (a ++ (w ++ z)) := by
  rw [copyTo_eq (by omega) (by simp; omega), splice_append (by omega), before, Nat.sub_self,
    splice_over same]

theorem slice_whole {a : Bytes} {n : Nat} (width : a.length = n) : slice a 0 n = .ok a := by
  rw [slice_eq (by omega) (by omega), ← width, sub_full]

theorem slice_front {m z : Bytes} {hi : Nat} (width : m.length = hi) :
    slice (m ++ z) 0 hi = .ok m :=
  slice_window (a := []) rfl (by simpa using width)

theorem slice_back {a m : Bytes} {lo hi : Nat} (before : a.length = lo)
    (width : lo + m.length = hi) : slice (a ++ m) lo hi = .ok m := by
  simpa using slice_window (z := []) before width

theorem copyTo_front {m w : Bytes} {hi : Nat} (width : m.length = hi)
    (same : w.length = m.length) (z : Bytes) : copyTo (m ++ z) 0 hi w = .ok (w ++ z) :=
  copyTo_window (a := []) rfl (by simpa using width) same z

/-- A long enough string has two windows of given sizes at its front. -/
theorem exists_windows {b : Bytes} {n m : Nat} (long : n + m ≤ b.length) :
    ∃ x y z, b = x ++ (y ++ z) ∧ x.length = n ∧ y.length = m ∧ n + m + z.length = b.length :=
  ⟨b.take n, sub b n (n + m), b.drop (n + m), window_split (by omega), by simp; omega,
    by rw [length_sub]; omega, by simp; omega⟩

theorem copyFrom_window {a m w : Bytes} {lo : Nat} (before : a.length = lo)
    (same : w.length = m.length) : copyFrom (a ++ m) lo w = .ok (a ++ w) := by
  rw [copyFrom_eq (by simp; omega), splice_append (by omega), before, Nat.sub_self,
    splice_all same]

theorem copyFrom_pair {a m v w : Bytes} {lo : Nat} (before : a.length = lo)
    (same : v.length + w.length = m.length) :
    (copyFrom (a ++ m) lo v >>= fun b => copyFrom b (lo + v.length) w) =
      .ok (a ++ (v ++ w)) := by
  rw [copyFrom_eq (by simp; omega), Checked.ok_bind, splice_append (by omega), before,
    Nat.sub_self, splice_front (by omega), ← List.append_assoc,
    copyFrom_window (by simp [before]) (by simp; omega), List.append_assoc]

theorem enc16_mod (value : Nat) : enc16 (value % 65536) = enc16 value := by
  simp only [enc16, List.cons.injEq, and_true]
  constructor
  · apply UInt8.toNat_inj.mp
    simp only [UInt8.toNat_ofNat']
    omega
  · apply UInt8.toNat_inj.mp
    simp only [UInt8.toNat_ofNat']
    omega

theorem be16_enc16 (value : Nat) (z : Bytes) : be16 (enc16 value ++ z) 0 = value % 65536 := by
  show (UInt8.ofNat (value / 256)).toNat * 256 + (UInt8.ofNat value).toNat = value % 65536
  simp only [UInt8.toNat_ofNat']
  omega

theorem be32_enc32 (value : Nat) (z : Bytes) : be32 (enc32 value ++ z) 0 = value % 4294967296 := by
  have high := be16_enc16 (value / 65536) (enc16 value ++ z)
  have low : be16 (enc32 value ++ z) 2 = value % 65536 := be16_enc16 value z
  rw [be32, low, enc32, List.append_assoc, high]
  omega

theorem be16_splice {b : Bytes} {i : Nat} (inside : i + 2 ≤ b.length) (value : Nat) :
    be16 (splice b i (enc16 value)) i = value % 65536 := by
  have front : (b.take i).length = i := by simp; omega
  rw [splice_eq (by simpa using inside), List.append_assoc, be16_append_right (by omega), front,
    Nat.sub_self, be16_enc16]

theorem enc16_be16 {b : Bytes} {i : Nat} (inside : i + 2 ≤ b.length) :
    enc16 (be16 b i) = sub b i (i + 2) := by
  have width : (sub b i (i + 2)).length = 2 := by rw [length_sub_of_le inside]; omega
  obtain ⟨high, low, parts⟩ := List.length_eq_two.mp width
  have first : byteAt (sub b i (i + 2)) 0 = byteAt b i := byteAt_sub (by omega)
  have second : byteAt (sub b i (i + 2)) 1 = byteAt b (i + 1) := byteAt_sub (by omega)
  rw [parts] at first second ⊢
  have := high.toNat_lt
  have := low.toNat_lt
  rw [be16, ← first, ← second, enc16]
  simp only [byteAt, List.getD_cons_zero, List.getD_cons_succ, List.cons.injEq, and_true]
  refine ⟨UInt8.toNat_inj.mp ?_, UInt8.toNat_inj.mp ?_⟩
  · rw [UInt8.toNat_ofNat']
    omega
  · rw [UInt8.toNat_ofNat']
    omega

theorem splice_be16 {b : Bytes} {i : Nat} (inside : i + 2 ≤ b.length) :
    splice b i (enc16 (be16 b i)) = b := by
  rw [splice_eq (by simpa using inside), enc16_be16 inside, length_sub_of_le inside,
    Nat.add_sub_cancel_left, List.append_assoc]
  exact (window_split (by omega)).symm

theorem byteAt_splice_outside {b w : Bytes} {i j : Nat} (fits : i + w.length ≤ b.length)
    (apart : j < i ∨ i + w.length ≤ j) : byteAt (splice b i w) j = byteAt b j := by
  have window : sub (splice b i w) j (j + 1) = sub b j (j + 1) :=
    sub_splice_outside (by omega) fits
  have before : byteAt (sub (splice b i w) j (j + 1)) 0 = byteAt (splice b i w) j :=
    byteAt_sub (by omega)
  have after : byteAt (sub b j (j + 1)) 0 = byteAt b j := byteAt_sub (by omega)
  rw [← before, ← after, window]

theorem toNat_append_singleton (b : Bytes) (x : UInt8) : toNat (b ++ [x]) = toNat b * 256 + x.toNat := by
  simp [toNat]

theorem toNat_lt (b : Bytes) : toNat b < 256 ^ b.length := by
  induction b using List.reverseRecOn with
  | nil => simp [toNat]
  | append_singleton b x ih =>
    have := x.toNat_lt
    rw [toNat_append_singleton, List.length_append, List.length_singleton, Nat.pow_succ]
    omega

theorem ofNat_toNat {b : Bytes} {width : Nat} (same : b.length = width) :
    ofNat width (toNat b) = b := by
  induction b using List.reverseRecOn generalizing width with
  | nil => subst same; rfl
  | append_singleton b x ih =>
    obtain rfl : width = b.length + 1 := by rw [← same]; simp
    have := x.toNat_lt
    rw [toNat_append_singleton, ofNat]
    have upper : (toNat b * 256 + x.toNat) / 256 = toNat b := by omega
    have lower : UInt8.ofNat (toNat b * 256 + x.toNat) = x := by
      rw [← UInt8.toNat_inj, UInt8.toNat_ofNat']
      omega
    rw [upper, lower, ih rfl]

theorem toNat_ofNat (width value : Nat) : toNat (ofNat width value) = value % 256 ^ width := by
  induction width generalizing value with
  | zero => simp [ofNat, toNat, Nat.mod_one]
  | succ width ih =>
    have split : 256 ^ (width + 1) = 256 * 256 ^ width := Nat.pow_succ'
    rw [ofNat, toNat_append_singleton, ih, UInt8.toNat_ofNat', split, Nat.mod_mul]
    omega

theorem toNat_append (a b : Bytes) : toNat (a ++ b) = toNat a * 256 ^ b.length + toNat b := by
  induction b using List.reverseRecOn with
  | nil => simp [toNat]
  | append_singleton b x ih =>
    rw [← List.append_assoc, toNat_append_singleton, toNat_append_singleton, ih,
      List.length_append, List.length_singleton, Nat.pow_succ]
    ring

theorem toNat_take (b : Bytes) (n : Nat) : toNat (b.take n) = toNat b / 256 ^ (b.length - n) := by
  have whole := toNat_append (b.take n) (b.drop n)
  have low := toNat_lt (b.drop n)
  rw [List.take_append_drop] at whole
  rw [List.length_drop] at whole low
  rw [whole, Nat.mul_comm, Nat.mul_add_div (Nat.pow_pos (by decide)), Nat.div_eq_of_lt low,
    Nat.add_zero]

theorem toNat_inj {a b : Bytes} (length : a.length = b.length) (same : toNat a = toNat b) :
    a = b := by
  rw [← ofNat_toNat length, same, ofNat_toNat rfl]

theorem exists_prefix (n : Nat) (b : Bytes) (long : n ≤ b.length) :
    ∃ f rest, b = (List.range n).map f ++ rest ∧ rest.length = b.length - n := by
  refine ⟨byteAt b, b.drop n, ?_, by simp⟩
  conv_lhs => rw [← List.take_append_drop n b]
  congr 1
  apply List.ext_getElem
  · simp [long]
  · intro i first second
    have bound : i < b.length := by simp at first; omega
    simp [byteAt, bound]

end Bytes

end Clatto
