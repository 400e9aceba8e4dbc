import Clatto.Lib.Bytes

/-! One's complement sums of 16-bit words. A sum is known by its residue modulo
65535 and by whether it is zero at all, which is what end-around carry keeps. -/

namespace Clatto.Ones

open Bytes

/-- A sum folded into 16 bits with end-around carry. Zero stays zero and every
other sum becomes its representative in `1 .. 65535`. -/
def carry (n : Nat) : Nat := if n = 0 then 0 else (n - 1) % 65535 + 1

theorem carry_eq_iff {m n : Nat} :
    carry m = carry n ↔ m % 65535 = n % 65535 ∧ (m = 0 ↔ n = 0) := by
  unfold carry
  split <;> split <;> omega

theorem carry_mod (n : Nat) : carry n % 65535 = n % 65535 := by
  unfold carry
  split <;> omega

@[simp] theorem carry_eq_zero {n : Nat} : carry n = 0 ↔ n = 0 := by
  unfold carry
  split <;> omega

theorem carry_le (n : Nat) : carry n ≤ 65535 := by
  unfold carry
  split <;> omega

theorem carry_of_le {n : Nat} (small : n ≤ 65535) : carry n = n := by
  unfold carry
  split <;> omega

/-- The all-ones word stands for a sum that vanishes without being empty. -/
theorem carry_eq_full {n : Nat} : carry n = 65535 ↔ n ≠ 0 ∧ n % 65535 = 0 := by
  unfold carry
  split <;> omega

theorem carry_add_congr {m n : Nat} (same : carry m = carry n) (k : Nat) :
    carry (m + k) = carry (n + k) := by
  rw [carry_eq_iff] at same ⊢
  omega

theorem carry_halve16 (n : Nat) : carry (n / 2 ^ 16 + n % 2 ^ 16) = carry n := by
  rw [carry_eq_iff]
  omega

theorem carry_halve32 (n : Nat) : carry (n / 2 ^ 32 + n % 2 ^ 32) = carry n := by
  rw [carry_eq_iff]
  omega

/-- The sum of the big-endian 16-bit words of a byte string; an odd last byte is
the high half of a word. -/
def wordSum : Bytes → Nat
  | high :: low :: rest => high.toNat * 256 + low.toNat + wordSum rest
  | [high] => high.toNat * 256
  | [] => 0

/-- RFC 1071: a word is added, and a carry out of 16 bits is added at the other end. -/
def addWord (sum word : Nat) : Nat := (sum + word) % 65536 + (sum + word) / 65536

/-- Add the big-endian 16-bit words of a byte string one at a time; an odd last byte is the
high half of a word. -/
def addWords : Bytes → Nat → Nat
  | high :: low :: rest, sum => addWords rest (addWord sum (high.toNat * 256 + low.toNat))
  | [high], sum => addWord sum (high.toNat * 256)
  | [], sum => sum

theorem addWord_eq {sum word : Nat} (small : sum ≤ 65535) (word_le : word ≤ 65535) :
    addWord sum word = carry (sum + word) := by
  rw [addWord, carry]
  split <;> omega

/-- Carrying after each word comes to the same as carrying at the end. -/
theorem addWords_eq {b : Bytes} {sum : Nat} (small : sum ≤ 65535) :
    addWords b sum = carry (sum + wordSum b) := by
  fun_induction addWords b sum with
  | case1 high low rest sum ih =>
    have := high.toNat_lt
    have := low.toNat_lt
    have step := addWord_eq small (show high.toNat * 256 + low.toNat ≤ 65535 by omega)
    have again : carry (carry (sum + (high.toNat * 256 + low.toNat))) =
        carry (sum + (high.toNat * 256 + low.toNat)) := carry_of_le (carry_le _)
    rw [ih (by rw [step]; exact carry_le _), step, carry_add_congr again, wordSum, Nat.add_assoc]
  | case2 high sum =>
    have := high.toNat_lt
    exact addWord_eq small (by omega)
  | case3 sum => exact (carry_of_le small).symm

theorem wordSum_append {a : Bytes} (even : a.length % 2 = 0) (b : Bytes) :
    wordSum (a ++ b) = wordSum a + wordSum b := by
  fun_induction wordSum a with
  | case1 high low rest ih =>
    have rest_even : rest.length % 2 = 0 := by
      simp only [List.length_cons] at even
      omega
    rw [List.cons_append, List.cons_append, wordSum, ih rest_even]
    omega
  | case2 high => simp at even
  | case3 => simp

theorem wordSum_eq_zero : ∀ {b : Bytes}, wordSum b = 0 ↔ ∀ x ∈ b, x = 0
  | [] => by simp [wordSum]
  | [high] => by
    have := UInt8.toNat_inj (a := high) (b := 0)
    simp [wordSum] at *
    exact this
  | high :: low :: rest => by
    have first := UInt8.toNat_inj (a := high) (b := 0)
    have second := UInt8.toNat_inj (a := low) (b := 0)
    have more := wordSum_eq_zero (b := rest)
    simp [wordSum] at *
    rw [first, second, more, and_assoc]

theorem wordSum_le (b : Bytes) : wordSum b ≤ b.length * 65535 := by
  fun_induction wordSum b with
  | case1 high low rest ih =>
    have := high.toNat_lt
    have := low.toNat_lt
    simp only [List.length_cons]
    omega
  | case2 high =>
    have := high.toNat_lt
    simp only [List.length_cons]
    omega
  | case3 => simp

theorem wordSum_enc16 {value : Nat} (small : value < 65536) : wordSum (enc16 value) = value := by
  simp only [enc16, wordSum, UInt8.toNat_ofNat']
  omega

theorem be16_eq_wordSum {b : Bytes} {i : Nat} (inside : i + 2 ≤ b.length) :
    be16 b i = wordSum (sub b i (i + 2)) := by
  have width : (sub b i (i + 2)).length = 2 := by rw [length_sub_of_le inside]; omega
  obtain ⟨high, low, parts⟩ := List.length_eq_two.mp width
  have first : byteAt (sub b i (i + 2)) 0 = byteAt b i := byteAt_sub (by omega)
  have second : byteAt (sub b i (i + 2)) 1 = byteAt b (i + 1) := byteAt_sub (by omega)
  rw [be16, ← first, ← second, parts]
  simp [byteAt, wordSum]

/-- Replacing a word at an even offset replaces its share of the sum. -/
theorem wordSum_splice {b : Bytes} {i value : Nat} (even : i % 2 = 0)
    (inside : i + 2 ≤ b.length) (small : value < 65536) :
    wordSum (splice b i (enc16 value)) + be16 b i = wordSum b + value := by
  have front : (b.take i).length % 2 = 0 := by simp; omega
  have middle : (sub b i (i + 2)).length % 2 = 0 := by rw [length_sub_of_le inside]; omega
  have before : wordSum b =
      wordSum (b.take i) + (wordSum (sub b i (i + 2)) + wordSum (b.drop (i + 2))) := by
    conv_lhs => rw [window_split (b := b) (show i ≤ i + 2 by omega)]
    rw [wordSum_append front, wordSum_append middle]
  have after : wordSum (splice b i (enc16 value)) =
      wordSum (b.take i) + (value + wordSum (b.drop (i + 2))) := by
    rw [splice_eq (by simpa using inside), List.append_assoc, wordSum_append front,
      wordSum_append (by simp), wordSum_enc16 small]
    rfl
  rw [before, after, be16_eq_wordSum inside]
  omega

end Clatto.Ones
