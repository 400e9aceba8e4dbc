import Clatto.Netip.TextFacts

/-! Decimal numbers, and IPv4 addresses in dotted notation: what is printed is read back. -/

namespace Clatto.Netip

theorem digitChar_isDigit {d : Nat} (digit : d < 10) : d.digitChar.isDigit = true := by
  revert d
  decide

theorem digitChar_value {d : Nat} (digit : d < 10) : d.digitChar.toNat - '0'.toNat = d := by
  revert d
  decide

theorem isDigit_of_mem_toDigits {n : Nat} {c : Char} (member : c ∈ Nat.toDigits 10 n) :
    c.isDigit = true := by
  induction n using Nat.strongRecOn with
  | ind n ih =>
    by_cases small : n < 10
    · rw [Nat.toDigits_of_lt_base small, List.mem_singleton] at member
      rw [member]
      exact digitChar_isDigit small
    · rw [Nat.toDigits_of_base_le (by decide) (by omega)] at member
      rcases List.mem_append.mp member with high | low
      · exact ih _ (by omega) high
      · rw [List.mem_singleton.mp low]
        exact digitChar_isDigit (Nat.mod_lt _ (by decide))

theorem digits_append {l : List Char} (digit : ∀ c ∈ l, c.isDigit = true) (rest : List Char)
    (n : Nat) :
    digits (l ++ rest) n = digits rest (l.foldl (fun n c => n * 10 + (c.toNat - '0'.toNat)) n) := by
  induction l generalizing n with
  | nil => rfl
  | cons c l ih =>
    rw [List.cons_append, digits, if_pos (digit c List.mem_cons_self),
      ih fun d member => digit d (List.mem_cons_of_mem _ member)]
    rfl

theorem foldl_decimal (n : Nat) :
    (Nat.toDigits 10 n).foldl (fun n c => n * 10 + (c.toNat - '0'.toNat)) 0 = n := by
  induction n using Nat.strongRecOn with
  | ind n ih =>
    by_cases small : n < 10
    · rw [Nat.toDigits_of_lt_base small, List.foldl_cons, List.foldl_nil, digitChar_value small]
      omega
    · rw [Nat.toDigits_of_base_le (by decide) (by omega), List.foldl_append, ih _ (by omega),
        List.foldl_cons, List.foldl_nil, digitChar_value (Nat.mod_lt _ (by decide))]
      omega

theorem digits_toDigits (n : Nat) : digits (Nat.toDigits 10 n) 0 = some n := by
  have read := digits_append (fun _ => isDigit_of_mem_toDigits) [] 0 (l := Nat.toDigits 10 n)
  rwa [List.append_nil, foldl_decimal] at read

theorem parseInt_toDigits {n bitSize : Nat} (fits : n < 2 ^ (bitSize - 1)) :
    parseInt (Nat.toDigits 10 n) bitSize = some (n : Int) := by
  have nonempty : Nat.toDigits 10 n ≠ [] := Nat.toDigits_ne_nil
  have small : n < 2 ^ bitSize := lt_of_lt_of_le fits (Nat.pow_le_pow_right (by decide) (by omega))
  have plain (c : Char) (rest : List Char) (same : Nat.toDigits 10 n = c :: rest) :
      c ≠ '-' ∧ c ≠ '+' := by
    have digit := isDigit_of_mem_toDigits (same ▸ List.mem_cons_self : c ∈ Nat.toDigits 10 n)
    constructor
    · rintro rfl
      revert digit
      decide
    · rintro rfl
      revert digit
      decide
  rw [parseInt]
  · dsimp only
    rw [parseUint, if_neg nonempty, digits_toDigits]
    simp [small, fits]
  · exact fun rest same => (plain _ _ same).1 rfl
  · exact fun rest same => (plain _ _ same).2 rfl

theorem ipv4Fields_digit {d val k : Nat} {rest : List Char} {done : List Nat} (digit : d < 10)
    (leading : ¬ (k = 1 ∧ val = 0)) (fits : val * 10 + d ≤ 255) :
    ipv4Fields (d.digitChar :: rest) val k done = ipv4Fields rest (val * 10 + d) (k + 1) done := by
  rw [ipv4Fields, if_pos (digitChar_isDigit digit), if_neg leading]
  dsimp only
  rw [digitChar_value digit, if_neg (by omega)]

theorem toDigits_octet {n : Nat} (octet : n < 256) : Nat.toDigits 10 n =
    if n < 10 then [n.digitChar]
    else if n < 100 then [(n / 10).digitChar, (n % 10).digitChar]
    else [(n / 100).digitChar, (n / 10 % 10).digitChar, (n % 10).digitChar] := by
  split
  · rename_i small
    exact Nat.toDigits_of_lt_base small
  · rw [Nat.toDigits_of_base_le (by decide) (by omega)]
    split
    · rw [Nat.toDigits_of_lt_base (by omega)]
      rfl
    · rw [Nat.toDigits_of_base_le (by decide) (by omega), Nat.toDigits_of_lt_base (by omega),
        Nat.div_div_eq_div_mul]
      rfl

theorem ipv4Fields_octet {n : Nat} (octet : n < 256) (rest : List Char) (done : List Nat) :
    ∃ k, k ≠ 0 ∧ ipv4Fields (Nat.toDigits 10 n ++ rest) 0 0 done = ipv4Fields rest n k done := by
  rw [toDigits_octet octet]
  split
  · rename_i small
    refine ⟨1, by decide, ?_⟩
    rw [List.singleton_append, ipv4Fields_digit small (by omega) (by omega)]
    congr 1
    omega
  · split
    · refine ⟨2, by decide, ?_⟩
      rw [List.cons_append, List.singleton_append, ipv4Fields_digit (by omega) (by omega) (by omega),
        ipv4Fields_digit (by omega) (by omega) (by omega)]
      congr 1
      omega
    · refine ⟨3, by decide, ?_⟩
      rw [List.cons_append, List.cons_append, List.singleton_append,
        ipv4Fields_digit (by omega) (by omega) (by omega),
        ipv4Fields_digit (by omega) (by omega) (by omega),
        ipv4Fields_digit (by omega) (by omega) (by omega)]
      congr 1
      omega

theorem ipv4Fields_dot {n : Nat} (octet : n < 256) {rest : List Char} (more : rest ≠ [])
    {done : List Nat} (room : done.length ≠ 3) :
    ipv4Fields (Nat.toDigits 10 n ++ '.' :: rest) 0 0 done = ipv4Fields rest 0 0 (done ++ [n]) := by
  obtain ⟨k, some, read⟩ := ipv4Fields_octet octet ('.' :: rest) done
  rw [read, ipv4Fields, if_neg (by decide), if_pos rfl, if_neg (by simp [some, more]), if_neg room]

theorem ipv4Fields_end {n : Nat} (octet : n < 256) {done : List Nat} (three : done.length = 3) :
    ipv4Fields (Nat.toDigits 10 n) 0 0 done = some (done ++ [n]) := by
  obtain ⟨k, -, read⟩ := ipv4Fields_octet octet [] done
  rw [List.append_nil] at read
  rw [read, ipv4Fields, if_pos three]

theorem toList_toString (n : Nat) : (toString n).toList = Nat.toDigits 10 n := by
  rw [Nat.toString_eq_repr, Nat.repr, String.toList_ofList]

theorem toList_dotted (bits : Nat) : ∃ a b c d : UInt8, Bytes.ofNat 4 bits = [a, b, c, d] ∧
    (dotted bits).toList = Nat.toDigits 10 a.toNat ++ '.' :: (Nat.toDigits 10 b.toNat ++
      '.' :: (Nat.toDigits 10 c.toNat ++ '.' :: Nat.toDigits 10 d.toNat)) := by
  obtain ⟨a, b, c, d, four⟩ : ∃ a b c d : UInt8, Bytes.ofNat 4 bits = [a, b, c, d] :=
    ⟨_, _, _, _, rfl⟩
  refine ⟨a, b, c, d, four, ?_⟩
  rw [dotted, four, String.toList_intercalate]
  simp [List.intercalate_cons_cons]

theorem parseAddr_dotted (bits : BitVec 32) :
    parseAddr (Addr.v4 bits).text = some (.v4 bits) := by
  obtain ⟨a, b, c, d, four, text⟩ := toList_dotted bits.toNat
  have first : (dotted bits.toNat).toList.find? (fun c => c = '.' ∨ c = ':' ∨ c = '%') =
      some '.' := by
    rw [text, List.find?_append, List.find?_eq_none.mpr]
    · rfl
    · intro c member
      have digit := isDigit_of_mem_toDigits member
      simp only [decide_eq_true_eq, not_or]
      refine ⟨?_, ?_, ?_⟩ <;> rintro rfl <;> revert digit <;> decide
  have read : ipv4Fields (dotted bits.toNat).toList 0 0 [] =
      some [a.toNat, b.toNat, c.toNat, d.toNat] := by
    rw [text, ipv4Fields_dot a.toNat_lt (by simp) (by decide),
      ipv4Fields_dot b.toNat_lt (by simp) (by simp), ipv4Fields_dot c.toNat_lt Nat.toDigits_ne_nil
      (by simp), ipv4Fields_end d.toNat_lt (by simp)]
    rfl
  have back : [a.toNat, b.toNat, c.toNat, d.toNat].map UInt8.ofNat = Bytes.ofNat 4 bits.toNat := by
    simp [four]
  rw [Addr.text, parseAddr, first, read, Option.map_some, back, Addr.from4, Bytes.toNat_ofNat,
    Nat.mod_eq_of_lt (show bits.toNat < 256 ^ 4 from bits.isLt), BitVec.ofNat_toNat,
    BitVec.setWidth_eq]
  rfl

end Clatto.Netip
