import Mathlib.Data.List.TakeDrop
import Clatto.Netip.Text

/-! IPv6 addresses are read back as they were printed. -/

namespace Clatto.Netip

theorem parseIPv6Text_is6 {text : List Char} {zone : String} {a : Addr}
    (parsed : parseIPv6Text text zone = some a) : a.is6 := by
  unfold parseIPv6Text at parsed
  split at parsed
  · cases parsed
    rfl
  all_goals
    simp only [Option.bind_eq_bind, Option.bind_eq_some_iff, Option.pure_def] at parsed
    obtain ⟨⟨ip, ellipsis, rest⟩, -, parsed⟩ := parsed
    split at parsed
    · cases parsed
    · simp only [Option.bind_eq_some_iff] at parsed
      obtain ⟨_, -, same⟩ := parsed
      cases same
      rfl

theorem isValid_of_parseAddr {s : String} {a : Addr} (parsed : parseAddr s = some a) :
    a.isValid = true := by
  have valid {text : List Char} {zone : String} (parsed : parseIPv6Text text zone = some a) :
      a.isValid = true := by
    have six := parseIPv6Text_is6 parsed
    cases a with
    | zero => cases six
    | v4 bits => rfl
    | v6 bits zone => rfl
  rw [parseAddr] at parsed
  split at parsed
  · obtain ⟨four, -, rfl⟩ := Option.map_eq_some_iff.mp parsed
    rfl
  · split at parsed
    · exact valid parsed
    · split at parsed
      · cases parsed
      · exact valid parsed
  · cases parsed

theorem hexValue_digitChar {d : Nat} (digit : d < 16) : hexValue d.digitChar = some d := by
  revert d
  decide

theorem hexGroup_digits {l : List Char} {value : Char → Nat}
    (digits : ∀ c ∈ l, hexValue c = some (value c)) (rest : List Char) {off : Nat} (acc : Nat)
    (fits : off + l.length ≤ 4) :
    hexGroup (l ++ rest) off acc =
      hexGroup rest (off + l.length) (l.foldl (fun acc c => acc * 16 + value c) acc) := by
  induction l generalizing off acc with
  | nil => rfl
  | cons c l ih =>
    rw [List.length_cons] at fits
    rw [List.cons_append, hexGroup, digits c List.mem_cons_self]
    dsimp only
    rw [if_neg (by omega), ih (fun d member => digits d (List.mem_cons_of_mem _ member)) _
      (by omega), List.length_cons, List.foldl_cons, Nat.add_assoc off 1,
      Nat.add_comm 1]

def digitValue (c : Char) : Nat := (hexValue c).getD 0

theorem hexValue_of_mem_toDigits {n : Nat} {c : Char} (member : c ∈ Nat.toDigits 16 n) :
    hexValue c = some (digitValue c) := by
  have known {d : Nat} (digit : d < 16) : hexValue d.digitChar = some (digitValue d.digitChar) := by
    rw [digitValue, hexValue_digitChar digit]
    rfl
  induction n using Nat.strongRecOn with
  | ind n ih =>
    by_cases small : n < 16
    · rw [Nat.toDigits_of_lt_base small, List.mem_singleton] at member
      rw [member]
      exact known small
    · rw [Nat.toDigits_of_base_le (by decide) (by omega)] at member
      rcases List.mem_append.mp member with high | low
      · exact ih _ (by omega) high
      · rw [List.mem_singleton.mp low]
        exact known (Nat.mod_lt _ (by decide))

theorem foldl_toDigits (n : Nat) :
    (Nat.toDigits 16 n).foldl (fun acc c => acc * 16 + digitValue c) 0 = n := by
  induction n using Nat.strongRecOn with
  | ind n ih =>
    by_cases small : n < 16
    · rw [Nat.toDigits_of_lt_base small, List.foldl_cons, List.foldl_nil, digitValue,
        hexValue_digitChar small]
      simp
    · rw [Nat.toDigits_of_base_le (by decide) (by omega), List.foldl_append, ih _ (by omega),
        List.foldl_cons, List.foldl_nil, digitValue, hexValue_digitChar (Nat.mod_lt _ (by decide))]
      simp only [Option.getD_some]
      omega

theorem length_toDigits {n : Nat} (word : n < 65536) :
    0 < (Nat.toDigits 16 n).length ∧ (Nat.toDigits 16 n).length ≤ 4 :=
  ⟨Nat.length_toDigits_pos, (Nat.length_toDigits_le_iff (by decide) (by decide)).mpr word⟩

theorem hexGroup_word {n : Nat} (word : n < 65536) {rest : List Char}
    (ends : rest = [] ∨ ∃ more, rest = ':' :: more) :
    hexGroup (Nat.toDigits 16 n ++ rest) 0 0 = some ((Nat.toDigits 16 n).length, n, rest) := by
  rw [hexGroup_digits (fun c member => hexValue_of_mem_toDigits member) rest 0
    (by rw [Nat.zero_add]; exact (length_toDigits word).2), foldl_toDigits, Nat.zero_add]
  rcases ends with rfl | ⟨more, rfl⟩
  · rfl
  · have other : hexValue ':' = none := by decide
    rw [hexGroup, other]

def colons : List Nat → List Char
  | [] => []
  | [w] => Nat.toDigits 16 w
  | w :: more => Nat.toDigits 16 w ++ ':' :: colons more

def wordBytes (ws : List Nat) : Bytes := ws.flatMap fun w => [UInt8.ofNat (w / 256), UInt8.ofNat w]

theorem colons_cons (w : Nat) {ws : List Nat} (more : ws ≠ []) :
    colons (w :: ws) = Nat.toDigits 16 w ++ ':' :: colons ws := by
  cases ws with
  | nil => exact absurd rfl more
  | cons w' ws => rfl

theorem toDigits_head (n : Nat) (rest : List Char) :
    ∃ c more, Nat.toDigits 16 n ++ rest = c :: more ∧ c ≠ ':' := by
  have nonempty : Nat.toDigits 16 n ≠ [] := Nat.toDigits_ne_nil
  obtain ⟨c, more, same⟩ := List.exists_cons_of_ne_nil nonempty
  refine ⟨c, more ++ rest, by rw [same]; rfl, ?_⟩
  rintro rfl
  have digit := hexValue_of_mem_toDigits (n := n) (c := ':') (by rw [same]; exact List.mem_cons_self)
  exact absurd digit (by decide)

theorem colons_head {ws : List Nat} (some : ws ≠ []) (rest : List Char) :
    ∃ c more, colons ws ++ rest = c :: more ∧ c ≠ ':' := by
  cases ws with
  | nil => exact absurd rfl some
  | cons w ws =>
    by_cases last : ws = []
    · subst last
      exact toDigits_head w rest
    · rw [colons_cons w last, List.append_assoc]
      exact toDigits_head w _

theorem ipv6Groups_word {n : Nat} (word : n < 65536) {next : Char} (other : next ≠ ':')
    (left : Nat) (ip : Bytes) (ellipsis : Option Nat) (more : List Char) :
    ipv6Groups (left + 1) ip ellipsis (Nat.toDigits 16 n ++ ':' :: next :: more) =
      ipv6Groups left (ip ++ wordBytes [n]) ellipsis (next :: more) := by
  rw [ipv6Groups, hexGroup_word word (.inr ⟨_, rfl⟩)]
  dsimp only
  rw [if_neg (Nat.pos_iff_ne_zero.mp (length_toDigits word).1), if_neg (by simp)]
  simp [wordBytes]

theorem ipv6Groups_last {n : Nat} (word : n < 65536) (left : Nat) (ip : Bytes)
    (ellipsis : Option Nat) :
    ipv6Groups (left + 1) ip ellipsis (Nat.toDigits 16 n) =
      some (ip ++ wordBytes [n], ellipsis, []) := by
  have whole := hexGroup_word word (.inl rfl)
  rw [List.append_nil] at whole
  rw [ipv6Groups, whole]
  dsimp only
  rw [if_neg (Nat.pos_iff_ne_zero.mp (length_toDigits word).1), if_neg (by simp)]
  rfl

theorem ipv6Groups_ellipsis {n : Nat} (word : n < 65536) (left : Nat) (ip : Bytes)
    (more : List Char) :
    ipv6Groups (left + 1) ip none (Nat.toDigits 16 n ++ ':' :: ':' :: more) =
      if more = [] then some (ip ++ wordBytes [n], some (ip ++ wordBytes [n]).length, [])
      else ipv6Groups left (ip ++ wordBytes [n]) (some (ip ++ wordBytes [n]).length) more := by
  rw [ipv6Groups, hexGroup_word word (.inr ⟨_, rfl⟩)]
  dsimp only
  rw [if_neg (Nat.pos_iff_ne_zero.mp (length_toDigits word).1), if_neg (by simp)]
  rfl

theorem ipv6Groups_colons {ws : List Nat} (some : ws ≠ []) (words : ∀ w ∈ ws, w < 65536)
    {left : Nat} (fits : ws.length ≤ left) (ip : Bytes) (ellipsis : Option Nat) :
    ipv6Groups left ip ellipsis (colons ws) = .some (ip ++ wordBytes ws, ellipsis, []) := by
  induction ws generalizing left ip with
  | nil => exact absurd rfl some
  | cons w ws ih =>
    obtain ⟨left, rfl⟩ : ∃ l, left = l + 1 :=
      ⟨left - 1, by rw [List.length_cons] at fits; omega⟩
    have word := words w List.mem_cons_self
    by_cases last : ws = []
    · subst last
      exact ipv6Groups_last word left ip ellipsis
    · obtain ⟨c, more, same, other⟩ := colons_head last []
      rw [List.append_nil] at same
      rw [colons_cons w last, same, ipv6Groups_word word other, ← same,
        ih last (fun v member => words v (List.mem_cons_of_mem _ member))
          (by rw [List.length_cons] at fits; omega), List.append_assoc]
      rfl

theorem ipv6Groups_split {front back : List Nat} (some : front ≠ [])
    (words : ∀ w ∈ front, w < 65536) (words' : ∀ w ∈ back, w < 65536) {left : Nat}
    (fits : front.length + back.length ≤ left) (ip : Bytes) :
    ipv6Groups left ip none (colons front ++ ':' :: ':' :: colons back) =
      .some (ip ++ wordBytes front ++ wordBytes back, .some (ip ++ wordBytes front).length, []) := by
  induction front generalizing left ip with
  | nil => exact absurd rfl some
  | cons w front ih =>
    rw [List.length_cons] at fits
    obtain ⟨left, rfl⟩ : ∃ l, left = l + 1 := ⟨left - 1, by omega⟩
    have word := words w List.mem_cons_self
    by_cases last : front = []
    · subst last
      rw [show colons [w] = Nat.toDigits 16 w from rfl, ipv6Groups_ellipsis word]
      by_cases empty : back = []
      · subst empty
        rw [if_pos (by rfl)]
        simp [wordBytes]
      · have shown : colons back ≠ [] := by
          obtain ⟨c, more, same, -⟩ := colons_head empty []
          rw [List.append_nil] at same
          rw [same]
          exact List.cons_ne_nil _ _
        rw [if_neg shown]
        exact ipv6Groups_colons empty words' (by rw [List.length_nil] at fits; omega) _ _
    · obtain ⟨c, more, same, other⟩ := colons_head last (':' :: ':' :: colons back)
      rw [colons_cons w last, List.append_assoc, List.cons_append, same, ipv6Groups_word word other,
        ← same, ih last (fun v member => words v (List.mem_cons_of_mem _ member)) (by omega)]
      simp [wordBytes]

theorem zeroRun_cases (words : List Nat) :
    (zeroRun words).2 = 0 ∨ 2 ≤ (zeroRun words).2 ∧
      ((words.drop (zeroRun words).1).takeWhile (· = 0)).length = (zeroRun words).2 := by
  -- whatever has been tried so far, the best run is none or one of at least two zeros
  have scanned (indices : List Nat) (best : Nat × Nat)
      (start : best.2 = 0 ∨
        2 ≤ best.2 ∧ ((words.drop best.1).takeWhile (· = 0)).length = best.2) :
      let found := indices.foldl (fun best i =>
        let run := ((words.drop i).takeWhile (· = 0)).length
        if 2 ≤ run ∧ best.2 < run then (i, run) else best) best
      found.2 = 0 ∨ 2 ≤ found.2 ∧ ((words.drop found.1).takeWhile (· = 0)).length = found.2 := by
    induction indices generalizing best with
    | nil => exact start
    | cons i indices ih =>
      refine ih _ ?_
      dsimp only
      split
      case isTrue better => exact .inr ⟨better.1, rfl⟩
      case isFalse => exact start
  exact scanned _ _ (.inl rfl)

theorem zeroRun_split {words : List Nat} (shown : (zeroRun words).2 ≠ 0) :
    2 ≤ (zeroRun words).2 ∧
      words = words.take (zeroRun words).1 ++ List.replicate (zeroRun words).2 0 ++
        words.drop ((zeroRun words).1 + (zeroRun words).2) := by
  obtain ⟨two, long⟩ := (zeroRun_cases words).resolve_left shown
  refine ⟨two, ?_⟩
  generalize (zeroRun words).1 = start at long ⊢
  generalize (zeroRun words).2 = run at long ⊢
  have zeros : (words.drop start).takeWhile (· = 0) = List.replicate run 0 := by
    refine List.eq_replicate_iff.mpr ⟨long, fun w member => ?_⟩
    simpa using List.all_eq_true.mp (List.all_takeWhile (l := words.drop start)) w member
  have rest : words.drop start = List.replicate run 0 ++ words.drop (start + run) := by
    have parts := List.takeWhile_append_dropWhile (p := fun w => decide (w = 0)) (l := words.drop start)
    rw [← List.drop_drop, ← parts, zeros, List.drop_left' List.length_replicate]
  rw [List.append_assoc, ← rest, List.take_append_drop]

theorem length_wordBytes (ws : List Nat) : (wordBytes ws).length = 2 * ws.length := by
  induction ws with
  | nil => rfl
  | cons w ws ih =>
    have next : (wordBytes (w :: ws)).length = (wordBytes ws).length + 2 := rfl
    rw [next, ih, List.length_cons, Nat.mul_succ]

theorem wordBytes_append (ws ws' : List Nat) :
    wordBytes (ws ++ ws') = wordBytes ws ++ wordBytes ws' := List.flatMap_append

theorem wordBytes_zeros (n : Nat) : wordBytes (List.replicate n 0) = List.replicate (2 * n) 0 := by
  induction n with
  | zero => rfl
  | succ n ih =>
    rw [List.replicate_succ, wordBytes, List.flatMap_cons]
    change [0, 0] ++ wordBytes (List.replicate n 0) = _
    rw [ih]
    rfl

theorem expandEllipsis_split {front back : List Nat} {run : Nat} (two : 2 ≤ run)
    (eight : front.length + run + back.length = 8) :
    expandEllipsis (wordBytes front ++ wordBytes back) (some (wordBytes front).length) =
      some (wordBytes (front ++ List.replicate run 0 ++ back)) := by
  have short : (wordBytes front ++ wordBytes back).length < 16 := by
    rw [List.length_append, length_wordBytes, length_wordBytes]
    omega
  have missing : 16 - (wordBytes front ++ wordBytes back).length = 2 * run := by
    rw [List.length_append, length_wordBytes, length_wordBytes]
    omega
  rw [expandEllipsis, if_pos short, missing, List.take_left' rfl, List.drop_left' rfl,
    wordBytes_append, wordBytes_append, wordBytes_zeros]

/-- The words of an address as they are printed. -/
def addressChars (ws : List Nat) : List Char :=
  if (zeroRun ws).2 = 0 then colons ws
  else
    colons (ws.take (zeroRun ws).1) ++
      ':' :: ':' :: colons (ws.drop ((zeroRun ws).1 + (zeroRun ws).2))

theorem parseIPv6Text_addressChars {ws : List Nat} (eight : ws.length = 8)
    (words : ∀ w ∈ ws, w < 65536) (zone : String) :
    parseIPv6Text (addressChars ws) zone =
      some (.v6 (BitVec.ofNat 128 (Bytes.toNat (wordBytes ws))) zone) := by
  have plain {text : List Char} {c : Char} {more : List Char} (same : text = c :: more)
      (other : c ≠ ':') {ip bytes : Bytes} {ellipsis : Option Nat}
      (read : ipv6Groups 8 [] none text = some (ip, ellipsis, []))
      (full : expandEllipsis ip ellipsis = some bytes) :
      parseIPv6Text text zone = some (.v6 (BitVec.ofNat 128 (Bytes.toNat bytes)) zone) := by
    subst same
    unfold parseIPv6Text
    split
    · rename_i same
      exact absurd (List.cons.inj same).1 other
    · rename_i same
      exact absurd (List.cons.inj same).1 other
    · simp [read, full]
  rw [addressChars]
  split
  · have some : ws ≠ [] := by
      rintro rfl
      cases eight
    obtain ⟨c, more, same, other⟩ := colons_head some []
    rw [List.append_nil] at same
    refine plain same other (ipv6Groups_colons some words (by omega) [] none) ?_
    rw [List.nil_append, expandEllipsis, length_wordBytes, eight]
    rfl
  · rename_i shown
    obtain ⟨two, parts⟩ := zeroRun_split shown
    generalize (zeroRun ws).1 = start at parts ⊢
    generalize (zeroRun ws).2 = run at parts two ⊢
    have front : ∀ w ∈ ws.take start, w < 65536 := fun w member => words w (List.mem_of_mem_take member)
    have back : ∀ w ∈ ws.drop (start + run), w < 65536 :=
      fun w member => words w (List.mem_of_mem_drop member)
    generalize ws.take start = before at parts front ⊢
    generalize ws.drop (start + run) = after at parts back ⊢
    have lengths : before.length + run + after.length = 8 := by
      rw [← eight, parts]
      simp [Nat.add_assoc]
    have full := expandEllipsis_split two lengths
    rw [← parts] at full
    by_cases none : before = []
    · subst none
      by_cases empty : after = []
      · subst empty
        have all : run = 8 := by simpa using lengths
        subst all
        have zero : Bytes.toNat (List.replicate (2 * 8) 0) = 0 := by decide
        rw [parts, List.nil_append, List.append_nil, wordBytes_zeros, zero]
        simp [colons, parseIPv6Text]
      · obtain ⟨c, more, same, -⟩ := colons_head empty []
        rw [List.append_nil] at same
        have fits : after.length ≤ 8 := by omega
        have read := ipv6Groups_colons empty back fits [] (some 0)
        rw [same] at read
        rw [same]
        simp only [colons, List.nil_append, parseIPv6Text, read]
        simp only [wordBytes, List.flatMap_nil, List.nil_append, List.length_nil] at full
        simp [wordBytes, full]
    · obtain ⟨c, more, same, other⟩ := colons_head none (':' :: ':' :: colons after)
      exact plain same other (ipv6Groups_split none front back (by omega) []) full

/-- The low words of a number, the most significant one first. -/
def groups : (count : Nat) → Nat → List Nat
  | 0, _ => []
  | count + 1, n => groups count (n / 65536) ++ [n % 65536]

theorem wordBytes_groups (count n : Nat) :
    wordBytes (groups count n) = Bytes.ofNat (2 * count) n := by
  induction count generalizing n with
  | zero => rfl
  | succ count ih =>
    have high : UInt8.ofNat (n % 65536 / 256) = UInt8.ofNat (n / 256) := by
      apply UInt8.toNat_inj.mp
      rw [UInt8.toNat_ofNat', UInt8.toNat_ofNat']
      omega
    have low : UInt8.ofNat (n % 65536) = UInt8.ofNat n := by
      apply UInt8.toNat_inj.mp
      rw [UInt8.toNat_ofNat', UInt8.toNat_ofNat']
      omega
    have halves : Bytes.ofNat (2 * count) (n / 65536) ++ [UInt8.ofNat (n / 256), UInt8.ofNat n] =
        Bytes.ofNat (2 * (count + 1)) n := by
      rw [Nat.mul_succ, Bytes.ofNat, Bytes.ofNat, Nat.div_div_eq_div_mul, List.append_assoc]
      rfl
    rw [groups, wordBytes_append, ih, ← halves, ← high, ← low]
    rfl

theorem length_groups (count n : Nat) : (groups count n).length = count := by
  induction count generalizing n with
  | zero => rfl
  | succ count ih => rw [groups, List.length_append, ih, List.length_singleton]

theorem groups_lt (count : Nat) {n w : Nat} (member : w ∈ groups count n) : w < 65536 := by
  induction count generalizing n with
  | zero => cases member
  | succ count ih =>
    rcases List.mem_append.mp member with high | low
    · exact ih high
    · rw [List.mem_singleton.mp low]
      exact Nat.mod_lt _ (by decide)

theorem toList_intercalate_hex (ws : List Nat) :
    (":".intercalate (ws.map hex)).toList = colons ws := by
  rw [String.toList_intercalate, List.map_map]
  induction ws with
  | nil => rfl
  | cons w ws ih =>
    have digits : (hex w).toList = Nat.toDigits 16 w := String.toList_ofList
    cases ws with
    | nil =>
      rw [List.map_singleton, List.intercalate_singleton]
      exact digits
    | cons w' ws =>
      rw [List.map_cons, List.map_cons, List.intercalate_cons_cons, ← List.map_cons, ih,
        Function.comp_apply, digits, List.append_assoc]
      rfl

theorem groups_eight (n : Nat) :
    (List.range 8).map (fun i => n / 2 ^ (112 - 16 * i) % 65536) = groups 8 n := by
  simp [List.range_succ, groups, Nat.div_div_eq_div_mul]

theorem toList_text {bits : BitVec 128} {zone : String} (plain : (Addr.v6 bits zone).is4In6 = false) :
    (Addr.v6 bits zone).text.toList = addressChars (groups 8 bits.toNat) ++
      if zone = "" then [] else '%' :: zone.toList := by
  simp only [Addr.text, groups_eight, plain, Bool.false_eq_true, if_false]
  generalize groups 8 bits.toNat = ws
  have address : (if (zeroRun ws).2 = 0 then ":".intercalate (ws.map hex)
      else ":".intercalate ((ws.take (zeroRun ws).1).map hex) ++ "::" ++
        ":".intercalate ((ws.drop ((zeroRun ws).1 + (zeroRun ws).2)).map hex)).toList =
      addressChars ws := by
    rw [addressChars]
    split
    · exact toList_intercalate_hex _
    · rw [String.toList_append, String.toList_append, toList_intercalate_hex,
        toList_intercalate_hex, List.append_assoc]
      rfl
  split
  · rw [List.append_nil]
    exact address
  · rw [String.toList_append, String.toList_append, address, List.append_assoc]
    rfl

/-- A character of an address that is printed in words. -/
def IsAddressChar (c : Char) : Prop := (hexValue c).isSome = true ∨ c = ':'

theorem isAddressChar_colons {ws : List Nat} {c : Char} (member : c ∈ colons ws) :
    IsAddressChar c := by
  have digit {n : Nat} (member : c ∈ Nat.toDigits 16 n) : IsAddressChar c := by
    refine .inl ?_
    rw [hexValue_of_mem_toDigits member]
    rfl
  induction ws with
  | nil => cases member
  | cons w ws ih =>
    by_cases last : ws = []
    · subst last
      exact digit member
    · rw [colons_cons w last, List.mem_append, List.mem_cons] at member
      rcases member with first | colon | rest
      · exact digit first
      · exact .inr colon
      · exact ih rest

theorem isAddressChar_addressChars {ws : List Nat} {c : Char} (member : c ∈ addressChars ws) :
    IsAddressChar c := by
  rw [addressChars] at member
  split at member
  · exact isAddressChar_colons member
  · rw [List.mem_append, List.mem_cons, List.mem_cons] at member
    rcases member with front | colon | colon | back
    · exact isAddressChar_colons front
    · exact .inr colon
    · exact .inr colon
    · exact isAddressChar_colons back

theorem colon_mem_addressChars {ws : List Nat} (two : 2 ≤ ws.length) : ':' ∈ addressChars ws := by
  rw [addressChars]
  split
  · cases ws with
    | nil => cases two
    | cons w ws =>
      have more : ws ≠ [] := by
        rintro rfl
        rw [List.length_singleton] at two
        omega
      rw [colons_cons w more]
      simp
  · simp

/-- Text with a colon before all other marks is read as an IPv6 address. -/
theorem parseAddr_of_chars {l : List Char} (chars : ∀ c ∈ l, IsAddressChar c) (colon : ':' ∈ l)
    {zone s : String} (text : s.toList = l ++ if zone = "" then [] else '%' :: zone.toList) :
    parseAddr s = parseIPv6Text l zone := by
  have first (rest : List Char) :
      (l ++ rest).find? (fun c => c = '.' ∨ c = ':' ∨ c = '%') = some ':' := by
    cases found : l.find? (fun c => c = '.' ∨ c = ':' ∨ c = '%') with
    | none => exact absurd (List.find?_eq_none.mp found ':' colon) (by decide)
    | some c =>
      rw [List.find?_append, found, Option.some_or]
      have mark : c = '.' ∨ c = ':' ∨ c = '%' := by simpa using List.find?_some found
      rcases chars c (List.mem_of_find?_eq_some found) with digit | same
      · rcases mark with rfl | rfl | rfl
        · exact absurd digit (by decide)
        · rfl
        · exact absurd digit (by decide)
      · rw [same]
  have inside : ∀ c ∈ l, decide (c ≠ '%') = true := by
    intro c member
    refine decide_eq_true ?_
    rintro rfl
    exact absurd (chars '%' member) (by rintro (digit | same) <;> simp_all [hexValue])
  have taken (rest : List Char) (ends : rest.takeWhile (· ≠ '%') = []) :
      (l ++ rest).span (· ≠ '%') = (l, rest.dropWhile (· ≠ '%')) := by
    rw [List.span_eq_takeWhile_dropWhile, List.takeWhile_append_of_pos inside,
      List.dropWhile_append_of_pos inside, ends, List.append_nil]
  rw [parseAddr, text, first]
  by_cases none : zone = ""
  · rw [if_pos none, taken [] rfl, none]
    rfl
  · have some : zone.toList ≠ [] := by
      intro empty
      exact none (String.toList_inj.mp empty)
    rw [if_neg none, taken ('%' :: zone.toList) (by simp)]
    simp [some, String.ofList_toList]

/-- An IPv6 address is read back from its text, unless it is IPv4-mapped. -/
theorem parseAddr_text {a : Addr} (six : a.is6 = true) (plain : a.is4In6 = false) :
    parseAddr a.text = some a := by
  cases a with
  | zero => cases six
  | v4 bits => cases six
  | v6 bits zone =>
    have eight := length_groups 8 bits.toNat
    have whole : Bytes.toNat (wordBytes (groups 8 bits.toNat)) = bits.toNat := by
      rw [wordBytes_groups, Bytes.toNat_ofNat]
      exact Nat.mod_eq_of_lt bits.isLt
    rw [parseAddr_of_chars (fun _ => isAddressChar_addressChars)
        (colon_mem_addressChars (by rw [eight]; decide)) (toList_text plain),
      parseIPv6Text_addressChars eight (fun _ => groups_lt 8), whole, BitVec.ofNat_toNat,
      BitVec.setWidth_eq]

theorem colon_mem_text {a : Addr} (six : a.is6 = true) (plain : a.is4In6 = false) :
    ':' ∈ a.text.toList := by
  cases a with
  | zero => cases six
  | v4 bits => cases six
  | v6 bits zone =>
    rw [toList_text plain]
    refine List.mem_append_left _ (colon_mem_addressChars ?_)
    rw [length_groups]
    decide

end Clatto.Netip
