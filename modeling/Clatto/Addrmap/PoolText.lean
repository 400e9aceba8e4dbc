import Clatto.Addrmap.PoolReload
import Clatto.Netip.Decimal

/-! The lines of a state file are read back as they were printed, for all hosts that a pool
can hold. -/

namespace Clatto

theorem Bytes.byteAt_ofNat {width i : Nat} (inside : i < width) (n : Nat) :
    byteAt (ofNat width n) i = UInt8.ofNat (n / 256 ^ (width - 1 - i)) := by
  induction width generalizing n with
  | zero => cases inside
  | succ width ih =>
    have long : (ofNat width (n / 256)).length = width := length_ofNat ..
    rw [ofNat]
    by_cases last : i = width
    · subst last
      rw [byteAt_append_right (by omega), long]
      simp [byteAt]
    · rw [byteAt_append_left (by omega), ih (by omega), Nat.div_div_eq_div_mul, ← Nat.pow_succ']
      congr 3
      omega

namespace Addrmap

open Netip

/-- A character that is neither white space nor more than one byte long. -/
def Plain (c : Char) : Prop := isSpace c = false ∧ c.utf8Size = 1

theorem plain_of_toNat {c : Char} (low : 33 ≤ c.toNat) (high : c.toNat ≤ 126) : Plain c := by
  constructor
  · simp only [isSpace, Bool.or_eq_false_iff, Bool.and_eq_false_iff, decide_eq_false_iff_not]
    omega
  · rw [Char.utf8Size_eq_one_iff, UInt32.le_iff_toNat_le]
    exact high.trans (by decide)

theorem plain_of_isDigit {c : Char} (digit : c.isDigit = true) : Plain c := by
  obtain ⟨low, high⟩ := Char.isDigit_iff_toNat.mp digit
  exact plain_of_toNat (low.trans' (by decide)) (high.trans (by decide))

theorem plain_of_isAddressChar {c : Char} (address : IsAddressChar c) : Plain c := by
  rcases address with digit | rfl
  · rw [hexValue] at digit
    split at digit
    · rename_i decimal
      exact plain_of_isDigit decimal
    split at digit
    · rename_i letter
      exact plain_of_toNat (le_trans (by decide) letter.1) (le_trans letter.2 (by decide))
    split at digit
    · rename_i letter
      exact plain_of_toNat (le_trans (by decide) letter.1) (le_trans letter.2 (by decide))
    · cases digit
  · exact plain_of_toNat (by decide) (by decide)

structure PlainWord (text : Text) (limit : Nat) : Prop where
  nonempty : text ≠ []
  plain : ∀ c ∈ text, Plain c
  length : text.length ≤ limit

theorem PlainWord.oneWord {text : Text} {limit : Nat} (word : PlainWord text limit) :
    OneWord text :=
  ⟨word.nonempty, fun c member => (word.plain c member).1⟩

theorem PlainWord.byteSize {text : Text} {limit : Nat} (word : PlainWord text limit) :
    Scan.byteSize text ≤ limit := by
  have ones : text.map (·.utf8Size) = text.map fun _ => 1 :=
    List.map_congr_left fun c member => (word.plain c member).2
  rw [Scan.byteSize, ones]
  simpa using word.length

theorem plain_decimal (n : Nat) {k : Nat} (positive : 0 < k) (fits : n < 10 ^ k) :
    PlainWord (Nat.toDigits 10 n) k where
  nonempty := Nat.toDigits_ne_nil
  plain c member := plain_of_isDigit (isDigit_of_mem_toDigits member)
  length := (Nat.length_toDigits_le_iff (by decide) positive).mpr fits

theorem plain_v4 (bits : BitVec 32) : PlainWord (Addr.v4 bits).text.toList 15 := by
  obtain ⟨a, b, c, d, -, text⟩ := toList_dotted bits.toNat
  have octet (x : UInt8) : PlainWord (Nat.toDigits 10 x.toNat) 3 :=
    plain_decimal _ (by decide) (lt_of_lt_of_le x.toNat_lt (by decide))
  have dot : Plain '.' := plain_of_toNat (by decide) (by decide)
  rw [Addr.text, text]
  constructor
  · simp
  · intro x member
    simp only [List.mem_append, List.mem_cons] at member
    rcases member with one | rfl | one | rfl | one | rfl | one
    · exact (octet a).plain x one
    · exact dot
    · exact (octet b).plain x one
    · exact dot
    · exact (octet c).plain x one
    · exact dot
    · exact (octet d).plain x one
  · have := (octet a).length
    have := (octet b).length
    have := (octet c).length
    have := (octet d).length
    simp only [List.length_append, List.length_cons]
    omega

theorem length_colons {ws : List Nat} (words : ∀ w ∈ ws, w < 65536) :
    (colons ws).length ≤ 5 * ws.length := by
  induction ws with
  | nil => decide
  | cons w ws ih =>
    have first := (length_toDigits (words w (.head _))).2
    have rest := ih fun v member => words v (.tail _ member)
    by_cases last : ws = []
    · subst last
      rw [colons]
      simp only [List.length_singleton]
      omega
    · rw [colons_cons w last]
      simp only [List.length_append, List.length_cons]
      omega

theorem length_addressChars {ws : List Nat} (words : ∀ w ∈ ws, w < 65536) :
    (addressChars ws).length ≤ 5 * ws.length + 2 := by
  rw [addressChars]
  split
  · exact (length_colons words).trans (Nat.le_add_right _ _)
  · rename_i shown
    have front := length_colons fun w member =>
      words w (List.mem_of_mem_take (i := (zeroRun ws).1) member)
    have back := length_colons fun w member =>
      words w (List.mem_of_mem_drop (i := (zeroRun ws).1 + (zeroRun ws).2) member)
    simp only [List.length_append, List.length_cons, List.length_take, List.length_drop] at *
    omega

theorem plain_v6 {bits : BitVec 128} (plain : (Addr.v6 bits "").is4In6 = false) :
    PlainWord (Addr.v6 bits "").text.toList 42 := by
  have eight := length_groups 8 bits.toNat
  have width := length_addressChars fun w => groups_lt 8 (w := w) (n := bits.toNat)
  rw [toList_text plain, if_pos rfl, List.append_nil]
  constructor
  · intro none
    have colon := colon_mem_addressChars (show 2 ≤ (groups 8 bits.toNat).length by omega)
    rw [none] at colon
    cases colon
  · exact fun c member => plain_of_isAddressChar (isAddressChar_addressChars member)
  · omega

theorem not_is4In6_of_valid {bits : BitVec 128}
    (valid : Netutil.validIPv6 (Addr.v6 bits "").as16 = true) :
    (Addr.v6 bits "").is4In6 = false := by
  rw [Bool.eq_false_iff]
  intro mapped
  have small : bits.toNat / 2 ^ 32 = 0xffff := by simpa [Addr.is4In6] using mapped
  have bytes : Bytes.byteAt (Addr.v6 bits "").as16 0 = 0 ∧
      Bytes.byteAt (Addr.v6 bits "").as16 1 = 0 := by
    have zero (k : Nat) (high : 48 ≤ k) : bits.toNat / 2 ^ k = 0 :=
      Nat.div_eq_of_lt (lt_of_lt_of_le (show bits.toNat < 2 ^ 48 by omega)
        (Nat.pow_le_pow_right (by decide) high))
    constructor
    · rw [Addr.as16, Bytes.byteAt_ofNat (by decide)]
      exact congrArg UInt8.ofNat (zero 120 (by decide))
    · rw [Addr.as16, Bytes.byteAt_ofNat (by decide)]
      exact congrArg UInt8.ofNat (zero 112 (by decide))
  simp [Netutil.validIPv6, bytes.1, bytes.2] at valid

/-- A host that a pool may hold: its addresses are of their families and it was used. -/
structure DynHost.Usable (d : DynHost) : Prop where
  v4 : ∃ bits, d.v4 = .v4 bits
  v6 : ∃ bits, d.v6 = .v6 bits ""
  valid : Netutil.validIPv6 d.v6.as16 = true
  used : 0 < d.lastUse.toInt

theorem DynHost.Usable.legible {d : DynHost} (usable : d.Usable) : d.Legible := by
  obtain ⟨four, v4⟩ := usable.v4
  obtain ⟨six, v6⟩ := usable.v6
  have valid := usable.valid
  rw [v6] at valid
  have plain := not_is4In6_of_valid valid
  obtain ⟨n, last⟩ := Int.eq_ofNat_of_zero_le usable.used.le
  have small : n < 2 ^ 63 := by
    have := d.lastUse.toInt_lt
    omega
  have text : d.lastText = Nat.toDigits 10 n := by
    rw [lastText, last]
    exact toList_toString n
  have word := plain_decimal n (show 0 < 19 by decide) (small.trans (by decide))
  refine ⟨?_, ?_, ?_, ?_, ?_, ?_, ?_⟩
  · rw [v4]
    exact parseAddr_dotted four
  · rw [v6]
    exact parseAddr_text rfl plain
  · rw [text, parseInt_toDigits small, last]
  · rw [v4]
    exact (plain_v4 four).oneWord
  · rw [v6]
    exact (plain_v6 plain).oneWord
  · rw [text]
    exact word.oneWord
  · have first := (plain_v4 four).byteSize
    have second := (plain_v6 plain).byteSize
    have third := word.byteSize
    have cons (c : Char) (l : Text) : Scan.byteSize (c :: l) = c.utf8Size + Scan.byteSize l := by
      simp [Scan.byteSize]
    have tab : '\t'.utf8Size = 1 := by decide
    have newline : '\n'.utf8Size = 1 := by decide
    have nil : Scan.byteSize [] = 0 := rfl
    rw [line, text, v4, v6]
    simp only [Scan.byteSize_append, cons, tab, newline, nil, Scan.maxTokenSize]
    omega

namespace Pool

variable {p q : Pool}

/-- Loading undoes saving: a new pool with the same addresses and leases takes over what
another pool wrote. Hosts go on where they were, unless the clock has gone back. Only for addresses
with a zone it is left open how they are printed. -/
theorem read_write {o : PoolOptions} {reserved : Addr → Bool} (inv : p.Invariant)
    (zoned : ∀ r, p.Holds r → (p.host r).v6.hasZone = true → (p.host r).Legible)
    (valid : ∀ r, p.Holds r → (p.host r).v6.is6 ∧ Netutil.validIPv6 (p.host r).v6.as16 = true)
    (used : ∀ r, p.Holds r → 0 < (p.host r).lastUse.toInt) (made : newPool p.pfx o = .ok q)
    (minLease : q.minLease = p.minLease)
    (unreserved : ∀ r, p.Holds r → reserved (p.host r).v4 = false) (m m' : Moment) (stamp : Stamp)
    {result : (Nat × Bool) × Pool}
    (read : (q.reserve reserved).read m' (Scan.ofText [] (p.write m stamp)) = result) :
    result.1 = (p.mapped.entries.length + p.dormant.entries.length, true) ∧
      result.2.pairs = p.pairs ∧
      ((∀ r, p.Holds r → (p.host r).lastUse.toInt ≤ m'.now.unix.toInt) →
        ∀ r, p.Holds r → ∃ s, (result.2.host s).pair = (p.host r).pair ∧
          (result.2.host s).lastUse = (p.host r).lastUse ∧
          if m'.now.unix.toInt ≤ (p.host r).lastUse.toInt + p.minLease.seconds.toInt then
            result.2.mapped.get (p.host r).v6 = some s
          else result.2.dormant.get (p.host r).v6 = some s) ∧
      ((∃ r, p.Holds r ∧ m'.now.unix.toInt < (p.host r).lastUse.toInt) →
        ∀ r, p.Holds r → ∃ s, (result.2.host s).pair = (p.host r).pair ∧
          (result.2.host s).lastUse = m'.now.unix - p.minLease.seconds ∧
          result.2.dormant.get (p.host r).v6 = some s) := by
  obtain ⟨fresh, empty⟩ := newPool_sound made
  have same : q.toRange = p.toRange := range_eq_of_pfx (newPool_pfx made)
  have range : (q.reserve reserved).toRange = p.toRange := same
  have sound : (q.reserve reserved).Sound := ⟨fresh.size, fresh.filed, fresh.placed, fresh.used⟩
  have legible {r : Ref} (held : p.Holds r) : (p.host r).Legible := by
    obtain ⟨six, ok⟩ := valid r held
    have zone := zoned r held
    have v4 := (inv.placed r held).2.2
    cases v6 : (p.host r).v6 with
    | zero => simp [v6, Addr.is6] at six
    | v4 bits => simp [v6, Addr.is6] at six
    | v6 bits zone' =>
      by_cases none : zone' = ""
      · subst none
        exact DynHost.Usable.legible ⟨⟨_, v4⟩, ⟨bits, v6⟩, ok, used r held⟩
      · exact zone (by simp [v6, Addr.hasZone, none])
  have welcome : ∀ d ∈ p.hosts m.order, (q.reserve reserved).Welcome d := by
    intro d member
    obtain ⟨r, held, rfl⟩ := (mem_hosts m.order).mp member
    obtain ⟨low, high, v4⟩ := inv.placed r held
    refine ⟨legible held, ⟨fun zero => ?_, ?_⟩, ?_, (valid r held).1, (valid r held).2,
      used r held, unreserved r held⟩
    · simp [zero] at low
    · rw [BitVec.le_def, range]
      exact high
    · rw [v4, addr, range]
  obtain ⟨count, ok, table⟩ := read_written sound empty stamp m' welcome
    (inv.places m.order) (inv.names m.order)
  rw [write] at read
  rw [read] at count ok table
  rw [length_hosts] at count
  -- the host at the place of a host that was written
  have seen {r : Ref} (held : p.Holds r) : result.2.table (p.host r).off =
      some ((p.host r).doze.settled ((p.hosts m.order).any fun d => d.lastUse > m'.now.unix)
        m'.now.unix p.minLease.seconds) := by
    rw [table, find?_off (inv.places m.order) ((mem_hosts m.order).mpr ⟨r, held, rfl⟩),
      ← minLease]
    rfl
  have settledPair (d : DynHost) (future : Bool) (now lease : Int64) :
      (d.doze.settled future now lease).pair = d.pair := by
    rw [DynHost.settled]
    split
    · rfl
    split <;> rfl
  refine ⟨count, Set.ext fun pair => ?_, fun past r held => ?_, fun late r held => ?_⟩
  · rw [ok.mem_pairs]
    constructor
    · rintro ⟨off, e, here, rfl⟩
      rw [table, Option.map_eq_some_iff] at here
      obtain ⟨d, found, rfl⟩ := here
      obtain ⟨r, held, rfl⟩ := (mem_hosts m.order).mp (List.mem_of_find?_eq_some found)
      exact ⟨r, held, (settledPair ..).symm⟩
    · rintro ⟨r, held, rfl⟩
      exact ⟨_, _, seen held, settledPair ..⟩
  · have here := seen held
    have present : ((p.hosts m.order).any fun d => d.lastUse > m'.now.unix) = false := by
      rw [List.any_eq_false]
      intro d member
      obtain ⟨s, held', rfl⟩ := (mem_hosts m.order).mp member
      have := past s held'
      rw [decide_eq_true_iff, gt_iff_lt, Int64.lt_iff_toInt_lt]
      omega
    rw [present, settled_past _ (used r held) (past r held)] at here
    split
    · rename_i early
      rw [if_pos early] at here
      obtain ⟨s, found, same⟩ := ok.find_mapped here rfl
      exact ⟨s, by rw [same]; rfl, by rw [same]; rfl, found⟩
    · rename_i ended
      rw [if_neg ended] at here
      obtain ⟨s, found, same⟩ := ok.find_dormant here rfl
      exact ⟨s, by rw [same]; rfl, by rw [same]; rfl, found⟩
  · have here := seen held
    have future : ((p.hosts m.order).any fun d => d.lastUse > m'.now.unix) = true := by
      obtain ⟨s, held', later⟩ := late
      rw [List.any_eq_true]
      refine ⟨_, (mem_hosts m.order).mpr ⟨s, held', rfl⟩, ?_⟩
      rw [decide_eq_true_iff, gt_iff_lt, Int64.lt_iff_toInt_lt]
      exact later
    rw [future] at here
    obtain ⟨s, found, same⟩ := ok.find_dormant here rfl
    exact ⟨s, by rw [same]; rfl, by rw [same]; rfl, found⟩

/-- Two hosts, one of them asleep, are saved and loaded again. -/
theorem read_write_two : ∃ p q result, newPool (.of (.v4 0x0a000000#32) 29) {} = .ok q ∧
    q.performAll [(.lookup6 (.v6 (0x20010db8 <<< 96) "") true, .second 10000),
      (.lookup6 (.v6 (0x20010db8 <<< 96 + 1) "") true, .second 18000), (.maintain, .second 18000)] = p ∧
    (q.reserve fun _ => false).read (.second 18100) (Scan.ofText []
      (p.write (.second 18000) ⟨[], by decide, by decide⟩)) = result ∧
    result.1 = (2, true) ∧ result.2.pairs = p.pairs ∧
    (result.2.dormant.get (.v6 (0x20010db8 <<< 96) "")).isSome ∧
    (result.2.mapped.get (.v6 (0x20010db8 <<< 96 + 1) "")).isSome := by
  obtain ⟨p, q, made, ran, pfx, leases, mapped, dormant, first, second⟩ : ∃ p q,
      newPool (.of (.v4 0x0a000000#32) 29) {} = .ok q ∧
      q.performAll [(.lookup6 (.v6 (0x20010db8 <<< 96) "") true, .second 10000),
        (.lookup6 (.v6 (0x20010db8 <<< 96 + 1) "") true, .second 18000), (.maintain, .second 18000)] = p ∧
      p.pfx = .of (.v4 0x0a000000#32) 29 ∧
      (q.minLease = p.minLease ∧ p.minLease.seconds = 7440) ∧
      p.mapped.entries = [⟨.v6 (0x20010db8 <<< 96 + 1) "", 1⟩] ∧
      p.dormant.entries = [⟨.v6 (0x20010db8 <<< 96) "", 0⟩] ∧
      ((p.host 0).v6 = .v6 (0x20010db8 <<< 96) "" ∧ (p.host 0).lastUse = 10000) ∧
      ((p.host 1).v6 = .v6 (0x20010db8 <<< 96 + 1) "" ∧ (p.host 1).lastUse = 18000) :=
    ⟨_, _, rfl, rfl, by decide +kernel, by decide +kernel, by decide +kernel, by decide +kernel,
      by decide +kernel, by decide +kernel⟩
  have sound : p.Sound := ran ▸ (performAll_sound _ (newPool_sound made).1).1
  have held : p.Holds 0 ∧ p.Holds 1 :=
    ⟨.inr ⟨_, (Dict.mem_entries _).mp (by rw [dormant]; exact .head _)⟩,
      .inl ⟨_, (Dict.mem_entries _).mp (by rw [mapped]; exact .head _)⟩⟩
  have only {P : Ref → Prop} (zero : P 0) (one : P 1) : ∀ r, p.Holds r → P r := by
    rintro r (⟨a, found⟩ | ⟨a, found⟩)
    · have member := (Dict.mem_entries _).mpr found
      rw [mapped, List.mem_singleton] at member
      cases member
      exact one
    · have member := (Dict.mem_entries _).mpr found
      rw [dormant, List.mem_singleton] at member
      cases member
      exact zero
  obtain ⟨count, pairs, past, -⟩ := @read_write p q {} (fun _ => false) sound.invariant
    (only (by simp [first.1, Addr.hasZone]) (by simp [second.1, Addr.hasZone]))
    (only (by rw [first.1]; decide +kernel) (by rw [second.1]; decide +kernel))
    (only (by rw [first.2]; decide) (by rw [second.2]; decide))
    (pfx ▸ made) leases.1 (fun _ _ => rfl) (.second 18000) (.second 18100)
    ⟨[], by decide, by decide⟩ _ rfl
  have settled := past (only (by rw [first.2]; decide) (by rw [second.2]; decide))
  rw [mapped, dormant] at count
  refine ⟨p, q, _, made, ran, rfl, count, pairs, ?_, ?_⟩
  · obtain ⟨s, -, -, asleep⟩ := settled 0 held.1
    rw [first.2, leases.2, if_neg (by decide), first.1] at asleep
    exact Option.isSome_of_eq_some asleep
  · obtain ⟨s, -, -, awake⟩ := settled 1 held.2
    rw [second.2, leases.2, if_pos (by decide), second.1] at awake
    exact Option.isSome_of_eq_some awake

end Pool

end Addrmap

end Clatto
