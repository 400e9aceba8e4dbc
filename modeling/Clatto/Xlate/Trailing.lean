import Clatto.Xlate.Refine.FromIPv6

/-! Bytes behind the end of a packet. The translator sees what the header declares and nothing
else of the buffer. -/

namespace Clatto.Xlate

open Bytes Effect

variable {σ : Type} {raw : Bytes}

theorem sub_append_left {a : Bytes} {lo hi : Nat} (inside : hi ≤ a.length) (b : Bytes) :
    sub (a ++ b) lo hi = sub a lo hi := by
  rw [sub, List.take_append_of_le_length inside]
  rfl

section IPv4

variable (long : 20 ≤ raw.length) (declared : be16 raw 2 = raw.length) (rest : Bytes)

include long

theorem headerLen4_append : headerLen4 (raw ++ rest) = headerLen4 raw := by
  rw [headerLen4, headerLen4, byteAt_append_left (by omega)]

include declared

theorem dataEnd4_append : dataEnd4 (raw ++ rest) = raw.length ∧ dataEnd4 raw = raw.length := by
  rw [dataEnd4, dataEnd4, be16_append_left (by omega), declared, List.length_append]
  constructor <;> split <;> omega

/-- A header that claims to be longer than the packet is bad in any buffer. -/
theorem badHeader4_append : badHeader4 (raw ++ rest) ↔ badHeader4 raw := by
  simp only [badHeader4, headerLen4_append long, byteAt_append_left (show 0 < raw.length by omega),
    be16_append_left (show 2 + 1 < raw.length by omega), declared, List.length_append,
    sub_append_left (show 16 ≤ raw.length from by omega),
    sub_append_left (show 20 ≤ raw.length from long)]
  refine or_congr_right (or_congr_right ⟨?_, ?_⟩)
  · rintro (short | bad)
    · exact .inl (by omega)
    · exact .inr bad
  · rintro (short | bad)
    · exact .inr (.inl short)
    · exact .inr bad

theorem parse4_append : parse4 (raw ++ rest) = parse4 raw := by
  obtain ⟨stop, stop'⟩ := dataEnd4_append long declared rest
  have header := headerLen4_append long rest
  have data : sub (raw ++ rest) (headerLen4 raw) raw.length = sub raw (headerLen4 raw) raw.length :=
    sub_append_left le_rfl rest
  have src : sub (raw ++ rest) 12 16 = sub raw 12 16 := sub_append_left (by omega) rest
  have dst : sub (raw ++ rest) 16 20 = sub raw 16 20 := sub_append_left long rest
  have proto : byteAt (raw ++ rest) 9 = byteAt raw 9 := byteAt_append_left (by omega) rest
  have flags : be16 (raw ++ rest) 6 = be16 raw 6 := be16_append_left (by omega) rest
  have short : ¬ (raw ++ rest).length < ipv4HdrLen := by
    rw [List.length_append, ipv4HdrLen]
    omega
  rw [parse4, parse4, if_neg short, if_neg (show ¬ raw.length < ipv4HdrLen from by
    rw [ipv4HdrLen]
    omega)]
  by_cases bad : badHeader4 raw
  · rw [dif_pos ((badHeader4_append long declared rest).mpr bad), dif_pos bad, src, dst]
  · have bounds := headerLen4_bounds bad
    rw [dif_neg (mt (badHeader4_append long declared rest).mp bad), dif_neg bad]
    simp only [header, stop, stop', data, src, dst, proto, flags,
      List.take_append_of_le_length (bounds.2.1.trans bounds.2.2)]

end IPv4

theorem walk_fuel {b : Bytes} {fuel fuel' : Nat} {s : ExtScan} (enough : b.length - s.lo < fuel)
    (enough' : b.length - s.lo < fuel') : walk b fuel s = walk b fuel' s := by
  induction fuel generalizing fuel' s with
  | zero => omega
  | succ fuel ih =>
    obtain ⟨fuel', rfl⟩ : ∃ n, fuel' = n + 1 := ⟨fuel' - 1, by omega⟩
    rw [walk, walk]
    split
    · dsimp only
      split
      · rfl
      · rename_i room
        rw [not_or] at room
        exact ih (by dsimp only; omega) (by dsimp only; omega)
    · rfl

section IPv6

variable (long : 40 ≤ raw.length) (declared : 40 + be16 raw 4 = raw.length) (rest : Bytes)

include long declared

theorem dataEnd6_append : dataEnd6 (raw ++ rest) = raw.length ∧ dataEnd6 raw = raw.length := by
  rw [dataEnd6, dataEnd6, be16_append_left (by omega), List.length_append, ipv6HdrLen]
  constructor <;> split <;> omega

theorem parse6_append : parse6 (raw ++ rest) = parse6 raw := by
  obtain ⟨stop, stop'⟩ := dataEnd6_append long declared rest
  have src : sub (raw ++ rest) 8 24 = sub raw 8 24 := sub_append_left (by omega) rest
  have dst : sub (raw ++ rest) 24 40 = sub raw 24 40 := sub_append_left long rest
  have byte {i : Nat} (inside : i < 40) : byteAt (raw ++ rest) i = byteAt raw i :=
    byteAt_append_left (by omega) rest
  have bad : badHeader6 (raw ++ rest) ↔ badHeader6 raw := by
    rw [badHeader6, badHeader6, byte (by omega), src, dst]
  have event (proto : UInt8) (length : Nat) (reason : Reason) :
      dropEvent6 (raw ++ rest) proto length reason = dropEvent6 raw proto length reason := by
    rw [dropEvent6, dropEvent6, src, dst]
  have start : startScan (raw ++ rest) = startScan raw := by
    rw [startScan, startScan, byte (by omega)]
  have walked : walk raw ((raw ++ rest).length + 1) (startScan raw) =
      walk raw (raw.length + 1) (startScan raw) := by
    refine walk_fuel ?_ ?_
    · rw [List.length_append]
      omega
    · omega
  have short : ¬ (raw ++ rest).length < ipv6HdrLen := by
    rw [List.length_append, ipv6HdrLen]
    omega
  have short' : ¬ raw.length < ipv6HdrLen := by
    rw [ipv6HdrLen]
    omega
  rw [parse6, parse6, dif_neg short, dif_neg short']
  simp only [bad, byte (show 8 < 40 by omega), byte (show 24 < 40 by omega), event, stop, stop', start,
    List.take_left, List.take_length, walked]
  split
  · rfl
  cases reached : walk raw (raw.length + 1) (startScan raw) with
  | error s => rfl
  | ok s =>
    have inside := (walk_bounds long rfl (.inl reached)).1
    simp only [sub_append_left le_rfl rest, sub_append_left inside rest,
      List.take_append_of_le_length (show ipv6HdrLen ≤ raw.length from long)]

end IPv6

/-- A packet whose header declares the length it has. -/
def Declared (raw : Bytes) : Prop :=
  byteAt raw 0 >>> 4 = 4 ∧ 20 ≤ raw.length ∧ be16 raw 2 = raw.length ∨
    byteAt raw 0 >>> 4 = 6 ∧ 40 ≤ raw.length ∧ 40 + be16 raw 4 = raw.length

/-- What stands behind a packet in its buffer has no effect: the mapper and the emitter are
asked the same questions, and the same packets and events come of it. -/
theorem translate_append (env : Env σ) (t : Translator) (declared : Declared raw) (rest : Bytes) :
    translate env t (raw ++ rest) = translate env t raw := by
  have nonempty : 0 < raw.length := by
    rcases declared with ⟨-, long, -⟩ | ⟨-, long, -⟩ <;> omega
  have full : ¬ raw.length = 0 := by omega
  have full' : ¬ (raw ++ rest).length = 0 := by
    rw [List.length_append]
    omega
  rw [translate_eq, translate_eq, receive, receive, if_neg full, if_neg full',
    byteAt_append_left nonempty]
  rcases declared with ⟨version, long, length⟩ | ⟨version, long, length⟩
  · rw [if_pos version, if_pos version, receive4, receive4, parse4_append long length]
  · have other : ¬ byteAt raw 0 >>> 4 = 4 := by
      rw [version]
      decide
    rw [if_neg other, if_neg other, if_pos version, if_pos version, receive6, receive6,
      parse6_append long length]

/-- A datagram of 28 bytes to 198.51.100.7, in a buffer of 31. -/
theorem translate_append_padded :
    .translated 4 28 ∈ (translate Env.sample (Translator.sample 1500 .calc)
      ([0x45, 0, 0, 28, 0, 0, 0, 0, 64, 17, 0x8e, 0x91, 192, 0, 2, 5, 198, 51, 100, 7,
        0, 53, 0, 53, 0, 8, 0, 0] ++ [1, 2, 3]) ()).acts := by
  rw [translate_append _ _ (.inl (by decide))]
  decide +kernel

end Clatto.Xlate
