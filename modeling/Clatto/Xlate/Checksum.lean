import Clatto.Lib.Bytes

/-! The Internet checksum as the translator computes it: unfolded 64-bit
accumulators, summed 32 bits at a time where there is room. -/

namespace Clatto.Xlate

open Bytes

/-- The loop of `sum16` that consumes eight bytes at a time; it returns the
accumulator and the bytes left over. -/
def sumOctets : Bytes → UInt64 → UInt64 × Bytes
  | b0 :: b1 :: b2 :: b3 :: b4 :: b5 :: b6 :: b7 :: rest, acc =>
    sumOctets rest (acc + (UInt64.ofNat (be32 [b0, b1, b2, b3] 0) +
      UInt64.ofNat (be32 [b4, b5, b6, b7] 0)))
  | rest, acc => (acc, rest)

/-- The loop of `sum16` that consumes two bytes at a time, and the trailing odd
byte as the high byte of a last word. -/
def sumPairs : Bytes → UInt64 → UInt64
  | b0 :: b1 :: rest, acc => sumPairs rest (acc + UInt64.ofNat (be16 [b0, b1] 0))
  | [b0], acc => acc + b0.toUInt64 <<< 8
  | [], acc => acc

def sum16 (b : Bytes) (acc : UInt64) : UInt64 :=
  let (acc, rest) := sumOctets b acc
  sumPairs rest acc

def fold (acc : UInt64) : UInt16 :=
  let acc := (acc >>> 32) + (acc &&& 0xffffffff)
  let acc := (acc >>> 32) + (acc &&& 0xffffffff)
  let acc := (acc >>> 16) + (acc &&& 0xffff)
  let acc := (acc >>> 16) + (acc &&& 0xffff)
  acc.toUInt16

/-- The value to store in the checksum field of `b`, whose field is zero. -/
def checksum (b : Bytes) (extra : UInt64) : UInt16 := ~~~ fold (sum16 b extra)

def verify (b : Bytes) (extra : UInt64) : Bool := fold (sum16 b extra) == 0xffff

def pseudo4 (src dst : Bytes) (length : Int) (proto : UInt8) : UInt64 :=
  sum16 (src.take 4) 0 + sum16 (dst.take 4) 0 + UInt64.ofInt length + proto.toUInt64

def pseudo6 (src dst : Bytes) (length : Int) (nextHeader : UInt8) : UInt64 :=
  sum16 (src.take 16) 0 + sum16 (dst.take 16) 0 + UInt64.ofNat (uint32 length >>> 16) +
    UInt64.ofNat (uint16 length) + nextHeader.toUInt64

/-- Incremental update of a checksum field: `remove` and `add` are unfolded sums
of the words that leave and enter the checksummed data. -/
def adjust (old : UInt16) (remove add : UInt64) : UInt16 :=
  ~~~ fold ((~~~ old).toUInt64 + (~~~ fold remove).toUInt64 + add)

end Clatto.Xlate
