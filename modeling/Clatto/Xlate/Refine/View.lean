import Clatto.Xlate.Refine.Fill
import Clatto.Xlate.Receive

/-! When a packet view over a buffer stands for a parsed packet, and what its
slices then read. -/

namespace Clatto.Xlate

open Bytes Effect

/-- A view whose slices spell the parsed IPv4 packet `v`. -/
structure View4 (p : Pkt) (v : Packet4) : Prop where
  ip : p.ip = some v.hdr.length
  hdrLen : p.hdrLen = v.hdr.length
  lo : p.lo = v.hdr.length
  hi : p.hi ≤ p.raw.length
  wire : p.raw.take p.hi = v.wire
  proto : p.proto = v.proto
  icmp : p.icmp = if v.proto = protoICMP then some p.lo else none
  family : byteAt p.raw 0 >>> 4 = 4

/-- A view whose slices spell the parsed IPv6 packet `v`. -/
structure View6 (p : Pkt) (v : Packet6) : Prop where
  ip : p.ip = some ipv6HdrLen
  hdrLen : p.hdrLen = v.extLen
  lo : p.lo = ipv6HdrLen + v.extLen
  hi : p.hi ≤ p.raw.length
  wire : p.raw.take p.hi = v.wire
  proto : p.proto = v.proto
  frag : p.frag = v.frag.map fun _ => ipv6HdrLen + v.ext.length
  icmp : p.icmp = if v.proto = protoICMPv6 then some p.lo else none
  family : byteAt p.raw 0 >>> 4 = 6

def Pkt.withData (p : Pkt) (d : Bytes) : Pkt := { p with raw := splice p.raw p.lo d }

namespace Pkt

variable {p : Pkt} {d : Bytes}

theorem length_data (bounded : p.hi ≤ p.raw.length) : p.data.length = p.hi - p.lo :=
  length_sub_of_le bounded p.lo

theorem data_withData (ordered : p.lo ≤ p.hi) (bounded : p.hi ≤ p.raw.length)
    (same : d.length = p.data.length) : (p.withData d).data = d := by
  have width := length_data bounded
  change sub (splice p.raw (p.lo + 0) d) p.lo p.hi = d
  rw [sub_splice_inside (by omega) bounded]
  exact splice_all same

theorem ipBytes_withData {n : Nat} (ip : p.ip = some n) (before : n ≤ p.lo) :
    (p.withData d).ipBytes = p.ipBytes := by
  simp only [ipBytes, withData, ip, Option.elim, take_splice before]

theorem withData_withData {d' : Bytes} (same : d'.length = d.length) :
    (p.withData d).withData d' = p.withData d' := by
  simp only [withData, splice_splice same]

theorem withData_splice (ordered : p.lo ≤ p.hi) (bounded : p.hi ≤ p.raw.length) {i : Nat}
    {w : Bytes} (fits : i + w.length ≤ p.data.length) :
    { p with raw := splice p.raw (p.lo + i) w } = p.withData (splice p.data i w) := by
  have before : (p.raw.take p.lo).length = p.lo := by simp; omega
  have parts : p.raw = p.raw.take p.lo ++ (p.data ++ p.raw.drop p.hi) := window_split ordered
  have left : splice p.raw (p.lo + i) w =
      p.raw.take p.lo ++ (splice p.data i w ++ p.raw.drop p.hi) := by
    conv_lhs => rw [parts]
    rw [splice_append (by omega), before, Nat.add_sub_cancel_left, splice_append_left fits]
  have right : splice p.raw p.lo (splice p.data i w) =
      p.raw.take p.lo ++ (splice p.data i w ++ p.raw.drop p.hi) := by
    conv_lhs => enter [1]; rw [parts]
    rw [splice_append (by omega), before, Nat.sub_self, splice_over (by simp)]
  rw [withData, left, right]

theorem putData_eq (ordered : p.lo ≤ p.hi) (bounded : p.hi ≤ p.raw.length) {i : Nat}
    {w : Bytes} (fits : i + w.length ≤ p.data.length) :
    p.putData i w = .ok (p.withData (splice p.data i w)) := by
  rw [putData, inRange_of fits, withData_splice ordered bounded fits]

theorem putICMP_eq (ordered : p.lo ≤ p.hi) (bounded : p.hi ≤ p.raw.length)
    (icmp : p.icmp = some p.lo) (long : 8 ≤ p.data.length) {i : Nat} {w : Bytes}
    (fits : i + w.length ≤ 8) :
    p.putICMP i w = .ok (p.withData (splice p.data i w)) := by
  have width := length_data bounded
  have eight : p.icmpBytes.length = 8 := by
    simp only [icmpBytes, icmp, Option.elim, icmpHdrLen]
    rw [length_sub_of_le (by omega)]
    omega
  have start : p.icmp.getD 0 = p.lo := by rw [icmp]; rfl
  rw [putICMP, inRange_of (by omega), start, withData_splice ordered bounded (by omega)]

theorem event_four {n : Nat} (family : byteAt p.raw 0 >>> 4 = 4) (ip : p.ip = some n)
    (wide : 20 ≤ n) (fits : n ≤ p.raw.length) (kind : Kind) (reason : Reason) :
    p.event kind reason = .ok {
      kind, reason, family := 4, proto := p.proto, length := p.hdrLen + p.data.length
      src := Netip.Addr.from4 (sub p.ipBytes 12 16)
      dst := Netip.Addr.from4 (sub p.ipBytes 16 20) } := by
  have present : ¬ p.ip = none := by simp [ip]
  have size : 20 ≤ p.ipBytes.length := by simp [ipBytes, ip]; omega
  rw [event, Pkt.family, index_eq (by omega)]
  simp (disch := omega) only [Checked.ok_bind, Checked.pure_eq, family, present, if_false, if_true,
    slice_eq]

theorem event_six {n : Nat} (family : byteAt p.raw 0 >>> 4 = 6) (ip : p.ip = some n)
    (wide : 40 ≤ n) (fits : n ≤ p.raw.length) (kind : Kind) (reason : Reason) :
    p.event kind reason = .ok {
      kind, reason, family := 6, proto := p.proto
      length := ipv6HdrLen + p.hdrLen + p.data.length
      src := Netip.Addr.from16 (sub p.ipBytes 8 24)
      dst := Netip.Addr.from16 (sub p.ipBytes 24 40) } := by
  have present : ¬ p.ip = none := by simp [ip]
  have other : ¬ (6 : UInt8) = 4 := by decide
  have size : 40 ≤ p.ipBytes.length := by simp [ipBytes, ip]; omega
  rw [event, Pkt.family, index_eq (by omega)]
  simp (disch := omega) only [Checked.ok_bind, Checked.pure_eq, family, present, other, if_false,
    if_true, slice_eq]

end Pkt

namespace View4

variable {p : Pkt} {v : Packet4}

theorem ordered (view : View4 p v) : p.lo ≤ p.hi := by
  have sizes := congrArg List.length view.wire
  simp only [Packet4.wire, List.length_append, List.length_take] at sizes
  have := view.lo
  have := view.hi
  omega

theorem data (view : View4 p v) : p.data = v.data := by
  rw [Pkt.data, sub, view.wire, view.lo, Packet4.wire, List.drop_left]

theorem ipBytes (view : View4 p v) : p.ipBytes = v.hdr := by
  have below : v.hdr.length ≤ p.hi := view.lo ▸ view.ordered
  rw [Pkt.ipBytes, view.ip]
  change p.raw.take v.hdr.length = v.hdr
  rw [← Nat.min_eq_left below, ← List.take_take, view.wire, Packet4.wire, List.take_left]

theorem icmpBytes (view : View4 p v) (icmp : v.proto = protoICMP) :
    p.icmpBytes = v.data.take 8 := by
  have long := v.icmp_ge icmp
  have width := Pkt.length_data view.hi
  rw [view.data] at width
  rw [Pkt.icmpBytes, view.icmp, if_pos icmp]
  change sub p.raw p.lo (p.lo + 8) = v.data.take 8
  rw [← view.data, Pkt.data, ← Bytes.sub_zero, Bytes.sub_sub (by omega)]
  rfl

theorem src (view : View4 p v) : slice p.ipBytes 12 16 = .ok v.src := by
  have := v.hdr_ge
  rw [view.ipBytes, slice_eq (by omega) (by omega)]
  rfl

theorem dst (view : View4 p v) : slice p.ipBytes 16 20 = .ok v.dst := by
  have := v.hdr_ge
  rw [view.ipBytes, slice_eq (by omega) (by omega)]
  rfl

theorem tos (view : View4 p v) : index p.ipBytes 1 = .ok v.tos := by
  have := v.hdr_ge
  rw [view.ipBytes, index_eq (by omega)]
  rfl

theorem ttl (view : View4 p v) : index p.ipBytes 8 = .ok v.ttl := by
  have := v.hdr_ge
  rw [view.ipBytes, index_eq (by omega)]
  rfl

theorem total (view : View4 p v) : ip4TotalLen p.ipBytes = .ok v.total := by
  have := v.hdr_ge
  rw [view.ipBytes, ip4TotalLen, uint16At_eq (by omega)]
  rfl

theorem ident (view : View4 p v) : ip4Ident p.ipBytes = .ok v.ident := by
  have := v.hdr_ge
  rw [view.ipBytes, ip4Ident, uint16At_eq (by omega)]
  rfl

theorem flagsOff (view : View4 p v) : ip4FlagsOff p.ipBytes = .ok v.flagsOff := by
  have := v.hdr_ge
  rw [view.ipBytes, ip4FlagsOff, uint16At_eq (by omega)]
  rfl

theorem icmpType (view : View4 p v) (icmp : v.proto = protoICMP) :
    index p.icmpBytes 0 = .ok v.icmpType := by
  have := v.icmp_ge icmp
  rw [view.icmpBytes icmp, index_eq (by simp; omega), byteAt_take (by omega)]
  rfl

theorem icmpTypeOr (view : View4 p v) (other : UInt8) :
    p.icmpTypeOr protoICMP other =
      .ok (if v.proto = protoICMP then v.icmpType else other) := by
  rw [Pkt.icmpTypeOr, view.proto]
  split
  · rename_i icmp
    exact view.icmpType icmp
  · rfl

theorem icmpCode (view : View4 p v) (icmp : v.proto = protoICMP) :
    index p.icmpBytes 1 = .ok v.icmpCode := by
  have := v.icmp_ge icmp
  rw [view.icmpBytes icmp, index_eq (by simp; omega), byteAt_take (by omega)]
  rfl

theorem icmpRest (view : View4 p v) (icmp : v.proto = protoICMP) :
    icmpWord p.icmpBytes = .ok v.icmpRest := by
  have := v.icmp_ge icmp
  rw [view.icmpBytes icmp, icmpWord, uint32At_eq (by simp; omega), ← Bytes.sub_zero,
    be32_sub (by omega)]
  rfl

theorem event (view : View4 p v) (kind : Kind) (reason : Reason) :
    p.event kind reason = .ok (v.event kind reason) := by
  have fits : v.hdr.length ≤ p.raw.length := view.lo ▸ view.ordered.trans view.hi
  rw [Pkt.event_four view.family view.ip v.hdr_ge fits, view.ipBytes, view.data, view.hdrLen,
    view.proto]
  rfl

theorem observe_eq {σ : Type} (view : View4 p v) (kind : Kind) (reason : Reason) :
    (observe p kind reason : Xl σ Unit) = report (v.event kind reason) := by
  rw [observe, view.event, lift_ok, pure_bind, report]

theorem clip (view : View4 p v) (max : Nat) (room : 8 ≤ max) :
    View4 (if p.data.length > max then { p with hi := p.lo + max } else p) (v.clip max room) := by
  have width := Pkt.length_data view.hi
  have ordered := view.ordered
  rw [view.data] at width
  split
  · rename_i long
    rw [view.data] at long
    have cut : p.raw.take (p.lo + max) = v.hdr ++ v.data.take max := by
      have below : p.lo + max ≤ p.hi := by omega
      rw [← Nat.min_eq_left below, ← List.take_take, view.wire, view.lo, Packet4.wire,
        List.take_length_add_append]
    exact { view with hi := by have := view.hi; change p.lo + max ≤ p.raw.length; omega, wire := cut }
  · rename_i short
    rw [view.data] at short
    have same : v.data.take max = v.data := List.take_of_length_le (by omega)
    exact { view with wire := view.wire.trans (congrArg (v.hdr ++ ·) same.symm) }

end View4

namespace View6

variable {p : Pkt} {v : Packet6}

theorem ordered (view : View6 p v) : p.lo ≤ p.hi := by
  have sizes := congrArg List.length view.wire
  have fixed := v.hdr_length
  simp only [Packet6.wire, List.length_append, List.length_take] at sizes
  have bounded := view.hi
  have lo := view.lo
  simp only [Packet6.extLen, ipv6HdrLen] at lo
  omega

theorem data (view : View6 p v) : p.data = v.data := by
  have front : v.wire = (v.hdr ++ (v.ext ++ v.frag.getD [])) ++ v.data := by
    simp [Packet6.wire]
  have width : (v.hdr ++ (v.ext ++ v.frag.getD [])).length = ipv6HdrLen + v.extLen := by
    simp [v.hdr_length, Packet6.extLen, ipv6HdrLen]
  rw [Pkt.data, sub, view.wire, view.lo, front, ← width, List.drop_left]

theorem ipBytes (view : View6 p v) : p.ipBytes = v.hdr := by
  have below : v.hdr.length ≤ p.hi := by
    have := view.ordered
    have := view.lo
    have := v.hdr_length
    simp only [ipv6HdrLen] at *
    omega
  rw [Pkt.ipBytes, view.ip]
  change p.raw.take 40 = v.hdr
  rw [← v.hdr_length, ← Nat.min_eq_left below, ← List.take_take, view.wire, Packet6.wire,
    List.take_left]

theorem length_ipBytes (view : View6 p v) : p.ipBytes.length = 40 := by
  rw [view.ipBytes, v.hdr_length]

theorem icmpBytes (view : View6 p v) (icmp : v.proto = protoICMPv6) :
    p.icmpBytes = v.data.take 8 := by
  have long := v.icmp_ge icmp
  have width := Pkt.length_data view.hi
  rw [view.data] at width
  rw [Pkt.icmpBytes, view.icmp, if_pos icmp]
  change sub p.raw p.lo (p.lo + 8) = v.data.take 8
  rw [← view.data, Pkt.data, ← Bytes.sub_zero, Bytes.sub_sub (by omega)]
  rfl

theorem fragBytes (view : View6 p v) {f : Bytes} (present : v.frag = some f) :
    p.fragBytes = f := by
  have eight := v.frag_length present
  have ordered := view.ordered
  have lo := view.lo
  simp only [Packet6.extLen, ipv6HdrLen, present, Option.getD] at lo
  have whole : v.wire = (v.hdr ++ v.ext) ++ (f ++ v.data) := by simp [Packet6.wire, present]
  rw [Pkt.fragBytes, view.frag, present]
  change sub p.raw (40 + v.ext.length) (40 + v.ext.length + 8) = f
  have inside : sub p.raw (40 + v.ext.length) (40 + v.ext.length + 8) =
      sub (p.raw.take p.hi) (40 + v.ext.length) (40 + v.ext.length + 8) := by
    rw [sub, sub, List.take_take, Nat.min_eq_left (by omega)]
  rw [inside, view.wire, whole, sub_window (by simp [v.hdr_length]) (by omega)]

theorem src (view : View6 p v) : slice p.ipBytes 8 24 = .ok v.src := by
  rw [slice_eq (by omega) (by rw [view.length_ipBytes]; omega), view.ipBytes]
  rfl

theorem dst (view : View6 p v) : slice p.ipBytes 24 40 = .ok v.dst := by
  rw [slice_eq (by omega) (by rw [view.length_ipBytes]), view.ipBytes]
  rfl

theorem tc (view : View6 p v) : trafficClass p.ipBytes = .ok v.tc := by
  rw [trafficClass_eq (by rw [view.length_ipBytes]; omega), view.ipBytes]
  rfl

theorem hop (view : View6 p v) : index p.ipBytes 7 = .ok v.hop := by
  rw [index_eq (by rw [view.length_ipBytes]; omega), view.ipBytes]
  rfl

theorem payloadLen (view : View6 p v) : ip6PayloadLen p.ipBytes = .ok v.payloadLen := by
  rw [ip6PayloadLen, uint16At_eq (by rw [view.length_ipBytes]; omega), view.ipBytes]
  rfl

theorem icmpType (view : View6 p v) (icmp : v.proto = protoICMPv6) :
    index p.icmpBytes 0 = .ok v.icmpType := by
  have := v.icmp_ge icmp
  rw [view.icmpBytes icmp, index_eq (by simp; omega), byteAt_take (by omega)]
  rfl

theorem icmpTypeOr (view : View6 p v) (other : UInt8) :
    p.icmpTypeOr protoICMPv6 other =
      .ok (if v.proto = protoICMPv6 then v.icmpType else other) := by
  rw [Pkt.icmpTypeOr, view.proto]
  split
  · rename_i icmp
    exact view.icmpType icmp
  · rfl

theorem icmpCode (view : View6 p v) (icmp : v.proto = protoICMPv6) :
    index p.icmpBytes 1 = .ok v.icmpCode := by
  have := v.icmp_ge icmp
  rw [view.icmpBytes icmp, index_eq (by simp; omega), byteAt_take (by omega)]
  rfl

theorem icmpRest (view : View6 p v) (icmp : v.proto = protoICMPv6) :
    icmpWord p.icmpBytes = .ok v.icmpRest := by
  have := v.icmp_ge icmp
  rw [view.icmpBytes icmp, icmpWord, uint32At_eq (by simp; omega), ← Bytes.sub_zero,
    be32_sub (by omega)]
  rfl

theorem offFlags (view : View6 p v) : p.offFlags = .ok v.offFlags := by
  unfold Pkt.offFlags
  cases present : v.frag with
  | none => simp [view.frag, present, Packet6.offFlags, Checked.pure_eq]
  | some f =>
    have eight := v.frag_length present
    have some : p.frag ≠ none := by simp [view.frag, present]
    rw [if_pos some, view.fragBytes present, fragOffFlags, uint16At_eq (by omega)]
    simp [Packet6.offFlags, present]

theorem event (view : View6 p v) (kind : Kind) (reason : Reason) :
    p.event kind reason = .ok (v.event kind reason) := by
  have fits : ipv6HdrLen ≤ p.raw.length := by
    have := view.ordered.trans view.hi
    have := view.lo
    omega
  rw [Pkt.event_six view.family view.ip le_rfl fits, view.ipBytes, view.data, view.hdrLen,
    view.proto]
  rfl

theorem observe_eq {σ : Type} (view : View6 p v) (kind : Kind) (reason : Reason) :
    (observe p kind reason : Xl σ Unit) = report (v.event kind reason) := by
  rw [observe, view.event, lift_ok, pure_bind, report]

theorem clip (view : View6 p v) (max : Nat) (room : 8 ≤ max) :
    View6 (if p.data.length > max then { p with hi := p.lo + max } else p) (v.clip max room) := by
  have width := Pkt.length_data view.hi
  have ordered := view.ordered
  have fixed : ∀ data, v.hdr ++ (v.ext ++ (v.frag.getD [] ++ data)) =
      (v.hdr ++ (v.ext ++ v.frag.getD [])) ++ data := by simp
  have front : (v.hdr ++ (v.ext ++ v.frag.getD [])).length = p.lo := by
    simp [v.hdr_length, view.lo, Packet6.extLen, ipv6HdrLen]
  rw [view.data] at width
  split
  · rename_i long
    rw [view.data] at long
    have cut : p.raw.take (p.lo + max) = (v.clip max room).wire := by
      have below : p.lo + max ≤ p.hi := by omega
      rw [← Nat.min_eq_left below, ← List.take_take, view.wire, Packet6.wire, fixed, ← front,
        List.take_length_add_append, ← fixed]
      rfl
    exact { view with hi := by have := view.hi; change p.lo + max ≤ p.raw.length; omega, wire := cut }
  · rename_i short
    rw [view.data] at short
    have same : v.data.take max = v.data := List.take_of_length_le (by omega)
    exact { view with
      wire := view.wire.trans
        (congrArg (fun data => v.hdr ++ (v.ext ++ (v.frag.getD [] ++ data))) same.symm) }

end View6

end Clatto.Xlate
