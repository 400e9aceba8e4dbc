import Clatto.Xlate.Parsed

/-! Transport headers rewritten as values: the bytes before and after, without
the buffer they are rewritten in. -/

namespace Clatto.Xlate

open Bytes

/-- A UDP checksum field is never zero, which would mean that there is none. -/
def nonZero (udp : Bool) (ck : UInt16) : UInt16 := if udp ∧ ck = 0 then 0xffff else ck

/-- The payload with the checksum field at an offset moved from one
pseudo-header to another. -/
def adjustAt (udp : Bool) (data : Bytes) (field : Nat) (remove add : UInt64) : Bytes :=
  splice data field (enc16 (nonZero udp (adjust (UInt16.ofNat (be16 data field)) remove add)).toNat)

/-- What becomes of a UDP payload without a checksum. -/
def fillChecksum (mode : UDPChecksumMode) (data : Bytes) (pseudo : UInt64) : Except Reason Bytes :=
  match mode with
  | .forward => .ok data
  | .calc => .ok (splice data 6 (enc16 (nonZero true (checksum data pseudo)).toNat))
  | .drop => .error .udpZeroChecksum

/-- UDP and TCP for both families; `pseudo` sums the new pseudo-header. -/
def rewriteTransport (mode : UDPChecksumMode) (proto : UInt8) (data : Bytes)
    (pseudo remove add : UInt64) : Except Reason Bytes :=
  if proto = protoUDP then
    if data.length < 8 then .error .udpHeaderLength
    else if be16 data 6 = 0 then fillChecksum mode data pseudo
    else .ok (adjustAt true data 6 remove add)
  else if proto = protoTCP then
    if data.length < 20 then .error .tcpHeaderLength
    else .ok (adjustAt false data 16 remove add)
  else .ok data

/-- An echo message with its type and checksum replaced. -/
def retype (data : Bytes) (typ : UInt8) (ck : UInt16) : Bytes :=
  splice (splice data 0 [typ]) 2 (enc16 ck.toNat)

/-- Echo messages towards IPv6 gain a pseudo-header and a new type. -/
def echo4to6 (p : Packet4) (src6 dst6 : Bytes) : Bytes :=
  let ps := pseudo6 src6 dst6 ((p.total : Int) - p.hdr.length) protoICMPv6
  let old := (~~~ UInt16.ofNat (be16 p.data 2)).toUInt64
  if p.icmpType = 8 then
    retype p.data 128 (~~~ fold (old + ps + (128 - 8 : UInt64) <<< 8))
  else retype p.data 129 (~~~ fold (old + ps + (129 - 0 : UInt64) <<< 8))

/-- `payload4to6` on values. -/
def rewrite4to6 (mode : UDPChecksumMode) (p : Packet4) (src6 dst6 : Bytes) :
    Except Reason Bytes :=
  if p.flagsOff &&& ip4OffMask ≠ 0 then .ok p.data
  else if p.proto = protoICMP then .ok (echo4to6 p src6 dst6)
  else rewriteTransport mode p.proto p.data (pseudo6 src6 dst6 p.data.length protoUDP)
    (sum16 (sub p.hdr 12 20) 0) (sum16 (src6 ++ dst6) 0)

/-- Echo messages towards IPv4 lose the pseudo-header and the type's difference. -/
def echo6to4 (p : Packet6) : Bytes :=
  let ps := pseudo6 p.src p.dst ((p.payloadLen : Int) - p.extLen) protoICMPv6
  let old := (~~~ UInt16.ofNat (be16 p.data 2)).toUInt64
  if p.icmpType = 128 then
    retype p.data 8 (~~~ fold (old + (~~~ fold ps).toUInt64 +
      (~~~ ((128 - 8 : UInt16) <<< 8)).toUInt64))
  else
    retype p.data 0 (~~~ fold (old + (~~~ fold ps).toUInt64 +
      (~~~ ((129 - 0 : UInt16) <<< 8)).toUInt64))

/-- `payload6to4` on values. -/
def rewrite6to4 (mode : UDPChecksumMode) (p : Packet6) (src4 dst4 : Bytes) :
    Except Reason Bytes :=
  if p.offFlags &&& ip6FragMask ≠ 0 then .ok p.data
  else if p.proto = protoICMPv6 then .ok (echo6to4 p)
  else rewriteTransport mode p.proto p.data (pseudo4 src4 dst4 p.data.length protoUDP)
    (sum16 (sub p.hdr 8 40) 0) (sum16 (src4 ++ dst4) 0)

@[simp] theorem length_adjustAt (udp : Bool) (data : Bytes) (field : Nat) (remove add : UInt64) :
    (adjustAt udp data field remove add).length = data.length := length_splice ..

@[simp] theorem length_retype (data : Bytes) (typ : UInt8) (ck : UInt16) :
    (retype data typ ck).length = data.length := by simp [retype]

theorem byteAt_retype {data : Bytes} (long : 8 ≤ data.length) (typ : UInt8) (ck : UInt16) :
    byteAt (retype data typ ck) 0 = typ := by
  rw [retype, byteAt_splice_outside (by simp; omega) (.inl (by omega)), splice_eq (by simp; omega)]
  rfl

theorem length_rewriteTransport {mode : UDPChecksumMode} {proto : UInt8} {data out : Bytes}
    {pseudo remove add : UInt64}
    (done : rewriteTransport mode proto data pseudo remove add = .ok out) :
    out.length = data.length := by
  unfold rewriteTransport at done
  split at done
  · split at done
    · cases done
    · split at done
      · cases mode <;> simp only [fillChecksum] at done <;> cases done <;> simp
      · cases done
        simp
  · split at done
    · split at done
      · cases done
      · cases done
        simp
    · cases done
      rfl

theorem length_rewrite4to6 {mode : UDPChecksumMode} {p : Packet4} {src6 dst6 out : Bytes}
    (done : rewrite4to6 mode p src6 dst6 = .ok out) : out.length = p.data.length := by
  unfold rewrite4to6 at done
  split at done
  · cases done
    rfl
  · split at done
    · cases done
      simp only [echo4to6]
      split <;> simp
    · exact length_rewriteTransport done

theorem length_rewrite6to4 {mode : UDPChecksumMode} {p : Packet6} {src4 dst4 out : Bytes}
    (done : rewrite6to4 mode p src4 dst4 = .ok out) : out.length = p.data.length := by
  unfold rewrite6to4 at done
  split at done
  · cases done
    rfl
  · split at done
    · cases done
      simp only [echo6to4]
      split <;> simp
    · exact length_rewriteTransport done

end Clatto.Xlate
