import Clatto.Netutil.Classify
import Clatto.Xlate.Event

/-! Parsing. A packet view holds the buffer and the bounds of the slices into
it, so that a write through one slice is seen through all of them. -/

namespace Clatto.Xlate

open Bytes

def ipv4HdrLen : Nat := 20
def ipv6HdrLen : Nat := 40
def fragHdrLen : Nat := 8
def icmpHdrLen : Nat := 8

/-- The difference between the IPv6 and IPv4 header sizes. -/
def mtuAdj : Nat := 20

def mtuMin : Nat := 1280

/-- The maximum size of a generated ICMPv4 error message. -/
def icmp4MaxLen : Nat := 576

def ip4FlagDF : Nat := 0x4000
def ip4FlagMF : Nat := 0x2000
def ip4OffMask : Nat := 0x1fff
def ip6FragMF : Nat := 0x0001
def ip6FragMask : Nat := 0xfff8

def protoICMP : UInt8 := 1
def protoTCP : UInt8 := 6
def protoUDP : UInt8 := 17
def protoFrag : UInt8 := 44
def protoICMPv6 : UInt8 := 58

/-- `xlate.pkt`. The slices of the source are bounds into `raw`: `ip` is
`raw[:n]`, `data` is `raw[lo:hi]`, and `frag` and `icmp` are the eight bytes
from the given offset. A `none` is a nil slice. -/
structure Pkt where
  raw : Bytes
  ip : Option Nat := none
  hdrLen : Nat := 0
  lo : Nat := 0
  hi : Nat := 0
  proto : UInt8 := 0
  frag : Option Nat := none
  icmp : Option Nat := none
  deriving DecidableEq

namespace Pkt

def ipBytes (p : Pkt) : Bytes := p.ip.elim [] fun n => p.raw.take n

def data (p : Pkt) : Bytes := sub p.raw p.lo p.hi

def fragBytes (p : Pkt) : Bytes := p.frag.elim [] fun at_ => sub p.raw at_ (at_ + fragHdrLen)

def icmpBytes (p : Pkt) : Bytes := p.icmp.elim [] fun at_ => sub p.raw at_ (at_ + icmpHdrLen)

def family (p : Pkt) : Checked UInt8 := do return (← index p.raw 0) >>> 4

def event (p : Pkt) (kind : Kind) (reason : Reason) : Checked Event := do
  let family ← p.family
  let e : Event := { kind, reason, family, proto := p.proto }
  if p.ip = none then return { e with length := p.raw.length }
  else if family = 4 then do
    let src ← slice p.ipBytes 12 16
    let dst ← slice p.ipBytes 16 20
    return { e with
      src := Netip.Addr.from4 src, dst := Netip.Addr.from4 dst
      length := p.hdrLen + p.data.length }
  else if family = 6 then do
    let src ← slice p.ipBytes 8 24
    let dst ← slice p.ipBytes 24 40
    return { e with
      src := Netip.Addr.from16 src, dst := Netip.Addr.from16 dst
      length := ipv6HdrLen + p.hdrLen + p.data.length }
  else return e

end Pkt

def ip4TotalLen (h : Bytes) : Checked Nat := uint16At h 2
def ip4Ident (h : Bytes) : Checked Nat := uint16At h 4
def ip4FlagsOff (h : Bytes) : Checked Nat := uint16At h 6
def ip6VerTcFl (h : Bytes) : Checked Nat := uint32At h 0
def ip6PayloadLen (h : Bytes) : Checked Nat := uint16At h 4
def icmpWord (h : Bytes) : Checked Nat := uint32At h 4
def fragOffFlags (h : Bytes) : Checked Nat := uint16At h 2
def fragIdent (h : Bytes) : Checked Nat := uint32At h 4

/-- The offset and flag of the fragment header; zero stands for a nil one, which
the source tests first. -/
def Pkt.offFlags (p : Pkt) : Checked Nat :=
  if p.frag ≠ none then fragOffFlags p.fragBytes else pure 0

/-- The type of an ICMP message, or `other` for a packet of another protocol,
whose `icmp` the source does not read. -/
def Pkt.icmpTypeOr (p : Pkt) (icmp other : UInt8) : Checked UInt8 :=
  if p.proto = icmp then index p.icmpBytes 0 else pure other

/-- The last stage of `parseIPv4`: what each protocol asks of its payload. -/
def checkProto4 (p : Pkt) : Checked (Reason × Pkt) := do
  let fo ← ip4FlagsOff p.raw
  if p.proto = protoICMP then
    if fo &&& (ip4OffMask ||| ip4FlagMF) ≠ 0 then return (.icmpFragmented, p)
    else if p.data.length < icmpHdrLen then return (.icmpHeaderLength, p)
    else do
      let _ ← slice p.data 0 icmpHdrLen
      return (.none, { p with icmp := some p.lo })
  else if p.proto = 0 ∨ p.proto = 43 ∨ p.proto = 44 ∨ p.proto = 58 ∨ p.proto = 60 then
    return (.ipv6OnlyProto, p)
  else if fo &&& ip4FlagMF ≠ 0 ∧ p.data.length &&& 7 ≠ 0 then return (.fragmentMisaligned, p)
  else if (fo &&& ip4OffMask) * 8 + p.data.length > 65535 then return (.fragmentTooLong, p)
  else return (.none, p)

def parseIPv4 (p : Pkt) : Checked (Reason × Pkt) := do
  let raw := p.raw
  if raw.length < ipv4HdrLen then return (.ipHeaderLength, p)
  else do
    let first ← index raw 0
    let ihl := (first &&& 0x0f).toNat * 4
    let total ← ip4TotalLen raw
    let src ← slice raw 12 16
    let dst ← slice raw 16 20
    if first >>> 4 ≠ 4 ∨ ihl < ipv4HdrLen ∨ raw.length < ihl ∨ total < ihl ∨
        Netutil.classifyIPv4 src = .invalid ∨ Netutil.classifyIPv4 dst = .invalid then
      return (.ipHeaderInvalid, { p with ip := some ipv4HdrLen, hdrLen := ipv4HdrLen })
    else do
      let _ ← slice raw 0 ihl
      let stop := if raw.length > total then total else raw.length
      let _ ← slice raw ihl stop
      let proto ← index raw 9
      checkProto4 { p with ip := some ihl, hdrLen := ihl, lo := ihl, hi := stop, proto }

/-- The variables of the extension-header loop of `parseIPv6`; the data still to
be read is `raw[lo:hi]`. -/
structure ExtScan where
  proto : UInt8
  lo : Nat
  hdrLen : Nat
  segLeft : Nat
  segPtr : Nat

/-- The loop over hop-by-hop, routing and destination options headers. A reason
means that the loop left the function with it. -/
def scanExt (raw : Bytes) (hi : Nat) : Nat → ExtScan → Checked (Option Reason × ExtScan)
  | 0, _ => .error .hang
  | fuel + 1, s =>
    if s.proto = 0 ∨ s.proto = 43 ∨ s.proto = 60 then do
      let data ← slice raw s.lo hi
      if data.length < 2 then return (some .extHeaderLength, s)
      else do
        let hl := ((← index data 1).toNat + 1) * 8
        if data.length < hl then return (some .extHeaderLength, s)
        else do
          let segLeft ← if s.proto = 43 then UInt8.toNat <$> index data 3 else pure s.segLeft
          let segPtr := if segLeft = 0 then s.segPtr + hl else s.segPtr
          let proto ← index data 0
          let _ ← slice data hl data.length
          scanExt raw hi fuel
            { proto, lo := s.lo + hl, hdrLen := s.hdrLen + hl, segLeft, segPtr }
    else return (none, s)

/-- The last stage of `parseIPv6`: the transport protocol, then source routing. -/
def checkProto6 (p : Pkt) (segLeft segPtr : Nat) : Checked (Reason × Nat × Bool × Pkt) := do
  let finish (p : Pkt) : Reason × Nat × Bool × Pkt :=
    if segLeft ≠ 0 then (.routingHeaderSegmentsLeft, segPtr + 4, false, p)
    else (.none, 0, false, p)
  if p.proto = protoICMPv6 then do
    let of ← p.offFlags
    if of &&& (ip6FragMask ||| ip6FragMF) ≠ 0 then return (.icmpFragmented, 0, false, p)
    else if p.data.length < icmpHdrLen then return (.icmpHeaderLength, 0, false, p)
    else do
      let _ ← slice p.data 0 icmpHdrLen
      return finish { p with icmp := some p.lo }
  else if p.proto = protoICMP then return (.ipv4OnlyProto, 0, false, p)
  else return finish p

/-- The fragment header of `parseIPv6`, when the chain ends in one. -/
def checkFrag6 (p : Pkt) (segLeft segPtr : Nat) : Checked (Reason × Nat × Bool × Pkt) := do
  if p.proto = protoFrag then
    if p.data.length < fragHdrLen then return (.fragHeaderLength, 0, false, p)
    else do
      let frag ← slice p.data 0 fragHdrLen
      let proto ← index frag 0
      let data ← slice p.data fragHdrLen p.data.length
      let p := { p with
        frag := some p.lo, proto, lo := p.lo + fragHdrLen, hdrLen := p.hdrLen + fragHdrLen }
      let of ← fragOffFlags frag
      if of &&& ip6FragMF ≠ 0 ∧ data.length &&& 7 ≠ 0 then
        return (.fragmentMisaligned, 0, false, p)
      else if (of &&& ip6FragMask) + data.length > 65535 then
        return (.fragmentTooLong, 0, false, p)
      else checkProto6 p segLeft segPtr
  else checkProto6 p segLeft segPtr

/-- `parseIPv6`: the reason, the Parameter Problem pointer, whether the failure
must stay silent, and the view. -/
def parseIPv6 (p : Pkt) : Checked (Reason × Nat × Bool × Pkt) := do
  let raw := p.raw
  if raw.length < ipv6HdrLen then return (.ipHeaderLength, 0, false, p)
  else do
    let _ ← slice raw 0 ipv6HdrLen
    let p := { p with ip := some ipv6HdrLen }
    let first ← index raw 0
    let src ← slice raw 8 24
    let dst ← slice raw 24 40
    if first >>> 4 ≠ 6 ∨ ¬ Netutil.validIPv6 src ∨ ¬ Netutil.validIPv6 dst then do
      let silent := (← index raw 8) = 0xff ∨ (← index raw 24) = 0xff
      return (.ipHeaderInvalid, 0, decide silent, p)
    else do
      let proto ← index raw 6
      let data ← slice raw ipv6HdrLen raw.length
      let pl ← ip6PayloadLen raw
      let hi := if data.length > pl then ipv6HdrLen + pl else raw.length
      let _ ← slice raw ipv6HdrLen hi
      let (stopped, s) ← scanExt raw hi (raw.length + 1)
        { proto, lo := ipv6HdrLen, hdrLen := 0, segLeft := 0, segPtr := ipv6HdrLen }
      let p := { p with proto := s.proto, lo := s.lo, hi, hdrLen := s.hdrLen }
      match stopped with
      | some reason => return (reason, 0, false, p)
      | none => checkFrag6 p s.segLeft s.segPtr

/-- `estMTU`: the plateau table of RFC 1191. -/
def estMTU (tooBig : Nat) : Nat :=
  (([65535, 32000, 17914, 8166, 4352, 2002, 1492, 1006, 508, 296] : List Nat).find?
    fun m => tooBig > m).getD 68

end Clatto.Xlate
