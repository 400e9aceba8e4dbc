import Clatto.Xlate.Wire

/-! Parsed packets as values. A parsed packet holds the bytes of its headers and
its payload and nothing of the buffer they came from. -/

namespace Clatto.Xlate

open Bytes

/-- A parsed IPv4 packet: the header with its options, and the payload up to the
total length. -/
structure Packet4 where
  hdr : Bytes
  data : Bytes
  hdr_ge : 20 ≤ hdr.length
  icmp_ge : byteAt hdr 9 = protoICMP → 8 ≤ data.length

namespace Packet4

variable (p : Packet4)

def tos : UInt8 := byteAt p.hdr 1
def total : Nat := be16 p.hdr 2
def ident : Nat := be16 p.hdr 4
def flagsOff : Nat := be16 p.hdr 6
def ttl : UInt8 := byteAt p.hdr 8
def proto : UInt8 := byteAt p.hdr 9
def src : Bytes := sub p.hdr 12 16
def dst : Bytes := sub p.hdr 16 20

/-- The packet as it was received, without anything past its total length. -/
def wire : Bytes := p.hdr ++ p.data

def size : Nat := p.hdr.length + p.data.length

def event (kind : Kind) (reason : Reason) : Event where
  kind := kind
  reason := reason
  family := 4
  proto := p.proto
  length := p.size
  src := Netip.Addr.from4 p.src
  dst := Netip.Addr.from4 p.dst

def icmpType : UInt8 := byteAt p.data 0
def icmpCode : UInt8 := byteAt p.data 1
def icmpRest : Nat := be32 p.data 4

/-- Whether an ICMP error may be sent about the packet: of the ICMP messages,
only echo requests are answered with one. -/
def Answerable : Prop := p.proto = protoICMP → p.icmpType = 8

instance : Decidable p.Answerable := inferInstanceAs (Decidable (_ → _))

/-- The packet with its payload cut to at most `max` bytes. -/
def clip (max : Nat) (room : 8 ≤ max) : Packet4 where
  hdr := p.hdr
  data := p.data.take max
  hdr_ge := p.hdr_ge
  icmp_ge := fun icmp => by have := p.icmp_ge icmp; simp; omega

end Packet4

/-- The checks of `parseIPv4` that depend on the protocol. -/
def proto4Reason (proto : UInt8) (fo len : Nat) : Reason :=
  if proto = protoICMP then
    if fo &&& (ip4OffMask ||| ip4FlagMF) ≠ 0 then .icmpFragmented
    else if len < icmpHdrLen then .icmpHeaderLength
    else .none
  else if proto = 0 ∨ proto = 43 ∨ proto = 44 ∨ proto = 58 ∨ proto = 60 then .ipv6OnlyProto
  else if fo &&& ip4FlagMF ≠ 0 ∧ len &&& 7 ≠ 0 then .fragmentMisaligned
  else if (fo &&& ip4OffMask) * 8 + len > 65535 then .fragmentTooLong
  else .none

theorem icmp_length_of_accepted {proto : UInt8} {fo len : Nat}
    (accepted : proto4Reason proto fo len = .none) (icmp : proto = protoICMP) : 8 ≤ len := by
  unfold proto4Reason at accepted
  rw [if_pos icmp] at accepted
  split at accepted
  · cases accepted
  · split at accepted
    · cases accepted
    · rename_i long
      exact Nat.le_of_not_lt long

/-- The header length an IPv4 packet claims. -/
def headerLen4 (raw : Bytes) : Nat := (byteAt raw 0 &&& 0x0f).toNat * 4

/-- Where the payload of an IPv4 packet ends. -/
def dataEnd4 (raw : Bytes) : Nat := if raw.length > be16 raw 2 then be16 raw 2 else raw.length

/-- The checks of `parseIPv4` on the fixed header. -/
def badHeader4 (raw : Bytes) : Prop :=
  byteAt raw 0 >>> 4 ≠ 4 ∨ headerLen4 raw < ipv4HdrLen ∨ raw.length < headerLen4 raw ∨
    be16 raw 2 < headerLen4 raw ∨ Netutil.classifyIPv4 (sub raw 12 16) = .invalid ∨
    Netutil.classifyIPv4 (sub raw 16 20) = .invalid

instance (raw : Bytes) : Decidable (badHeader4 raw) := by
  unfold badHeader4
  infer_instance

theorem headerLen4_bounds {raw : Bytes} (good : ¬ badHeader4 raw) :
    20 ≤ headerLen4 raw ∧ headerLen4 raw ≤ dataEnd4 raw ∧ dataEnd4 raw ≤ raw.length := by
  simp only [badHeader4, ipv4HdrLen, not_or] at good
  unfold dataEnd4
  split <;> omega

/-- What `parseIPv4` accepts, or the event it leads to for a packet of its own
family. -/
def parse4 (raw : Bytes) : Except Event Packet4 :=
  if raw.length < ipv4HdrLen then
    .error { kind := .drop, reason := .ipHeaderLength, family := 4, length := raw.length }
  else if bad : badHeader4 raw then
    .error { kind := .drop, reason := .ipHeaderInvalid, family := 4, length := ipv4HdrLen
             src := Netip.Addr.from4 (sub raw 12 16), dst := Netip.Addr.from4 (sub raw 16 20) }
  else
    let data := sub raw (headerLen4 raw) (dataEnd4 raw)
    if accepted : proto4Reason (byteAt raw 9) (be16 raw 6) data.length = .none then
      .ok {
        hdr := raw.take (headerLen4 raw)
        data := data
        hdr_ge := by have := headerLen4_bounds bad; simp; omega
        icmp_ge := fun icmp => by
          have := headerLen4_bounds bad
          rw [byteAt_take (by omega)] at icmp
          exact icmp_length_of_accepted accepted icmp }
    else
      .error { kind := .drop, reason := proto4Reason (byteAt raw 9) (be16 raw 6) data.length
               family := 4, proto := byteAt raw 9, length := headerLen4 raw + data.length
               src := Netip.Addr.from4 (sub raw 12 16), dst := Netip.Addr.from4 (sub raw 16 20) }

/-- What a parsed IPv4 packet is in terms of the bytes it came from. -/
structure Parsed4 (raw : Bytes) (p : Packet4) : Prop where
  long : 20 ≤ raw.length
  good : ¬ badHeader4 raw
  hdr : p.hdr = raw.take (headerLen4 raw)
  data : p.data = sub raw (headerLen4 raw) (dataEnd4 raw)
  accepted : proto4Reason p.proto p.flagsOff p.data.length = .none

theorem parse4_ok {raw : Bytes} {p : Packet4} (found : parse4 raw = .ok p) : Parsed4 raw p := by
  unfold parse4 at found
  split at found
  · cases found
  · rename_i long
    split at found
    · cases found
    · rename_i good
      dsimp only at found
      split at found
      · rename_i accepted
        cases found
        have bounds := headerLen4_bounds good
        refine ⟨Nat.le_of_not_lt long, good, rfl, rfl, ?_⟩
        simp only [Packet4.proto, Packet4.flagsOff, be16]
        rw [byteAt_take (by omega), byteAt_take (by omega), byteAt_take (by omega)]
        exact accepted
      · cases found

namespace Parsed4

variable {raw : Bytes} {p : Packet4}

theorem version (parsed : Parsed4 raw p) : byteAt raw 0 >>> 4 = 4 := by
  have good := parsed.good
  simp only [badHeader4, not_or, not_not] at good
  exact good.1

/-- The fixed part of the header stands at the front of the packet. -/
theorem byteAt_hdr (parsed : Parsed4 raw p) {i : Nat} (fixed : i < 20) :
    byteAt p.hdr i = byteAt raw i := by
  have := headerLen4_bounds parsed.good
  rw [parsed.hdr, byteAt_take (by omega)]

theorem be16_hdr (parsed : Parsed4 raw p) {i : Nat} (fixed : i + 1 < 20) :
    be16 p.hdr i = be16 raw i := by
  rw [be16, parsed.byteAt_hdr (by omega), parsed.byteAt_hdr fixed]
  rfl

theorem icmp_whole (parsed : Parsed4 raw p) (icmp : p.proto = protoICMP) :
    p.flagsOff &&& ip4OffMask = 0 ∧ p.flagsOff &&& ip4FlagMF = 0 := by
  have accepted := parsed.accepted
  rw [proto4Reason, if_pos icmp] at accepted
  split at accepted
  · cases accepted
  · rename_i whole
    rwa [not_not, Nat.and_or_distrib_left, Nat.or_eq_zero_iff] at whole

end Parsed4

/-- A parsed IPv6 packet: the fixed header, the extension headers before a
fragment header, that fragment header, and the payload. -/
structure Packet6 where
  hdr : Bytes
  ext : Bytes
  frag : Option Bytes
  proto : UInt8
  data : Bytes
  hdr_length : hdr.length = 40
  frag_length : ∀ {f}, frag = some f → f.length = 8
  icmp_ge : proto = protoICMPv6 → 8 ≤ data.length

namespace Packet6

variable (p : Packet6)

def tc : UInt8 := UInt8.ofNat (be32 p.hdr 0 >>> 20)
def payloadLen : Nat := be16 p.hdr 4
def hop : UInt8 := byteAt p.hdr 7
def src : Bytes := sub p.hdr 8 24
def dst : Bytes := sub p.hdr 24 40

/-- Offset and flag of the fragment header; zero without one. -/
def offFlags : Nat := p.frag.elim 0 fun f => be16 f 2

/-- The length of everything between the fixed header and the payload. -/
def extLen : Nat := p.ext.length + (p.frag.getD []).length

def wire : Bytes := p.hdr ++ (p.ext ++ (p.frag.getD [] ++ p.data))

def size : Nat := ipv6HdrLen + p.extLen + p.data.length

def event (kind : Kind) (reason : Reason) : Event where
  kind := kind
  reason := reason
  family := 6
  proto := p.proto
  length := p.size
  src := Netip.Addr.from16 p.src
  dst := Netip.Addr.from16 p.dst

def icmpType : UInt8 := byteAt p.data 0
def icmpCode : UInt8 := byteAt p.data 1
def icmpRest : Nat := be32 p.data 4

def Answerable : Prop := p.proto = protoICMPv6 → p.icmpType = 128

instance : Decidable p.Answerable := inferInstanceAs (Decidable (_ → _))

def clip (max : Nat) (room : 8 ≤ max) : Packet6 where
  hdr := p.hdr
  ext := p.ext
  frag := p.frag
  proto := p.proto
  data := p.data.take max
  hdr_length := p.hdr_length
  frag_length := p.frag_length
  icmp_ge := fun icmp => by have := p.icmp_ge icmp; simp; omega

end Packet6

/-- What remains after the extension headers: an optional fragment header, the
transport protocol and its bytes. -/
structure Body6 where
  frag : Option Bytes
  proto : UInt8
  data : Bytes
  frag_length : ∀ {f}, frag = some f → f.length = 8

/-- The fragment header of `parseIPv6`; a failure names the protocol known by
then. -/
def splitFrag (proto : UInt8) (body : Bytes) : Except (UInt8 × Reason) Body6 :=
  if proto = protoFrag then
    if short : body.length < fragHdrLen then .error (proto, .fragHeaderLength)
    else if be16 body 2 &&& ip6FragMF ≠ 0 ∧ (body.length - fragHdrLen) &&& 7 ≠ 0 then
      .error (byteAt body 0, .fragmentMisaligned)
    else if (be16 body 2 &&& ip6FragMask) + (body.length - fragHdrLen) > 65535 then
      .error (byteAt body 0, .fragmentTooLong)
    else .ok {
      frag := some (body.take 8), proto := byteAt body 0, data := body.drop 8
      frag_length := by rintro f ⟨⟩; simp only [fragHdrLen] at short; simp; omega }
  else .ok { frag := none, proto, data := body, frag_length := nofun }

theorem splitFrag_some {body : Bytes} {b : Body6} (splits : splitFrag protoFrag body = .ok b) :
    8 ≤ body.length ∧ b.frag = some (body.take 8) ∧ b.proto = byteAt body 0 ∧
      b.data = body.drop 8 := by
  rw [splitFrag, if_pos rfl] at splits
  split at splits
  · cases splits
  · rename_i long
    split at splits
    · cases splits
    · split at splits
      · cases splits
      · cases splits
        exact ⟨Nat.le_of_not_lt long, rfl, rfl, rfl⟩

/-- The checks of `parseIPv6` that depend on the protocol. -/
def proto6Reason (proto : UInt8) (offFlags len : Nat) : Reason :=
  if proto = protoICMPv6 then
    if offFlags &&& (ip6FragMask ||| ip6FragMF) ≠ 0 then .icmpFragmented
    else if len < icmpHdrLen then .icmpHeaderLength
    else .none
  else if proto = protoICMP then .ipv4OnlyProto
  else .none

theorem icmp6_length_of_accepted {proto : UInt8} {offFlags len : Nat}
    (accepted : proto6Reason proto offFlags len = .none) (icmp : proto = protoICMPv6) :
    8 ≤ len := by
  unfold proto6Reason at accepted
  rw [if_pos icmp] at accepted
  split at accepted
  · cases accepted
  · split at accepted
    · cases accepted
    · rename_i long
      exact Nat.le_of_not_lt long

/-- The extension-header loop of `parseIPv6` over the bytes `b` up to the end of
the payload; it stops short with `error` at a header that does not fit. -/
def walk (b : Bytes) : Nat → ExtScan → Except ExtScan ExtScan
  | 0, s => .error s
  | fuel + 1, s =>
    if s.proto = 0 ∨ s.proto = 43 ∨ s.proto = 60 then
      let hl := ((byteAt b (s.lo + 1)).toNat + 1) * 8
      if b.length - s.lo < 2 ∨ b.length - s.lo < hl then .error s
      else
        let segLeft := if s.proto = 43 then (byteAt b (s.lo + 3)).toNat else s.segLeft
        walk b fuel {
          proto := byteAt b s.lo, lo := s.lo + hl, hdrLen := s.hdrLen + hl, segLeft
          segPtr := if segLeft = 0 then s.segPtr + hl else s.segPtr }
    else .ok s

/-- How `handleIPv6` treats a packet that does not parse. -/
inductive Fail6 where
  | silent
  | drop (e : Event)
  | sourceRoute (p : Packet6) (pointer : Nat)

/-- Where the payload of an IPv6 packet ends. -/
def dataEnd6 (raw : Bytes) : Nat :=
  if raw.length - ipv6HdrLen > be16 raw 4 then ipv6HdrLen + be16 raw 4 else raw.length

def badHeader6 (raw : Bytes) : Prop :=
  byteAt raw 0 >>> 4 ≠ 6 ∨ ¬ Netutil.validIPv6 (sub raw 8 24) ∨ ¬ Netutil.validIPv6 (sub raw 24 40)

instance (raw : Bytes) : Decidable (badHeader6 raw) := by
  unfold badHeader6
  infer_instance

/-- The event about an IPv6 packet whose addresses are known. -/
def dropEvent6 (raw : Bytes) (proto : UInt8) (length : Nat) (reason : Reason) : Event where
  kind := .drop
  reason := reason
  family := 6
  proto := proto
  length := length
  src := Netip.Addr.from16 (sub raw 8 24)
  dst := Netip.Addr.from16 (sub raw 24 40)

def startScan (raw : Bytes) : ExtScan where
  proto := byteAt raw 6
  lo := ipv6HdrLen
  hdrLen := 0
  segLeft := 0
  segPtr := ipv6HdrLen

/-- What `parseIPv6` accepts, or what its failure leads to. -/
def parse6 (raw : Bytes) : Except Fail6 Packet6 :=
  if short : raw.length < ipv6HdrLen then
    .error (.drop
      { kind := .drop, reason := .ipHeaderLength, family := 6, length := raw.length })
  else if badHeader6 raw then
    if byteAt raw 8 = 0xff ∨ byteAt raw 24 = 0xff then .error .silent
    else .error (.drop (dropEvent6 raw 0 ipv6HdrLen .ipHeaderInvalid))
  else
    let stop := dataEnd6 raw
    match walk (raw.take stop) (raw.length + 1) (startScan raw) with
    | .error s => .error (.drop (dropEvent6 raw s.proto stop .extHeaderLength))
    | .ok s =>
      match splitFrag s.proto (sub raw s.lo stop) with
      | .error (proto, reason) => .error (.drop (dropEvent6 raw proto stop reason))
      | .ok body =>
        let offFlags := body.frag.elim 0 fun f => be16 f 2
        if accepted : proto6Reason body.proto offFlags body.data.length = .none then
          let p : Packet6 := {
            hdr := raw.take ipv6HdrLen
            ext := sub raw ipv6HdrLen s.lo
            frag := body.frag
            proto := body.proto
            data := body.data
            hdr_length := by simp only [ipv6HdrLen] at short ⊢; simp; omega
            frag_length := body.frag_length
            icmp_ge := icmp6_length_of_accepted accepted }
          if s.segLeft ≠ 0 then .error (.sourceRoute p (s.segPtr + 4)) else .ok p
        else
          .error (.drop (dropEvent6 raw body.proto stop
            (proto6Reason body.proto offFlags body.data.length)))

/-- What a parsed IPv6 packet is in terms of the bytes it came from. -/
structure Parsed6 (raw : Bytes) (p : Packet6) : Prop where
  long : 40 ≤ raw.length
  good : ¬ badHeader6 raw
  hdr : p.hdr = raw.take ipv6HdrLen
  body : ∃ s b, walk (raw.take (dataEnd6 raw)) (raw.length + 1) (startScan raw) = .ok s ∧
    splitFrag s.proto (sub raw s.lo (dataEnd6 raw)) = .ok b ∧ p.ext = sub raw ipv6HdrLen s.lo ∧
    p.frag = b.frag ∧ p.proto = b.proto ∧ p.data = b.data
  accepted : proto6Reason p.proto p.offFlags p.data.length = .none

/-- Both a parsed packet and one refused for its source route are read alike. -/
theorem parse6_reads {raw : Bytes} {p : Packet6}
    (found : parse6 raw = .ok p ∨ ∃ pointer, parse6 raw = .error (.sourceRoute p pointer)) :
    Parsed6 raw p := by
  unfold parse6 at found
  split at found
  · obtain ⟨⟨⟩⟩ | ⟨_, ⟨⟩⟩ := found
  · rename_i long
    split at found
    · split at found <;> obtain ⟨⟨⟩⟩ | ⟨_, ⟨⟩⟩ := found
    · rename_i good
      dsimp only at found
      split at found
      · obtain ⟨⟨⟩⟩ | ⟨_, ⟨⟩⟩ := found
      · rename_i s walked
        split at found
        · obtain ⟨⟨⟩⟩ | ⟨_, ⟨⟩⟩ := found
        · rename_i b splits
          split at found
          · rename_i accepted
            have reads : ∀ {q : Packet6}, q.hdr = raw.take ipv6HdrLen →
                q.ext = sub raw ipv6HdrLen s.lo → q.frag = b.frag → q.proto = b.proto →
                q.data = b.data → Parsed6 raw q := by
              intro q hdr ext frag proto data
              refine ⟨Nat.le_of_not_lt long, good, hdr, ⟨s, b, walked, splits, ext, frag, proto,
                data⟩, ?_⟩
              rw [Packet6.offFlags, frag, proto, data]
              exact accepted
            split at found
            · obtain ⟨⟨⟩⟩ | ⟨_, ⟨⟩⟩ := found
              exact reads rfl rfl rfl rfl rfl
            · obtain ⟨⟨⟩⟩ | ⟨_, ⟨⟩⟩ := found
              exact reads rfl rfl rfl rfl rfl
          · obtain ⟨⟨⟩⟩ | ⟨_, ⟨⟩⟩ := found

theorem parse6_ok {raw : Bytes} {p : Packet6} (found : parse6 raw = .ok p) : Parsed6 raw p :=
  parse6_reads (.inl found)

namespace Parsed6

variable {raw : Bytes} {p : Packet6}

theorem version (parsed : Parsed6 raw p) : byteAt raw 0 >>> 4 = 6 := by
  have good := parsed.good
  simp only [badHeader6, not_or, not_not] at good
  exact good.1

theorem byteAt_hdr (parsed : Parsed6 raw p) {i : Nat} (fixed : i < 40) :
    byteAt p.hdr i = byteAt raw i := by
  rw [parsed.hdr]
  exact byteAt_take fixed

theorem icmp_whole (parsed : Parsed6 raw p) (icmp : p.proto = protoICMPv6) :
    p.offFlags &&& ip6FragMask = 0 ∧ p.offFlags &&& ip6FragMF = 0 := by
  have accepted := parsed.accepted
  rw [proto6Reason, if_pos icmp] at accepted
  split at accepted
  · cases accepted
  · rename_i whole
    rwa [not_not, Nat.and_or_distrib_left, Nat.or_eq_zero_iff] at whole

theorem body_plain (parsed : Parsed6 raw p)
    (plain : ¬ (byteAt raw 6 = 0 ∨ byteAt raw 6 = 43 ∨ byteAt raw 6 = 60)) :
    ∃ b, splitFrag (byteAt raw 6) (sub raw 40 (dataEnd6 raw)) = .ok b ∧ p.ext = [] ∧
      p.frag = b.frag ∧ p.proto = b.proto ∧ p.data = b.data := by
  obtain ⟨s, b, walked, splits, ext, frag, proto, data⟩ := parsed.body
  have stays : walk (raw.take (dataEnd6 raw)) (raw.length + 1) (startScan raw) =
      .ok (startScan raw) := if_neg plain
  cases stays.symm.trans walked
  refine ⟨b, splits, ?_, frag, proto, data⟩
  rw [ext]
  simp [startScan, sub, ipv6HdrLen]

end Parsed6

end Clatto.Xlate
