import Clatto.Xlate.Rewrite
import Clatto.Xlate.SixToFour

/-! The translator over parsed packets: what it asks of its mapper and emitter
and what it sends, with no buffer in between and nothing that can go out of
range. -/

namespace Clatto.Xlate

open Bytes Effect

variable {σ : Type}

/-- The mapper's answer for an IPv4 address, as bytes. -/
def Env.to6 (env : Env σ) (a : Bytes) (w : σ) : Except MapError Bytes × σ :=
  match env.mapIPv4ToIPv6 (Netip.Addr.from4 a) w with
  | (.error err, w') => (.error err, w')
  | (.ok r, w') => (if r.is6 then .ok r.as16 else .error .drop, w')

/-- The mapper's answer for an IPv6 address, as bytes. -/
def Env.to4 (env : Env σ) (allocate : Bool) (a : Bytes) (w : σ) : Except MapError Bytes × σ :=
  match env.mapIPv6ToIPv4 (Netip.Addr.from16 a) allocate w with
  | (.error err, w') => (.error err, w')
  | (.ok (.v4 bits), w') => (.ok (Bytes.ofNat 4 bits.toNat), w')
  | (.ok _, w') => (.error .drop, w')

def report (e : Event) : Xl σ Unit := act (.event e)

/-- Ask for a buffer of `n` bytes and send what `content` computes. -/
def emitWith (env : Env σ) (n : Nat) (content : Xl σ Bytes) : Xl σ Bool := do
  match ← ask (env.packet n) with
  | none => pure false
  | some _ => do
    let b ← content
    act (.packet b)
    pure true

def emit (env : Env σ) (b : Bytes) : Xl σ Bool := emitWith env b.length (pure b)

/-- Send a translation and count it, unless the emitter refuses. -/
def deliver (send : Xl σ Bool) (family : UInt8) (length : Nat) : Xl σ Unit := do
  let sent ← send
  if sent then act (.translated family length) else pure ()

/-- The bytes of a packet that an ICMPv4 error quotes. -/
def Packet4.quote (p : Packet4) : Bytes := p.wire.take (icmp4MaxLen - ipv4HdrLen - icmpHdrLen)

/-- The next header of a translated packet. -/
def Packet4.next (p : Packet4) : UInt8 := if p.proto = protoICMP then protoICMPv6 else p.proto

def complain4 (env : Env σ) (t : Translator) (typ code : UInt8) (word : Nat) (p : Packet4) :
    Xl σ Unit :=
  if p.Answerable then do
    let _ ← emit env (icmp4Packet 0 t.local4 p.src typ code word p.quote)
  else pure ()

def host4 (env : Env σ) (p : Packet4) : Xl σ Unit :=
  if p.icmpType = 8 then do
    report (p.event .self .echoRequest)
    let _ ← emit env
      (icmp4Packet p.tos p.dst p.src 0 p.icmpCode p.icmpRest (p.data.drop icmpHdrLen))
  else report (p.event .self .selfUnknownICMPType)

/-- The payload room of an IPv6 packet that may have to cross any link. -/
def Translator.room (t : Translator) : Int := min t.cfg.offlinkMTU t.cfg.mtu - ipv6HdrLen

/-- The payload room of a fragment: a multiple of eight. -/
def Translator.fragRoom (t : Translator) : Int :=
  (t.room - fragHdrLen) - (t.room - fragHdrLen) % 8

/-- The fragment header word: the offset, and whether more data follows. -/
def fragFlags (origMF : Bool) (off len n : Nat) : Nat :=
  if len > n ∨ origMF then off % 65536 ||| ip6FragMF else off % 65536

/-- One fragment of a translated packet: the `n` first bytes of what is left. -/
def fragment4to6 (p : Packet4) (src6 dst6 : Bytes) (off n : Nat) (data : Bytes) : Bytes :=
  ipv6Header p.tos (fragHdrLen + n) protoFrag (p.ttl - 1) src6 dst6 ++
    (fragHeader p.next (fragFlags (decide (p.flagsOff &&& ip4FlagMF ≠ 0)) off data.length n)
      p.ident ++ data.take n)

/-- The fragment loop. The room is positive for every usable MTU; without one
the loop faults or makes no progress. -/
def sendFragments (env : Env σ) (room : Int) (p : Packet4) (src6 dst6 : Bytes) :
    Nat → Nat → Bytes → Xl σ Bool
  | 0, _, _ => lift (.error .hang)
  | fuel + 1, off, data =>
    if data.length > 0 then
      let n : Int := if data.length < room then data.length else room
      if n < 0 then lift (.error .outOfRange)
      else do
        let sent ← emit env (fragment4to6 p src6 dst6 off n.toNat data)
        if sent then sendFragments env room p src6 dst6 fuel (off + n.toNat) (data.drop n.toNat)
        else pure false
    else pure true

def forward4 (env : Env σ) (t : Translator) (p : Packet4) (src6 dst6 : Bytes) : Xl σ Unit :=
  match noFragHdr t p.flagsOff t.room p.hdr.length p.data.length with
  | none => do
    report (p.event .icmp .packetTooBig)
    complain4 env t 3 4 (uint32 (t.cfg.mtu - mtuAdj)) p
  | some whole =>
    match rewrite4to6 t.cfg.udpChecksum p src6 dst6 with
    | .error r => report (p.event .drop r)
    | .ok data =>
      deliver (if whole then
          emit env (ipv6Header p.tos data.length p.next (p.ttl - 1) src6 dst6 ++ data)
        else sendFragments env t.fragRoom p src6 dst6 (data.length + 1)
          ((p.flagsOff &&& ip4OffMask) * 8) data) 4 p.size

/-- Report an address without a mapping, and complain about it if asked to. -/
def unmapped4 (env : Env σ) (t : Translator) (err : MapError) (reason : Reason) (code : UInt8)
    (p : Packet4) : Xl σ Unit :=
  if err = .reject then do
    report (p.event .reject reason)
    complain4 env t 3 code 0 p
  else report (p.event .drop reason)

def data4 (env : Env σ) (t : Translator) (p : Packet4) : Xl σ Unit := do
  match ← ask (env.to6 p.dst) with
  | .error err => unmapped4 env t err .destinationUnmappable 1 p
  | .ok dst6 => do
    match ← ask (env.to6 p.src) with
    | .error err => unmapped4 env t err .sourceUnmappable 10 p
    | .ok src6 => forward4 env t p src6 dst6

/-- The packet an ICMPv4 error embeds, cut to the RFC 4884 length. -/
def Packet4.embedded (p : Packet4) : Option Bytes :=
  let raw := p.data.drop icmpHdrLen
  let len := p.icmpRest >>> 14 &&& 0x3fc
  if (p.icmpType = 3 ∨ p.icmpType = 11 ∨ p.icmpType = 12) ∧ len ≠ 0 then
    if raw.length < len then none else some (raw.take len)
  else some raw

/-- The IPv6 form of an embedded packet, around its rewritten payload. -/
def inner4to6 (em : Packet4) (src6 dst6 data : Bytes) : Bytes :=
  ipv6Header em.tos (uint16 ((em.total : Int) - em.hdr.length)) em.next em.ttl src6 dst6 ++ data

def error4to6 (p : Packet4) (src6 dst6 : Bytes) (otype ocode : UInt8) (oword : Nat)
    (inner : Bytes) : Bytes :=
  ipv6Header p.tos (icmpHdrLen + inner.length) p.next (p.ttl - 1) src6 dst6 ++
    sealedICMP (pseudo6 src6 dst6 (icmpHdrLen + inner.length : Nat) protoICMPv6) otype ocode oword
      inner

def forwardErrorFrom4 (env : Env σ) (p : Packet4) (src6 : Bytes) (otype ocode : UInt8)
    (oword : Nat) (inner : Bytes) : Xl σ Unit := do
  match ← ask (env.to6 p.dst) with
  | .error _ => report (p.event .drop .destinationUnmappable)
  | .ok dst6 =>
    deliver (emit env (error4to6 p src6 dst6 otype ocode oword inner)) 4
      p.size

/-- Errors from routers without a mapping come from the translator. -/
def forwardError4 (env : Env σ) (t : Translator) (p : Packet4) (otype ocode : UInt8)
    (oword : Nat) (inner : Bytes) : Xl σ Unit := do
  match ← ask (env.to6 p.src) with
  | .ok src6 => forwardErrorFrom4 env p src6 otype ocode oword inner
  | .error _ => do
    report (p.event .icmp .synthesisedSource)
    forwardErrorFrom4 env p t.local6 otype ocode oword inner

def error4 (env : Env σ) (t : Translator) (p : Packet4) : Xl σ Unit :=
  match p.embedded with
  | none => report (p.event .drop .embeddedTooShort)
  | some raw =>
    match parse4 raw with
    | .error _ => report (p.event .drop .embeddedParseFailed)
    | .ok em =>
      if em.Answerable then do
        let emSrc ← ask (env.to6 em.src)
        let emDst ← ask (env.to6 em.dst)
        match emSrc, emDst with
        | .ok emSrc, .ok emDst => do
          match ← lift (errorType4to6 t p.icmpType p.icmpCode p.icmpRest em.total) with
          | .error reason => report (p.event .drop reason)
          | .ok (otype, ocode, oword) =>
            let max := mtuMin - 2 * ipv6HdrLen - icmpHdrLen
            match rewrite4to6 t.cfg.udpChecksum (em.clip max (by decide)) emSrc emDst with
            | .error _ => report (p.event .drop .embeddedUntranslatable)
            | .ok data =>
              forwardError4 env t p otype ocode oword (inner4to6 em emSrc emDst data)
        | _, _ => report (p.event .drop .embeddedUnmappable)
      else report (p.event .drop .icmpErrorOfICMPError)

def receive4 (env : Env σ) (t : Translator) (raw : Bytes) : Xl σ Unit :=
  match parse4 raw with
  | .error e => report e
  | .ok p =>
    if p.ttl = 0 ∨ ¬ verify p.hdr 0 ∨ p.size ≠ p.total then
      report (p.event .drop .ipHeaderInvalid)
    else if p.proto = protoICMP ∧ ¬ verify p.data 0 then
      report (p.event .drop .icmpChecksumInvalid)
    else if p.dst = t.local4 then
      if p.proto = protoICMP then host4 env p
      else do
        report (p.event .reject .selfUnknownProto)
        complain4 env t 3 2 0 p
    else if p.ttl = 1 then do
      report (p.event .icmp .timeExceeded)
      complain4 env t 11 0 0 p
    else if p.proto = protoICMP → p.icmpType = 8 ∨ p.icmpType = 0 then data4 env t p
    else error4 env t p

def Packet6.quote (p : Packet6) : Bytes := p.wire.take (mtuMin - ipv6HdrLen - icmpHdrLen)

def Packet6.next (p : Packet6) : UInt8 := if p.proto = protoICMPv6 then protoICMP else p.proto

def complain6 (env : Env σ) (t : Translator) (typ code : UInt8) (word : Nat) (p : Packet6) :
    Xl σ Unit :=
  if p.Answerable then do
    let _ ← emit env (icmp6Packet 0 t.local6 p.src typ code word p.quote)
  else pure ()

def host6 (env : Env σ) (p : Packet6) : Xl σ Unit :=
  if p.icmpType = 128 then do
    report (p.event .self .echoRequest)
    let _ ← emit env
      (icmp6Packet p.tc p.dst p.src 129 p.icmpCode p.icmpRest (p.data.drop icmpHdrLen))
  else report (p.event .self .selfUnknownICMPType)

/-- Identification and flags of the IPv4 header for a payload length. -/
def identFlags (env : Env σ) (p : Packet6) (len : Int) : Xl σ (Nat × Nat) :=
  match p.frag with
  | some f =>
    pure (be32 f 4 % 65536,
      if be16 f 2 &&& ip6FragMF ≠ 0 then be16 f 2 >>> 3 ||| ip4FlagMF else be16 f 2 >>> 3)
  | none =>
    if p.extLen + len ≤ mtuMin then do
      let ident ← ask env.randomIdent
      pure (ident.toNat, 0)
    else pure (0, ip4FlagDF)

def forward6 (env : Env σ) (t : Translator) (p : Packet6) (src4 dst4 : Bytes) : Xl σ Unit :=
  if p.size > t.cfg.mtu then do
    report (p.event .icmp .packetTooBig)
    complain6 env t 2 0 (uint32 t.cfg.mtu) p
  else do
    let (ident, flags) ← identFlags env p p.data.length
    match rewrite6to4 t.cfg.udpChecksum p src4 dst4 with
    | .error r => report (p.event .drop r)
    | .ok data =>
      deliver (emit env (sealedIPv4Header p.tc (ipv4HdrLen + data.length) ident flags (p.hop - 1)
        p.next src4 dst4 ++ data)) 6 p.size

def unmapped6 (env : Env σ) (t : Translator) (err : MapError) (reason : Reason) (code : UInt8)
    (p : Packet6) : Xl σ Unit :=
  if err = .reject then do
    report (p.event .reject reason)
    complain6 env t 1 code 0 p
  else report (p.event .drop reason)

def data6 (env : Env σ) (t : Translator) (p : Packet6) : Xl σ Unit := do
  match ← ask (env.to4 false p.dst) with
  | .error err => unmapped6 env t err .destinationUnmappable 0 p
  | .ok dst4 => do
    match ← ask (env.to4 true p.src) with
    | .error err => unmapped6 env t err .sourceUnmappable 5 p
    | .ok src4 => forward6 env t p src4 dst4

/-- The packet an ICMPv6 error embeds, cut to the RFC 4884 length. -/
def Packet6.embedded (p : Packet6) : Option Bytes :=
  let raw := p.data.drop icmpHdrLen
  let len := p.icmpRest >>> 21 &&& 0x7f8
  if (p.icmpType = 1 ∨ p.icmpType = 3) ∧ len ≠ 0 then
    if raw.length < len then none else some (raw.take len)
  else some raw

def error6to4 (p : Packet6) (ident flags : Nat) (src4 dst4 : Bytes) (otype ocode : UInt8)
    (oword : Nat) (inner : Bytes) : Bytes :=
  sealedIPv4Header p.tc (ipv4HdrLen + icmpHdrLen + inner.length) ident flags (p.hop - 1) p.next
    src4 dst4 ++ sealedICMP 0 otype ocode oword inner

/-- The identification is drawn once the buffer is there. -/
def sendError6 (env : Env σ) (p : Packet6) (src4 dst4 : Bytes) (otype ocode : UInt8)
    (oword : Nat) (inner : Bytes) : Xl σ Bool :=
  emitWith env (ipv4HdrLen + icmpHdrLen + inner.length) do
    let (ident, flags) ← identFlags env p (icmpHdrLen + inner.length : Nat)
    pure (error6to4 p ident flags src4 dst4 otype ocode oword inner)

def forwardErrorFrom6 (env : Env σ) (p : Packet6) (src4 : Bytes) (otype ocode : UInt8)
    (oword : Nat) (inner : Bytes) : Xl σ Unit := do
  match ← ask (env.to4 false p.dst) with
  | .error _ => report (p.event .drop .destinationUnmappable)
  | .ok dst4 =>
    deliver (sendError6 env p src4 dst4 otype ocode oword inner) 6
      p.size

def forwardError6 (env : Env σ) (t : Translator) (p : Packet6) (otype ocode : UInt8)
    (oword : Nat) (inner : Bytes) : Xl σ Unit := do
  match ← ask (env.to4 false p.src) with
  | .ok src4 => forwardErrorFrom6 env p src4 otype ocode oword inner
  | .error _ => do
    report (p.event .icmp .synthesisedSource)
    forwardErrorFrom6 env p t.local4 otype ocode oword inner

/-- The IPv4 form of an embedded packet, around its rewritten payload. -/
def inner6to4 (em : Packet6) (ident flags : Nat) (src4 dst4 data : Bytes) : Bytes :=
  sealedIPv4Header em.tc (uint16 (ipv4HdrLen + ((em.payloadLen : Int) - em.extLen))) ident flags
    em.hop em.next src4 dst4 ++ data

def error6 (env : Env σ) (t : Translator) (p : Packet6) : Xl σ Unit :=
  match p.embedded with
  | none => report (p.event .drop .embeddedTooShort)
  | some raw =>
    match parse6 raw with
    | .error _ => report (p.event .drop .embeddedParseFailed)
    | .ok em =>
      if em.Answerable then do
        match ← lift (errorType6to4 t p.icmpType p.icmpCode p.icmpRest) with
        | .error reason => report (p.event .drop reason)
        | .ok (otype, ocode, oword) => do
          let emSrc ← ask (env.to4 false em.src)
          let emDst ← ask (env.to4 false em.dst)
          match emSrc, emDst with
          | .ok emSrc, .ok emDst => do
            let (ident, flags) ← identFlags env em ((em.payloadLen : Int) - em.extLen)
            let max := icmp4MaxLen - 2 * ipv4HdrLen - icmpHdrLen
            match rewrite6to4 t.cfg.udpChecksum (em.clip max (by decide)) emSrc emDst with
            | .error _ => report (p.event .drop .embeddedUntranslatable)
            | .ok data =>
              forwardError6 env t p otype ocode oword (inner6to4 em ident flags emSrc emDst data)
          | _, _ => report (p.event .drop .embeddedUnmappable)
      else report (p.event .drop .icmpErrorOfICMPError)

def receive6 (env : Env σ) (t : Translator) (raw : Bytes) : Xl σ Unit :=
  match parse6 raw with
  | .error .silent => pure ()
  | .error (.drop e) => report e
  | .error (.sourceRoute p pointer) => do
    report (p.event .reject .routingHeaderSegmentsLeft)
    complain6 env t 4 0 (uint32 pointer) p
  | .ok p =>
    if p.hop = 0 ∨ p.extLen + p.data.length ≠ p.payloadLen then
      report (p.event .drop .ipHeaderInvalid)
    else if p.proto = protoICMPv6 ∧
        ¬ verify p.data (pseudo6 p.src p.dst p.data.length protoICMPv6) then
      report (p.event .drop .icmpChecksumInvalid)
    else if p.dst = t.local6 then
      if p.proto = protoICMPv6 then host6 env p
      else do
        report (p.event .reject .selfUnknownProto)
        complain6 env t 4 1 6 p
    else if p.hop = 1 then do
      report (p.event .icmp .timeExceeded)
      complain6 env t 3 0 0 p
    else if p.proto = protoICMPv6 → p.icmpType = 128 ∨ p.icmpType = 129 then data6 env t p
    else error6 env t p

/-- One call of the translator, on values. -/
def receive (env : Env σ) (t : Translator) (raw : Bytes) : Xl σ Unit :=
  if raw.length = 0 then pure ()
  else if byteAt raw 0 >>> 4 = 4 then receive4 env t raw
  else if byteAt raw 0 >>> 4 = 6 then receive6 env t raw
  else report { kind := .drop, reason := .unknownIPVersion, length := raw.length }

end Clatto.Xlate
