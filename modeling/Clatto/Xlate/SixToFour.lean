import Clatto.Xlate.FourToSix

/-! Packets from the IPv6 side: `xlate6.go`, and the entry point that tells the
families apart. -/

namespace Clatto.Xlate

open Bytes Effect

variable {σ : Type}

/-- The IPv6 header `h` of a message from the translator itself. -/
def putHeader6 (h : Bytes) (payloadLen : Nat) (tc : UInt8) (src dst : Bytes) : Checked Bytes := do
  let h ← put32 h 0 (6 <<< 28 ||| tc.toNat <<< 20)
  let h ← put16 h 4 (uint16 payloadLen)
  let h ← put8 h 6 protoICMPv6
  let h ← put8 h 7 64
  let h ← copyTo h 8 24 (← slice src 0 16)
  copyTo h 24 40 (← slice dst 0 16)

/-- `sendICMPv6`, once the emitter has given a buffer of `n` bytes. -/
def fillICMPv6 (n : Nat) (tc : UInt8) (src dst : Bytes) (typ code : UInt8) (word : Nat)
    (payload b : Bytes) : Checked Bytes := do
  let h ← slice b 0 ipv6HdrLen
  let h ← putHeader6 h (icmpHdrLen + payload.length) tc src dst
  let b ← copyTo b 0 ipv6HdrLen h
  let ic ← slice b ipv6HdrLen (ipv6HdrLen + icmpHdrLen)
  let b ← copyTo b ipv6HdrLen (ipv6HdrLen + icmpHdrLen) (← putICMPHeader ic typ code word)
  let b ← copyFrom b (ipv6HdrLen + icmpHdrLen) payload
  let ps := pseudo6 (← slice h 8 24) (← slice h 24 40) ((n : Int) - ipv6HdrLen) protoICMPv6
  put16 b (ipv6HdrLen + 2) (checksum (← slice b ipv6HdrLen b.length) ps).toNat

def sendICMPv6 (env : Env σ) (tc : UInt8) (src dst : Bytes) (typ code : UInt8) (word : Nat)
    (payload : Bytes) : Xl σ Unit := do
  let n := ipv6HdrLen + icmpHdrLen + payload.length
  let _ ← emitPacket env n fun b => lift (fillICMPv6 n tc src dst typ code word payload b)

/-- `sendICMPv6Error`. -/
def sendICMPv6Error (env : Env σ) (t : Translator) (typ code : UInt8) (word : Nat)
    (orig : Pkt) : Xl σ Unit := do
  let about ← lift (orig.icmpTypeOr protoICMPv6 128)
  if about ≠ 128 then pure ()
  else do
    let n := ipv6HdrLen + orig.hdrLen + orig.data.length
    let max := mtuMin - ipv6HdrLen - icmpHdrLen
    let n := if n > max then max else n
    let dst ← lift (slice orig.ipBytes 8 24)
    let quote ← lift (slice orig.raw 0 n)
    sendICMPv6 env 0 t.local6 dst typ code word quote

/-- The traffic class of an IPv6 header: `uint8(ip6VerTcFl(h) >> 20)`. -/
def trafficClass (h : Bytes) : Checked UInt8 := do
  return UInt8.ofNat ((← ip6VerTcFl h) >>> 20)

/-- `hostICMPv6`: ICMPv6 addressed to the translator itself. -/
def hostICMPv6 (env : Env σ) (p : Pkt) : Xl σ Unit := do
  if (← lift (index p.icmpBytes 0)) = 128 then do
    observe p .self .echoRequest
    let tc ← lift (trafficClass p.ipBytes)
    let src ← lift (slice p.ipBytes 24 40)
    let dst ← lift (slice p.ipBytes 8 24)
    let code ← lift (index p.icmpBytes 1)
    let word ← lift (icmpWord p.icmpBytes)
    let payload ← lift (slice p.data icmpHdrLen p.data.length)
    sendICMPv6 env tc src dst 129 code word payload
  else observe p .self .selfUnknownICMPType

/-- The identification and flags words of `header6to4`. -/
def identFlags6to4 (env : Env σ) (p : Pkt) (payloadLen : Int) : Xl σ (Nat × Nat) := do
  if p.frag ≠ none then do
    -- carry the fragment over; DF is always clear
    let ident ← lift (fragIdent p.fragBytes)
    let of ← lift (fragOffFlags p.fragBytes)
    let fo := of >>> 3
    let fo := if of &&& ip6FragMF ≠ 0 then fo ||| ip4FlagMF else fo
    pure (uint16 ident, fo)
  else if p.hdrLen + payloadLen ≤ mtuMin then do
    -- small enough to be fragmented downstream if needed
    let ident ← ask env.randomIdent
    pure (ident.toNat, 0)
  else pure (0, ip4FlagDF)

/-- `header6to4`: fill the 20-byte IPv4 header `h` from the IPv6 packet `p`,
leaving the header checksum zero. -/
def header6to4 (env : Env σ) (p : Pkt) (h : Bytes) (payloadLen : Int) (src4 dst4 : Bytes) :
    Xl σ Bytes := do
  let h ← lift (put8 h 0 0x45)
  let tc ← lift (trafficClass p.ipBytes)
  let h ← lift (put8 h 1 tc)
  let h ← lift (put16 h 2 (uint16 (ipv4HdrLen + payloadLen)))
  let (ident, flags) ← identFlags6to4 env p payloadLen
  let h ← lift (put16 h 4 ident)
  let h ← lift (put16 h 6 flags)
  let hop ← lift (index p.ipBytes 7)
  let h ← lift (put8 h 8 hop)
  let h ← lift (put8 h 9 (if p.proto = protoICMPv6 then protoICMP else p.proto))
  let h ← lift (put8 h 10 0)
  let h ← lift (put8 h 11 0)
  let h ← lift (copyTo h 12 16 src4)
  lift (copyTo h 16 20 dst4)

/-- `payload6to4`: rewrite the transport header of `p` in place for the new
IPv4 header `h`. -/
def payload6to4 (t : Translator) (p : Pkt) (h : Bytes) : Checked (Reason × Pkt) := do
  let of ← p.offFlags
  if of &&& ip6FragMask ≠ 0 then return (.none, p)
  else if p.proto = protoICMPv6 then do
    let pl ← ip6PayloadLen p.ipBytes
    let ps := pseudo6 (← slice p.ipBytes 8 24) (← slice p.ipBytes 24 40)
      ((pl : Int) - p.hdrLen) protoICMPv6
    let old ← uint16At p.icmpBytes 2
    let typ ← index p.icmpBytes 0
    let (typ, delta) : UInt8 × UInt16 :=
      if typ = 128 then (8, (128 - 8 : UInt16) <<< 8) else (0, (129 - 0 : UInt16) <<< 8)
    let p ← p.putICMP 0 [typ]
    let ck := ~~~ fold ((~~~ UInt16.ofNat old).toUInt64 + (~~~ fold ps).toUInt64 +
      (~~~ delta).toUInt64)
    return (.none, ← p.putICMP 2 (enc16 ck.toNat))
  else if p.proto = protoUDP then
    if p.data.length < 8 then return (.udpHeaderLength, p)
    else if (← uint16At p.data 6) = 0 then do
      zeroChecksum t p (pseudo4 (← slice h 12 16) (← slice h 16 20) p.data.length protoUDP)
    else do
      adjustField p 6 (sum16 (← slice p.ipBytes 8 40) 0) (sum16 (← slice h 12 20) 0)
  else if p.proto = protoTCP then
    if p.data.length < 20 then return (.tcpHeaderLength, p)
    else do adjustField p 16 (sum16 (← slice p.ipBytes 8 40) 0) (sum16 (← slice h 12 20) 0)
  else return (.none, p)

/-- `xlate6to4Data` once both addresses are mapped. -/
def send6to4 (env : Env σ) (t : Translator) (p : Pkt) (src4 dst4 : Bytes) : Xl σ Unit := do
  let total := ipv6HdrLen + p.hdrLen + p.data.length
  if total > t.cfg.mtu then do
    observe p .icmp .packetTooBig
    sendICMPv6Error env t 2 0 (uint32 t.cfg.mtu) p
  else do
    let h ← header6to4 env p (List.replicate ipv4HdrLen 0) p.data.length src4 dst4
    let ttl ← lift (index h 8)
    let h ← lift (put8 h 8 (ttl - 1))
    let (r, p) ← lift (payload6to4 t p h)
    if r ≠ .none then observe p .drop r
    else do
      let h ← lift (put16 h 10 (checksum h 0).toNat)
      let sent ← emitPacket env (ipv4HdrLen + p.data.length) fun b => lift do
        let b ← copyFrom b 0 h
        copyFrom b ipv4HdrLen p.data
      if sent then act (.translated 6 total) else pure ()

/-- `xlate6to4Data`: anything but an ICMPv6 error. Only the source address may
allocate. -/
def xlate6to4Data (env : Env σ) (t : Translator) (p : Pkt) : Xl σ Unit := do
  match ← map6to4 env (← lift (slice p.ipBytes 24 40)) false with
  | .error err =>
    if err = .reject then do
      observe p .reject .destinationUnmappable
      sendICMPv6Error env t 1 0 0 p
    else observe p .drop .destinationUnmappable
  | .ok dst4 => do
    match ← map6to4 env (← lift (slice p.ipBytes 8 24)) true with
    | .error err =>
      if err = .reject then do
        observe p .reject .sourceUnmappable
        sendICMPv6Error env t 1 5 0 p
      else observe p .drop .sourceUnmappable
    | .ok src4 => send6to4 env t p src4 dst4

/-- `ptrTable6to4`: IPv4 header offsets for the first IPv6 header offsets, or -1. -/
def ptrTable6to4 : List Int := [0, 1, -1, -1, 2, 2, 9, 8]

/-- The type switch of `xlate6to4ICMPError`: type, code and second word of the
ICMPv4 error, or the reason to drop. -/
def errorType6to4 (t : Translator) (typ code : UInt8) (word : Nat) :
    Checked (Except Reason (UInt8 × UInt8 × Nat)) := do
  if typ = 1 then
    if code ∈ [0, 2, 3] then return .ok (3, 1, 0)
    else if code = 1 then return .ok (3, 10, 0)
    else if code = 4 then return .ok (3, 3, 0)
    else return .error .unknownUnreachableCode
  else if typ = 2 then
    let mtu : Int := word
    if mtu < 68 then return .error .noMTUInPacketTooBig
    else
      let mtu := if mtu > t.cfg.mtu then t.cfg.mtu else mtu
      return .ok (3, 4, uint32 (mtu - mtuAdj))
  else if typ = 3 then return .ok (11, code, 0)
  else if typ = 4 then
    if code = 0 then do
      let ptr := word
      if ptr > 39 then return .error .paramProblemInvalidPointer
      else do
        let np : Int ← if ptr > 23 then pure 16 else if ptr > 7 then pure 12
          else inRange (ptr < ptrTable6to4.length) (ptrTable6to4.getD ptr 0)
        if np < 0 then return .error .paramProblemUntranslatable
        else return .ok (12, 0, (uint32 np <<< 24) % 2 ^ 32)
    else if code = 1 then return .ok (3, 2, 0)
    else return .error .paramProblemInvalidCode
  else return .error .unknownICMPType

/-- The bytes an ICMPv6 error embeds, cut to the RFC 4884 length field; `none`
when that length is longer than what is there. -/
def embedded6 (p : Pkt) (typ : UInt8) : Checked (Option Bytes) := do
  let raw ← slice p.data icmpHdrLen p.data.length
  if typ = 1 ∨ typ = 3 then
    let emLen := ((← icmpWord p.icmpBytes) >>> 21) &&& 0x7f8
    if emLen ≠ 0 then
      if raw.length < emLen then return none
      else return some (← slice raw 0 emLen)
    else return some raw
  else return some raw

/-- `xlate6to4ICMPError`, once the emitter has given a buffer of `n` bytes. -/
def fillError6to4 (env : Env σ) (p : Pkt) (n : Nat) (src4 dst4 : Bytes) (otype ocode : UInt8)
    (oword : Nat) (inner data b : Bytes) : Xl σ Bytes := do
  let h ← lift (slice b 0 ipv4HdrLen)
  let h ← header6to4 env p h ((n : Int) - ipv4HdrLen) src4 dst4
  lift do
    let h ← put8 h 8 ((← index h 8) - 1)
    let h ← put16 h 10 (checksum h 0).toNat
    let b ← copyTo b 0 ipv4HdrLen h
    let ic ← slice b ipv4HdrLen (ipv4HdrLen + icmpHdrLen)
    let b ← copyTo b ipv4HdrLen (ipv4HdrLen + icmpHdrLen) (← putICMPHeader ic otype ocode oword)
    let b ← copyFrom b (ipv4HdrLen + icmpHdrLen) inner
    let b ← copyFrom b (ipv4HdrLen + icmpHdrLen + ipv4HdrLen) data
    put16 b (ipv4HdrLen + 2) (checksum (← slice b ipv4HdrLen b.length) 0).toNat

/-- `xlate6to4ICMPError` once the source of the error is known. -/
def sendErrorFrom6to4 (env : Env σ) (p em : Pkt) (src4 : Bytes) (otype ocode : UInt8)
    (oword : Nat) (inner : Bytes) : Xl σ Unit := do
  match ← map6to4 env (← lift (slice p.ipBytes 24 40)) false with
  | .error _ => observe p .drop .destinationUnmappable
  | .ok dst4 => do
    let n := ipv4HdrLen + icmpHdrLen + ipv4HdrLen + em.data.length
    let sent ← emitPacket env n (fillError6to4 env p n src4 dst4 otype ocode oword inner em.data)
    if sent then act (.translated 6 (ipv6HdrLen + p.hdrLen + p.data.length)) else pure ()

/-- `xlate6to4ICMPError` from the point where the embedded packet is translated. -/
def sendError6to4 (env : Env σ) (t : Translator) (p em : Pkt) (otype ocode : UInt8) (oword : Nat)
    (inner : Bytes) : Xl σ Unit := do
  match ← map6to4 env (← lift (slice p.ipBytes 8 24)) false with
  | .ok src4 => sendErrorFrom6to4 env p em src4 otype ocode oword inner
  | .error _ => do
    observe p .icmp .synthesisedSource
    sendErrorFrom6to4 env p em t.local4 otype ocode oword inner

/-- `xlate6to4ICMPError`. -/
def xlate6to4ICMPError (env : Env σ) (t : Translator) (p : Pkt) : Xl σ Unit := do
  let typ ← lift (index p.icmpBytes 0)
  let code ← lift (index p.icmpBytes 1)
  match ← lift (embedded6 p typ) with
  | none => observe p .drop .embeddedTooShort
  | some raw => do
    let (r, _, _, em) ← lift (parseIPv6 { raw })
    if r ≠ .none then observe p .drop .embeddedParseFailed
    else do
      let about ← lift (em.icmpTypeOr protoICMPv6 128)
      if about ≠ 128 then observe p .drop .icmpErrorOfICMPError
      else do
        let max := icmp4MaxLen - 2 * ipv4HdrLen - icmpHdrLen
        let em := if em.data.length > max then { em with hi := em.lo + max } else em
        let word ← lift (icmpWord p.icmpBytes)
        match ← lift (errorType6to4 t typ code word) with
        | .error reason => observe p .drop reason
        | .ok (otype, ocode, oword) => do
          let emSrc ← map6to4 env (← lift (slice em.ipBytes 8 24)) false
          let emDst ← map6to4 env (← lift (slice em.ipBytes 24 40)) false
          match emSrc, emDst with
          | .ok emSrc, .ok emDst => do
            let pl ← lift (ip6PayloadLen em.ipBytes)
            let inner ← header6to4 env em (List.replicate ipv4HdrLen 0)
              ((pl : Int) - em.hdrLen) emSrc emDst
            let (r, em) ← lift (payload6to4 t em inner)
            if r ≠ .none then observe p .drop .embeddedUntranslatable
            else do
              let inner ← lift (put16 inner 10 (checksum inner 0).toNat)
              sendError6to4 env t p em otype ocode oword inner
          | _, _ => observe p .drop .embeddedUnmappable

/-- `handleIPv6`: the entry point for packets from the IPv6 side. -/
def handleIPv6 (env : Env σ) (t : Translator) (raw : Bytes) : Xl σ Unit := do
  let (r, segPtr, silent, p) ← lift (parseIPv6 { raw })
  if r ≠ .none then
    -- multicast source or destination: not ours, not worth noting
    if silent then pure ()
    else if r = .routingHeaderSegmentsLeft then do
      observe p .reject r
      sendICMPv6Error env t 4 0 (uint32 segPtr) p
    else observe p .drop r
  else do
    let hop ← lift (index p.ipBytes 7)
    let pl ← lift (ip6PayloadLen p.ipBytes)
    let src ← lift (slice p.ipBytes 8 24)
    let dst ← lift (slice p.ipBytes 24 40)
    if hop = 0 ∨ p.hdrLen + p.data.length ≠ pl then observe p .drop .ipHeaderInvalid
    else if p.icmp ≠ none ∧ ¬ verify p.data (pseudo6 src dst p.data.length protoICMPv6) then
      observe p .drop .icmpChecksumInvalid
    else if dst = t.local6 then
      if p.proto = protoICMPv6 then hostICMPv6 env p
      else do
        observe p .reject .selfUnknownProto
        sendICMPv6Error env t 4 1 6 p
    else if hop = 1 then do
      observe p .icmp .timeExceeded
      sendICMPv6Error env t 3 0 0 p
    else do
      let typ ← lift (p.icmpTypeOr protoICMPv6 128)
      if typ = 128 ∨ typ = 129 then xlate6to4Data env t p else xlate6to4ICMPError env t p

/-- `Translator.Translate`: handle one inbound packet. -/
def translate (env : Env σ) (t : Translator) (pkt : Bytes) : Xl σ Unit := do
  if pkt.length = 0 then pure ()
  else do
    let first ← lift (index pkt 0)
    if first >>> 4 = 4 then handleIPv4 env t pkt
    else if first >>> 4 = 6 then handleIPv6 env t pkt
    else act (.event { kind := .drop, reason := .unknownIPVersion, length := pkt.length })

end Clatto.Xlate
