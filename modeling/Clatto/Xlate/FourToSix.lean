import Clatto.Xlate.Translator

/-! Packets from the IPv4 side: `xlate4.go`. -/

namespace Clatto.Xlate

open Bytes Effect

variable {σ : Type}

/-- The bytes `ic` of an ICMP header, with its checksum still zero. -/
def putICMPHeader (ic : Bytes) (typ code : UInt8) (word : Nat) : Checked Bytes := do
  let ic ← put8 ic 0 typ
  let ic ← put8 ic 1 code
  let ic ← put8 ic 2 0
  let ic ← put8 ic 3 0
  put32 ic 4 word

/-- The IPv4 header `h` of a message from the translator itself. -/
def putHeader4 (h : Bytes) (n : Nat) (tos : UInt8) (src dst : Bytes) : Checked Bytes := do
  let h ← put8 h 0 0x45
  let h ← put8 h 1 tos
  let h ← put16 h 2 (uint16 n)
  let h ← put16 h 4 0
  let h ← put16 h 6 0
  let h ← put8 h 8 64
  let h ← put8 h 9 protoICMP
  let h ← put8 h 10 0
  let h ← put8 h 11 0
  let h ← copyTo h 12 16 (← slice src 0 4)
  let h ← copyTo h 16 20 (← slice dst 0 4)
  put16 h 10 (checksum h 0).toNat

/-- `sendICMPv4`, once the emitter has given a buffer of `n` bytes. The slices
`h` and `ic` of the source are windows of `b`. -/
def fillICMPv4 (n : Nat) (tos : UInt8) (src dst : Bytes) (typ code : UInt8) (word : Nat)
    (payload b : Bytes) : Checked Bytes := do
  let h ← slice b 0 ipv4HdrLen
  let b ← copyTo b 0 ipv4HdrLen (← putHeader4 h n tos src dst)
  let ic ← slice b ipv4HdrLen (ipv4HdrLen + icmpHdrLen)
  let b ← copyTo b ipv4HdrLen (ipv4HdrLen + icmpHdrLen) (← putICMPHeader ic typ code word)
  let b ← copyFrom b (ipv4HdrLen + icmpHdrLen) payload
  put16 b (ipv4HdrLen + 2) (checksum (← slice b ipv4HdrLen b.length) 0).toNat

def sendICMPv4 (env : Env σ) (tos : UInt8) (src dst : Bytes) (typ code : UInt8) (word : Nat)
    (payload : Bytes) : Xl σ Unit := do
  let n := ipv4HdrLen + icmpHdrLen + payload.length
  let _ ← emitPacket env n fun b => lift (fillICMPv4 n tos src dst typ code word payload b)

/-- `sendICMPv4Error`: no error is generated about an ICMP message other than an
echo request. -/
def sendICMPv4Error (env : Env σ) (t : Translator) (typ code : UInt8) (word : Nat)
    (orig : Pkt) : Xl σ Unit := do
  let about ← lift (orig.icmpTypeOr protoICMP 8)
  if about ≠ 8 then pure ()
  else do
    let n := orig.hdrLen + orig.data.length
    let max := icmp4MaxLen - ipv4HdrLen - icmpHdrLen
    let n := if n > max then max else n
    let dst ← lift (slice orig.ipBytes 12 16)
    let quote ← lift (slice orig.raw 0 n)
    sendICMPv4 env 0 t.local4 dst typ code word quote

/-- `hostICMPv4`: ICMP addressed to the translator itself. -/
def hostICMPv4 (env : Env σ) (p : Pkt) : Xl σ Unit := do
  if (← lift (index p.icmpBytes 0)) = 8 then do
    observe p .self .echoRequest
    let tos ← lift (index p.ipBytes 1)
    let src ← lift (slice p.ipBytes 16 20)
    let dst ← lift (slice p.ipBytes 12 16)
    let code ← lift (index p.icmpBytes 1)
    let word ← lift (icmpWord p.icmpBytes)
    let payload ← lift (slice p.data icmpHdrLen p.data.length)
    sendICMPv4 env tos src dst 0 code word payload
  else observe p .self .selfUnknownICMPType

/-- `header4to6`: fill the 40-byte IPv6 header `h` from the IPv4 packet `p`. -/
def header4to6 (p : Pkt) (h : Bytes) (payloadLen : Int) (src6 dst6 : Bytes) : Checked Bytes := do
  let tos ← index p.ipBytes 1
  let h ← put32 h 0 (6 <<< 28 ||| tos.toNat <<< 20)
  let h ← put16 h 4 (uint16 payloadLen)
  let h ← put8 h 6 (if p.proto = protoICMP then protoICMPv6 else p.proto)
  let h ← put8 h 7 (← index p.ipBytes 8)
  let h ← copyTo h 8 24 src6
  copyTo h 24 40 dst6

/-- Write through `p.icmp`. -/
def Pkt.putICMP (p : Pkt) (i : Nat) (w : Bytes) : Checked Pkt :=
  inRange (i + w.length ≤ p.icmpBytes.length) { p with raw := splice p.raw (p.icmp.getD 0 + i) w }

/-- Write through `p.data`. -/
def Pkt.putData (p : Pkt) (i : Nat) (w : Bytes) : Checked Pkt :=
  inRange (i + w.length ≤ p.data.length) { p with raw := splice p.raw (p.lo + i) w }

/-- The checksum update both families share: the field at `ckOff` of the payload
loses the sum `remove` and gains the sum `add`, and a UDP field never becomes
zero. -/
def adjustField (p : Pkt) (ckOff : Nat) (remove add : UInt64) : Checked (Reason × Pkt) := do
  let old ← uint16At p.data ckOff
  let ck := adjust (UInt16.ofNat old) remove add
  let ck := if p.proto = protoUDP ∧ ck = 0 then 0xffff else ck
  return (.none, ← p.putData ckOff (enc16 ck.toNat))

/-- What both families do with a UDP checksum of zero; `pseudo` is the sum of
the new pseudo-header. -/
def zeroChecksum (t : Translator) (p : Pkt) (pseudo : UInt64) : Checked (Reason × Pkt) := do
  match t.cfg.udpChecksum with
  | .forward => return (.none, p)
  | .calc =>
    let ck := checksum p.data pseudo
    let ck := if ck = 0 then 0xffff else ck
    return (.none, ← p.putData 6 (enc16 ck.toNat))
  | .drop => return (.udpZeroChecksum, p)

/-- `payload4to6`: rewrite the transport header of `p` in place for the new
IPv6 header `h`. -/
def payload4to6 (t : Translator) (p : Pkt) (h : Bytes) : Checked (Reason × Pkt) := do
  let fo ← ip4FlagsOff p.ipBytes
  if fo &&& ip4OffMask ≠ 0 then return (.none, p)
  else if p.proto = protoICMP then do
    let total ← ip4TotalLen p.ipBytes
    let ps := pseudo6 (← slice h 8 24) (← slice h 24 40) ((total : Int) - p.hdrLen) protoICMPv6
    let old ← uint16At p.icmpBytes 2
    let typ ← index p.icmpBytes 0
    let (typ, delta) : UInt8 × UInt64 :=
      if typ = 8 then (128, (128 - 8 : UInt64) <<< 8) else (129, (129 - 0 : UInt64) <<< 8)
    let p ← p.putICMP 0 [typ]
    let ck := ~~~ fold ((~~~ UInt16.ofNat old).toUInt64 + ps + delta)
    return (.none, ← p.putICMP 2 (enc16 ck.toNat))
  else if p.proto = protoUDP then
    if p.data.length < 8 then return (.udpHeaderLength, p)
    else if (← uint16At p.data 6) = 0 then do
      zeroChecksum t p (pseudo6 (← slice h 8 24) (← slice h 24 40) p.data.length protoUDP)
    else do
      adjustField p 6 (sum16 (← slice p.ipBytes 12 20) 0) (sum16 (← slice h 8 40) 0)
  else if p.proto = protoTCP then
    if p.data.length < 20 then return (.tcpHeaderLength, p)
    else do adjustField p 16 (sum16 (← slice p.ipBytes 12 20) 0) (sum16 (← slice h 8 40) 0)
  else return (.none, p)

/-- The fragment loop of `xlate4to6Data`; `false` means that the emitter refused
a fragment and the function returned. -/
def fragLoop4to6 (env : Env σ) (fragSize : Int) (origMF : Bool) :
    Nat → Bytes → Bytes → Nat → Bytes → Xl σ Bool
  | 0, _, _, _, _ => lift (.error .hang)
  | fuel + 1, h, fh, off, data =>
    if data.length > 0 then do
      let n : Int := if data.length < fragSize then data.length else fragSize
      let h ← lift (put16 h 4 (uint16 (fragHdrLen + n)))
      let flags := uint16 off
      let flags := if data.length > n ∨ origMF then flags ||| ip6FragMF else flags
      let fh ← lift (put16 fh 2 flags)
      let n ← lift (inRange (0 ≤ n) n.toNat)
      let sent ← emitPacket env (ipv6HdrLen + fragHdrLen + n) fun b => lift do
        let b ← copyFrom b 0 h
        let b ← copyFrom b ipv6HdrLen fh
        copyFrom b (ipv6HdrLen + fragHdrLen) (← slice data 0 n)
      if sent then do
        let data ← lift (slice data n data.length)
        fragLoop4to6 env fragSize origMF fuel h fh (off + n) data
      else pure false
    else pure true

/-- Whether `xlate4to6Data` sends without a fragment header; `none` when the
packet has DF set and is too big. -/
def noFragHdr (t : Translator) (fo : Nat) (fragSize : Int) (hdrLen dataLen : Nat) :
    Option Bool :=
  if fo &&& (ip4OffMask ||| ip4FlagMF) = 0 then
    if fo &&& ip4FlagDF ≠ 0 then
      if t.cfg.mtu - mtuAdj < hdrLen + dataLen then none else some true
    else some (decide (dataLen ≤ fragSize))
  else some false

/-- `xlate4to6Data` once both addresses are mapped. -/
def send4to6 (env : Env σ) (t : Translator) (fragSize : Int) (p : Pkt) (src6 dst6 : Bytes) :
    Xl σ Unit := do
  let fo ← lift (ip4FlagsOff p.ipBytes)
  match noFragHdr t fo fragSize p.hdrLen p.data.length with
  | none => do
    observe p .icmp .packetTooBig
    sendICMPv4Error env t 3 4 (uint32 (t.cfg.mtu - mtuAdj)) p
  | some whole => do
    let h ← lift (header4to6 p (List.replicate ipv6HdrLen 0) p.data.length src6 dst6)
    let hop ← lift (index h 7)
    let h ← lift (put8 h 7 (hop - 1))
    let (r, p) ← lift (payload4to6 t p h)
    if r ≠ .none then observe p .drop r
    else do
      let total := p.hdrLen + p.data.length
      if whole then do
        let sent ← emitPacket env (ipv6HdrLen + p.data.length) fun b => lift do
          let b ← copyFrom b 0 h
          copyFrom b ipv6HdrLen p.data
        if sent then act (.translated 4 total) else pure ()
      else do
        let fh ← lift (put8 (List.replicate fragHdrLen 0) 0 (← lift (index h 6)))
        let h ← lift (put8 h 6 protoFrag)
        let ident ← lift (ip4Ident p.ipBytes)
        let fh ← lift (put32 fh 4 ident)
        let off := (fo &&& ip4OffMask) * 8
        -- `x &^ 7` on a signed integer rounds down to a multiple of eight
        let fragSize := (fragSize - fragHdrLen) - (fragSize - fragHdrLen) % 8
        let origMF := decide (fo &&& ip4FlagMF ≠ 0)
        let sent ← fragLoop4to6 env fragSize origMF (p.data.length + 1) h fh off p.data
        if sent then act (.translated 4 total) else pure ()

/-- `xlate4to6Data`: anything but an ICMP error. -/
def xlate4to6Data (env : Env σ) (t : Translator) (p : Pkt) : Xl σ Unit := do
  let fragSize := if t.cfg.offlinkMTU > t.cfg.mtu then t.cfg.mtu else t.cfg.offlinkMTU
  let fragSize := fragSize - ipv6HdrLen
  match ← map4to6 env (← lift (slice p.ipBytes 16 20)) with
  | .error err =>
    if err = .reject then do
      observe p .reject .destinationUnmappable
      sendICMPv4Error env t 3 1 0 p
    else observe p .drop .destinationUnmappable
  | .ok dst6 => do
    match ← map4to6 env (← lift (slice p.ipBytes 12 16)) with
    | .error err =>
      if err = .reject then do
        observe p .reject .sourceUnmappable
        sendICMPv4Error env t 3 10 0 p
      else observe p .drop .sourceUnmappable
    | .ok src6 => send4to6 env t fragSize p src6 dst6

/-- `ptrTable4to6`: IPv6 header offsets for IPv4 header offsets, or -1. -/
def ptrTable4to6 : List Int :=
  [0, 1, 4, 4, -1, -1, -1, -1, 7, 6, -1, -1, 8, 8, 8, 8, 24, 24, 24, 24]

/-- The type switch of `xlate4to6ICMPError`: type, code and second word of the
ICMPv6 error, or the reason to drop. -/
def errorType4to6 (t : Translator) (typ code : UInt8) (word emTotal : Nat) :
    Checked (Except Reason (UInt8 × UInt8 × Nat)) := do
  if typ = 3 then
    if code ∈ [0, 1, 5, 6, 7, 8, 11, 12] then return .ok (1, 0, 0)
    else if code = 2 then return .ok (4, 1, 6)
    else if code = 3 then return .ok (1, 4, 0)
    else if code = 4 then
      let mtu := word &&& 0xffff
      let mtu : Int := if mtu < 68 then estMTU emTotal else mtu
      let mtu := mtu + mtuAdj
      let mtu := if mtu > t.cfg.mtu then t.cfg.mtu else mtu
      let mtu := if mtu < mtuMin then (mtuMin : Int) else mtu
      return .ok (2, 0, uint32 mtu)
    else if code ∈ [9, 10, 13, 15] then return .ok (1, 1, 0)
    else return .error .unknownUnreachableCode
  else if typ = 11 then return .ok (3, code, 0)
  else if typ = 12 then
    if code ≠ 0 ∧ code ≠ 2 then return .error .paramProblemInvalidCode
    else
      let ptr := word >>> 24
      if ptr ≥ ptrTable4to6.length then return .error .paramProblemInvalidPointer
      else do
        let np ← inRange (ptr < ptrTable4to6.length) (ptrTable4to6.getD ptr 0)
        if np < 0 then return .error .paramProblemUntranslatable
        else return .ok (4, 0, uint32 np)
  else return .error .unknownICMPType

/-- The bytes an ICMPv4 error embeds, cut to the RFC 4884 length field; `none`
when that length is longer than what is there. -/
def embedded4 (p : Pkt) (typ : UInt8) : Checked (Option Bytes) := do
  let raw ← slice p.data icmpHdrLen p.data.length
  if typ = 3 ∨ typ = 11 ∨ typ = 12 then
    let emLen := ((← icmpWord p.icmpBytes) >>> 14) &&& 0x3fc
    if emLen ≠ 0 then
      if raw.length < emLen then return none
      else return some (← slice raw 0 emLen)
    else return some raw
  else return some raw

/-- `xlate4to6ICMPError`, once the emitter has given a buffer of `n` bytes. -/
def fillError4to6 (p : Pkt) (n : Nat) (src6 dst6 : Bytes) (otype ocode : UInt8) (oword : Nat)
    (inner data b : Bytes) : Checked Bytes := do
  let h ← slice b 0 ipv6HdrLen
  let h ← header4to6 p h ((n : Int) - ipv6HdrLen) src6 dst6
  let h ← put8 h 7 ((← index h 7) - 1)
  let b ← copyTo b 0 ipv6HdrLen h
  let ic ← slice b ipv6HdrLen (ipv6HdrLen + icmpHdrLen)
  let b ← copyTo b ipv6HdrLen (ipv6HdrLen + icmpHdrLen) (← putICMPHeader ic otype ocode oword)
  let b ← copyFrom b (ipv6HdrLen + icmpHdrLen) inner
  let b ← copyFrom b (ipv6HdrLen + icmpHdrLen + ipv6HdrLen) data
  let ps := pseudo6 (← slice h 8 24) (← slice h 24 40) ((n : Int) - ipv6HdrLen) protoICMPv6
  put16 b (ipv6HdrLen + 2) (checksum (← slice b ipv6HdrLen b.length) ps).toNat

/-- `xlate4to6ICMPError` once the source of the error is known. -/
def sendErrorFrom4to6 (env : Env σ) (p em : Pkt) (src6 : Bytes) (otype ocode : UInt8)
    (oword : Nat) (inner : Bytes) : Xl σ Unit := do
  match ← map4to6 env (← lift (slice p.ipBytes 16 20)) with
  | .error _ => observe p .drop .destinationUnmappable
  | .ok dst6 => do
    let n := ipv6HdrLen + icmpHdrLen + ipv6HdrLen + em.data.length
    let sent ← emitPacket env n fun b =>
      lift (fillError4to6 p n src6 dst6 otype ocode oword inner em.data b)
    if sent then act (.translated 4 (p.hdrLen + p.data.length)) else pure ()

/-- `xlate4to6ICMPError` from the point where the embedded packet is translated. -/
def sendError4to6 (env : Env σ) (t : Translator) (p em : Pkt) (otype ocode : UInt8) (oword : Nat)
    (inner : Bytes) : Xl σ Unit := do
  match ← map4to6 env (← lift (slice p.ipBytes 12 16)) with
  | .ok src6 => sendErrorFrom4to6 env p em src6 otype ocode oword inner
  | .error _ => do
    -- the router that sent the error has no IPv6 mapping
    observe p .icmp .synthesisedSource
    sendErrorFrom4to6 env p em t.local6 otype ocode oword inner

/-- `xlate4to6ICMPError`. The embedded view `em` shares its buffer with
`p.data`, which is not read again once `em` has been rewritten. -/
def xlate4to6ICMPError (env : Env σ) (t : Translator) (p : Pkt) : Xl σ Unit := do
  let typ ← lift (index p.icmpBytes 0)
  let code ← lift (index p.icmpBytes 1)
  match ← lift (embedded4 p typ) with
  | none => observe p .drop .embeddedTooShort
  | some raw => do
    let (r, em) ← lift (parseIPv4 { raw })
    if r ≠ .none then observe p .drop .embeddedParseFailed
    else do
      let about ← lift (em.icmpTypeOr protoICMP 8)
      if about ≠ 8 then observe p .drop .icmpErrorOfICMPError
      else do
        let max := mtuMin - 2 * ipv6HdrLen - icmpHdrLen
        let em := if em.data.length > max then { em with hi := em.lo + max } else em
        let emSrc ← map4to6 env (← lift (slice em.ipBytes 12 16))
        let emDst ← map4to6 env (← lift (slice em.ipBytes 16 20))
        match emSrc, emDst with
        | .ok emSrc, .ok emDst => do
          let emTotal ← lift (ip4TotalLen em.ipBytes)
          let inner ← lift (header4to6 em (List.replicate ipv6HdrLen 0)
            ((emTotal : Int) - em.hdrLen) emSrc emDst)
          let word ← lift (icmpWord p.icmpBytes)
          match ← lift (errorType4to6 t typ code word emTotal) with
          | .error reason => observe p .drop reason
          | .ok (otype, ocode, oword) => do
            let (r, em) ← lift (payload4to6 t em inner)
            if r ≠ .none then observe p .drop .embeddedUntranslatable
            else sendError4to6 env t p em otype ocode oword inner
        | _, _ => observe p .drop .embeddedUnmappable

/-- `handleIPv4`: the entry point for packets from the IPv4 side. -/
def handleIPv4 (env : Env σ) (t : Translator) (raw : Bytes) : Xl σ Unit := do
  let (r, p) ← lift (parseIPv4 { raw })
  if r ≠ .none then observe p .drop r
  else do
    let ttl ← lift (index p.ipBytes 8)
    let total ← lift (ip4TotalLen p.ipBytes)
    if ttl = 0 ∨ ¬ verify p.ipBytes 0 ∨ p.hdrLen + p.data.length ≠ total then
      observe p .drop .ipHeaderInvalid
    else if p.icmp ≠ none ∧ ¬ verify p.data 0 then observe p .drop .icmpChecksumInvalid
    else do
      let dst ← lift (slice p.ipBytes 16 20)
      if dst = t.local4 then
        if p.proto = protoICMP then hostICMPv4 env p
        else do
          observe p .reject .selfUnknownProto
          sendICMPv4Error env t 3 2 0 p
      else if ttl = 1 then do
        observe p .icmp .timeExceeded
        sendICMPv4Error env t 11 0 0 p
      else do
        let typ ← lift (p.icmpTypeOr protoICMP 8)
        if typ = 8 ∨ typ = 0 then xlate4to6Data env t p else xlate4to6ICMPError env t p

end Clatto.Xlate
