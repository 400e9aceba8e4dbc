import Clatto.Xlate.Translator

/-! Wire formats as values: the headers and messages the translator produces,
written as concatenations of their fields. -/

namespace Clatto.Xlate

open Bytes

def ipv4Header (tos : UInt8) (len ident flags : Nat) (ttl proto : UInt8) (ck : Nat)
    (src dst : Bytes) : Bytes :=
  [0x45, tos] ++ (enc16 len ++ (enc16 ident ++ (enc16 flags ++ ([ttl, proto] ++
    (enc16 ck ++ (src ++ dst))))))

/-- An IPv4 header that carries its own checksum. -/
def sealedIPv4Header (tos : UInt8) (len ident flags : Nat) (ttl proto : UInt8)
    (src dst : Bytes) : Bytes :=
  ipv4Header tos len ident flags ttl proto
    (checksum (ipv4Header tos len ident flags ttl proto 0 src dst) 0).toNat src dst

/-- A fixed IPv6 header with flow label zero. -/
def ipv6Header (tc : UInt8) (len : Nat) (next hop : UInt8) (src dst : Bytes) : Bytes :=
  enc32 (6 * 2 ^ 28 + tc.toNat * 2 ^ 20) ++ (enc16 len ++ ([next, hop] ++ (src ++ dst)))

/-- An IPv6 fragment header; offset and flag share one word. -/
def fragHeader (next : UInt8) (offFlags ident : Nat) : Bytes :=
  [next, 0] ++ (enc16 offFlags ++ enc32 ident)

def icmpMessage (typ code : UInt8) (ck word : Nat) (body : Bytes) : Bytes :=
  [typ, code] ++ (enc16 ck ++ (enc32 word ++ body))

/-- An ICMP message that carries its own checksum under a pseudo-header sum. -/
def sealedICMP (pseudo : UInt64) (typ code : UInt8) (word : Nat) (body : Bytes) : Bytes :=
  icmpMessage typ code (checksum (icmpMessage typ code 0 word body) pseudo).toNat word body

/-- An ICMPv4 packet from the translator. -/
def icmp4Packet (tos : UInt8) (src dst : Bytes) (typ code : UInt8) (word : Nat)
    (body : Bytes) : Bytes :=
  sealedIPv4Header tos (ipv4HdrLen + icmpHdrLen + body.length) 0 0 64 protoICMP src dst ++
    sealedICMP 0 typ code word body

/-- An ICMPv6 packet from the translator. -/
def icmp6Packet (tc : UInt8) (src dst : Bytes) (typ code : UInt8) (word : Nat)
    (body : Bytes) : Bytes :=
  ipv6Header tc (icmpHdrLen + body.length) protoICMPv6 64 src dst ++
    sealedICMP (pseudo6 src dst (icmpHdrLen + body.length : Nat) protoICMPv6) typ code word body

@[simp] theorem length_ipv4Header (tos : UInt8) (len ident flags : Nat) (ttl proto : UInt8)
    (ck : Nat) (src dst : Bytes) :
    (ipv4Header tos len ident flags ttl proto ck src dst).length =
      12 + (src.length + dst.length) := by
  simp [ipv4Header]
  omega

@[simp] theorem length_ipv6Header (tc : UInt8) (len : Nat) (next hop : UInt8) (src dst : Bytes) :
    (ipv6Header tc len next hop src dst).length = 8 + (src.length + dst.length) := by
  simp [ipv6Header]
  omega

theorem ipv6Header_mod (tc : UInt8) (len : Nat) (next hop : UInt8) (src dst : Bytes) :
    ipv6Header tc (len % 65536) next hop src dst = ipv6Header tc len next hop src dst := by
  rw [ipv6Header, enc16_mod, ipv6Header]

theorem sealedIPv4Header_mod (tos : UInt8) (len ident flags : Nat) (ttl proto : UInt8)
    (src dst : Bytes) :
    sealedIPv4Header tos (len % 65536) ident flags ttl proto src dst =
      sealedIPv4Header tos len ident flags ttl proto src dst := by
  simp only [sealedIPv4Header, ipv4Header, enc16_mod]

@[simp] theorem length_fragHeader (next : UInt8) (offFlags ident : Nat) :
    (fragHeader next offFlags ident).length = 8 := rfl

@[simp] theorem length_icmpMessage (typ code : UInt8) (ck word : Nat) (body : Bytes) :
    (icmpMessage typ code ck word body).length = 8 + body.length := by
  simp [icmpMessage]
  omega

end Clatto.Xlate
