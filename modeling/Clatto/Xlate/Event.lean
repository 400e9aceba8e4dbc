import Clatto.Netip.Addr

/-! What the translator reports to its observer, and the actions an outside
party can see it perform. -/

namespace Clatto.Xlate

/-- `xlate.Kind`. -/
inductive Kind where
  | drop
  | reject
  | icmp
  | self
  | dynamic
  deriving DecidableEq, Repr

/-- `xlate.Reason`. -/
inductive Reason where
  | none
  | unknownIPVersion
  | ipHeaderLength
  | ipHeaderInvalid
  | icmpFragmented
  | icmpHeaderLength
  | ipv6OnlyProto
  | ipv4OnlyProto
  | fragmentMisaligned
  | fragmentTooLong
  | icmpChecksumInvalid
  | selfUnknownProto
  | echoRequest
  | selfUnknownICMPType
  | timeExceeded
  | destinationUnmappable
  | sourceUnmappable
  | packetTooBig
  | udpHeaderLength
  | udpZeroChecksum
  | tcpHeaderLength
  | embeddedTooShort
  | embeddedParseFailed
  | icmpErrorOfICMPError
  | embeddedUnmappable
  | embeddedUntranslatable
  | unknownUnreachableCode
  | paramProblemInvalidCode
  | paramProblemInvalidPointer
  | paramProblemUntranslatable
  | unknownICMPType
  | synthesisedSource
  | extHeaderLength
  | fragHeaderLength
  | routingHeaderSegmentsLeft
  | noMTUInPacketTooBig
  | dynamicAssigned
  | dynamicReactivated
  | dynamicReassigned
  | dynamicDormant
  | dynamicReleased
  | dynamicExhausted
  deriving DecidableEq, Repr

/-- `xlate.Event`. Unset addresses are the zero address. -/
structure Event where
  kind : Kind
  reason : Reason
  family : UInt8 := 0
  proto : UInt8 := 0
  length : Nat := 0
  src : Netip.Addr := .zero
  dst : Netip.Addr := .zero
  deriving DecidableEq, Repr

/-- Everything a call of the translator does that others can see: calls of the
observer, and packets handed to the emitter. -/
inductive Action where
  | event (e : Event)
  | translated (family : UInt8) (length : Nat)
  | packet (b : Bytes)
  deriving DecidableEq, Repr

end Clatto.Xlate
