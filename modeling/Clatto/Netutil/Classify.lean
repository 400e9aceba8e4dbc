import Clatto.Lib.Bytes

/-! Which addresses may be translated at all, and which may be embedded in the
well-known prefix. -/

namespace Clatto.Netutil

open Bytes

/-- `netutil.IPv4Class`. -/
inductive IPv4Class where
  | valid
  | linkLocal
  | invalid
  deriving DecidableEq, Repr

/-- `netutil.ClassifyIPv4` on the bytes of a `[4]byte`. -/
def classifyIPv4 (a : Bytes) : IPv4Class :=
  if byteAt a 0 = 0 then .invalid
  else if byteAt a 0 = 127 then .invalid
  else if byteAt a 0 = 169 ∧ byteAt a 1 = 254 then .linkLocal
  else if byteAt a 0 &&& 0xf0 = 0xe0 then .invalid
  else if a = [255, 255, 255, 255] then .invalid
  else .valid

/-- `netutil.ValidIPv6` on the bytes of a `[16]byte`: the well-known prefix is
accepted before the reserved block that contains it is refused. -/
def validIPv6 (a : Bytes) : Bool :=
  if byteAt a 0 = 0 ∧ byteAt a 1 = 0x64 ∧ byteAt a 2 = 0xff ∧ byteAt a 3 = 0x9b then true
  else if byteAt a 0 = 0 then false
  else if byteAt a 0 = 0xff then false
  else if byteAt a 0 = 0xfe ∧ byteAt a 1 &&& 0xc0 = 0x80 then false
  else true

end Clatto.Netutil
