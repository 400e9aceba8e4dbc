import Clatto.Lib.Bytes

/-! The part of the standard address type the translator relies on: a zero
value, IPv4 addresses, and IPv6 addresses that may carry a zone. -/

namespace Clatto.Netip

/-- `netip.Addr`. Equality is the comparison Go makes with `==`. -/
inductive Addr where
  | zero
  | v4 (bits : BitVec 32)
  | v6 (bits : BitVec 128) (zone : String)
  deriving DecidableEq, Repr

namespace Addr

instance : Inhabited Addr := ⟨.zero⟩

def is4 : Addr → Bool
  | .v4 _ => true
  | _ => false

/-- IPv6 addresses, IPv4-mapped ones included. -/
def is6 : Addr → Bool
  | .v6 _ _ => true
  | _ => false

def is4In6 : Addr → Bool
  | .v6 bits _ => bits.toNat / 2 ^ 32 == 0xffff
  | _ => false

def isValid : Addr → Bool
  | .zero => false
  | _ => true

def bitLen : Addr → Nat
  | .zero => 0
  | .v4 _ => 32
  | .v6 _ _ => 128

def withoutZone : Addr → Addr
  | .v6 bits _ => .v6 bits ""
  | other => other

def hasZone : Addr → Bool
  | .v6 _ zone => zone != ""
  | _ => false

/-- `netip.AddrFrom4` on the bytes of a `[4]byte`. -/
def from4 (b : Bytes) : Addr := .v4 (BitVec.ofNat 32 (Bytes.toNat b))

/-- `netip.AddrFrom16` on the bytes of a `[16]byte`. -/
def from16 (b : Bytes) : Addr := .v6 (BitVec.ofNat 128 (Bytes.toNat b)) ""

/-- `Addr.As16`: IPv4 addresses come out IPv4-mapped and zones are dropped. -/
def as16 : Addr → Bytes
  | .zero => Bytes.ofNat 16 0
  | .v4 bits => Bytes.ofNat 16 (0xffff * 2 ^ 32 + bits.toNat)
  | .v6 bits _ => Bytes.ofNat 16 bits.toNat

/-- `Addr.As4`, which panics on the zero value and on IPv6 addresses that are
not IPv4-mapped. -/
def as4 : Addr → Checked Bytes
  | .zero => .error .outOfRange
  | .v4 bits => .ok (Bytes.ofNat 4 bits.toNat)
  | .v6 bits _ =>
    inRange (bits.toNat / 2 ^ 32 = 0xffff) (Bytes.ofNat 4 (bits.toNat % 2 ^ 32))

@[simp] theorem length_as16 (a : Addr) : a.as16.length = 16 := by
  cases a <;> simp [as16]

theorem length_as4 {a : Addr} {b : Bytes} (found : a.as4 = .ok b) : b.length = 4 := by
  cases a with
  | zero => cases found
  | v4 bits =>
    cases found
    simp
  | v6 bits zone =>
    simp only [as4, inRange] at found
    split at found <;> cases found
    simp

end Addr

end Clatto.Netip
