import Clatto.Netip.Prefix
import Clatto.Netutil.Classify

/-! IPv4 addresses inside an IPv6 prefix, as RFC 6052 places them. -/

namespace Clatto.Netutil

open Bytes Netip

/-- `netutil.IsPrivateIPv4` on the bytes of a `[4]byte`. -/
def isPrivateIPv4 (a : Bytes) : Bool :=
  if byteAt a 0 = 10 then true
  else if byteAt a 0 = 100 ∧ byteAt a 1 &&& 0xc0 = 0x40 then true
  else if byteAt a 0 = 172 ∧ byteAt a 1 &&& 0xf0 = 0x10 then true
  else if byteAt a 0 = 192 ∧ byteAt a 1 = 0 ∧ byteAt a 2 = 2 then true
  else if byteAt a 0 = 192 ∧ byteAt a 1 = 168 then true
  else if byteAt a 0 = 198 ∧ byteAt a 1 &&& 0xfe = 0x12 then true
  else if byteAt a 0 = 198 ∧ byteAt a 1 = 51 ∧ byteAt a 2 = 100 then true
  else if byteAt a 0 = 203 ∧ byteAt a 1 = 0 ∧ byteAt a 2 = 113 then true
  else false

/-- `netutil.WellKnownPrefix`, 64:ff9b::/96. -/
def wellKnownPrefix : Prefix := .of (.v6 (0x64ff9b#128 <<< 96) "") 96

/-- `netutil.IsWellKnownPrefix`. -/
def isWellKnownPrefix (p : Prefix) : Bool := p.bits = 96 && p.addr = wellKnownPrefix.addr

inductive PrefixLen where
  | l32 | l40 | l48 | l56 | l64 | l96
  deriving DecidableEq

/-- How many bytes of a prefix are fixed. -/
def PrefixLen.bytes : PrefixLen → Nat
  | .l32 => 4
  | .l40 => 5
  | .l48 => 6
  | .l56 => 7
  | .l64 => 8
  | .l96 => 12

def prefixLen? (n : Int) : Option PrefixLen :=
  if n = 32 then some .l32
  else if n = 40 then some .l40
  else if n = 48 then some .l48
  else if n = 56 then some .l56
  else if n = 64 then some .l64
  else if n = 96 then some .l96
  else none

/-- `netutil.ValidRFC6052PrefixLen`. -/
def validRFC6052PrefixLen (n : Int) : Bool := (prefixLen? n).isSome

inductive EmbedError where
  | invalidPrefixLen
  | notEmbedded
  deriving DecidableEq

def EmbedError.text : EmbedError → String
  | .invalidPrefixLen => "RFC 6052 prefix length must be 32, 40, 48, 56, 64 or 96"
  | .notEmbedded => "address is not an RFC 6052 embedding"

/-- Where `Embed` puts the IPv4 address; byte 8 stays zero. -/
def embedAt (pfx v4 : Bytes) : PrefixLen → Bytes
  | .l32 => sub pfx 0 4 ++ v4 ++ List.replicate 8 0
  | .l40 => sub pfx 0 5 ++ sub v4 0 3 ++ [0] ++ sub v4 3 4 ++ List.replicate 6 0
  | .l48 => sub pfx 0 6 ++ sub v4 0 2 ++ [0] ++ sub v4 2 4 ++ List.replicate 5 0
  | .l56 => sub pfx 0 7 ++ sub v4 0 1 ++ [0] ++ sub v4 1 4 ++ List.replicate 4 0
  | .l64 => sub pfx 0 8 ++ [0] ++ v4 ++ List.replicate 3 0
  | .l96 => sub pfx 0 12 ++ v4

/-- `netutil.Embed` on the bytes of a `[16]byte` and a `[4]byte`. -/
def embed (pfx : Bytes) (len : Int) (v4 : Bytes) : Except EmbedError Bytes :=
  match prefixLen? len with
  | some l => .ok (embedAt pfx v4 l)
  | none => .error .invalidPrefixLen

def allZero (b : Bytes) : Bool := b.all (· = 0)

/-- Where `Extract` finds the IPv4 address, provided that all other bytes behind the
prefix are zero. -/
def extractAt (v6 : Bytes) : PrefixLen → Except EmbedError Bytes
  | .l32 => if !allZero (sub v6 8 16) then .error .notEmbedded else .ok (sub v6 4 8)
  | .l40 =>
    if byteAt v6 8 ≠ 0 || !allZero (sub v6 10 16) then .error .notEmbedded
    else .ok (sub v6 5 8 ++ sub v6 9 10)
  | .l48 =>
    if byteAt v6 8 ≠ 0 || !allZero (sub v6 11 16) then .error .notEmbedded
    else .ok (sub v6 6 8 ++ sub v6 9 11)
  | .l56 =>
    if byteAt v6 8 ≠ 0 || !allZero (sub v6 12 16) then .error .notEmbedded
    else .ok (sub v6 7 8 ++ sub v6 9 12)
  | .l64 =>
    if byteAt v6 8 ≠ 0 || !allZero (sub v6 13 16) then .error .notEmbedded
    else .ok (sub v6 9 13)
  | .l96 => .ok (sub v6 12 16)

/-- `netutil.Extract` on the bytes of a `[16]byte`. -/
def extract (v6 : Bytes) (len : Int) : Except EmbedError Bytes :=
  match prefixLen? len with
  | some l => extractAt v6 l
  | none => .error .invalidPrefixLen

variable {pfx v4 v6 : Bytes} {l : PrefixLen}

theorem prefixLen?_bytes {n : Nat} (found : prefixLen? n = some l) : n = 8 * l.bytes := by
  unfold prefixLen? at found
  split_ifs at found <;> cases found <;> simp only [PrefixLen.bytes] <;> omega

theorem exists_sixteen (b : Bytes) (length : b.length = 16) :
    ∃ b0 b1 b2 b3 b4 b5 b6 b7 b8 b9 b10 b11 b12 b13 b14 b15,
      b = [b0, b1, b2, b3, b4, b5, b6, b7, b8, b9, b10, b11, b12, b13, b14, b15] := by
  obtain ⟨f, rest, same, left⟩ := exists_prefix 16 b (Nat.le_of_eq length.symm)
  have empty : rest = [] := List.eq_nil_of_length_eq_zero (by omega)
  subst empty
  exact ⟨_, _, _, _, _, _, _, _, _, _, _, _, _, _, _, _, same⟩

theorem exists_four (b : Bytes) (length : b.length = 4) : ∃ b0 b1 b2 b3, b = [b0, b1, b2, b3] := by
  obtain ⟨f, rest, same, left⟩ := exists_prefix 4 b (Nat.le_of_eq length.symm)
  have empty : rest = [] := List.eq_nil_of_length_eq_zero (by omega)
  subst empty
  exact ⟨_, _, _, _, same⟩

theorem length_embedAt (sixteen : pfx.length = 16) (four : v4.length = 4) :
    (embedAt pfx v4 l).length = 16 := by
  obtain ⟨_, _, _, _, rfl⟩ := exists_four v4 four
  cases l <;> simp [embedAt, sub, sixteen]

theorem take_embedAt (sixteen : pfx.length = 16) (v4 : Bytes) :
    (embedAt pfx v4 l).take l.bytes = pfx.take l.bytes := by
  cases l <;> simp [embedAt, sub, PrefixLen.bytes, sixteen]

theorem extractAt_embedAt (sixteen : pfx.length = 16) (four : v4.length = 4) :
    extractAt (embedAt pfx v4 l) l = .ok v4 := by
  obtain ⟨_, _, _, _, _, _, _, _, _, _, _, _, _, _, _, _, rfl⟩ := exists_sixteen pfx sixteen
  obtain ⟨_, _, _, _, rfl⟩ := exists_four v4 four
  cases l <;> simp [extractAt, embedAt, sub, byteAt, allZero, List.replicate]

theorem embedAt_extractAt (sixteen : v6.length = 16)
    (inside : v6.take l.bytes = pfx.take l.bytes) (found : extractAt v6 l = .ok v4) :
    embedAt pfx v4 l = v6 ∧ v4.length = 4 := by
  have front : pfx.take l.bytes = v6.take l.bytes := inside.symm
  obtain ⟨_, _, _, _, _, _, _, _, _, _, _, _, _, _, _, _, rfl⟩ := exists_sixteen v6 sixteen
  cases l <;> simp only [extractAt, PrefixLen.bytes] at found front
  case l96 =>
    cases found
    simp [embedAt, front, sub]
  all_goals
    split at found
    · cases found
    · rename_i zero
      simp [sub, byteAt, allZero] at zero
      cases found
      simp [embedAt, front, sub, zero, List.replicate]

end Clatto.Netutil
