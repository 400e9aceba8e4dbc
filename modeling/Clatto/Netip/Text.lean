import Clatto.Netip.Prefix

/-! Addresses, prefixes and numbers as text, as the standard library reads and
prints them. What an error message says about unreadable text is left out. -/

namespace Clatto.Netip

/-- `parseIPv4Fields`: four decimal octets without leading zeros. -/
def ipv4Fields : List Char → (val digits : Nat) → (done : List Nat) → Option (List Nat)
  | [], val, _, done => if done.length = 3 then some (done ++ [val]) else none
  | c :: rest, val, digits, done =>
    if c.isDigit then
      if digits = 1 ∧ val = 0 then none
      else
        let val := val * 10 + (c.toNat - '0'.toNat)
        if val > 255 then none else ipv4Fields rest val (digits + 1) done
    else if c = '.' then
      if digits = 0 ∨ rest = [] then none
      else if done.length = 3 then none
      else ipv4Fields rest 0 0 (done ++ [val])
    else none

def hexValue (c : Char) : Option Nat :=
  if c.isDigit then some (c.toNat - '0'.toNat)
  else if 'a' ≤ c ∧ c ≤ 'f' then some (c.toNat - 'a'.toNat + 10)
  else if 'A' ≤ c ∧ c ≤ 'F' then some (c.toNat - 'A'.toNat + 10)
  else none

/-- The hexadecimal number in front of the text: how many digits, its value and
what follows; more than four digits are refused. -/
def hexGroup : List Char → (off acc : Nat) → Option (Nat × Nat × List Char)
  | [], off, acc => some (off, acc, [])
  | c :: rest, off, acc =>
    match hexValue c with
    | none => some (off, acc, c :: rest)
    | some digit => if off > 3 then none else hexGroup rest (off + 1) (acc * 16 + digit)

/-- The loop of `parseIPv6` over groups of two bytes; the fuel is the number of groups
left. The result says where `::` stood and what was not read. -/
def ipv6Groups : (left : Nat) → (ip : Bytes) → (ellipsis : Option Nat) → List Char →
    Option (Bytes × Option Nat × List Char)
  | 0, ip, ellipsis, s => some (ip, ellipsis, s)
  | left + 1, ip, ellipsis, s =>
    match hexGroup s 0 0 with
    | none => none
    | some (off, acc, rest) =>
      if off = 0 then none
      else if rest.head? = some '.' then
        if (ellipsis = none ∧ ip.length ≠ 12) ∨ ip.length + 4 > 16 then none
        else (ipv4Fields s 0 0 []).map fun four => (ip ++ four.map UInt8.ofNat, ellipsis, [])
      else
        let ip := ip ++ [UInt8.ofNat (acc / 256), UInt8.ofNat acc]
        match rest with
        | [] => some (ip, ellipsis, [])
        | ':' :: ':' :: more =>
          if ellipsis.isSome then none
          else if more = [] then some (ip, some ip.length, [])
          else ipv6Groups left ip (some ip.length) more
        | ':' :: next :: more => ipv6Groups left ip ellipsis (next :: more)
        | _ => none

/-- `::` stands for the zeros that are missing, at least one group of them. -/
def expandEllipsis (ip : Bytes) : (ellipsis : Option Nat) → Option Bytes
  | none => if ip.length < 16 then none else some ip
  | some at_ =>
    if ip.length < 16 then some (ip.take at_ ++ List.replicate (16 - ip.length) 0 ++ ip.drop at_)
    else none

/-- `parseIPv6`, with the zone split off. -/
def parseIPv6Text (text : List Char) (zone : String) : Option Addr :=
  let read (s : List Char) (ellipsis : Option Nat) : Option Addr := do
    let (ip, ellipsis, rest) ← ipv6Groups 8 [] ellipsis s
    if rest ≠ [] then none
    let ip ← expandEllipsis ip ellipsis
    return .v6 (BitVec.ofNat 128 (Bytes.toNat ip)) zone
  match text with
  | [':', ':'] => some (.v6 0 zone)
  | ':' :: ':' :: rest => read rest (some 0)
  | _ => read text none

/-- `netip.ParseAddr`. -/
def parseAddr (s : String) : Option Addr :=
  match s.toList.find? fun c => c = '.' ∨ c = ':' ∨ c = '%' with
  | some '.' => (ipv4Fields s.toList 0 0 []).map fun four => .from4 (four.map UInt8.ofNat)
  | some ':' =>
    match s.toList.span (· ≠ '%') with
    | (text, []) => parseIPv6Text text ""
    | (text, _ :: zone) => if zone = [] then none else parseIPv6Text text (String.ofList zone)
  | _ => none

/-- The decimal digits of a number, which need not be there. -/
def digits : List Char → Nat → Option Nat
  | [], n => some n
  | c :: rest, n => if c.isDigit then digits rest (n * 10 + (c.toNat - '0'.toNat)) else none

/-- `strconv.ParseUint` with base 10. -/
def parseUint (s : List Char) (bitSize : Nat) : Option Nat :=
  if s = [] then none
  else (digits s 0).bind fun n => if n < 2 ^ bitSize then some n else none

/-- `strconv.ParseInt` with base 10. -/
def parseInt (s : List Char) (bitSize : Nat) : Option Int :=
  let signed (negative : Bool) (s : List Char) : Option Int :=
    (parseUint s bitSize).bind fun n =>
      if negative then if n ≤ 2 ^ (bitSize - 1) then some (-n) else none
      else if n < 2 ^ (bitSize - 1) then some n else none
  match s with
  | '-' :: rest => signed true rest
  | '+' :: rest => signed false rest
  | _ => signed false s

/-- `netip.ParsePrefix`. -/
def parsePrefix (s : String) : Option Prefix := do
  let (bits, front) := s.toList.reverse.span (· ≠ '/')
  let ip ← match front with
    | _ :: addr => parseAddr (String.ofList addr.reverse)
    | [] => none
  if ip.hasZone then none
  let bits := bits.reverse
  if bits.length > 1 ∧ ¬ (bits.head?.any fun c => '1' ≤ c && c ≤ '9') then none
  let n ← parseInt bits 64
  if n < 0 ∨ ip.bitLen < n then none
  return .of ip n

def hex (n : Nat) : String := String.ofList (Nat.toDigits 16 n)

/-- Where the longest run of at least two zero words starts and how long it is;
the first of them counts. -/
def zeroRun (words : List Nat) : Nat × Nat :=
  (List.range words.length).foldl (fun best i =>
    let run := ((words.drop i).takeWhile (· = 0)).length
    if 2 ≤ run ∧ best.2 < run then (i, run) else best) (words.length, 0)

def dotted (bits : Nat) : String :=
  ".".intercalate ((Bytes.ofNat 4 bits).map fun b => toString b.toNat)

/-- `Addr.String`. -/
def Addr.text : Addr → String
  | .zero => "invalid IP"
  | .v4 bits => dotted bits.toNat
  | .v6 bits zone =>
    let words := (List.range 8).map fun i => bits.toNat / 2 ^ (112 - 16 * i) % 65536
    let (start, run) := zeroRun words
    let address :=
      if (Addr.v6 bits zone).is4In6 then "::ffff:" ++ dotted (bits.toNat % 2 ^ 32)
      else if run = 0 then ":".intercalate (words.map hex)
      else ":".intercalate ((words.take start).map hex) ++ "::" ++
        ":".intercalate ((words.drop (start + run)).map hex)
    if zone = "" then address else address ++ "%" ++ zone

/-- `Prefix.String`. -/
def Prefix.text (p : Prefix) : String :=
  match p.len with
  | some n => p.addr.text ++ "/" ++ toString n
  | none => "invalid Prefix"

instance : ToString Addr := ⟨Addr.text⟩

instance : ToString Prefix := ⟨Prefix.text⟩

example : (parseAddr "2001:db8::5").map Addr.text = some "2001:db8::5" := by decide +kernel

example : (parsePrefix "10.0.0.0/24").map Prefix.text = some "10.0.0.0/24" := by decide +kernel

end Clatto.Netip
