import Clatto.Addrmap.Table
import Clatto.Netconf.Options

/-! The configuration as it is written, and the texts in it that have to be read. -/

namespace Clatto

open Netip
open Xlate (UDPChecksumMode)

namespace Config

/-- What is not printable beyond ASCII: control characters, spaces, separators, format
characters, private ones and noncharacters. -/
def unprintable : List (Nat × Nat) :=
  [(0x80, 0xa0), (0xad, 0xad), (0x600, 0x605), (0x61c, 0x61c), (0x6dd, 0x6dd), (0x70f, 0x70f),
    (0x890, 0x891), (0x8e2, 0x8e2), (0x1680, 0x1680), (0x180e, 0x180e), (0x2000, 0x200f),
    (0x2028, 0x202f), (0x205f, 0x206f), (0x3000, 0x3000), (0xe000, 0xf8ff), (0xfdd0, 0xfdef),
    (0xfeff, 0xfeff), (0xfff9, 0xfffb), (0xfffe, 0xffff), (0x110bd, 0x110bd), (0x110cd, 0x110cd),
    (0x13430, 0x1343f), (0x1bca0, 0x1bca3), (0x1d173, 0x1d17a), (0xe0000, 0xe007f),
    (0xf0000, 0x10ffff)]

/-- `strconv.IsPrint`. Code points that may get a character some day count as printable. -/
def isPrint (c : Char) : Bool :=
  0x20 ≤ c.toNat && c.toNat ≠ 0x7f && !unprintable.any fun r => r.1 ≤ c.toNat && c.toNat ≤ r.2

/-- A number with at least as many hexadecimal digits. -/
def hexDigits (width n : Nat) : String := "".pushn '0' (width - (hex n).length) ++ hex n

/-- A character as `strconv.Quote` prints it. -/
def quoteChar (c : Char) : String :=
  match c with
  | '"' => "\\\""
  | '\\' => "\\\\"
  | '\x07' => "\\a"
  | '\x08' => "\\b"
  | '\t' => "\\t"
  | '\n' => "\\n"
  | '\x0b' => "\\v"
  | '\x0c' => "\\f"
  | '\r' => "\\r"
  | c =>
    if isPrint c then c.toString
    else if c.toNat < 0x20 ∨ c.toNat = 0x7f then "\\x" ++ hexDigits 2 c.toNat
    else if c.toNat < 0x10000 then "\\u" ++ hexDigits 4 c.toNat
    else "\\U" ++ hexDigits 8 c.toNat

/-- `strconv.Quote`. -/
def quote (s : String) : String := "\"" ++ String.join (s.toList.map quoteChar) ++ "\""

/-- `unicode.ToLower` as far as it leads into ASCII: a dotted capital I and the Kelvin sign
do so, too. -/
def lowerChar (c : Char) : Char :=
  if c = '\u0130' then 'i' else if c = '\u212a' then 'k' else c.toLower

/-- `strings.ToLower`, to be compared with ASCII. -/
def lower (s : String) : String := String.ofList (s.toList.map lowerChar)

/-- `strings.EqualFold` with "auto", whose letters are not folded with others. -/
def isAuto (s : String) : Bool := s.toList.map Char.toLower = "auto".toList

/-- `strings.Cut` at a character. -/
def cut (s : List Char) (sep : Char) : List Char × Option (List Char) :=
  match s.span (· ≠ sep) with
  | (before, []) => (before, none)
  | (before, _ :: after) => (before, some after)

/-- `config.CLAT`. -/
structure CLAT where
  ipv6Address : String := ""
  ipv4Address : Addr := .zero
  ports : List String := []
  table : Int := 0

/-- `config.Route`. -/
structure Route where
  pfx : Prefix
  metric : Int := 0
  mtu : Int := 0
  advMSS : Int := 0

def Route.netconf (r : Route) : Netconf.Route where
  pfx := r.pfx.masked
  metric := r.metric
  mtu := r.mtu
  advMSS := r.advMSS

/-- `config.Interface`. -/
structure Interface where
  name : String := ""
  mtu : Int := 0
  configure : Option Bool := none
  addresses : List Prefix := []
  routes : List Route := []
  autoRoutes : Option Bool := none
  sysctl : Option Bool := none

/-- `config.Map`. -/
structure Map where
  ipv4 : String
  ipv6 : String

/-- `config.DynamicPool`. -/
structure DynamicPool where
  pfx : Prefix
  stateFile : String := ""
  minLease : Duration := 0
  maxLease : Duration := 0

/-- `config.Log`. -/
structure Log where
  level : String := ""
  format : String := ""
  packets : List String := []

/-- `config.HTTP`. -/
structure HTTP where
  listen : String := ""
  admin : Bool := false

end Config

/-- `config.Config`. Zero values mean "default". -/
structure Config where
  interface : Config.Interface := {}
  ipv4Address : Addr := .zero
  ipv6Address : Addr := .zero
  pfx : Prefix := .zero
  wkpfStrict : Option Bool := none
  maps : List Config.Map := []
  dynamicPool : Option Config.DynamicPool := none
  clat : Option Config.CLAT := none
  udpChecksum : String := ""
  offlinkMTU : Int := 0
  log : Config.Log := {}
  http : Config.HTTP := {}

namespace Config

def defaultInterface : String := "clat0"

def defaultMTU : Int := 1500

def defaultOfflinkMTU : Int := 1280

def defaultHTTPListen : String := ":6464"

def defaultCLATTable : Int := 0xc1a7

def rtTableDefault : Int := 253

def rtTableMain : Int := 254

def rtTableLocal : Int := 255

def defaultCLATHostIPv4 : Addr := .v4 0xc0000001

def defaultCLATTranslatorIPv4 : Addr := .v4 0xc0000002

/-- `boolOr`. -/
def boolOr (p : Option Bool) (standard : Bool) : Bool := p.getD standard

/-- `parseAddrOrPrefix`, without what the standard library says about text it cannot read. -/
def parseAddrOrPrefix (s : String) : Except String Prefix :=
  if '/' ∈ s.toList then
    match parsePrefix s with
    | some p => .ok p
    | none =>
      let text := quote s
      .error s!"netip.ParsePrefix({text})"
  else
    match parseAddr s with
    | some a => .ok (.of a a.bitLen)
    | none =>
      let text := quote s
      .error s!"ParseAddr({text})"

/-- `UDPChecksumMode.String`. -/
def udpChecksumText : UDPChecksumMode → String
  | .drop => "drop"
  | .calc => "calc"
  | .forward => "forward"

/-- `ParseUDPChecksum`. -/
def parseUDPChecksum (s : String) : Except String UDPChecksumMode :=
  if lower s = "" ∨ lower s = "drop" then .ok .drop
  else if lower s = "calc" ∨ lower s = "calculate" then .ok .calc
  else if lower s = "fwd" ∨ lower s = "forward" then .ok .forward
  else
    let text := quote s
    .error s!"udp_checksum: expected drop, calc or forward, got {text}"

/-- The number of a protocol in `clat.ports`. -/
def filterProto (name : String) : Option Int :=
  if name = "tcp" then some 6
  else if name = "udp" then some 17
  else if name = "sctp" then some 132
  else if name = "icmp" ∨ name = "icmpv6" ∨ name = "ipv6-icmp" then some 58
  else none

/-- `port` of `ParseFilter`. -/
def filterPort (s : String) (v : List Char) : Except String UInt16 :=
  match parseUint v 16 with
  | some n =>
    if n = 0 then
      let text := quote s
      .error s!"{text}: port must be between 1 and 65535"
    else .ok (UInt16.ofNat n)
  | none =>
    let text := quote s
    .error s!"{text}: port must be between 1 and 65535"

/-- `ParseFilter`. -/
def parseFilter (s : String) : Except String Netconf.Filter := do
  let text := quote s
  let (name, ports) := cut s.toList '/'
  match filterProto (lower (String.ofList name)) with
  | none => throw s!"{text}: protocol must be tcp, udp, sctp or icmp"
  | some proto =>
    match ports with
    | none => return { proto }
    | some ports =>
      if proto = 58 then throw s!"{text}: icmp takes no port range"
      let (lo, hi) := cut ports '-'
      let start ← filterPort s lo
      let stop ← filterPort s (hi.getD lo)
      if stop < start then throw s!"{text}: port range is reversed"
      return { proto, start, stop }

example : parseFilter "UDP/1024-2048" = .ok { proto := 17, start := 1024, stop := 2048 } := by
  decide +kernel

end Config

end Clatto
