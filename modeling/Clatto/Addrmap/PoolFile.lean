import Clatto.Addrmap.Pool

/-! The state file of a pool: one line of text for each assignment, in the format of
tayga's `dynamic.map`. -/

namespace Clatto.Addrmap

open Netip

abbrev Text := List Char

/-- `unicode.IsSpace`. -/
def isSpace (c : Char) : Bool :=
  let n := c.toNat
  (9 ≤ n && n ≤ 13) || n = 0x20 || n = 0x85 || n = 0xa0 || n = 0x1680 ||
    (0x2000 ≤ n && n ≤ 0x200a) || n = 0x2028 || n = 0x2029 || n = 0x202f || n = 0x205f || n = 0x3000

/-- `strings.Fields`. -/
def fields (line : Text) : List Text := (line.splitOnP isSpace).filter (· ≠ [])

/-- What a `bufio.Scanner` makes of its input: the lines, and whether it had to stop. -/
structure Scan where
  lines : List Text
  failed : Bool

namespace Scan

/-- `bufio.MaxScanTokenSize`, in bytes. -/
def maxTokenSize : Nat := 64 * 1024

/-- A carriage return at the end of a line is dropped. -/
def dropCR (line : Text) : Text := if line.getLast? = some '\r' then line.dropLast else line

def more (line : Text) (s : Scan) : Scan := { s with lines := dropCR line :: s.lines }

def byteSize (line : Text) : Nat := (line.map (·.utf8Size)).sum

/-- `bufio.ScanLines` on a text that can be read to its end; `line` is what has been
read of the current line. A line that does not fit into the buffer stops the scan. -/
def ofText (line : Text) : Text → Scan
  | [] =>
    if line = [] then ⟨[], false⟩
    else if maxTokenSize ≤ byteSize line then ⟨[], true⟩ else more line ⟨[], false⟩
  | c :: rest =>
    if c = '\n' then if maxTokenSize ≤ byteSize line then ⟨[], true⟩ else more line (ofText [] rest)
    else ofText (line ++ [c]) rest

end Scan

structure Row where
  v4 : Addr
  v6 : Addr
  last : Int64
  deriving DecidableEq

/-- Read a line of the state file; comments and what does not parse are passed over. -/
def parseRow (line : Text) : Option Row :=
  match fields line with
  | [v4, v6, last] =>
    if v4.head? = some '#' then none
    else
      match parseAddr (String.ofList v4), parseAddr (String.ofList v6), parseInt last 64 with
      | some v4, some v6, some last =>
        if last ≤ 0 ∨ !v4.is4 ∨ !v6.is6 then none else some ⟨v4, v6, Int64.ofInt last⟩
      | _, _, _ => none
  | _ => none

namespace DynHost

def lastText (d : DynHost) : Text := (toString d.lastUse.toInt).toList

/-- The line of the state file for a host. -/
def line (d : DynHost) : Text :=
  d.v4.text.toList ++ '\t' :: d.v6.text.toList ++ '\t' :: d.lastText ++ ['\n']

def pair (d : DynHost) : Addr × Addr := (d.v4, d.v6)

end DynHost

/-- A point in time as `time.RFC3339` prints it: a few characters on one line. -/
structure Stamp where
  text : Text
  oneLine : '\n' ∉ text
  short : Scan.byteSize text ≤ 100

/-- The text of a state file that was written at a given time. -/
def fileText (stamp : Stamp) (hosts : List DynHost) : Text :=
  "###\n### clatto dynamic map database\n### Last written: ".toList ++ stamp.text ++
    "\n###\n\n".toList ++ hosts.flatMap DynHost.line

namespace Pool

variable (p : Pool)

/-- The hosts in both maps by increasing offset. -/
def hosts (order : Order) : List DynHost :=
  ((order.list p.mapped ++ order.list p.dormant).map fun d => p.host d.2).mergeSort
    fun d e => d.off ≤ e.off

/-- `write`. -/
def write (m : Moment) (stamp : Stamp) : Text := fileText stamp (p.hosts m.order)

/-- Which calls of the operating system fail while a file is saved. -/
structure Faults where
  openFile : Bool
  write : Bool
  close : Bool
  rename : Bool
  deriving DecidableEq

/-- `Save`: whether it went well, and the state file afterwards, if there is one. The
new text becomes the state file when the temporary file is renamed. -/
def save (m : Moment) (stamp : Stamp) (faults : Faults) (file : Option Text) :
    (Bool × Option Text) × Pool :=
  if faults.openFile then ((false, file), p)
  else
    let text := p.write m stamp
    let p := if faults.write then p else { p with dirty := false }
    if faults.write ∨ faults.close then ((false, file), p)
    else if faults.rename then ((false, file), p)
    else ((true, some text), p)

/-- The state of `read` between two lines. -/
structure Loading where
  pool : Pool
  count : Nat
  future : Bool
  loaded : List Ref

/-- A host from the state file is dormant at first. -/
def restore (row : Row) (off : BitVec 32) : Pool :=
  let d : DynHost := { v4 := row.v4, v6 := row.v6, off, lastUse := row.last, dormant := true }
  let r := p.heap.next
  { p.setUsed off with
    heap := p.heap.alloc d
    by4 := p.by4.put off r
    dormant := p.dormant.put row.v6 r }

/-- The offset of a row that can be taken over. -/
def accepts (row : Row) : Option (BitVec 32) :=
  match row.v4 with
  | .v4 bits =>
    let off := p.offset (Bytes.ofNat 4 bits.toNat)
    if !p.pfx.contains row.v4 || !Netutil.validIPv6 row.v6.as16 then none
    else if off = 0 || p.isUsed off || p.reserved row.v4 then none
    else if (p.dormant.get row.v6).isSome then none
    else if (p.mapped.get row.v6).isSome then none
    else some off
  | _ => none

def Loading.line (now : Int64) (s : Loading) (line : Text) : Loading :=
  match parseRow line with
  | none => s
  | some row =>
    match s.pool.accepts row with
    | none => s
    | some off => {
        pool := s.pool.restore row off
        count := s.count + 1
        future := s.future || row.last > now
        loaded := s.loaded ++ [s.pool.heap.next] }

/-- What becomes of a loaded host at the end: a clock that went backwards makes all of
them dormant. -/
def settle (future : Bool) (now minLease : Int64) (p : Pool) (r : Ref) : Pool :=
  if future then p.touch r (now - minLease)
  else if (p.host r).lastUse + minLease ≥ now then p.activate r (p.host r).lastUse
  else p

/-- `read`: how many assignments were loaded, and whether the file could be read. -/
def read (m : Moment) (s : Scan) : (Nat × Bool) × Pool :=
  let now := m.now.unix
  let minLease := p.minLease.seconds
  let l := s.lines.foldl (Loading.line now) ⟨p, 0, false, []⟩
  if s.failed then ((l.count, false), l.pool)
  else ((l.count, true), l.loaded.foldl (settle l.future now minLease) l.pool)

end Pool

end Clatto.Addrmap
