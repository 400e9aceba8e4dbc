import Mathlib.Data.Finset.Basic
import Clatto.Lib.Faulty
import Clatto.Netconf.Options

/-! The kernel as the daemon sees it through netlink and `/proc/sys`. Every call may be
refused. -/

namespace Clatto.Netconf

open Netip

/-- The errors of a call: those the daemon tells apart, and all others. -/
inductive Errno where
  | exist
  | srch
  | noent
  | addrNotAvail
  | other (text : String)
  deriving DecidableEq

def Errno.text : Errno → String
  | .exist => "file exists"
  | .srch => "no such process"
  | .noent => "no such file or directory"
  | .addrNotAvail => "cannot assign requested address"
  | .other text => text

instance : ToString Errno := ⟨Errno.text⟩

/-- `netlink.Link`. -/
structure Link where
  name : String
  index : Int
  deriving DecidableEq

inductive Scope where
  | link
  | everywhere
  deriving DecidableEq

/-- Where a route is kept: there is one route for each table, destination and priority. -/
structure Place where
  table : Int
  dst : Prefix
  priority : Int
  deriving DecidableEq

structure RouteOptions where
  linkIndex : Int
  scope : Scope
  mtu : Int
  advMSS : Int
  deriving DecidableEq

/-- `RT_TABLE_MAIN`. -/
def mainTable : Int := 254

/-- `RT_TABLE_LOCAL`. -/
def localTable : Int := 255

/-- `netlink.Route`. -/
structure KernelRoute extends RouteOptions where
  dst : Prefix
  table : Int
  priority : Int

/-- Without a table the route is kept in the main one. -/
def KernelRoute.place (r : KernelRoute) : Place where
  table := if 0 < r.table then r.table else mainTable
  dst := r.dst
  priority := r.priority

/-- `netlink.Rule`, of the IPv6 family. -/
structure Rule where
  priority : Int
  table : Int
  src : Option Prefix := none
  dst : Option Prefix := none
  ipProto : Int := 0
  dport : Option (UInt16 × UInt16) := none
  deriving DecidableEq

structure Kernel where
  links : String → Option Link
  up : Finset Int
  addrs : Finset (Int × Prefix)
  routes : Place → Option RouteOptions
  rules : Finset Rule
  sysctls : String → String

namespace Kernel

variable (k : Kernel)

def setUp (index : Int) : Kernel := { k with up := insert index k.up }

def putAddr (index : Int) (p : Prefix) : Kernel := { k with addrs := insert (index, p) k.addrs }

def dropAddr (index : Int) (p : Prefix) : Kernel := { k with addrs := k.addrs.erase (index, p) }

def putRoute (place : Place) (options : RouteOptions) : Kernel :=
  { k with routes := Function.update k.routes place (some options) }

def dropRoute (place : Place) : Kernel := { k with routes := Function.update k.routes place none }

def putRule (r : Rule) : Kernel := { k with rules := insert r k.rules }

def dropRule (r : Rule) : Kernel := { k with rules := k.rules.erase r }

def setSysctl (path value : String) : Kernel :=
  { k with sysctls := Function.update k.sysctls path value }

end Kernel

abbrev Net (α : Type) := Faulty Kernel α

namespace Net

def request {α : Type} (operation : Kernel → Except Errno (α × Kernel)) : Net (Except Errno α) :=
  Faulty.call .other operation

def linkByName (name : String) : Net (Except Errno Link) :=
  request fun k =>
    match k.links name with
    | some link => .ok (link, k)
    | none => .error (.other "Link not found")

def linkSetUp (link : Link) : Net (Except Errno Unit) :=
  request fun k => .ok ((), k.setUp link.index)

def addrAdd (link : Link) (p : Prefix) : Net (Except Errno Unit) :=
  request fun k =>
    if (link.index, p) ∈ k.addrs then .error .exist else .ok ((), k.putAddr link.index p)

def addrDel (link : Link) (p : Prefix) : Net (Except Errno Unit) :=
  request fun k =>
    if (link.index, p) ∈ k.addrs then .ok ((), k.dropAddr link.index p) else .error .addrNotAvail

def routeReplace (r : KernelRoute) : Net (Except Errno Unit) :=
  request fun k => .ok ((), k.putRoute r.place r.toRouteOptions)

def routeDel (r : KernelRoute) : Net (Except Errno Unit) :=
  request fun k =>
    if (k.routes r.place).isSome then .ok ((), k.dropRoute r.place) else .error .srch

def ruleList : Net (Except Errno (Finset Rule)) :=
  request fun k => .ok (k.rules, k)

def ruleAdd (r : Rule) : Net (Except Errno Unit) :=
  request fun k => if r ∈ k.rules then .error .exist else .ok ((), k.putRule r)

def ruleDel (r : Rule) : Net (Except Errno Unit) :=
  request fun k => if r ∈ k.rules then .ok ((), k.dropRule r) else .error .noent

/-- `os.ReadFile` below `/proc/sys`, where values end in a newline. -/
def readFile (path : String) : Net (Except Errno String) :=
  request fun k => .ok (k.sysctls path ++ "\n", k)

def writeFile (path value : String) : Net (Except Errno Unit) :=
  request fun k => .ok ((), k.setSysctl path value)

end Net

end Clatto.Netconf
