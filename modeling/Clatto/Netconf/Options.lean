import Clatto.Netip.Text

/-! What the kernel is to be configured with: addresses, routes and policy rules of one
interface, and what differs between two such sets. -/

namespace Clatto.Netconf

open Netip

/-- `routeKey`: what makes a route distinct to the kernel. -/
structure RouteKey where
  pfx : Prefix
  metric : Int
  deriving DecidableEq

/-- `netconf.Route`, a route via the interface. -/
structure Route where
  pfx : Prefix
  metric : Int := 0
  mtu : Int := 0
  advMSS : Int := 0
  deriving DecidableEq

def Route.key (r : Route) : RouteKey := ⟨r.pfx, r.metric⟩

/-- `netconf.Filter`: an IP protocol and a range of destination ports, zero for any. -/
structure Filter where
  proto : Int := 0
  start : UInt16 := 0
  stop : UInt16 := 0
  deriving DecidableEq

/-- `Filter.String`. -/
def Filter.text (f : Filter) : String :=
  let proto :=
    if f.proto = 0 then ""
    else if f.proto = 6 then "tcp"
    else if f.proto = 17 then "udp"
    else if f.proto = 58 then "icmp"
    else if f.proto = 132 then "sctp"
    else toString f.proto
  if proto = "" then "all"
  else if f.start = 0 then proto
  else if f.start = f.stop then s!"{proto}/{f.start}"
  else s!"{proto}/{f.start}-{f.stop}"

/-- `netconf.Shared`, a CLAT that uses an address of the host. -/
structure Shared where
  addr : Addr
  source : Prefix
  table : Int
  filters : List Filter
  deriving DecidableEq

/-- `netconf.Options`. -/
structure Options where
  name : String
  addresses : List Prefix
  routes4 : List Route
  routes6 : List Route
  forward4 : Bool
  forward6 : Bool
  shared : Option Shared

/-- `ruleSpec`, one policy rule. -/
structure RuleSpec where
  addr : Addr
  source : Prefix
  table : Int
  filter : Filter := {}
  deriving DecidableEq

/-- `ruleSpec.String`. -/
def RuleSpec.text (r : RuleSpec) : String :=
  s!"from {r.source} to {r.addr} {r.filter.text} lookup {r.table}"

/-- `ruleSpecs`: one rule for everything, or one for each filter. -/
def ruleSpecs : Option Shared → List RuleSpec
  | none => []
  | some s =>
    if s.filters = [] then [{ addr := s.addr, source := s.source, table := s.table }]
    else s.filters.map fun filter => { addr := s.addr, source := s.source, table := s.table, filter }

/-- `missingPrefixes`. -/
def missingPrefixes (present want : List Prefix) : List Prefix := want.filter (· ∉ present)

/-- `missingRoutes`: the routes that are not there with the same options. -/
def missingRoutes (present want : List Route) : List Route := want.filter (· ∉ present)

/-- `staleRoutes`: the routes whose key is not wanted any more. -/
def staleRoutes (present want : List Route) : List Route :=
  present.filter fun r => r.key ∉ want.map Route.key

/-- The rules that `removeStaleRules` removes. -/
def staleRules (prev next : Option Shared) : List RuleSpec :=
  (ruleSpecs prev).filter (· ∉ ruleSpecs next)

/-- The route of a shared address, when it is not where it was. -/
def movedShared (prev next : Option Shared) : Option Shared :=
  prev.filter fun s =>
    match next with
    | none => true
    | some n => s.addr ≠ n.addr || s.table ≠ n.table

namespace Shared

variable (s : Shared)

def route : Route := { pfx := .of s.addr 128 }

end Shared

namespace Options

def routes (o : Options) : List Route := o.routes4 ++ o.routes6

/-- What `Update` still has to add. -/
def added (prev next : Options) : Options where
  name := next.name
  addresses := missingPrefixes prev.addresses next.addresses
  routes4 := missingRoutes prev.routes4 next.routes4
  routes6 := missingRoutes prev.routes6 next.routes6
  forward4 := next.forward4 && !prev.forward4
  forward6 := next.forward6 && !prev.forward6
  shared := next.shared

end Options

end Clatto.Netconf
