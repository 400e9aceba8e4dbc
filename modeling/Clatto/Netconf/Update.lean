import Clatto.Netconf.Kernel

/-! How the kernel is configured, from scratch and from one set of options to another. Log
lines are left out. -/

namespace Clatto.Netconf

open Netip Net

def sharedRulePriority : Int := 1

def localRulePriority : Int := 2

/-- `routeScope`. -/
def routeScope (p : Prefix) : Scope := if p.addr.is4 then .link else .everywhere

/-- `kernelRoute`. -/
def kernelRoute (link : Link) (r : Route) (table : Int) : KernelRoute where
  linkIndex := link.index
  dst := r.pfx
  scope := routeScope r.pfx
  table := table
  priority := r.metric
  mtu := r.mtu
  advMSS := r.advMSS

/-- `delRoute`: a route that is gone already is no error. -/
def delRoute (link : Link) (r : Route) (table : Int) : Net Unit := do
  match ← routeDel (kernelRoute link r table) with
  | .ok _ => pure ()
  | .error .srch => pure ()
  | .error err => Faulty.fail s!"remove route {r.pfx} via {link.name}: {err}"

/-- `addRoute`. -/
def addRoute (link : Link) (r : Route) (table : Int) : Net Unit := do
  match ← routeReplace (kernelRoute link r table) with
  | .ok _ => pure ()
  | .error err => Faulty.fail s!"add route {r.pfx} via {link.name}: {err}"

/-- The interface of this name, or why it cannot be found. -/
def findLink (name : String) : Net Link := do
  match ← linkByName name with
  | .ok link => pure link
  | .error err => Faulty.fail s!"find interface {name}: {err}"

/-- `localRule`. -/
def localRule (priority : Int) : Rule := { priority, table := localTable }

/-- `ruleSpec.rule`. -/
def RuleSpec.rule (spec : RuleSpec) : Rule where
  priority := sharedRulePriority
  table := spec.table
  src := some spec.source
  dst := some (.of spec.addr 128)
  ipProto := spec.filter.proto
  dport := if spec.filter.start ≠ 0 then some (spec.filter.start, spec.filter.stop) else none

/-- Whether there is a rule for the local table at this priority. -/
def hasLocalRule (rules : Finset Rule) (priority : Int) : Bool :=
  decide (∃ r ∈ rules, r.table = localTable ∧ r.priority = priority)

/-- The rule for the local table at `localRulePriority`, unless there is one. -/
def addLocalRule (rules : Finset Rule) : Net Unit := do
  if hasLocalRule rules localRulePriority then pure ()
  else
    match ← ruleAdd (localRule localRulePriority) with
    | .ok _ => pure ()
    | .error .exist => pure ()
    | .error err =>
      Faulty.fail s!"add IPv6 rule for the local table at priority {localRulePriority}: {err}"

/-- The rule for the local table at priority 0 goes, if there is one. -/
def delLocalRule (rules : Finset Rule) : Net Unit := do
  if hasLocalRule rules 0 then
    match ← ruleDel (localRule 0) with
    | .ok _ => pure ()
    | .error .noent => pure ()
    | .error err => Faulty.fail s!"remove IPv6 rule for the local table at priority 0: {err}"
  else pure ()

/-- `demoteLocalRule`: the rule for the local table moves from priority 0 to
`localRulePriority`. -/
def demoteLocalRule : Net Unit := do
  match ← ruleList with
  | .error err => Faulty.fail s!"list IPv6 rules: {err}"
  | .ok rules =>
    addLocalRule rules
    delLocalRule rules

def addRule (spec : RuleSpec) : Net Unit := do
  match ← ruleAdd spec.rule with
  | .ok _ => pure ()
  | .error .exist => pure ()
  | .error err => Faulty.fail s!"add IPv6 rule {spec.text}: {err}"

def delRule (spec : RuleSpec) : Net Unit := do
  match ← ruleDel spec.rule with
  | .ok _ => pure ()
  | .error .noent => pure ()
  | .error err => Faulty.fail s!"remove IPv6 rule {spec.text}: {err}"

/-- `applyShared`. -/
def applyShared (link : Link) (s : Shared) : Net Unit := do
  demoteLocalRule
  addRoute link s.route s.table
  (ruleSpecs (some s)).forM addRule

/-- `removeStaleRules`. -/
def removeStaleRules (prev next : Option Shared) : Net Unit := (staleRules prev next).forM delRule

def overwriteSysctl (name value : String) : Net Unit := do
  match ← writeFile ("/proc/sys/" ++ name) value with
  | .ok _ => pure ()
  | .error err =>
    Faulty.fail (s!"sysctl {name}={value}: {err} (grant CAP_NET_ADMIN and a writable /proc/sys, " ++
      "set the sysctl in the pod securityContext, or disable interface.sysctl)")

/-- `writeSysctl`: what cannot be read is written anyway. -/
def writeSysctl (name value : String) : Net Unit := do
  let cur ← readFile ("/proc/sys/" ++ name)
  if cur = .ok (value ++ "\n") then pure ()
  else overwriteSysctl name value

/-- `setSysctl`. -/
def setSysctl (name : String) : Net Unit := writeSysctl name "1"

def addAddress (link : Link) (name : String) (p : Prefix) : Net Unit := do
  match ← addrAdd link p with
  | .ok _ => pure ()
  | .error .exist => pure ()
  | .error err => Faulty.fail s!"add address {p} to {name}: {err}"

def delAddress (link : Link) (name : String) (p : Prefix) : Net Unit := do
  match ← addrDel link p with
  | .ok _ => pure ()
  | .error .addrNotAvail => pure ()
  | .error err => Faulty.fail s!"remove address {p} from {name}: {err}"

def bringUp (link : Link) (name : String) : Net Unit := do
  match ← linkSetUp link with
  | .ok _ => pure ()
  | .error err => Faulty.fail s!"set {name} up: {err}"

def enable (wanted : Bool) (name : String) : Net Unit := if wanted then setSysctl name else pure ()

/-- `Apply`. -/
def apply (o : Options) : Net Unit := do
  let link ← findLink o.name
  bringUp link o.name
  o.addresses.forM (addAddress link o.name)
  o.routes.forM (addRoute link · 0)
  o.shared.forM (applyShared link)
  enable o.forward4 "net/ipv4/ip_forward"
  enable o.forward6 "net/ipv6/conf/all/forwarding"

/-- `Update`. -/
def update (prev next : Options) : Net Unit := do
  let link ← findLink next.name
  (staleRoutes prev.routes4 next.routes4 ++ staleRoutes prev.routes6 next.routes6).forM
    (delRoute link · 0)
  (missingPrefixes next.addresses prev.addresses).forM (delAddress link next.name)
  removeStaleRules prev.shared next.shared
  (movedShared prev.shared next.shared).forM fun s => delRoute link s.route s.table
  apply (prev.added next)

end Clatto.Netconf
