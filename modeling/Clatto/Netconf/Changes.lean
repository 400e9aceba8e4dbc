import Clatto.Lib.Reconcile
import Clatto.Netconf.Update

/-! Configuring the kernel as a list of changes: what `Apply` and `Update` do when nothing
goes wrong, and the first part of it when something does. -/

namespace Clatto.Netconf

open Netip Net Reconcile

inductive Change where
  | up (index : Int)
  | putAddr (index : Int) (p : Prefix)
  | dropAddr (index : Int) (p : Prefix)
  | putRoute (r : KernelRoute)
  | dropRoute (place : Place)
  | putRule (spec : RuleSpec)
  | dropRule (spec : RuleSpec)
  | putLocalRule
  | dropLocalRule
  | sysctl (path : String)

def Change.make : Change → Kernel → Kernel
  | .up index, k => k.setUp index
  | .putAddr index p, k => k.putAddr index p
  | .dropAddr index p, k => k.dropAddr index p
  | .putRoute r, k => k.putRoute r.place r.toRouteOptions
  | .dropRoute place, k => k.dropRoute place
  | .putRule spec, k => k.putRule spec.rule
  | .dropRule spec, k => k.dropRule spec.rule
  | .putLocalRule, k =>
    if hasLocalRule k.rules localRulePriority then k else k.putRule (localRule localRulePriority)
  | .dropLocalRule, k => k.dropRule (localRule 0)
  | .sysctl path, k => k.setSysctl path "1"

theorem Change.make_links (c : Change) (k : Kernel) : (c.make k).links = k.links := by
  cases c with
  | putLocalRule =>
    rw [make]
    split <;> rfl
  | _ => rfl

/-- Changes of a program that finds the interface. -/
abbrev Does {α : Type} (name : String) (link : Link) (program : Net α) (changes : List Change)
    (post : α → Prop) : Prop :=
  Faulty.Performs Change.make (fun k => k.links name = some link) program changes post

section

variable {name : String} {link : Link}

theorem stays (c : Change) (k : Kernel) (found : k.links name = some link) :
    (c.make k).links name = some link := by
  rw [c.make_links]
  exact found

theorem request_does {operation : Kernel → Except Errno (Unit × Kernel)}
    {next : Except Errno Unit → Net Unit} {c : Change}
    (stops : ∀ reason, ∃ message, next (.error (.other reason)) = Faulty.fail message)
    (goes : ∀ k, match operation k with
      | .ok (answer, k') => next (.ok answer) = pure () ∧ k' = c.make k
      | .error problem => next (.error problem) = pure () ∧ k = c.make k) :
    Does name link (request operation >>= next) [c] fun _ => True := by
  refine Faulty.performs_call stops fun k _ => ⟨(), trivial, ?_⟩
  have going := goes k
  cases answered : operation k with
  | ok answer =>
    rw [answered] at going
    exact going
  | error problem =>
    rw [answered] at going
    exact going

theorem findLink_does : Does name link (findLink name) [] (· = link) := by
  unfold findLink linkByName request
  refine Faulty.performs_call (fun reason => ⟨_, rfl⟩) fun k found => ⟨link, rfl, ?_⟩
  rw [found]
  exact ⟨rfl, rfl⟩

theorem bringUp_does : Does name link (bringUp link name) [.up link.index] fun _ => True := by
  unfold bringUp linkSetUp
  exact request_does (fun reason => ⟨_, rfl⟩) fun k => ⟨rfl, rfl⟩

theorem addAddress_does (p : Prefix) :
    Does name link (addAddress link name p) [.putAddr link.index p] fun _ => True := by
  unfold addAddress addrAdd
  refine request_does (fun reason => ⟨_, rfl⟩) fun k => ?_
  by_cases present : (link.index, p) ∈ k.addrs
  · rw [if_pos present, Change.make, Kernel.putAddr, Finset.insert_eq_of_mem present]
    exact ⟨rfl, rfl⟩
  · rw [if_neg present]
    exact ⟨rfl, rfl⟩

theorem delAddress_does (p : Prefix) :
    Does name link (delAddress link name p) [.dropAddr link.index p] fun _ => True := by
  unfold delAddress addrDel
  refine request_does (fun reason => ⟨_, rfl⟩) fun k => ?_
  by_cases present : (link.index, p) ∈ k.addrs
  · rw [if_pos present]
    exact ⟨rfl, rfl⟩
  · rw [if_neg present, Change.make, Kernel.dropAddr, Finset.erase_eq_of_notMem present]
    exact ⟨rfl, rfl⟩

theorem addRoute_does (r : Route) (table : Int) :
    Does name link (addRoute link r table) [.putRoute (kernelRoute link r table)] fun _ => True := by
  unfold addRoute routeReplace
  exact request_does (fun reason => ⟨_, rfl⟩) fun k => ⟨rfl, rfl⟩

theorem delRoute_does (r : Route) (table : Int) :
    Does name link (delRoute link r table) [.dropRoute (kernelRoute link r table).place]
      fun _ => True := by
  unfold delRoute routeDel
  refine request_does (fun reason => ⟨_, rfl⟩) fun k => ?_
  by_cases present : (k.routes (kernelRoute link r table).place).isSome
  · rw [if_pos present]
    exact ⟨rfl, rfl⟩
  · rw [if_neg present, Change.make, Kernel.dropRoute,
      ← Option.not_isSome_iff_eq_none.mp present, Function.update_eq_self]
    exact ⟨rfl, rfl⟩

theorem addRule_does (spec : RuleSpec) :
    Does name link (addRule spec) [.putRule spec] fun _ => True := by
  unfold addRule ruleAdd
  refine request_does (fun reason => ⟨_, rfl⟩) fun k => ?_
  by_cases present : spec.rule ∈ k.rules
  · rw [if_pos present, Change.make, Kernel.putRule, Finset.insert_eq_of_mem present]
    exact ⟨rfl, rfl⟩
  · rw [if_neg present]
    exact ⟨rfl, rfl⟩

theorem delRule_does (spec : RuleSpec) :
    Does name link (delRule spec) [.dropRule spec] fun _ => True := by
  unfold delRule ruleDel
  refine request_does (fun reason => ⟨_, rfl⟩) fun k => ?_
  by_cases present : spec.rule ∈ k.rules
  · rw [if_pos present]
    exact ⟨rfl, rfl⟩
  · rw [if_neg present, Change.make, Kernel.dropRule, Finset.erase_eq_of_notMem present]
    exact ⟨rfl, rfl⟩

theorem not_mem_of_hasLocalRule {rules : Finset Rule} {priority : Int}
    (absent : ¬ hasLocalRule rules priority = true) : localRule priority ∉ rules := by
  intro member
  exact absent (decide_eq_true ⟨_, member, rfl, rfl⟩)

theorem addLocalRule_performs (k : Kernel) :
    Faulty.Performs Change.make (· = k) (addLocalRule k.rules) [.putLocalRule] fun _ => True := by
  unfold addLocalRule
  by_cases present : hasLocalRule k.rules localRulePriority = true
  · rw [if_pos present]
    rintro w rfl
    refine ⟨rfl, [.putLocalRule], List.prefix_rfl, ?_, rfl, trivial⟩
    exact (if_pos present).symm
  · rw [if_neg present]
    unfold ruleAdd request
    refine Faulty.performs_call (fun reason => ⟨_, rfl⟩) ?_
    rintro _ rfl
    refine ⟨(), trivial, ?_⟩
    rw [if_neg (not_mem_of_hasLocalRule present)]
    exact ⟨rfl, (if_neg present).symm⟩

theorem localRule_mem_putLocalRule {k : Kernel}
    (member : localRule 0 ∈ (Change.putLocalRule.make k).rules) : localRule 0 ∈ k.rules := by
  rw [Change.make] at member
  split at member
  · exact member
  · exact (Finset.mem_insert.mp member).resolve_left (by decide)

theorem delLocalRule_performs (k : Kernel) :
    Faulty.Performs Change.make (· = Change.putLocalRule.make k) (delLocalRule k.rules)
      [.dropLocalRule] fun _ => True := by
  unfold delLocalRule
  by_cases present : hasLocalRule k.rules 0 = true
  · rw [if_pos present]
    unfold ruleDel request
    refine Faulty.performs_call (fun reason => ⟨_, rfl⟩) fun k' _ => ⟨(), trivial, ?_⟩
    by_cases member : localRule 0 ∈ k'.rules
    · rw [if_pos member]
      exact ⟨rfl, rfl⟩
    · rw [if_neg member]
      refine ⟨rfl, ?_⟩
      show k' = k'.dropRule (localRule 0)
      rw [Kernel.dropRule, Finset.erase_eq_of_notMem member]
  · rw [if_neg present]
    intro w start
    refine ⟨rfl, [.dropLocalRule], List.prefix_rfl, ?_, rfl, trivial⟩
    have absent : localRule 0 ∉ w.state.rules := by
      rw [start]
      exact fun member => not_mem_of_hasLocalRule present (localRule_mem_putLocalRule member)
    show w.state = w.state.dropRule (localRule 0)
    rw [Kernel.dropRule, Finset.erase_eq_of_notMem absent]

theorem demoteLocalRule_does :
    Does name link demoteLocalRule [.putLocalRule, .dropLocalRule] fun _ => True := by
  unfold demoteLocalRule ruleList request
  refine Faulty.performs_read (fun reason => .inl ⟨_, rfl⟩) fun k _ => ?_
  refine Faulty.performs_seq ?_ (addLocalRule_performs k) fun _ _ => delLocalRule_performs k
  rintro _ rfl
  rfl

theorem overwriteSysctl_performs (ready : Kernel → Prop) (path : String) :
    Faulty.Performs Change.make ready (overwriteSysctl path "1") [.sysctl ("/proc/sys/" ++ path)]
      fun _ => True := by
  unfold overwriteSysctl writeFile request
  exact Faulty.performs_call (fun reason => ⟨_, rfl⟩) fun k _ => ⟨(), trivial, rfl, rfl⟩

theorem setSysctl_does (path : String) :
    Does name link (setSysctl path) [.sysctl ("/proc/sys/" ++ path)] fun _ => True := by
  unfold setSysctl writeSysctl readFile request
  refine Faulty.performs_read (fun reason => .inr fun k _ => ?_) fun k _ => ?_
  · rw [if_neg (by simp)]
    exact overwriteSysctl_performs _ path
  · by_cases set : k.sysctls ("/proc/sys/" ++ path) = "1"
    · rw [set, if_pos rfl]
      rintro w rfl
      refine ⟨rfl, [.sysctl ("/proc/sys/" ++ path)], List.prefix_rfl, ?_, rfl, trivial⟩
      show w.state = w.state.setSysctl _ "1"
      rw [Kernel.setSysctl, ← set, Function.update_eq_self]
    · rw [if_neg]
      · exact overwriteSysctl_performs _ path
      · intro same
        exact set (String.append_left_inj _ |>.mp (Except.ok.inj same))

theorem enable_does (wanted : Bool) (path : String) :
    Does name link (enable wanted path) (if wanted then [.sysctl ("/proc/sys/" ++ path)] else [])
      fun _ => True := by
  cases wanted with
  | true => exact setSysctl_does path
  | false => exact Faulty.performs_pure trivial

end

def Shared.changes (link : Link) (s : Shared) : List Change :=
  [.putLocalRule, .dropLocalRule] ++ ([.putRoute (kernelRoute link s.route s.table)] ++
    (ruleSpecs (some s)).map .putRule)

/-- The changes of `Apply`. -/
def Options.changes (link : Link) (o : Options) : List Change :=
  [.up link.index] ++ (o.addresses.map (.putAddr link.index) ++
    (o.routes.map (fun r => .putRoute (kernelRoute link r 0)) ++
      (o.shared.toList.flatMap (Shared.changes link) ++
        ((if o.forward4 then [.sysctl "/proc/sys/net/ipv4/ip_forward"] else []) ++
          if o.forward6 then [.sysctl "/proc/sys/net/ipv6/conf/all/forwarding"] else []))))

/-- The changes of `Update` before it adds anything. -/
def removals (link : Link) (prev next : Options) : List Change :=
  (staleRoutes prev.routes4 next.routes4 ++ staleRoutes prev.routes6 next.routes6).map
      (fun r => .dropRoute (kernelRoute link r 0).place) ++
    ((missingPrefixes next.addresses prev.addresses).map (.dropAddr link.index) ++
      ((staleRules prev.shared next.shared).map .dropRule ++
        (movedShared prev.shared next.shared).toList.flatMap
          fun s => [.dropRoute (kernelRoute link s.route s.table).place]))

section

variable {name : String} {link : Link}

theorem applyShared_does (s : Shared) :
    Does name link (applyShared link s) (s.changes link) fun _ => True :=
  Faulty.performs_bind stays demoteLocalRule_does fun _ _ =>
    Faulty.performs_bind stays (addRoute_does s.route s.table) fun _ _ =>
      Faulty.performs_forM stays fun spec _ => addRule_does spec

theorem apply_does {o : Options} (same : o.name = name) :
    Does name link (apply o) (o.changes link) fun _ => True := by
  subst same
  rw [← List.nil_append (o.changes link)]
  refine Faulty.performs_bind stays findLink_does fun found same => ?_
  subst same
  refine Faulty.performs_bind stays bringUp_does fun _ _ => ?_
  refine Faulty.performs_bind stays
    (Faulty.performs_forM stays fun p _ => addAddress_does p) fun _ _ => ?_
  refine Faulty.performs_bind stays
    (Faulty.performs_forM stays fun r _ => addRoute_does r 0) fun _ _ => ?_
  refine Faulty.performs_bind stays (Faulty.performs_option _ applyShared_does) fun _ _ => ?_
  exact Faulty.performs_bind stays (enable_does _ _) fun _ _ => enable_does _ _

theorem update_does {prev next : Options} (same : next.name = name) :
    Does name link (update prev next) (removals link prev next ++ (prev.added next).changes link)
      fun _ => True := by
  subst same
  rw [← List.nil_append (removals link prev next ++ _)]
  refine Faulty.performs_bind stays findLink_does fun found same => ?_
  subst same
  unfold removals
  simp only [List.append_assoc]
  refine Faulty.performs_bind stays
    (Faulty.performs_forM stays fun r _ => delRoute_does r 0) fun _ _ => ?_
  refine Faulty.performs_bind stays
    (Faulty.performs_forM stays fun p _ => delAddress_does p) fun _ _ => ?_
  refine Faulty.performs_bind stays
    (Faulty.performs_forM stays fun spec _ => delRule_does spec) fun _ _ => ?_
  exact Faulty.performs_bind stays
    (Faulty.performs_option _ fun s => delRoute_does s.route s.table) fun _ _ => apply_does rfl

end

end Clatto.Netconf
