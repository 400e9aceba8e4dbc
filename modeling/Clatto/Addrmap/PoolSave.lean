import Clatto.Addrmap.PoolLease

/-! When the state file says what the pool holds. -/

namespace Clatto.Addrmap

open Netip

/-- A state file lists a set of assignments; without a file there are none. -/
def Lists (pairs : Set (Addr × Addr)) : Option Text → Prop
  | none => pairs = ∅
  | some text => ∃ stamp hosts, text = fileText stamp hosts ∧
      pairs = {pair | ∃ d ∈ hosts, d.pair = pair}

namespace Pool

def pairs (p : Pool) : Set (Addr × Addr) := {pair | ∃ r, p.Holds r ∧ (p.host r).pair = pair}

variable {p p' : Pool} {off : BitVec 32} {now : Int64}

theorem Sound.mem_pairs (sound : p.Sound) {pair : Addr × Addr} :
    pair ∈ p.pairs ↔ ∃ off d, p.table off = some d ∧ d.pair = pair := by
  constructor
  · rintro ⟨r, held, rfl⟩
    exact ⟨_, _, Registry.view_eq_some.mpr ⟨r, sound.holds_iff.mp held, rfl⟩, rfl⟩
  · rintro ⟨off, d, held, rfl⟩
    obtain ⟨r, here, rfl⟩ := Registry.view_eq_some.mp held
    have same : (p.host r).off = off := sound.filed.key here
    refine ⟨r, sound.holds_iff.mpr ?_, rfl⟩
    rw [same]
    exact here

theorem mem_hosts (order : Order) {d : DynHost} :
    d ∈ p.hosts order ↔ ∃ r, p.Holds r ∧ p.host r = d := by
  rw [hosts, List.mem_mergeSort, List.mem_map]
  constructor
  · rintro ⟨⟨a, r⟩, member, rfl⟩
    rcases List.mem_append.mp member with mapped | dormant
    · exact ⟨r, .inl ⟨a, (mem_order ..).mp mapped⟩, rfl⟩
    · exact ⟨r, .inr ⟨a, (mem_order ..).mp dormant⟩, rfl⟩
  · rintro ⟨r, ⟨a, mapped⟩ | ⟨a, dormant⟩, rfl⟩
    · exact ⟨⟨a, r⟩, List.mem_append_left _ ((mem_order ..).mpr mapped), rfl⟩
    · exact ⟨⟨a, r⟩, List.mem_append_right _ ((mem_order ..).mpr dormant), rfl⟩

theorem write_lists (m : Moment) (stamp : Stamp) : Lists p.pairs (some (p.write m stamp)) := by
  refine ⟨stamp, p.hosts m.order, rfl, Set.ext fun pair => ?_⟩
  constructor
  · rintro ⟨r, held, rfl⟩
    exact ⟨_, (mem_hosts m.order).mpr ⟨r, held, rfl⟩, rfl⟩
  · rintro ⟨d, member, rfl⟩
    obtain ⟨r, held, rfl⟩ := (mem_hosts m.order).mp member
    exact ⟨r, held, rfl⟩

/-- A host that changes but keeps its addresses does not change the assignments. -/
theorem Writes.pairs {d d' : DynHost} {dirty : Bool} (sound : p.Sound)
    (writes : p.Writes off (some d') dirty p') (held : p.table off = some d)
    (same : d'.pair = d.pair) : p'.pairs = p.pairs := by
  ext pair
  rw [writes.sound.mem_pairs, sound.mem_pairs, writes.table]
  constructor
  · rintro ⟨l, e, here, rfl⟩
    by_cases place : l = off
    · subst place
      rw [Function.update_self] at here
      cases here
      exact ⟨l, d, held, same.symm⟩
    · rw [Function.update_of_ne place] at here
      exact ⟨l, e, here, rfl⟩
  · rintro ⟨l, e, here, rfl⟩
    by_cases place : l = off
    · subst place
      cases held.symm.trans here
      exact ⟨l, d', Function.update_self .., same⟩
    · exact ⟨l, e, (Function.update_of_ne place ..).trans here, rfl⟩

theorem Maintained.pairs (sound : p.Sound) (aged : p.Maintained now p')
    (clean : p'.dirty = false) : p.dirty = false ∧ p'.pairs = p.pairs := by
  have nobody := aged.dirty.not.mp (by simp [clean])
  rw [not_or] at nobody
  obtain ⟨before, nobody⟩ := nobody
  have stays {off : BitVec 32} {d : DynHost} (held : p.table off = some d) :
      ∃ e, p'.table off = some e ∧ e.pair = d.pair := by
    rw [aged.table, held, Option.bind_some]
    cases result : d.aged p.minLease.seconds p.maxLease.seconds now with
    | none => exact absurd ⟨off, d, held, result⟩ nobody
    | some e =>
      refine ⟨e, rfl, ?_⟩
      rw [DynHost.aged] at result
      split at result
      · cases result
      · cases result
        rw [DynHost.rested]
        split <;> rfl
  refine ⟨Bool.eq_false_iff.mpr before, Set.ext fun pair => ?_⟩
  rw [aged.sound.mem_pairs, sound.mem_pairs]
  constructor
  · rintro ⟨off, e, held', rfl⟩
    cases held : p.table off with
    | none => simp [aged.table, held] at held'
    | some d =>
      obtain ⟨f, held'', same⟩ := stays held
      cases held'.symm.trans held''
      exact ⟨off, d, held, same.symm⟩
  · rintro ⟨off, d, held, rfl⟩
    obtain ⟨e, held', same⟩ := stays held
    exact ⟨off, e, held', same⟩

theorem perform_pairs (sound : p.Sound) (m : Moment) (c : Call)
    (clean : (p.perform m c).dirty = false) :
    p.dirty = false ∧ (p.perform m c).pairs = p.pairs := by
  cases c with
  | lookup4 a =>
    cases four : a.as4 with
    | error fault =>
      rw [perform, lookup4, four] at clean ⊢
      exact ⟨clean, rfl⟩
    | ok a4 =>
      obtain ⟨answer, -, replied⟩ := lookup4_replied sound four m
      rw [perform] at clean ⊢
      generalize (p.lookup4 a m).2 = q at clean replied
      cases replied with
      | silent => exact ⟨clean, rfl⟩
      | answer held _ writes => exact ⟨writes.dirty.symm.trans clean, writes.pairs sound held rfl⟩
  | lookup6 a allocate =>
    have asked := lookup6_asked sound a allocate m
    rw [perform] at clean ⊢
    generalize p.lookup6 a allocate m = q at asked clean
    obtain ⟨answer, q⟩ := q
    cases asked with
    | known held _ _ writes => exact ⟨writes.dirty.symm.trans clean, writes.pairs sound held rfl⟩
    | woken _ held _ _ writes => exact ⟨writes.dirty.symm.trans clean, writes.pairs sound held rfl⟩
    | refused => exact ⟨clean, rfl⟩
    | exhausted => exact ⟨clean, rfl⟩
    | granted _ _ _ _ writes => cases clean.symm.trans writes.dirty
    | stolen _ _ _ _ _ _ writes => cases clean.symm.trans writes.dirty
  | maintain => exact (maintain_maintained m sound).pairs sound clean

inductive Act where
  | call (c : Call)
  | save (stamp : Stamp) (faults : Faults)

/-- A pool and its state file, if there is one. -/
abbrev Saved := Pool × Option Text

def act (s : Saved) (a : Act × Moment) : Saved :=
  match a.1 with
  | .call c => (s.1.perform a.2 c, s.2)
  | .save stamp faults =>
    let result := s.1.save a.2 stamp faults s.2
    (result.2, result.1.2)

def actAll (s : Saved) (acts : List (Act × Moment)) : Saved := acts.foldl act s

/-- A pool that is not dirty holds what its state file lists. -/
def InStep (s : Saved) : Prop := s.1.dirty = false → Lists s.1.pairs s.2

/-- An attempt to save that cannot do harm: either it fails before the pool is marked as
clean, or it does not fail, or the file is up to date anyway. -/
def Harmless (s : Saved) (faults : Faults) : Prop :=
  faults.openFile = true ∨ faults.write = true ∨ (faults.close = false ∧ faults.rename = false) ∨
    Lists s.1.pairs s.2

variable {s : Saved} {m : Moment}

theorem actAll_append (s : Saved) (before : List (Act × Moment)) (a : Act × Moment) :
    actAll s (before ++ [a]) = act (actAll s before) a := by
  simp [actAll]

theorem act_sound (a : Act × Moment) (sound : s.1.Sound) : (act s a).1.Sound := by
  obtain ⟨a | ⟨stamp, faults⟩, m⟩ := a
  · exact (perform_move sound m a).1
  · obtain ⟨openFile, write, close, rename⟩ := faults
    cases openFile <;> cases write <;> cases close <;> cases rename <;>
      exact ⟨sound.size, sound.filed, sound.placed, sound.used⟩

theorem actAll_sound (acts : List (Act × Moment)) (sound : s.1.Sound) :
    (actAll s acts).1.Sound := by
  induction acts generalizing s with
  | nil => exact sound
  | cons a acts ih => exact ih (act_sound a sound)

/-- A save that went far enough to mark the pool as clean, and then failed. -/
theorem act_harm {stamp : Stamp} {faults : Faults} (harm : ¬ Harmless s faults) :
    ¬ InStep (act s (.save stamp faults, m)) := by
  obtain ⟨openFile, write, close, rename⟩ := faults
  simp only [Harmless, not_or, not_and] at harm
  obtain ⟨opened, written, failed, stale⟩ := harm
  rw [Bool.not_eq_true] at opened written
  subst opened written
  intro step
  cases close with
  | true => exact stale (step rfl)
  | false =>
    cases rename with
    | true => exact stale (step rfl)
    | false => exact failed rfl rfl

theorem act_harmless {stamp : Stamp} {faults : Faults} (step : InStep s)
    (harmless : Harmless s faults) : InStep (act s (.save stamp faults, m)) := by
  obtain ⟨openFile, write, close, rename⟩ := faults
  cases openFile with
  | true => exact step
  | false =>
    cases write with
    | true => exact step
    | false =>
      rcases harmless with no | no | ⟨closed, renamed⟩ | lists
      · cases no
      · cases no
      · subst closed renamed
        exact fun _ => write_lists m stamp
      · cases close with
        | true => exact fun _ => lists
        | false =>
          cases rename with
          | true => exact fun _ => lists
          | false => exact fun _ => write_lists m stamp

theorem act_call (sound : s.1.Sound) (c : Call) (step : InStep s) :
    InStep (act s (.call c, m)) := by
  intro clean
  obtain ⟨before, same⟩ := perform_pairs sound m c clean
  change Lists (s.1.perform m c).pairs s.2
  rw [same]
  exact step before

theorem newPool_pairs {pfx : Prefix} {o : PoolOptions} (made : newPool pfx o = .ok p) :
    p.pairs = ∅ := by
  obtain ⟨sound, empty⟩ := newPool_sound made
  refine Set.eq_empty_iff_forall_notMem.mpr fun pair member => ?_
  obtain ⟨off, d, held, -⟩ := sound.mem_pairs.mp member
  simp [empty] at held

theorem newPool_in_step {pfx : Prefix} {o : PoolOptions} (made : newPool pfx o = .ok p) :
    InStep (p, none) :=
  fun _ => newPool_pairs made

/-- The state file of a new pool stays in step with it throughout a run exactly when
no attempt to save in the run does harm. -/
theorem in_step_iff {pfx : Prefix} {o : PoolOptions} (made : newPool pfx o = .ok p)
    (acts : List (Act × Moment)) :
    (∀ before after, acts = before ++ after → InStep (actAll (p, none) before)) ↔
      ∀ before stamp faults m after, acts = before ++ (.save stamp faults, m) :: after →
        Harmless (actAll (p, none) before) faults := by
  constructor
  · intro always before stamp faults m after split
    by_contra harm
    refine act_harm harm (?_ : InStep (act _ (.save stamp faults, m)))
    rw [← actAll_append]
    exact always _ after (by rw [split, List.append_assoc]; rfl)
  · intro harmless before
    induction before using List.reverseRecOn with
    | nil => exact fun _ _ => newPool_in_step made
    | append_singleton before a ih =>
      intro after split
      have split' : acts = before ++ a :: after := by rw [split, List.append_assoc]; rfl
      have step := ih _ split'
      rw [actAll_append]
      obtain ⟨a | ⟨stamp, faults⟩, m⟩ := a
      · exact act_call (actAll_sound _ (newPool_sound made).1) a step
      · exact act_harmless step (harmless before stamp faults m after split')

/-- Two saves after an assignment, the first of which cannot open its file. -/
theorem in_step_iff_retried : ∃ p, newPool (.of (.v4 0x0a000000#32) 29) {} = .ok p ∧
    InStep (actAll (p, none) [
      (.call (.lookup6 (.v6 5 "") true), .second 0),
      (.save ⟨[], by decide, by decide⟩ ⟨true, false, false, false⟩, .second 0),
      (.save ⟨[], by decide, by decide⟩ ⟨false, false, false, false⟩, .second 0)]) := by
  refine ⟨_, rfl, (@in_step_iff _ (.of (.v4 0x0a000000#32) 29) {} rfl _).mpr ?_ _ []
    (List.append_nil _).symm⟩
  intro before stamp faults m after split
  rcases before with _ | ⟨_, _ | ⟨_, _ | ⟨_, before⟩⟩⟩
  · cases split
  · cases split
    exact .inl rfl
  · cases split
    exact .inr (.inr (.inl ⟨rfl, rfl⟩))
  · simp at split

/-- An assignment, and a save whose last step fails: the pool counts as saved, and
there is no file. -/
theorem in_step_fails : ∃ p, newPool (.of (.v4 0x0a000000#32) 29) {} = .ok p ∧
    ¬ InStep (actAll (p, none) [
      (.call (.lookup6 (.v6 5 "") true), .second 0),
      (.save ⟨[], by decide, by decide⟩ ⟨false, false, false, true⟩, .second 0)]) := by
  refine ⟨_, rfl, fun step => ?_⟩
  have held : (.v4 0x0a000005#32, .v6 5 "") ∈ (∅ : Set (Addr × Addr)) := by
    rw [← show _ = ∅ from step rfl]
    exact ⟨0, .inl ⟨.v6 5 "", rfl⟩, rfl⟩
  exact held

end Pool

end Clatto.Addrmap
