import Clatto.Addrmap.PoolCrash

/-! A `Save` goes on while the pool is in use. Once it has ended, it amounts to a `Save` at one
instant: when it locked the pool. -/

namespace Clatto.Addrmap

open Netip Files Pool

namespace Pool

/-- The calls among what was done to a pool. -/
def Act.calls (acts : List (Act × Moment)) : List (Call × Moment) :=
  acts.filterMap fun a =>
    match a.1 with
    | .call c => some (c, a.2)
    | .save _ _ => none

/-- How many attempts to save are among what was done to a pool. -/
def Act.saves (acts : List (Act × Moment)) : Nat :=
  acts.countP fun a =>
    match a.1 with
    | .call _ => false
    | .save _ _ => true

def Act.ofCalls (calls : List (Call × Moment)) : List (Act × Moment) :=
  calls.map fun c => (.call c.1, c.2)

theorem Act.calls_ofCalls (calls : List (Call × Moment)) : Act.calls (Act.ofCalls calls) = calls := by
  simp [Act.calls, Act.ofCalls, List.filterMap_map]

theorem Act.saves_ofCalls (calls : List (Call × Moment)) : Act.saves (Act.ofCalls calls) = 0 := by
  simp [Act.saves, Act.ofCalls, List.countP_map, Function.comp_def]

theorem actAll_ofCalls (s : Saved) (calls : List (Call × Moment)) :
    actAll s (Act.ofCalls calls) = (s.1.performAll calls, s.2) := by
  induction calls generalizing s with
  | nil => rfl
  | cons c calls ih => exact ih _

theorem performAll_concat (p : Pool) (calls : List (Call × Moment)) (c : Call) (m : Moment) :
    p.performAll (calls ++ [(c, m)]) = (p.performAll calls).perform m c := by
  simp [performAll]

/-- The pool after its text was written, or after that failed. -/
def saved (complete : Bool) (p : Pool) : Pool := if complete then { p with dirty := false } else p

/-- What the given calls and `n` attempts to save have made of a pool and its state file. -/
def Reached (start : Saved) (calls : List (Call × Moment)) (n : Nat) (s : Saved) : Prop :=
  ∃ acts, actAll start acts = s ∧ Act.calls acts = calls ∧ Act.saves acts = n

/-- A `Save` that has unlocked the pool again: the file is as it was when the pool was locked, and
further calls may have followed. -/
def Midway (start : Saved) (calls : List (Call × Moment)) (n : Nat) (complete : Bool)
    (text : Text) (s : Saved) : Prop :=
  ∃ q before after m stamp, Reached start before n (q, s.2) ∧ text = q.write m stamp ∧
    (q.saved complete).performAll after = s.1 ∧ before ++ after = calls

/-- What a pool and its state file have come to after `n` attempts to save, by where the current
one stands. -/
def Amounts (start : Saved) (calls : List (Call × Moment)) (n : Nat) (s : Saved) :
    Phase Char → Prop
  | .opening => Reached start calls n s
  | .opened => Reached start calls n s
  | .writing text _ => Reached start calls n s ∧ ∃ m stamp, text = s.1.write m stamp
  | .closing text complete => Midway start calls n complete text s
  | .moving text => Midway start calls n true text s
  | .removing => ∃ complete text, Midway start calls n complete text s
  | .ended _ => Reached start calls n s

variable {start s : Saved} {calls : List (Call × Moment)} {n : Nat}

theorem Reached.call (reached : Reached start calls n s) (c : Call) (m : Moment) :
    Reached start (calls ++ [(c, m)]) n (s.1.perform m c, s.2) := by
  obtain ⟨acts, same, all, count⟩ := reached
  refine ⟨acts ++ [(.call c, m)], ?_, ?_, ?_⟩
  · rw [actAll_append, same]
    rfl
  · rw [Act.calls, List.filterMap_append]
    exact congrArg (· ++ [(c, m)]) all
  · rw [Act.saves, List.countP_append]
    exact count

/-- An attempt to save in which the temporary file could not be opened. -/
theorem Reached.failed (reached : Reached start calls n s) (m : Moment) (stamp : Stamp) :
    Reached start calls (n + 1) s := by
  obtain ⟨acts, same, all, count⟩ := reached
  refine ⟨acts ++ [(.save stamp ⟨true, false, false, false⟩, m)], ?_, ?_, ?_⟩
  · rw [actAll_append, same]
    rfl
  · simpa [Act.calls] using all
  · rw [Act.saves, List.countP_append]
    exact congrArg (· + 1) count

theorem Reached.midway {complete : Bool} {text : Text} {m : Moment} {stamp : Stamp}
    (reached : Reached start calls n s) (fixed : text = s.1.write m stamp) :
    Midway start calls n complete text (s.1.saved complete, s.2) :=
  ⟨s.1, calls, [], m, stamp, reached, fixed, rfl, List.append_nil calls⟩

theorem Midway.call {complete : Bool} {text : Text} (midway : Midway start calls n complete text s)
    (c : Call) (m : Moment) :
    Midway start (calls ++ [(c, m)]) n complete text (s.1.perform m c, s.2) := by
  obtain ⟨q, before, after, m', stamp, reached, fixed, same, all⟩ := midway
  refine ⟨q, before, after ++ [(c, m)], m', stamp, reached, fixed, ?_, ?_⟩
  · rw [performAll_concat, same]
  · rw [← List.append_assoc, all]

theorem Midway.reached {complete : Bool} {text : Text} {file : Option Text}
    (midway : Midway start calls n complete text s)
    (result : file = some text ∧ complete = true ∨ file = s.2) :
    Reached start calls (n + 1) (s.1, file) := by
  obtain ⟨q, before, after, m, stamp, ⟨acts, same, earlier, count⟩, fixed, later, all⟩ := midway
  -- which calls to the operating system failed, if any
  obtain ⟨faults, outcome⟩ :
      ∃ faults, act (q, s.2) (.save stamp faults, m) = (q.saved complete, file) := by
    rcases result with ⟨rfl, rfl⟩ | rfl
    · exact ⟨⟨false, false, false, false⟩, by rw [fixed]; rfl⟩
    · cases complete with
      | true => exact ⟨⟨false, false, true, false⟩, rfl⟩
      | false => exact ⟨⟨false, true, false, false⟩, rfl⟩
  refine ⟨acts ++ (.save stamp faults, m) :: Act.ofCalls after, ?_, ?_, ?_⟩
  · have split : actAll start (acts ++ (.save stamp faults, m) :: Act.ofCalls after) =
        actAll (act (actAll start acts) (.save stamp faults, m)) (Act.ofCalls after) := by
      simp [actAll]
    rw [split, same, outcome, actAll_ofCalls, later]
  · have parts : Act.calls (acts ++ (.save stamp faults, m) :: Act.ofCalls after) =
        Act.calls acts ++ Act.calls (Act.ofCalls after) := by
      simp [Act.calls]
    rw [parts, Act.calls_ofCalls, earlier, all]
  · have parts : Act.saves (acts ++ (.save stamp faults, m) :: Act.ofCalls after) =
        Act.saves acts + (Act.saves (Act.ofCalls after) + 1) := by
      simp [Act.saves]
    rw [parts, Act.saves_ofCalls, count]

theorem Amounts.call {save : Phase Char} (amounts : Amounts start calls n s save)
    (unlocked : Process.locked ⟨s.1, save⟩ = false) (c : Call) (m : Moment) :
    Amounts start (calls ++ [(c, m)]) n (s.1.perform m c, s.2) save := by
  cases save with
  | opening => exact Reached.call amounts c m
  | opened => exact Reached.call amounts c m
  | writing => cases unlocked
  | closing => exact Midway.call amounts c m
  | moving => exact Midway.call amounts c m
  | removing =>
    obtain ⟨complete, text, midway⟩ := amounts
    exact ⟨complete, text, midway.call c m⟩
  | ended => exact Reached.call amounts c m

end Pool

/-- A `Save` is under way. -/
def Process.saving (p : Process) : Nat :=
  match p.save with
  | .ended _ => 0
  | _ => 1

namespace Machine

/-- A new `Save` begins. -/
def begins (w : Machine) : Incident → Nat
  | .save _ _ _ => w.process.elim 0 fun p => 1 - p.saving
  | _ => 0

/-- A call that finds the pool of a process unlocked. -/
def admits (w : Machine) : Incident → List (Call × Moment)
  | .call c m => w.process.elim [] fun p => if p.locked then [] else [(c, m)]
  | _ => []

/-- The calls that found the pool unlocked. -/
def admitted (path : String) (w : Machine) : List Incident → List (Call × Moment)
  | [] => []
  | i :: is => w.admits i ++ (w.step path i).admitted path is

/-- How many times `Save` was called. -/
def begun (path : String) (w : Machine) : List Incident → Nat
  | [] => 0
  | i :: is => w.begins i + (w.step path i).begun path is

/-- What the pool and the state file of a process have come to after `n` calls of `Save`. -/
structure Saves (path : String) (start : Saved) (calls : List (Call × Moment)) (n : Nat)
    (p : Process) (files : Files String Char) : Prop where
  amounts : ∃ done, done + p.saving = n ∧ Amounts start calls done (p.pool, files path) p.save
  proper : (Replacement.mk files p.save).Proper (Process.temporary path)

variable {path : String} {start : Saved} {calls : List (Call × Moment)} {w : Machine} {n : Nat}

/-- A call of `Save` to the operating system, by what it does next. -/
theorem Saves.proceed {p : Process} {files : Files String Char}
    (saves : Saves path start calls n p files) (m : Moment) (stamp : Stamp) (reply : Reply Char) :
    Saves path start calls (n + (1 - p.saving)) (p.proceed path m stamp reply files).2
      (p.proceed path m stamp reply files).1 := by
  obtain ⟨pool, save⟩ := p
  obtain ⟨done, count, amounts⟩ := saves.amounts
  subst count
  have proper := Replacement.step_proper path saves.proper (pool.write m stamp) reply
  have same {phase : Phase Char} {q : Pool} {k : Nat} (content : Option Text)
      (amounts : Amounts start calls k (q, files path) phase) :
      Amounts start calls k (q, Function.update files (Process.temporary path) content path) phase := by
    rw [Function.update_of_ne (temporary_ne path)]
    exact amounts
  cases save with
  | opening =>
    cases reply with
    | done more => exact ⟨⟨done, rfl, same _ amounts⟩, proper⟩
    | failed left => exact ⟨⟨done + 1, rfl, same _ (Reached.failed amounts m stamp)⟩, proper⟩
  | opened => exact ⟨⟨done, rfl, amounts, m, stamp, rfl⟩, proper⟩
  | writing text left =>
    obtain ⟨reached, m', stamp', fixed⟩ := amounts
    cases left with
    | nil => exact ⟨⟨done, rfl, reached.midway fixed⟩, proper⟩
    | cons c left =>
      cases reply with
      | done more => exact ⟨⟨done, rfl, same _ ⟨reached, m', stamp', fixed⟩⟩, proper⟩
      | failed left => exact ⟨⟨done, rfl, same _ (reached.midway fixed)⟩, proper⟩
  | closing text complete =>
    cases reply with
    | done more =>
      cases complete with
      | true => exact ⟨⟨done, rfl, amounts⟩, proper⟩
      | false => exact ⟨⟨done, rfl, false, text, amounts⟩, proper⟩
    | failed left =>
      cases complete with
      | true => exact ⟨⟨done, rfl, same _ ⟨true, text, amounts⟩⟩, proper⟩
      | false => exact ⟨⟨done, rfl, same _ ⟨false, text, amounts⟩⟩, proper⟩
  | moving text =>
    cases reply with
    | failed left => exact ⟨⟨done, rfl, true, text, amounts⟩, proper⟩
    | done more =>
      refine ⟨⟨done + 1, rfl, Midway.reached amounts (.inl ⟨?_, rfl⟩)⟩, proper⟩
      have change := Replacement.step_change (temporary_ne path) saves.proper
        (pool.write m stamp) (.done more)
      cases change with
      | fixed before => cases before
      | none _ still => exact absurd rfl (still text more rfl)
      | replaced _ _ before _ moved _ =>
        cases before
        exact moved
  | removing =>
    obtain ⟨complete, text, midway⟩ := amounts
    cases reply with
    | done more => exact ⟨⟨done + 1, rfl, same _ (midway.reached (.inr rfl))⟩, proper⟩
    | failed left => exact ⟨⟨done + 1, rfl, same _ (midway.reached (.inr rfl))⟩, proper⟩
  | ended text => exact ⟨⟨done, rfl, amounts⟩, trivial⟩

theorem Saves.step {p : Process} {files : Files String Char}
    (saves : Saves path start calls n p files) {i : Incident} (alive : i ≠ .die) :
    ∃ p' files', (Machine.mk files (some p)).step path i = ⟨files', some p'⟩ ∧
      Saves path start (calls ++ (Machine.mk files (some p)).admits i)
        (n + (Machine.mk files (some p)).begins i) p' files' := by
  cases i with
  | die => exact absurd rfl alive
  | boot => exact ⟨p, files, rfl, by simpa [admits, begins] using saves⟩
  | save m stamp reply =>
    refine ⟨_, _, rfl, ?_⟩
    have next := saves.proceed m stamp reply
    simpa [admits, begins] using next
  | call c m =>
    rw [Machine.step, admits, Option.elim_some]
    dsimp only
    obtain ⟨done, count, amounts⟩ := saves.amounts
    split
    · refine ⟨p, files, rfl, ?_⟩
      rw [List.append_nil]
      exact saves
    · rename_i unlocked
      rw [Bool.not_eq_true] at unlocked
      exact ⟨_, files, rfl, ⟨done, count, amounts.call unlocked c m⟩, saves.proper⟩

theorem Saves.run {p : Process} {files : Files String Char}
    (saves : Saves path start calls n p files) {is : List Incident} (alive : .die ∉ is)
    (k : Durable) :
    ∃ p' files', ((Machine.mk files (some p)).run path k is).1 = ⟨files', some p'⟩ ∧
      Saves path start (calls ++ (Machine.mk files (some p)).admitted path is)
        (n + (Machine.mk files (some p)).begun path is) p' files' := by
  induction is generalizing p files calls n k with
  | nil => exact ⟨p, files, rfl, by simpa [admitted, begun] using saves⟩
  | cons i is ih =>
    rw [List.mem_cons, not_or] at alive
    obtain ⟨p', files', step, next⟩ := saves.step (Ne.symm alive.1)
    obtain ⟨q, final, ran, last⟩ := ih next alive.2 (k.note ⟨files, some p⟩ i)
    refine ⟨q, final, ?_, ?_⟩
    · rw [← ran, ← step]
      rfl
    · rw [admitted, begun, step, ← List.append_assoc, ← Nat.add_assoc]
      exact last

/-- While no `Save` is under way, the pool and the state file of a process are as if every `Save`
so far had happened at one instant, between the calls that found the pool unlocked. -/
theorem saves_atomic {p q : Pool} {files : Files String Char} {last text : Option Text}
    {is : List Incident} {k k' : Durable} (alive : .die ∉ is)
    (ran : Machine.run path ⟨files, some ⟨p, .ended last⟩⟩ k is = (w, k'))
    (idle : w.process = some ⟨q, .ended text⟩) :
    ∃ acts, actAll (p, files path) acts = (q, w.files path) ∧
      Act.calls acts = admitted path ⟨files, some ⟨p, .ended last⟩⟩ is ∧
      Act.saves acts = begun path ⟨files, some ⟨p, .ended last⟩⟩ is := by
  have start : Saves path (p, files path) [] 0 ⟨p, .ended last⟩ files :=
    ⟨⟨0, rfl, [], rfl, rfl, rfl⟩, trivial⟩
  obtain ⟨p', files', same, saves⟩ := start.run alive k
  rw [ran] at same
  dsimp only at same
  subst same
  cases idle
  obtain ⟨done, count, reached⟩ := saves.amounts
  obtain ⟨acts, result, all, number⟩ := reached
  refine ⟨acts, result, all, ?_⟩
  rw [number, ← Nat.zero_add (begun ..), ← count]
  rfl

/-- A `Save` that fails to write, and one that does not. There are calls before the first one, and
before the pool is locked, while it is, and after it. -/
def disturbed (m : Moment) (stamp : Stamp) (c₁ c₂ c₃ c₄ : Call × Moment) (more : Nat) :
    List Incident :=
  [.call c₁.1 c₁.2, .save m stamp (.done 0), .save m stamp (.done 0), .call c₂.1 c₂.2,
    .save m stamp (.done 0), .call c₃.1 c₃.2, .save m stamp (.failed none), .call c₄.1 c₄.2,
    .save m stamp (.done 0), .save m stamp (.done 0)] ++ wholeSave m stamp more

theorem run_disturbed (path : String) (k : Durable) {p q : Pool} {m : Moment} {stamp : Stamp}
    {c₁ c₂ c₄ : Call × Moment} (c₃ : Call × Moment) {more : Nat}
    (asked : p.performAll [c₁, c₂, c₄] = q) (enough : (q.write m stamp).length ≤ more + 1) :
    let w : Machine := ⟨fun _ => none, some ⟨p, .ended none⟩⟩
    let is := disturbed m stamp c₁ c₂ c₃ c₄ more
    w.admitted path is = [c₁, c₂, c₄] ∧ w.begun path is = 2 ∧
      ∃ w' k', w.run path k is = (w', k') ∧ w'.files path = some (q.write m stamp) ∧
        w'.process = some ⟨{ q with dirty := false }, .ended (some (q.write m stamp))⟩ := by
  obtain ⟨c, rest, text⟩ : ∃ c rest, (p.performAll [c₁, c₂]).write m stamp = c :: rest :=
    ⟨_, _, rfl⟩
  obtain ⟨c', rest', text'⟩ : ∃ c rest, q.write m stamp = c :: rest := ⟨_, _, rfl⟩
  have short : rest'.length ≤ more := by
    rw [text', List.length_cons] at enough
    exact Nat.le_of_succ_le_succ enough
  have all : rest'.take more = rest' ∧ rest'.drop more = [] :=
    ⟨List.take_of_length_le short, List.drop_eq_nil_of_le short⟩
  simp only [Pool.performAll, List.foldl_cons, List.foldl_nil] at asked text
  subst asked
  simp [Machine.run, disturbed, wholeSave, Machine.step, Machine.admitted, Machine.admits,
    Machine.begun, Machine.begins, Process.saving, Process.locked, Process.proceed,
    Process.written, Replacement.step, Replacement.put, Durable.note, temporary_ne, text, text', all]

def asks (m : Moment) (n : BitVec 128) : Call × Moment :=
  (.lookup6 (.v6 (0x20010db8 <<< 96 + n) "") true, m)

theorem saves_atomic_disturbed : ∃ stamp more p q w k acts,
    let a := asks (.second 10000)
    newPool (.of (.v4 0x0a000000#32) 29) {} = .ok p ∧
    Machine.run "/dynamic.map" ⟨fun _ => none, some ⟨p, .ended none⟩⟩ ⟨∅, ∅⟩
      (disturbed (.second 10001) stamp (a 1) (a 2) (a 3) (a 4) more) = (w, k) ∧
    w.files "/dynamic.map" = some (q.write (.second 10001) stamp) ∧
    [1, 2, 3, 4].map (fun n => (q.mapped.get (.v6 (0x20010db8 <<< 96 + n) "")).isSome) =
      [true, true, false, true] ∧
    actAll (p, none) acts = (q, w.files "/dynamic.map") ∧
    Act.calls acts = [a 1, a 2, a 4] ∧ Act.saves acts = 2 := by
  let a := asks (.second 10000)
  obtain ⟨stamp⟩ : Nonempty Stamp := ⟨[], by decide, by decide⟩
  obtain ⟨p, q, made, asked, held⟩ : ∃ p q, newPool (.of (.v4 0x0a000000#32) 29) {} = .ok p ∧
      p.performAll [a 1, a 2, a 4] = q ∧
      [1, 2, 3, 4].map (fun n => (q.mapped.get (.v6 (0x20010db8 <<< 96 + n) "")).isSome) =
        [true, true, false, true] :=
    ⟨_, _, rfl, rfl, by decide +kernel⟩
  obtain ⟨calls, saves, w, k, ran, file, idle⟩ := run_disturbed "/dynamic.map" ⟨∅, ∅⟩ (a 3)
    asked (Nat.le_succ (q.write (.second 10001) stamp).length)
  obtain ⟨acts, result, calls', saves'⟩ :=
    saves_atomic (by simp [disturbed, wholeSave]) ran idle
  exact ⟨stamp, _, p, { q with dirty := false }, w, k, acts, made, ran, file, held, result,
    calls'.trans calls, saves'.trans saves⟩

end Machine

end Clatto.Addrmap
