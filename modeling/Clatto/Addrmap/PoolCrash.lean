import Clatto.Addrmap.PoolStored
import Clatto.Lib.Files

/-! The state file across restarts. A process may die at any point of a `Save`, and any call to
the operating system may fail. -/

namespace Clatto.Addrmap

open Netip Files

/-- A process: its pool and its last `Save`. -/
structure Process where
  pool : Pool
  save : Phase Char

/-- A directory, and the process that keeps its state there, while it runs. -/
structure Machine where
  files : Files String Char
  process : Option Process

inductive Incident where
  | boot (pfx : Prefix) (o : PoolOptions) (reserved : Addr → Bool) (m : Moment) (opens : Bool)
  | call (c : Pool.Call) (m : Moment)
  | save (m : Moment) (stamp : Stamp) (reply : Reply Char)
  | die

namespace Process

/-- `Save` holds the lock of the pool while it writes. -/
def locked (p : Process) : Bool :=
  match p.save with
  | .writing _ _ => true
  | _ => false

def written (p : Process) : Bool :=
  match p.save with
  | .writing _ [] => true
  | _ => false

def temporary (path : String) : String := path ++ "~~"

/-- The next call of `Save` to the operating system; a new `Save` begins when the last one has
ended. The pool counts as saved once its text has been written. -/
def proceed (path : String) (m : Moment) (stamp : Stamp) (reply : Reply Char)
    (files : Files String Char) (p : Process) : Files String Char × Process :=
  match p.save with
  | .ended _ => (files, { p with save := .opening })
  | save =>
    let r := Replacement.step (temporary path) path (p.pool.write m stamp) reply ⟨files, save⟩
    (r.files, ⟨if p.written then { p.pool with dirty := false } else p.pool, r.phase⟩)

end Process

namespace Machine

/-- A new process loads the state file, if it can be opened; calls wait for the lock. -/
def step (path : String) (w : Machine) : Incident → Machine
  | .boot pfx o reserved m opens =>
    match w.process, newPool pfx o with
    | none, .ok p =>
      let p := p.reserve reserved
      { w with process := some ⟨if opens then (p.load m (w.files path)).2 else p, .ended none⟩ }
    | _, _ => w
  | .call c m =>
    match w.process with
    | some p =>
      if p.locked then w else { w with process := some { p with pool := p.pool.perform m c } }
    | none => w
  | .save m stamp reply =>
    match w.process with
    | some p =>
      let next := p.proceed path m stamp reply w.files
      ⟨next.1, some next.2⟩
    | none => w
  | .die => { w with process := none }

end Machine

/-- What the state file should say: `pending` are the assignments at the time when the last text
was fixed, and `kept` are those of the last text that became the state file. -/
structure Durable where
  pending : Set (Addr × Addr)
  kept : Set (Addr × Addr)

/-- The assignments are written down when the pool is locked; they are kept when the temporary
file is renamed. -/
def Durable.note (w : Machine) (i : Incident) (k : Durable) : Durable :=
  match i, w.process with
  | .save _ _ _, some ⟨p, .opened⟩ => { k with pending := p.pairs }
  | .save _ _ (.done _), some ⟨_, .moving _⟩ => { k with kept := k.pending }
  | _, _ => k

/-- The machine after a number of incidents, and what its state file should say. -/
def Machine.run (path : String) (w : Machine) (k : Durable) (is : List Incident) :
    Machine × Durable :=
  is.foldl (fun s i => (s.1.step path i, s.2.note s.1 i)) (w, k)

/-- The clock of a new process shows a later time than the length of a lease, and the addresses
that are looked up are those of packets. -/
def Incident.Usual : Incident → Prop
  | .boot _ o _ m _ =>
    (orDefault o.minLease defaultMinLease).seconds.toInt < m.now.unix.toInt
  | .call c m => c.Usual m
  | _ => True

/-- What a state file says of the assignments that should have been kept. -/
def Kept (pairs : Set (Addr × Addr)) : Option Text → Prop
  | none => pairs = ∅
  | some text => Readable pairs text

/-- What holds of a process: whatever it is about to make its state file, tells of the
assignments at the time when it was fixed. -/
structure Process.Upholds (path : String) (files : Files String Char)
    (pending : Set (Addr × Addr)) (p : Process) : Prop where
  sound : p.pool.Sound
  populated : p.pool.Populated
  proper : (Replacement.mk files p.save).Proper (temporary path)
  text : ∀ text, p.save.text = some text → Readable pending text

structure Machine.Upholds (path : String) (w : Machine) (k : Durable) : Prop where
  file : Kept k.kept (w.files path)
  process : ∀ p, w.process = some p → p.Upholds path w.files k.pending

theorem temporary_ne (path : String) : path ≠ Process.temporary path := by
  intro same
  have length := congrArg String.length same
  rw [Process.temporary, String.length_append] at length
  exact absurd length (by simp)

namespace Process

variable {path : String} {files : Files String Char} {k : Durable} {p : Process}
  {m : Moment} {stamp : Stamp} {reply : Reply Char}

theorem proceed_of_running (running : ∀ text, p.save ≠ .ended text) :
    p.proceed path m stamp reply files =
      let r := Replacement.step (temporary path) path (p.pool.write m stamp) reply ⟨files, p.save⟩
      (r.files, ⟨if p.written then { p.pool with dirty := false } else p.pool, r.phase⟩) := by
  rw [proceed]
  split
  · rename_i text ended
    exact absurd ended (running text)
  · rfl

theorem Upholds.next (upholds : p.Upholds path files k.pending) {r : Replacement String Char}
    {k' : Durable} {before : Option Text} (file : Kept k'.kept before) (same : r.files path = before)
    (proper : r.Proper (temporary path))
    (text : ∀ text, r.phase.text = some text → Readable k'.pending text) :
    Machine.Upholds path
      ⟨r.files, some ⟨if p.written then { p.pool with dirty := false } else p.pool, r.phase⟩⟩ k' := by
  have sound := upholds.sound
  constructor
  · show Kept k'.kept (r.files path)
    rw [same]
    exact file
  rintro _ ⟨⟩
  refine ⟨?_, ?_, proper, text⟩
  · dsimp only
    split
    · exact ⟨sound.size, sound.filed, sound.placed, sound.used⟩
    · exact sound
  · dsimp only
    split <;> exact upholds.populated

theorem Upholds.proceed (upholds : p.Upholds path files k.pending)
    (file : Kept k.kept (files path)) (m : Moment) (stamp : Stamp) (reply : Reply Char) :
    ((Machine.mk files (some p)).step path (.save m stamp reply)).Upholds path
      (k.note ⟨files, some p⟩ (.save m stamp reply)) := by
  by_cases ended : ∃ text, p.save = .ended text
  · obtain ⟨text, ended⟩ := ended
    obtain ⟨pool, save⟩ := p
    subst ended
    refine ⟨file, ?_⟩
    rintro _ ⟨⟩
    exact ⟨upholds.sound, upholds.populated, trivial, nofun⟩
  have change := Replacement.step_change (temporary_ne path) upholds.proper
    (p.pool.write m stamp) reply
  have proper := Replacement.step_proper path upholds.proper (p.pool.write m stamp) reply
  have step : (Machine.mk files (some p)).step path (.save m stamp reply) =
      let next := p.proceed path m stamp reply files
      ⟨next.1, some next.2⟩ := rfl
  rw [step, proceed_of_running fun text same => ended ⟨text, same⟩]
  generalize Replacement.step (temporary path) path (p.pool.write m stamp) reply ⟨files, p.save⟩ = r
    at change proper
  dsimp only
  cases change with
  | fixed before kept after =>
    obtain ⟨pool, save⟩ := p
    dsimp only at before
    subst before
    refine upholds.next file kept proper fun text fixed => ?_
    rw [after, Phase.text] at fixed
    cases fixed
    exact Pool.write_readable upholds.sound upholds.populated m stamp
  | replaced new more before done moved after =>
    obtain ⟨pool, save⟩ := p
    dsimp only at before
    subst before done
    have readable : Kept k.pending (some new) := upholds.text new rfl
    refine upholds.next readable moved proper fun text fixed => ?_
    rw [after, Phase.text] at fixed
    cases fixed
    exact readable
  | none before still kept after =>
    have same : k.note ⟨files, some p⟩ (.save m stamp reply) = k := by
      unfold Durable.note
      split
      · rename_i here
        cases here
        exact absurd rfl before
      · rename_i done here
        cases here
        cases done
        exact absurd rfl (still _ _ rfl)
      · rfl
    rw [same]
    refine upholds.next file kept proper fun text fixed => ?_
    rcases after with kept | lost
    · exact upholds.text text (kept ▸ fixed)
    · cases lost.symm.trans fixed

end Process

namespace Machine

variable {path : String} {w : Machine} {k : Durable}

theorem load_upholds {file : Option Text} {pairs : Set (Addr × Addr)} (kept : Kept pairs file)
    {p : Pool} (sound : p.Sound) (empty : p.table = fun _ => none) {m : Moment}
    (late : p.minLease.seconds.toInt < m.now.unix.toInt) (opens : Bool) :
    let q := if opens then (p.load m file).2 else p
    q.Sound ∧ q.Populated := by
  have nobody : p.Populated := by
    intro off d held
    simp [empty] at held
  have late : 0 < (m.now.unix - p.minLease.seconds).toInt := by
    have := p.minLease.seconds_le
    have := p.minLease.le_seconds
    have := m.now.unix_le
    rw [Int64.toInt_sub]
    rw [Int.bmod_eq_of_le (by omega) (by omega)]
    omega
  cases opens with
  | false => exact ⟨sound, nobody⟩
  | true =>
    cases file with
    | none => exact ⟨sound, nobody⟩
    | some text => exact ⟨(Pool.read_sound sound m _).1, Pool.read_populated sound nobody late kept⟩

theorem Upholds.step (upholds : w.Upholds path k) {i : Incident} (usual : i.Usual) :
    (w.step path i).Upholds path (k.note w i) := by
  obtain ⟨files, process⟩ := w
  cases process with
  | none =>
    cases i with
    | call => exact upholds
    | save => exact upholds
    | die => exact upholds
    | boot pfx o reserved m opens =>
      rw [Machine.step]
      cases made : newPool pfx o with
      | error fault => exact upholds
      | ok p =>
        obtain ⟨sound, empty⟩ := Pool.newPool_sound made
        have fresh : (p.reserve reserved).Sound := ⟨sound.size, sound.filed, sound.placed, sound.used⟩
        have late : (p.reserve reserved).minLease.seconds.toInt < m.now.unix.toInt := by
          rw [Incident.Usual, ← (Pool.newPool_leases made).1] at usual
          exact usual
        have loaded := load_upholds upholds.file fresh empty late opens
        refine ⟨upholds.file, ?_⟩
        rintro _ ⟨⟩
        exact ⟨loaded.1, loaded.2, trivial, nofun⟩
  | some p =>
    have before := upholds.process p rfl
    cases i with
    | boot => exact upholds
    | die => exact ⟨upholds.file, nofun⟩
    | save m stamp reply => exact before.proceed upholds.file m stamp reply
    | call c m =>
      rw [Machine.step]
      dsimp only
      split
      · exact upholds
      · refine ⟨upholds.file, ?_⟩
        rintro _ ⟨⟩
        exact ⟨(Pool.perform_move before.sound m c).1,
          Pool.perform_populated before.sound before.populated usual, before.proper, before.text⟩

theorem run_upholds {is : List Incident} (usual : ∀ i ∈ is, i.Usual) (upholds : w.Upholds path k) :
    (w.run path k is).1.Upholds path (w.run path k is).2 := by
  induction is generalizing w k with
  | nil => exact upholds
  | cons i is ih =>
    obtain ⟨first, rest⟩ := List.forall_mem_cons.mp usual
    exact ih rest (upholds.step first)

/-- Whenever a process dies, at whichever point of a `Save` and whatever has failed before, the
next one loads the assignments that the last complete `Save` wrote down, as far as it has room
for them. -/
theorem restart_recovers {files : Files String Char} (fresh : files path = none)
    {is : List Incident} (usual : ∀ i ∈ is, i.Usual) {w : Machine} {k : Durable}
    (ran : Machine.run path ⟨files, none⟩ ⟨∅, ∅⟩ is = (w, k)) {pfx : Prefix} {o : PoolOptions}
    {p : Pool} (made : newPool pfx o = .ok p) (reserved : Addr → Bool) (m : Moment) :
    ((p.reserve reserved).load m (w.files path)).1.2 = true ∧
      ((p.reserve reserved).load m (w.files path)).2.pairs =
        {pair ∈ k.kept | (p.reserve reserved).Admits pair} := by
  obtain ⟨sound, empty⟩ := Pool.newPool_sound made
  have sound : (p.reserve reserved).Sound := ⟨sound.size, sound.filed, sound.placed, sound.used⟩
  have nothing : (p.reserve reserved).pairs = ∅ := (Pool.newPool_pairs made : p.pairs = ∅)
  have start : Machine.Upholds path ⟨files, none⟩ ⟨∅, ∅⟩ := by
    refine ⟨?_, nofun⟩
    show Kept ∅ (files path)
    rw [fresh]
    rfl
  have upholds := run_upholds usual start
  rw [ran] at upholds
  have kept := upholds.file
  cases file : w.files path with
  | none =>
    rw [file] at kept
    rw [show k.kept = ∅ from kept]
    exact ⟨rfl, by simpa [Pool.load] using nothing⟩
  | some text =>
    rw [file] at kept
    exact Pool.read_readable sound nothing m kept

/-- A `Save` in which nothing fails, all of the text being written at once. -/
def wholeSave (m : Moment) (stamp : Stamp) (more : Nat) : List Incident :=
  [.done 0, .done 0, .done 0, .done more, .done 0, .done 0, .done 0].map (.save m stamp)

theorem run_wholeSave (path : String) (files : Files String Char) (last : Option Text) (k : Durable)
    {p : Pool} {m : Moment} {stamp : Stamp} {more : Nat} (enough : (p.write m stamp).length ≤ more + 1) :
    ∃ files', Machine.run path ⟨files, some ⟨p, .ended last⟩⟩ k (wholeSave m stamp more) =
      (⟨files', some ⟨{ p with dirty := false }, .ended (some (p.write m stamp))⟩⟩,
        ⟨p.pairs, p.pairs⟩) := by
  obtain ⟨c, rest, text⟩ : ∃ c rest, p.write m stamp = c :: rest := ⟨_, _, rfl⟩
  have all : rest.drop more = [] := by
    rw [text, List.length_cons] at enough
    exact List.drop_eq_nil_of_le (Nat.le_of_succ_le_succ enough)
  simp [Machine.run, wholeSave, Machine.step, Process.proceed, Process.written, Replacement.step,
    Replacement.put, Durable.note, text, all]

theorem run_append (w : Machine) (k : Durable) (is js : List Incident) :
    w.run path k (is ++ js) = (w.run path k is).1.run path (w.run path k is).2 js :=
  List.foldl_append ..

/-- A process saves its first assignment, makes another one, and dies when it has just begun to
save again. -/
def halfway (stamp : Stamp) (q : Pool) : List Incident :=
  [.boot (.of (.v4 0x0a000000#32) 29) {} (fun _ => false) (.second 10000) true,
    .call (.lookup6 (.v6 (0x20010db8 <<< 96) "") true) (.second 10000)] ++
    (wholeSave (.second 10000) stamp (q.write (.second 10000) stamp).length ++
    [.call (.lookup6 (.v6 (0x20010db8 <<< 96 + 1) "") true) (.second 10001),
      .save (.second 10002) stamp (.done 0), .save (.second 10002) stamp (.done 0), .die])

theorem run_halfway (stamp : Stamp) {p q : Pool}
    (made : newPool (.of (.v4 0x0a000000#32) 29) {} = .ok p)
    (asked : ((p.reserve fun _ => false).lookup6 (.v6 (0x20010db8 <<< 96) "") true
      (.second 10000)).2 = q) :
    (Machine.run path ⟨fun _ => none, none⟩ ⟨∅, ∅⟩ (halfway stamp q)).2.kept = q.pairs := by
  have begins : Machine.run path ⟨fun _ => none, none⟩ ⟨∅, ∅⟩
      [.boot (.of (.v4 0x0a000000#32) 29) {} (fun _ => false) (.second 10000) true,
        .call (.lookup6 (.v6 (0x20010db8 <<< 96) "") true) (.second 10000)] =
      (⟨fun _ => none, some ⟨q, .ended none⟩⟩, ⟨∅, ∅⟩) := by
    simp only [Machine.run, List.foldl_cons, List.foldl_nil, Machine.step, made, if_true, Pool.load,
      Process.locked, Bool.false_eq_true, if_false, Pool.perform, asked, Durable.note]
  rw [halfway, run_append, begins, run_append]
  obtain ⟨files, saved⟩ := run_wholeSave path (fun _ => none) none ⟨∅, ∅⟩
    (Nat.le_succ (q.write (.second 10000) stamp).length)
  rw [saved]
  rfl

theorem restart_recovers_halfway : ∃ stamp p q w k,
    newPool (.of (.v4 0x0a000000#32) 29) {} = .ok p ∧
    ((p.reserve fun _ => false).lookup6 (.v6 (0x20010db8 <<< 96) "") true (.second 10000)).2 = q ∧
    Machine.run "/dynamic.map" ⟨fun _ => none, none⟩ ⟨∅, ∅⟩ (halfway stamp q) = (w, k) ∧
    q.pairs.Nonempty ∧ k.kept = q.pairs ∧
    ((p.reserve fun _ => false).load (.second 10003) (w.files "/dynamic.map")).2.pairs =
      {pair ∈ k.kept | (p.reserve fun _ => false).Admits pair} := by
  obtain ⟨stamp⟩ : Nonempty Stamp := ⟨[], by decide, by decide⟩
  obtain ⟨p, q, made, asked, held⟩ : ∃ p q, newPool (.of (.v4 0x0a000000#32) 29) {} = .ok p ∧
      ((p.reserve fun _ => false).lookup6 (.v6 (0x20010db8 <<< 96) "") true (.second 10000)).2 = q ∧
      q.pairs.Nonempty :=
    ⟨_, _, rfl, rfl, _, 0, .inl ⟨.v6 (0x20010db8 <<< 96) "", rfl⟩, rfl⟩
  obtain ⟨⟨w, k⟩, ran⟩ : ∃ s, Machine.run "/dynamic.map" ⟨fun _ => none, none⟩ ⟨∅, ∅⟩
      (halfway stamp q) = s := ⟨_, rfl⟩
  refine ⟨stamp, p, q, w, k, made, asked, ran, held, ?_, (restart_recovers rfl ?_ ran made _ _).2⟩
  · rw [← run_halfway stamp made asked, ran]
  · have usual (bits : BitVec 128) (valid : Netutil.validIPv6 (Addr.v6 bits "").as16 = true)
        (m : Moment) (late : 0 < m.now.unix.toInt) :
        (Incident.call (.lookup6 (.v6 bits "") true) m).Usual := ⟨⟨bits, rfl⟩, valid, late⟩
    simp only [halfway, wholeSave, List.map_cons, List.map_nil, List.cons_append, List.nil_append,
      List.forall_mem_cons]
    refine ⟨by unfold Incident.Usual; decide +kernel, usual _ (by decide +kernel) _ (by decide), ?_⟩
    refine ⟨trivial, trivial, trivial, trivial, trivial, trivial, trivial, ?_⟩
    exact ⟨usual _ (by decide +kernel) _ (by decide), trivial, trivial, trivial,
      List.forall_mem_nil _⟩

end Machine

end Clatto.Addrmap
