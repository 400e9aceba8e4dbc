import Clatto.Lib.Threads

/-! A value behind a lock for many readers or one writer, where a writer that waits keeps new
readers out. Some of the value is also read and written without the lock; the part that only the
writer changes is the view. -/

namespace Clatto

/-- A value and its lock: the thread that holds the lock for writing, the one that waits for the
readers to leave it, those that hold it for reading, and those that wait for a writer. -/
structure Guarded (τ ρ : Type) where
  value : ρ
  writer : Option τ
  pending : Option τ
  readers : List τ
  queue : List τ

structure Discipline (ρ ν : Type) where
  /-- The part that changes under the lock only. -/
  view : ρ → ν
  /-- What holds while nobody writes. -/
  sound : ν → Prop
  /-- What every change is like. -/
  evolves : ρ → ρ → Prop
  idle : ∀ v, evolves v v
  /-- What holds at any time. -/
  always : ρ → Prop
  kept {v v' : ρ} : always v → evolves v v' → always v'

inductive Station where
  | outside
  | announced
  | waiting
  | reading
  | writing
  deriving DecidableEq

def Station.Inside (place : Station) : Prop := place = .reading ∨ place = .writing

instance (place : Station) : Decidable place.Inside :=
  inferInstanceAs (Decidable (place = .reading ∨ place = .writing))

namespace Guarded

variable {τ ρ ν ω α : Type}

/-- Nobody holds the lock or waits for it. -/
def free (v : ρ) : Guarded τ ρ := ⟨v, none, none, [], []⟩

section Steps

variable (t : τ)

/-- `Lock`: a writer announces itself, and then waits for the readers to leave. -/
def lock : Prog ω (Guarded τ ρ) Unit := do
  .await (fun s => s.writer.isNone && s.pending.isNone) fun s => { s with pending := some t }
  .await (fun s => s.readers.isEmpty) fun s => { s with writer := some t, pending := none }

/-- `Unlock`: the readers that have waited are let in. -/
def unlock : Prog ω (Guarded τ ρ) Unit :=
  .store fun s => { s with writer := none, readers := s.queue, queue := [] }

/-- A reader comes in, unless there is a writer or one has announced itself. -/
def enter (s : Guarded τ ρ) : Guarded τ ρ :=
  if s.writer.isNone && s.pending.isNone then { s with readers := t :: s.readers }
  else { s with queue := t :: s.queue }

variable [DecidableEq τ]

/-- `RLock`: a reader that cannot come in waits until it is let in. -/
def rLock : Prog ω (Guarded τ ρ) Unit := do
  .store (enter t)
  .await (fun s => t ∈ s.readers) id

/-- `RUnlock`. -/
def rUnlock : Prog ω (Guarded τ ρ) Unit := .store fun s => { s with readers := s.readers.erase t }

def access (f : ω → ρ → α × ρ) : Prog ω (Guarded τ ρ) α :=
  .step fun o s => ((f o s.value).1, { s with value := (f o s.value).2 })

def read (f : ρ → α) : Prog ω (Guarded τ ρ) α := access fun _ v => (f v, v)

def write (f : ρ → ρ) : Prog ω (Guarded τ ρ) Unit := access fun _ v => ((), f v)

end Steps

/-- Where a thread is, as the lock knows it. A thread that waits to read may have been let in. -/
def At (t : τ) (s : Guarded τ ρ) : Station → Prop
  | .outside => s.writer ≠ some t ∧ s.pending ≠ some t ∧ ¬ (t ∈ s.readers ∨ t ∈ s.queue)
  | .announced => s.writer ≠ some t ∧ s.pending = some t ∧ ¬ (t ∈ s.readers ∨ t ∈ s.queue)
  | .waiting => s.writer ≠ some t ∧ s.pending ≠ some t ∧ (t ∈ s.readers ∨ t ∈ s.queue)
  | .reading => s.writer ≠ some t ∧ s.pending ≠ some t ∧ t ∈ s.readers
  | .writing => s.writer = some t ∧ s.pending ≠ some t ∧ ¬ (t ∈ s.readers ∨ t ∈ s.queue)

variable (d : Discipline ρ ν)

/-- The lock is held by one writer or by some readers, and readers wait for a writer only. -/
structure Proper (s : Guarded τ ρ) : Prop where
  always : d.always s.value
  sound : s.writer = none → d.sound (d.view s.value)
  alone : s.writer ≠ none → s.readers = [] ∧ s.pending = none
  queued : s.queue ≠ [] → s.writer ≠ none ∨ s.pending ≠ none
  nodup : (s.readers ++ s.queue).Nodup

/-- A thread may change the view when it holds the lock for writing. It takes and gives back the
lock for itself only, but may let in others that wait. -/
structure Owed (t : τ) (s s' : Guarded τ ρ) : Prop where
  before : s.Proper d
  after : s'.Proper d
  evolves : d.evolves s.value s'.value
  writer : ∀ u, u ≠ t → (s'.writer = some u ↔ s.writer = some u)
  pending : ∀ u, u ≠ t → (s'.pending = some u ↔ s.pending = some u)
  readers : ∀ u, u ≠ t → u ∈ s.readers → u ∈ s'.readers
  present : ∀ u, u ≠ t → (u ∈ s'.readers ∨ u ∈ s'.queue ↔ u ∈ s.readers ∨ u ∈ s.queue)
  view : s.writer ≠ some t → d.view s'.value = d.view s.value

/-- Nobody else changes the view while a thread holds the lock. -/
structure Granted (t : τ) (s s' : Guarded τ ρ) : Prop where
  after : s'.Proper d
  evolves : d.evolves s.value s'.value
  stays : ∀ place, s.At t place → s'.At t place
  view : s.writer = some t ∨ t ∈ s.readers → d.view s'.value = d.view s.value

variable {d} {t : τ}

theorem Owed.granted {u : τ} {s s' : Guarded τ ρ} (owed : Owed d t s s') (other : t ≠ u) :
    Granted d u s s' where
  after := owed.after
  evolves := owed.evolves
  stays place here := by
    have writer := owed.writer u other.symm
    have pending := owed.pending u other.symm
    have present := owed.present u other.symm
    cases place with
    | outside => exact ⟨mt writer.mp here.1, mt pending.mp here.2.1, mt present.mp here.2.2⟩
    | announced => exact ⟨mt writer.mp here.1, pending.mpr here.2.1, mt present.mp here.2.2⟩
    | waiting => exact ⟨mt writer.mp here.1, mt pending.mp here.2.1, present.mpr here.2.2⟩
    | reading =>
      exact ⟨mt writer.mp here.1, mt pending.mp here.2.1, owed.readers u other.symm here.2.2⟩
    | writing => exact ⟨writer.mpr here.1, mt pending.mp here.2.1, mt present.mp here.2.2⟩
  view inside := by
    refine owed.view fun mine => ?_
    rcases inside with writer | reader
    · exact other (Option.some.inj (mine.symm.trans writer))
    · rw [(owed.before.alone (by simp [mine])).1] at reader
      cases reader

variable (d t) in
/-- A writer that has announced itself may have to wait for the readers, and everybody else for a
writer that holds the lock or has announced itself. -/
def contract : Contract (Guarded τ ρ) where
  rely := Granted d t
  guarantee := Owed d t
  waits s := s.writer ≠ some t ∧ t ∉ s.readers ∧
    (s.pending = some t ∧ s.readers ≠ [] ∨
      s.pending ≠ some t ∧ (s.writer ≠ none ∨ s.pending ≠ none))

/-- The states that a thread has seen, without the lock. -/
def values (before : List (Guarded τ ρ)) : List ρ := before.map Guarded.value

variable (d t) in
/-- A thread is at its place, and something holds of the value now and before. -/
def Asserts (place : Station) (F : ρ → List ρ → Prop) (s : Guarded τ ρ)
    (before : List (Guarded τ ρ)) : Prop :=
  s.At t place ∧ s.Proper d ∧ F s.value (values before)

/-- Nothing that others do at this place makes an assertion false. -/
def Lasting (d : Discipline ρ ν) (place : Station) (F : ρ → List ρ → Prop) : Prop :=
  ∀ v v' before, F v before → d.evolves v v' → (place.Inside → d.view v' = d.view v) →
    F v' (v :: before)

variable {place : Station} {F : ρ → List ρ → Prop}

theorem At.holds {s : Guarded τ ρ} (here : s.At t place) (inside : place.Inside) :
    s.writer = some t ∨ t ∈ s.readers := by
  rcases inside with rfl | rfl
  · exact .inr here.2.2
  · exact .inl here.1

theorem Lasting.stable (lasting : Lasting d place F) :
    Stable (contract d t) (Asserts d t place F) := by
  rintro s s' before ⟨here, proper, holds⟩ change
  refine ⟨change.stays place here, change.after, ?_⟩
  exact lasting _ _ _ holds change.evolves fun inside => change.view (here.holds inside)

theorem Lasting.everywhere (lasting : Lasting d .outside F) : Lasting d place F :=
  fun v v' before holds evolves _ => lasting v v' before holds evolves fun inside => by
    rcases inside with same | same <;> cases same

theorem Lasting.again (lasting : Lasting d place F) {v : ρ} {before : List ρ} (holds : F v before) :
    F v (v :: before) :=
  lasting v v before holds (d.idle v) fun _ => rfl

section Rules

variable (lasting : Lasting d place F)

include lasting

/-- A step that changes nothing under the lock can be made everywhere. -/
theorem triple_quiet {f : ω → ρ → α × ρ} {Q : α → ρ → List ρ → Prop}
    (view : ∀ o v, d.view (f o v).2 = d.view v)
    (evolves : ∀ o v before, F v before → d.evolves v (f o v).2)
    (post : ∀ o v before, F v before → d.always v → Q (f o v).1 (f o v).2 (v :: before)) :
    Triple (contract d t) (Asserts d t place F) (access f)
      fun a => Asserts d t place (Q a) := by
  refine .step lasting.stable fun o s before holds => ?_
  obtain ⟨here, proper, holds⟩ := holds
  have after : Proper d { s with value := (f o s.value).2 } :=
    ⟨d.kept proper.always (evolves o _ _ holds), fun none => (view o s.value).symm ▸ proper.sound none, proper.alone, proper.queued, proper.nodup⟩
  refine ⟨⟨proper, after, evolves o _ _ holds, fun _ _ => .rfl, fun _ _ => .rfl, fun _ _ => id,
    fun _ _ => .rfl, fun _ => view o _⟩, ?_, after, post o _ _ holds proper.always⟩
  cases place <;> exact here

theorem triple_read {f : ρ → α} {Q : α → ρ → List ρ → Prop}
    (post : ∀ v before, F v before → d.always v → Q (f v) v (v :: before)) :
    Triple (ω := ω) (contract d t) (Asserts d t place F) (read f)
      fun a => Asserts d t place (Q a) :=
  triple_quiet lasting (fun _ _ => rfl) (fun _ v _ _ => d.idle v) fun _ => post

theorem triple_ask {f : ω → α} {Q : α → ρ → List ρ → Prop}
    (post : ∀ o v before, F v before → Q (f o) v (v :: before)) :
    Triple (contract d t) (Asserts d t place F) (.ask f)
      fun a => Asserts d t place (Q a) := by
  refine .step lasting.stable fun o s before holds => ?_
  obtain ⟨here, proper, holds⟩ := holds
  exact ⟨⟨proper, proper, d.idle _, fun _ _ => .rfl, fun _ _ => .rfl, fun _ _ => id, fun _ _ => .rfl,
    fun _ => rfl⟩, here, proper, post o _ _ holds⟩

end Rules

section Locking

variable {F' : ρ → List ρ → Prop}

theorem triple_access {f : ω → ρ → α × ρ} {Q : α → ρ → List ρ → Prop}
    (lasting : Lasting d .writing F)
    (does : ∀ o v before, F v before → d.evolves v (f o v).2 ∧ Q (f o v).1 (f o v).2 (v :: before)) :
    Triple (contract d t) (Asserts d t .writing F) (access f)
      fun a => Asserts d t .writing (Q a) := by
  refine .step lasting.stable fun o s before holds => ?_
  obtain ⟨here, proper, holds⟩ := holds
  obtain ⟨evolves, post⟩ := does o _ _ holds
  have after : Proper d { s with value := (f o s.value).2 } := by
    refine ⟨d.kept proper.always evolves, fun none => ?_, proper.alone, proper.queued, proper.nodup⟩
    cases here.1.symm.trans none
  exact ⟨⟨proper, after, evolves, fun _ _ => .rfl, fun _ _ => .rfl, fun _ _ => id, fun _ _ => .rfl,
    fun other => absurd here.1 other⟩, here, after, post⟩

theorem triple_write {f : ρ → ρ} (lasting : Lasting d .writing F)
    (does : ∀ v before, F v before → d.evolves v (f v) ∧ F' (f v) (v :: before)) :
    Triple (ω := ω) (contract d t) (Asserts d t .writing F) (write f)
      fun _ => Asserts d t .writing F' :=
  triple_access lasting fun _ => does

theorem triple_enter (lasting : Lasting d .outside F) :
    Triple (ω := ω) (contract d t) (Asserts d t .outside F) (.store (enter t))
      fun _ => Asserts d t .waiting F := by
  refine .step lasting.stable fun _ s before holds => ?_
  obtain ⟨here, proper, holds⟩ := holds
  obtain ⟨writer, pending, absent⟩ := here
  rw [not_or] at absent
  unfold enter
  dsimp only
  split
  · rename_i vacant
    simp only [Bool.and_eq_true, Option.isNone_iff_eq_none] at vacant
    have after : Proper d { s with readers := t :: s.readers } := by
      refine ⟨proper.always, proper.sound, fun some => absurd vacant.1 some, proper.queued, ?_⟩
      rw [List.cons_append, List.nodup_cons, List.mem_append, not_or]
      exact ⟨absent, proper.nodup⟩
    refine ⟨⟨proper, after, d.idle _, fun _ _ => .rfl, fun _ _ => .rfl, fun u _ => .tail t,
      fun u other => ?_, fun _ => rfl⟩, ⟨writer, pending, .inl (.head _)⟩, after, lasting.again holds⟩
    simp [other]
  · rename_i taken
    have busy : s.writer ≠ none ∨ s.pending ≠ none := by
      rw [← not_and_or]
      simpa using taken
    have after : Proper d { s with queue := t :: s.queue } := by
      refine ⟨proper.always, proper.sound, proper.alone, fun _ => busy, ?_⟩
      rw [(List.perm_middle : (s.readers ++ t :: s.queue).Perm _).nodup_iff, List.nodup_cons,
        List.mem_append, not_or]
      exact ⟨absent, proper.nodup⟩
    refine ⟨⟨proper, after, d.idle _, fun _ _ => .rfl, fun _ _ => .rfl, fun u _ => id,
      fun u other => ?_, fun _ => rfl⟩, ⟨writer, pending, .inr (.head _)⟩, after, lasting.again holds⟩
    simp [other]

theorem triple_rLock [DecidableEq τ] (lasting : Lasting d .outside F)
    (post : ∀ v before, F v before → d.sound (d.view v) → F' v (v :: before)) :
    Triple (ω := ω) (contract d t) (Asserts d t .outside F) (rLock t)
      fun _ => Asserts d t .reading F' := by
  have waiting : Lasting d .waiting F := lasting.everywhere
  refine .bind (triple_enter lasting) fun _ => .await waiting.stable (fun s before holds out => ?_)
    fun s before holds admitted => ?_
  · obtain ⟨⟨writer, pending, present⟩, proper, -⟩ := holds
    have out : t ∉ s.readers := of_decide_eq_false out
    have queued := present.resolve_left out
    exact ⟨writer, out, .inr ⟨pending, proper.queued (List.ne_nil_of_mem queued)⟩⟩
  · obtain ⟨⟨writer, pending, -⟩, proper, holds⟩ := holds
    have admitted : t ∈ s.readers := of_decide_eq_true admitted
    have vacant : s.writer = none := by
      by_contra some
      rw [(proper.alone some).1] at admitted
      cases admitted
    exact ⟨⟨proper, proper, d.idle _, fun _ _ => .rfl, fun _ _ => .rfl, fun _ _ => id, fun _ _ => .rfl,
      fun _ => rfl⟩, ⟨writer, pending, admitted⟩, proper, post _ _ holds (proper.sound vacant)⟩

theorem triple_rUnlock [DecidableEq τ] (lasting : Lasting d .reading F)
    (post : ∀ v before, F v before → F' v (v :: before)) :
    Triple (ω := ω) (contract d t) (Asserts d t .reading F) (rUnlock t)
      fun _ => Asserts d t .outside F' := by
  refine .step lasting.stable fun _ s before holds => ?_
  obtain ⟨⟨writer, pending, reader⟩, proper, holds⟩ := holds
  obtain ⟨distinct, queue, apart⟩ := List.nodup_append.mp proper.nodup
  have after : Proper d { s with readers := s.readers.erase t } := by
    refine ⟨proper.always, proper.sound, fun some => ?_, proper.queued,
      proper.nodup.sublist (.append List.erase_sublist (.refl _))⟩
    rw [(proper.alone some).1] at reader
    cases reader
  refine ⟨⟨proper, after, d.idle _, fun _ _ => .rfl, fun _ _ => .rfl, fun u other =>
    (List.mem_erase_of_ne other).mpr, fun u other => ?_, fun _ => rfl⟩, ⟨writer, pending, ?_⟩, after,
    post _ _ holds⟩
  · exact or_congr_left (List.mem_erase_of_ne other)
  · rintro (still | waiting)
    · exact distinct.not_mem_erase still
    · exact apart t reader t waiting rfl

theorem triple_announce (lasting : Lasting d .outside F) :
    Triple (ω := ω) (contract d t) (Asserts d t .outside F)
      (.await (fun s => s.writer.isNone && s.pending.isNone) fun s => { s with pending := some t })
      fun _ => Asserts d t .announced F := by
  refine .await lasting.stable (fun s before holds busy => ?_) fun s before holds vacant => ?_
  · obtain ⟨⟨writer, pending, absent⟩, -, -⟩ := holds
    refine ⟨writer, fun reader => absent (.inl reader), .inr ⟨pending, ?_⟩⟩
    rw [← not_and_or]
    rintro ⟨free, alone⟩
    simp [free, alone] at busy
  · obtain ⟨⟨writer, pending, absent⟩, proper, holds⟩ := holds
    simp only [Bool.and_eq_true, Option.isNone_iff_eq_none] at vacant
    have after : Proper d { s with pending := some t } :=
      ⟨proper.always, proper.sound, fun some => absurd vacant.1 some, fun _ => .inr (Option.some_ne_none t),
        proper.nodup⟩
    refine ⟨⟨proper, after, d.idle _, fun _ _ => .rfl, fun u other => ?_, fun _ _ => id,
      fun _ _ => .rfl, fun _ => rfl⟩, ⟨writer, rfl, absent⟩, after, lasting.again holds⟩
    simp [vacant.2, other.symm]

theorem triple_lock (lasting : Lasting d .outside F)
    (post : ∀ v before, F v before → d.sound (d.view v) → F' v (v :: before)) :
    Triple (ω := ω) (contract d t) (Asserts d t .outside F) (lock t)
      fun _ => Asserts d t .writing F' := by
  have announced : Lasting d .announced F := lasting.everywhere
  refine .bind (triple_announce lasting) fun _ => .await announced.stable
    (fun s before holds busy => ?_) fun s before holds vacant => ?_
  · obtain ⟨⟨writer, pending, absent⟩, -, -⟩ := holds
    exact ⟨writer, fun reader => absent (.inl reader), .inl ⟨pending, by simpa using busy⟩⟩
  · obtain ⟨⟨writer, pending, absent⟩, proper, holds⟩ := holds
    have vacant : s.readers = [] := by simpa using vacant
    have idle : s.writer = none := by
      by_contra some
      cases pending.symm.trans (proper.alone some).2
    have after : Proper d { s with writer := some t, pending := none } :=
      ⟨proper.always, fun none => absurd none (Option.some_ne_none t), fun _ => ⟨vacant, rfl⟩,
        fun _ => .inl (Option.some_ne_none t), proper.nodup⟩
    refine ⟨⟨proper, after, d.idle _, fun u other => ?_, fun u other => ?_, fun _ _ => id,
      fun _ _ => .rfl, fun _ => rfl⟩, ⟨rfl, by simp, absent⟩, after,
      post _ _ holds (proper.sound idle)⟩
    · simp [idle, other.symm]
    · simp [pending, other.symm]

theorem triple_unlock (lasting : Lasting d .writing F)
    (sound : ∀ v before, F v before → d.sound (d.view v))
    (post : ∀ v before, F v before → F' v (v :: before)) :
    Triple (ω := ω) (contract d t) (Asserts d t .writing F) unlock
      fun _ => Asserts d t .outside F' := by
  refine .step lasting.stable fun _ s before holds => ?_
  obtain ⟨⟨writer, pending, absent⟩, proper, holds⟩ := holds
  have vacant : s.readers = [] := (proper.alone (by simp [writer])).1
  have after : Proper d { s with writer := none, readers := s.queue, queue := [] } := by
    refine ⟨proper.always, fun _ => sound _ _ holds, fun some => absurd rfl some,
      fun some => absurd rfl some, ?_⟩
    rw [List.append_nil]
    exact (List.nodup_append.mp proper.nodup).2.1
  refine ⟨⟨proper, after, d.idle _, fun u other => ?_, fun _ _ => .rfl, fun u _ reader => ?_,
    fun u _ => ?_, fun _ => rfl⟩, ⟨by simp, pending, ?_⟩, after, post _ _ holds⟩
  · simp [writer, other.symm]
  · rw [vacant] at reader
    cases reader
  · simp [vacant]
  · rintro (present | present)
    · exact absent (.inr present)
    · cases present

end Locking

/-- The holders of the lock wait for nobody, a writer that has announced itself for readers, and
all others for writers. -/
def rank [DecidableEq τ] (t : τ) (s : Guarded τ ρ) : Nat :=
  if s.writer = some t ∨ t ∈ s.readers then 0 else if s.pending = some t then 1 else 2

theorem waits_rank [DecidableEq τ] {s : Guarded τ ρ} (waits : (contract d t).waits s) :
    ∃ u, ¬ s.At u .outside ∧ rank u s < rank t s := by
  obtain ⟨writer, reader, ⟨pending, some⟩ | ⟨pending, busy⟩⟩ := waits
  · obtain ⟨u, inside⟩ := List.exists_mem_of_ne_nil _ some
    refine ⟨u, fun out => out.2.2 (.inl inside), ?_⟩
    simp [rank, inside, writer, reader, pending]
  · have last : rank t s = 2 := by simp [rank, writer, reader, pending]
    rcases busy with held | announced
    · obtain ⟨u, held⟩ := Option.ne_none_iff_exists'.mp held
      refine ⟨u, fun out => out.1 held, ?_⟩
      rw [last, rank, if_pos (.inl held)]
      decide
    · obtain ⟨u, announced⟩ := Option.ne_none_iff_exists'.mp announced
      refine ⟨u, fun out => out.2.1 announced, ?_⟩
      rw [last, rank, if_pos announced]
      split <;> decide

variable (d) in
/-- Calls that use a value under a lock, each with its purpose. -/
def protocol (post : τ → α → ρ → List ρ → Prop) :
    Ensemble.Protocol τ (Guarded τ ρ) α where
  contract := contract d
  post t a := Asserts d t .outside (post t a)
  rest t s := s.At t .outside
  invariant := Proper d
  fits other owed := owed.granted other
  quiet other owed rest := (owed.granted other).stays .outside rest
  keeps owed _ := owed.after
  rests holds := holds.1

theorem proper_free {v : ρ} (always : d.always v) (sound : d.sound (d.view v)) :
    Proper d (free v : Guarded τ ρ) :=
  ⟨always, fun _ => sound, fun some => absurd rfl some, fun some => absurd rfl some, List.nodup_nil⟩

theorem outside_free (v : ρ) (t : τ) : (free v : Guarded τ ρ).At t .outside :=
  ⟨by simp [free], by simp [free], by simp [free]⟩

end Guarded

end Clatto
