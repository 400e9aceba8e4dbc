import Clatto.Addrmap.PoolLoad
import Clatto.Addrmap.PoolText

/-! What a pool writes down, any other pool can take over, as far as it has room for it. -/

namespace Clatto.Addrmap

open Netip

/-- If no two rows share an address, none stands in the way of another. -/
theorem takeOver_distinct {fit : Row → Prop} {held : Set (Addr × Addr)} {rows : List Row}
    (v4 : (rows.map Row.v4).Nodup) (v6 : (rows.map Row.v6).Nodup)
    (free : ∀ row ∈ rows, row.Free held) :
    takeOver fit held rows = held ∪ {pair | ∃ row ∈ rows, fit row ∧ pair = (row.v4, row.v6)} := by
  induction rows generalizing held with
  | nil => simp [takeOver]
  | cons row rows ih =>
    obtain ⟨first, rest⟩ := List.forall_mem_cons.mp free
    obtain ⟨other4, v4⟩ := List.nodup_cons.mp v4
    obtain ⟨other6, v6⟩ := List.nodup_cons.mp v6
    have later : ∀ row' ∈ rows, row'.Free (row.take fit held) := by
      intro row' member pair found
      rw [Row.take] at found
      split at found
      · rcases found with rfl | before
        · constructor
          · exact fun same => other4 (List.mem_map.mpr ⟨row', member, same.symm⟩)
          · exact fun same => other6 (List.mem_map.mpr ⟨row', member, same.symm⟩)
        · exact rest row' member pair before
      · exact rest row' member pair found
    rw [takeOver, List.foldl_cons]
    refine (ih v4 v6 later).trans (Set.ext fun pair => ?_)
    rw [Row.take]
    by_cases fits : fit row
    · simp [fits, first, or_assoc, or_left_comm]
    · simp [fits]

/-- Hosts that stand for a set of assignments, each of them once and fit for use. -/
structure Records (pairs : Set (Addr × Addr)) (hosts : List DynHost) : Prop where
  pairs : pairs = {pair | ∃ d ∈ hosts, d.pair = pair}
  usable : ∀ d ∈ hosts, d.Usable
  v4 : (hosts.map DynHost.v4).Nodup
  v6 : (hosts.map DynHost.v6).Nodup

/-- A text that is the state file of a set of assignments. -/
def Readable (pairs : Set (Addr × Addr)) (text : Text) : Prop :=
  ∃ stamp hosts, text = fileText stamp hosts ∧ Records pairs hosts

def DynHost.row (d : DynHost) : Row := ⟨d.v4, d.v6, d.lastUse⟩

theorem DynHost.Usable.parseRow {d : DynHost} (usable : d.Usable) :
    parseRow (Scan.dropCR d.content) = some d.row := by
  obtain ⟨four, v4⟩ := usable.v4
  obtain ⟨six, v6⟩ := usable.v6
  rw [usable.legible.dropCR]
  exact usable.legible.parseRow (by rw [v4]; rfl) (by rw [v6]; rfl) usable.used

theorem rows_fileText (stamp : Stamp) {hosts : List DynHost} (usable : ∀ d ∈ hosts, d.Usable) :
    Scan.ofText [] (fileText stamp hosts) = ⟨(fileLines stamp hosts).map Scan.dropCR, false⟩ ∧
    ((fileLines stamp hosts).map Scan.dropCR).filterMap parseRow = hosts.map DynHost.row := by
  refine ⟨ofText_fileText stamp fun d member => (usable d member).legible, ?_⟩
  have header : ((fileHeader stamp).map Scan.dropCR).filterMap parseRow = [] := by
    rw [List.filterMap_eq_nil_iff]
    intro line member
    obtain ⟨l, inside, rfl⟩ := List.mem_map.mp member
    exact parseRow_header stamp inside
  rw [fileLines, List.map_append, List.filterMap_append, header, List.nil_append, List.map_map,
    List.filterMap_map, ← List.filterMap_eq_map]
  exact List.filterMap_congr fun d member => (usable d member).parseRow

namespace Pool

variable {p p' q : Pool}

def Populated (p : Pool) : Prop := ∀ off d, p.table off = some d → d.Usable

theorem Writes.populated {off : BitVec 32} {d : DynHost} {dirty : Bool} (populated : p.Populated)
    (writes : p.Writes off (some d) dirty p') (usable : d.Usable) : p'.Populated := by
  intro l e held
  rw [writes.table] at held
  by_cases here : l = off
  · subst here
    rw [Function.update_self] at held
    cases held
    exact usable
  · rw [Function.update_of_ne here] at held
    exact populated l e held

theorem write_readable (sound : p.Sound) (populated : p.Populated) (m : Moment) (stamp : Stamp) :
    Readable p.pairs (p.write m stamp) := by
  have inv := sound.invariant
  refine ⟨stamp, p.hosts m.order, rfl, ?_, ?_, ?_, inv.names m.order⟩
  · ext pair
    constructor
    · rintro ⟨r, held, rfl⟩
      exact ⟨_, (mem_hosts m.order).mpr ⟨r, held, rfl⟩, rfl⟩
    · rintro ⟨d, member, rfl⟩
      obtain ⟨r, held, rfl⟩ := (mem_hosts m.order).mp member
      exact ⟨r, held, rfl⟩
  · intro d member
    obtain ⟨r, held, rfl⟩ := (mem_hosts m.order).mp member
    exact populated _ _ (Registry.view_eq_some.mpr ⟨r, sound.holds_iff.mp held, rfl⟩)
  · have places := inv.places m.order
    rw [List.Nodup, List.pairwise_map] at places ⊢
    refine places.imp_of_mem fun {d e} one other different same => different ?_
    obtain ⟨r, held, rfl⟩ := (mem_hosts m.order).mp one
    obtain ⟨s, held', rfl⟩ := (mem_hosts m.order).mp other
    obtain ⟨-, high, v4⟩ := inv.placed r held
    obtain ⟨-, high', v4'⟩ := inv.placed s held'
    exact p.addr_injective high high' (v4.symm.trans (same.trans v4'))

/-- The addresses that a translator asks for, at a time after 1970. -/
def Call.Usual (m : Moment) : Call → Prop
  | .lookup6 a _ => (∃ bits, a = .v6 bits "") ∧ Netutil.validIPv6 a.as16 = true ∧ 0 < m.now.unix.toInt
  | _ => 0 < m.now.unix.toInt

theorem perform_populated (sound : p.Sound) (populated : p.Populated) {m : Moment} {c : Call}
    (usual : c.Usual m) : (p.perform m c).Populated := by
  cases c with
  | lookup4 a =>
    cases four : a.as4 with
    | error fault =>
      rw [perform, lookup4, four]
      exact populated
    | ok a4 =>
      obtain ⟨answer, -, replied⟩ := lookup4_replied sound four m
      rw [perform]
      generalize (p.lookup4 a m).2 = q at replied
      cases replied with
      | silent => exact populated
      | answer held _ writes =>
        have before := populated _ _ held
        exact writes.populated populated ⟨before.v4, before.v6, before.valid, usual⟩
  | lookup6 a allocate =>
    have asked := lookup6_asked sound a allocate m
    obtain ⟨six, valid, used⟩ := usual
    rw [perform]
    generalize p.lookup6 a allocate m = q at asked
    obtain ⟨answer, q⟩ := q
    cases asked with
    | known held _ _ writes =>
      have before := populated _ _ held
      exact writes.populated populated ⟨before.v4, before.v6, before.valid, used⟩
    | woken _ held _ _ writes =>
      have before := populated _ _ held
      exact writes.populated populated ⟨before.v4, before.v6, before.valid, used⟩
    | refused => exact populated
    | exhausted => exact populated
    | granted _ _ _ _ writes => exact writes.populated populated ⟨⟨_, rfl⟩, six, valid, used⟩
    | stolen _ _ _ held _ _ writes =>
      exact writes.populated populated ⟨(populated _ _ held).v4, six, valid, used⟩
  | maintain =>
    have aged := maintain_maintained m sound
    intro off d held
    rw [perform, aged.table, Option.bind_eq_some_iff] at held
    obtain ⟨e, before, kept⟩ := held
    have usable := populated _ _ before
    rw [DynHost.aged] at kept
    split at kept
    · cases kept
    · cases kept
      rw [DynHost.rested]
      split <;> exact ⟨usable.v4, usable.v6, usable.valid, usable.used⟩

/-- `Load`: how many assignments were loaded and whether the file could be read. A missing file
is not an error. -/
def load (p : Pool) (m : Moment) : Option Text → (Nat × Bool) × Pool
  | none => ((0, true), p)
  | some text => p.read m (Scan.ofText [] text)

/-- A pool can take over an assignment of a state file. -/
def Admits (p : Pool) (pair : Addr × Addr) : Prop :=
  p.pfx.contains pair.1 = true ∧ pair.1 ≠ p.pfx.addr ∧ p.reserved pair.1 = false

theorem read_readable (sound : p.Sound) (empty : p.pairs = ∅) (m : Moment)
    {pairs : Set (Addr × Addr)} {text : Text} (readable : Readable pairs text) :
    (p.read m (Scan.ofText [] text)).1.2 = true ∧
      (p.read m (Scan.ofText [] text)).2.pairs = {pair ∈ pairs | p.Admits pair} := by
  obtain ⟨stamp, hosts, rfl, records⟩ := readable
  obtain ⟨scan, rows⟩ := rows_fileText stamp records.usable
  constructor
  · rw [scan, read]
    rfl
  · rw [read_pairs sound, scan, rows, empty, takeOver_distinct]
    · ext pair
      simp only [Set.empty_union, Set.mem_ofPred_eq, List.mem_map, records.pairs]
      constructor
      · rintro ⟨_, ⟨d, member, rfl⟩, offers, rfl⟩
        exact ⟨⟨d, member, rfl⟩, offers.inside, offers.host, offers.unreserved⟩
      · rintro ⟨⟨d, member, rfl⟩, inside, host, unreserved⟩
        exact ⟨_, ⟨d, member, rfl⟩, ⟨inside, host, (records.usable d member).valid, unreserved⟩, rfl⟩
    · rw [List.map_map]
      exact records.v4
    · rw [List.map_map]
      exact records.v6
    · exact fun row _ pair member => absurd member (Set.notMem_empty pair)

theorem Loading.populated {l : Loading} (ok : Loading.Sound p l) (populated : l.pool.Populated)
    (now : Int64) {lines : List Text}
    (usable : ∀ row ∈ lines.filterMap parseRow, ∃ d : DynHost, d.Usable ∧ d.row = row) :
    (lines.foldl (Loading.line now) l).pool.Populated := by
  induction lines generalizing l with
  | nil => exact populated
  | cons line lines ih =>
    refine ih (ok.line now line) ?_ fun row member => ?_
    · rw [Loading.line]
      split
      · exact populated
      · rename_i row parsed
        split
        · exact populated
        · rename_i off accepted
          obtain ⟨d, fit, rfl⟩ := usable row (List.mem_filterMap.mpr ⟨line, .head _, parsed⟩)
          exact (ok.accept accepted).populated populated ⟨fit.v4, fit.v6, fit.valid, fit.used⟩
    · rw [List.filterMap_cons] at usable
      split at usable
      · exact usable row member
      · exact usable row (.tail _ member)

/-- A clock that shows a later time than the length of a lease makes the hosts that are loaded
fit for use, even those from the future. -/
theorem read_populated (sound : p.Sound) (populated : p.Populated) {m : Moment}
    (late : 0 < (m.now.unix - p.minLease.seconds).toInt) {pairs : Set (Addr × Addr)} {text : Text}
    (readable : Readable pairs text) : (p.read m (Scan.ofText [] text)).2.Populated := by
  obtain ⟨stamp, hosts, rfl, records⟩ := readable
  obtain ⟨scan, rows⟩ := rows_fileText stamp records.usable
  have usable : ∀ row ∈ ((fileLines stamp hosts).map Scan.dropCR).filterMap parseRow,
      ∃ d : DynHost, d.Usable ∧ d.row = row := by
    intro row member
    rw [rows, List.mem_map] at member
    obtain ⟨d, inside, same⟩ := member
    exact ⟨d, records.usable d inside, same⟩
  have start := Loading.Sound.start sound
  have ok := start.lines m.now.unix ((fileLines stamp hosts).map Scan.dropCR)
  have loaded := Loading.populated start populated m.now.unix usable
  rw [scan, read]
  dsimp only
  rw [if_neg Bool.false_ne_true]
  generalize ((fileLines stamp hosts).map Scan.dropCR).foldl _ _ = l at ok loaded ⊢
  have settled := settle_all l.future m.now.unix p.minLease.seconds l.loaded ok.sound ok.distinct
    ok.dormant
  intro off d held
  rw [settled.table, Option.map_eq_some_iff] at held
  obtain ⟨e, before, rfl⟩ := held
  have usable := loaded off e before
  split
  · rw [DynHost.settled]
    split
    · exact ⟨usable.v4, usable.v6, usable.valid, late⟩
    · split
      · exact ⟨usable.v4, usable.v6, usable.valid, usable.used⟩
      · exact usable
  · exact usable

end Pool

end Clatto.Addrmap
