import Clatto.Addrmap.PoolRead
import Mathlib.Logic.Relation

/-! Runs of a pool: any calls, at any times, with any addresses withheld. -/

namespace Clatto.Addrmap

open Netip

namespace Pool

/-- A call of the pool. The addresses that a table withholds may change at any time. -/
inductive Step : Pool → Pool → Prop
  | lookup4 (p : Pool) (a : Addr) (m : Moment) : Step p (p.lookup4 a m).2
  | lookup6 (p : Pool) (a : Addr) (allocate : Bool) (m : Moment) :
      Step p (p.lookup6 a allocate m).2
  | maintain (p : Pool) (m : Moment) : Step p (p.maintain m)
  | setLeases (p : Pool) (minLease maxLease : Duration) : Step p (p.setLeases minLease maxLease)
  | read (p : Pool) (m : Moment) (s : Scan) : Step p (p.read m s).2
  | reserve (p : Pool) (reserved : Addr → Bool) : Step p (p.reserve reserved)

abbrev Run : Pool → Pool → Prop := Relation.ReflTransGen Step

variable {p p' : Pool}

theorem Asked.sound {a : Addr} {allocate : Bool} {now : Int64} {answer : Option Addr}
    (sound : p.Sound) (asked : p.Asked a allocate now answer p') : p'.Sound := by
  cases asked with
  | known _ _ _ writes => exact writes.sound
  | refused => exact sound
  | woken _ _ _ _ writes => exact writes.sound
  | granted _ _ _ _ writes => exact writes.sound
  | stolen _ _ _ _ _ _ writes => exact writes.sound
  | exhausted => exact ⟨sound.size, sound.filed, sound.placed, sound.used⟩

theorem Replied.sound {off : BitVec 32} {now : Int64} {answer : Option Addr} (sound : p.Sound)
    (replied : p.Replied off now answer p') : p'.Sound := by
  cases replied with
  | silent => exact sound
  | answer _ _ writes => exact writes.sound

theorem lookup4_sound (sound : p.Sound) (a : Addr) (m : Moment) : (p.lookup4 a m).2.Sound := by
  cases four : a.as4 with
  | error fault =>
    rw [lookup4, four]
    exact sound
  | ok a4 =>
    obtain ⟨answer, -, replied⟩ := lookup4_replied sound four m
    exact replied.sound sound

theorem Step.sound (step : Step p p') (sound : p.Sound) : p'.Sound := by
  cases step with
  | lookup4 a m => exact lookup4_sound sound a m
  | lookup6 a allocate m => exact (lookup6_asked sound a allocate m).sound sound
  | maintain m => exact (maintain_maintained m sound).sound
  | setLeases => exact ⟨sound.size, sound.filed, sound.placed, sound.used⟩
  | read m s => exact (read_sound sound m s).1
  | reserve => exact ⟨sound.size, sound.filed, sound.placed, sound.used⟩

theorem Run.sound (run : Run p p') (sound : p.Sound) : p'.Sound := by
  induction run with
  | refl => exact sound
  | tail _ step ih => exact step.sound ih

/-- The hosts of a pool: those in one of the two maps. -/
def Holds (p : Pool) (r : Ref) : Prop :=
  (∃ a, p.mapped.get a = some r) ∨ ∃ a, p.dormant.get a = some r

/-- The five structures of a pool describe the same hosts. -/
structure Invariant (p : Pool) : Prop where
  mapped : ∀ a r, p.mapped.get a = some r → (p.host r).v6 = a ∧ (p.host r).dormant = false
  dormant : ∀ a r, p.dormant.get a = some r → (p.host r).v6 = a ∧ (p.host r).dormant = true
  apart : ∀ a, p.mapped.get a = none ∨ p.dormant.get a = none
  by4 : ∀ off r, p.by4.get off = some r ↔ p.Holds r ∧ (p.host r).off = off
  placed : ∀ r, p.Holds r → 1 ≤ (p.host r).off.toNat ∧ (p.host r).off.toNat ≤ p.max.toNat ∧
    (p.host r).v4 = .v4 (p.base ||| (p.host r).off)
  distinct : ∀ r s, p.Holds r → p.Holds s → r ≠ s →
    (p.host r).off ≠ (p.host s).off ∧ (p.host r).v6 ≠ (p.host s).v6
  used : ∀ n, p.used.test n = true ↔ n = 0 ∨ ∃ r, p.Holds r ∧ (p.host r).off.toNat = n

theorem Sound.holds_iff (sound : p.Sound) {r : Ref} :
    p.Holds r ↔ p.by4.get (p.host r).off = some r := by
  constructor
  · rintro (⟨a, found⟩ | ⟨a, found⟩)
    · exact (sound.mapped found).1
    · exact (sound.dormant found).1
  · intro here
    cases flag : (p.host r).dormant with
    | false => exact .inl ⟨_, sound.filed.awake here flag⟩
    | true => exact .inr ⟨_, sound.filed.asleep here flag⟩

theorem Sound.invariant (sound : p.Sound) : p.Invariant where
  mapped a r found := (sound.mapped found).2.2
  dormant a r found := (sound.dormant found).2.2
  apart a := by
    cases found : p.mapped.get a with
    | none => exact .inl rfl
    | some r => exact .inr (sound.filed.apart found)
  by4 off r := by
    rw [sound.holds_iff]
    constructor
    · intro here
      have same : (p.host r).off = off := sound.filed.key here
      exact ⟨same.symm ▸ here, same⟩
    · rintro ⟨here, rfl⟩
      exact here
  placed r held := by
    have here := sound.holds_iff.mp held
    obtain ⟨⟨nonzero, le⟩, v4⟩ := sound.placed (Registry.view_eq_some.mpr ⟨r, here, rfl⟩)
    refine ⟨?_, BitVec.le_def.mp le, v4⟩
    by_contra zero
    exact nonzero (BitVec.eq_of_toNat_eq (by simpa using zero))
  distinct r s held held' different := by
    have here := sound.holds_iff.mp held
    have here' := sound.holds_iff.mp held'
    have off : (p.host r).off ≠ (p.host s).off := by
      intro same
      rw [same, here'] at here
      exact different (Option.some.inj here).symm
    refine ⟨off, fun same => off ?_⟩
    exact sound.filed.name_unique (Registry.view_eq_some.mpr ⟨r, here, rfl⟩)
      (Registry.view_eq_some.mpr ⟨s, here', rfl⟩) same
  used n := by
    by_cases small : n < 2 ^ 32
    · have whole : (BitVec.ofNat 32 n).toNat = n := by
        rw [BitVec.toNat_ofNat]
        exact Nat.mod_eq_of_lt small
      have marked := sound.used (BitVec.ofNat 32 n)
      rw [isUsed, whole] at marked
      rw [marked]
      refine or_congr ?_ ?_
      · rw [← BitVec.toNat_inj, whole]
        rfl
      · rw [Option.ne_none_iff_exists']
        constructor
        · rintro ⟨d, seen⟩
          obtain ⟨r, here, rfl⟩ := Registry.view_eq_some.mp seen
          have same : (p.host r).off = BitVec.ofNat 32 n := sound.filed.key here
          refine ⟨r, sound.holds_iff.mpr ?_, ?_⟩
          · rw [same]
            exact here
          · rw [same, whole]
        · rintro ⟨r, held, rfl⟩
          rw [BitVec.ofNat_toNat, BitVec.setWidth_eq]
          exact ⟨_, Registry.view_eq_some.mpr ⟨r, sound.holds_iff.mp held, rfl⟩⟩
    · have outside : p.used.test n = false := by
        refine Bitmap.test_outside ?_
        rw [sound.size]
        have := p.max.isLt
        omega
      rw [outside]
      simp only [Bool.false_eq_true, false_iff, not_or, not_exists, not_and]
      refine ⟨by omega, fun r _ same => ?_⟩
      have := (p.host r).off.isLt
      omega

/-- However a new pool is used, its maps and its bitmap agree. -/
theorem run_invariant {pfx : Prefix} {o : PoolOptions} (made : newPool pfx o = .ok p)
    (run : Run p p') : p'.Invariant :=
  (run.sound (newPool_sound made).1).invariant

/-- Three hosts ask for addresses, and at the end the pool is maintained. -/
def filled (p : Pool) (m₁ m₂ m₃ m₄ : Moment) : Pool :=
  let p := (p.lookup6 (.v6 1 "") true m₁).2
  let p := (p.lookup6 (.v6 2 "") true m₂).2
  let p := (p.lookup6 (.v6 3 "") true m₃).2
  p.maintain m₄

theorem run_filled (p : Pool) (m₁ m₂ m₃ m₄ : Moment) : Run p (p.filled m₁ m₂ m₃ m₄) :=
  .tail (.tail (.tail (.single (.lookup6 p _ true m₁)) (.lookup6 _ _ true m₂))
    (.lookup6 _ _ true m₃)) (.maintain _ m₄)

/-- All three addresses of a pool are taken, and their hosts are asleep. -/
theorem run_invariant_filled : ∃ p q, newPool (.of (.v4 0x0a000000#32) 30) {} = .ok p ∧
    p.filled (.second 10000) (.second 10001) (.second 10002) (.second 20000) = q ∧ q.Invariant ∧
    [1, 2, 3].map (fun n => (q.dormant.get (.v6 n "")).isSome) = [true, true, true] :=
  ⟨_, _, rfl, rfl, @run_invariant _ _ (.of (.v4 0x0a000000#32) 30) {} rfl (run_filled ..),
    by decide +kernel⟩

end Pool

end Clatto.Addrmap
