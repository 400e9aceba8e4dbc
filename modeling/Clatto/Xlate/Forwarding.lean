import Clatto.Xlate.Frugal
import Clatto.Xlate.RoundTrip

/-! Data packets in the state in which they arrive: what the mapper answers there decides what
is sent. -/

namespace Clatto.Xlate

open Bytes Effect

variable {σ : Type} {env : Env σ} {t : Translator}

theorem Deliverable.through {raw : Bytes} {p : Packet6} (deliverable : Deliverable t raw p) :
    translate env t raw = data6 env t p := by
  have far := deliverable.hop
  refine translate_through6 deliverable.parsed
    ⟨⟨?_, deliverable.whole, deliverable.intact⟩, deliverable.away, ?_⟩ deliverable.noError
  · intro zero
    rw [zero] at far
    exact absurd far (by decide)
  · intro one
    rw [one] at far
    exact absurd far (by decide)

theorem source_whole6to4 {p : Packet6} {ident flags : Nat} {src4 dst4 data : Bytes}
    (four : src4.length = 4) : sub (whole6to4 p ident flags src4 dst4 data) 12 16 = src4 := by
  simp [sub, whole6to4, sealedIPv4Header, ipv4Header, enc16, four]

/-- The actions of a call that has not translated a packet. -/
def Untranslated (acts : List Action) : Prop := ∀ n, .translated 6 n ∉ acts

theorem complain6_untranslated {p : Packet6} (e : Event) (typ code : UInt8) (word : Nat) :
    (report e >>= fun _ => complain6 env t typ code word p).Meets fun acts _ =>
      Untranslated acts := by
  refine meets_act_bind ?_
  unfold complain6
  split
  · refine meets_bind (meets_emit.mono ?_)
    rintro acts result (⟨rfl, rfl⟩ | ⟨rfl, rfl, -⟩) <;>
      exact meets_pure fun n => by simp
  · exact meets_pure fun n => by simp

theorem report_untranslated (e : Event) :
    (report e : Xl σ Unit).Meets fun acts _ => Untranslated acts :=
  meets_act fun n => by simp

theorem unmapped6_untranslated {p : Packet6} (err : MapError) (reason : Reason) (code : UInt8) :
    (unmapped6 env t err reason code p).Meets fun acts _ => Untranslated acts := by
  unfold unmapped6
  split
  · exact complain6_untranslated _ _ _ _
  · exact report_untranslated _

theorem forward6_translated {p : Packet6} {src4 dst4 : Bytes} :
    (forward6 env t p src4 dst4).Meets fun acts _ => Untranslated acts ∨
      ∃ ident flags data,
        acts = [.packet (whole6to4 p ident flags src4 dst4 data), .translated 6 p.size] := by
  unfold forward6
  split
  · exact (complain6_untranslated _ _ _ _).mono fun _ _ => .inl
  · refine meets_bind ((meets_identFlags p p.data.length).mono ?_)
    rintro acts result ⟨rfl, ident, flags, rfl, -⟩
    dsimp only
    split
    · exact (report_untranslated _).mono fun _ _ => .inl
    · rename_i data _
      refine meets_bind (meets_emit.mono ?_)
      rintro acts result (⟨rfl, rfl⟩ | ⟨rfl, rfl, -⟩)
      · exact meets_act (.inr ⟨ident, flags, data, rfl⟩)
      · exact meets_pure (.inl fun n => by simp)

/-- A data packet that was translated left with the addresses the mapper gave. -/
theorem data6_translated {p : Packet6} {w : σ} {n : Nat}
    (translated : .translated 6 n ∈ (data6 env t p w).acts) :
    ∃ src4 dst4 ident flags data, (env.to4 false p.dst w).1 = .ok dst4 ∧
      (env.to4 true p.src (env.to4 false p.dst w).2).1 = .ok src4 ∧
      (data6 env t p w).acts =
        [.packet (whole6to4 p ident flags src4 dst4 data), .translated 6 p.size] := by
  cases dst : (env.to4 false p.dst w).1 with
  | error err =>
    rw [data6_of_dst dst] at translated
    exact absurd translated (unmapped6_untranslated _ _ _ _ n)
  | ok dst4 =>
    cases src : (env.to4 true p.src (env.to4 false p.dst w).2).1 with
    | error err =>
      rw [data6_of_src dst src] at translated
      exact absurd translated (unmapped6_untranslated _ _ _ _ n)
    | ok src4 =>
      rw [data6_run dst src] at translated ⊢
      rcases forward6_translated (env.to4 true p.src (env.to4 false p.dst w).2).2 with
        untranslated | ⟨ident, flags, data, sent⟩
      · exact absurd translated (untranslated n)
      · exact ⟨src4, dst4, ident, flags, data, rfl, rfl, sent⟩

end Clatto.Xlate
