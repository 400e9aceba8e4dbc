import Clatto.Xlate.ZeroChecksum

/-! What a buffer held before does not show in what is sent. -/

namespace Clatto.Xlate

open Bytes Effect

variable {σ σ' : Type}

/-- Surroundings that differ at most in what the buffers hold when they are handed out:
the same mapper, the same random identifiers, and buffers granted and refused alike. The
relation ties the states of the two together. -/
structure Env.Alike (env : Env σ) (env' : Env σ') (R : σ → σ' → Prop) : Prop where
  to6 : ∀ a w w', R w w' → (env.mapIPv4ToIPv6 a w).1 = (env'.mapIPv4ToIPv6 a w').1 ∧
    R (env.mapIPv4ToIPv6 a w).2 (env'.mapIPv4ToIPv6 a w').2
  to4 : ∀ a allocate w w', R w w' →
    (env.mapIPv6ToIPv4 a allocate w).1 = (env'.mapIPv6ToIPv4 a allocate w').1 ∧
    R (env.mapIPv6ToIPv4 a allocate w).2 (env'.mapIPv6ToIPv4 a allocate w').2
  packet : ∀ n w w', R w w' → ((env.packet n w).1 = none ↔ (env'.packet n w').1 = none) ∧
    R (env.packet n w).2 (env'.packet n w').2
  ident : ∀ w w', R w w' → (env.randomIdent w).1 = (env'.randomIdent w').1 ∧
    R (env.randomIdent w).2 (env'.randomIdent w').2

namespace Env.Alike

variable {env : Env σ} {env' : Env σ'} {R : σ → σ' → Prop} (alike : env.Alike env' R)
  {t : Translator}

include alike

theorem maps6 (a : Bytes) (w : σ) (w' : σ') (related : R w w') :
    (env.to6 a w).1 = (env'.to6 a w').1 ∧ R (env.to6 a w).2 (env'.to6 a w').2 := by
  obtain ⟨same, after⟩ := alike.to6 (Netip.Addr.from4 a) w w' related
  unfold Env.to6
  generalize env.mapIPv4ToIPv6 (Netip.Addr.from4 a) w = answer at same after ⊢
  generalize env'.mapIPv4ToIPv6 (Netip.Addr.from4 a) w' = answer' at same after ⊢
  rcases answer with ⟨_ | _, _⟩ <;> rcases answer' with ⟨_ | _, _⟩ <;> cases same
  · exact ⟨rfl, after⟩
  · exact ⟨rfl, after⟩

theorem maps4 (allocate : Bool) (a : Bytes) (w : σ) (w' : σ') (related : R w w') :
    (env.to4 allocate a w).1 = (env'.to4 allocate a w').1 ∧
      R (env.to4 allocate a w).2 (env'.to4 allocate a w').2 := by
  obtain ⟨same, after⟩ := alike.to4 (Netip.Addr.from16 a) allocate w w' related
  unfold Env.to4
  generalize env.mapIPv6ToIPv4 (Netip.Addr.from16 a) allocate w = answer at same after ⊢
  generalize env'.mapIPv6ToIPv4 (Netip.Addr.from16 a) allocate w' = answer' at same after ⊢
  obtain ⟨answer, w₁⟩ := answer
  obtain ⟨answer', w₂⟩ := answer'
  obtain rfl : answer = answer' := same
  rcases answer with _ | (_ | _ | _)
  · exact ⟨rfl, after⟩
  · exact ⟨rfl, after⟩
  · exact ⟨rfl, after⟩
  · exact ⟨rfl, after⟩

theorem emitWith (n : Nat) {content : Xl σ Bytes} {content' : Xl σ' Bytes}
    (same : Agree R content content') :
    Agree R (Xlate.emitWith env n content) (Xlate.emitWith env' n content') := by
  refine agree_ask_bind (S := fun b b' => b = none ↔ b' = none) (alike.packet n) fun b b' granted => ?_
  cases b with
  | none =>
    obtain rfl := granted.mp rfl
    exact agree_pure false
  | some b =>
    cases b' with
    | none => cases granted.mpr rfl
    | some b' => exact same.bind fun bytes => (agree_act _).bind fun _ => agree_pure true

theorem emit (b : Bytes) : Agree R (Xlate.emit env b) (Xlate.emit env' b) :=
  alike.emitWith b.length (agree_pure b)

omit alike in
theorem deliver {send : Xl σ Bool} {send' : Xl σ' Bool} (same : Agree R send send') (family : UInt8)
    (length : Nat) : Agree R (Xlate.deliver send family length) (Xlate.deliver send' family length) := by
  refine same.bind fun sent => ?_
  cases sent with
  | false => exact agree_pure ()
  | true => exact agree_act _

theorem complain4 {typ code : UInt8} {word : Nat} {p : Packet4} :
    Agree R (Xlate.complain4 env t typ code word p) (Xlate.complain4 env' t typ code word p) := by
  unfold Xlate.complain4
  split
  · exact (alike.emit _).bind fun _ => agree_pure ()
  · exact agree_pure ()

theorem host4 {p : Packet4} : Agree R (Xlate.host4 env p) (Xlate.host4 env' p) := by
  unfold Xlate.host4
  split
  · exact (agree_act _).bind fun _ => (alike.emit _).bind fun _ => agree_pure ()
  · exact agree_act _

theorem sendFragments {room : Int} {p : Packet4} {src6 dst6 : Bytes} {fuel off : Nat} {data : Bytes} :
    Agree R (Xlate.sendFragments env room p src6 dst6 fuel off data)
      (Xlate.sendFragments env' room p src6 dst6 fuel off data) := by
  induction fuel generalizing off data with
  | zero => exact agree_lift _
  | succ fuel ih =>
    unfold Xlate.sendFragments
    split
    · generalize (if data.length < room then (data.length : Int) else room) = n
      dsimp only
      split
      · exact agree_lift _
      · refine (alike.emit _).bind fun sent => ?_
        split
        · exact ih
        · exact agree_pure false
    · exact agree_pure true

theorem forward4 {p : Packet4} {src6 dst6 : Bytes} :
    Agree R (Xlate.forward4 env t p src6 dst6) (Xlate.forward4 env' t p src6 dst6) := by
  unfold Xlate.forward4
  split
  · exact (agree_act _).bind fun _ => alike.complain4
  · split
    · exact agree_act _
    · refine deliver ?_ _ _
      split
      · exact alike.emit _
      · exact alike.sendFragments

theorem unmapped4 {err : MapError} {reason : Reason} {code : UInt8} {p : Packet4} :
    Agree R (Xlate.unmapped4 env t err reason code p) (Xlate.unmapped4 env' t err reason code p) := by
  unfold Xlate.unmapped4
  split
  · exact (agree_act _).bind fun _ => alike.complain4
  · exact agree_act _

theorem data4 {p : Packet4} : Agree R (Xlate.data4 env t p) (Xlate.data4 env' t p) := by
  refine agree_ask (alike.maps6 _) fun dst => ?_
  cases dst with
  | error err => exact alike.unmapped4
  | ok dst6 =>
    refine agree_ask (alike.maps6 _) fun src => ?_
    cases src with
    | error err => exact alike.unmapped4
    | ok src6 => exact alike.forward4

theorem forwardErrorFrom4 {p : Packet4} {src6 : Bytes} {otype ocode : UInt8} {oword : Nat}
    {inner : Bytes} : Agree R (Xlate.forwardErrorFrom4 env p src6 otype ocode oword inner)
      (Xlate.forwardErrorFrom4 env' p src6 otype ocode oword inner) := by
  refine agree_ask (alike.maps6 _) fun dst => ?_
  cases dst with
  | error err => exact agree_act _
  | ok dst6 => exact deliver (alike.emit _) _ _

theorem forwardError4 {p : Packet4} {otype ocode : UInt8} {oword : Nat} {inner : Bytes} :
    Agree R (Xlate.forwardError4 env t p otype ocode oword inner)
      (Xlate.forwardError4 env' t p otype ocode oword inner) := by
  refine agree_ask (alike.maps6 _) fun src => ?_
  cases src with
  | error err => exact (agree_act _).bind fun _ => alike.forwardErrorFrom4
  | ok src6 => exact alike.forwardErrorFrom4

theorem error4 {p : Packet4} : Agree R (Xlate.error4 env t p) (Xlate.error4 env' t p) := by
  unfold Xlate.error4
  split
  · exact agree_act _
  split
  · exact agree_act _
  split
  · refine agree_ask (alike.maps6 _) fun emSrc => agree_ask (alike.maps6 _) fun emDst => ?_
    split
    · refine (agree_lift _).bind fun kind => ?_
      split
      · exact agree_act _
      · dsimp only
        split
        · exact agree_act _
        · exact alike.forwardError4
    · exact agree_act _
  · exact agree_act _

theorem receive4 {raw : Bytes} : Agree R (Xlate.receive4 env t raw) (Xlate.receive4 env' t raw) := by
  unfold Xlate.receive4
  split
  · exact agree_act _
  split
  · exact agree_act _
  split
  · exact agree_act _
  split
  · split
    · exact alike.host4
    · exact (agree_act _).bind fun _ => alike.complain4
  split
  · exact (agree_act _).bind fun _ => alike.complain4
  split
  · exact alike.data4
  · exact alike.error4

theorem complain6 {typ code : UInt8} {word : Nat} {p : Packet6} :
    Agree R (Xlate.complain6 env t typ code word p) (Xlate.complain6 env' t typ code word p) := by
  unfold Xlate.complain6
  split
  · exact (alike.emit _).bind fun _ => agree_pure ()
  · exact agree_pure ()

theorem host6 {p : Packet6} : Agree R (Xlate.host6 env p) (Xlate.host6 env' p) := by
  unfold Xlate.host6
  split
  · exact (agree_act _).bind fun _ => (alike.emit _).bind fun _ => agree_pure ()
  · exact agree_act _

theorem identFlags {p : Packet6} {len : Int} :
    Agree R (Xlate.identFlags env p len) (Xlate.identFlags env' p len) := by
  unfold Xlate.identFlags
  split
  · exact agree_pure _
  split
  · exact agree_ask alike.ident fun _ => agree_pure _
  · exact agree_pure _

theorem forward6 {p : Packet6} {src4 dst4 : Bytes} :
    Agree R (Xlate.forward6 env t p src4 dst4) (Xlate.forward6 env' t p src4 dst4) := by
  unfold Xlate.forward6
  split
  · exact (agree_act _).bind fun _ => alike.complain6
  · refine alike.identFlags.bind fun word => ?_
    dsimp only
    split
    · exact agree_act _
    · exact deliver (alike.emit _) _ _

theorem unmapped6 {err : MapError} {reason : Reason} {code : UInt8} {p : Packet6} :
    Agree R (Xlate.unmapped6 env t err reason code p) (Xlate.unmapped6 env' t err reason code p) := by
  unfold Xlate.unmapped6
  split
  · exact (agree_act _).bind fun _ => alike.complain6
  · exact agree_act _

theorem data6 {p : Packet6} : Agree R (Xlate.data6 env t p) (Xlate.data6 env' t p) := by
  refine agree_ask (alike.maps4 _ _) fun dst => ?_
  cases dst with
  | error err => exact alike.unmapped6
  | ok dst4 =>
    refine agree_ask (alike.maps4 _ _) fun src => ?_
    cases src with
    | error err => exact alike.unmapped6
    | ok src4 => exact alike.forward6

theorem forwardErrorFrom6 {p : Packet6} {src4 : Bytes} {otype ocode : UInt8} {oword : Nat}
    {inner : Bytes} : Agree R (Xlate.forwardErrorFrom6 env p src4 otype ocode oword inner)
      (Xlate.forwardErrorFrom6 env' p src4 otype ocode oword inner) := by
  refine agree_ask (alike.maps4 _ _) fun dst => ?_
  cases dst with
  | error err => exact agree_act _
  | ok dst4 =>
    refine deliver (alike.emitWith _ ?_) _ _
    exact alike.identFlags.bind fun _ => agree_pure _

theorem forwardError6 {p : Packet6} {otype ocode : UInt8} {oword : Nat} {inner : Bytes} :
    Agree R (Xlate.forwardError6 env t p otype ocode oword inner)
      (Xlate.forwardError6 env' t p otype ocode oword inner) := by
  refine agree_ask (alike.maps4 _ _) fun src => ?_
  cases src with
  | error err => exact (agree_act _).bind fun _ => alike.forwardErrorFrom6
  | ok src4 => exact alike.forwardErrorFrom6

theorem error6 {p : Packet6} : Agree R (Xlate.error6 env t p) (Xlate.error6 env' t p) := by
  unfold Xlate.error6
  split
  · exact agree_act _
  split
  · exact agree_act _
  split
  · refine (agree_lift _).bind fun kind => ?_
    split
    · exact agree_act _
    · refine agree_ask (alike.maps4 _ _) fun emSrc => agree_ask (alike.maps4 _ _) fun emDst => ?_
      split
      · refine alike.identFlags.bind fun word => ?_
        dsimp only
        split
        · exact agree_act _
        · exact alike.forwardError6
      · exact agree_act _
  · exact agree_act _

theorem receive6 {raw : Bytes} : Agree R (Xlate.receive6 env t raw) (Xlate.receive6 env' t raw) := by
  unfold Xlate.receive6
  split
  · exact agree_pure ()
  · exact agree_act _
  · exact (agree_act _).bind fun _ => alike.complain6
  split
  · exact agree_act _
  split
  · exact agree_act _
  split
  · split
    · exact alike.host6
    · exact (agree_act _).bind fun _ => alike.complain6
  split
  · exact (agree_act _).bind fun _ => alike.complain6
  split
  · exact alike.data6
  · exact alike.error6

theorem translate (t : Translator) (raw : Bytes) :
    Agree R (Xlate.translate env t raw) (Xlate.translate env' t raw) := by
  rw [translate_eq, translate_eq, receive, receive]
  split
  · exact agree_pure ()
  split
  · exact alike.receive4
  split
  · exact alike.receive6
  · exact agree_act _

end Env.Alike

/-- Two emitters whose buffers differ in nothing but their old contents lead to the same
packets and the same reports. -/
theorem no_stale_bytes {env : Env σ} {env' : Env σ'} {R : σ → σ' → Prop} (alike : env.Alike env' R)
    (t : Translator) (raw : Bytes) {w : σ} {w' : σ'} (start : R w w') :
    (translate env t raw w).acts = (translate env' t raw w').acts ∧
      (translate env t raw w).result = (translate env' t raw w').result ∧
      R (translate env t raw w).world (translate env' t raw w').world := by
  obtain ⟨result, acts, after⟩ := alike.translate t raw w w' start
  exact ⟨acts, result, after⟩

/-- Surroundings that hand out buffers full of ones. -/
def Env.soiled : Env Unit where
  mapIPv4ToIPv6 := Env.constant.mapIPv4ToIPv6
  mapIPv6ToIPv4 := Env.constant.mapIPv6ToIPv4
  packet := fun n w => (some (List.replicate n 0xff), w)
  randomIdent := Env.constant.randomIdent
  packet_length := by
    rintro n w b ⟨⟩
    exact List.length_replicate

theorem no_stale_bytes_soiled : Env.soiled.packet 2 () ≠ Env.constant.packet 2 () ∧
    (translate Env.soiled (.sample 1500 .calc) expired ()).acts =
      (translate Env.constant (.sample 1500 .calc) expired ()).acts := by
  have alike : Env.soiled.Alike Env.constant fun _ _ => True :=
    ⟨fun _ _ _ _ => ⟨rfl, trivial⟩, fun _ _ _ _ _ => ⟨rfl, trivial⟩,
      fun _ _ _ _ => ⟨⟨nofun, nofun⟩, trivial⟩, fun _ _ _ => ⟨rfl, trivial⟩⟩
  exact ⟨by decide, (no_stale_bytes alike (.sample 1500 .calc) expired trivial).1⟩

end Clatto.Xlate
