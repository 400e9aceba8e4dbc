import Clatto.Xlate.Frugal
import Clatto.Xlate.Lengths

/-! What a call of the translator asks of its surroundings. Two translators are compared one
request at a time: a relation that holds after each of the requests they can make holds
between the whole calls. -/

namespace Clatto.Xlate

open Bytes Effect

variable {σ σ' : Type}

/-- A relation between the computations of two translators that goes through everything they
are made of. No packet of more than `limit` bytes is asked for. -/
structure Env.Respects (env : Env σ) (env' : Env σ') (limit : Nat)
    (P : ∀ {α : Type}, Xl σ α → Xl σ' α → Prop) : Prop where
  pure {α : Type} (value : α) : P (pure value) (pure value)
  lift {α : Type} (value : Checked α) : P (lift value) (lift value)
  event (e : Event) : P (act (.event e)) (act (.event e))
  translated (family : UInt8) (length : Nat) :
    P (act (.translated family length)) (act (.translated family length))
  bind {α β : Type} {first : Xl σ α} {first' : Xl σ' α} {next : α → Xl σ β} {next' : α → Xl σ' β} :
    P first first' → (∀ value, P (next value) (next' value)) →
      P (first >>= next) (first' >>= next')
  to6 {α : Type} (a : Bytes) {next : Except MapError Bytes → Xl σ α}
      {next' : Except MapError Bytes → Xl σ' α} :
    (∀ answer, (∀ b, answer = .ok b → b.length = 16) → P (next answer) (next' answer)) →
      P (ask (env.to6 a) >>= next) (ask (env'.to6 a) >>= next')
  to4 {α : Type} (allocate : Bool) (a : Bytes) {next : Except MapError Bytes → Xl σ α}
      {next' : Except MapError Bytes → Xl σ' α} :
    (∀ answer, (∀ b, answer = .ok b → b.length = 4) → P (next answer) (next' answer)) →
      P (ask (env.to4 allocate a) >>= next) (ask (env'.to4 allocate a) >>= next')
  ident {α : Type} {next : UInt16 → Xl σ α} {next' : UInt16 → Xl σ' α} :
    (∀ ident, P (next ident) (next' ident)) →
      P (ask env.randomIdent >>= next) (ask env'.randomIdent >>= next')
  emit {n : Nat} {content : Xl σ Bytes} {content' : Xl σ' Bytes} : n ≤ limit →
    P content content' →
    (content.Meets fun acts result => acts = [] ∧ ∃ b, result = .ok b ∧ b.length = n) →
      P (emitWith env n content) (emitWith env' n content')

namespace Env.Respects

variable {env : Env σ} {env' : Env σ'} {limit : Nat}
  {P : ∀ {α : Type}, Xl σ α → Xl σ' α → Prop} (respects : env.Respects env' limit P)
  {t : Translator}

include respects

theorem send {b : Bytes} (short : b.length ≤ limit) : P (Xlate.emit env b) (Xlate.emit env' b) := by
  exact respects.emit short (respects.pure b) (meets_pure ⟨rfl, b, rfl, rfl⟩)

theorem deliver {send : Xl σ Bool} {send' : Xl σ' Bool} (same : P send send') (family : UInt8)
    (length : Nat) : P (Xlate.deliver send family length) (Xlate.deliver send' family length) := by
  refine respects.bind same fun sent => ?_
  cases sent with
  | false => exact respects.pure ()
  | true => exact respects.translated _ _

section FromIPv4

variable {p : Packet4} (low : mtuMin ≤ limit)

include low

theorem complain4 {typ code : UInt8} {word : Nat} :
    P (Xlate.complain4 env t typ code word p) (Xlate.complain4 env' t typ code word p) := by
  unfold Xlate.complain4
  split
  · refine respects.bind (respects.send ?_) fun _ => respects.pure ()
    have cut : p.quote.length ≤ icmp4MaxLen - ipv4HdrLen - icmpHdrLen := List.length_take_le _ _
    rw [length_icmp4Packet t.local4_length p.length_src]
    simp only [icmp4MaxLen, ipv4HdrLen, icmpHdrLen, mtuMin] at *
    omega
  · exact respects.pure ()

theorem unmapped4 {err : MapError} {reason : Reason} {code : UInt8} :
    P (Xlate.unmapped4 env t err reason code p) (Xlate.unmapped4 env' t err reason code p) := by
  unfold Xlate.unmapped4
  split
  · exact respects.bind (respects.event _) fun _ => respects.complain4 low
  · exact respects.event _

omit low in
theorem sendFragments {room : Int} (width : 48 + room ≤ limit) {src6 dst6 : Bytes}
    (hs : src6.length = 16) (hd : dst6.length = 16) {fuel off : Nat} {data : Bytes} :
    P (Xlate.sendFragments env room p src6 dst6 fuel off data)
      (Xlate.sendFragments env' room p src6 dst6 fuel off data) := by
  induction fuel generalizing off data with
  | zero => exact respects.lift _
  | succ fuel ih =>
    unfold Xlate.sendFragments
    split
    · have bound : (if data.length < room then (data.length : Int) else room) ≤ room := by
        split <;> omega
      generalize (if data.length < room then (data.length : Int) else room) = n at bound ⊢
      dsimp only
      split
      · exact respects.lift _
      · refine respects.bind (respects.send ?_) fun sent => ?_
        · simp only [fragment4to6, List.length_append, length_ipv6Header, length_fragHeader,
            List.length_take, hs, hd]
          omega
        · split
          · exact ih
          · exact respects.pure false
    · exact respects.pure true

/-- The three sizes that a packet from IPv4 is sent in all fit the link. -/
theorem forward4 (mtu : t.cfg.mtu ≤ limit) {src6 dst6 : Bytes} (hs : src6.length = 16)
    (hd : dst6.length = 16) :
    P (Xlate.forward4 env t p src6 dst6) (Xlate.forward4 env' t p src6 dst6) := by
  unfold Xlate.forward4
  split
  · exact respects.bind (respects.event _) fun _ => respects.complain4 low
  · rename_i whole fits
    split
    · exact respects.event _
    · rename_i data payload
      have width := length_rewrite4to6 payload
      refine respects.deliver ?_ _ _
      split
      · rename_i single
        subst single
        refine respects.send ?_
        have link := (noFragHdr_whole p.hdr_ge fits).2
        simp only [List.length_append, length_ipv6Header, hs, hd, ipv6HdrLen] at *
        omega
      · refine respects.sendFragments ?_ hs hd
        have room : t.room ≤ t.cfg.mtu - ipv6HdrLen := by
          rw [Translator.room]
          omega
        simp only [Translator.fragRoom, fragHdrLen, ipv6HdrLen] at *
        omega

theorem data4 (mtu : t.cfg.mtu ≤ limit) : P (Xlate.data4 env t p) (Xlate.data4 env' t p) := by
  refine respects.to6 _ fun dst sized => ?_
  cases dst with
  | error err => exact respects.unmapped4 low
  | ok dst6 =>
    refine respects.to6 _ fun src sized' => ?_
    cases src with
    | error err => exact respects.unmapped4 low
    | ok src6 => exact respects.forward4 low mtu (sized' _ rfl) (sized _ rfl)

omit low in
theorem forwardErrorFrom4 {src6 : Bytes} (hs : src6.length = 16) {otype ocode : UInt8} {oword : Nat}
    {inner : Bytes} (short : 48 + inner.length ≤ limit) :
    P (Xlate.forwardErrorFrom4 env p src6 otype ocode oword inner)
      (Xlate.forwardErrorFrom4 env' p src6 otype ocode oword inner) := by
  refine respects.to6 _ fun dst sized => ?_
  cases dst with
  | error err => exact respects.event _
  | ok dst6 =>
    refine respects.deliver (respects.send ?_) _ _
    have hd := sized _ rfl
    simp only [error4to6, List.length_append, length_ipv6Header, length_sealedICMP, hs, hd]
    omega

omit low in
theorem forwardError4 {otype ocode : UInt8} {oword : Nat} {inner : Bytes}
    (short : 48 + inner.length ≤ limit) :
    P (Xlate.forwardError4 env t p otype ocode oword inner)
      (Xlate.forwardError4 env' t p otype ocode oword inner) := by
  refine respects.to6 _ fun src sized => ?_
  cases src with
  | error err =>
    exact respects.bind (respects.event _) fun _ => respects.forwardErrorFrom4 t.local6_length short
  | ok src6 => exact respects.forwardErrorFrom4 (sized _ rfl) short

theorem error4 : P (Xlate.error4 env t p) (Xlate.error4 env' t p) := by
  unfold Xlate.error4
  split
  · exact respects.event _
  split
  · exact respects.event _
  rename_i em _
  split
  · refine respects.to6 _ fun emSrc sized => respects.to6 _ fun emDst sized' => ?_
    split
    · rename_i emSrc emDst
      refine respects.bind (respects.lift _) fun kind => ?_
      split
      · exact respects.event _
      · dsimp only
        split
        · exact respects.event _
        · rename_i data payload
          refine respects.forwardError4 ?_
          have width := length_rewrite4to6 payload
          have cut : (em.clip (mtuMin - 2 * ipv6HdrLen - icmpHdrLen) (by decide)).data.length ≤
              mtuMin - 2 * ipv6HdrLen - icmpHdrLen := List.length_take_le _ _
          simp only [inner4to6, List.length_append, length_ipv6Header, sized _ rfl, sized' _ rfl,
            mtuMin, ipv6HdrLen, icmpHdrLen] at *
          omega
    · exact respects.event _
  · exact respects.event _

theorem host4 (short : p.size ≤ limit) : P (Xlate.host4 env p) (Xlate.host4 env' p) := by
  unfold Xlate.host4
  split
  · refine respects.bind (respects.event _) fun _ =>
      respects.bind (respects.send ?_) fun _ => respects.pure ()
    have hdr := p.hdr_ge
    rw [length_icmp4Packet p.length_dst p.length_src, List.length_drop]
    simp only [Packet4.size, icmpHdrLen, mtuMin] at *
    omega
  · exact respects.event _

theorem receive4 (mtu : t.cfg.mtu ≤ limit) {raw : Bytes} (short : raw.length ≤ limit) :
    P (Xlate.receive4 env t raw) (Xlate.receive4 env' t raw) := by
  unfold Xlate.receive4
  split
  · exact respects.event _
  rename_i p found
  split
  · exact respects.event _
  split
  · exact respects.event _
  split
  · split
    · exact respects.host4 low ((parse4_ok found).size_le.trans short)
    · exact respects.bind (respects.event _) fun _ => respects.complain4 low
  split
  · exact respects.bind (respects.event _) fun _ => respects.complain4 low
  split
  · exact respects.data4 low mtu
  · exact respects.error4 low

end FromIPv4

section FromIPv6

variable {p : Packet6}

theorem identFlags {len : Int} : P (Xlate.identFlags env p len) (Xlate.identFlags env' p len) := by
  unfold Xlate.identFlags
  split
  · exact respects.pure _
  split
  · exact respects.ident fun _ => respects.pure _
  · exact respects.pure _

theorem complain6 (low : mtuMin ≤ limit) {typ code : UInt8} {word : Nat} :
    P (Xlate.complain6 env t typ code word p) (Xlate.complain6 env' t typ code word p) := by
  unfold Xlate.complain6
  split
  · refine respects.bind (respects.send ?_) fun _ => respects.pure ()
    have cut : p.quote.length ≤ mtuMin - ipv6HdrLen - icmpHdrLen := List.length_take_le _ _
    rw [length_icmp6Packet t.local6_length p.length_src]
    simp only [ipv6HdrLen, icmpHdrLen, mtuMin] at *
    omega
  · exact respects.pure ()

theorem unmapped6 (low : mtuMin ≤ limit) {err : MapError} {reason : Reason} {code : UInt8} :
    P (Xlate.unmapped6 env t err reason code p) (Xlate.unmapped6 env' t err reason code p) := by
  unfold Xlate.unmapped6
  split
  · exact respects.bind (respects.event _) fun _ => respects.complain6 low
  · exact respects.event _

theorem forwardErrorFrom6 {src4 : Bytes} (hs : src4.length = 4) {otype ocode : UInt8} {oword : Nat}
    {inner : Bytes} (short : 28 + inner.length ≤ limit) :
    P (Xlate.forwardErrorFrom6 env p src4 otype ocode oword inner)
      (Xlate.forwardErrorFrom6 env' p src4 otype ocode oword inner) := by
  refine respects.to4 _ _ fun dst sized => ?_
  cases dst with
  | error err => exact respects.event _
  | ok dst4 =>
    have hd := sized _ rfl
    refine respects.deliver (respects.emit ?_
      (respects.bind respects.identFlags fun _ => respects.pure _) ?_) _ _
    · simpa only [ipv4HdrLen, icmpHdrLen] using short
    · refine meets_bind ((meets_identFlags p _).mono ?_)
      rintro _ _ ⟨rfl, ident, flags, rfl, -⟩
      refine meets_pure ⟨rfl, _, rfl, ?_⟩
      simp [error6to4, sealedIPv4Header, length_sealedICMP, hs, hd, ipv4HdrLen, icmpHdrLen]
      omega

theorem forwardError6 {otype ocode : UInt8} {oword : Nat} {inner : Bytes}
    (short : 28 + inner.length ≤ limit) :
    P (Xlate.forwardError6 env t p otype ocode oword inner)
      (Xlate.forwardError6 env' t p otype ocode oword inner) := by
  refine respects.to4 _ _ fun src sized => ?_
  cases src with
  | error err =>
    exact respects.bind (respects.event _) fun _ => respects.forwardErrorFrom6 t.local4_length short
  | ok src4 => exact respects.forwardErrorFrom6 (sized _ rfl) short

theorem forward6 (low : mtuMin ≤ limit) (mtu : t.cfg.mtu ≤ limit) {src4 dst4 : Bytes}
    (hs : src4.length = 4) (hd : dst4.length = 4) :
    P (Xlate.forward6 env t p src4 dst4) (Xlate.forward6 env' t p src4 dst4) := by
  unfold Xlate.forward6
  split
  · exact respects.bind (respects.event _) fun _ => respects.complain6 low
  · rename_i fits
    refine respects.bind respects.identFlags fun word => ?_
    dsimp only
    split
    · exact respects.event _
    · rename_i data payload
      have width := length_rewrite6to4 payload
      refine respects.deliver (respects.send ?_) _ _
      simp only [List.length_append, sealedIPv4Header, length_ipv4Header, hs, hd, Packet6.size,
        ipv6HdrLen] at *
      omega

theorem data6 (low : mtuMin ≤ limit) (mtu : t.cfg.mtu ≤ limit) :
    P (Xlate.data6 env t p) (Xlate.data6 env' t p) := by
  refine respects.to4 _ _ fun dst sized => ?_
  cases dst with
  | error err => exact respects.unmapped6 low
  | ok dst4 =>
    refine respects.to4 _ _ fun src sized' => ?_
    cases src with
    | error err => exact respects.unmapped6 low
    | ok src4 => exact respects.forward6 low mtu (sized' _ rfl) (sized _ rfl)

theorem error6 (low : mtuMin ≤ limit) : P (Xlate.error6 env t p) (Xlate.error6 env' t p) := by
  unfold Xlate.error6
  split
  · exact respects.event _
  split
  · exact respects.event _
  rename_i em _
  split
  · refine respects.bind (respects.lift _) fun kind => ?_
    split
    · exact respects.event _
    · refine respects.to4 _ _ fun emSrc sized => respects.to4 _ _ fun emDst sized' => ?_
      split
      · rename_i emSrc emDst
        refine respects.bind respects.identFlags fun word => ?_
        dsimp only
        split
        · exact respects.event _
        · rename_i data payload
          refine respects.forwardError6 ?_
          have width := length_rewrite6to4 payload
          have cut : (em.clip (icmp4MaxLen - 2 * ipv4HdrLen - icmpHdrLen) (by decide)).data.length ≤
              icmp4MaxLen - 2 * ipv4HdrLen - icmpHdrLen := List.length_take_le _ _
          simp only [inner6to4, sealedIPv4Header, List.length_append, length_ipv4Header,
            sized _ rfl, sized' _ rfl, mtuMin, icmp4MaxLen, ipv4HdrLen, icmpHdrLen] at *
          omega
      · exact respects.event _
  · exact respects.event _

theorem host6 (low : mtuMin ≤ limit) (short : p.size ≤ limit) :
    P (Xlate.host6 env p) (Xlate.host6 env' p) := by
  unfold Xlate.host6
  split
  · refine respects.bind (respects.event _) fun _ =>
      respects.bind (respects.send ?_) fun _ => respects.pure ()
    rw [length_icmp6Packet p.length_dst p.length_src, List.length_drop]
    simp only [Packet6.size, ipv6HdrLen, icmpHdrLen, mtuMin] at *
    omega
  · exact respects.event _

theorem receive6 (low : mtuMin ≤ limit) (mtu : t.cfg.mtu ≤ limit) {raw : Bytes}
    (short : raw.length ≤ limit) : P (Xlate.receive6 env t raw) (Xlate.receive6 env' t raw) := by
  unfold Xlate.receive6
  split
  · exact respects.pure ()
  · exact respects.event _
  · exact respects.bind (respects.event _) fun _ => respects.complain6 low
  rename_i p found
  split
  · exact respects.event _
  split
  · exact respects.event _
  split
  · split
    · exact respects.host6 low ((parse6_ok found).size_le.trans short)
    · exact respects.bind (respects.event _) fun _ => respects.complain6 low
  split
  · exact respects.bind (respects.event _) fun _ => respects.complain6 low
  split
  · exact respects.data6 low mtu
  · exact respects.error6 low

end FromIPv6

theorem translate (low : mtuMin ≤ limit) (mtu : t.cfg.mtu ≤ limit) {raw : Bytes}
    (short : raw.length ≤ limit) : P (Xlate.translate env t raw) (Xlate.translate env' t raw) := by
  rw [translate_eq, translate_eq, receive, receive]
  split
  · exact respects.pure ()
  split
  · exact respects.receive4 low mtu short
  split
  · exact respects.receive6 low mtu short
  · exact respects.event _

end Env.Respects

variable {env : Env σ} {limit : Nat} {t : Translator} {raw : Bytes}

/-- The same surroundings, with an emitter that has no buffers of more than `limit` bytes. -/
def Env.upTo (env : Env σ) (limit : Nat) : Env σ where
  mapIPv4ToIPv6 := env.mapIPv4ToIPv6
  mapIPv6ToIPv4 := env.mapIPv6ToIPv4
  packet n w := if n ≤ limit then env.packet n w else (none, w)
  randomIdent := env.randomIdent
  packet_length := by
    intro n w b granted
    split at granted
    · exact env.packet_length granted
    · cases granted

theorem translate_upTo (env : Env σ) (low : mtuMin ≤ limit) (mtu : t.cfg.mtu ≤ limit)
    (short : raw.length ≤ limit) : translate env t raw = translate (env.upTo limit) t raw := by
  have respects : env.Respects (env.upTo limit) limit fun left right => left = right :=
    { pure := fun _ => rfl
      lift := fun _ => rfl
      event := fun _ => rfl
      translated := fun _ _ => rfl
      bind := by
        rintro α β first _ next next' rfl rest
        rw [funext rest]
      to6 := by
        intro α a next next' rest
        exact ask_bind_congr fun w => rest _ fun _ found => Env.to6_length found
      to4 := by
        intro α allocate a next next' rest
        exact ask_bind_congr fun w => rest _ fun _ found => Env.to4_length found
      ident := fun rest => ask_bind_congr fun w => rest _
      emit := by
        rintro n content _ small rfl -
        have same : (env.upTo limit).packet n = env.packet n := funext fun w => if_pos small
        rw [emitWith, emitWith, same] }
  exact respects.translate low mtu short

/-- How a state and what is seen from outside move together, one request at a time. -/
structure Env.Moves (env : Env σ) (limit : Nat) (T : σ → List Action → σ → Prop) : Prop where
  refl (w : σ) : T w [] w
  trans {w w' w'' : σ} {acts acts' : List Action} : T w acts w' → T w' acts' w'' →
    T w (acts ++ acts') w''
  event (w : σ) (e : Event) : T w [.event e] w
  translated (w : σ) (family : UInt8) (length : Nat) : T w [.translated family length] w
  to6 (w : σ) (a : Netip.Addr) : T w [] (env.mapIPv4ToIPv6 a w).2
  to4 (w : σ) (a : Netip.Addr) (allocate : Bool) : T w [] (env.mapIPv6ToIPv4 a allocate w).2
  ident (w : σ) : T w [] (env.randomIdent w).2
  refused (w : σ) {n : Nat} : n ≤ limit → (env.packet n w).1 = none → T w [] (env.packet n w).2
  sent {w w' : σ} {b : Bytes} : b.length ≤ limit → (env.packet b.length w).1 ≠ none →
    T (env.packet b.length w).2 [] w' → T w [.packet b] w'

theorem Env.to6_world (env : Env σ) (a : Bytes) (w : σ) :
    (env.to6 a w).2 = (env.mapIPv4ToIPv6 (.from4 a) w).2 := by
  unfold Env.to6
  split <;> rename_i answered <;> rw [answered]

theorem Env.Moves.translate {T : σ → List Action → σ → Prop} (moves : env.Moves limit T)
    (low : mtuMin ≤ limit) (mtu : t.cfg.mtu ≤ limit) (short : raw.length ≤ limit) (w : σ) :
    T w (Xlate.translate env t raw w).acts (Xlate.translate env t raw w).world := by
  have asked {α β : Type} {question : σ → β × σ} {next : β → Xl σ α} {w : σ}
      (first : T w [] (question w).2)
      (rest : T (question w).2 (next (question w).1 (question w).2).acts
        (next (question w).1 (question w).2).world) :
      T w ((ask question >>= next) w).acts ((ask question >>= next) w).world :=
    moves.trans first rest
  have respects : env.Respects env limit fun left _ => ∀ w, T w (left w).acts (left w).world :=
    { pure := fun _ w => moves.refl w
      lift := fun _ w => moves.refl w
      event := fun e w => moves.event w e
      translated := fun family length w => moves.translated w family length
      bind := by
        intro α β first _ next _ one rest w
        have before := one w
        rw [bind_run]
        generalize first w = out at before ⊢
        rcases out with ⟨_ | value, acts, w'⟩
        · exact before
        · exact moves.trans before (rest value w')
      to6 := by
        intro α a next _ rest w
        refine asked ?_ (rest _ (fun _ found => Env.to6_length found) _)
        rw [Env.to6_world]
        exact moves.to6 w _
      to4 := by
        intro α allocate a next _ rest w
        refine asked ?_ (rest _ (fun _ found => Env.to4_length found) _)
        rw [Env.to4_world]
        exact moves.to4 w _ _
      ident := fun rest w => asked (moves.ident w) (rest _ _)
      emit := by
        intro n content _ small inside sized w
        rw [emitWith, bind_run, ask_run]
        dsimp only
        cases granted : (env.packet n w).1 with
        | none => exact moves.refused w small granted
        | some b₀ =>
          have after := inside (env.packet n w).2
          obtain ⟨quiet, b, found, rfl⟩ := sized (env.packet n w).2
          dsimp only
          rw [bind_run]
          generalize content (env.packet b.length w).2 = out at after quiet found ⊢
          obtain ⟨result, acts, w'⟩ := out
          obtain rfl : result = .ok b := found
          obtain rfl : acts = [] := quiet
          exact moves.sent small (by rw [granted]; exact Option.some_ne_none _) after }
  exact respects.translate low mtu short w

end Clatto.Xlate
