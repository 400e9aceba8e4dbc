import Clatto.Xlate.Refine.FromIPv6
import Clatto.Xlate.Trace4

/-! Everything a call on an IPv6 packet can lead to, and with it everything a
call of the translator can lead to. -/

namespace Clatto.Xlate

open Bytes Effect

variable {σ : Type}

structure Accepted6 (p : Packet6) : Prop where
  hop : p.hop ≠ 0
  length : p.extLen + p.data.length = p.payloadLen
  message : p.proto = protoICMPv6 →
    verify p.data (pseudo6 p.src p.dst p.data.length protoICMPv6)

structure Through6 (t : Translator) (p : Packet6) : Prop extends Accepted6 p where
  foreign : p.dst ≠ t.local6
  alive : p.hop ≠ 1

/-- What `header6to4` may write into the identification and flags words. -/
def IdentFlags (p : Packet6) (len : Int) (ident flags : Nat) : Prop :=
  match p.frag with
  | some f =>
    ident = be32 f 4 % 65536 ∧
      flags = if be16 f 2 &&& ip6FragMF ≠ 0 then be16 f 2 >>> 3 ||| ip4FlagMF else be16 f 2 >>> 3
  | none =>
    if p.extLen + len ≤ mtuMin then ident < 65536 ∧ flags = 0 else ident = 0 ∧ flags = ip4FlagDF

structure Forwarded6 (env : Env σ) (t : Translator) (p : Packet6) (src4 dst4 data : Bytes) : Prop
    extends Through6 t p where
  kind : p.proto = protoICMPv6 → p.icmpType = 128 ∨ p.icmpType = 129
  dst : env.Maps4 false p.dst dst4
  src : env.Maps4 true p.src src4
  small : p.size ≤ t.cfg.mtu
  payload : rewrite6to4 t.cfg.udpChecksum p src4 dst4 = .ok data

/-- The IPv4 packet that carries a translated payload. -/
def whole6to4 (p : Packet6) (ident flags : Nat) (src4 dst4 data : Bytes) : Bytes :=
  sealedIPv4Header p.tc (ipv4HdrLen + data.length) ident flags (p.hop - 1) p.next src4 dst4 ++ data

structure ErrorForwarded6 (env : Env σ) (t : Translator) (p : Packet6) (otype ocode : UInt8)
    (oword : Nat) (inner : Bytes) : Prop extends Through6 t p where
  icmp : p.proto = protoICMPv6
  kind : ¬ (p.icmpType = 128 ∨ p.icmpType = 129)
  embedded : ∃ raw em emSrc emDst ident flags data, p.embedded = some raw ∧
    parse6 raw = .ok em ∧ em.Answerable ∧
    errorType6to4 t p.icmpType p.icmpCode p.icmpRest = .ok (.ok (otype, ocode, oword)) ∧
    env.Maps4 false em.src emSrc ∧ env.Maps4 false em.dst emDst ∧
    IdentFlags em ((em.payloadLen : Int) - em.extLen) ident flags ∧
    rewrite6to4 t.cfg.udpChecksum (em.clip (icmp4MaxLen - 2 * ipv4HdrLen - icmpHdrLen) (by decide))
      emSrc emDst = .ok data ∧ inner = inner6to4 em ident flags emSrc emDst data

/-- The actions a call on a parsed IPv6 packet may perform. -/
inductive Trace6 (env : Env σ) (t : Translator) (p : Packet6) : List Action → Prop
  | report (kind : Kind) (reason : Reason) : Trace6 env t p [.event (p.event kind reason)]
  | complain (kind : Kind) (reason : Reason) (typ code : UInt8) (word : Nat)
      (answerable : p.Answerable) (error : typ = 1 ∨ typ = 2 ∨ typ = 3 ∨ typ = 4)
      (oversized : typ = 2 → word = uint32 t.cfg.mtu ∧ t.cfg.mtu < p.size) :
      Trace6 env t p [.event (p.event kind reason),
        .packet (icmp6Packet 0 t.local6 p.src typ code word p.quote)]
  | echo (accepted : Accepted6 p) (own : p.dst = t.local6) (icmp : p.proto = protoICMPv6)
      (request : p.icmpType = 128) :
      Trace6 env t p [.event (p.event .self .echoRequest), .packet
        (icmp6Packet p.tc p.dst p.src 129 p.icmpCode p.icmpRest (p.data.drop icmpHdrLen))]
  | data {src4 dst4 data : Bytes} {ident flags : Nat}
      (forwarded : Forwarded6 env t p src4 dst4 data)
      (fragment : IdentFlags p p.data.length ident flags) :
      Trace6 env t p [.packet (whole6to4 p ident flags src4 dst4 data), .translated 6 p.size]
  | dataRefused (refused : ¬ env.Willing) : Trace6 env t p []
  | error {otype ocode : UInt8} {oword : Nat} {inner src4 dst4 : Bytes} {ident flags : Nat}
      (forwarded : ErrorForwarded6 env t p otype ocode oword inner) (synth : Bool)
      (src : if synth then src4 = t.local4 else env.Maps4 false p.src src4)
      (dst : env.Maps4 false p.dst dst4)
      (fragment : IdentFlags p (icmpHdrLen + inner.length : Nat) ident flags) :
      Trace6 env t p (synthesised (p.event .icmp .synthesisedSource) synth ++
        [.packet (error6to4 p ident flags src4 dst4 otype ocode oword inner),
          .translated 6 p.size])
  | errorRefused (synth : Bool) (refused : ¬ env.Willing) :
      Trace6 env t p (synthesised (p.event .icmp .synthesisedSource) synth)
  | errorUnmapped (synth : Bool) :
      Trace6 env t p (synthesised (p.event .icmp .synthesisedSource) synth ++
        [.event (p.event .drop .destinationUnmappable)])

/-- The actions a call on bytes from the IPv6 side may perform. -/
inductive Handled6 (env : Env σ) (t : Translator) (raw : Bytes) : List Action → Prop
  | silent (failed : parse6 raw = .error .silent) : Handled6 env t raw []
  | unparsed {e : Event} (failed : parse6 raw = .error (.drop e)) : Handled6 env t raw [.event e]
  | sourceRoute {p : Packet6} {pointer : Nat} {acts : List Action}
      (failed : parse6 raw = .error (.sourceRoute p pointer))
      (answer : acts = [.event (p.event .reject .routingHeaderSegmentsLeft)] ∨
        p.Answerable ∧ acts = [.event (p.event .reject .routingHeaderSegmentsLeft),
          .packet (icmp6Packet 0 t.local6 p.src 4 0 (uint32 pointer) p.quote)]) :
      Handled6 env t raw acts
  | parsed {p : Packet6} {acts : List Action} (found : parse6 raw = .ok p)
      (trace : Trace6 env t p acts) : Handled6 env t raw acts

def Sound6 (env : Env σ) (t : Translator) (p : Packet6) (acts : List Action)
    (result : Checked Unit) : Prop :=
  Trace6 env t p acts ∧ result = .ok ()

section

variable {env : Env σ} {t : Translator} {p : Packet6}

theorem report6_sound (kind : Kind) (reason : Reason) :
    (report (p.event kind reason) : Xl σ Unit).Meets (Sound6 env t p) :=
  meets_act ⟨.report kind reason, rfl⟩

theorem complain6_sound (kind : Kind) (reason : Reason) {typ code : UInt8} {word : Nat}
    (error : typ = 1 ∨ typ = 2 ∨ typ = 3 ∨ typ = 4)
    (oversized : typ = 2 → word = uint32 t.cfg.mtu ∧ t.cfg.mtu < p.size) :
    (report (p.event kind reason) >>= fun _ => complain6 env t typ code word p).Meets
      (Sound6 env t p) := by
  refine meets_act_bind ?_
  unfold complain6
  split
  · rename_i answerable
    refine meets_bind (meets_emit.mono ?_)
    rintro acts result (⟨rfl, rfl⟩ | ⟨rfl, rfl, -⟩)
    · exact meets_pure ⟨.complain kind reason typ code word answerable error oversized, rfl⟩
    · exact meets_pure ⟨.report kind reason, rfl⟩
  · exact meets_pure ⟨.report kind reason, rfl⟩

theorem host6_sound (accepted : Accepted6 p) (own : p.dst = t.local6)
    (icmp : p.proto = protoICMPv6) : (host6 env p).Meets (Sound6 env t p) := by
  unfold host6
  split
  · rename_i request
    refine meets_act_bind (meets_bind (meets_emit.mono ?_))
    rintro acts result (⟨rfl, rfl⟩ | ⟨rfl, rfl, -⟩)
    · exact meets_pure ⟨.echo accepted own icmp request, rfl⟩
    · exact meets_pure ⟨.report .self .echoRequest, rfl⟩
  · exact report6_sound _ _

theorem meets_identFlags (p : Packet6) (len : Int) :
    (identFlags env p len).Meets fun acts result =>
      acts = [] ∧ ∃ ident flags, result = .ok (ident, flags) ∧ IdentFlags p len ident flags := by
  unfold identFlags IdentFlags
  cases p.frag with
  | some f => exact meets_pure ⟨rfl, _, _, rfl, rfl, rfl⟩
  | none =>
    dsimp only
    split
    · exact meets_ask_bind fun w =>
        meets_pure ⟨rfl, _, _, rfl, (env.randomIdent w).1.toNat_lt, rfl⟩
    · exact meets_pure ⟨rfl, _, _, rfl, rfl, rfl⟩

theorem forward6_sound {src4 dst4 : Bytes} (through : Through6 t p)
    (kind : p.proto = protoICMPv6 → p.icmpType = 128 ∨ p.icmpType = 129)
    (dst : env.Maps4 false p.dst dst4) (src : env.Maps4 true p.src src4) :
    (forward6 env t p src4 dst4).Meets (Sound6 env t p) := by
  unfold forward6
  split
  · rename_i large
    exact complain6_sound _ _ (.inr (.inl rfl)) fun _ => ⟨rfl, large⟩
  · rename_i small
    refine meets_bind ((meets_identFlags p p.data.length).mono ?_)
    rintro acts result ⟨rfl, ident, flags, rfl, fragment⟩
    dsimp only
    split
    · exact report6_sound _ _
    · rename_i data payload
      have forwarded : Forwarded6 env t p src4 dst4 data :=
        ⟨through, kind, dst, src, by omega, payload⟩
      refine meets_bind (meets_emit.mono ?_)
      rintro acts result (⟨rfl, rfl⟩ | ⟨rfl, rfl, unwilling⟩)
      · exact meets_act ⟨.data forwarded fragment, rfl⟩
      · exact meets_pure ⟨.dataRefused unwilling, rfl⟩

theorem unmapped6_sound (err : MapError) (reason : Reason) (code : UInt8) :
    (unmapped6 env t err reason code p).Meets (Sound6 env t p) := by
  unfold unmapped6
  split
  · exact complain6_sound _ _ (.inl rfl) fun same => absurd same (by decide)
  · exact report6_sound _ _

theorem data6_sound (through : Through6 t p)
    (kind : p.proto = protoICMPv6 → p.icmpType = 128 ∨ p.icmpType = 129) :
    (data6 env t p).Meets (Sound6 env t p) := by
  refine meets_ask_bind fun w => ?_
  cases dst : (env.to4 false p.dst w).1 with
  | error err => exact unmapped6_sound _ _ _
  | ok dst4 =>
    refine meets_ask_bind fun w' => ?_
    cases src : (env.to4 true p.src w').1 with
    | error err => exact unmapped6_sound _ _ _
    | ok src4 => exact forward6_sound through kind ⟨w, dst⟩ ⟨w', src⟩

/-- The error fields are always found, and no ICMP error turns into an echo
message: the pointer table is only read inside its bounds. -/
theorem errorType6to4_spec (t : Translator) (typ code : UInt8) (word : Nat) :
    ∃ answer, errorType6to4 t typ code word = .ok answer ∧
      ∀ {otype ocode oword}, answer = .ok (otype, ocode, oword) →
        otype = 3 ∨ otype = 11 ∨ otype = 12 := by
  unfold errorType6to4
  simp only [Checked.pure_eq, Checked.ok_bind]
  repeat' split
  all_goals try exact ⟨_, rfl, fun {_ _ _} same => by cases same <;> decide⟩
  rename_i inside
  rw [inRange_of (by simp only [ptrTable6to4, List.length_cons, List.length_nil]; omega),
    Checked.ok_bind]
  split
  · exact ⟨_, rfl, fun {_ _ _} same => by cases same⟩
  · exact ⟨_, rfl, fun {_ _ _} same => by cases same; decide⟩

/-- A translated error is sent with the words drawn for it, or refused. -/
theorem meets_sendError6 {src4 dst4 : Bytes} {otype ocode : UInt8} {oword : Nat} {inner : Bytes} :
    (sendError6 env p src4 dst4 otype ocode oword inner).Meets fun acts result =>
      (∃ ident flags, IdentFlags p (icmpHdrLen + inner.length : Nat) ident flags ∧
        acts = [.packet (error6to4 p ident flags src4 dst4 otype ocode oword inner)] ∧
        result = .ok true) ∨
      (acts = [] ∧ result = .ok false ∧ ¬ env.Willing) := by
  have content : Meets (σ := σ) (ο := Action) (do
      let word ← identFlags env p (icmpHdrLen + inner.length : Nat)
      pure (error6to4 p word.1 word.2 src4 dst4 otype ocode oword inner))
      fun acts result => acts = [] ∧ ∃ b, result = .ok b ∧ ∃ ident flags,
        b = error6to4 p ident flags src4 dst4 otype ocode oword inner ∧
          IdentFlags p (icmpHdrLen + inner.length : Nat) ident flags := by
    refine meets_bind ((meets_identFlags p _).mono ?_)
    rintro acts result ⟨rfl, ident, flags, rfl, fragment⟩
    exact meets_pure ⟨rfl, _, rfl, ident, flags, rfl, fragment⟩
  refine (meets_emitWith content).mono ?_
  rintro acts result (⟨_, ⟨ident, flags, rfl, fragment⟩, rfl, rfl⟩ | refused)
  · exact .inl ⟨ident, flags, fragment, rfl, rfl⟩
  · exact .inr refused

theorem forwardErrorFrom6_sound {otype ocode : UInt8} {oword : Nat} {inner src4 : Bytes}
    (forwarded : ErrorForwarded6 env t p otype ocode oword inner) (synth : Bool)
    (src : if synth then src4 = t.local4 else env.Maps4 false p.src src4) :
    (forwardErrorFrom6 env p src4 otype ocode oword inner).Meets fun acts result =>
      Sound6 env t p (synthesised (p.event .icmp .synthesisedSource) synth ++ acts) result := by
  refine meets_ask_bind fun w => ?_
  cases dst : (env.to4 false p.dst w).1 with
  | error err => exact meets_act ⟨.errorUnmapped synth, rfl⟩
  | ok dst4 =>
    refine meets_bind (meets_sendError6.mono ?_)
    rintro acts result (⟨ident, flags, fragment, rfl, rfl⟩ | ⟨rfl, rfl, unwilling⟩)
    · exact meets_act ⟨.error forwarded synth src ⟨w, dst⟩ fragment, rfl⟩
    · exact meets_pure ⟨by simpa using .errorRefused synth unwilling, rfl⟩

theorem error6_sound (through : Through6 t p) (icmp : p.proto = protoICMPv6)
    (kind : ¬ (p.icmpType = 128 ∨ p.icmpType = 129)) :
    (error6 env t p).Meets (Sound6 env t p) := by
  unfold error6
  split
  · exact report6_sound _ _
  · rename_i raw embedded
    split
    · exact report6_sound _ _
    · rename_i em parsed
      split
      · rename_i answerable
        obtain ⟨answer, found, -⟩ := errorType6to4_spec t p.icmpType p.icmpCode p.icmpRest
        rw [found, lift_ok, pure_bind]
        rcases answer with reason | ⟨otype, ocode, oword⟩
        · exact report6_sound _ _
        · refine meets_ask_bind fun w => meets_ask_bind fun w' => ?_
          split
          · rename_i emSrc emDst src dst
            refine meets_bind ((meets_identFlags em _).mono ?_)
            rintro acts result ⟨rfl, ident, flags, rfl, fragment⟩
            dsimp only
            split
            · exact report6_sound _ _
            · rename_i data payload
              have forwarded : ErrorForwarded6 env t p otype ocode oword
                  (inner6to4 em ident flags emSrc emDst data) :=
                ⟨through, icmp, kind, raw, em, emSrc, emDst, ident, flags, data, embedded, parsed,
                  answerable, found, ⟨w, src⟩, ⟨w', dst⟩, fragment, payload, rfl⟩
              refine meets_ask_bind fun w'' => ?_
              cases router : (env.to4 false p.src w'').1 with
              | ok src4 => exact forwardErrorFrom6_sound forwarded false ⟨w'', router⟩
              | error err =>
                exact meets_act_bind (forwardErrorFrom6_sound forwarded true rfl)
          · exact report6_sound _ _
      · exact report6_sound _ _

theorem receive6_sound (env : Env σ) (t : Translator) (raw : Bytes) :
    (receive6 env t raw).Meets fun acts result => Handled6 env t raw acts ∧ result = .ok () := by
  unfold receive6
  split
  · rename_i failed
    exact meets_pure ⟨.silent failed, rfl⟩
  · rename_i e failed
    exact meets_act ⟨.unparsed failed, rfl⟩
  · rename_i p pointer failed
    refine meets_act_bind ?_
    unfold complain6
    split
    · rename_i answerable
      refine meets_bind (meets_emit.mono ?_)
      rintro acts result (⟨rfl, rfl⟩ | ⟨rfl, rfl, -⟩)
      · exact meets_pure ⟨.sourceRoute failed (.inr ⟨answerable, rfl⟩), rfl⟩
      · exact meets_pure ⟨.sourceRoute failed (.inl rfl), rfl⟩
    · exact meets_pure ⟨.sourceRoute failed (.inl rfl), rfl⟩
  · rename_i p found
    refine @Meets.mono _ _ _ (Sound6 env t p) _ _ ?_
      fun acts result sound => ⟨.parsed found sound.1, sound.2⟩
    split
    · exact report6_sound _ _
    · rename_i header
      split
      · exact report6_sound _ _
      · rename_i message
        have accepted : Accepted6 p := by
          simp only [not_or, not_not] at header
          exact ⟨header.1, header.2, fun icmp => by simpa [icmp] using message⟩
        split
        · rename_i own
          split
          · rename_i icmp
            exact host6_sound accepted own icmp
          · exact complain6_sound _ _ (.inr (.inr (.inr rfl))) fun same =>
              absurd same (by decide)
        · rename_i foreign
          split
          · exact complain6_sound _ _ (.inr (.inr (.inl rfl))) fun same =>
              absurd same (by decide)
          · rename_i alive
            have through : Through6 t p := ⟨accepted, foreign, alive⟩
            split
            · rename_i kind
              exact data6_sound through kind
            · rename_i kind
              simp only [Classical.not_imp] at kind
              exact error6_sound through kind.1 kind.2

end

/-- The actions one call of the translator may perform. -/
inductive Handled (env : Env σ) (t : Translator) (raw : Bytes) : List Action → Prop
  | empty (none : raw.length = 0) : Handled env t raw []
  | unknown (some : raw.length ≠ 0) (not4 : byteAt raw 0 >>> 4 ≠ 4) (not6 : byteAt raw 0 >>> 4 ≠ 6) :
      Handled env t raw
        [.event { kind := .drop, reason := .unknownIPVersion, length := raw.length }]
  | four {acts : List Action} (some : raw.length ≠ 0) (version : byteAt raw 0 >>> 4 = 4)
      (handled : Handled4 env t raw acts) : Handled env t raw acts
  | six {acts : List Action} (some : raw.length ≠ 0) (version : byteAt raw 0 >>> 4 = 6)
      (handled : Handled6 env t raw acts) : Handled env t raw acts

/-- Every call of the translator is one of the traces, and it returns. -/
theorem translate_sound (env : Env σ) (t : Translator) (raw : Bytes) :
    (translate env t raw).Meets fun acts result =>
      Handled env t raw acts ∧ (mtuMin ≤ t.cfg.mtu → result = .ok ()) := by
  rw [translate_eq]
  unfold receive
  split
  · rename_i none
    exact meets_pure ⟨.empty none, fun _ => rfl⟩
  · rename_i some
    split
    · rename_i version
      exact (receive4_sound env t raw).mono fun acts result sound =>
        ⟨.four some version sound.1, sound.2⟩
    · rename_i not4
      split
      · rename_i version
        exact (receive6_sound env t raw).mono fun acts result sound =>
          ⟨.six some version sound.1, fun _ => sound.2⟩
      · rename_i not6
        exact meets_act ⟨.unknown some not4 not6, fun _ => rfl⟩

/-- No packet makes a translator that `New` built slice or index out of range, or
loop: whatever the mapper, the emitter and the random source answer, the call
returns. -/
theorem translate_returns {cfg : Config} {t : Translator} (built : Translator.new cfg = .ok t)
    (usable : mtuMin ≤ cfg.mtu) (env : Env σ) (raw : Bytes) (w : σ) :
    (translate env t raw w).result = .ok () := by
  refine (translate_sound env t raw w).2 ?_
  rw [Translator.new_cfg built, Config.raised_mtu]
  exact usable

/-- A fragment header cut in the middle, and an off-link MTU that is too small. -/
theorem translate_returns_short_fragment :
    ∃ t, Translator.new (Config.sample 1280 0 .calc) = .ok t ∧
      (translate (Env.stateless (fun _ => .error .drop) fun _ => .error .reject) t
        ([0x60, 0, 0, 0, 0, 4, 44, 64] ++ Bytes.ofNat 16 (0x20010db8 * 2 ^ 96 + 2) ++
          Bytes.ofNat 16 (0x20010db8 * 2 ^ 96 + 3) ++ [17, 0, 0, 1]) ()).result = .ok () :=
  have built : ∃ t, Translator.new (Config.sample 1280 0 .calc) = .ok t := ⟨_, rfl⟩
  built.imp fun _ found => ⟨found, translate_returns found (by decide) _ _ _⟩

end Clatto.Xlate
