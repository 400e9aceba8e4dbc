import Clatto.Xlate.Transparency

/-! What a call sends, without the events around it: one case for each place of the
translator that asks for a buffer. -/

namespace Clatto.Xlate

open Bytes

variable {σ : Type}

theorem mem_packets {acts : List Action} {q : Bytes} : q ∈ packets acts ↔ .packet q ∈ acts := by
  refine List.mem_filterMap.trans ⟨fun ⟨act, member, same⟩ => ?_, fun member => ⟨_, member, rfl⟩⟩
  cases act with
  | packet b =>
    cases same
    exact member
  | event e => cases same
  | translated family length => cases same

inductive Sends (env : Env σ) (t : Translator) (raw : Bytes) : List Bytes → Prop
  | nothing : Sends env t raw []
  | complaint4 {p : Packet4} (found : parse4 raw = .ok p) {typ code : UInt8} {word : Nat}
      (accepted : Accepted4 p) (error : typ = 3 ∨ typ = 11)
      (oversized : typ = 3 → code = 4 →
        word = uint32 (t.cfg.mtu - mtuAdj) ∧ t.cfg.mtu - mtuAdj < p.size) :
      Sends env t raw [icmp4Packet 0 t.local4 p.src typ code word p.quote]
  | reply4 {p : Packet4} (found : parse4 raw = .ok p) (accepted : Accepted4 p)
      (own : p.dst = t.local4) (icmp : p.proto = protoICMP) :
      Sends env t raw
        [icmp4Packet p.tos p.dst p.src 0 p.icmpCode p.icmpRest (p.data.drop icmpHdrLen)]
  | data4 {p : Packet4} (found : parse4 raw = .ok p) {src6 dst6 data : Bytes}
      (forwarded : Forwarded4 env t p src6 dst6 data) {whole : Bool}
      (fits : noFragHdr t p.flagsOff t.room p.hdr.length p.data.length = some whole)
      {sent : List Bytes}
      (pieces : mtuMin ≤ t.cfg.mtu → sent <+: pieces4to6 t p src6 dst6 data whole) :
      Sends env t raw sent
  | error4 {p : Packet4} (found : parse4 raw = .ok p) {otype ocode : UInt8} {oword : Nat}
      {inner src6 dst6 : Bytes} (forwarded : ErrorForwarded4 env t p otype ocode oword inner)
      (src : src6 = t.local6 ∨ env.Maps6 p.src src6) (dst : env.Maps6 p.dst dst6) :
      Sends env t raw [error4to6 p src6 dst6 otype ocode oword inner]
  | complaint6 {p : Packet6} (parsed : Parsed6 raw p) {typ code : UInt8} {word : Nat}
      (error : typ = 1 ∨ typ = 2 ∨ typ = 3 ∨ typ = 4)
      (oversized : typ = 2 → parse6 raw = .ok p ∧ word = uint32 t.cfg.mtu ∧ t.cfg.mtu < p.size) :
      Sends env t raw [icmp6Packet 0 t.local6 p.src typ code word p.quote]
  | reply6 {p : Packet6} (found : parse6 raw = .ok p) (accepted : Accepted6 p)
      (own : p.dst = t.local6) (icmp : p.proto = protoICMPv6) :
      Sends env t raw
        [icmp6Packet p.tc p.dst p.src 129 p.icmpCode p.icmpRest (p.data.drop icmpHdrLen)]
  | data6 {p : Packet6} (found : parse6 raw = .ok p) {src4 dst4 data : Bytes} {ident flags : Nat}
      (forwarded : Forwarded6 env t p src4 dst4 data)
      (fragment : IdentFlags p p.data.length ident flags) :
      Sends env t raw [whole6to4 p ident flags src4 dst4 data]
  | error6 {p : Packet6} (found : parse6 raw = .ok p) {otype ocode : UInt8} {oword : Nat}
      {inner src4 dst4 : Bytes} {ident flags : Nat}
      (forwarded : ErrorForwarded6 env t p otype ocode oword inner)
      (src : src4 = t.local4 ∨ env.Maps4 false p.src src4) (dst : env.Maps4 false p.dst dst4)
      (fragment : IdentFlags p (icmpHdrLen + inner.length : Nat) ident flags) :
      Sends env t raw [error6to4 p ident flags src4 dst4 otype ocode oword inner]

section

variable {env : Env σ} {t : Translator} {raw : Bytes} {acts : List Action}

theorem Env.Maps6.length {a b : Bytes} (mapped : env.Maps6 a b) : b.length = 16 :=
  mapped.elim fun _ => Env.to6_length

theorem Env.Maps4.length {allocate : Bool} {a b : Bytes} (mapped : env.Maps4 allocate a b) :
    b.length = 4 :=
  mapped.elim fun _ => Env.to4_length

/-- The source of a translated error, the translator or a mapped router. -/
theorem length_source6 {a src6 : Bytes} (src : src6 = t.local6 ∨ env.Maps6 a src6) :
    src6.length = 16 := by
  rcases src with rfl | mapped
  · exact t.local6_length
  · exact mapped.length

theorem length_source4 {a src4 : Bytes} (src : src4 = t.local4 ∨ env.Maps4 false a src4) :
    src4.length = 4 := by
  rcases src with rfl | mapped
  · exact t.local4_length
  · exact mapped.length

theorem Trace4.sends {p : Packet4} (found : parse4 raw = .ok p) (trace : Trace4 env t p acts) :
    Sends env t raw (packets acts) := by
  cases trace with
  | report => exact .nothing
  | complain _ _ typ code word accepted answerable error oversized =>
    exact .complaint4 found accepted error oversized
  | echo accepted own icmp => exact .reply4 found accepted own icmp
  | data forwarded whole fits sent done shape pieces =>
    have same : packets (sent.map .packet ++ if done then [.translated 4 p.size] else []) = sent := by
      rw [packets_append, packets_map]
      cases done <;> exact List.append_nil _
    rw [same]
    exact .data4 found forwarded fits fun usable => pieces (roomy_of_usable usable _)
  | error forwarded synth src dst =>
    cases synth with
    | true => exact .error4 found forwarded (.inl src) dst
    | false => exact .error4 found forwarded (.inr src) dst
  | errorRefused synth => cases synth <;> exact .nothing
  | errorUnmapped synth => cases synth <;> exact .nothing

theorem Trace6.sends {p : Packet6} (found : parse6 raw = .ok p) (trace : Trace6 env t p acts) :
    Sends env t raw (packets acts) := by
  cases trace with
  | report => exact .nothing
  | complain _ _ typ code word answerable error oversized =>
    exact .complaint6 (parse6_ok found) error fun big => ⟨found, oversized big⟩
  | echo accepted own icmp => exact .reply6 found accepted own icmp
  | data forwarded fragment => exact .data6 found forwarded fragment
  | dataRefused => exact .nothing
  | error forwarded synth src dst fragment =>
    cases synth with
    | true => exact .error6 found forwarded (.inl src) dst fragment
    | false => exact .error6 found forwarded (.inr src) dst fragment
  | errorRefused synth => cases synth <;> exact .nothing
  | errorUnmapped synth => cases synth <;> exact .nothing

theorem Handled.sends (handled : Handled env t raw acts) : Sends env t raw (packets acts) := by
  cases handled with
  | empty => exact .nothing
  | unknown => exact .nothing
  | four _ _ handled =>
    cases handled with
    | unparsed => exact .nothing
    | parsed found trace => exact trace.sends found
  | six _ _ handled =>
    cases handled with
    | silent => exact .nothing
    | unparsed => exact .nothing
    | sourceRoute failed answer =>
      rcases answer with rfl | ⟨-, rfl⟩
      · exact .nothing
      · exact .complaint6 (parse6_reads (.inr ⟨_, failed⟩)) (.inr (.inr (.inr rfl)))
          fun big => absurd big (by decide)
    | parsed found trace => exact trace.sends found

end

theorem translate_sends (env : Env σ) (t : Translator) (raw : Bytes) (w : σ) :
    Sends env t raw (packets (translate env t raw w).acts) :=
  (translate_sound env t raw w).1.sends

end Clatto.Xlate
