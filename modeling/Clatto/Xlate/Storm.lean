import Mathlib.Data.List.Range
import Clatto.Xlate.ReadBack

/-! Packets that are fed back into the translator die out: every one it emits
ranks below the one it was emitted for. -/

namespace Clatto.Xlate

open Bytes

/-- Some call on `raw` emits `q`, whatever the mapper answers. -/
def Emits (t : Translator) (raw q : Bytes) : Prop :=
  ∃ (σ : Type) (env : Env σ) (w : σ), .packet q ∈ (translate env t raw w).acts

/-- The byte that counts down, in either family. -/
def hopLimit (raw : Bytes) : Nat :=
  (if byteAt raw 0 >>> 4 = 4 then byteAt raw 8 else byteAt raw 7).toNat

/-- The translator may answer the packet with a message of its own. -/
def Answered (raw : Bytes) : Prop :=
  (∃ p, Parsed4 raw p ∧ p.Answerable) ∨ ∃ p, Parsed6 raw p ∧ p.Answerable

open Classical in
/-- Messages of the translator start at 64 hops, so a packet that may be answered
ranks above every packet that may not. -/
noncomputable def rank (raw : Bytes) : Nat :=
  if Answered raw then 64 + max 1 (hopLimit raw) else hopLimit raw

theorem rank_of_answered {raw : Bytes} (answered : Answered raw) :
    rank raw = 64 + max 1 (hopLimit raw) := if_pos answered

theorem rank_of_silent {raw : Bytes} (silent : ¬ Answered raw) : rank raw = hopLimit raw :=
  if_neg silent

theorem rank_le (raw : Bytes) : rank raw ≤ 64 + max 1 (hopLimit raw) := by
  unfold rank
  split <;> omega

theorem hopLimit_lt (raw : Bytes) : hopLimit raw < 256 := UInt8.toNat_lt _

theorem hopLimit_le_rank (raw : Bytes) : hopLimit raw ≤ rank raw := by
  unfold rank
  split <;> omega

theorem headerLen4_sealed (tos : UInt8) (len ident flags : Nat) (ttl proto : UInt8)
    (src dst z : Bytes) :
    headerLen4 (sealedIPv4Header tos len ident flags ttl proto src dst ++ z) = 20 := by
  rw [headerLen4, sealedIPv4Header, ipv4Header_first]
  rfl

theorem silent_icmp4 {src dst : Bytes} (hs : src.length = 4) (hd : dst.length = 4) (tos : UInt8)
    (len ident flags : Nat) (ttl : UInt8) {z : Bytes} (other : byteAt z 0 ≠ 8) :
    ¬ Answered (sealedIPv4Header tos len ident flags ttl protoICMP src dst ++ z) := by
  rintro (⟨p, parsed, answerable⟩ | ⟨p, parsed, -⟩)
  · have icmp : p.proto = protoICMP := parsed.byteAt_hdr (by omega)
    have long := p.icmp_ge icmp
    have front : (sealedIPv4Header tos len ident flags ttl protoICMP src dst).length = 20 := by
      simp [sealedIPv4Header, hs, hd]
    have type : p.icmpType = byteAt z 0 := by
      have bound : 20 < dataEnd4 (sealedIPv4Header tos len ident flags ttl protoICMP src dst ++ z) := by
        rw [parsed.data, headerLen4_sealed, length_sub] at long
        omega
      rw [Packet4.icmpType, parsed.data, headerLen4_sealed, byteAt_sub (by omega),
        byteAt_append_right (by omega), front]
    exact other (type ▸ answerable icmp)
  · exact absurd parsed.version (show ¬ (0x45 : UInt8) >>> 4 = 6 by decide)

theorem silent_icmp6 {src dst : Bytes} (hs : src.length = 16) (hd : dst.length = 16) (tc : UInt8)
    (len : Nat) (hop : UInt8) {z : Bytes} (other : byteAt z 0 ≠ 128) :
    ¬ Answered (ipv6Header tc len protoICMPv6 hop src dst ++ z) := by
  rintro (⟨p, parsed, -⟩ | ⟨p, parsed, answerable⟩)
  · have version := parsed.version
    rw [ipv6Header_version] at version
    exact absurd version (by decide)
  · obtain ⟨b, splits, -, -, proto, data⟩ := parsed.body_plain (by rw [ipv6Header_next]; decide)
    rw [ipv6Header_next, splitFrag, if_neg (by decide)] at splits
    cases splits
    have icmp : p.proto = protoICMPv6 := proto
    have long := p.icmp_ge icmp
    have front : (ipv6Header tc len protoICMPv6 hop src dst).length = 40 := by simp [hs, hd]
    have type : p.icmpType = byteAt z 0 := by
      have bound : 40 < dataEnd6 (ipv6Header tc len protoICMPv6 hop src dst ++ z) := by
        rw [data, length_sub] at long
        omega
      rw [Packet6.icmpType, data, byteAt_sub (by omega), byteAt_append_right (by omega), front]
    exact other (type ▸ answerable icmp)

theorem fragHeader_flags (next : UInt8) (word ident : Nat) (z : Bytes) :
    be16 (fragHeader next word ident ++ z) 2 = word % 65536 := be16_enc16 word (enc32 ident ++ z)

/-- A fragment of an ICMPv6 message does not parse, unless it is all of it. -/
theorem silent_fragment6 {src dst : Bytes} (hs : src.length = 16) (hd : dst.length = 16)
    (tc : UInt8) (len : Nat) (hop : UInt8) (word ident : Nat) {z : Bytes}
    (other : word % 65536 &&& (ip6FragMask ||| ip6FragMF) ≠ 0 ∨ byteAt z 0 ≠ 128) :
    ¬ Answered (ipv6Header tc len protoFrag hop src dst ++
      (fragHeader protoICMPv6 word ident ++ z)) := by
  rintro (⟨p, parsed, -⟩ | ⟨p, parsed, answerable⟩)
  · have version := parsed.version
    rw [ipv6Header_version] at version
    exact absurd version (by decide)
  · have front : (ipv6Header tc len protoFrag hop src dst).length = 40 := by simp [hs, hd]
    obtain ⟨b, splits, -, frag, proto, data⟩ := parsed.body_plain (by rw [ipv6Header_next]; decide)
    rw [ipv6Header_next] at splits
    generalize stop : dataEnd6 (ipv6Header tc len protoFrag hop src dst ++
      (fragHeader protoICMPv6 word ident ++ z)) = e at splits
    have cut : sub (ipv6Header tc len protoFrag hop src dst ++
        (fragHeader protoICMPv6 word ident ++ z)) 40 e =
        (fragHeader protoICMPv6 word ident ++ z).take (e - 40) := by
      rw [sub, List.drop_take, ← front, List.drop_left]
    rw [cut] at splits
    obtain ⟨long, header, next, rest⟩ := splitFrag_some splits
    rw [List.length_take] at long
    have body : (fragHeader protoICMPv6 word ident ++ z).take (e - 40) =
        fragHeader protoICMPv6 word ident ++ z.take (e - 48) := by
      rw [List.take_append, List.take_of_length_le (by rw [length_fragHeader]; omega),
        length_fragHeader, Nat.sub_sub]
    rw [body] at header next rest
    have icmp : p.proto = protoICMPv6 := proto.trans next
    have flags : p.offFlags = word % 65536 := by
      rw [Packet6.offFlags, frag, header]
      exact fragHeader_flags _ _ _ _
    have accepted := parsed.accepted
    rw [icmp, flags, proto6Reason, if_pos rfl] at accepted
    rcases other with fragmented | other
    · rw [if_pos fragmented] at accepted
      cases accepted
    · have content : p.data = z.take (e - 48) := data.trans rest
      have some := p.icmp_ge icmp
      rw [content, List.length_take] at some
      have type : p.icmpType = byteAt z 0 := by
        rw [Packet6.icmpType, content, byteAt_take (by omega)]
      exact other (type ▸ answerable icmp)

/-- `q` comes strictly after `raw`, and is not the end yet. -/
def Below (raw q : Bytes) : Prop := 1 ≤ rank q ∧ rank q < rank raw

theorem below_of_message {raw q : Bytes} (answered : Answered raw) (silent : ¬ Answered q)
    (hop : hopLimit q = 64) : Below raw q := by
  rw [Below, rank_of_silent silent, rank_of_answered answered]
  omega

theorem below_of_forward {raw q : Bytes} (some : 1 ≤ hopLimit q)
    (hop : hopLimit q + 1 = hopLimit raw) (silent : ¬ Answered raw → ¬ Answered q) :
    Below raw q := by
  refine ⟨some.trans (hopLimit_le_rank q), ?_⟩
  by_cases answered : Answered raw
  · have bound := rank_le q
    rw [rank_of_answered answered]
    omega
  · rw [rank_of_silent answered, rank_of_silent (silent answered)]
    omega

theorem hopLimit_sealed (tos : UInt8) (len ident flags : Nat) (ttl proto : UInt8)
    (src dst z : Bytes) :
    hopLimit (sealedIPv4Header tos len ident flags ttl proto src dst ++ z) = ttl.toNat := by
  rw [hopLimit, sealedIPv4Header, ipv4Header_first, ipv4Header_ttl, if_pos (by decide)]

theorem hopLimit_ipv6 (tc : UInt8) (len : Nat) (next hop : UInt8) (src dst z : Bytes) :
    hopLimit (ipv6Header tc len next hop src dst ++ z) = hop.toNat := by
  rw [hopLimit, ipv6Header_version, ipv6Header_hop, if_neg (by decide)]

theorem Parsed4.hopLimit {raw : Bytes} {p : Packet4} (parsed : Parsed4 raw p) :
    Xlate.hopLimit raw = p.ttl.toNat := by
  rw [Xlate.hopLimit, if_pos parsed.version, Packet4.ttl, parsed.byteAt_hdr (by omega)]

theorem Parsed6.hopLimit {raw : Bytes} {p : Packet6} (parsed : Parsed6 raw p) :
    Xlate.hopLimit raw = p.hop.toNat := by
  rw [Xlate.hopLimit, parsed.version, if_neg (by decide), Packet6.hop,
    parsed.byteAt_hdr (by omega)]

/-- A hop limit that was accepted survives being taken down by one. -/
theorem hop_survives {hop : UInt8} (alive : hop ≠ 0) (not_last : hop ≠ 1) :
    1 ≤ (hop - 1).toNat ∧ (hop - 1).toNat + 1 = hop.toNat := by
  have zero : hop.toNat ≠ 0 := fun h => alive (UInt8.toNat_inj.mp h)
  have one : hop.toNat ≠ 1 := fun h => not_last (UInt8.toNat_inj.mp h)
  have pred := @toNat_pred hop (by omega)
  omega

section

variable {σ : Type} {env : Env σ} {t : Translator} {raw q : Bytes} {acts : List Action}

/-- An ICMP message that is not a request is not a fragment either, and stays
what it is. -/
theorem reply4 {p : Packet4} (parsed : Parsed4 raw p) (silent : ¬ Answered raw)
    {mode : UDPChecksumMode} {src6 dst6 data : Bytes} (payload : rewrite4to6 mode p src6 dst6 = .ok data) :
    p.proto = protoICMP ∧ p.flagsOff &&& ip4OffMask = 0 ∧ byteAt data 0 = 129 := by
  have unanswerable : ¬ p.Answerable := fun answerable => silent (.inl ⟨p, parsed, answerable⟩)
  rw [Packet4.Answerable, Classical.not_imp] at unanswerable
  obtain ⟨icmp, other⟩ := unanswerable
  have start := (parsed.icmp_whole icmp).1
  refine ⟨icmp, start, ?_⟩
  rw [rewrite4to6, if_neg (not_not.mpr start), if_pos icmp, echo4to6, if_neg other] at payload
  cases payload
  exact byteAt_retype (p.icmp_ge icmp) _ _

theorem reply6 {p : Packet6} (parsed : Parsed6 raw p) (silent : ¬ Answered raw)
    {mode : UDPChecksumMode} {src4 dst4 data : Bytes}
    (payload : rewrite6to4 mode p src4 dst4 = .ok data) :
    p.proto = protoICMPv6 ∧ byteAt data 0 = 0 := by
  have unanswerable : ¬ p.Answerable := fun answerable => silent (.inr ⟨p, parsed, answerable⟩)
  rw [Packet6.Answerable, Classical.not_imp] at unanswerable
  obtain ⟨icmp, other⟩ := unanswerable
  have start := (parsed.icmp_whole icmp).1
  refine ⟨icmp, ?_⟩
  rw [rewrite6to4, if_neg (not_not.mpr start), if_pos icmp, echo6to4, if_neg other] at payload
  cases payload
  exact byteAt_retype (p.icmp_ge icmp) _ _

theorem later_fragment {k : Nat} (later : 0 < k) (aligned : k % 8 = 0) (small : k < 65536)
    (mf : Bool) (len n : Nat) :
    fragFlags mf k len n % 65536 &&& (ip6FragMask ||| ip6FragMF) ≠ 0 := by
  intro zero
  rw [Nat.and_or_distrib_left, Nat.or_eq_zero_iff] at zero
  have offset := (fragFlags_eq aligned small mf len n).1
  have bound : fragFlags mf k len n % 65536 < 65536 := Nat.mod_lt _ (by omega)
  generalize fragFlags mf k len n % 65536 = word at zero offset bound
  have upper : (word &&& ip6FragMask) / 2 ^ 3 = word / 2 ^ 3 % 2 ^ 13 := by
    rw [Nat.and_div_two_pow, ← Nat.and_two_pow_sub_one_eq_mod]
    rfl
  rw [zero.1] at upper
  omega

theorem piece4_below {p : Packet4} (parsed : Parsed4 raw p) {src6 dst6 data : Bytes}
    (forwarded : Forwarded4 env t p src6 dst6 data) {whole : Bool}
    (piece : IsPiece4 t p src6 dst6 data whole q) : Below raw q := by
  obtain ⟨_, src⟩ := forwarded.src
  obtain ⟨_, dst⟩ := forwarded.dst
  have hs := Env.to6_length src
  have hd := Env.to6_length dst
  obtain ⟨some, pred⟩ := hop_survives forwarded.ttl forwarded.alive
  cases whole with
  | true =>
    obtain rfl : q = whole4to6 p src6 dst6 data := piece
    refine below_of_forward (by rwa [whole4to6, hopLimit_ipv6])
      (by rwa [whole4to6, hopLimit_ipv6, parsed.hopLimit]) fun silent => ?_
    obtain ⟨icmp, -, reply⟩ := reply4 parsed silent forwarded.payload
    have next : p.next = protoICMPv6 := if_pos icmp
    rw [whole4to6, next]
    exact silent_icmp6 hs hd _ _ _ (by rw [reply]; decide)
  | false =>
    obtain ⟨k, aligned, inside, rfl⟩ := piece
    generalize min (data.length - k) t.fragRoom.toNat = n
    refine below_of_forward (by rwa [fragment4to6, hopLimit_ipv6])
      (by rwa [fragment4to6, hopLimit_ipv6, parsed.hopLimit]) fun silent => ?_
    obtain ⟨icmp, start, reply⟩ := reply4 parsed silent forwarded.payload
    have next : p.next = protoICMPv6 := if_pos icmp
    rw [fragment4to6, next, start, Nat.zero_mul, Nat.zero_add]
    refine silent_fragment6 hs hd _ _ _ _ _ ?_
    rcases Nat.eq_zero_or_pos k with rfl | later
    · right
      rw [List.drop_zero]
      rcases Nat.eq_zero_or_pos n with rfl | positive
      · rw [List.take_zero]
        decide
      · rw [byteAt_take positive, reply]
        decide
    · left
      have size : p.hdr.length + p.data.length < 65536 := by
        have total := forwarded.size
        rw [Packet4.size] at total
        rw [total]
        exact be16_lt _ _
      have width := length_rewrite4to6 forwarded.payload
      exact later_fragment later aligned (by omega) _ _ _

theorem error4_below {p : Packet4} (parsed : Parsed4 raw p) {otype ocode : UInt8} {oword : Nat}
    {inner src6 dst6 : Bytes} (forwarded : ErrorForwarded4 env t p otype ocode oword inner)
    (synth : Bool) (src : if synth then src6 = t.local6 else env.Maps6 p.src src6)
    (dst : env.Maps6 p.dst dst6) : Below raw (error4to6 p src6 dst6 otype ocode oword inner) := by
  have hs : src6.length = 16 := by
    cases synth with
    | true => rw [show src6 = t.local6 from src, t.local6_length]
    | false =>
      obtain ⟨_, mapped⟩ : env.Maps6 p.src src6 := src
      exact Env.to6_length mapped
  obtain ⟨_, mapped⟩ := dst
  have hd := Env.to6_length mapped
  obtain ⟨some, pred⟩ := hop_survives forwarded.ttl forwarded.alive
  have next : p.next = protoICMPv6 := if_pos forwarded.icmp
  obtain ⟨_, em, _, _, _, _, _, _, _, _, found, _⟩ := forwarded.embedded
  obtain ⟨_, answer, error⟩ := errorType4to6_spec t p.icmpType p.icmpCode p.icmpRest em.total
  cases found.symm.trans answer
  refine below_of_forward (by rwa [error4to6, hopLimit_ipv6])
    (by rwa [error4to6, hopLimit_ipv6, parsed.hopLimit]) fun _ => ?_
  rw [error4to6, next]
  refine silent_icmp6 hs hd _ _ _ (show otype ≠ 128 from ?_)
  rcases error rfl with rfl | rfl | rfl | rfl <;> decide

theorem trace4_below {p : Packet4} (parsed : Parsed4 raw p) (trace : Trace4 env t p acts)
    (sent : .packet q ∈ acts) : Below raw q := by
  cases trace with
  | report => simp at sent
  | complain kind reason typ code word accepted answerable error oversized =>
    obtain rfl : q = icmp4Packet 0 t.local4 p.src typ code word p.quote := by simpa using sent
    refine below_of_message (.inl ⟨p, parsed, answerable⟩) ?_ (hopLimit_sealed ..)
    refine silent_icmp4 t.local4_length p.length_src _ _ _ _ _ (show typ ≠ 8 from ?_)
    rcases error with rfl | rfl <;> decide
  | echo accepted own icmp request =>
    obtain rfl : q = icmp4Packet p.tos p.dst p.src 0 p.icmpCode p.icmpRest
      (p.data.drop icmpHdrLen) := by simpa using sent
    refine below_of_message (.inl ⟨p, parsed, fun _ => request⟩) ?_ (hopLimit_sealed ..)
    exact silent_icmp4 p.length_dst p.length_src _ _ _ _ _ (show (0 : UInt8) ≠ 8 by decide)
  | data forwarded whole fits pieces done shape =>
    have member : q ∈ pieces := by
      rcases List.mem_append.mp sent with member | member
      · simpa using member
      · cases done <;> simp at member
    exact piece4_below parsed forwarded (shape q member)
  | @error otype ocode oword inner src6 dst6 forwarded synth src dst =>
    obtain rfl : q = error4to6 p src6 dst6 otype ocode oword inner := by
      cases synth <;> simpa [synthesised] using sent
    exact error4_below parsed forwarded synth src dst
  | errorRefused synth => cases synth <;> simp [synthesised] at sent
  | errorUnmapped synth => cases synth <;> simp [synthesised] at sent

theorem whole6_below {p : Packet6} (parsed : Parsed6 raw p) {src4 dst4 data : Bytes}
    (forwarded : Forwarded6 env t p src4 dst4 data) (ident flags : Nat) :
    Below raw (whole6to4 p ident flags src4 dst4 data) := by
  obtain ⟨_, src⟩ := forwarded.src
  obtain ⟨_, dst⟩ := forwarded.dst
  obtain ⟨some, pred⟩ := hop_survives forwarded.hop forwarded.alive
  refine below_of_forward (by rwa [whole6to4, hopLimit_sealed])
    (by rwa [whole6to4, hopLimit_sealed, parsed.hopLimit]) fun silent => ?_
  obtain ⟨icmp, reply⟩ := reply6 parsed silent forwarded.payload
  have next : p.next = protoICMP := if_pos icmp
  rw [whole6to4, next]
  exact silent_icmp4 (Env.to4_length src) (Env.to4_length dst) _ _ _ _ _ (by rw [reply]; decide)

theorem error6_below {p : Packet6} (parsed : Parsed6 raw p) {otype ocode : UInt8} {oword : Nat}
    {inner src4 dst4 : Bytes} (forwarded : ErrorForwarded6 env t p otype ocode oword inner)
    (synth : Bool) (src : if synth then src4 = t.local4 else env.Maps4 false p.src src4)
    (dst : env.Maps4 false p.dst dst4) (ident flags : Nat) :
    Below raw (error6to4 p ident flags src4 dst4 otype ocode oword inner) := by
  have hs : src4.length = 4 := by
    cases synth with
    | true => rw [show src4 = t.local4 from src, t.local4_length]
    | false =>
      obtain ⟨_, mapped⟩ : env.Maps4 false p.src src4 := src
      exact Env.to4_length mapped
  obtain ⟨_, mapped⟩ := dst
  have hd := Env.to4_length mapped
  obtain ⟨some, pred⟩ := hop_survives forwarded.hop forwarded.alive
  have next : p.next = protoICMP := if_pos forwarded.icmp
  obtain ⟨_, em, _, _, _, _, _, _, _, _, found, _⟩ := forwarded.embedded
  obtain ⟨_, answer, error⟩ := errorType6to4_spec t p.icmpType p.icmpCode p.icmpRest
  cases found.symm.trans answer
  refine below_of_forward (by rwa [error6to4, hopLimit_sealed])
    (by rwa [error6to4, hopLimit_sealed, parsed.hopLimit]) fun _ => ?_
  rw [error6to4, next]
  refine silent_icmp4 hs hd _ _ _ _ _ (show otype ≠ 8 from ?_)
  rcases error rfl with rfl | rfl | rfl <;> decide

theorem complain6_below {p : Packet6} (parsed : Parsed6 raw p) (answerable : p.Answerable)
    {typ : UInt8} (error : typ = 1 ∨ typ = 2 ∨ typ = 3 ∨ typ = 4) (code : UInt8) (word : Nat) :
    Below raw (icmp6Packet 0 t.local6 p.src typ code word p.quote) := by
  refine below_of_message (.inr ⟨p, parsed, answerable⟩) ?_ (hopLimit_ipv6 ..)
  refine silent_icmp6 t.local6_length p.length_src _ _ _ (show typ ≠ 128 from ?_)
  rcases error with rfl | rfl | rfl | rfl <;> decide

theorem trace6_below {p : Packet6} (parsed : Parsed6 raw p) (trace : Trace6 env t p acts)
    (sent : .packet q ∈ acts) : Below raw q := by
  cases trace with
  | report => simp at sent
  | complain kind reason typ code word answerable error oversized =>
    obtain rfl : q = icmp6Packet 0 t.local6 p.src typ code word p.quote := by simpa using sent
    exact complain6_below parsed answerable error code word
  | echo accepted own icmp request =>
    obtain rfl : q = icmp6Packet p.tc p.dst p.src 129 p.icmpCode p.icmpRest
      (p.data.drop icmpHdrLen) := by simpa using sent
    refine below_of_message (.inr ⟨p, parsed, fun _ => request⟩) ?_ (hopLimit_ipv6 ..)
    exact silent_icmp6 p.length_dst p.length_src _ _ _ (show (129 : UInt8) ≠ 128 by decide)
  | @data src4 dst4 data ident flags forwarded fragment =>
    obtain rfl : q = whole6to4 p ident flags src4 dst4 data := by simpa using sent
    exact whole6_below parsed forwarded ident flags
  | dataRefused => cases sent
  | @error otype ocode oword inner src4 dst4 ident flags forwarded synth src dst fragment =>
    obtain rfl : q = error6to4 p ident flags src4 dst4 otype ocode oword inner := by
      cases synth <;> simpa [synthesised] using sent
    exact error6_below parsed forwarded synth src dst ident flags
  | errorRefused synth => cases synth <;> simp [synthesised] at sent
  | errorUnmapped synth => cases synth <;> simp [synthesised] at sent

/-- Whatever a call emits ranks below the packet it was called for. -/
theorem handled_below (handled : Handled env t raw acts) (sent : .packet q ∈ acts) :
    Below raw q := by
  cases handled with
  | empty => cases sent
  | unknown => simp at sent
  | four _ _ handled =>
    cases handled with
    | unparsed => simp at sent
    | parsed found trace => exact trace4_below (parse4_ok found) trace sent
  | six _ _ handled =>
    cases handled with
    | silent => cases sent
    | unparsed => simp at sent
    | @sourceRoute p pointer _ failed answer =>
      rcases answer with rfl | ⟨answerable, rfl⟩
      · simp at sent
      · obtain rfl : q = icmp6Packet 0 t.local6 p.src 4 0 (uint32 pointer) p.quote := by
          simpa using sent
        exact complain6_below (parse6_reads (.inr ⟨pointer, failed⟩)) answerable
          (.inr (.inr (.inr rfl))) _ _
    | parsed found trace => exact trace6_below (parse6_ok found) trace sent

end

theorem emits_below {t : Translator} {raw q : Bytes} (emits : Emits t raw q) : Below raw q := by
  obtain ⟨σ, env, w, sent⟩ := emits
  exact handled_below (translate_sound env t raw w).1 sent

/-- A chain that goes down at every step is no longer than the rank it starts at. -/
theorem chain_length_le {first : Bytes} {rest : List Bytes}
    (chain : List.IsChain Below (first :: rest)) : (first :: rest).length ≤ max 1 (rank first) := by
  induction rest generalizing first with
  | nil => simp
  | cons next rest ih =>
    rw [List.isChain_cons_cons] at chain
    obtain ⟨⟨some, less⟩, tail⟩ := chain
    have bound := ih tail
    simp only [List.length_cons] at bound ⊢
    omega

theorem rank_bound (raw : Bytes) : max 1 (rank raw) ≤ 255 + 64 := by
  have := rank_le raw
  have := hopLimit_lt raw
  omega

/-- Feeding emitted packets back into the translator cannot go on: a chain of
packets, each emitted for the one before it under whatever mapper, takes at
most 255 + 64 calls, so none goes on for ever. -/
theorem chain_bounded (t : Translator) :
    (∀ chain : List Bytes, chain.IsChain (Emits t) → chain.length ≤ 255 + 64) ∧
      ¬ ∃ feed : Nat → Bytes, ∀ i, Emits t (feed i) (feed (i + 1)) := by
  have bounded : ∀ chain : List Bytes, chain.IsChain (Emits t) → chain.length ≤ 255 + 64 := by
    intro chain fed
    cases chain with
    | nil => simp
    | cons first rest =>
      exact (chain_length_le (fed.imp fun _ _ => emits_below)).trans (rank_bound first)
  refine ⟨bounded, ?_⟩
  rintro ⟨feed, fed⟩
  have long := bounded ((List.range 320).map feed) (by
    rw [List.isChain_map]
    exact (List.isChain_range _ _).mpr fun i _ => fed i)
  simp at long

/-- A datagram that crosses to IPv6 and back. -/
theorem chain_bounded_crossing :
    let chain : List Bytes := [
      [69, 0, 0, 32, 0, 7, 0, 0, 64, 17, 142, 112, 192, 0, 2, 33, 198, 51, 100, 1,
        48, 57, 0, 53, 0, 12, 223, 11, 1, 2, 3, 4],
      [96, 0, 0, 0, 0, 12, 17, 63, 0, 100, 255, 155, 0, 0, 0, 0, 0, 0, 0, 0, 192, 0, 2, 33,
        0, 100, 255, 155, 0, 0, 0, 0, 0, 0, 0, 0, 198, 51, 100, 1,
        48, 57, 0, 53, 0, 12, 223, 11, 1, 2, 3, 4],
      [69, 0, 0, 32, 0, 0, 0, 0, 62, 17, 144, 119, 192, 0, 2, 33, 198, 51, 100, 1,
        48, 57, 0, 53, 0, 12, 223, 11, 1, 2, 3, 4]]
    chain.IsChain (Emits (.sample 1500 .calc)) ∧ chain.length ≤ 255 + 64 := by
  intro chain
  have fed : chain.IsChain (Emits (.sample 1500 .calc)) := by
    refine .cons_cons ⟨Unit, Env.sample, (), ?_⟩ (.cons_cons ⟨Unit, Env.sample, (), ?_⟩ (.singleton _))
    · decide +kernel
    · decide +kernel
  exact ⟨fed, (chain_bounded _).1 chain fed⟩

end Clatto.Xlate
