import Clatto.Xlate.Accounting

/-! The ICMP errors that the translator sends in its own name: whom they are about, who
gets them, and what they quote. -/

namespace Clatto.Xlate

open Bytes Effect

variable {σ : Type}

section

variable {raw : Bytes}

theorem Parsed4.wire {p : Packet4} (parsed : Parsed4 raw p) : p.wire = raw.take (dataEnd4 raw) := by
  obtain ⟨-, le, -⟩ := headerLen4_bounds parsed.good
  rw [Packet4.wire, parsed.hdr, parsed.data, ← sub_zero, ← sub_zero,
    sub_append_sub (Nat.zero_le _) le]

theorem splitFrag_whole {proto : UInt8} {body : Bytes} {b : Body6}
    (splits : splitFrag proto body = .ok b) : b.frag.getD [] ++ b.data = body := by
  unfold splitFrag at splits
  split at splits
  · split at splits
    · cases splits
    split at splits
    · cases splits
    split at splits
    · cases splits
    cases splits
    exact List.take_append_drop 8 body
  · cases splits
    rfl

theorem Parsed6.wire {p : Packet6} (parsed : Parsed6 raw p) : p.wire = raw.take (dataEnd6 raw) := by
  obtain ⟨s, b, walked, splits, ext, frag, -, data⟩ := parsed.body
  have bounds := dataEnd6_bounds parsed.long
  have width : (raw.take (dataEnd6 raw)).length = dataEnd6 raw := by simp; omega
  obtain ⟨inside, counted⟩ := walk_bounds (by rw [width]; exact bounds.1) rfl (.inl walked)
  rw [width] at inside
  have start : ipv6HdrLen ≤ s.lo := by omega
  rw [Packet6.wire, parsed.hdr, ext, frag, data, splitFrag_whole splits, sub_append_sub start inside,
    ← sub_zero, ← sub_zero, sub_append_sub (Nat.zero_le _) (start.trans inside)]

end

/-- A packet of the input's own family that is not an echo reply. -/
def IsOwnError (raw q : Bytes) : Prop :=
  version raw = 4 ∧ version q = 4 ∧ byteAt q 20 ≠ 0 ∨
    version raw = 6 ∧ version q = 6 ∧ byteAt q 40 ≠ 129

structure OwnError4 (t : Translator) (raw q : Bytes) : Prop where
  message : byteAt q 9 = protoICMP ∧ (byteAt q 20 = 3 ∨ byteAt q 20 = 11)
  request : byteAt raw 9 = protoICMP → byteAt raw (headerLen4 raw) = 8
  src : sub q 12 16 = t.local4
  dst : sub q 16 20 = sub raw 12 16
  size : q.length ≤ 576
  quote : ∃ n ≤ raw.length, n ≤ be16 raw 2 ∧ q.drop 28 = raw.take n

/-- An ICMPv6 error about an IPv6 packet. -/
structure OwnError6 (t : Translator) (raw q : Bytes) : Prop where
  message : byteAt q 6 = protoICMPv6 ∧
    (byteAt q 40 = 1 ∨ byteAt q 40 = 2 ∨ byteAt q 40 = 3 ∨ byteAt q 40 = 4)
  readable : ∃ p, Parsed6 raw p
  request : ∀ p, Parsed6 raw p → p.proto = protoICMPv6 → p.icmpType = 128
  src : sub q 8 24 = t.local6
  dst : sub q 24 40 = sub raw 8 24
  size : q.length ≤ 1280
  quote : ∃ n ≤ raw.length, n ≤ 40 + be16 raw 4 ∧ q.drop 48 = raw.take n

section

variable {env : Env σ} {t : Translator} {raw q : Bytes} {acts : List Action}

theorem Parsed4.src {p : Packet4} (parsed : Parsed4 raw p) : p.src = sub raw 12 16 := by
  have bounds := headerLen4_bounds parsed.good
  rw [Packet4.src, parsed.hdr, sub, sub, List.take_take, Nat.min_eq_left (by omega)]

theorem Parsed6.src {p : Packet6} (parsed : Parsed6 raw p) : p.src = sub raw 8 24 := by
  rw [Packet6.src, parsed.hdr, sub, sub, List.take_take]
  rfl

theorem Parsed6.unique {p p' : Packet6} (parsed : Parsed6 raw p) (parsed' : Parsed6 raw p') :
    p' = p := by
  obtain ⟨s, b, walked, splits, ext, frag, proto, data⟩ := parsed.body
  obtain ⟨s', b', walked', splits', ext', frag', proto', data'⟩ := parsed'.body
  cases walked.symm.trans walked'
  cases splits.symm.trans splits'
  have hdr : p'.hdr = p.hdr := parsed'.hdr.trans parsed.hdr.symm
  rw [← ext] at ext'
  rw [← frag] at frag'
  rw [← proto] at proto'
  rw [← data] at data'
  cases p
  cases p'
  subst hdr ext' frag' proto' data'
  rfl

theorem ownError4 {p : Packet4} (found : parse4 raw = .ok p) (answerable : p.Answerable)
    {typ : UInt8} (error : typ = 3 ∨ typ = 11) (code : UInt8) (word : Nat) :
    OwnError4 t raw (icmp4Packet 0 t.local4 p.src typ code word p.quote) := by
  have parsed := parse4_ok found
  have bounds := headerLen4_bounds parsed.good
  have front : (sealedIPv4Header 0 (ipv4HdrLen + icmpHdrLen + p.quote.length) 0 0 64 protoICMP
      t.local4 p.src).length = 20 := by simp [sealedIPv4Header, t.local4_length, p.length_src]
  have short : p.quote.length ≤ 548 := List.length_take_le _ _
  have type : byteAt (icmp4Packet 0 t.local4 p.src typ code word p.quote) 20 = typ := by
    rw [icmp4Packet, byteAt_append_right (by omega), front]
    rfl
  refine ⟨⟨rfl, by rw [type]; exact error⟩, fun icmp => ?_, ?_, ?_, ?_, ?_⟩
  · have proto : p.proto = protoICMP := (parsed.byteAt_hdr (by decide)).trans icmp
    have enough := p.icmp_ge proto
    rw [← answerable proto, Packet4.icmpType, parsed.data, byteAt_sub, Nat.add_zero]
    rw [parsed.data, length_sub_of_le bounds.2.2] at enough
    omega
  · exact ipv4Header_src _ _ _ _ _ _ _ _ t.local4_length p.length_src
  · rw [← parsed.src]
    exact ipv4Header_dst _ _ _ _ _ _ _ _ t.local4_length p.length_src
  · rw [icmp4Packet, List.length_append, front, length_sealedICMP]
    omega
  · refine ⟨min 548 (dataEnd4 raw), by omega, ?_, ?_⟩
    · unfold dataEnd4
      split <;> omega
    · rw [icmp4Packet, show 28 = 20 + 8 from rfl, ← List.drop_drop, List.drop_left' front,
        Packet4.quote, parsed.wire, List.take_take]
      rfl

theorem ownError6 {p : Packet6} (parsed : Parsed6 raw p) (answerable : p.Answerable)
    {typ : UInt8} (error : typ = 1 ∨ typ = 2 ∨ typ = 3 ∨ typ = 4) (code : UInt8) (word : Nat) :
    OwnError6 t raw (icmp6Packet 0 t.local6 p.src typ code word p.quote) := by
  have bounds := dataEnd6_bounds parsed.long
  have front : (ipv6Header 0 (icmpHdrLen + p.quote.length) protoICMPv6 64 t.local6 p.src).length =
      40 := by simp [t.local6_length, p.length_src]
  have short : p.quote.length ≤ 1232 := List.length_take_le _ _
  have type : byteAt (icmp6Packet 0 t.local6 p.src typ code word p.quote) 40 = typ := by
    rw [icmp6Packet, byteAt_append_right (by omega), front]
    rfl
  refine ⟨⟨rfl, by rw [type]; exact error⟩, ⟨p, parsed⟩, fun p' parsed' icmp => ?_, ?_, ?_, ?_, ?_⟩
  · obtain rfl := parsed.unique parsed'
    exact answerable icmp
  · exact ipv6Header_src _ _ _ _ _ t.local6_length p.length_src
  · rw [← parsed.src]
    exact ipv6Header_dst _ _ _ _ _ t.local6_length p.length_src
  · rw [icmp6Packet, List.length_append, front, length_sealedICMP]
    omega
  · refine ⟨min 1232 (dataEnd6 raw), by omega, ?_, ?_⟩
    · unfold dataEnd6 ipv6HdrLen
      split <;> omega
    · rw [icmp6Packet, show 48 = 40 + 8 from rfl, ← List.drop_drop, List.drop_left' front,
        Packet6.quote, parsed.wire, List.take_take]
      rfl

theorem version_isPiece4 {p : Packet4} {src6 dst6 data : Bytes} {whole : Bool}
    (piece : IsPiece4 t p src6 dst6 data whole q) : version q = 6 := by
  unfold IsPiece4 at piece
  split at piece
  · subst piece
    exact ipv6Header_version ..
  · obtain ⟨k, -, -, rfl⟩ := piece
    exact ipv6Header_version ..

theorem Trace4.ownError {p : Packet4} (found : parse4 raw = .ok p) (trace : Trace4 env t p acts)
    (sent : q ∈ packets acts) (error : IsOwnError raw q) :
    packets acts = [q] ∧ OwnError4 t raw q := by
  have four : version raw = 4 := (parse4_ok found).version
  obtain ⟨same, type⟩ : version q = 4 ∧ byteAt q 20 ≠ 0 := by
    rcases error with ⟨-, same⟩ | ⟨other, -⟩
    · exact same
    · cases four.symm.trans other
  have crossed (six : version q = 6) : False := by cases same.symm.trans six
  cases trace with
  | report => cases sent
  | complain _ _ typ code word _ answerable kind =>
    obtain rfl := List.mem_singleton.mp sent
    exact ⟨rfl, ownError4 found answerable kind code word⟩
  | echo =>
    obtain rfl := List.mem_singleton.mp sent
    refine absurd ?_ type
    rw [icmp4Packet, byteAt_append_right] <;>
      simp [sealedIPv4Header, p.length_src, p.length_dst, sealedICMP, icmpMessage, byteAt]
  | data forwarded whole fits pieces done shape =>
    rw [packets_append, packets_map, List.mem_append] at sent
    rcases sent with sent | sent
    · exact (crossed (version_isPiece4 (shape q sent))).elim
    · cases done <;> cases sent
  | error forwarded synth =>
    obtain rfl : q = _ := by cases synth <;> exact List.mem_singleton.mp sent
    exact (crossed (ipv6Header_version ..)).elim
  | errorRefused synth => cases synth <;> cases sent
  | errorUnmapped synth => cases synth <;> cases sent

theorem Trace6.ownError {p : Packet6} (found : parse6 raw = .ok p) (trace : Trace6 env t p acts)
    (sent : q ∈ packets acts) (error : IsOwnError raw q) :
    packets acts = [q] ∧ OwnError6 t raw q := by
  have six : version raw = 6 := (parse6_ok found).version
  obtain ⟨same, type⟩ : version q = 6 ∧ byteAt q 40 ≠ 129 := by
    rcases error with ⟨other, -⟩ | ⟨-, same⟩
    · cases six.symm.trans other
    · exact same
  have crossed (four : version q = 4) : False := by cases same.symm.trans four
  cases trace with
  | report => cases sent
  | complain _ _ typ code word answerable kind =>
    obtain rfl := List.mem_singleton.mp sent
    exact ⟨rfl, ownError6 (parse6_ok found) answerable kind code word⟩
  | echo =>
    obtain rfl := List.mem_singleton.mp sent
    refine absurd ?_ type
    rw [icmp6Packet, byteAt_append_right] <;>
      simp [p.length_src, p.length_dst, sealedICMP, icmpMessage, byteAt]
  | data =>
    obtain rfl := List.mem_singleton.mp sent
    exact (crossed (sealedIPv4Header_first ..)).elim
  | dataRefused => cases sent
  | error forwarded synth =>
    obtain rfl : q = _ := by cases synth <;> exact List.mem_singleton.mp sent
    exact (crossed (sealedIPv4Header_first ..)).elim
  | errorRefused synth => cases synth <;> cases sent
  | errorUnmapped synth => cases synth <;> cases sent

end

/-- Whatever leaves on the side a packet came from, other than an echo reply, is a single
ICMP error about it. -/
theorem own_errors {env : Env σ} {t : Translator} {raw q : Bytes} {w : σ}
    (sent : q ∈ packets (translate env t raw w).acts) (error : IsOwnError raw q) :
    packets (translate env t raw w).acts = [q] ∧
      (version raw = 4 → OwnError4 t raw q) ∧ (version raw = 6 → OwnError6 t raw q) := by
  have handled := (translate_sound env t raw w).1
  generalize (translate env t raw w).acts = acts at sent handled ⊢
  cases handled with
  | empty => cases sent
  | unknown => cases sent
  | four _ four handled =>
    have other (six : version raw = 6) : False := by cases four.symm.trans six
    cases handled with
    | unparsed => cases sent
    | parsed found trace =>
      obtain ⟨only, own⟩ := trace.ownError found sent error
      exact ⟨only, fun _ => own, fun six => (other six).elim⟩
  | six _ six handled =>
    have other (four : version raw = 4) : False := by cases six.symm.trans four
    cases handled with
    | silent => cases sent
    | unparsed => cases sent
    | sourceRoute failed answer =>
      rcases answer with rfl | ⟨answerable, rfl⟩
      · cases sent
      · obtain rfl := List.mem_singleton.mp sent
        exact ⟨rfl, fun four => (other four).elim, fun _ => ownError6
          (parse6_reads (.inr ⟨_, failed⟩)) answerable (.inr (.inr (.inr rfl))) _ _⟩
    | parsed found trace =>
      obtain ⟨only, own⟩ := trace.ownError found sent error
      exact ⟨only, fun four => (other four).elim, fun _ => own⟩

def expired : Bytes :=
  [69, 0, 0, 28, 0, 7, 0, 0, 1, 17, 205, 116, 198, 51, 100, 1, 192, 0, 2, 33,
    0, 53, 0, 53, 0, 8, 0, 0]

theorem own_errors_expired : ∃ q,
    packets (translate Env.constant (.sample 1500 .calc) expired ()).acts = [q] ∧
      OwnError4 (.sample 1500 .calc) expired q := by
  obtain ⟨q, sent, error⟩ : ∃ q ∈ packets (translate Env.constant (.sample 1500 .calc) expired ()).acts,
      version expired = 4 ∧ version q = 4 ∧ byteAt q 20 ≠ 0 := by decide +kernel
  obtain ⟨only, four, -⟩ := own_errors sent (.inl error)
  exact ⟨q, only, four error.1⟩

end Clatto.Xlate
