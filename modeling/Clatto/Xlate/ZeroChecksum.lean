import Clatto.Xlate.Messages

/-! UDP datagrams without a checksum that came in fragments: what a receiver puts together
from everything that is sent for them. -/

namespace Clatto.Xlate

open Bytes Ones Effect

variable {σ : Type}

/-- Everything that is sent for a list of packets, each met in a state of its own. -/
def emissions (env : Env σ) (t : Translator) (calls : List (Bytes × σ)) : List Bytes :=
  calls.flatMap fun call => packets (translate env t call.1 call.2).acts

theorem piece4_parsed {raw : Bytes} {v : Packet4} (parsed : Parsed4 raw v) :
    piece4 raw = { src := v.src, dst := v.dst, proto := v.proto, ident := v.ident
                   offset := (v.flagsOff &&& ip4OffMask) * 8
                   more := decide (v.flagsOff &&& ip4FlagMF ≠ 0), data := v.data } := by
  have bounds := headerLen4_bounds parsed.good
  have flags : v.flagsOff = be16 raw 6 := parsed.be16_hdr (by decide)
  have header : (byteAt raw 0).toNat % 16 * 4 = headerLen4 raw := by
    rw [headerLen4, UInt8.toNat_and]
    exact congrArg (· * 4) (Nat.and_two_pow_sub_one_eq_mod _ 4).symm
  have more : decide (be16 raw 6 &&& ip4FlagMF ≠ 0) = (be16 raw 6).testBit 13 := by
    rw [show ip4FlagMF = 2 ^ 13 from rfl, and_two_pow]
    cases (be16 raw 6).testBit 13 <;> simp
  have dst : v.dst = sub raw 16 20 := by
    rw [Packet4.dst, parsed.hdr, sub, sub, List.take_take, Nat.min_eq_left (by omega)]
  have data : v.data = sub raw (headerLen4 raw) (be16 raw 2) := by
    rw [parsed.data, dataEnd4]
    split
    · rfl
    · rename_i short
      rw [sub, sub, List.take_of_length_le le_rfl, List.take_of_length_le (Nat.le_of_not_lt short)]
  have proto : v.proto = byteAt raw 9 := parsed.byteAt_hdr (by decide)
  have ident : v.ident = be16 raw 4 := parsed.be16_hdr (by decide)
  rw [piece4, header, parsed.src, dst, data, proto, ident, flags, more]
  rw [show ip4OffMask = 2 ^ 13 - 1 from rfl, Nat.and_two_pow_sub_one_eq_mod]

section

variable {env : Env σ} {t : Translator} {raw : Bytes} {acts : List Action} {n : Nat}

theorem Handled.parsed4 (handled : Handled env t raw acts) (counted : .translated 4 n ∈ acts) :
    ∃ v, parse4 raw = .ok v := by
  cases handled with
  | empty => cases counted
  | unknown => simp at counted
  | four _ _ handled =>
    cases handled with
    | unparsed => simp at counted
    | parsed found => exact ⟨_, found⟩
  | six _ _ handled =>
    cases handled with
    | silent => cases counted
    | unparsed => simp at counted
    | sourceRoute failed answer => rcases answer with rfl | ⟨-, rfl⟩ <;> simp at counted
    | parsed found trace =>
      cases trace with
      | report => simp at counted
      | complain => simp at counted
      | echo => simp at counted
      | data => simp at counted
      | dataRefused => cases counted
      | error forwarded synth => cases synth <;> simp [synthesised] at counted
      | errorRefused synth => cases synth <;> simp [synthesised] at counted
      | errorUnmapped synth => cases synth <;> simp [synthesised] at counted

/-- A packet that was translated, and what was sent for it. -/
structure Translated4 (env : Env σ) (t : Translator) (raw : Bytes) (sent : List Bytes) (v : Packet4)
    (src6 dst6 data : Bytes) (whole : Bool) : Prop extends Forwarded4 env t v src6 dst6 data where
  parsed : Parsed4 raw v
  fits : noFragHdr t v.flagsOff t.room v.hdr.length v.data.length = some whole
  room : t.Roomy whole ∨ data = []
  sent : sent = pieces4to6 t v src6 dst6 data whole

theorem Handled.transport4 (handled : Handled env t raw acts) (counted : .translated 4 n ∈ acts)
    (transport : (piece4 raw).proto ≠ protoICMP) :
    ∃ v src6 dst6 data whole, Translated4 env t raw (packets acts) v src6 dst6 data whole := by
  obtain ⟨v, found⟩ := handled.parsed4 counted
  rw [piece4_parsed (parse4_ok found)] at transport
  obtain ⟨src6, dst6, data, whole, forwarded, fits, room, sent⟩ := handled.translated4 counted found
    fun icmp => absurd icmp transport
  exact ⟨v, src6, dst6, data, whole, forwarded, parse4_ok found, fits, room, sent⟩

theorem Handled.udp (handled : Handled env t raw acts) (counted : .translated 4 n ∈ acts)
    (udp : (piece4 raw).proto = protoUDP) :
    ∃ v src6 dst6 data whole, v.proto = protoUDP ∧
      Translated4 env t raw (packets acts) v src6 dst6 data whole := by
  obtain ⟨v, src6, dst6, data, whole, done⟩ := handled.transport4 counted (by rw [udp]; decide)
  rw [piece4_parsed done.parsed] at udp
  exact ⟨v, src6, dst6, data, whole, udp, done⟩

namespace Translated4

variable {sent : List Bytes} {v : Packet4} {src6 dst6 data : Bytes} {whole : Bool}

theorem piece (done : Translated4 env t raw sent v src6 dst6 data whole) {q : Bytes}
    (member : q ∈ sent) : IsPiece4 t v src6 dst6 data whole q := by
  rw [done.sent] at member
  rcases mem_pieces4to6 member with ⟨rfl, same⟩ | ⟨rfl, found⟩
  · exact same
  · exact found

theorem contiguous (done : Translated4 env t raw sent v src6 dst6 data false) (some : data ≠ [])
    (first : Piece) (base : first.src = src6 ∧ first.dst = dst6 ∧ first.proto = v.next ∧
      first.ident = v.ident) :
    Contiguous first (decide (v.flagsOff &&& ip4FlagMF ≠ 0)) ((v.flagsOff &&& ip4OffMask) * 8)
        (sent.map piece6) ∧
      (sent.map piece6).flatMap Piece.data = data := by
  have width := length_rewrite4to6 done.payload
  have fits := done.parsed.fragment.1
  have small := done.parsed.data_le
  have room := (done.room.resolve_right some).resolve_left nofun
  rw [done.sent]
  exact fragments4to6_contiguous done.src.length done.dst.length (by omega) (fragRoom_aligned t) base
    (by omega) some (by omega) (by omega) (by rw [fragHdrLen]; omega)

theorem data_eq (done : Translated4 env t raw sent v src6 dst6 data whole) :
    (sent.map piece6).flatMap Piece.data = data := by
  cases whole with
  | true =>
    have width := length_rewrite4to6 done.payload
    have small := done.parsed.data_le
    have read := piece6_whole done.src.length done.dst.length done.parsed.next_ne
      (show data.length < 65536 by omega) v.tos (v.ttl - 1)
    rw [done.sent]
    simp [pieces4to6, whole4to6, read]
  | false =>
    by_cases some : data = []
    · subst some
      rw [done.sent, pieces4to6, if_neg (by decide), fragments4to6_nil]
      rfl
    · exact (done.contiguous some ⟨src6, dst6, v.next, v.ident, 0, false, []⟩
        ⟨rfl, rfl, rfl, rfl⟩).2

theorem addresses (done : Translated4 env t raw sent v src6 dst6 data whole) {q : Bytes}
    (member : q ∈ sent) : (piece6 q).src = src6 ∧ (piece6 q).dst = dst6 := by
  have hs := done.src.length
  have hd := done.dst.length
  have fields : sub q 8 24 = src6 ∧ sub q 24 40 = dst6 := by
    have shape := done.piece member
    cases whole with
    | true =>
      obtain rfl : q = whole4to6 v src6 dst6 data := shape
      exact ⟨ipv6Header_src _ _ _ _ _ hs hd, ipv6Header_dst _ _ _ _ _ hs hd⟩
    | false =>
      obtain ⟨k, -, -, rfl⟩ := shape
      exact ⟨ipv6Header_src _ _ _ _ _ hs hd, ipv6Header_dst _ _ _ _ _ hs hd⟩
  unfold piece6
  split <;> exact fields

theorem later (done : Translated4 env t raw sent v src6 dst6 data whole)
    (later : v.flagsOff &&& ip4OffMask ≠ 0) : data = v.data := by
  have payload := done.payload
  rw [rewrite4to6, if_pos later] at payload
  exact (Except.ok.inj payload).symm

theorem long (done : Translated4 env t raw sent v src6 dst6 data whole) (udp : v.proto = protoUDP)
    (start : v.flagsOff &&& ip4OffMask = 0) : 8 ≤ v.data.length := by
  have payload := done.payload
  by_contra short
  rw [rewrite4to6, if_neg (not_not.mpr start), udp, if_neg (by decide), rewriteTransport,
    if_pos rfl, if_pos (Nat.lt_of_not_le short)] at payload
  cases payload

theorem first (done : Translated4 env t raw sent v src6 dst6 data whole)
    (mode : t.cfg.udpChecksum = .calc) (udp : v.proto = protoUDP)
    (start : v.flagsOff &&& ip4OffMask = 0) (zero : be16 v.data 6 = 0) :
    data = splice v.data 6 (enc16
      (nonZero true (checksum v.data (pseudo6 src6 dst6 v.data.length protoUDP))).toNat) := by
  have payload := done.payload
  have long := done.long udp start
  rw [rewrite4to6, if_neg (not_not.mpr start), udp, if_neg (by decide), rewriteTransport,
    if_pos rfl, if_neg (Nat.not_lt.mpr long), if_pos zero, mode] at payload
  exact (Except.ok.inj payload).symm

end Translated4

end

/-- A checksum over the first part of a datagram is right for all of it when the rest,
with its length, vanishes from the sum. -/
theorem verifies6_calc {src6 dst6 first rest : Bytes} (hs : src6.length = 16)
    (hd : dst6.length = 16) (long : 8 ≤ first.length) (zero : be16 first 6 = 0)
    (even : first.length % 2 = 0 ∨ rest = []) (short : first.length + rest.length < 65536) :
    verifies6 ⟨src6, dst6, protoUDP, splice first 6 (enc16
        (nonZero true (checksum first (pseudo6 src6 dst6 first.length protoUDP))).toNat) ++ rest⟩ ↔
      (wordSum rest + rest.length) % 65535 = 0 := by
  obtain ⟨part, partSmall⟩ := pseudo6_spec hs hd (show first.length < 2 ^ 32 by omega) protoUDP
  obtain ⟨all, allSmall⟩ := pseudo6_spec hs hd
    (show first.length + rest.length < 2 ^ 32 by omega) protoUDP
  rw [carry_eq_iff] at part all
  have value := @toNat_checksum first (pseudo6 src6 dst6 first.length protoUDP)
    (by rw [Roomy]; omega)
  have folded := carry_mod ((pseudo6 src6 dst6 first.length protoUDP).toNat + wordSum first)
  have limit := carry_le ((pseudo6 src6 dst6 first.length protoUDP).toNat + wordSum first)
  have seventeen : protoUDP.toNat = 17 := rfl
  generalize checksum first (pseudo6 src6 dst6 first.length protoUDP) = ck at value ⊢
  have stored : (nonZero true ck).toNat % 65535 = ck.toNat % 65535 := by
    unfold nonZero
    split
    · rename_i replaced
      rw [replaced.2]
      rfl
    · rfl
  have sum := @wordSum_splice first 6 _ rfl (by omega) (nonZero true ck).toNat_lt
  have joined : wordSum (splice first 6 (enc16 (nonZero true ck).toNat) ++ rest) =
      wordSum (splice first 6 (enc16 (nonZero true ck).toNat)) + wordSum rest := by
    rcases even with even | rfl
    · exact wordSum_append (by rwa [length_splice]) _
    · rw [List.append_nil]
      rfl
  rw [verifies6, verify_iff]
  · dsimp only
    rw [List.length_append, length_splice, joined]
    omega
  · rw [Roomy]
    dsimp only
    rw [List.length_append, length_splice]
    omega

theorem carriedBy_splice {d d' : Datagram} {first rest : Bytes} {ck : UInt16}
    (udp : d.proto = protoUDP) (proto : d'.proto = d.proto) (long : 8 ≤ first.length)
    (before : d.data = first ++ rest)
    (after : d'.data = splice first 6 (enc16 (nonZero true ck).toNat) ++ rest) : CarriedBy d d' := by
  have spliced : d'.data = splice d.data 6 (enc16 (nonZero true ck).toNat) := by
    rw [after, before, splice_append_left (by simpa using long)]
  have field : checksumField d.proto = 6 := by rw [udp]; rfl
  have inside : 8 ≤ d.data.length := by
    rw [before, List.length_append]
    omega
  refine ⟨proto, by omega, by rw [spliced, length_splice], ?_, fun _ => ?_⟩
  · intro i high low
    rw [spliced, byteAt_splice_outside (by simpa using inside)]
    simp only [length_enc16]
    omega
  · rw [spliced, be16_splice inside, Nat.mod_eq_of_lt (UInt16.toNat_lt _)]
    exact nonZero_ne_zero _

section

variable {env : Env σ} {t : Translator} {d : Datagram} {call : Bytes × σ}
  {calls : List (Bytes × σ)}

theorem emissions_data
    (each : ∀ c ∈ calls, ((packets (translate env t c.1 c.2).acts).map piece6).flatMap Piece.data =
      (piece4 c.1).data) :
    ((emissions env t calls).map piece6).flatMap Piece.data =
      (calls.map fun c => piece4 c.1).flatMap Piece.data := by
  induction calls with
  | nil => rfl
  | cons c calls ih =>
    have rest := ih fun c' member => each c' (List.mem_cons_of_mem _ member)
    rw [emissions, List.flatMap_cons, List.map_append, List.flatMap_append, each c (.head _)]
    rw [emissions] at rest
    rw [rest, List.map_cons, List.flatMap_cons]

/-- The IPv6 datagram that comes of a UDP datagram without a checksum: a checksum is put in
for the first fragment, as if there were no others. -/
theorem emissions_datagram (mode : t.cfg.udpChecksum = .calc)
    (split : Reassembles ((call :: calls).map fun c => piece4 c.1) d) (udp : d.proto = protoUDP)
    (zero : be16 d.data 6 = 0)
    (translated : ∀ c ∈ call :: calls, ∃ n, .translated 4 n ∈ (translate env t c.1 c.2).acts)
    {d6 : Datagram} (received : Reassembles ((emissions env t (call :: calls)).map piece6) d6) :
    CarriedBy d d6 ∧ (verifies6 d6 ↔
      (wordSum (d.data.drop (piece4 call.1).data.length) +
        (d.data.drop (piece4 call.1).data.length).length) % 65535 = 0) := by
  obtain ⟨⟨_, _, ⟨⟩, run, -, -, proto⟩, joined⟩ := split
  have udps (c : Bytes × σ) (member : c ∈ call :: calls) : (piece4 c.1).proto = protoUDP :=
    (run.same _ (List.mem_map_of_mem member)).2.2.1.trans (proto.symm.trans udp)
  have limit := run.length_le fun p among => by
    obtain ⟨c, member, rfl⟩ := List.mem_map.mp among
    obtain ⟨n, counted⟩ := translated c member
    obtain ⟨v, found⟩ := (translate_sound env t c.1 c.2).1.parsed4 counted
    rw [piece4_parsed (parse4_ok found)]
    exact (parse4_ok found).fragment.1
  obtain ⟨start, ends⟩ := run.uncons
  obtain ⟨n, counted⟩ := translated call (.head _)
  obtain ⟨v, src6, dst6, data, whole, same, done⟩ :=
    (translate_sound env t call.1 call.2).1.udp counted (udps call (.head _))
  -- the first fragment
  beta_reduce at start ends
  rw [List.map_cons, List.flatMap_cons] at joined limit
  rw [piece4_parsed done.parsed] at joined limit start ends ⊢
  dsimp only at joined limit start ends ⊢
  have start : v.flagsOff &&& ip4OffMask = 0 := by omega
  have long := done.long same start
  have width := length_rewrite4to6 done.payload
  generalize others : (calls.map fun c => piece4 c.1).flatMap Piece.data = rest at joined limit
  have field : be16 v.data 6 = 0 := by
    rw [joined, be16_append_left (by omega)] at zero
    exact zero
  have content := done.first mode same start field
  have even : v.data.length % 2 = 0 ∨ rest = [] := by
    rcases ends with ⟨none, -⟩ | ⟨more, -⟩
    · rw [none] at others
      exact .inr others.symm
    · have := done.parsed.fragment.2 (of_decide_eq_true more)
      omega
  -- the others
  have plain (c : Bytes × σ) (member : c ∈ calls) :
      ((packets (translate env t c.1 c.2).acts).map piece6).flatMap Piece.data =
        (piece4 c.1).data := by
    obtain ⟨n, counted⟩ := translated c (List.mem_cons_of_mem _ member)
    obtain ⟨v', _, _, _, _, -, done'⟩ := (translate_sound env t c.1 c.2).1.udp counted
      (udps c (List.mem_cons_of_mem _ member))
    have offset : 8 ≤ (piece4 c.1).offset := by
      rcases ends with ⟨none, -⟩ | ⟨-, next⟩
      · rw [List.map_eq_nil_iff] at none
        rw [none] at member
        cases member
      · have := next.offset_ge _ (List.mem_map_of_mem member)
        omega
    rw [piece4_parsed done'.parsed] at offset ⊢
    dsimp only at offset ⊢
    rw [done'.data_eq, done'.later (by omega)]
  -- what is received
  obtain ⟨⟨first, others', cut, -, src, dst, proto6⟩, joined6⟩ := received
  have sum : d6.data = data ++ rest := by
    rw [joined6, emissions, List.flatMap_cons, List.map_append, List.flatMap_append, done.data_eq,
      ← others]
    exact congrArg _ (emissions_data plain)
  obtain ⟨q, member, rfl⟩ : ∃ q ∈ packets (translate env t call.1 call.2).acts, piece6 q = first := by
    have some : packets (translate env t call.1 call.2).acts ≠ [] := by
      intro none
      have := done.data_eq
      rw [none] at this
      rw [← this] at width
      simp at width
      omega
    obtain ⟨q, more, head⟩ := List.exists_cons_of_ne_nil some
    rw [emissions, List.flatMap_cons, head, List.cons_append, List.map_cons] at cut
    exact ⟨q, by rw [head]; exact .head _, (List.cons.inj cut).1⟩
  obtain ⟨source, destination⟩ := done.addresses member
  have last : (piece6 q).proto = protoUDP := by
    rw [proto_isPiece4 done.parsed done.src.length done.dst.length (done.piece member), Packet4.next,
      same, if_neg (by decide)]
  have whole6 : d6 = ⟨src6, dst6, protoUDP, data ++ rest⟩ := by
    cases d6
    simp_all
  rw [joined, List.drop_left, whole6, content]
  refine ⟨carriedBy_splice udp udp.symm long joined rfl, ?_⟩
  rw [List.length_append] at limit
  exact verifies6_calc done.src.length done.dst.length long field even (by omega)

theorem Translated4.split {raw : Bytes} {sent : List Bytes} {v : Packet4} {src6 dst6 data : Bytes}
    {whole : Bool} (done : Translated4 env t raw sent v src6 dst6 data whole)
    (fragment : (piece4 raw).offset ≠ 0 ∨ (piece4 raw).more = true) : whole = false := by
  have fits := done.fits
  rw [piece4_parsed done.parsed] at fragment
  dsimp only at fragment
  rw [noFragHdr, if_neg] at fits
  · exact (Option.some.inj fits).symm
  · rw [Nat.and_or_distrib_left, Nat.or_eq_zero_iff]
    rintro ⟨start, last⟩
    rcases fragment with later | more
    · rw [start] at later
      exact later rfl
    · exact absurd last (of_decide_eq_true more)

/-- A fragment that has any data is sent as fragments that cover the same part of the
datagram. -/
theorem Translated4.cut {raw : Bytes} {sent : List Bytes} {v : Packet4} {src6 dst6 data : Bytes}
    (done : Translated4 env t raw sent v src6 dst6 data false) (some : (piece4 raw).data ≠ [])
    {first : Piece} (base : first.src = src6 ∧ first.dst = dst6 ∧ first.proto = v.next ∧
      first.ident = (piece4 raw).ident) :
    Contiguous first (piece4 raw).more (piece4 raw).offset (sent.map piece6) ∧
      ((sent.map piece6).flatMap Piece.data).length = (piece4 raw).data.length := by
  have width := length_rewrite4to6 done.payload
  rw [piece4_parsed done.parsed] at some base ⊢
  dsimp only at some base ⊢
  obtain ⟨pieces, joined⟩ := done.contiguous
    (List.ne_nil_of_length_pos (by rw [width]; exact List.length_pos_iff.mpr some)) first base
  exact ⟨pieces, joined.symm ▸ width⟩

/-- Fragments that follow each other are sent as fragments that do, where the mapper keeps
to its answers. -/
theorem emissions_contiguous (first : Piece) {base : Piece} {more : Bool} {off : Nat}
    {src6 dst6 : Bytes}
    (run : Contiguous base more off (calls.map fun c => piece4 c.1)) (udp : base.proto = protoUDP)
    (src : ∀ w, (env.to6 base.src w).1 = .ok src6) (dst : ∀ w, (env.to6 base.dst w).1 = .ok dst6)
    (translated : ∀ c ∈ calls, ∃ n, .translated 4 n ∈ (translate env t c.1 c.2).acts)
    (some : ∀ c ∈ calls, (piece4 c.1).data ≠ [])
    (fragments : ∀ c ∈ calls, (piece4 c.1).offset ≠ 0 ∨ (piece4 c.1).more = true)
    (six : first.src = src6 ∧ first.dst = dst6 ∧ first.proto = protoUDP ∧
      first.ident = base.ident) :
    Contiguous first more off ((emissions env t calls).map piece6) := by
  rw [emissions, List.map_flatMap]
  refine run.expand fun c member => ?_
  obtain ⟨sameSrc, sameDst, sameProto, sameIdent⟩ := run.same _ (List.mem_map_of_mem member)
  obtain ⟨n, counted⟩ := translated c member
  obtain ⟨v, src6', dst6', data, whole, proto, done⟩ :=
    (translate_sound env t c.1 c.2).1.udp counted (sameProto.trans udp)
  obtain rfl := done.split (fragments c member)
  obtain ⟨w, toSrc⟩ := done.src
  obtain ⟨w', toDst⟩ := done.dst
  have next : v.next = protoUDP := by rw [Packet4.next, proto, if_neg (by decide)]
  refine done.cut (some c member) ⟨?_, ?_, six.2.2.1.trans next.symm,
    six.2.2.2.trans sameIdent.symm⟩
  · rw [piece4_parsed done.parsed] at sameSrc
    rw [show v.src = base.src from sameSrc] at toSrc
    exact six.1.trans (Except.ok.inj ((src w).symm.trans toSrc))
  · rw [piece4_parsed done.parsed] at sameDst
    rw [show v.dst = base.dst from sameDst] at toDst
    exact six.2.1.trans (Except.ok.inj ((dst w').symm.trans toDst))

/-- A receiver gets a datagram, where the mapper keeps to its answers and no fragment is
empty. -/
theorem emissions_reassemble {src6 dst6 : Bytes}
    (split : Reassembles ((call :: calls).map fun c => piece4 c.1) d) (udp : d.proto = protoUDP)
    (src : ∀ w, (env.to6 d.src w).1 = .ok src6) (dst : ∀ w, (env.to6 d.dst w).1 = .ok dst6)
    (translated : ∀ c ∈ call :: calls, ∃ n, .translated 4 n ∈ (translate env t c.1 c.2).acts)
    (some : ∀ c ∈ call :: calls, (piece4 c.1).data ≠ []) :
    ∃ d6, Reassembles ((emissions env t (call :: calls)).map piece6) d6 := by
  obtain ⟨⟨_, _, ⟨⟩, run, sameSrc, sameDst, sameProto⟩, -⟩ := split
  rw [sameSrc] at src
  rw [sameDst] at dst
  rw [sameProto] at udp
  obtain ⟨start, ends⟩ := run.uncons
  rcases ends with ⟨none, last⟩ | ⟨more, later⟩
  · -- a packet that is no fragment
    rw [List.map_eq_nil_iff] at none
    obtain ⟨n, counted⟩ := translated call (.head _)
    obtain ⟨v, src6', dst6', data, whole, proto, done⟩ :=
      (translate_sound env t call.1 call.2).1.udp counted udp
    have content := some call (.head _)
    beta_reduce at start last
    rw [piece4_parsed done.parsed] at start last content
    dsimp only at start last content
    have width := length_rewrite4to6 done.payload
    have small := done.parsed.data_le
    have filled : data ≠ [] :=
      List.ne_nil_of_length_pos (by rw [width]; exact List.length_pos_iff.mpr content)
    rw [none, emissions, List.flatMap_singleton, done.sent]
    exact ⟨_, pieces4to6_reassemble (done.room.resolve_right filled) done.src.length
      done.dst.length filled (by rw [fragHdrLen]; omega) done.parsed.next_ne (by omega)
      (by simpa using last)⟩
  · have fragments (c : Bytes × σ) (member : c ∈ call :: calls) :
        (piece4 c.1).offset ≠ 0 ∨ (piece4 c.1).more = true := by
      rcases List.mem_cons.mp member with rfl | member
      · exact .inr more
      · left
        have after := later.offset_ge _ (List.mem_map_of_mem member)
        have filled := List.length_pos_iff.mpr (some call (.head _))
        beta_reduce at after
        omega
    have sent := emissions_contiguous ⟨src6, dst6, protoUDP, (piece4 call.1).ident, 0, false, []⟩ run
      udp src dst translated some fragments ⟨rfl, rfl, rfl, rfl⟩
    exact ⟨_, sent.reassembles⟩

end

/-- A UDP datagram without a checksum gets a valid one if and only if what follows its first
fragment vanishes from the sum. -/
theorem calc_valid_iff {env : Env σ} {t : Translator} (mode : t.cfg.udpChecksum = .calc)
    {call : Bytes × σ} {calls : List (Bytes × σ)} {d : Datagram}
    (split : Reassembles ((call :: calls).map fun c => piece4 c.1) d) (udp : d.proto = protoUDP)
    (zero : be16 d.data 6 = 0)
    (translated : ∀ c ∈ call :: calls, ∃ n, .translated 4 n ∈ (translate env t c.1 c.2).acts) :
    (∀ d6, Reassembles ((emissions env t (call :: calls)).map piece6) d6 →
      (CarriedBy d d6 ∧ verifies6 d6 ↔ (wordSum (d.data.drop (piece4 call.1).data.length) +
        (d.data.drop (piece4 call.1).data.length).length) % 65535 = 0)) ∧
    (∀ src6 dst6, (∀ w, (env.to6 d.src w).1 = .ok src6) → (∀ w, (env.to6 d.dst w).1 = .ok dst6) →
      (∀ c ∈ call :: calls, (piece4 c.1).data ≠ []) →
      ∃ d6, Reassembles ((emissions env t (call :: calls)).map piece6) d6) := by
  refine ⟨fun d6 received => ?_, fun src6 dst6 src dst some => ?_⟩
  · obtain ⟨carried, valid⟩ := emissions_datagram mode split udp zero translated received
    rw [← valid]
    exact ⟨And.right, fun holds => ⟨carried, holds⟩⟩
  · exact emissions_reassemble split udp src dst translated some

/-- The first fragment of a datagram from 198.51.100.1 without a checksum. -/
def firstHalf : Bytes :=
  [69, 0, 0, 36, 0, 7, 32, 0, 64, 17, 110, 108, 198, 51, 100, 1, 192, 0, 2, 33, 0, 53, 0, 53, 0, 24,
    0, 0, 1, 2, 3, 4, 5, 6, 7, 8]

def secondHalf : Bytes :=
  [69, 0, 0, 28, 0, 7, 0, 2, 64, 17, 142, 114, 198, 51, 100, 1, 192, 0, 2, 33, 1, 2, 3, 4, 5, 6, 7, 8]

/-- A second fragment that vanishes from the sum, together with its length. -/
def vanishingHalf : Bytes :=
  [69, 0, 0, 28, 0, 7, 0, 2, 64, 17, 142, 114, 198, 51, 100, 1, 192, 0, 2, 33,
    0xff, 0xf7, 0, 0, 0, 0, 0, 0]

theorem halves_split {second rest : Bytes}
    (piece : piece4 second = ⟨[198, 51, 100, 1], [192, 0, 2, 33], 17, 7, 16, false, rest⟩) :
    Reassembles ([(firstHalf, ()), (second, ())].map fun c => piece4 c.1)
      ⟨[198, 51, 100, 1], [192, 0, 2, 33], 17,
        [0, 53, 0, 53, 0, 24, 0, 0, 1, 2, 3, 4, 5, 6, 7, 8] ++ rest⟩ := by
  have first : piece4 firstHalf = ⟨[198, 51, 100, 1], [192, 0, 2, 33], 17, 7, 0, true,
      [0, 53, 0, 53, 0, 24, 0, 0, 1, 2, 3, 4, 5, 6, 7, 8]⟩ := by decide +kernel
  simp only [List.map_cons, List.map_nil, first, piece]
  refine ⟨⟨_, _, rfl, .cons ⟨rfl, rfl, rfl, rfl⟩ rfl rfl (.last ⟨rfl, rfl, rfl, rfl⟩ rfl rfl),
    rfl, rfl, rfl⟩, by simp⟩

theorem halves_translated {second : Bytes} (translated : .translated 4 28 ∈
      (translate Env.constant (.sample 1500 .calc) second ()).acts) :
    ∀ c ∈ [(firstHalf, ()), (second, ())],
      ∃ n, .translated 4 n ∈ (translate Env.constant (.sample 1500 .calc) c.1 c.2).acts := by
  rintro _ (_ | ⟨_, _ | ⟨_, ⟨⟩⟩⟩)
  · exact ⟨36, by decide +kernel⟩
  · exact ⟨28, translated⟩

theorem calc_valid_iff_halves : ∃ d d6, Reassembles ([firstHalf, vanishingHalf].map piece4) d ∧
    Reassembles ((emissions Env.constant (.sample 1500 .calc)
      [(firstHalf, ()), (vanishingHalf, ())]).map piece6) d6 ∧ CarriedBy d d6 ∧ verifies6 d6 := by
  have split := @halves_split vanishingHalf [0xff, 0xf7, 0, 0, 0, 0, 0, 0] (by decide +kernel)
  obtain ⟨valid, whole⟩ := @calc_valid_iff _ Env.constant (.sample 1500 .calc) rfl _ _ _ split rfl
    (by decide) (halves_translated (by decide +kernel))
  obtain ⟨d6, received⟩ := whole _ _ (fun _ => rfl) (fun _ => rfl)
    (by rintro _ (_ | ⟨_, _ | ⟨_, ⟨⟩⟩⟩) <;> decide)
  exact ⟨_, d6, split, received, (valid d6 received).mpr (by decide)⟩

/-- Both are translated, and what is received is not valid. -/
theorem halves_invalid : ∃ d d6,
    Reassembles ([firstHalf, secondHalf].map piece4) d ∧ d.proto = protoUDP ∧ be16 d.data 6 = 0 ∧
    .translated 4 36 ∈ (translate Env.constant (.sample 1500 .calc) firstHalf ()).acts ∧
    .translated 4 28 ∈ (translate Env.constant (.sample 1500 .calc) secondHalf ()).acts ∧
    Reassembles ((emissions Env.constant (.sample 1500 .calc)
      [(firstHalf, ()), (secondHalf, ())]).map piece6) d6 ∧ ¬ verifies6 d6 := by
  have split := @halves_split secondHalf [1, 2, 3, 4, 5, 6, 7, 8] (by decide +kernel)
  have second : .translated 4 28 ∈
      (translate Env.constant (.sample 1500 .calc) secondHalf ()).acts := by decide +kernel
  have translated := halves_translated second
  obtain ⟨d6, received⟩ := emissions_reassemble split rfl (fun _ => rfl) (fun _ => rfl) translated
    (by rintro _ (_ | ⟨_, _ | ⟨_, ⟨⟩⟩⟩) <;> decide)
  obtain ⟨-, valid⟩ := emissions_datagram rfl split rfl (by decide) translated received
  exact ⟨_, d6, split, rfl, by decide, by decide +kernel, second, received, fun holds =>
    absurd (valid.mp holds) (by decide)⟩

end Clatto.Xlate
