import Clatto.Xlate.Transparency

/-! There and back again: what becomes of a packet that is translated and then
translated back. -/

namespace Clatto.Xlate

open Bytes Ones Effect

/-- Moving a checksum there and back restores it, down to which of the two zeros
it was. -/
theorem adjust_back {old : Nat} (word : old < 65536) {remove add : UInt64}
    (removeSmall : remove.toNat < 2 ^ 48) (addSmall : add.toNat < 2 ^ 48)
    (some : remove.toNat ≠ 0) {udp : Bool} (present : if udp then old ≠ 0 else old ≠ 65535) :
    (nonZero udp (adjust (nonZero udp (adjust (UInt16.ofNat old) remove add)) add remove)).toNat =
      old := by
  have there := @nonZero_adjust_mod old word remove add addSmall udp
  generalize moved : nonZero udp (adjust (UInt16.ofNat old) remove add) = new at there
  have back := @nonZero_adjust_mod new.toNat new.toNat_lt add remove removeSmall udp
  have value := @toNat_adjust new add remove removeSmall
  have limit := carry_le add.toNat
  have bound := carry_le (65535 - new.toNat + (65535 - carry add.toNat) + remove.toNat)
  have positive : carry (65535 - new.toNat + (65535 - carry add.toNat) + remove.toNat) ≠ 0 := by
    rw [Ne, carry_eq_zero]
    omega
  rw [UInt16.ofNat_toNat] at back
  cases udp with
  | false =>
    have plain : nonZero false (adjust new add remove) = adjust new add remove :=
      if_neg (by simp)
    rw [plain] at back ⊢
    have other : old ≠ 65535 := present
    omega
  | true =>
    have other : old ≠ 0 := present
    have kept := nonZero_ne_zero (adjust new add remove)
    by_cases zero : adjust new add remove = 0
    · have full : nonZero true (adjust new add remove) = 0xffff := if_pos ⟨rfl, zero⟩
      rw [full] at back ⊢
      have last : (0xffff : UInt16).toNat = 65535 := rfl
      omega
    · have same : nonZero true (adjust new add remove) = adjust new add remove :=
        if_neg fun h => zero h.2
      rw [same] at back kept ⊢
      omega

theorem adjustAt_back {data : Bytes} {field : Nat} (inside : field + 2 ≤ data.length)
    {remove add : UInt64} (removeSmall : remove.toNat < 2 ^ 48) (addSmall : add.toNat < 2 ^ 48)
    (some : remove.toNat ≠ 0) {udp : Bool}
    (present : if udp then be16 data field ≠ 0 else be16 data field ≠ 65535) :
    adjustAt udp (adjustAt udp data field remove add) field add remove = data := by
  have written : be16 (adjustAt udp data field remove add) field =
      (nonZero udp (adjust (UInt16.ofNat (be16 data field)) remove add)).toNat := by
    rw [adjustAt, be16_splice inside, Nat.mod_eq_of_lt (UInt16.toNat_lt _)]
  rw [adjustAt, written, UInt16.ofNat_toNat,
    adjust_back (be16_lt _ _) removeSmall addSmall some present, adjustAt, splice_splice (by simp),
    splice_be16 inside]

/-- What a payload must satisfy to come back unchanged. -/
def Restorable (mode : UDPChecksumMode) (proto : UInt8) (data : Bytes) : Prop :=
  (proto = protoTCP → be16 data 16 ≠ 0xffff) ∧
    (proto = protoUDP → be16 data 6 ≠ 0 ∨ mode = .forward)

theorem rewriteTransport_back {mode : UDPChecksumMode} {proto : UInt8} {data out : Bytes}
    {pseudo pseudo' remove add : UInt64} (removeSmall : remove.toNat < 2 ^ 48)
    (addSmall : add.toNat < 2 ^ 48) (some : remove.toNat ≠ 0)
    (restorable : Restorable mode proto data)
    (done : rewriteTransport mode proto data pseudo remove add = .ok out) :
    rewriteTransport mode proto out pseudo' add remove = .ok data := by
  have width := length_rewriteTransport done
  unfold rewriteTransport at done ⊢
  rw [width]
  split at done
  · rename_i udp
    rw [if_pos udp]
    split at done
    · cases done
    · rename_i long
      rw [if_neg long]
      split at done
      · rename_i zero
        have forward : mode = .forward := (restorable.2 udp).resolve_left (not_not.mpr zero)
        rw [forward] at done ⊢
        cases done
        rw [if_pos zero, fillChecksum]
      · rename_i present
        cases done
        have kept : be16 (adjustAt true data 6 remove add) 6 ≠ 0 := by
          rw [adjustAt, be16_splice (by omega), Nat.mod_eq_of_lt (UInt16.toNat_lt _)]
          exact nonZero_ne_zero _
        have restored := @adjustAt_back data 6 (by omega) remove add removeSmall addSmall some true
          present
        rw [if_neg kept, restored]
  · rename_i notUDP
    rw [if_neg notUDP]
    split at done
    · rename_i tcp
      rw [if_pos tcp]
      split at done
      · cases done
      · rename_i long
        cases done
        have restored := @adjustAt_back data 16 (by omega) remove add removeSmall addSmall some
          false (restorable.1 tcp)
        rw [if_neg long, restored]
    · rename_i notTCP
      cases done
      rw [if_neg notTCP]

variable {σ : Type} {env : Env σ} {t : Translator}

/-- The mapper takes an IPv4 address to an IPv6 address and back, whatever it is
asked in between. -/
structure Env.Pairs (env : Env σ) (a4 a6 : Bytes) : Prop where
  there : ∀ w, ∃ zone,
    (env.mapIPv4ToIPv6 (.from4 a4) w).1 = .ok (.v6 (BitVec.ofNat 128 (Bytes.toNat a6)) zone)
  back : ∀ allocate w, (env.mapIPv6ToIPv4 (.from16 a6) allocate w).1 = .ok (.from4 a4)

theorem Env.Pairs.to6 {a4 a6 : Bytes} (pairs : env.Pairs a4 a6) (sixteen : a6.length = 16) (w : σ) :
    (env.to6 a4 w).1 = .ok a6 := by
  obtain ⟨zone, answer⟩ := pairs.there w
  have bound : Bytes.toNat a6 < 2 ^ 128 := by
    have spelled := toNat_lt a6
    rwa [sixteen] at spelled
  rw [Env.to6]
  rcases asked : env.mapIPv4ToIPv6 (.from4 a4) w with ⟨_, w'⟩
  rw [asked] at answer
  cases answer
  simp only [Netip.Addr.is6, Netip.Addr.as16, if_true, BitVec.toNat_ofNat]
  rw [Nat.mod_eq_of_lt bound, ofNat_toNat sixteen]

theorem Env.Pairs.to4 {a4 a6 : Bytes} (pairs : env.Pairs a4 a6) (four : a4.length = 4)
    (allocate : Bool) (w : σ) : (env.to4 allocate a6 w).1 = .ok a4 := by
  have answer := pairs.back allocate w
  have bound : Bytes.toNat a4 < 2 ^ 32 := by
    have spelled := toNat_lt a4
    rwa [four] at spelled
  rw [Env.to4]
  rcases asked : env.mapIPv6ToIPv4 (.from16 a6) allocate w with ⟨_, w'⟩
  rw [asked] at answer
  cases answer
  simp only [Netip.Addr.from4, BitVec.toNat_ofNat]
  rw [Nat.mod_eq_of_lt bound, ofNat_toNat four]

theorem Env.sample_willing : Env.sample.Willing := fun _ _ none => nomatch none

/-- The sample mapper pairs every address with its place under the well-known prefix. -/
theorem Env.sample_pairs {a : Bytes} (four : a.length = 4) :
    Env.sample.Pairs a ([0, 0x64, 0xff, 0x9b, 0, 0, 0, 0, 0, 0, 0, 0] ++ a) := by
  have small : Bytes.toNat a < 2 ^ 32 := by
    have spelled := toNat_lt a
    rwa [four] at spelled
  have joined : Bytes.toNat ([0, 0x64, 0xff, 0x9b, 0, 0, 0, 0, 0, 0, 0, 0] ++ a) =
      0x64ff9b * 2 ^ 96 + Bytes.toNat a := by
    match a, four with
    | [_, _, _, _], _ =>
      simp [Bytes.toNat]
      omega
  constructor
  · intro w
    refine ⟨"", ?_⟩
    rw [joined]
    show Except.ok (Netip.Addr.v6 (BitVec.ofNat 128 (0x64ff9b * 2 ^ 96 + Bytes.toNat a % 2 ^ 32)) "") = _
    rw [Nat.mod_eq_of_lt small]
  · intro allocate w
    show Except.ok (Netip.Addr.v4 (BitVec.ofNat 32 (Bytes.toNat (_ ++ a) % 2 ^ 128))) =
      .ok (Netip.Addr.v4 (BitVec.ofNat 32 (Bytes.toNat a)))
    refine congrArg (fun n => Except.ok (Netip.Addr.v4 n)) (BitVec.eq_of_toNat_eq ?_)
    rw [joined, BitVec.toNat_ofNat, BitVec.toNat_ofNat]
    omega

theorem translate_through6 {raw : Bytes} {p : Packet6} (found : parse6 raw = .ok p)
    (through : Through6 t p)
    (kind : p.proto = protoICMPv6 → p.icmpType = 128 ∨ p.icmpType = 129) :
    translate env t raw = data6 env t p := by
  have parsed := parse6_ok found
  have some : raw.length ≠ 0 := by have := parsed.long; omega
  rw [translate_eq, receive, if_neg some, parsed.version, if_neg (by decide), if_pos rfl, receive6,
    found]
  dsimp only
  rw [if_neg (by simp [through.hop, through.length]),
    if_neg (fun bad => bad.2 (through.message bad.1)), if_neg through.foreign,
    if_neg through.alive, if_pos kind]

theorem translate_data6 {raw : Bytes} {p : Packet6} (found : parse6 raw = .ok p) (hop : p.hop ≠ 0)
    (alive : p.hop ≠ 1) (length : p.extLen + p.data.length = p.payloadLen)
    (transport : p.proto ≠ protoICMPv6) (foreign : p.dst ≠ t.local6) :
    translate env t raw = data6 env t p :=
  translate_through6 found ⟨⟨hop, length, fun icmp => absurd icmp transport⟩, foreign, alive⟩
    fun icmp => absurd icmp transport

theorem translate_through4 {raw : Bytes} {p : Packet4} (found : parse4 raw = .ok p)
    (through : Through4 t p) (kind : p.proto = protoICMP → p.icmpType = 8 ∨ p.icmpType = 0) :
    translate env t raw = data4 env t p := by
  have parsed := parse4_ok found
  have some : raw.length ≠ 0 := by have := parsed.long; omega
  rw [translate_eq, receive, if_neg some, parsed.version, if_pos rfl, receive4, found]
  dsimp only
  rw [if_neg (by simp [through.ttl, through.header, through.size]),
    if_neg (fun bad => bad.2 (through.message bad.1)), if_neg through.foreign,
    if_neg through.alive, if_pos kind]

theorem translate_data4 {raw : Bytes} {p : Packet4} (found : parse4 raw = .ok p) (ttl : p.ttl ≠ 0)
    (alive : p.ttl ≠ 1) (header : verify p.hdr 0) (size : p.size = p.total)
    (transport : p.proto ≠ protoICMP) (foreign : p.dst ≠ t.local4) :
    translate env t raw = data4 env t p :=
  translate_through4 found ⟨⟨ttl, header, size, fun icmp => absurd icmp transport⟩, foreign, alive⟩
    fun icmp => absurd icmp transport

theorem data6_sends {p : Packet6} {src4 dst4 out : Bytes} (willing : env.Willing)
    (dst : ∀ w, (env.to4 false p.dst w).1 = .ok dst4)
    (src : ∀ w, (env.to4 true p.src w).1 = .ok src4) (small : p.size ≤ t.cfg.mtu)
    (payload : rewrite6to4 t.cfg.udpChecksum p src4 dst4 = .ok out) :
    (data6 env t p).Meets fun acts _ => ∃ ident flags, IdentFlags p p.data.length ident flags ∧
      acts = [.packet (whole6to4 p ident flags src4 dst4 out), .translated 6 p.size] := by
  refine meets_ask_bind fun w => ?_
  rw [dst w]
  refine meets_ask_bind fun w' => ?_
  rw [src w']
  dsimp only
  rw [forward6, if_neg (by omega)]
  refine meets_bind ((meets_identFlags p p.data.length).mono ?_)
  rintro acts result ⟨rfl, ident, flags, rfl, fragment⟩
  dsimp only
  rw [payload]
  refine meets_bind (meets_emit.mono ?_)
  rintro acts result (⟨rfl, rfl⟩ | ⟨-, -, unwilling⟩)
  · exact meets_act ⟨ident, flags, fragment, rfl⟩
  · exact absurd willing unwilling

theorem forward4_sends {p : Packet4} {src6 dst6 out : Bytes} {whole : Bool} (willing : env.Willing)
    (usable : mtuMin ≤ t.cfg.mtu)
    (fits : noFragHdr t p.flagsOff t.room p.hdr.length p.data.length = some whole)
    (payload : rewrite4to6 t.cfg.udpChecksum p src6 dst6 = .ok out) :
    (forward4 env t p src6 dst6).Meets fun acts _ =>
      acts = (pieces4to6 t p src6 dst6 out whole).map .packet ++ [.translated 4 p.size] := by
  rw [forward4, fits, payload]
  refine meets_bind ?_
  cases whole with
  | true =>
    refine meets_emit.mono ?_
    rintro acts result (⟨rfl, rfl⟩ | ⟨-, -, unwilling⟩)
    · exact meets_act rfl
    · exact absurd willing unwilling
  | false =>
    obtain ⟨same, positive⟩ := fragRoom_eq usable
    rw [if_neg (by decide), same]
    refine (sendFragments_spec positive (by omega)).mono ?_
    rintro acts result ⟨sent, done, rfl, rfl, -, all, refused⟩
    cases done with
    | true =>
      rw [all rfl]
      exact meets_act rfl
    | false => exact absurd willing (refused rfl)

theorem data4_sends {p : Packet4} {src6 dst6 out : Bytes} {whole : Bool} (willing : env.Willing)
    (usable : mtuMin ≤ t.cfg.mtu) (dst : ∀ w, (env.to6 p.dst w).1 = .ok dst6)
    (src : ∀ w, (env.to6 p.src w).1 = .ok src6)
    (fits : noFragHdr t p.flagsOff t.room p.hdr.length p.data.length = some whole)
    (payload : rewrite4to6 t.cfg.udpChecksum p src6 dst6 = .ok out) :
    (data4 env t p).Meets fun acts _ =>
      acts = (pieces4to6 t p src6 dst6 out whole).map .packet ++ [.translated 4 p.size] := by
  refine meets_ask_bind fun w => ?_
  rw [dst w]
  refine meets_ask_bind fun w' => ?_
  rw [src w']
  exact forward4_sends willing usable fits payload

theorem data4_run {p : Packet4} {src6 dst6 : Bytes} {w : σ} (dst : (env.to6 p.dst w).1 = .ok dst6)
    (src : (env.to6 p.src (env.to6 p.dst w).2).1 = .ok src6) :
    data4 env t p w = forward4 env t p src6 dst6 (env.to6 p.src (env.to6 p.dst w).2).2 := by
  rw [data4, bind_run, ask_run]
  simp only [dst]
  rw [bind_run, ask_run]
  simp only [src]
  rfl

theorem wordSum_pos {b : Bytes} (long : 2 ≤ b.length) (some : byteAt b 0 ≠ 0 ∨ byteAt b 1 ≠ 0) :
    0 < wordSum b := by
  match b, long with
  | high :: low :: rest, _ =>
    have word : 0 < high.toNat * 256 + low.toNat := by
      rcases some with first | second
      · have := UInt8.toNat_inj.not.mpr first
        simp only [byteAt_cons_zero, UInt8.toNat_zero] at this
        omega
      · have := UInt8.toNat_inj.not.mpr second
        simp only [byteAt_cons_succ, byteAt_cons_zero, UInt8.toNat_zero] at this
        omega
    exact Nat.lt_of_lt_of_le word (Nat.le_add_right _ _)

theorem valid4_sum {src dst : Bytes} (hs : src.length = 4) (hd : dst.length = 4)
    (valid : Netutil.classifyIPv4 src ≠ .invalid) : (sum16 (src ++ dst) 0).toNat ≠ 0 := by
  have first : byteAt src 0 ≠ 0 := by
    intro zero
    exact valid (by rw [Netutil.classifyIPv4, if_pos zero])
  have some := wordSum_pos (show 2 ≤ src.length by omega) (.inl first)
  obtain ⟨sum, -⟩ := @sum16_pair src dst (by omega) (by omega)
  rw [carry_eq_iff] at sum
  omega

theorem valid6_sum {src dst : Bytes} (hs : src.length = 16) (hd : dst.length = 16)
    (valid : Netutil.validIPv6 src) : (sum16 (src ++ dst) 0).toNat ≠ 0 := by
  have first : byteAt src 0 ≠ 0 ∨ byteAt src 1 ≠ 0 := by
    by_contra none
    simp only [not_or, not_not] at none
    simp [Netutil.validIPv6, none.1, none.2] at valid
  have some := wordSum_pos (show 2 ≤ src.length by omega) first
  obtain ⟨sum, -⟩ := @sum16_pair src dst (by omega) (by omega)
  rw [carry_eq_iff] at sum
  omega

theorem Parsed4.valid {raw : Bytes} {p : Packet4} (parsed : Parsed4 raw p) :
    Netutil.classifyIPv4 p.src ≠ .invalid ∧ Netutil.classifyIPv4 p.dst ≠ .invalid := by
  have good := parsed.good
  have bounds := headerLen4_bounds good
  simp only [badHeader4, not_or] at good
  have src : p.src = sub raw 12 16 := by
    rw [Packet4.src, parsed.hdr, sub, sub, List.take_take, Nat.min_eq_left (by omega)]
  have dst : p.dst = sub raw 16 20 := by
    rw [Packet4.dst, parsed.hdr, sub, sub, List.take_take, Nat.min_eq_left (by omega)]
  rw [src, dst]
  exact ⟨good.2.2.2.2.1, good.2.2.2.2.2⟩

theorem Parsed6.valid {raw : Bytes} {p : Packet6} (parsed : Parsed6 raw p) :
    Netutil.validIPv6 p.src ∧ Netutil.validIPv6 p.dst := by
  have good := parsed.good
  simp only [badHeader6, not_or, not_not] at good
  have src : p.src = sub raw 8 24 := by
    rw [Packet6.src, parsed.hdr, sub, sub, List.take_take, ipv6HdrLen, Nat.min_eq_left (by omega)]
  have dst : p.dst = sub raw 24 40 := by
    rw [Packet6.dst, parsed.hdr, sub, sub, List.take_take, ipv6HdrLen, Nat.min_eq_left (by omega)]
  rw [src, dst]
  exact good.2

/-- A single IPv6 packet without a fragment header is the whole translated packet. -/
theorem Handled.whole4 {raw q : Bytes} {acts : List Action} (handled : Handled env t raw acts)
    {v : Packet4} (found : parse4 raw = .ok v) (transport : v.proto ≠ protoICMP)
    (sent : packets acts = [q]) (six : byteAt q 0 >>> 4 = 6) (plain : byteAt q 6 ≠ protoFrag) :
    ∃ src6 dst6 data, Forwarded4 env t v src6 dst6 data ∧
      noFragHdr t v.flagsOff t.room v.hdr.length v.data.length = some true ∧
      q = whole4to6 v src6 dst6 data := by
  cases handled with
  | empty => cases sent
  | unknown => cases sent
  | six _ version =>
    have four := (parse4_ok found).version
    rw [version] at four
    exact absurd four (by decide)
  | four _ version handled =>
    cases handled with
    | unparsed failed => cases sent
    | parsed again trace =>
      cases found.symm.trans again
      cases trace with
      | report => cases sent
      | complain =>
        cases sent
        exact absurd six (show ¬ (0x45 : UInt8) >>> 4 = 6 by decide)
      | echo _ _ icmp => exact absurd icmp transport
      | data forwarded whole fits pieces done shape =>
        have only : pieces = [q] := by
          cases done <;> simpa [packets] using sent
        have piece := shape q (by simp [only])
        cases whole with
        | true => exact ⟨_, _, _, forwarded, fits, piece⟩
        | false =>
          obtain ⟨k, n, -, -, rfl⟩ := piece
          exact absurd rfl plain
      | error forwarded => exact absurd forwarded.icmp transport
      | errorRefused synth => cases synth <;> cases sent
      | errorUnmapped synth => cases synth <;> cases sent

/-- What leaves without a fragment header was not a fragment and is within the MTU. -/
theorem noFragHdr_whole {fo hdrLen dataLen : Nat} (header : 20 ≤ hdrLen)
    (fits : noFragHdr t fo t.room hdrLen dataLen = some true) :
    fo &&& ip4OffMask = 0 ∧ (ipv6HdrLen + dataLen : Int) ≤ t.cfg.mtu := by
  unfold noFragHdr at fits
  split at fits
  · rename_i whole
    rw [Nat.and_or_distrib_left, Nat.or_eq_zero_iff] at whole
    refine ⟨whole.1, ?_⟩
    have room : t.room ≤ t.cfg.mtu - 40 := by
      simp only [Translator.room, ipv6HdrLen]
      omega
    rw [ipv6HdrLen]
    split at fits
    · split at fits
      · cases fits
      · rename_i small
        rw [mtuAdj] at small
        omega
    · have small := of_decide_eq_true (Option.some.inj fits)
      omega
  · cases fits

theorem proto4Reason_plain {proto : UInt8} {fo len : Nat} (transport : proto ≠ protoICMP)
    (accepted : proto4Reason proto fo len = .none) :
    ¬ (proto = 0 ∨ proto = 43 ∨ proto = 60) ∧ proto ≠ protoFrag ∧ proto ≠ protoICMPv6 := by
  rw [proto4Reason, if_neg transport] at accepted
  split at accepted
  · cases accepted
  · rename_i other
    simp only [not_or] at other
    exact ⟨by simp [other], other.2.2.1, other.2.2.2.1⟩

theorem survives {hop : UInt8} (alive : 2 ≤ hop.toNat) : hop ≠ 0 ∧ hop ≠ 1 := by
  constructor
  · rintro rfl
    exact absurd alive (by decide)
  · rintro rfl
    exact absurd alive (by decide)

theorem translate_plain6 {src dst src4 dst4 data out : Bytes} {tc next hop : UInt8}
    (willing : env.Willing) (hs : src.length = 16) (hd : dst.length = 16)
    (validSrc : Netutil.validIPv6 src) (validDst : Netutil.validIPv6 dst)
    (foreign : dst ≠ t.local6) (toSrc : ∀ w, (env.to4 true src w).1 = .ok src4)
    (toDst : ∀ w, (env.to4 false dst w).1 = .ok dst4) (alive : 2 ≤ hop.toNat)
    (plain : ¬ (next = 0 ∨ next = 43 ∨ next = 60) ∧ next ≠ protoFrag ∧ next ≠ protoICMPv6)
    (notICMP : next ≠ protoICMP) (short : data.length < 65536)
    (small : (ipv6HdrLen + data.length : Int) ≤ t.cfg.mtu)
    (payload : rewriteTransport t.cfg.udpChecksum next data (pseudo4 src4 dst4 data.length protoUDP)
      (sum16 (src ++ dst) 0) (sum16 (src4 ++ dst4) 0) = .ok out) (w : σ) :
    ∃ ident flags, (flags % 65536 % 2 ^ 13 * 8 = 0 ∧ (flags % 65536).testBit 13 = false) ∧
      packets (translate env t (ipv6Header tc data.length next hop src dst ++ data) w).acts =
        [sealedIPv4Header tc (ipv4HdrLen + out.length) ident flags (hop - 1) next src4 dst4 ++
          out] := by
  obtain ⟨ordinary, whole, transport⟩ := plain
  have accepted : proto6Reason next 0 data.length = .none := by
    rw [proto6Reason, if_neg transport, if_neg notICMP]
  obtain ⟨v, found, hdr, ext, frag, proto, body⟩ := parse6_whole hs hd validSrc validDst short
    ordinary whole accepted tc hop
  -- every field of the packet as it was written
  have fields : v.src = src ∧ v.dst = dst ∧ v.hop = hop ∧ v.tc = tc ∧
      v.payloadLen = data.length := by
    simp only [Packet6.src, Packet6.dst, Packet6.hop, Packet6.tc, Packet6.payloadLen, hdr]
    rw [← List.append_nil (ipv6Header tc data.length next hop src dst),
      ipv6Header_src _ _ _ _ _ hs hd, ipv6Header_dst _ _ _ _ _ hs hd, ipv6Header_hop,
      ipv6Header_tc, ipv6Header_len, Nat.mod_eq_of_lt short]
    simp
  obtain ⟨hsrc, hdst, hhop, htc, hlen⟩ := fields
  have ext0 : v.extLen = 0 := by simp [Packet6.extLen, ext, frag]
  have positive := survives alive
  have call : translate env t (ipv6Header tc data.length next hop src dst ++ data) =
      data6 env t v :=
    translate_data6 found (hhop ▸ positive.1) (hhop ▸ positive.2) (by rw [ext0, body, hlen]; omega)
      (proto ▸ transport) (hdst ▸ foreign)
  have rewritten : rewrite6to4 t.cfg.udpChecksum v src4 dst4 = .ok out := by
    have start : v.offFlags = 0 := by rw [Packet6.offFlags, frag]; rfl
    rw [rewrite6to4, start, if_neg (by decide), proto, if_neg transport, body,
      v.addresses, hsrc, hdst]
    exact payload
  have sends := data6_sends willing (hdst ▸ toDst) (hsrc ▸ toSrc)
    (show (v.size : Int) ≤ t.cfg.mtu by rw [Packet6.size, ext0, body]; exact_mod_cast small)
    rewritten w
  obtain ⟨ident, flags, fragment, acts⟩ := sends
  refine ⟨ident, flags, fragment.whole frag, ?_⟩
  rw [call, acts, whole6to4, htc, hhop, Packet6.next, proto, if_neg transport]
  rfl

theorem Forwarded4.returns {raw src6 dst6 data : Bytes} {v : Packet4} (willing : env.Willing)
    (parsed : Parsed4 raw v) (forwarded : Forwarded4 env t v src6 dst6 data)
    (fits : noFragHdr t v.flagsOff t.room v.hdr.length v.data.length = some true)
    (src : env.Pairs v.src src6) (dst : env.Pairs v.dst dst6) (hs : src6.length = 16)
    (hd : dst6.length = 16) (validSrc : Netutil.validIPv6 src6) (validDst : Netutil.validIPv6 dst6)
    (foreign : dst6 ≠ t.local6) (ttl : 3 ≤ v.ttl.toNat) (transport : v.proto ≠ protoICMP)
    (restorable : Restorable t.cfg.udpChecksum v.proto v.data) (w : σ) :
    ∃ ident flags, (flags % 65536 % 2 ^ 13 * 8 = 0 ∧ (flags % 65536).testBit 13 = false) ∧
      packets (translate env t (whole4to6 v src6 dst6 data) w).acts =
        [sealedIPv4Header v.tos (ipv4HdrLen + v.data.length) ident flags (v.ttl - 1 - 1) v.proto
          v.src v.dst ++ v.data] := by
  have header := v.hdr_ge
  have four := v.length_src
  have four' := v.length_dst
  obtain ⟨start, small⟩ := noFragHdr_whole header fits
  have total := forwarded.total_lt
  have width := length_rewrite4to6 forwarded.payload
  have there := forwarded.payload
  rw [rewrite4to6, if_neg (by simp [start]), if_neg transport, v.addresses] at there
  obtain ⟨-, sum4⟩ := @sum16_pair v.src v.dst (by omega) (by omega)
  obtain ⟨-, sum6⟩ := @sum16_pair src6 dst6 (by omega) (by omega)
  have back := @rewriteTransport_back _ _ _ _ _ (pseudo4 v.src v.dst data.length protoUDP) _ _
    (Nat.lt_of_le_of_lt sum4 (by decide)) (Nat.lt_of_le_of_lt sum6 (by decide))
    (valid4_sum four four' parsed.valid.1) restorable there
  have next : v.next = v.proto := if_neg transport
  have alive : 2 ≤ (v.ttl - 1).toNat := by
    rw [toNat_pred (by omega)]
    omega
  rw [whole4to6, next]
  exact translate_plain6 willing hs hd validSrc validDst foreign (src.to4 four true)
    (dst.to4 four' false) alive (proto4Reason_plain transport parsed.accepted) transport (by omega)
    (width ▸ small) back w

/-- 464XLAT: an IPv4 packet that crosses as one IPv6 packet comes back as it was,
with two hops less to go. -/
theorem returns_4to6to4 {σ : Type} {env : Env σ} {t : Translator} (willing : env.Willing)
    {raw q src6 dst6 : Bytes} {p : Pkt} (parsed : parseIPv4 { raw } = .ok (.none, p))
    (src : env.Pairs (sub p.ipBytes 12 16) src6) (dst : env.Pairs (sub p.ipBytes 16 20) dst6)
    (hs : src6.length = 16) (hd : dst6.length = 16) (validSrc : Netutil.validIPv6 src6)
    (validDst : Netutil.validIPv6 dst6) (foreign : dst6 ≠ t.local6)
    (ttl : 3 ≤ (byteAt p.ipBytes 8).toNat) (transport : p.proto ≠ protoICMP)
    (restorable : Restorable t.cfg.udpChecksum p.proto p.data) {w : σ}
    (sent : packets (translate env t raw w).acts = [q]) (six : byteAt q 0 >>> 4 = 6)
    (whole : byteAt q 6 ≠ protoFrag) (w' : σ) :
    ∃ back, packets (translate env t q w').acts = [back] ∧ byteAt back 0 >>> 4 = 4 ∧
      Reassembles [piece4 back] p.datagram4 ∧ byteAt back 1 = byteAt p.ipBytes 1 ∧
      (byteAt back 8).toNat + 2 = (byteAt p.ipBytes 8).toNat := by
  obtain ⟨v, found, view⟩ := parse4_of_accepted parsed
  rw [view.datagram]
  rw [view.ipBytes] at src dst ttl ⊢
  rw [view.proto] at transport
  rw [view.proto, view.data] at restorable
  obtain ⟨src6', dst6', data, forwarded, fits, rfl⟩ :=
    (translate_sound env t raw w).1.whole4 found transport sent six whole
  -- the mapper's answers are the pairs of the two addresses
  obtain ⟨w₁, toSrc⟩ := forwarded.src
  obtain ⟨w₂, toDst⟩ := forwarded.dst
  cases (src.to6 hs w₁).symm.trans toSrc
  cases (dst.to6 hd w₂).symm.trans toDst
  obtain ⟨ident, flags, unfragmented, back⟩ := forwarded.returns willing (parse4_ok found) fits src
    dst hs hd validSrc validDst foreign ttl transport restorable w'
  have header := v.hdr_ge
  have total := forwarded.total_lt
  have hops : (v.ttl - 1 - 1).toNat + 2 = v.ttl.toNat := by
    have counted : 3 ≤ v.ttl.toNat := ttl
    have once := @toNat_pred v.ttl (by omega)
    have twice := @toNat_pred (v.ttl - 1) (by omega)
    omega
  refine ⟨_, back, (show (0x45 : UInt8) >>> 4 = 4 by decide), ?_, rfl, hops⟩
  exact reassembles_sealed v.length_src v.length_dst (by rw [ipv4HdrLen]; omega) _ _ _ unfragmented

/-- A UDP datagram from 192.0.2.33 to 198.51.100.1 under the well-known prefix. -/
theorem returns_4to6to4_udp :
    let raw : Bytes := [69, 0, 0, 32, 0, 7, 0, 0, 64, 17, 142, 112, 192, 0, 2, 33, 198, 51, 100, 1,
      48, 57, 0, 53, 0, 12, 223, 11, 1, 2, 3, 4]
    let q : Bytes := [96, 0, 0, 0, 0, 12, 17, 63, 0, 100, 255, 155, 0, 0, 0, 0, 0, 0, 0, 0,
      192, 0, 2, 33, 0, 100, 255, 155, 0, 0, 0, 0, 0, 0, 0, 0, 198, 51, 100, 1,
      48, 57, 0, 53, 0, 12, 223, 11, 1, 2, 3, 4]
    packets (translate Env.sample (.sample 1500 .calc) raw ()).acts = [q] ∧
      ∃ back, packets (translate Env.sample (.sample 1500 .calc) q ()).acts = [back] ∧
        (byteAt back 8).toNat + 2 = 64 ∧ Reassembles [piece4 back]
          ⟨[192, 0, 2, 33], [198, 51, 100, 1], 17, [48, 57, 0, 53, 0, 12, 223, 11, 1, 2, 3, 4]⟩ := by
  intro raw q
  have sent : packets (translate Env.sample (.sample 1500 .calc) raw ()).acts = [q] := by
    decide +kernel
  have parsed : parseIPv4 { raw } = .ok (.none,
      { raw, ip := some 20, hdrLen := 20, lo := 20, hi := 32, proto := 17 }) := by
    decide +kernel
  obtain ⟨back, only, -, same, -, hops⟩ := returns_4to6to4 Env.sample_willing parsed
    (Env.sample_pairs rfl) (Env.sample_pairs rfl) rfl rfl (by decide) (by decide) (by decide)
    (by decide) (by decide) ⟨by decide, fun _ => .inl (by decide)⟩ sent (by decide) (by decide) ()
  exact ⟨sent, back, only, hops, same⟩

/-- A plain IPv4 data packet leaves whole or in fragments, as its flags and its
length have it. -/
theorem translate_plain4 {src dst src6 dst6 data out : Bytes} {tos proto ttl : UInt8}
    {ident flags : Nat} {whole : Bool} (willing : env.Willing) (usable : mtuMin ≤ t.cfg.mtu)
    (hs : src.length = 4) (hd : dst.length = 4) (validSrc : Netutil.classifyIPv4 src ≠ .invalid)
    (validDst : Netutil.classifyIPv4 dst ≠ .invalid) (foreign : dst ≠ t.local4)
    (toSrc : ∀ w, (env.to6 src w).1 = .ok src6) (toDst : ∀ w, (env.to6 dst w).1 = .ok dst6)
    (alive : 2 ≤ ttl.toNat) (transport : proto ≠ protoICMP)
    (accepted : proto4Reason proto flags data.length = .none) (small : flags < 65536)
    (start : flags &&& ip4OffMask = 0) (short : ipv4HdrLen + data.length < 65536)
    (fits : noFragHdr t flags t.room ipv4HdrLen data.length = some whole)
    (payload : rewriteTransport t.cfg.udpChecksum proto data
      (pseudo6 src6 dst6 data.length protoUDP) (sum16 (src ++ dst) 0) (sum16 (src6 ++ dst6) 0) =
        .ok out) (w : σ) :
    ∃ v : Packet4, v.tos = tos ∧ v.ttl = ttl ∧ v.next = proto ∧
      packets (translate env t (sealedIPv4Header tos (ipv4HdrLen + data.length) ident flags ttl
        proto src dst ++ data) w).acts = pieces4to6 t v src6 dst6 out whole := by
  obtain ⟨v, found, hdr, body⟩ := parse4_sealed hs hd validSrc validDst rfl short small accepted tos
    ttl ident
  have fields : v.src = src ∧ v.dst = dst ∧ v.flagsOff = flags ∧
      v.total = ipv4HdrLen + data.length := by
    simp only [Packet4.src, Packet4.dst, Packet4.flagsOff, Packet4.total, hdr, sealedIPv4Header]
    rw [← List.append_nil (ipv4Header _ _ _ _ _ _ _ _ _), ipv4Header_src _ _ _ _ _ _ _ _ hs hd,
      ipv4Header_dst _ _ _ _ _ _ _ _ hs hd, ipv4Header_flags, ipv4Header_len,
      Nat.mod_eq_of_lt small, Nat.mod_eq_of_lt short]
    simp
  obtain ⟨hsrc, hdst, hflags, htotal⟩ := fields
  have htos : v.tos = tos := by rw [Packet4.tos, hdr]; rfl
  have httl : v.ttl = ttl := by rw [Packet4.ttl, hdr]; rfl
  have hproto : v.proto = proto := by rw [Packet4.proto, hdr]; rfl
  have width : v.hdr.length = ipv4HdrLen := by
    rw [hdr]
    simp [sealedIPv4Header, hs, hd, ipv4HdrLen]
  have positive := survives alive
  have call := @translate_data4 σ env t _ v found (httl ▸ positive.1) (httl ▸ positive.2)
    (by rw [hdr]; exact verify_sealed hs hd _ _ _ _ _ _)
    (by rw [Packet4.size, width, body, htotal]) (hproto ▸ transport) (hdst ▸ foreign)
  have rewritten : rewrite4to6 t.cfg.udpChecksum v src6 dst6 = .ok out := by
    rw [rewrite4to6, hflags, start, if_neg (by decide), hproto, if_neg transport, body, v.addresses,
      hsrc, hdst]
    exact payload
  have sends := data4_sends willing usable (hdst ▸ toDst) (hsrc ▸ toSrc)
    (by rw [hflags, width, body]; exact fits) rewritten w
  refine ⟨v, htos, httl, by rw [Packet4.next, hproto, if_neg transport], ?_⟩
  rw [call, sends]
  simp [packets]

/-- Sizes that are sent without DF although they do not fit unfragmented: the way to
IPv4 compares the payload alone with the minimum IPv6 MTU, the way back makes
room for the header. -/
def Translator.Refragments (t : Translator) (len : Nat) : Prop := t.room < len ∧ len ≤ mtuMin

instance (t : Translator) (len : Nat) : Decidable (t.Refragments len) :=
  inferInstanceAs (Decidable (_ ∧ _))

theorem noFragHdr_back {v : Packet6} {ident flags : Nat}
    (fragment : IdentFlags v v.data.length ident flags) (plain : v.extLen = 0)
    (unfragmented : v.frag = none) (small : (v.size : Int) ≤ t.cfg.mtu) :
    (flags = 0 ∨ flags = ip4FlagDF) ∧ noFragHdr t flags t.room ipv4HdrLen v.data.length =
      some (decide (¬ t.Refragments v.data.length)) := by
  rw [IdentFlags, unfragmented, plain] at fragment
  dsimp only at fragment
  rw [Packet6.size, plain, ipv6HdrLen] at small
  split at fragment
  · rename_i short
    obtain ⟨-, rfl⟩ := fragment
    refine ⟨.inl rfl, congrArg some (decide_eq_decide.mpr ?_)⟩
    simp only [Translator.Refragments]
    omega
  · rename_i long
    obtain ⟨-, rfl⟩ := fragment
    have inside : ¬ t.cfg.mtu - mtuAdj < ipv4HdrLen + v.data.length := by
      simp only [mtuAdj, ipv4HdrLen]
      omega
    have whole : ¬ t.Refragments v.data.length := by
      simp only [Translator.Refragments]
      omega
    refine ⟨.inr rfl, ?_⟩
    rw [noFragHdr, if_pos (by decide), if_pos (by decide)]
    exact (if_neg inside).trans (congrArg some (decide_eq_true whole).symm)

theorem Forwarded6.returns {raw src4 dst4 data : Bytes} {v : Packet6} {ident flags : Nat}
    (willing : env.Willing) (low : mtuMin ≤ t.cfg.mtu) (high : t.cfg.mtu ≤ 65535)
    (parsed : Parsed6 raw v) (forwarded : Forwarded6 env t v src4 dst4 data)
    (fragment : IdentFlags v v.data.length ident flags) (src : env.Pairs src4 v.src)
    (dst : env.Pairs dst4 v.dst) (validSrc : Netutil.classifyIPv4 src4 ≠ .invalid)
    (validDst : Netutil.classifyIPv4 dst4 ≠ .invalid) (foreign : dst4 ≠ t.local4)
    (hop : 3 ≤ v.hop.toNat) (plain : v.extLen = 0) (unfragmented : v.frag = none)
    (transport : v.proto = protoTCP ∨ v.proto = protoUDP)
    (restorable : Restorable t.cfg.udpChecksum v.proto v.data) (w : σ) :
    ∃ v4 : Packet4, v4.tos = v.tc ∧ v4.ttl = v.hop - 1 ∧ v4.next = v.proto ∧
      packets (translate env t (whole6to4 v ident flags src4 dst4 data) w).acts =
        pieces4to6 t v4 v.src v.dst v.data (decide (¬ t.Refragments v.data.length)) := by
  have small := forwarded.small
  obtain ⟨kinds, fits⟩ := noFragHdr_back fragment plain unfragmented small
  rw [Packet6.size, plain, ipv6HdrLen] at small
  obtain ⟨_, toSrc⟩ := forwarded.src
  obtain ⟨_, toDst⟩ := forwarded.dst
  have hs := Env.to4_length toSrc
  have hd := Env.to4_length toDst
  have width := length_rewrite6to4 forwarded.payload
  have notICMPv6 : v.proto ≠ protoICMPv6 := by
    rcases transport with same | same <;> rw [same] <;> decide
  have notICMP : v.proto ≠ protoICMP := by
    rcases transport with same | same <;> rw [same] <;> decide
  have start : v.offFlags = 0 := by rw [Packet6.offFlags, unfragmented]; rfl
  have there := forwarded.payload
  rw [rewrite6to4, start, if_neg (by decide), if_neg notICMPv6, v.addresses] at there
  obtain ⟨-, sum4⟩ := @sum16_pair src4 dst4 (by omega) (by omega)
  obtain ⟨-, sum6⟩ := @sum16_pair v.src v.dst (by simp [v.length_src])
    (by simp [v.length_src, v.length_dst])
  have back := @rewriteTransport_back _ _ _ _ _ (pseudo6 v.src v.dst data.length protoUDP) _ _
    (Nat.lt_of_le_of_lt sum6 (by decide)) (Nat.lt_of_le_of_lt sum4 (by decide))
    (valid6_sum v.length_src v.length_dst parsed.valid.1) restorable there
  have accepted : proto4Reason v.proto flags data.length = .none := by
    have other : ¬ (v.proto = 0 ∨ v.proto = 43 ∨ v.proto = 44 ∨ v.proto = 58 ∨ v.proto = 60) := by
      rcases transport with same | same <;> rw [same] <;> decide
    rw [proto4Reason, if_neg notICMP, if_neg other]
    rcases kinds with rfl | rfl
    · rw [if_neg (by simp), if_neg (by simp; omega)]
    · rw [if_neg (by simp [ip4FlagDF, ip4FlagMF]), if_neg (by simp [ip4FlagDF, ip4OffMask]; omega)]
  have word : flags < 65536 ∧ flags &&& ip4OffMask = 0 := by
    rcases kinds with rfl | rfl <;> decide
  have next : v.next = v.proto := if_neg notICMPv6
  have alive : 2 ≤ (v.hop - 1).toNat := by
    rw [toNat_pred (by omega)]
    omega
  rw [whole6to4, next]
  exact translate_plain4 willing low hs hd validSrc validDst foreign (src.to6 v.length_src)
    (dst.to6 v.length_dst) alive notICMP accepted word.1 word.2 (by rw [ipv4HdrLen]; omega)
    (width ▸ fits) back w

/-- An IPv4 packet made of an IPv6 data packet is the whole translated packet. -/
theorem Handled.whole6 {raw q : Bytes} {acts : List Action} (handled : Handled env t raw acts)
    {v : Packet6} (found : parse6 raw = .ok v) (transport : v.proto ≠ protoICMPv6)
    (sent : q ∈ packets acts) (four : byteAt q 0 >>> 4 = 4) :
    ∃ src4 dst4 data ident flags, Forwarded6 env t v src4 dst4 data ∧
      IdentFlags v v.data.length ident flags ∧ q = whole6to4 v ident flags src4 dst4 data := by
  cases handled with
  | empty => cases sent
  | unknown => cases sent
  | four _ version =>
    have six := (parse6_ok found).version
    rw [version] at six
    exact absurd six (by decide)
  | six _ version handled =>
    cases handled with
    | silent => cases sent
    | unparsed failed => cases sent
    | sourceRoute failed => cases found.symm.trans failed
    | parsed again trace =>
      cases found.symm.trans again
      cases trace with
      | report => cases sent
      | complain =>
        cases List.mem_singleton.mp sent
        rw [icmp6Packet, ipv6Header_version] at four
        exact absurd four (by decide)
      | echo _ _ icmp => exact absurd icmp transport
      | data forwarded fragment =>
        exact ⟨_, _, _, _, _, forwarded, fragment, List.mem_singleton.mp sent⟩
      | dataRefused => cases sent
      | error forwarded => exact absurd forwarded.icmp transport
      | errorRefused synth => cases synth <;> cases sent
      | errorUnmapped synth => cases synth <;> cases sent

/-- An IPv6 packet without a fragment header that carries what the parsed one carried. -/
structure ReturnedWhole (p : Pkt) (back : Bytes) : Prop where
  version : byteAt back 0 >>> 4 = 6
  plain : byteAt back 6 ≠ protoFrag
  datagram : Reassembles [piece6 back] p.datagram6
  trafficClass : UInt8.ofNat (be32 back 0 >>> 20) = UInt8.ofNat (be32 p.ipBytes 0 >>> 20)

theorem fragments4to6_plain {v : Packet4} {src6 dst6 data back : Bytes} {room fuel off : Nat}
    (only : fragments4to6 v src6 dst6 room fuel off data = [back]) : byteAt back 6 = protoFrag := by
  cases fuel with
  | zero => cases only
  | succ fuel =>
    rw [fragments4to6] at only
    split at only
    · rw [← (List.cons.inj only).1]
      rfl
    · cases only

/-- A TCP or UDP packet that goes from IPv6 to IPv4 and back comes back in one piece,
unless its size is one that is sent on without DF and does not fit. -/
theorem returns_6to4to6_iff {σ : Type} {cfg : Config} {t : Translator}
    (built : Translator.new cfg = .ok t) (low : mtuMin ≤ cfg.mtu) (high : cfg.mtu ≤ 65535)
    (offlink : mtuMin ≤ cfg.offlinkMTU) {env : Env σ} (willing : env.Willing)
    {raw q src4 dst4 : Bytes} {pointer : Nat} {silent : Bool} {p : Pkt}
    (parsed : parseIPv6 { raw } = .ok (.none, pointer, silent, p))
    (src : env.Pairs src4 (sub p.ipBytes 8 24)) (dst : env.Pairs dst4 (sub p.ipBytes 24 40))
    (hs : src4.length = 4) (hd : dst4.length = 4)
    (validSrc : Netutil.classifyIPv4 src4 ≠ .invalid)
    (validDst : Netutil.classifyIPv4 dst4 ≠ .invalid) (foreign : dst4 ≠ t.local4)
    (hop : 3 ≤ (byteAt p.ipBytes 7).toNat) (plain : p.hdrLen = 0)
    (transport : p.proto = protoTCP ∨ p.proto = protoUDP)
    (tcp : p.proto = protoTCP → be16 p.data 16 ≠ 0xffff)
    (udp : p.proto = protoUDP → be16 p.data 6 ≠ 0) {w : σ}
    (sent : q ∈ packets (translate env t raw w).acts) (four : byteAt q 0 >>> 4 = 4) (w' : σ) :
    (∃ back, packets (translate env t q w').acts = [back] ∧ ReturnedWhole p back) ↔
      ¬ (min cfg.offlinkMTU cfg.mtu - ipv6HdrLen < p.data.length ∧ p.data.length ≤ mtuMin) := by
  obtain ⟨v, found, view⟩ := parse6_of_accepted parsed
  have kept : t.cfg = cfg := by
    rw [Translator.new_cfg built, Config.raised, if_neg (by omega)]
  have window : t.Refragments v.data.length ↔
      min cfg.offlinkMTU cfg.mtu - ipv6HdrLen < v.data.length ∧ v.data.length ≤ mtuMin := by
    rw [Translator.Refragments, Translator.room, kept]
  rw [view.data, ← window]
  rw [view.ipBytes] at src dst hop
  rw [view.hdrLen] at plain
  rw [view.proto] at transport
  rw [view.proto, view.data] at tcp udp
  have unfragmented : v.frag = none := by
    rcases some : v.frag with _ | f
    · rfl
    · have width := v.frag_length some
      rw [Packet6.extLen, some, Option.getD_some, width] at plain
      omega
  have notICMPv6 : v.proto ≠ protoICMPv6 := by
    rcases transport with same | same <;> rw [same] <;> decide
  obtain ⟨src4', dst4', data, ident, flags, forwarded, fragment, rfl⟩ :=
    (translate_sound env t raw w).1.whole6 found notICMPv6 sent four
  obtain ⟨w₁, toSrc⟩ := forwarded.src
  obtain ⟨w₂, toDst⟩ := forwarded.dst
  cases (src.to4 hs true w₁).symm.trans toSrc
  cases (dst.to4 hd false w₂).symm.trans toDst
  obtain ⟨v4, htos, -, hnext, back⟩ := forwarded.returns willing (kept ▸ low) (kept ▸ high)
    (parse6_ok found) fragment src dst validSrc validDst foreign hop plain unfragmented transport
    ⟨tcp, fun same => .inl (udp same)⟩ w'
  rw [back]
  by_cases refragments : t.Refragments v.data.length
  · refine iff_of_false ?_ (not_not.mpr refragments)
    rintro ⟨one, only, returned⟩
    rw [decide_eq_false (not_not.mpr refragments)] at only
    exact returned.plain (fragments4to6_plain only)
  · refine iff_of_true ⟨_, by rw [decide_eq_true refragments]; rfl, ?_⟩ refragments
    have small := forwarded.small
    rw [Packet6.size, ipv6HdrLen, kept] at small
    have notFrag : v.proto ≠ protoFrag := by
      rcases transport with same | same <;> rw [same] <;> decide
    rw [whole4to6, htos, hnext]
    have piece := @piece6_whole v.src v.dst v.data v.proto v.length_src v.length_dst notFrag
      (by omega) v.tc (v4.ttl - 1)
    refine ⟨ipv6Header_version _ _ _ _ _, notFrag, ?_, ?_⟩
    · rw [piece, view.datagram]
      exact ⟨⟨_, _, rfl, .last ⟨rfl, rfl, rfl, rfl⟩ rfl rfl, rfl, rfl, rfl⟩, by
        simp [Packet6.datagram]⟩
    · rw [ipv6Header_tc, view.ipBytes]
      rfl

/-- A UDP datagram that fits comes back whole. -/
theorem returns_6to4to6_udp :
    let raw : Bytes := [96, 0, 0, 0, 0, 12, 17, 63, 0, 100, 255, 155, 0, 0, 0, 0, 0, 0, 0, 0,
      192, 0, 2, 33, 0, 100, 255, 155, 0, 0, 0, 0, 0, 0, 0, 0, 198, 51, 100, 1,
      48, 57, 0, 53, 0, 12, 223, 11, 1, 2, 3, 4]
    let q : Bytes := [69, 0, 0, 32, 0, 0, 0, 0, 62, 17, 144, 119, 192, 0, 2, 33, 198, 51, 100, 1,
      48, 57, 0, 53, 0, 12, 223, 11, 1, 2, 3, 4]
    q ∈ packets (translate Env.sample (.sample 1500 .calc) raw ()).acts ∧
      ∃ back, packets (translate Env.sample (.sample 1500 .calc) q ()).acts = [back] ∧
        ReturnedWhole { raw, ip := some 40, hdrLen := 0, lo := 40, hi := 52, proto := 17 } back := by
  intro raw q
  have sent : q ∈ packets (translate Env.sample (.sample 1500 .calc) raw ()).acts := by
    decide +kernel
  have parsed : parseIPv6 { raw } = .ok (.none, 0, false,
      { raw, ip := some 40, hdrLen := 0, lo := 40, hi := 52, proto := 17 }) := by
    decide +kernel
  have built : Translator.new (Config.sample 1500 1280 .calc) = .ok (.sample 1500 .calc) := rfl
  refine ⟨sent, (returns_6to4to6_iff built (by decide) (by decide) (by decide) Env.sample_willing
    parsed (Env.sample_pairs rfl) (Env.sample_pairs rfl) rfl rfl (by decide) (by decide) (by decide)
    (by decide) rfl (.inr rfl) (by decide) (by decide) sent (by decide) ()).mpr (by decide)⟩

/-- A UDP datagram of 1250 bytes leaves for IPv4 without DF and comes back in two
fragments, where the off-link MTU is 1280. -/
theorem returns_6to4to6_fragmented :
    let raw : Bytes := [96, 0, 0, 0, 4, 226, 17, 63, 0, 100, 255, 155, 0, 0, 0, 0, 0, 0, 0, 0,
      192, 0, 2, 33, 0, 100, 255, 155, 0, 0, 0, 0, 0, 0, 0, 0, 198, 51, 100, 1,
      48, 57, 0, 53, 4, 226, 217, 101] ++ List.replicate 1242 0
    let sent := packets (translate Env.sample (.sample 1500 .calc) raw ()).acts
    Translator.new (Config.sample 1500 1280 .calc) = .ok (.sample 1500 .calc) ∧
      parseIPv6 { raw } = .ok (.none, 0, false,
        { raw, ip := some 40, hdrLen := 0, lo := 40, hi := 1290, proto := 17 }) ∧
      sent.length = 1 ∧ ∀ q ∈ sent, byteAt q 0 >>> 4 = 4 ∧
        ¬ ∃ back, packets (translate Env.sample (.sample 1500 .calc) q ()).acts = [back] ∧
          ReturnedWhole { raw, ip := some 40, hdrLen := 0, lo := 40, hi := 1290, proto := 17 }
            back := by
  intro raw sent
  have returned : ∀ q ∈ sent, byteAt q 0 >>> 4 = 4 ∧
      (packets (translate Env.sample (.sample 1500 .calc) q ()).acts).length = 2 := by
    decide +kernel
  refine ⟨rfl, by decide +kernel, by decide +kernel, fun q member => ?_⟩
  obtain ⟨version, two⟩ := returned q member
  refine ⟨version, ?_⟩
  rintro ⟨back, only, -⟩
  rw [only] at two
  cases two

end Clatto.Xlate
