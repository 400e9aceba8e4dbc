import Clatto.Xlate.PathMTU
import Clatto.Xlate.RoundTrip

/-! What the translator emits, read with its own parsers. -/

namespace Clatto.Xlate

open Bytes Effect

variable {σ : Type}

/-- The mapper answers with addresses that both parsers let through. -/
structure Env.Proper (env : Env σ) : Prop where
  to6 : ∀ {a : Netip.Addr} {w : σ} {r : Netip.Addr}, (env.mapIPv4ToIPv6 a w).1 = .ok r → r.is6 →
    Netutil.validIPv6 r.as16
  to4 : ∀ {a : Netip.Addr} {allocate : Bool} {w : σ} {r : Netip.Addr} {b : Bytes},
    (env.mapIPv6ToIPv4 a allocate w).1 = .ok r → r.as4 = .ok b → Netutil.classifyIPv4 b ≠ .invalid

/-- `parseIPv4` accepts the packet, and the handler its checksum and its length. -/
def Reparses4 (q : Bytes) : Prop :=
  ∃ p, parseIPv4 { raw := q } = .ok (.none, p) ∧ verify p.ipBytes 0 ∧
    p.hdrLen + p.data.length = be16 p.ipBytes 2 ∧
    ¬ (p.proto = 0 ∨ p.proto = 43 ∨ p.proto = 44 ∨ p.proto = 58 ∨ p.proto = 60)

/-- The packet is an echo message from IPv4 that does not fit one IPv6 packet. -/
def LargeEcho (t : Translator) (raw : Bytes) : Prop :=
  ∃ p, parseIPv4 { raw } = .ok (.none, p) ∧ p.proto = protoICMP ∧
    (byteAt p.data 0 = 8 ∨ byteAt p.data 0 = 0) ∧ t.room < p.data.length

/-- `parseIPv6` accepts the packet, or it is a fragment of a large echo message; the
handler accepts its length. -/
def Reparses6 (t : Translator) (raw q : Bytes) : Prop :=
  ∃ reason p, parseIPv6 { raw := q } = .ok (reason, 0, false, p) ∧
    p.hdrLen + p.data.length = be16 p.ipBytes 4 ∧ p.proto ≠ protoICMP ∧
    (reason = .none ∨ reason = .icmpFragmented ∧ LargeEcho t raw)

/-- A packet due for translation in which an extension header stands where `parseIPv6` takes
the transport protocol from: behind the fragment header. -/
def Stacked (t : Translator) (raw : Bytes) : Prop :=
  ∃ pointer silent p, parseIPv6 { raw } = .ok (.none, pointer, silent, p) ∧
    (p.proto = 0 ∨ p.proto = 43 ∨ p.proto = 44 ∨ p.proto = 60) ∧
    byteAt p.ipBytes 7 ≠ 0 ∧ byteAt p.ipBytes 7 ≠ 1 ∧
    p.hdrLen + p.data.length = be16 p.ipBytes 4 ∧ sub p.ipBytes 24 40 ≠ t.local6 ∧
    ipv6HdrLen + p.hdrLen + p.data.length ≤ t.cfg.mtu

theorem Env.Proper.maps6 {env : Env σ} (proper : env.Proper) {a b : Bytes}
    (mapped : env.Maps6 a b) : Netutil.validIPv6 b := by
  obtain ⟨w, mapped⟩ := mapped
  unfold Env.to6 at mapped
  split at mapped
  · cases mapped
  · rename_i r w' answer
    dsimp only at mapped
    split at mapped
    · rename_i six
      cases mapped
      exact proper.to6 (congrArg Prod.fst answer) six
    · cases mapped

theorem Env.Proper.maps4 {env : Env σ} (proper : env.Proper) {allocate : Bool} {a b : Bytes}
    (mapped : env.Maps4 allocate a b) : Netutil.classifyIPv4 b ≠ .invalid := by
  obtain ⟨w, mapped⟩ := mapped
  unfold Env.to4 at mapped
  split at mapped
  · cases mapped
  · rename_i bits w' answer
    cases mapped
    exact proper.to4 (congrArg Prod.fst answer) rfl
  · cases mapped

theorem Parsed4.proto_ne {raw : Bytes} {v : Packet4} (parsed : Parsed4 raw v) :
    ¬ (v.proto = 0 ∨ v.proto = 43 ∨ v.proto = 44 ∨ v.proto = 58 ∨ v.proto = 60) := by
  have accepted := parsed.accepted
  intro foreign
  unfold proto4Reason at accepted
  split at accepted
  · rename_i icmp
    rw [icmp] at foreign
    exact absurd foreign (by decide)
  · cases accepted

theorem Parsed6.proto_ne {raw : Bytes} {v : Packet6} (parsed : Parsed6 raw v) :
    v.proto ≠ protoICMP := by
  have accepted := parsed.accepted
  intro icmp
  rw [proto6Reason, icmp, if_neg (by decide), if_pos rfl] at accepted
  cases accepted

section

variable {src dst data : Bytes}

theorem reparses4_sealed {proto : UInt8} {len flags : Nat} (hs : src.length = 4)
    (hd : dst.length = 4) (validSrc : Netutil.classifyIPv4 src ≠ .invalid)
    (validDst : Netutil.classifyIPv4 dst ≠ .invalid) (size : len = ipv4HdrLen + data.length)
    (short : len < 65536) (small : flags < 65536)
    (accepted : proto4Reason proto flags data.length = .none) (tos ttl : UInt8) (ident : Nat) :
    Reparses4 (sealedIPv4Header tos len ident flags ttl proto src dst ++ data) := by
  obtain ⟨v, found, hdr, body⟩ :=
    parse4_sealed hs hd validSrc validDst size short small accepted tos ttl ident
  obtain ⟨p, parsed, view⟩ := accepted_of_parse4 found
  have total : be16 v.hdr 2 = len := by
    rw [hdr, sealedIPv4Header, ← List.append_nil (ipv4Header ..), ipv4Header_len,
      Nat.mod_eq_of_lt short]
  have width : v.hdr.length = 20 := by
    simp [hdr, sealedIPv4Header, hs, hd]
  refine ⟨p, parsed, ?_, ?_, ?_⟩
  · rw [view.ipBytes, hdr]
    exact verify_sealed hs hd ..
  · rw [view.hdrLen, view.data, view.ipBytes, total, width, body, size]
    rfl
  · rw [view.proto]
    exact (parse4_ok found).proto_ne

theorem reparses6_whole {next : UInt8} (t : Translator) (raw : Bytes) (hs : src.length = 16)
    (hd : dst.length = 16) (validSrc : Netutil.validIPv6 src) (validDst : Netutil.validIPv6 dst)
    (short : data.length < 65536) (plain : ¬ (next = 0 ∨ next = 43 ∨ next = 60))
    (whole : next ≠ protoFrag) (accepted : proto6Reason next 0 data.length = .none)
    (tc hop : UInt8) :
    Reparses6 t raw (ipv6Header tc data.length next hop src dst ++ data) := by
  obtain ⟨v, found, hdr, ext, frag, -, body⟩ :=
    parse6_whole hs hd validSrc validDst short plain whole accepted tc hop
  obtain ⟨p, parsed, view⟩ := accepted_of_parse6 found
  have total : be16 v.hdr 4 = data.length := by
    rw [hdr, ← List.append_nil (ipv6Header ..), ipv6Header_len, Nat.mod_eq_of_lt short]
  refine ⟨.none, p, parsed, ?_, ?_, .inl rfl⟩
  · rw [view.hdrLen, view.data, view.ipBytes, total, body, Packet6.extLen, ext, frag]
    simp
  · rw [view.proto]
    exact (parse6_ok found).proto_ne

theorem splitFrag_fragHeader (next : UInt8) {n word : Nat} (width : data.length = n)
    (small : word < 65536) (aligned : word &&& ip6FragMF ≠ 0 → n &&& 7 = 0)
    (fits : (word &&& ip6FragMask) + n ≤ 65535) (ident : Nat) :
    splitFrag protoFrag (fragHeader next word ident ++ data) =
      .ok { frag := some (fragHeader next word ident), proto := next, data := data
            frag_length := by rintro f ⟨⟩; rfl } := by
  have body : (fragHeader next word ident ++ data).length - fragHdrLen = n := by
    simp [fragHdrLen, width]
  have flags : be16 (fragHeader next word ident ++ data) 2 = word := by
    have word_eq := be16_enc16 word (enc32 ident ++ data)
    rw [Nat.mod_eq_of_lt small] at word_eq
    exact word_eq
  rw [splitFrag, if_pos rfl, dif_neg (by simp [fragHdrLen]),
    if_neg (by rw [body, flags]; simpa using aligned), if_neg (by rw [body, flags]; omega)]
  rfl

theorem parseIPv6_fragment {next : UInt8} {n word : Nat} (hs : src.length = 16)
    (hd : dst.length = 16) (validSrc : Netutil.validIPv6 src) (validDst : Netutil.validIPv6 dst)
    (width : data.length = n) (short : fragHdrLen + n < 65536) (small : word < 65536)
    (aligned : word &&& ip6FragMF ≠ 0 → n &&& 7 = 0) (fits : (word &&& ip6FragMask) + n ≤ 65535)
    (tc hop : UInt8) (ident : Nat) :
    ∃ p, parseIPv6 { raw := ipv6Header tc (fragHdrLen + n) protoFrag hop src dst ++
        (fragHeader next word ident ++ data) } = .ok (proto6Reason next word n, 0, false, p) ∧
      p.hdrLen + p.data.length = be16 p.ipBytes 4 ∧ p.proto = next := by
  have front : (ipv6Header tc (fragHdrLen + n) protoFrag hop src dst).length = 40 := by
    simp [hs, hd]
  have first := @ipv6Header_next tc (fragHdrLen + n) protoFrag hop src dst
    (fragHeader next word ident ++ data)
  have good : ¬ badHeader6 (ipv6Header tc (fragHdrLen + n) protoFrag hop src dst ++
      (fragHeader next word ident ++ data)) := by
    rw [badHeader6, ipv6Header_version, ipv6Header_src _ _ _ _ _ hs hd,
      ipv6Header_dst _ _ _ _ _ hs hd]
    simp [validSrc, validDst]
  have total := @ipv6Header_len tc (fragHdrLen + n) protoFrag hop src dst
    (fragHeader next word ident ++ data)
  rw [Nat.mod_eq_of_lt short] at total
  have body : (fragHeader next word ident ++ data).length = fragHdrLen + n := by
    simp [fragHdrLen, width]
  have stop : dataEnd6 (ipv6Header tc (fragHdrLen + n) protoFrag hop src dst ++
      (fragHeader next word ident ++ data)) = 40 + (fragHdrLen + n) := by
    rw [dataEnd6, total, List.length_append, front, body, ipv6HdrLen, if_neg (by omega)]
  have content : sub (ipv6Header tc (fragHdrLen + n) protoFrag hop src dst ++
      (fragHeader next word ident ++ data)) 40 (40 + (fragHdrLen + n)) =
      fragHeader next word ident ++ data := by
    simpa using @sub_window (ipv6Header tc (fragHdrLen + n) protoFrag hop src dst)
      (fragHeader next word ident ++ data) [] 40 _ front (by omega)
  generalize built : ipv6Header tc (fragHdrLen + n) protoFrag hop src dst ++
    (fragHeader next word ident ++ data) = raw at *
  have long : 40 ≤ raw.length := by
    rw [← built, List.length_append, front]
    omega
  have walked : walk (raw.take (dataEnd6 raw)) (raw.length + 1) (startScan raw) =
      .ok (startScan raw) := if_neg (by rw [startScan, first]; decide)
  have scanned := view6_scanned long (.inl walked)
  have here : (view6 raw (startScan raw)).data = fragHeader next word ident ++ data := by
    rw [← content, ← stop]
    rfl
  have split := splitFrag_fragHeader next width small aligned fits ident
  rw [← here, ← first] at split
  have view := splitFrag_view scanned rfl split
  have flags : be16 (fragHeader next word ident) 2 = word := by
    have word_eq := be16_enc16 word (enc32 ident)
    rw [Nat.mod_eq_of_lt small] at word_eq
    exact word_eq
  have parsed := parseIPv6_eq long
  rw [if_neg good, walked] at parsed
  dsimp only at parsed
  rw [checkFrag6_eq, show splitFrag (view6 raw (startScan raw)).proto _ = _ from split] at parsed
  dsimp only at parsed
  generalize (if (view6 raw (startScan raw)).proto = protoFrag then
    (view6 raw (startScan raw)).pastFrag else view6 raw (startScan raw)) = p at parsed view
  have offset : p.offFlags = .ok word := view.offFlags.trans (congrArg Except.ok flags)
  rw [checkProto6_eq view.scanned.unmarked offset, view.proto, view.data, width] at parsed
  have size : p.hdrLen + p.data.length = be16 p.ipBytes 4 := by
    have ends := view.scanned.length_data
    have header : p.ipBytes = raw.take 40 := by
      rw [Pkt.ipBytes, view.scanned.ip, view.scanned.same]
      rfl
    rw [header, be16, byteAt_take (by omega), byteAt_take (by omega)]
    rw [be16] at total
    rw [stop, ipv6HdrLen] at ends
    omega
  split at parsed
  · rename_i accepted
    rw [if_neg (show ¬ (startScan raw).segLeft ≠ 0 from fun left => left rfl)] at parsed
    exact ⟨p.markICMP, by rw [parsed, accepted], size, view.proto⟩
  · exact ⟨p, parsed, size, view.proto⟩

theorem reparses4_icmp {len flags : Nat} (hs : src.length = 4) (hd : dst.length = 4)
    (validSrc : Netutil.classifyIPv4 src ≠ .invalid) (validDst : Netutil.classifyIPv4 dst ≠ .invalid)
    (size : len = ipv4HdrLen + icmpHdrLen + data.length) (short : len < 65536)
    (whole : flags = 0 ∨ flags = ip4FlagDF) (tos ttl : UInt8) (ident : Nat) (pseudo : UInt64)
    (typ code : UInt8) (word : Nat) :
    Reparses4 (sealedIPv4Header tos len ident flags ttl protoICMP src dst ++
      sealedICMP pseudo typ code word data) := by
  have width : (sealedICMP pseudo typ code word data).length = 8 + data.length :=
    length_sealedICMP ..
  have accepted : proto4Reason protoICMP flags (sealedICMP pseudo typ code word data).length =
      .none := by
    rw [proto4Reason, if_pos rfl, if_neg (by rcases whole with rfl | rfl <;> decide),
      if_neg (by rw [width, icmpHdrLen]; omega)]
  refine reparses4_sealed hs hd validSrc validDst ?_ short ?_ accepted tos ttl ident
  · rw [size, width, icmpHdrLen]
    omega
  · rcases whole with rfl | rfl <;> decide

theorem reparses6_icmp (t : Translator) (raw : Bytes) (hs : src.length = 16) (hd : dst.length = 16)
    (validSrc : Netutil.validIPv6 src) (validDst : Netutil.validIPv6 dst)
    (short : icmpHdrLen + data.length < 65536) (tc hop : UInt8) (pseudo : UInt64) (typ code : UInt8)
    (word : Nat) :
    Reparses6 t raw (ipv6Header tc (icmpHdrLen + data.length) protoICMPv6 hop src dst ++
      sealedICMP pseudo typ code word data) := by
  have width : (sealedICMP pseudo typ code word data).length = icmpHdrLen + data.length :=
    length_sealedICMP ..
  have accepted : proto6Reason protoICMPv6 0 (sealedICMP pseudo typ code word data).length =
      .none := by
    rw [proto6Reason, if_pos rfl, if_neg (by decide), if_neg (by omega)]
  rw [← width]
  exact reparses6_whole t raw hs hd validSrc validDst (by omega) (by decide) (by decide) accepted
    tc hop

end

theorem and_two_pow (n i : Nat) : n &&& 2 ^ i = if n.testBit i then 2 ^ i else 0 := by
  refine Nat.eq_of_testBit_eq fun j => ?_
  rw [Nat.testBit_and, Nat.testBit_two_pow]
  by_cases same : i = j
  · subst same
    cases n.testBit i <;> simp
  · cases n.testBit i <;> simp [same]

theorem fragMask_eq {word : Nat} (small : word < 65536) : word &&& ip6FragMask = word / 8 * 8 := by
  have upper : (word &&& ip6FragMask) / 2 ^ 3 = word / 2 ^ 3 % 2 ^ 13 := by
    rw [Nat.and_div_two_pow, ← Nat.and_two_pow_sub_one_eq_mod]
    rfl
  have lower : (word &&& ip6FragMask) % 2 ^ 3 = 0 := by
    rw [Nat.and_mod_two_pow]
    exact Nat.and_zero _
  omega

/-- The IPv4 flags word that `header6to4` makes of a fragment header's. -/
theorem carried_flags {word flags : Nat} (small : word < 65536)
    (carried : flags = if word &&& ip6FragMF ≠ 0 then word >>> 3 ||| ip4FlagMF else word >>> 3) :
    flags < 65536 ∧ (flags &&& ip4OffMask) * 8 = word &&& ip6FragMask ∧
      (flags &&& ip4FlagMF ≠ 0 ↔ word &&& ip6FragMF ≠ 0) := by
  have offset : word >>> 3 = word / 8 := Nat.shiftRight_eq_div_pow _ _
  have below : word >>> 3 < 2 ^ 13 := by omega
  have joined : word >>> 3 ||| ip4FlagMF = 2 ^ 13 + word >>> 3 := by
    rw [Nat.or_comm]
    exact (Nat.two_pow_add_eq_or_of_lt below 1).symm
  rw [show ip4OffMask = 2 ^ 13 - 1 from rfl, Nat.and_two_pow_sub_one_eq_mod, fragMask_eq small,
    show ip4FlagMF = 2 ^ 13 from rfl, and_two_pow]
  split at carried
  · rename_i more
    rw [joined] at carried
    have set : flags.testBit 13 = true := by
      rw [carried, Nat.testBit_two_pow_add_eq, Nat.testBit_lt_two_pow below]
      rfl
    rw [set]
    exact ⟨by omega, by omega, by simpa using more⟩
  · rename_i last
    have clear : flags.testBit 13 = false := by
      rw [carried, Nat.testBit_lt_two_pow below]
    rw [clear]
    exact ⟨by omega, by omega, by simpa using last⟩

section

variable {raw : Bytes} {p : Packet6} {len : Int} {ident flags : Nat}

theorem Parsed6.fragment (parsed : Parsed6 raw p) {f : Bytes} (frag : p.frag = some f) :
    (be16 f 2 &&& ip6FragMF ≠ 0 → p.data.length &&& 7 = 0) ∧
      (be16 f 2 &&& ip6FragMask) + p.data.length ≤ 65535 := by
  obtain ⟨s, b, -, splits, -, same, -, data⟩ := parsed.body
  rw [frag] at same
  rw [data]
  unfold splitFrag at splits
  split at splits
  · split at splits
    · cases splits
    · rename_i long
      split at splits
      · cases splits
      · rename_i aligned
        split at splits
        · cases splits
        · rename_i fits
          cases splits
          cases same
          have word : be16 (List.take 8 (sub raw s.lo (dataEnd6 raw))) 2 =
              be16 (sub raw s.lo (dataEnd6 raw)) 2 := by
            rw [be16, byteAt_take (by omega), byteAt_take (by omega)]
            rfl
          rw [word, List.length_drop]
          simp only [fragHdrLen] at aligned fits
          exact ⟨fun more => by simpa using fun odd => aligned ⟨more, odd⟩, by omega⟩
  · cases splits
    cases same

theorem IdentFlags.unfragmented (fragment : IdentFlags p len ident flags)
    (start : p.offFlags &&& ip6FragMask = 0) (last : p.offFlags &&& ip6FragMF = 0) :
    flags = 0 ∨ flags = ip4FlagDF := by
  unfold IdentFlags at fragment
  split at fragment
  · rename_i f frag
    rw [Packet6.offFlags, frag, Option.elim_some] at start last
    rw [if_neg (not_not.mpr last), Nat.shiftRight_eq_div_pow] at fragment
    rw [fragMask_eq (be16_lt f 2)] at start
    exact .inl (by omega)
  · split at fragment
    · exact .inl fragment.2
    · exact .inr fragment.2

theorem IdentFlags.icmp (fragment : IdentFlags p len ident flags) (parsed : Parsed6 raw p)
    (icmp : p.proto = protoICMPv6) : flags = 0 ∨ flags = ip4FlagDF := by
  obtain ⟨start, last⟩ := parsed.icmp_whole icmp
  exact fragment.unfragmented start last

/-- The IPv4 packet ends where the IPv6 fragment did, at a multiple of eight bytes unless it
is the last. -/
theorem IdentFlags.fits (fragment : IdentFlags p len ident flags) (parsed : Parsed6 raw p)
    (short : p.data.length ≤ 65535) :
    flags < 65536 ∧ (flags &&& ip4FlagMF ≠ 0 → p.data.length &&& 7 = 0) ∧
      (flags &&& ip4OffMask) * 8 + p.data.length ≤ 65535 := by
  unfold IdentFlags at fragment
  split at fragment
  · rename_i f frag
    obtain ⟨small, offset, more⟩ := carried_flags (be16_lt f 2) fragment.2
    obtain ⟨aligned, fits⟩ := parsed.fragment frag
    rw [offset]
    exact ⟨small, fun set => aligned (more.mp set), fits⟩
  · split at fragment
    · obtain ⟨-, rfl⟩ := fragment
      exact ⟨by decide, fun set => absurd rfl set, by simpa using short⟩
    · obtain ⟨-, rfl⟩ := fragment
      exact ⟨by decide, fun set => absurd rfl set, by simpa [ip4FlagDF, ip4OffMask] using short⟩

end

section

variable {env : Env σ} {t : Translator} {raw q : Bytes} {qs : List Bytes}

/-- A forwarded IPv6 packet is due for translation at every mapper. -/
theorem Forwarded6.stacked {p : Packet6} {src4 dst4 data : Bytes}
    (forwarded : Forwarded6 env t p src4 dst4 data) (found : parse6 raw = .ok p)
    (header : p.proto = 0 ∨ p.proto = 43 ∨ p.proto = 44 ∨ p.proto = 60) : Stacked t raw := by
  obtain ⟨v, parsed, view⟩ := accepted_of_parse6 found
  refine ⟨0, false, v, parsed, ?_⟩
  rw [view.proto, view.ipBytes, view.hdrLen, view.data]
  exact ⟨header, forwarded.hop, forwarded.alive, forwarded.length, forwarded.foreign,
    forwarded.small⟩

theorem reparses4_whole {p : Packet6} {src4 dst4 data : Bytes} {ident flags : Nat}
    (proper : env.Proper) (high : t.cfg.mtu ≤ 65535) (found : parse6 raw = .ok p)
    (forwarded : Forwarded6 env t p src4 dst4 data) (fragment : IdentFlags p p.data.length ident flags)
    (plain : ¬ (p.proto = 0 ∨ p.proto = 43 ∨ p.proto = 44 ∨ p.proto = 60)) :
    Reparses4 (whole6to4 p ident flags src4 dst4 data) := by
  have parsed := parse6_ok found
  have width := length_rewrite6to4 forwarded.payload
  have small := forwarded.small
  simp only [Packet6.size, ipv6HdrLen] at small
  obtain ⟨word, aligned, fits⟩ := fragment.fits parsed (by omega)
  have accepted : proto4Reason p.next flags data.length = .none := by
    rw [width, Packet6.next, proto4Reason]
    by_cases icmp : p.proto = protoICMPv6
    · rw [if_pos icmp, if_pos rfl, if_neg, if_neg]
      · exact Nat.not_lt.mpr (p.icmp_ge icmp)
      · rcases fragment.icmp parsed icmp with rfl | rfl <;> decide
    · rw [if_neg icmp, if_neg parsed.proto_ne, if_neg, if_neg, if_neg (by omega)]
      · exact fun odd => odd.2 (aligned odd.1)
      · rintro (zero | route | frag | six | options)
        · exact plain (.inl zero)
        · exact plain (.inr (.inl route))
        · exact plain (.inr (.inr (.inl frag)))
        · exact icmp six
        · exact plain (.inr (.inr (.inr options)))
  exact reparses4_sealed forwarded.src.length forwarded.dst.length (proper.maps4 forwarded.src)
    (proper.maps4 forwarded.dst) rfl (by rw [ipv4HdrLen]; omega) word accepted _ _ _

/-- What follows the header of a translated packet is known to the IPv6 parser. -/
theorem Parsed4.next_plain {p : Packet4} (parsed : Parsed4 raw p) :
    ¬ (p.next = 0 ∨ p.next = 43 ∨ p.next = 60) ∧ p.next ≠ protoICMP := by
  have foreign := parsed.proto_ne
  rw [Packet4.next]
  by_cases icmp : p.proto = protoICMP
  · rw [if_pos icmp]
    decide
  · rw [if_neg icmp]
    exact ⟨fun header => foreign (by tauto), icmp⟩

theorem reparses6_unfragmented {p : Packet4} {src6 dst6 data : Bytes} (proper : env.Proper)
    (found : parse4 raw = .ok p) (forwarded : Forwarded4 env t p src6 dst6 data) :
    Reparses6 t raw (whole4to6 p src6 dst6 data) := by
  have parsed := parse4_ok found
  have width := length_rewrite4to6 forwarded.payload
  have short := parsed.data_le
  obtain ⟨plain, other⟩ := parsed.next_plain
  have accepted : proto6Reason p.next 0 data.length = .none := by
    rw [proto6Reason]
    by_cases next : p.next = protoICMPv6
    · rw [if_pos next, if_neg (by decide), if_neg]
      rw [width]
      exact Nat.not_lt.mpr (p.icmp_ge (parsed.icmp_of_next next))
    · rw [if_neg next, if_neg other]
  exact reparses6_whole t raw forwarded.src.length forwarded.dst.length (proper.maps6 forwarded.src)
    (proper.maps6 forwarded.dst) (by omega) plain parsed.next_ne accepted _ _

/-- Only an echo message that is too large for one packet is ever sent in fragments. -/
theorem largeEcho_of_fragmented {p : Packet4} {src6 dst6 data : Bytes} (found : parse4 raw = .ok p)
    (forwarded : Forwarded4 env t p src6 dst6 data) (icmp : p.proto = protoICMP)
    (fits : noFragHdr t p.flagsOff t.room p.hdr.length p.data.length = some false) :
    t.room < p.data.length ∧ LargeEcho t raw := by
  have unfragmented : p.flagsOff &&& (ip4OffMask ||| ip4FlagMF) = 0 := by
    obtain ⟨start, last⟩ := (parse4_ok found).icmp_whole icmp
    rw [Nat.and_or_distrib_left, start, last]
    rfl
  have large : t.room < p.data.length := by
    rw [noFragHdr, if_pos unfragmented] at fits
    split at fits
    · split at fits <;> cases fits
    · simpa using fits
  obtain ⟨v, parsed, view⟩ := accepted_of_parse4 found
  refine ⟨large, v, parsed, ?_⟩
  rw [view.proto, view.data]
  exact ⟨icmp, forwarded.kind icmp, large⟩

theorem reparses6_fragment {p : Packet4} {src6 dst6 data : Bytes} (proper : env.Proper)
    (low : mtuMin ≤ t.cfg.mtu) (found : parse4 raw = .ok p)
    (forwarded : Forwarded4 env t p src6 dst6 data)
    (fits : noFragHdr t p.flagsOff t.room p.hdr.length p.data.length = some false) {k : Nat}
    (aligned : k % 8 = 0) (inside : k < data.length) :
    Reparses6 t raw (fragment4to6 p src6 dst6 ((p.flagsOff &&& ip4OffMask) * 8 + k)
      (min (data.length - k) t.fragRoom.toNat) (data.drop k)) := by
  have parsed := parse4_ok found
  have width := length_rewrite4to6 forwarded.payload
  have short := parsed.data_le
  obtain ⟨ends, multiple⟩ := parsed.fragment
  obtain ⟨room, positive⟩ := fragRoom_eq low
  have eight := fragRoom_mod t
  generalize cut : min (data.length - k) t.fragRoom.toNat = n
  generalize start : (p.flagsOff &&& ip4OffMask) * 8 + k = off
  have rest : (data.drop k).length = data.length - k := List.length_drop ..
  have value := fragFlags_word (show off % 8 = 0 by omega) (show off < 65536 by omega)
    (decide (p.flagsOff &&& ip4FlagMF ≠ 0)) (data.length - k) n
  obtain ⟨offset, more⟩ := fragFlags_eq (show off % 8 = 0 by omega) (show off < 65536 by omega)
    (decide (p.flagsOff &&& ip4FlagMF ≠ 0)) (data.length - k) n
  have bit := Bool.toNat_lt (decide (data.length - k > n) ||
    decide (p.flagsOff &&& ip4FlagMF ≠ 0))
  rw [fragment4to6, rest]
  generalize fragFlags (decide (p.flagsOff &&& ip4FlagMF ≠ 0)) off (data.length - k) n = word at *
  have small : word < 65536 := by omega
  rw [Nat.mod_eq_of_lt small] at offset more
  have pieces (set : word &&& ip6FragMF ≠ 0) : n &&& 7 = 0 := by
    rw [show ip6FragMF = 2 ^ 0 from rfl, and_two_pow, more] at set
    rw [show (7 : Nat) = 2 ^ 3 - 1 from rfl, Nat.and_two_pow_sub_one_eq_mod]
    by_cases later : data.length - k > n
    · omega
    · have last : p.flagsOff &&& ip4FlagMF ≠ 0 := by
        by_contra clear
        simp [later, clear] at set
      have := multiple last
      omega
  obtain ⟨v, read, size, proto⟩ := @parseIPv6_fragment src6 dst6 ((data.drop k).take n) p.next n word
    forwarded.src.length forwarded.dst.length (proper.maps6 forwarded.src)
    (proper.maps6 forwarded.dst) (by rw [List.length_take, rest]; omega) (by rw [fragHdrLen]; omega)
    small pieces (by rw [fragMask_eq small, offset]; omega) p.tos (p.ttl - 1) p.ident
  obtain ⟨-, other⟩ := parsed.next_plain
  refine ⟨_, v, read, size, proto ▸ other, ?_⟩
  rw [proto6Reason]
  by_cases next : p.next = protoICMPv6
  · obtain ⟨large, echo⟩ := largeEcho_of_fragmented found forwarded (parsed.icmp_of_next next) fits
    rw [if_pos next, if_pos]
    · exact .inr ⟨rfl, echo⟩
    · -- the first fragment of a large message is never its last
      intro zero
      rw [Nat.and_or_distrib_left, Nat.or_eq_zero_iff, fragMask_eq small,
        show ip6FragMF = 2 ^ 0 from rfl, and_two_pow, more] at zero
      have full : data.length - k > n := by
        simp only [Translator.fragRoom, Translator.room, fragHdrLen, ipv6HdrLen] at *
        omega
      simp [full] at zero
  · rw [if_neg next, if_neg other]
    exact .inl rfl

theorem ErrorForwarded6.length_inner {p : Packet6} {otype ocode : UInt8} {oword : Nat} {inner : Bytes}
    (forwarded : ErrorForwarded6 env t p otype ocode oword inner) : inner.length ≤ 548 := by
  obtain ⟨_, em, _, _, ident, flags, data, -, -, -, -, src, dst, -, payload, rfl⟩ :=
    forwarded.embedded
  have width := length_rewrite6to4 payload
  have cut : (em.clip (icmp4MaxLen - 2 * ipv4HdrLen - icmpHdrLen) (by decide)).data.length ≤ 528 :=
    List.length_take_le _ _
  simp only [inner6to4, sealedIPv4Header, List.length_append, length_ipv4Header, src.length,
    dst.length]
  omega

/-- Everything that is sent for a packet without a stacked header reads back. -/
theorem Sends.reparses (sends : Sends env t raw qs) (proper : env.Proper)
    (low : mtuMin ≤ t.cfg.mtu) (high : t.cfg.mtu ≤ 65535)
    (valid4 : Netutil.classifyIPv4 t.local4 ≠ .invalid) (valid6 : Netutil.validIPv6 t.local6)
    (plain : ¬ Stacked t raw) (member : q ∈ qs) : Reparses4 q ∨ Reparses6 t raw q := by
  cases sends with
  | nothing => cases member
  | @complaint4 p found =>
    obtain rfl := List.mem_singleton.mp member
    have cut : p.quote.length ≤ 548 := List.length_take_le _ _
    exact .inl (reparses4_icmp t.local4_length p.length_src valid4 (parse4_ok found).valid.1 rfl
      (by simp only [ipv4HdrLen, icmpHdrLen]; omega) (.inl rfl) _ _ _ _ _ _ _)
  | @reply4 p found accepted own icmp =>
    obtain rfl := List.mem_singleton.mp member
    have short := (parse4_ok found).data_le
    have long := p.icmp_ge icmp
    exact .inl (reparses4_icmp p.length_dst p.length_src (parse4_ok found).valid.2
      (parse4_ok found).valid.1 rfl (by simp only [ipv4HdrLen, icmpHdrLen, List.length_drop]; omega)
      (.inl rfl) _ _ _ _ _ _ _)
  | data4 found forwarded fits pieces =>
    rcases mem_pieces4to6 ((pieces low).subset member) with ⟨-, rfl⟩ | ⟨rfl, k, aligned, inside, rfl⟩
    · exact .inr (reparses6_unfragmented proper found forwarded)
    · exact .inr (reparses6_fragment proper low found forwarded fits aligned inside)
  | @error4 p found otype ocode oword inner src6 dst6 forwarded src dst =>
    obtain rfl := List.mem_singleton.mp member
    have hs := length_source6 src
    have cut := length_error4to6 forwarded hs dst.length
    have valid : Netutil.validIPv6 src6 := by
      rcases src with rfl | mapped
      · exact valid6
      · exact proper.maps6 mapped
    have next : p.next = protoICMPv6 := if_pos forwarded.icmp
    rw [error4to6] at cut ⊢
    rw [next]
    refine .inr (reparses6_icmp t raw hs dst.length valid (proper.maps6 dst) ?_ _ _ _ _ _ _)
    rw [List.length_append, length_sealedICMP, mtuMin] at cut
    simp only [icmpHdrLen]
    omega
  | @complaint6 p parsed =>
    obtain rfl := List.mem_singleton.mp member
    have cut : p.quote.length ≤ 1232 := List.length_take_le _ _
    exact .inr (reparses6_icmp t raw t.local6_length p.length_src valid6 parsed.valid.1
      (by simp only [icmpHdrLen]; omega) _ _ _ _ _ _)
  | @reply6 p found accepted own icmp =>
    obtain rfl := List.mem_singleton.mp member
    have total := accepted.length
    have short : p.payloadLen < 65536 := be16_lt _ _
    have long := p.icmp_ge icmp
    exact .inr (reparses6_icmp t raw p.length_dst p.length_src (parse6_ok found).valid.2
      (parse6_ok found).valid.1 (by simp only [icmpHdrLen, List.length_drop]; omega) _ _ _ _ _ _)
  | data6 found forwarded fragment =>
    obtain rfl := List.mem_singleton.mp member
    exact .inl (reparses4_whole proper high found forwarded fragment
      fun header => plain (forwarded.stacked found header))
  | @error6 p found otype ocode oword inner src4 dst4 ident flags forwarded src dst fragment =>
    obtain rfl := List.mem_singleton.mp member
    have valid : Netutil.classifyIPv4 src4 ≠ .invalid := by
      rcases src with rfl | mapped
      · exact valid4
      · exact proper.maps4 mapped
    have next : p.next = protoICMP := if_pos forwarded.icmp
    rw [error6to4, next]
    refine .inl (reparses4_icmp (length_source4 src) dst.length valid (proper.maps4 dst) rfl ?_
      (fragment.icmp (parse6_ok found) forwarded.icmp) _ _ _ _ _ _ _)
    have cut := forwarded.length_inner
    simp only [ipv4HdrLen, icmpHdrLen]
    omega

end

/-- A mapper that gives every address the same partner. -/
def Env.constant : Env Unit :=
  Env.stateless (fun _ => .ok (.v6 0x20010db8000000000000000000000002 ""))
    (fun _ => .ok (.v4 0xc0000202))

theorem Env.constant_proper : Env.constant.Proper where
  to6 := by
    rintro _ _ _ ⟨⟩ _
    decide
  to4 := by
    rintro _ _ _ _ _ ⟨⟩ ⟨⟩
    decide

theorem Env.constant_willing : Env.constant.Willing := fun _ _ none => nomatch none

theorem not_reparses4_of_proto {tos ttl proto : UInt8} {len ident flags : Nat} {src dst data : Bytes}
    (foreign : proto = 0 ∨ proto = 43 ∨ proto = 44 ∨ proto = 58 ∨ proto = 60) :
    ¬ Reparses4 (sealedIPv4Header tos len ident flags ttl proto src dst ++ data) := by
  rintro ⟨p, parsed, -, -, other⟩
  obtain ⟨v, found, view⟩ := parse4_of_accepted parsed
  have same : v.proto = proto := (parse4_ok found).byteAt_hdr (by omega)
  rw [view.proto, same] at other
  exact other foreign

theorem rewrite6to4_extension (mode : UDPChecksumMode) {p : Packet6}
    (header : p.proto = 0 ∨ p.proto = 43 ∨ p.proto = 44 ∨ p.proto = 60) (src4 dst4 : Bytes) :
    rewrite6to4 mode p src4 dst4 = .ok p.data := by
  unfold rewrite6to4
  split
  · rfl
  · rcases header with proto | proto | proto | proto <;> rw [proto] <;> rfl

/-- A translator emits packets that its own parsers refuse just for the packets in which an
extension header follows the fragment header. -/
theorem emitted_reparses_iff {cfg : Config} {t : Translator} (built : Translator.new cfg = .ok t)
    (low : mtuMin ≤ cfg.mtu) (high : cfg.mtu ≤ 65535)
    (valid4 : Netutil.classifyIPv4 t.local4 ≠ .invalid) (valid6 : Netutil.validIPv6 t.local6)
    (raw : Bytes) :
    (∀ {σ : Type} (env : Env σ) (w : σ), env.Proper →
        ∀ q ∈ packets (translate env t raw w).acts, Reparses4 q ∨ Reparses6 t raw q) ↔
      ¬ Stacked t raw := by
  have same : t.cfg.mtu = cfg.mtu := by rw [Translator.new_cfg built, Config.raised_mtu]
  rw [← same] at low high
  refine ⟨fun reparses => ?_, fun plain σ env w proper q member =>
    (translate_sends env t raw w).reparses proper low high valid4 valid6 plain member⟩
  rintro ⟨pointer, silent, p, parsed, header, hop, alive, length, foreign, small⟩
  obtain ⟨v, found, view⟩ := parse6_of_accepted parsed
  rw [view.proto] at header
  rw [view.ipBytes] at hop alive foreign
  rw [view.hdrLen, view.data, view.ipBytes] at length
  have size := view.size
  have transport : v.proto ≠ protoICMPv6 := by
    intro icmp
    rw [icmp] at header
    exact absurd header (by decide)
  have untouched := rewrite6to4_extension t.cfg.udpChecksum header [192, 0, 2, 2] [192, 0, 2, 2]
  have run := data6_sends (t := t) Env.constant_willing (fun _ => rfl) (fun _ => rfl) (by omega)
    untouched ()
  obtain ⟨ident, flags, -, sent⟩ := run
  rw [← translate_data6 found hop alive length transport foreign] at sent
  rcases reparses Env.constant () Env.constant_proper _ (mem_packets.mpr (by rw [sent]; exact .head _))
    with four | ⟨_, _, again, -, -, rfl | ⟨-, _, echo, -⟩⟩
  · have next : v.next = v.proto := if_neg transport
    rw [whole6to4, next] at four
    exact not_reparses4_of_proto (by tauto) four
  · obtain ⟨_, other, -⟩ := parse6_of_accepted again
    exact absurd ((parse6_ok other).version.symm.trans (sealedIPv4Header_first ..)) (by decide)
  · obtain ⟨_, other, -⟩ := parse4_of_accepted echo
    exact absurd ((parse4_ok other).version.symm.trans (parse6_ok found).version) (by decide)

/-- A UDP packet from IPv4, under a mapper that gives every address the same partner. -/
theorem emitted_reparses_udp :
    let raw : Bytes := [69, 0, 0, 28, 0, 0, 64, 0, 64, 17, 78, 123, 198, 51, 100, 1, 192, 0, 2, 33, 0,
      53, 48, 57, 0, 8, 227, 25]
    ∃ q ∈ packets (translate Env.constant (.sample 1500 .calc) raw ()).acts,
      Reparses4 q ∨ Reparses6 (.sample 1500 .calc) raw q := by
  intro raw
  have built : Translator.new (Config.sample 1500 1280 .calc) = .ok (.sample 1500 .calc) := rfl
  have plain : ¬ Stacked (.sample 1500 .calc) raw := by
    rintro ⟨pointer, silent, p, parsed, -⟩
    have short : parseIPv6 { raw } = .ok (.ipHeaderLength, 0, false, { raw }) := by decide +kernel
    cases short.symm.trans parsed
  obtain ⟨q, sent, -⟩ : ∃ q ∈ packets (translate Env.constant (.sample 1500 .calc) raw ()).acts,
      byteAt q 0 >>> 4 = 6 := by decide +kernel
  exact ⟨q, sent, (emitted_reparses_iff built (by decide) (by decide) (by decide) (by decide) raw).mpr
    plain Env.constant () Env.constant_proper q sent⟩

/-- Destination Options behind a fragment header: the IPv4 packet that leaves has protocol 60,
which `parseIPv4` refuses. -/
theorem emitted_reparses_fails :
    let raw : Bytes := [96, 0, 0, 0, 0, 24, 44, 64, 32, 1, 13, 184, 0, 0, 0, 0, 0, 0, 0, 0, 0, 0, 0, 3,
      32, 1, 13, 184, 0, 0, 0, 0, 0, 0, 0, 0, 0, 0, 0, 4, 60, 0, 0, 0, 0, 0, 0, 7, 17, 0, 1, 4, 0, 0, 0,
      0, 48, 57, 0, 53, 0, 8, 1, 2]
    let q : Bytes := [69, 0, 0, 36, 0, 7, 0, 0, 63, 60, 247, 146, 192, 0, 2, 2, 192, 0, 2, 2, 17, 0, 1,
      4, 0, 0, 0, 0, 48, 57, 0, 53, 0, 8, 1, 2]
    Env.constant.Proper ∧ packets (translate Env.constant (.sample 1500 .calc) raw ()).acts = [q] ∧
      ¬ (Reparses4 q ∨ Reparses6 (.sample 1500 .calc) raw q) := by
  intro raw q
  have refused : parseIPv4 { raw := q } =
      .ok (.ipv6OnlyProto, { raw := q, ip := some 20, hdrLen := 20, lo := 20, hi := 36, proto := 60 }) := by
    decide +kernel
  have short : parseIPv6 { raw := q } = .ok (.ipHeaderLength, 0, false, { raw := q }) := by
    decide +kernel
  refine ⟨Env.constant_proper, by decide +kernel, ?_⟩
  rintro (⟨p, parsed, -⟩ | ⟨reason, p, parsed, -, -, rfl | ⟨rfl, -⟩⟩)
  · cases refused.symm.trans parsed
  · cases short.symm.trans parsed
  · cases short.symm.trans parsed

end Clatto.Xlate
