import Clatto.Xlate.Fragments
import Clatto.Xlate.Sends
import Clatto.Xlate.Storm

/-! Path MTU discovery across the translator: what it reports as too big, in its own name
or for a router, against what it then does with packets of the reported size. -/

namespace Clatto.Xlate

open Bytes

/-- A Fragmentation Needed error as the translator writes it, without IPv4 options. -/
def FragmentationNeeded (q : Bytes) (mtu : Nat) : Prop :=
  byteAt q 0 >>> 4 = 4 ∧ byteAt q 9 = protoICMP ∧ byteAt q 20 = 3 ∧ byteAt q 21 = 4 ∧
    be16 q 26 = mtu

/-- A Packet Too Big error without extension headers. -/
def PacketTooBig (q : Bytes) (mtu : Nat) : Prop :=
  byteAt q 0 >>> 4 = 6 ∧ byteAt q 6 = protoICMPv6 ∧ byteAt q 40 = 2 ∧ be32 q 44 = mtu

instance (q : Bytes) (mtu : Nat) : Decidable (FragmentationNeeded q mtu) := by
  unfold FragmentationNeeded
  infer_instance

instance (q : Bytes) (mtu : Nat) : Decidable (PacketTooBig q mtu) := by
  unfold PacketTooBig
  infer_instance

section

variable {src dst z : Bytes}

theorem sealedIPv4Header_first (tos : UInt8) (len ident flags : Nat) (ttl proto : UInt8) :
    byteAt (sealedIPv4Header tos len ident flags ttl proto src dst ++ z) 0 >>> 4 = 4 := by
  rw [sealedIPv4Header, ipv4Header_first]
  decide

/-- A packet of the translator in the one family is not an error of the other. -/
theorem not_packetTooBig_sealed (tos : UInt8) (len ident flags : Nat) (ttl proto : UInt8)
    (mtu : Nat) : ¬ PacketTooBig (sealedIPv4Header tos len ident flags ttl proto src dst ++ z) mtu :=
  fun big => absurd big.1 (by rw [sealedIPv4Header_first]; decide)

theorem not_fragmentationNeeded_ipv6 (tc : UInt8) (len : Nat) (next hop : UInt8) (mtu : Nat) :
    ¬ FragmentationNeeded (ipv6Header tc len next hop src dst ++ z) mtu :=
  fun needed => absurd needed.1 (by rw [ipv6Header_version]; decide)

theorem fragmentationNeeded_sealed (hs : src.length = 4) (hd : dst.length = 4) (tos : UInt8)
    (len ident flags : Nat) (ttl proto : UInt8) {mtu : Nat}
    (needed : FragmentationNeeded (sealedIPv4Header tos len ident flags ttl proto src dst ++ z) mtu) :
    proto = protoICMP ∧ byteAt z 0 = 3 ∧ byteAt z 1 = 4 ∧ be16 z 6 = mtu := by
  have front : (sealedIPv4Header tos len ident flags ttl proto src dst).length = 20 := by
    simp [sealedIPv4Header, hs, hd]
  obtain ⟨-, icmp, typ, code, word⟩ := needed
  rw [byteAt_append_right (by omega), front] at typ code
  rw [be16_append_right (by omega), front] at word
  exact ⟨icmp, typ, code, word⟩

theorem packetTooBig_ipv6 (hs : src.length = 16) (hd : dst.length = 16) (tc : UInt8) (len : Nat)
    (next hop : UInt8) {mtu : Nat}
    (big : PacketTooBig (ipv6Header tc len next hop src dst ++ z) mtu) :
    next = protoICMPv6 ∧ byteAt z 0 = 2 ∧ be32 z 4 = mtu := by
  have front : (ipv6Header tc len next hop src dst).length = 40 := by simp [hs, hd]
  obtain ⟨-, icmp, typ, word⟩ := big
  rw [byteAt_append_right (by omega), front] at typ
  rw [be32_append_right (by omega), front] at word
  exact ⟨icmp, typ, word⟩

theorem sealedICMP_word (pseudo : UInt64) (typ code : UInt8) (word : Nat) (body : Bytes) :
    be32 (sealedICMP pseudo typ code word body) 4 = word % 4294967296 :=
  be32_enc32 word body

theorem sealedICMP_mtu (pseudo : UInt64) (typ code : UInt8) (word : Nat) (body : Bytes) :
    be16 (sealedICMP pseudo typ code word body) 6 = word % 65536 :=
  be16_enc16 word body

end

/-- The MTU that a Packet Too Big reports when a router on the IPv4 side reported this one. -/
def raisedMTU (t : Translator) (mtu : Int) : Int := max (min (mtu + mtuAdj) t.cfg.mtu) mtuMin

theorem raisedMTU_bounds {t : Translator} (low : mtuMin ≤ t.cfg.mtu) (mtu : Int) :
    mtuMin ≤ raisedMTU t mtu ∧ raisedMTU t mtu ≤ t.cfg.mtu := by
  unfold raisedMTU
  omega

theorem errorType4to6_needed (t : Translator) (word total : Nat) :
    errorType4to6 t 3 4 word total = .ok (.ok (2, 0, uint32 (raisedMTU t
      (if word &&& 0xffff < 68 then (estMTU total : Int) else (word &&& 0xffff : Nat))))) := by
  have clamp (mtu : Int) : (if (if mtu > t.cfg.mtu then t.cfg.mtu else mtu) < mtuMin then
      (mtuMin : Int) else if mtu > t.cfg.mtu then t.cfg.mtu else mtu) =
      max (min mtu t.cfg.mtu) mtuMin := by
    split <;> split <;> omega
  unfold errorType4to6
  simp only [Checked.pure_eq, clamp, raisedMTU]
  rfl

theorem errorType4to6_two {t : Translator} {typ code ocode : UInt8} {word total oword : Nat}
    (found : errorType4to6 t typ code word total = .ok (.ok (2, ocode, oword))) :
    typ = 3 ∧ code = 4 := by
  unfold errorType4to6 at found
  simp only [Checked.pure_eq] at found
  split at found
  · rename_i unreachable
    refine ⟨unreachable, ?_⟩
    by_contra other
    simp only [other, if_false] at found
    repeat' split at found
    all_goals cases found
  · repeat' split at found
    all_goals try cases found
    rename_i inside
    rw [inRange_of (by omega), Checked.ok_bind] at found
    split at found <;> cases found

theorem errorType6to4_tooBig (t : Translator) (code : UInt8) {word : Nat} (some : 68 ≤ word) :
    errorType6to4 t 2 code word =
      .ok (.ok (3, 4, uint32 (min (word : Int) t.cfg.mtu - mtuAdj))) := by
  have clamp : (if (word : Int) > t.cfg.mtu then t.cfg.mtu else (word : Int)) =
      min (word : Int) t.cfg.mtu := by
    split <;> omega
  unfold errorType6to4
  simp only [Checked.pure_eq, clamp, show ¬ (word : Int) < 68 by omega]
  rfl

theorem errorType6to4_needed {t : Translator} {typ code : UInt8} {word oword : Nat}
    (found : errorType6to4 t typ code word = .ok (.ok (3, 4, oword))) : typ = 2 ∧ 68 ≤ word := by
  unfold errorType6to4 at found
  simp only [Checked.pure_eq, Checked.ok_bind] at found
  repeat' split at found
  all_goals try cases found
  · rename_i big some _
    exact ⟨big, by omega⟩
  · rename_i big some _
    exact ⟨big, by omega⟩
  · rename_i inside
    rw [inRange_of (by simp only [ptrTable6to4, List.length_cons, List.length_nil]; omega),
      Checked.ok_bind] at found
    split at found <;> cases found

theorem echoed4to6 {raw : Bytes} {p : Packet4} (parsed : Parsed4 raw p) {mode : UDPChecksumMode}
    {src6 dst6 data : Bytes} (payload : rewrite4to6 mode p src6 dst6 = .ok data)
    (icmp : p.proto = protoICMP) : byteAt data 0 = 128 ∨ byteAt data 0 = 129 := by
  rw [rewrite4to6, if_neg (not_not.mpr (parsed.icmp_whole icmp).1), if_pos icmp] at payload
  cases payload
  rw [echo4to6]
  split
  · exact .inl (byteAt_retype (p.icmp_ge icmp) _ _)
  · exact .inr (byteAt_retype (p.icmp_ge icmp) _ _)

theorem echoed6to4 {raw : Bytes} {p : Packet6} (parsed : Parsed6 raw p) {mode : UDPChecksumMode}
    {src4 dst4 data : Bytes} (payload : rewrite6to4 mode p src4 dst4 = .ok data)
    (icmp : p.proto = protoICMPv6) : byteAt data 0 = 8 ∨ byteAt data 0 = 0 := by
  rw [rewrite6to4, if_neg (not_not.mpr (parsed.icmp_whole icmp).1), if_pos icmp] at payload
  cases payload
  rw [echo6to4]
  split
  · exact .inl (byteAt_retype (p.icmp_ge icmp) _ _)
  · exact .inr (byteAt_retype (p.icmp_ge icmp) _ _)

theorem Parsed4.icmp_of_next {raw : Bytes} {p : Packet4} (parsed : Parsed4 raw p)
    (next : p.next = protoICMPv6) : p.proto = protoICMP := by
  by_contra other
  rw [Packet4.next, if_neg other] at next
  have accepted := parsed.accepted
  rw [next, proto4Reason, if_neg (by decide), if_pos (by decide)] at accepted
  cases accepted

theorem Parsed6.icmp_of_next {raw : Bytes} {p : Packet6} (parsed : Parsed6 raw p)
    (next : p.next = protoICMP) : p.proto = protoICMPv6 := by
  by_contra other
  rw [Packet6.next, if_neg other] at next
  have accepted := parsed.accepted
  rw [next, proto6Reason, if_neg (by decide), if_pos rfl] at accepted
  cases accepted

theorem version_pieces4to6 {t : Translator} {p : Packet4} {src6 dst6 data q : Bytes} {whole : Bool}
    (member : q ∈ pieces4to6 t p src6 dst6 data whole) : byteAt q 0 >>> 4 = 6 := by
  rcases mem_pieces4to6 member with ⟨-, rfl⟩ | ⟨-, _, -, -, rfl⟩
  · exact ipv6Header_version ..
  · exact ipv6Header_version ..

section

variable {σ : Type} {env : Env σ} {t : Translator} {raw q : Bytes} {qs : List Bytes} {mtu : Nat}

theorem uint32_of_fits {value : Int} (nonneg : 0 ≤ value) (fits : value < 4294967296) :
    (uint32 value : Int) = value := by
  unfold uint32
  omega

/-- A Fragmentation Needed is about a packet of the translator's own, or it reports what
a router did. -/
theorem Sends.fragmentationNeeded (sends : Sends env t raw qs) (low : mtuMin ≤ t.cfg.mtu)
    (high : t.cfg.mtu ≤ 65535) (member : q ∈ qs) (needed : FragmentationNeeded q mtu) :
    (∃ p, parse4 raw = .ok p ∧ (mtu : Int) = t.cfg.mtu - mtuAdj ∧ t.cfg.mtu - mtuAdj < p.size) ∨
      ∃ p, parse6 raw = .ok p ∧ 68 ≤ p.icmpRest ∧
        (mtu : Int) = min (p.icmpRest : Int) t.cfg.mtu - mtuAdj := by
  cases sends with
  | nothing => cases member
  | @complaint4 p found typ code word accepted error oversized =>
    obtain rfl := List.mem_singleton.mp member
    obtain ⟨-, three, four, same⟩ :=
      fragmentationNeeded_sealed t.local4_length p.length_src _ _ _ _ _ _ needed
    obtain ⟨rfl, large⟩ := oversized three four
    rw [sealedICMP_mtu] at same
    have small := @uint32_of_fits (t.cfg.mtu - mtuAdj) (by simp only [mtuMin, mtuAdj] at *; omega)
      (by omega)
    exact .inl ⟨p, found, by omega, large⟩
  | reply4 found accepted own icmp =>
    obtain rfl := List.mem_singleton.mp member
    obtain ⟨-, three, -⟩ :=
      fragmentationNeeded_sealed (Packet4.length_dst _) (Packet4.length_src _) _ _ _ _ _ _ needed
    cases three
  | data4 found forwarded fits pieces =>
    have version := version_pieces4to6 ((pieces low).subset member)
    exact absurd (version.symm.trans needed.1) (by decide)
  | error4 found forwarded src dst =>
    obtain rfl := List.mem_singleton.mp member
    exact absurd needed (not_fragmentationNeeded_ipv6 _ _ _ _ _)
  | complaint6 =>
    obtain rfl := List.mem_singleton.mp member
    exact absurd needed (not_fragmentationNeeded_ipv6 _ _ _ _ _)
  | reply6 =>
    obtain rfl := List.mem_singleton.mp member
    exact absurd needed (not_fragmentationNeeded_ipv6 _ _ _ _ _)
  | data6 found forwarded fragment =>
    obtain rfl := List.mem_singleton.mp member
    obtain ⟨next, three, -⟩ :=
      fragmentationNeeded_sealed forwarded.src.length forwarded.dst.length _ _ _ _ _ _ needed
    have parsed := parse6_ok found
    rcases echoed6to4 parsed forwarded.payload (parsed.icmp_of_next next) with eight | zero
    · exact absurd (eight.symm.trans three) (by decide)
    · exact absurd (zero.symm.trans three) (by decide)
  | @error6 p found otype ocode oword inner src4 dst4 ident flags forwarded src dst fragment =>
    obtain rfl := List.mem_singleton.mp member
    obtain ⟨-, three, four, same⟩ :=
      fragmentationNeeded_sealed (length_source4 src) dst.length _ _ _ _ _ _ needed
    obtain rfl : otype = 3 := three
    obtain rfl : ocode = 4 := four
    obtain ⟨_, _, _, _, _, _, _, _, _, _, typed, -⟩ := forwarded.embedded
    obtain ⟨big, some⟩ := errorType6to4_needed typed
    rw [big, errorType6to4_tooBig t _ some] at typed
    cases typed
    rw [sealedICMP_mtu] at same
    have small := @uint32_of_fits (min (p.icmpRest : Int) t.cfg.mtu - mtuAdj)
      (by simp only [mtuMin, mtuAdj] at *; omega) (by omega)
    exact .inr ⟨p, found, some, by omega⟩

/-- A Packet Too Big is about a packet of the translator's own, or it reports what a
router did. -/
theorem Sends.packetTooBig (sends : Sends env t raw qs) (low : mtuMin ≤ t.cfg.mtu)
    (high : t.cfg.mtu ≤ 65535) (member : q ∈ qs) (big : PacketTooBig q mtu) :
    (∃ p, parse6 raw = .ok p ∧ (mtu : Int) = t.cfg.mtu ∧ t.cfg.mtu < p.size) ∨
      ∃ p, parse4 raw = .ok p ∧ ∃ total : Nat, (mtu : Int) = raisedMTU t
        (if p.icmpRest &&& 0xffff < 68 then (estMTU total : Int) else (p.icmpRest &&& 0xffff : Nat)) := by
  cases sends with
  | nothing => cases member
  | complaint4 =>
    obtain rfl := List.mem_singleton.mp member
    exact absurd big (not_packetTooBig_sealed _ _ _ _ _ _ _)
  | reply4 =>
    obtain rfl := List.mem_singleton.mp member
    exact absurd big (not_packetTooBig_sealed _ _ _ _ _ _ _)
  | data4 found forwarded fits pieces =>
    rcases mem_pieces4to6 ((pieces low).subset member) with ⟨-, rfl⟩ | ⟨-, _, -, -, rfl⟩
    · obtain ⟨next, two, -⟩ :=
        packetTooBig_ipv6 forwarded.src.length forwarded.dst.length _ _ _ _ big
      have parsed := parse4_ok found
      rcases echoed4to6 parsed forwarded.payload (parsed.icmp_of_next next) with request | reply
      · exact absurd (request.symm.trans two) (by decide)
      · exact absurd (reply.symm.trans two) (by decide)
    · obtain ⟨next, -⟩ := packetTooBig_ipv6 forwarded.src.length forwarded.dst.length _ _ _ _ big
      exact absurd next (by decide)
  | @error4 p found otype ocode oword inner src6 dst6 forwarded src dst =>
    obtain rfl := List.mem_singleton.mp member
    obtain ⟨-, two, same⟩ := packetTooBig_ipv6 (length_source6 src) dst.length _ _ _ _ big
    obtain rfl : otype = 2 := two
    obtain ⟨_, em, _, _, _, _, _, _, _, _, typed, -⟩ := forwarded.embedded
    obtain ⟨three, four⟩ := errorType4to6_two typed
    rw [three, four, errorType4to6_needed] at typed
    cases typed
    rw [sealedICMP_word] at same
    refine .inr ⟨p, found, em.total, ?_⟩
    generalize (if p.icmpRest &&& 0xffff < 68 then (estMTU em.total : Int)
      else (p.icmpRest &&& 0xffff : Nat)) = reported at same ⊢
    obtain ⟨least, most⟩ := raisedMTU_bounds low reported
    have small := @uint32_of_fits (raisedMTU t reported) (by omega) (by omega)
    omega
  | @complaint6 p parsed typ code word error oversized =>
    obtain rfl := List.mem_singleton.mp member
    obtain ⟨-, two, same⟩ := packetTooBig_ipv6 t.local6_length p.length_src _ _ _ _ big
    obtain ⟨found, rfl, large⟩ := oversized two
    rw [sealedICMP_word] at same
    have small := @uint32_of_fits t.cfg.mtu (by omega) (by omega)
    exact .inl ⟨p, found, by omega, large⟩
  | reply6 =>
    obtain rfl := List.mem_singleton.mp member
    obtain ⟨-, two, -⟩ :=
      packetTooBig_ipv6 (Packet6.length_dst _) (Packet6.length_src _) _ _ _ _ big
    cases two
  | data6 =>
    obtain rfl := List.mem_singleton.mp member
    exact absurd big (not_packetTooBig_sealed _ _ _ _ _ _ _)
  | error6 =>
    obtain rfl := List.mem_singleton.mp member
    exact absurd big (not_packetTooBig_sealed _ _ _ _ _ _ _)

/-- DF is set on nothing that came in a fragment or could have to be fragmented. -/
theorem IdentFlags.large {p : Packet6} {len : Int} {ident flags : Nat}
    (fragment : IdentFlags p len ident flags) (set : flags % 65536 &&& ip4FlagDF ≠ 0) :
    mtuMin < p.extLen + len := by
  unfold IdentFlags at fragment
  split at fragment
  · rename_i f _
    exfalso
    obtain ⟨-, rfl⟩ := fragment
    have offset : be16 f 2 >>> 3 < 2 ^ 14 := by
      have := be16_lt f 2
      rw [Nat.shiftRight_eq_div_pow]
      omega
    have below : (if be16 f 2 &&& ip6FragMF ≠ 0 then be16 f 2 >>> 3 ||| ip4FlagMF
        else be16 f 2 >>> 3) < 2 ^ 14 := by
      split
      · exact Nat.or_lt_two_pow offset (by decide)
      · exact offset
    apply set
    rw [Nat.mod_eq_of_lt (by omega), show ip4FlagDF = 2 ^ 14 from rfl]
    refine Nat.eq_of_testBit_eq fun i => ?_
    rw [Nat.testBit_and, Nat.testBit_two_pow, Nat.zero_testBit, Bool.and_eq_false_iff,
      decide_eq_false_iff_not]
    by_cases bit : 14 = i
    · exact .inl (bit ▸ Nat.testBit_lt_two_pow below)
    · exact .inr bit
  · split at fragment
    · obtain ⟨-, rfl⟩ := fragment
      exact absurd rfl set
    · omega

theorem length_whole6to4 {p : Packet6} {ident flags : Nat} {src4 dst4 data : Bytes}
    (forwarded : Forwarded6 env t p src4 dst4 data) :
    (whole6to4 p ident flags src4 dst4 data).length = ipv4HdrLen + p.data.length := by
  have hs := forwarded.src.length
  have hd := forwarded.dst.length
  simp [whole6to4, sealedIPv4Header, hs, hd, length_rewrite6to4 forwarded.payload, ipv4HdrLen]

theorem length_whole4to6 {p : Packet4} {src6 dst6 data : Bytes}
    (forwarded : Forwarded4 env t p src6 dst6 data) :
    (whole4to6 p src6 dst6 data).length = ipv6HdrLen + p.data.length := by
  have hs := forwarded.src.length
  have hd := forwarded.dst.length
  simp [whole4to6, hs, hd, length_rewrite4to6 forwarded.payload, ipv6HdrLen]

theorem length_error4to6 {p : Packet4} {otype ocode : UInt8} {oword : Nat}
    {inner src6 dst6 : Bytes} (forwarded : ErrorForwarded4 env t p otype ocode oword inner)
    (hs : src6.length = 16) (hd : dst6.length = 16) :
    (error4to6 p src6 dst6 otype ocode oword inner).length ≤ mtuMin := by
  obtain ⟨_, em, emSrc, emDst, data, -, -, -, src, dst, -, payload, rfl⟩ := forwarded.embedded
  have width := length_rewrite4to6 payload
  have cut : (em.clip (mtuMin - 2 * ipv6HdrLen - icmpHdrLen) (by decide)).data.length ≤
      mtuMin - 2 * ipv6HdrLen - icmpHdrLen := List.length_take_le _ _
  simp only [error4to6, inner4to6, List.length_append, length_ipv6Header, length_sealedICMP, hs, hd,
    src.length, dst.length, mtuMin, ipv6HdrLen, icmpHdrLen] at *
  omega

/-- An IPv6 data packet no larger than what a router was reported with fits that router,
or may be fragmented on the way. -/
theorem Sends.fits4 (sends : Sends env t raw qs) {p : Packet6} (found : parse6 raw = .ok p)
    (kind : p.proto = protoICMPv6 → p.icmpType = 128 ∨ p.icmpType = 129) {reported : Int}
    (small : p.size ≤ raisedMTU t reported) (member : q ∈ qs) (four : byteAt q 0 >>> 4 = 4) :
    q.length ≤ reported ∨ be16 q 6 &&& ip4FlagDF = 0 := by
  have version := (parse6_ok found).version
  have family {v : Packet4} (other : parse4 raw = .ok v) : False :=
    absurd ((parse4_ok other).version.symm.trans version) (by decide)
  cases sends with
  | nothing => cases member
  | complaint4 other => exact (family other).elim
  | reply4 other => exact (family other).elim
  | data4 other => exact (family other).elim
  | error4 other => exact (family other).elim
  | complaint6 =>
    obtain rfl := List.mem_singleton.mp member
    exact absurd ((ipv6Header_version ..).symm.trans four) (by decide)
  | reply6 =>
    obtain rfl := List.mem_singleton.mp member
    exact absurd ((ipv6Header_version ..).symm.trans four) (by decide)
  | @data6 p again src4 dst4 data ident flags forwarded fragment =>
    cases found.symm.trans again
    obtain rfl := List.mem_singleton.mp member
    have flag : be16 (whole6to4 p ident flags src4 dst4 data) 6 = flags % 65536 :=
      ipv4Header_flags ..
    rw [flag, length_whole6to4 forwarded]
    by_cases set : flags % 65536 &&& ip4FlagDF = 0
    · exact .inr set
    · have large := fragment.large set
      refine .inl ?_
      simp only [Packet6.size, raisedMTU, mtuMin, mtuAdj, ipv6HdrLen, ipv4HdrLen] at *
      omega
  | error6 again forwarded =>
    cases found.symm.trans again
    exact absurd (kind forwarded.icmp) forwarded.kind

/-- An IPv4 packet that may not be fragmented, no larger than what a router was reported
with, leaves whole and fits that router; an ICMP error fits every IPv6 link. -/
theorem Sends.fits6 (sends : Sends env t raw qs) (low : mtuMin ≤ t.cfg.mtu) {p : Packet4}
    (found : parse4 raw = .ok p) (unfragmented : p.flagsOff &&& (ip4OffMask ||| ip4FlagMF) = 0)
    (whole : p.flagsOff &&& ip4FlagDF ≠ 0) {reported : Int}
    (small : p.size ≤ min reported t.cfg.mtu - mtuAdj) (member : q ∈ qs)
    (six : byteAt q 0 >>> 4 = 6) :
    qs = [q] ∧ (q.length ≤ reported ∨
      (p.proto = protoICMP ∧ ¬ (p.icmpType = 8 ∨ p.icmpType = 0)) ∧ q.length ≤ mtuMin) := by
  have version := (parse4_ok found).version
  have family {v : Packet6} (other : Parsed6 raw v) : False :=
    absurd (other.version.symm.trans version) (by decide)
  cases sends with
  | nothing => cases member
  | complaint4 =>
    obtain rfl := List.mem_singleton.mp member
    exact absurd ((sealedIPv4Header_first ..).symm.trans six) (by decide)
  | reply4 =>
    obtain rfl := List.mem_singleton.mp member
    exact absurd ((sealedIPv4Header_first ..).symm.trans six) (by decide)
  | @data4 p again src6 dst6 data forwarded _ fits _ pieces =>
    cases found.symm.trans again
    rw [noFragHdr, if_pos unfragmented, if_pos whole] at fits
    split at fits
    · cases fits
    · cases fits
      have single : qs <+: [whole4to6 p src6 dst6 data] := pieces low
      obtain rfl := List.mem_singleton.mp (single.subset member)
      refine ⟨single.eq_of_length_le (List.length_pos_of_mem member), .inl ?_⟩
      rw [length_whole4to6 forwarded]
      have := p.hdr_ge
      simp only [Packet4.size, mtuAdj, ipv6HdrLen] at *
      omega
  | error4 again forwarded src dst =>
    cases found.symm.trans again
    obtain rfl := List.mem_singleton.mp member
    exact ⟨rfl, .inr ⟨⟨forwarded.icmp, forwarded.kind⟩,
      length_error4to6 forwarded (length_source6 src) dst.length⟩⟩
  | complaint6 other => exact (family other).elim
  | reply6 other => exact (family (parse6_ok other)).elim
  | data6 other => exact (family (parse6_ok other)).elim
  | error6 other => exact (family (parse6_ok other)).elim

end

/-- No packet of a reported size is lost to the MTU behind the report. -/
structure PathDiscovery (t : Translator) : Prop where
  /-- A router on the IPv4 side reported `mtu`; IPv6 senders hear of `reported`. -/
  fits4 : ∀ {error raw q q' : Bytes} {e p : Pkt} {mtu reported pointer : Nat} {silent : Bool},
    parseIPv4 { raw := error } = .ok (.none, e) → be16 e.data 6 = mtu → 68 ≤ mtu →
    Emits t error q → PacketTooBig q reported →
    parseIPv6 { raw } = .ok (.none, pointer, silent, p) →
    (p.proto = protoICMPv6 → byteAt p.data 0 = 128 ∨ byteAt p.data 0 = 129) →
    ipv6HdrLen + p.hdrLen + p.data.length ≤ reported →
    Emits t raw q' → byteAt q' 0 >>> 4 = 4 → q'.length ≤ mtu ∨ be16 q' 6 &&& ip4FlagDF = 0
  /-- A router on the IPv6 side reported `mtu`; IPv4 senders hear of `reported`. -/
  fits6 : ∀ {error raw q q' : Bytes} {e p : Pkt} {mtu reported pointer : Nat} {silent : Bool},
    parseIPv6 { raw := error } = .ok (.none, pointer, silent, e) → be32 e.data 4 = mtu → 68 ≤ mtu →
    Emits t error q → FragmentationNeeded q reported →
    parseIPv4 { raw } = .ok (.none, p) → be16 p.ipBytes 6 &&& (ip4OffMask ||| ip4FlagMF) = 0 →
    be16 p.ipBytes 6 &&& ip4FlagDF ≠ 0 → p.hdrLen + p.data.length ≤ reported →
    ∀ {σ : Type} {env : Env σ} {w : σ}, q' ∈ packets (translate env t raw w).acts →
      byteAt q' 0 >>> 4 = 6 → packets (translate env t raw w).acts = [q'] ∧
        (q'.length ≤ mtu ∨ q'.length ≤ mtuMin ∧
          p.proto = protoICMP ∧ ¬ (byteAt p.data 0 = 8 ∨ byteAt p.data 0 = 0))
  /-- Whatever was reported to IPv4 senders, they are not told again. -/
  silent4 : ∀ {error raw q : Bytes} {reported : Nat}, Emits t error q →
    FragmentationNeeded q reported → byteAt raw 0 >>> 4 = 4 →
    (∀ p, parseIPv4 { raw } = .ok (.none, p) → p.hdrLen + p.data.length ≤ reported) →
    ∀ {q' : Bytes} {mtu : Nat}, Emits t raw q' → ¬ FragmentationNeeded q' mtu
  silent6 : ∀ {error raw q : Bytes} {reported : Nat}, Emits t error q →
    PacketTooBig q reported → byteAt raw 0 >>> 4 = 6 →
    (∀ pointer silent p, parseIPv6 { raw } = .ok (.none, pointer, silent, p) →
      ipv6HdrLen + p.hdrLen + p.data.length ≤ reported) →
    ∀ {q' : Bytes} {mtu : Nat}, Emits t raw q' → ¬ PacketTooBig q' mtu

theorem Emits.sends {t : Translator} {raw q : Bytes} (emits : Emits t raw q) :
    ∃ (σ : Type) (env : Env σ) (qs : List Bytes), Sends env t raw qs ∧ q ∈ qs := by
  obtain ⟨σ, env, w, sent⟩ := emits
  exact ⟨σ, env, _, translate_sends env t raw w, mem_packets.mpr sent⟩

theorem accepted_of_parse4 {raw : Bytes} {v : Packet4} (found : parse4 raw = .ok v) :
    ∃ p, parseIPv4 { raw } = .ok (.none, p) ∧ View4 p v := by
  have refines := parseIPv4_refines raw
  rw [found] at refines
  exact refines

theorem accepted_of_parse6 {raw : Bytes} {v : Packet6} (found : parse6 raw = .ok v) :
    ∃ p, parseIPv6 { raw } = .ok (.none, 0, false, p) ∧ View6 p v := by
  have refines := parseIPv6_refines raw
  rw [found] at refines
  exact refines

theorem View4.size {p : Pkt} {v : Packet4} (view : View4 p v) :
    p.hdrLen + p.data.length = v.size := by
  rw [view.hdrLen, view.data, Packet4.size]

theorem View6.size {p : Pkt} {v : Packet6} (view : View6 p v) :
    ipv6HdrLen + p.hdrLen + p.data.length = v.size := by
  rw [view.hdrLen, view.data, Packet6.size]

section

variable {t : Translator} {raw q : Bytes} {mtu : Nat}

/-- Nothing that is reported to IPv4 senders is above the MTU of the interface. -/
theorem Emits.needed_le (emits : Emits t raw q) (low : mtuMin ≤ t.cfg.mtu)
    (high : t.cfg.mtu ≤ 65535) (needed : FragmentationNeeded q mtu) :
    (mtu : Int) ≤ t.cfg.mtu - mtuAdj := by
  obtain ⟨_, _, _, sends, member⟩ := emits.sends
  rcases sends.fragmentationNeeded low high member needed with ⟨_, -, same, -⟩ | ⟨_, -, -, same⟩
  · omega
  · omega

theorem Emits.tooBig_le (emits : Emits t raw q) (low : mtuMin ≤ t.cfg.mtu)
    (high : t.cfg.mtu ≤ 65535) (big : PacketTooBig q mtu) : (mtu : Int) ≤ t.cfg.mtu := by
  obtain ⟨_, _, _, sends, member⟩ := emits.sends
  rcases sends.packetTooBig low high member big with ⟨_, -, same, -⟩ | ⟨_, -, _, same⟩
  · omega
  · rw [same]
    exact (raisedMTU_bounds low _).2

end

theorem be32_low (b : Bytes) (i : Nat) : be32 b i &&& 0xffff = be16 b (i + 2) := by
  have := be16_lt b (i + 2)
  rw [be32, show (0xffff : Nat) = 2 ^ 16 - 1 from rfl, Nat.and_two_pow_sub_one_eq_mod]
  omega

section

variable {t : Translator} {error raw q q' : Bytes} {e p : Pkt} {mtu reported : Nat}
  (low : mtuMin ≤ t.cfg.mtu) (high : t.cfg.mtu ≤ 65535)

include low high

theorem reported6 (errorParsed : parseIPv4 { raw := error } = .ok (.none, e))
    (next : be16 e.data 6 = mtu) (some : 68 ≤ mtu) (emits : Emits t error q)
    (big : PacketTooBig q reported) : (reported : Int) = raisedMTU t mtu := by
  obtain ⟨v, found, view⟩ := parse4_of_accepted errorParsed
  obtain ⟨_, _, _, sends, member⟩ := emits.sends
  have word : v.icmpRest &&& 0xffff = mtu := by
    rw [Packet4.icmpRest, be32_low, ← view.data, next]
  rcases sends.packetTooBig low high member big with ⟨_, other, -⟩ | ⟨_, again, _, raised⟩
  · exact absurd ((parse6_ok other).version.symm.trans (parse4_ok found).version) (by decide)
  · cases found.symm.trans again
    rwa [word, if_neg (by omega)] at raised

theorem reported4 {pointer : Nat} {silent : Bool}
    (errorParsed : parseIPv6 { raw := error } = .ok (.none, pointer, silent, e))
    (next : be32 e.data 4 = mtu) (emits : Emits t error q) (needed : FragmentationNeeded q reported) :
    (reported : Int) = min (mtu : Int) t.cfg.mtu - mtuAdj := by
  obtain ⟨v, found, view⟩ := parse6_of_accepted errorParsed
  obtain ⟨_, _, _, sends, member⟩ := emits.sends
  have word : v.icmpRest = mtu := by rw [Packet6.icmpRest, ← view.data, next]
  rcases sends.fragmentationNeeded low high member needed with ⟨_, other, -⟩ | ⟨_, again, -, same⟩
  · exact absurd ((parse4_ok other).version.symm.trans (parse6_ok found).version) (by decide)
  · cases found.symm.trans again
    rwa [word] at same

/-- The translator complains to IPv4 only about packets above every MTU it reports. -/
theorem not_needed_again (four : byteAt raw 0 >>> 4 = 4) (bound : (reported : Int) ≤ t.cfg.mtu - mtuAdj)
    (small : ∀ p, parseIPv4 { raw } = .ok (.none, p) → p.hdrLen + p.data.length ≤ reported)
    (emits : Emits t raw q) : ¬ FragmentationNeeded q mtu := by
  intro needed
  obtain ⟨_, _, _, sends, member⟩ := emits.sends
  rcases sends.fragmentationNeeded low high member needed with ⟨v, found, -, large⟩ | ⟨_, other, -⟩
  · obtain ⟨p, parsed, view⟩ := accepted_of_parse4 found
    have size := small p parsed
    rw [view.size] at size
    omega
  · exact absurd ((parse6_ok other).version.symm.trans four) (by decide)

theorem not_tooBig_again (six : byteAt raw 0 >>> 4 = 6) (bound : (reported : Int) ≤ t.cfg.mtu)
    (small : ∀ pointer silent p, parseIPv6 { raw } = .ok (.none, pointer, silent, p) →
      ipv6HdrLen + p.hdrLen + p.data.length ≤ reported)
    (emits : Emits t raw q) : ¬ PacketTooBig q mtu := by
  intro big
  obtain ⟨_, _, _, sends, member⟩ := emits.sends
  rcases sends.packetTooBig low high member big with ⟨v, found, -, large⟩ | ⟨_, other, -⟩
  · obtain ⟨p, parsed, view⟩ := accepted_of_parse6 found
    have size := small _ _ p parsed
    rw [view.size] at size
    omega
  · exact absurd ((parse4_ok other).version.symm.trans six) (by decide)

end

/-- Path MTU discovery works through every translator with an MTU that the configuration
admits. -/
theorem path_discovery {cfg : Config} {t : Translator} (built : Translator.new cfg = .ok t)
    (low : mtuMin ≤ cfg.mtu) (high : cfg.mtu ≤ 65535) : PathDiscovery t := by
  have same : t.cfg.mtu = cfg.mtu := by rw [Translator.new_cfg built, Config.raised_mtu]
  rw [← same] at low high
  constructor
  · intro error raw q q' e p mtu reported _ _ errorParsed next some emits big parsed data small
      emits' four
    obtain ⟨v, found, view⟩ := parse6_of_accepted parsed
    obtain ⟨_, _, _, sends, member⟩ := emits'.sends
    have raised := reported6 low high errorParsed next some emits big
    rw [view.size] at small
    rw [view.proto, view.data] at data
    have fits := sends.fits4 found data (show (v.size : Int) ≤ raisedMTU t mtu by omega) member four
    omega
  · intro error raw q q' e p mtu reported _ _ errorParsed next some emits needed parsed unfragmented
      whole small σ env w sent six
    obtain ⟨v, found, view⟩ := parse4_of_accepted parsed
    have lowered := reported4 low high errorParsed next emits needed
    rw [view.size] at small
    rw [view.ipBytes] at unfragmented whole
    obtain ⟨single, fits⟩ := (translate_sends env t raw w).fits6 low found unfragmented whole
      (show (v.size : Int) ≤ min (mtu : Int) t.cfg.mtu - mtuAdj by omega) sent six
    rw [view.proto, view.data]
    rcases fits with fits | ⟨error, fits⟩
    · exact ⟨single, .inl (by omega)⟩
    · exact ⟨single, .inr ⟨fits, error⟩⟩
  · intro error raw q reported emits needed four small q' mtu emits'
    exact not_needed_again low high four (emits.needed_le low high needed) small emits'
  · intro error raw q reported emits big six small q' mtu emits'
    exact not_tooBig_again low high six (emits.tooBig_le low high big) small emits'

/-- A router on the IPv6 side reports 68 bytes, and UDP from IPv4 keeps to the 48 that are
left of them. -/
theorem path_discovery_udp :
    let report : Bytes := [96, 0, 0, 0, 0, 48, 58, 64, 0, 100, 255, 155, 0, 0, 0, 0, 0, 0, 0, 0, 198,
      51, 100, 1, 0, 100, 255, 155, 0, 0, 0, 0, 0, 0, 0, 0, 192, 0, 2, 33, 2, 0, 146, 99, 0, 0, 0, 68,
      96, 0, 0, 0, 0, 0, 50, 64, 0, 100, 255, 155, 0, 0, 0, 0, 0, 0, 0, 0, 192, 0, 2, 33, 0, 100, 255,
      155, 0, 0, 0, 0, 0, 0, 0, 0, 198, 51, 100, 1]
    let raw : Bytes := [69, 0, 0, 28, 0, 0, 64, 0, 64, 17, 78, 123, 198, 51, 100, 1, 192, 0, 2, 33, 0,
      53, 48, 57, 0, 8, 227, 25]
    PacketTooBig report 68 ∧
      ∃ q ∈ packets (translate Env.sample (.sample 1500 .calc) raw ()).acts, q.length ≤ 68 := by
  intro report raw
  have built : Translator.new (Config.sample 1500 1280 .calc) = .ok (.sample 1500 .calc) := rfl
  have discovery := path_discovery built (by decide) (by decide)
  obtain ⟨q, sent, needed⟩ : ∃ q ∈ packets (translate Env.sample (.sample 1500 .calc) report ()).acts,
      FragmentationNeeded q 48 := by decide +kernel
  obtain ⟨q', sent', six⟩ : ∃ q' ∈ packets (translate Env.sample (.sample 1500 .calc) raw ()).acts,
      byteAt q' 0 >>> 4 = 6 := by decide +kernel
  let e : Pkt := { raw := report, ip := some 40, lo := 40, hi := 88, icmp := some 40, proto := 58 }
  let p : Pkt := { raw, ip := some 20, hdrLen := 20, lo := 20, hi := 28, proto := 17 }
  have parsed : parseIPv6 { raw := report } = .ok (.none, 0, false, e) := by decide +kernel
  have fits := discovery.fits6 parsed (show be32 e.data 4 = 68 by decide) le_rfl
    ⟨Unit, Env.sample, (), mem_packets.mp sent⟩ needed (show parseIPv4 { raw } = .ok (.none, p) by decide +kernel)
    (by decide) (by decide) (by decide) sent' six
  rcases fits.2 with small | ⟨-, icmp, -⟩
  · exact ⟨by decide, q', sent', small⟩
  · exact absurd icmp (by decide)

/-- An ICMP error from IPv4 is quoted up to the minimum MTU of IPv6, even where a router
reported less: the headers alone take more than the 68 bytes. -/
theorem error_exceeds_report :
    let report : Bytes := [96, 0, 0, 0, 0, 48, 58, 64, 0, 100, 255, 155, 0, 0, 0, 0, 0, 0, 0, 0, 198,
      51, 100, 1, 0, 100, 255, 155, 0, 0, 0, 0, 0, 0, 0, 0, 192, 0, 2, 33, 2, 0, 146, 99, 0, 0, 0, 68,
      96, 0, 0, 0, 0, 0, 50, 64, 0, 100, 255, 155, 0, 0, 0, 0, 0, 0, 0, 0, 192, 0, 2, 33, 0, 100, 255,
      155, 0, 0, 0, 0, 0, 0, 0, 0, 198, 51, 100, 1]
    let raw : Bytes := [69, 0, 0, 48, 0, 0, 64, 0, 64, 1, 78, 119, 198, 51, 100, 1, 192, 0, 2, 33, 3,
      1, 252, 254, 0, 0, 0, 0, 69, 0, 0, 20, 0, 0, 0, 0, 64, 50, 142, 98, 192, 0, 2, 33, 198, 51, 100,
      1]
    PacketTooBig report 68 ∧
      (∃ q ∈ packets (translate Env.sample (.sample 1500 .calc) report ()).acts,
        FragmentationNeeded q 48) ∧
      raw.length ≤ 48 ∧ be16 raw 6 = ip4FlagDF ∧
      ∃ q ∈ packets (translate Env.sample (.sample 1500 .calc) raw ()).acts,
        byteAt q 0 >>> 4 = 6 ∧ ¬ q.length ≤ 68 := by
  decide +kernel

end Clatto.Xlate
