import Clatto.Xlate.Reparse

/-! Errors about translated packets: what an ICMP error quotes of a packet that was
translated is, once the error is translated back, a quote of the packet as it was sent. -/

namespace Clatto.Xlate

open Bytes Ones

theorem splice_take {b w : Bytes} {i m : Nat} (inside : i + w.length ≤ m) :
    splice (b.take m) i w = (splice b i w).take m := by
  fun_induction splice b i w generalizing m with
  | case1 => simp [splice]
  | case2 x b n w ih =>
    obtain ⟨m, rfl⟩ : ∃ k, m = k + 1 := ⟨m - 1, by omega⟩
    rw [List.take_succ_cons, splice_cons_succ, List.take_succ_cons, ih (by omega)]
  | case3 x b => rw [splice_nil]
  | case4 x b y w ih =>
    obtain ⟨m, rfl⟩ : ∃ k, m = k + 1 := ⟨m - 1, by simp at inside; omega⟩
    rw [List.take_succ_cons, splice_cons_zero, List.take_succ_cons, ih (by simp at inside; omega)]

theorem be16_take {b : Bytes} {i m : Nat} (inside : i + 2 ≤ m) :
    be16 (b.take m) i = be16 b i := by
  rw [be16, byteAt_take (by omega), byteAt_take (by omega), be16]

theorem adjustAt_take {udp : Bool} {data : Bytes} {field m : Nat} (inside : field + 2 ≤ m)
    (remove add : UInt64) :
    adjustAt udp (data.take m) field remove add = (adjustAt udp data field remove add).take m := by
  rw [adjustAt, adjustAt, be16_take inside, splice_take (by simpa using inside)]

/-- The checksum field moves the same way whether the payload behind it is there or not. -/
theorem rewriteTransport_take {mode : UDPChecksumMode} {proto : UInt8} {data out cut : Bytes}
    {pseudo pseudo' remove add : UInt64} {m : Nat} (present : proto = protoUDP → be16 data 6 ≠ 0)
    (done : rewriteTransport mode proto data pseudo remove add = .ok out)
    (again : rewriteTransport mode proto (data.take m) pseudo' remove add = .ok cut) :
    cut = out.take m := by
  unfold rewriteTransport at done again
  split at done
  · rename_i udp
    rw [if_pos udp] at again
    split at done
    · cases done
    · split at again
      · cases again
      · rename_i long
        have inside : 8 ≤ m := by
          rw [List.length_take] at long
          omega
        rw [be16_take (by omega)] at again
        rw [if_neg (present udp)] at done again
        cases done
        cases again
        exact adjustAt_take (by omega) _ _
  · rename_i notUDP
    rw [if_neg notUDP] at again
    split at done
    · rename_i tcp
      rw [if_pos tcp] at again
      split at done
      · cases done
      · split at again
        · cases again
        · rename_i long
          have inside : 20 ≤ m := by
            rw [List.length_take] at long
            omega
          cases done
          cases again
          exact adjustAt_take (by omega) _ _
    · rename_i notTCP
      rw [if_neg notTCP] at again
      cases done
      cases again
      rfl

theorem retype_take {data : Bytes} {m : Nat} (inside : 8 ≤ m) (typ : UInt8) (ck : UInt16) :
    retype (data.take m) typ ck = (retype data typ ck).take m := by
  rw [retype, retype, splice_take (by simp; omega), splice_take (by simp; omega)]

theorem retype_cons (a b c d : UInt8) (rest : Bytes) (typ : UInt8) (ck : UInt16) :
    retype (a :: b :: c :: d :: rest) typ ck = typ :: b :: (enc16 ck.toNat ++ rest) := by
  simp only [retype, splice_cons_zero, splice_cons_succ, splice_nil, enc16, List.cons_append,
    List.nil_append]

theorem retype_retype {data : Bytes} (long : 8 ≤ data.length) (typ typ' : UInt8) (ck ck' : UInt16) :
    retype (retype data typ ck) typ' ck' = retype data typ' ck' := by
  match data, long with
  | a :: b :: c :: d :: rest, _ =>
    rw [retype_cons, retype_cons]
    exact retype_cons ..

theorem retype_self {data : Bytes} (long : 8 ≤ data.length) {typ : UInt8} {ck : UInt16}
    (same : byteAt data 0 = typ) (sum : ck.toNat = be16 data 2) : retype data typ ck = data := by
  have first : splice data 0 [typ] = data := by
    cases data with
    | nil => rfl
    | cons a rest => rw [splice_cons_zero, splice_nil, ← same, byteAt_cons_zero]
  rw [retype, first, sum, splice_be16 (by omega)]

theorem be16_retype {data : Bytes} (long : 8 ≤ data.length) (typ : UInt8) (ck : UInt16) :
    be16 (retype data typ ck) 2 = ck.toNat := by
  rw [retype, be16_splice (by simp; omega), Nat.mod_eq_of_lt ck.toNat_lt]

/-- Adding a pseudo-header and a change of type to a checksum and taking both away again. -/
theorem echo_sum_back {old : Nat} (other : old < 65535) {ps : Nat} {change : Nat}
    (bound : change ≤ 65535) :
    65535 - carry (carry (65535 - old + ps + change) + (65535 - carry ps) + (65535 - change)) =
      old := by
  have there := carry_mod (65535 - old + ps + change)
  have sum := carry_mod ps
  have limit := carry_le ps
  have some : carry (65535 - old + ps + change) ≠ 0 := by
    rw [Ne, carry_eq_zero]
    omega
  generalize carry (65535 - old + ps + change) = moved at *
  have back := carry_mod (moved + (65535 - carry ps) + (65535 - change))
  have most := carry_le (moved + (65535 - carry ps) + (65535 - change))
  have positive : carry (moved + (65535 - carry ps) + (65535 - change)) ≠ 0 := by
    rw [Ne, carry_eq_zero]
    omega
  omega

/-- Taking a pseudo-header and a change of type away from a checksum and adding both again. -/
theorem echo_sum_forth {old : Nat} (other : old < 65535) {ps : Nat} {change : Nat}
    (bound : change ≤ 65535) :
    65535 - carry (carry (65535 - old + (65535 - carry ps) + (65535 - change)) + ps + change) =
      old := by
  have there := carry_mod (65535 - old + (65535 - carry ps) + (65535 - change))
  have sum := carry_mod ps
  have limit := carry_le ps
  have some : carry (65535 - old + (65535 - carry ps) + (65535 - change)) ≠ 0 := by
    rw [Ne, carry_eq_zero]
    omega
  generalize carry (65535 - old + (65535 - carry ps) + (65535 - change)) = moved at *
  have back := carry_mod (moved + ps + change)
  have most := carry_le (moved + ps + change)
  have positive : carry (moved + ps + change) ≠ 0 := by
    rw [Ne, carry_eq_zero]
    omega
  omega

theorem toNat_gain {ps change : UInt64} (small : ps.toNat < 2 ^ 40) (bound : change.toNat ≤ 65535)
    (old : UInt16) :
    (~~~ fold ((~~~ old).toUInt64 + ps + change)).toNat =
      65535 - carry (65535 - old.toNat + ps.toNat + change.toNat) := by
  have sum : ((~~~ old).toUInt64 + ps + change).toNat =
      65535 - old.toNat + ps.toNat + change.toNat := by
    simp only [UInt64.toNat_add, UInt16.toNat_toUInt64, toNat_not16]
    omega
  rw [toNat_not16, toNat_fold, sum]

theorem toNat_lose (ps : UInt64) (old change : UInt16) :
    (~~~ fold ((~~~ old).toUInt64 + (~~~ fold ps).toUInt64 + (~~~ change).toUInt64)).toNat =
      65535 - carry (65535 - old.toNat + (65535 - carry ps.toNat) + (65535 - change.toNat)) := by
  have sum : ((~~~ old).toUInt64 + (~~~ fold ps).toUInt64 + (~~~ change).toUInt64).toNat =
      65535 - old.toNat + (65535 - carry ps.toNat) + (65535 - change.toNat) := by
    simp only [UInt64.toNat_add, UInt16.toNat_toUInt64, toNat_not16, toNat_fold]
    omega
  rw [toNat_not16, toNat_fold, sum]

theorem echo6to4_quote {v : Packet4} {em : Packet6} {src6 dst6 : Bytes} {n m : Nat}
    (hs : src6.length = 16) (hd : dst6.length = 16) (icmp : v.proto = protoICMP)
    (request : v.icmpType = 8) (other : be16 v.data 2 ≠ 0xffff)
    (whole : (v.total : Int) - v.hdr.length = n) (small : n < 2 ^ 32) (src : em.src = src6)
    (dst : em.dst = dst6) (length : (em.payloadLen : Int) - em.extLen = n)
    (body : em.data = (echo4to6 v src6 dst6).take m) (enough : 8 ≤ em.data.length) :
    echo6to4 em = v.data.take m := by
  have long := v.icmp_ge icmp
  obtain ⟨-, bound⟩ := pseudo6_spec hs hd small protoICMPv6
  have inside : 8 ≤ m := by
    rw [body, List.length_take] at enough
    omega
  rw [echo4to6, if_pos request, whole] at body
  rw [echo6to4, length, src, dst]
  generalize pseudo6 src6 dst6 n protoICMPv6 = ps at body bound ⊢
  have sum := @toNat_gain ps ((128 - 8 : UInt64) <<< 8) bound (by decide)
    (UInt16.ofNat (be16 v.data 2))
  generalize ~~~ fold ((~~~ UInt16.ofNat (be16 v.data 2)).toUInt64 + ps + (128 - 8 : UInt64) <<< 8) =
    moved at body sum
  have typ : em.icmpType = 128 := by
    rw [Packet6.icmpType, body, byteAt_take (by omega), byteAt_retype long]
  have read : be16 em.data 2 = moved.toNat := by
    rw [body, be16_take (by omega), be16_retype long]
  rw [if_pos typ, read, UInt16.ofNat_toNat, body, retype_take inside, retype_retype long]
  refine congrArg (List.take m) (retype_self long request ?_)
  have field := be16_lt v.data 2
  have word : (UInt16.ofNat (be16 v.data 2)).toNat = be16 v.data 2 := by
    rw [UInt16.toNat_ofNat']
    omega
  have back := @echo_sum_back (be16 v.data 2) (by omega) ps.toNat 30720 (by decide)
  rw [word] at sum
  rw [toNat_lose, sum, Nat.sub_sub_self (carry_le _)]
  exact back

theorem echo4to6_quote {v : Packet6} {em : Packet4} {n m : Nat}
    (icmp : v.proto = protoICMPv6) (request : v.icmpType = 128) (other : be16 v.data 2 ≠ 0xffff)
    (whole : (v.payloadLen : Int) - v.extLen = n) (small : n < 2 ^ 32)
    (length : (em.total : Int) - em.hdr.length = n)
    (body : em.data = (echo6to4 v).take m) (enough : 8 ≤ em.data.length) :
    echo4to6 em v.src v.dst = v.data.take m := by
  have long := v.icmp_ge icmp
  obtain ⟨-, bound⟩ := pseudo6_spec v.length_src v.length_dst small protoICMPv6
  have inside : 8 ≤ m := by
    rw [body, List.length_take] at enough
    omega
  rw [echo6to4, if_pos request, whole] at body
  rw [echo4to6, length]
  generalize pseudo6 v.src v.dst n protoICMPv6 = ps at body bound ⊢
  have sum := toNat_lose ps (UInt16.ofNat (be16 v.data 2)) ((128 - 8 : UInt16) <<< 8)
  generalize ~~~ fold ((~~~ UInt16.ofNat (be16 v.data 2)).toUInt64 + (~~~ fold ps).toUInt64 +
    (~~~ ((128 - 8 : UInt16) <<< 8)).toUInt64) = moved at body sum
  have typ : em.icmpType = 8 := by
    rw [Packet4.icmpType, body, byteAt_take (by omega), byteAt_retype long]
  have read : be16 em.data 2 = moved.toNat := by
    rw [body, be16_take (by omega), be16_retype long]
  rw [if_pos typ, read, UInt16.ofNat_toNat, body, retype_take inside, retype_retype long]
  refine congrArg (List.take m) (retype_self long request ?_)
  have field := be16_lt v.data 2
  have word : (UInt16.ofNat (be16 v.data 2)).toNat = be16 v.data 2 := by
    rw [UInt16.toNat_ofNat']
    omega
  have forth := @echo_sum_forth (be16 v.data 2) (by omega) ps.toNat 30720 (by decide)
  rw [word] at sum
  rw [toNat_gain bound (by decide), sum, Nat.sub_sub_self (carry_le _)]
  exact forth

/-- The payloads that come back from a quote: TCP, UDP with a checksum, and echo requests, none
of them with the second of the two zeros in a checksum that cannot be told from the first. -/
def Quotable (icmp request proto : UInt8) (data : Bytes) : Prop :=
  proto = protoTCP ∧ be16 data 16 ≠ 0xffff ∨ proto = protoUDP ∧ be16 data 6 ≠ 0 ∨
    proto = icmp ∧ byteAt data 0 = request ∧ be16 data 2 ≠ 0xffff

theorem Quotable.echo {icmp request proto : UInt8} {data : Bytes} (tcp : icmp ≠ protoTCP)
    (udp : icmp ≠ protoUDP) (quotable : Quotable icmp request proto data) (same : proto = icmp) :
    byteAt data 0 = request ∧ be16 data 2 ≠ 0xffff := by
  rcases quotable with ⟨other, -⟩ | ⟨other, -⟩ | ⟨-, echo⟩
  · exact absurd (same.symm.trans other) tcp
  · exact absurd (same.symm.trans other) udp
  · exact echo

theorem Quotable.restorable {icmp request proto : UInt8} {data : Bytes} (mode : UDPChecksumMode)
    (tcp : icmp ≠ protoTCP) (udp : icmp ≠ protoUDP) (quotable : Quotable icmp request proto data) :
    Restorable mode proto data := by
  rcases quotable with ⟨rfl, kept⟩ | ⟨rfl, present⟩ | ⟨rfl, -, -⟩
  · exact ⟨fun _ => kept, fun other => absurd other (by decide)⟩
  · exact ⟨fun other => absurd other (by decide), fun _ => .inl present⟩
  · exact ⟨fun other => absurd other tcp, fun other => absurd other udp⟩

theorem rewriteTransport_present {mode : UDPChecksumMode} {data out : Bytes}
    {pseudo remove add : UInt64} (present : be16 data 6 ≠ 0)
    (done : rewriteTransport mode protoUDP data pseudo remove add = .ok out) : be16 out 6 ≠ 0 := by
  rw [rewriteTransport, if_pos rfl] at done
  split at done
  · cases done
  · cases done
    rw [adjustAt, be16_splice (by omega), Nat.mod_eq_of_lt (UInt16.toNat_lt _)]
    exact nonZero_ne_zero _

theorem rewrite6to4_quote {raw : Bytes} {v : Packet4} {em : Packet6} {mode : UDPChecksumMode}
    {src6 dst6 data cut : Bytes} {m : Nat} (parsed : Parsed4 raw v) (total : v.size = v.total)
    (start : v.flagsOff &&& ip4OffMask = 0) (quotable : Quotable protoICMP 8 v.proto v.data)
    (hs : src6.length = 16) (hd : dst6.length = 16)
    (there : rewrite4to6 mode v src6 dst6 = .ok data) (src : em.src = src6) (dst : em.dst = dst6)
    (ext : em.ext = []) (frag : em.frag = none) (proto : em.proto = v.next)
    (length : em.payloadLen = v.data.length) (body : em.data = data.take m)
    (back : rewrite6to4 mode em v.src v.dst = .ok cut) : cut <+: v.data := by
  have offset : em.offFlags = 0 := by
    rw [Packet6.offFlags, frag]
    rfl
  rw [rewrite6to4, offset, if_neg (by decide)] at back
  rw [rewrite4to6, if_neg (not_not.mpr start)] at there
  by_cases icmp : v.proto = protoICMP
  · have six : em.proto = protoICMPv6 := by rw [proto, Packet4.next, if_pos icmp]
    have request := quotable.echo (by decide) (by decide) icmp
    rw [if_pos icmp] at there
    rw [if_pos six] at back
    cases there
    cases back
    have short := parsed.data_le
    have size : em.extLen = 0 := by simp [Packet6.extLen, ext, frag]
    rw [Packet4.size] at total
    rw [echo6to4_quote hs hd icmp request.1 request.2 (n := v.data.length) (by omega) (by omega) src
      dst (by omega) body (em.icmp_ge six)]
    exact List.take_prefix _ _
  · have next : em.proto = v.proto := by rw [proto, Packet4.next, if_neg icmp]
    have other : v.proto ≠ protoICMPv6 := fun six =>
      parsed.proto_ne (.inr (.inr (.inr (.inl six))))
    rw [if_neg icmp, v.addresses] at there
    rw [next, if_neg other, em.addresses, src, dst, body] at back
    obtain ⟨-, sum4⟩ := @sum16_pair v.src v.dst (by simp [v.length_src])
      (by simp [v.length_src, v.length_dst])
    obtain ⟨-, sum6⟩ := @sum16_pair src6 dst6 (by omega) (by omega)
    have whole := @rewriteTransport_back _ _ _ _ _ (pseudo4 v.src v.dst data.length protoUDP) _ _
      (Nat.lt_of_le_of_lt sum4 (by decide)) (Nat.lt_of_le_of_lt sum6 (by decide))
      (valid4_sum v.length_src v.length_dst parsed.valid.1)
      (quotable.restorable mode (by decide) (by decide)) there
    have present (udp : v.proto = protoUDP) : be16 data 6 ≠ 0 := by
      rcases quotable with ⟨tcp, -⟩ | ⟨-, present⟩ | ⟨message, -⟩
      · exact absurd (tcp.symm.trans udp) (by decide)
      · rw [udp] at there
        exact rewriteTransport_present present there
      · exact absurd message icmp
    rw [rewriteTransport_take present whole back]
    exact List.take_prefix _ _

theorem rewrite4to6_quote {raw : Bytes} {v : Packet6} {em : Packet4} {mode : UDPChecksumMode}
    {src4 dst4 data cut : Bytes} {m : Nat} (parsed : Parsed6 raw v)
    (total : v.extLen + v.data.length = v.payloadLen) (start : v.offFlags &&& ip6FragMask = 0)
    (quotable : Quotable protoICMPv6 128 v.proto v.data)
    (hs : src4.length = 4) (hd : dst4.length = 4)
    (there : rewrite6to4 mode v src4 dst4 = .ok data) (src : em.src = src4) (dst : em.dst = dst4)
    (first : em.flagsOff &&& ip4OffMask = 0) (proto : em.proto = v.next)
    (length : em.total = em.hdr.length + v.data.length) (body : em.data = data.take m)
    (back : rewrite4to6 mode em v.src v.dst = .ok cut) : cut <+: v.data := by
  rw [rewrite4to6, if_neg (not_not.mpr first)] at back
  rw [rewrite6to4, if_neg (not_not.mpr start)] at there
  by_cases icmp : v.proto = protoICMPv6
  · have four : em.proto = protoICMP := by rw [proto, Packet6.next, if_pos icmp]
    have request := quotable.echo (by decide) (by decide) icmp
    rw [if_pos icmp] at there
    rw [if_pos four] at back
    cases there
    cases back
    have short : v.payloadLen < 65536 := be16_lt _ _
    rw [echo4to6_quote icmp request.1 request.2 (n := v.data.length) (by omega) (by omega) (by omega)
      body (em.icmp_ge four)]
    exact List.take_prefix _ _
  · have next : em.proto = v.proto := by rw [proto, Packet6.next, if_neg icmp]
    rw [if_neg icmp, v.addresses] at there
    rw [next, if_neg parsed.proto_ne, em.addresses, src, dst, body] at back
    obtain ⟨-, sum4⟩ := @sum16_pair src4 dst4 (by omega) (by omega)
    obtain ⟨-, sum6⟩ := @sum16_pair v.src v.dst (by simp [v.length_src])
      (by simp [v.length_src, v.length_dst])
    have whole := @rewriteTransport_back _ _ _ _ _ (pseudo6 v.src v.dst data.length protoUDP) _ _
      (Nat.lt_of_le_of_lt sum6 (by decide)) (Nat.lt_of_le_of_lt sum4 (by decide))
      (valid6_sum v.length_src v.length_dst parsed.valid.1)
      (quotable.restorable mode (by decide) (by decide)) there
    have present (udp : v.proto = protoUDP) : be16 data 6 ≠ 0 := by
      rcases quotable with ⟨tcp, -⟩ | ⟨-, present⟩ | ⟨message, -⟩
      · exact absurd (tcp.symm.trans udp) (by decide)
      · rw [udp] at there
        exact rewriteTransport_present present there
      · exact absurd message icmp
    rw [rewriteTransport_take present whole back]
    exact List.take_prefix _ _

/-- A quote of an IPv6 packet: cut short, with the hop limit it had by then. -/
def Quotes6 (q y : Bytes) : Prop := ∃ hop, q <+: y.set 7 hop

/-- A quote of an IPv4 packet: cut short, with the TTL and the checksum it had by then. -/
def Quotes4 (q y : Bytes) : Prop := ∃ ttl high low, q <+: ((y.set 8 ttl).set 10 high).set 11 low

theorem Quotes6.cut {q q' y : Bytes} (cut : q' <+: q) (quotes : Quotes6 q y) : Quotes6 q' y :=
  quotes.imp fun _ => cut.trans

theorem Quotes4.cut {q q' y : Bytes} (cut : q' <+: q) (quotes : Quotes4 q y) : Quotes4 q' y := by
  obtain ⟨ttl, high, low, quotes⟩ := quotes
  exact ⟨ttl, high, low, cut.trans quotes⟩

section

variable {src dst data q : Bytes}

theorem parse6_quote {tc next hop : UInt8} (hs : src.length = 16) (hd : dst.length = 16)
    (plain : ¬ (next = 0 ∨ next = 43 ∨ next = 60)) (whole : next ≠ protoFrag)
    (short : data.length < 65536)
    (quotes : Quotes6 q (ipv6Header tc data.length next hop src dst ++ data)) {em : Packet6}
    (found : parse6 q = .ok em) :
    em.src = src ∧ em.dst = dst ∧ em.payloadLen = data.length ∧ em.ext = [] ∧ em.frag = none ∧
      em.proto = next ∧ ∃ m, em.data = data.take m := by
  obtain ⟨hop', quotes⟩ := quotes
  have changed : (ipv6Header tc data.length next hop src dst ++ data).set 7 hop' =
      ipv6Header tc data.length next hop' src dst ++ data := rfl
  rw [changed, List.prefix_iff_eq_take] at quotes
  have parsed := parse6_ok found
  have front : (ipv6Header tc data.length next hop' src dst).length = 40 := by simp [hs, hd]
  have long := parsed.long
  have spelled : q = ipv6Header tc data.length next hop' src dst ++ data.take (q.length - 40) := by
    rw [List.take_append, front, List.take_of_length_le (by omega)] at quotes
    exact quotes
  generalize q.length - 40 = m at spelled
  have hdr : em.hdr = ipv6Header tc data.length next hop' src dst := by
    rw [parsed.hdr, spelled, ipv6HdrLen, take_header front]
  have total : be16 q 4 = data.length := by
    rw [spelled, ipv6Header_len, Nat.mod_eq_of_lt short]
  have sixth : byteAt q 6 = next := by
    rw [spelled, ipv6Header_next]
  have size : q.length = 40 + min m data.length := by
    rw [spelled, List.length_append, front, List.length_take]
  have stop : dataEnd6 q = q.length := by
    rw [dataEnd6, total, ipv6HdrLen, if_neg (by omega)]
  have rest : sub q 40 q.length = data.take m := by
    rw [sub, List.take_length, spelled, List.drop_left' front]
  obtain ⟨b, splits, ext, frag, proto, body⟩ := parsed.body_plain (by rw [sixth]; exact plain)
  rw [sixth, stop, rest, splitFrag, if_neg whole] at splits
  cases splits
  refine ⟨?_, ?_, ?_, ext, frag, proto, m, body⟩
  · rw [Packet6.src, hdr]
    exact sub_ipv6Header_src hs ..
  · rw [Packet6.dst, hdr]
    exact sub_ipv6Header_dst hs hd ..
  · rw [Packet6.payloadLen, hdr, ← List.append_nil (ipv6Header ..), ipv6Header_len,
      Nat.mod_eq_of_lt short]

theorem enc16_bytes (high low : UInt8) : enc16 (high.toNat * 256 + low.toNat) = [high, low] := by
  have := low.toNat_lt
  have := high.toNat_lt
  rw [enc16]
  congr 1
  · rw [← UInt8.toNat_inj, UInt8.toNat_ofNat']
    omega
  · congr 1
    rw [← UInt8.toNat_inj, UInt8.toNat_ofNat']
    omega

theorem parse4_quote {tos ttl proto : UInt8} {ident flags : Nat} (hs : src.length = 4)
    (hd : dst.length = 4) (short : ipv4HdrLen + data.length < 65536) (small : flags < 65536)
    (quotes : Quotes4 q (sealedIPv4Header tos (ipv4HdrLen + data.length) ident flags ttl proto src dst ++
      data)) {em : Packet4} (found : parse4 q = .ok em) :
    em.src = src ∧ em.dst = dst ∧ em.total = em.hdr.length + data.length ∧ em.flagsOff = flags ∧
      em.proto = proto ∧ ∃ m, em.data = data.take m := by
  obtain ⟨ttl', high, low, quotes⟩ := quotes
  have changed : (((sealedIPv4Header tos (ipv4HdrLen + data.length) ident flags ttl proto src dst ++
      data).set 8 ttl').set 10 high).set 11 low =
      ipv4Header tos (ipv4HdrLen + data.length) ident flags ttl' proto
        (high.toNat * 256 + low.toNat) src dst ++ data := by
    rw [ipv4Header, enc16_bytes]
    rfl
  rw [changed, List.prefix_iff_eq_take] at quotes
  generalize high.toNat * 256 + low.toNat = ck at quotes
  have parsed := parse4_ok found
  have front : (ipv4Header tos (ipv4HdrLen + data.length) ident flags ttl' proto ck src dst).length =
      20 := by
    simp [hs, hd]
  have long := parsed.long
  have spelled : q = ipv4Header tos (ipv4HdrLen + data.length) ident flags ttl' proto ck src dst ++
      data.take (q.length - 20) := by
    rw [List.take_append, front, List.take_of_length_le (by omega)] at quotes
    exact quotes
  generalize q.length - 20 = m at spelled
  have header : headerLen4 q = 20 := by
    rw [headerLen4, spelled, ipv4Header_first]
    rfl
  have hdr : em.hdr = ipv4Header tos (ipv4HdrLen + data.length) ident flags ttl' proto ck src dst := by
    rw [parsed.hdr, header, spelled, take_header front]
  have total : be16 q 2 = ipv4HdrLen + data.length := by
    rw [spelled, ipv4Header_len, Nat.mod_eq_of_lt short]
  have size : q.length = 20 + min m data.length := by
    rw [spelled, List.length_append, front, List.length_take]
  have stop : dataEnd4 q = q.length := by
    rw [dataEnd4, total, ipv4HdrLen, if_neg (by omega)]
  refine ⟨?_, ?_, ?_, ?_, ?_, m, ?_⟩
  · rw [Packet4.src, hdr]
    exact sub_ipv4Header_src hs ..
  · rw [Packet4.dst, hdr]
    exact sub_ipv4Header_dst hs hd ..
  · rw [Packet4.total, parsed.be16_hdr (by omega), total, hdr, front]
    rfl
  · rw [Packet4.flagsOff, parsed.be16_hdr (by omega), spelled, ipv4Header_flags,
      Nat.mod_eq_of_lt small]
  · rw [Packet4.proto, parsed.byteAt_hdr (by omega), spelled, ipv4Header_proto]
  · rw [parsed.data, header, stop, sub, List.take_length, spelled, List.drop_left' front]

end

theorem Packet6.embedded_quotes {p : Packet6} {raw : Bytes} (found : p.embedded = some raw) :
    raw <+: p.data.drop icmpHdrLen := by
  simp only [Packet6.embedded] at found
  split at found
  · split at found
    · cases found
    · cases found
      exact List.take_prefix _ _
  · cases found
    exact List.prefix_rfl

theorem Packet4.embedded_quotes {p : Packet4} {raw : Bytes} (found : p.embedded = some raw) :
    raw <+: p.data.drop icmpHdrLen := by
  simp only [Packet4.embedded] at found
  split at found
  · split at found
    · cases found
    · cases found
      exact List.take_prefix _ _
  · cases found
    exact List.prefix_rfl

theorem drop_error6to4 {p : Packet6} {ident flags : Nat} {src4 dst4 : Bytes} (hs : src4.length = 4)
    (hd : dst4.length = 4) (otype ocode : UInt8) (oword : Nat) (inner : Bytes) :
    (error6to4 p ident flags src4 dst4 otype ocode oword inner).drop (ipv4HdrLen + icmpHdrLen) =
      inner := by
  rw [error6to4, ← List.drop_drop, List.drop_left' (by simp [sealedIPv4Header, hs, hd, ipv4HdrLen])]
  rfl

theorem drop_error4to6 {p : Packet4} {src6 dst6 : Bytes} (hs : src6.length = 16)
    (hd : dst6.length = 16) (otype ocode : UInt8) (oword : Nat) (inner : Bytes) :
    (error4to6 p src6 dst6 otype ocode oword inner).drop (ipv6HdrLen + icmpHdrLen) = inner := by
  rw [error4to6, ← List.drop_drop, List.drop_left' (by simp [hs, hd, ipv6HdrLen])]
  rfl

/-- What the quote of an IPv4 packet says of it: where it came from and went to, how much it
carried, and the start of that. -/
structure QuoteOf4 (p : Pkt) (inner : Bytes) : Prop where
  first : byteAt inner 0 = 0x45
  length : be16 inner 2 = ipv4HdrLen + p.data.length
  proto : byteAt inner 9 = p.proto
  src : sub inner 12 16 = sub p.ipBytes 12 16
  dst : sub inner 16 20 = sub p.ipBytes 16 20
  transport : inner.drop ipv4HdrLen <+: p.data

/-- The same for an IPv6 packet, without its extension headers. -/
structure QuoteOf6 (p : Pkt) (inner : Bytes) : Prop where
  first : byteAt inner 0 >>> 4 = 6
  length : be16 inner 4 = p.data.length
  proto : byteAt inner 6 = p.proto
  src : sub inner 8 24 = sub p.ipBytes 8 24
  dst : sub inner 24 40 = sub p.ipBytes 24 40
  transport : inner.drop ipv6HdrLen <+: p.data

section

variable {σ : Type} {env : Env σ} {t : Translator}

/-- The protocol of a translated packet goes back to the one it was made of. -/
theorem Parsed4.next_back {raw : Bytes} {v : Packet4} (parsed : Parsed4 raw v) :
    (if v.next = protoICMPv6 then protoICMP else v.next) = v.proto := by
  rw [Packet4.next]
  by_cases icmp : v.proto = protoICMP
  · rw [if_pos icmp, if_pos rfl, icmp]
  · have other : v.proto ≠ protoICMPv6 := fun six =>
      parsed.proto_ne (.inr (.inr (.inr (.inl six))))
    rw [if_neg icmp, if_neg other]

theorem Parsed6.next_back {raw : Bytes} {v : Packet6} (parsed : Parsed6 raw v) :
    (if v.next = protoICMP then protoICMPv6 else v.next) = v.proto := by
  rw [Packet6.next]
  by_cases icmp : v.proto = protoICMPv6
  · rw [if_pos icmp, if_pos rfl, icmp]
  · rw [if_neg icmp, if_neg parsed.proto_ne]

theorem Forwarded4.quoted {raw src6 dst6 data inner : Bytes} {p : Pkt} {v : Packet4} {e : Packet6}
    {otype ocode : UInt8} {oword : Nat} (forwarded : Forwarded4 env t v src6 dst6 data)
    (parsed : Parsed4 raw v) (view : View4 p v) (start : v.flagsOff &&& ip4OffMask = 0)
    (quotable : Quotable protoICMP 8 v.proto v.data) (src : env.Pairs v.src src6)
    (dst : env.Pairs v.dst dst6) (error : ErrorForwarded6 env t e otype ocode oword inner)
    (quotes : Quotes6 (e.data.drop icmpHdrLen) (whole4to6 v src6 dst6 data)) :
    QuoteOf4 p inner := by
  have hs := forwarded.src.length
  have hd := forwarded.dst.length
  have width := length_rewrite4to6 forwarded.payload
  have short := parsed.data_le
  obtain ⟨q, em, emSrc, emDst, ident, flags, cut, embedded, found, -, -, toSrc, toDst, -, payload,
    rfl⟩ := error.embedded
  obtain ⟨src', dst', length, ext, frag, next, m, body⟩ := parse6_quote hs hd parsed.next_plain.1
    parsed.next_ne (by omega) (quotes.cut (Packet6.embedded_quotes embedded)) found
  -- the quoted addresses lead back to the sender's own
  obtain ⟨w₁, toSrc⟩ := toSrc
  obtain ⟨w₂, toDst⟩ := toDst
  rw [src', src.to4 v.length_src] at toSrc
  rw [dst', dst.to4 v.length_dst] at toDst
  cases toSrc
  cases toDst
  have size : em.extLen = 0 := by simp [Packet6.extLen, ext, frag]
  have transport : cut <+: v.data := by
    refine rewrite6to4_quote parsed forwarded.size start quotable hs hd forwarded.payload ?_ ?_ ?_
      ?_ ?_ ?_ ((congrArg _ body).trans List.take_take) payload
    exacts [src', dst', ext, frag, next, length.trans width]
  have front : (sealedIPv4Header em.tc (uint16 (ipv4HdrLen + ((em.payloadLen : Int) - em.extLen))) ident
      flags em.hop em.next v.src v.dst).length = ipv4HdrLen := by
    simp [sealedIPv4Header, v.length_src, v.length_dst, ipv4HdrLen]
  constructor
  · rfl
  · rw [inner6to4, sealedIPv4Header, ipv4Header_len, length, size, view.data, ipv4HdrLen]
    simp only [uint16]
    omega
  · rw [inner6to4, sealedIPv4Header, ipv4Header_proto, view.proto, Packet6.next, next]
    exact parsed.next_back
  · rw [inner6to4, sealedIPv4Header, ipv4Header_src _ _ _ _ _ _ _ _ v.length_src v.length_dst,
      view.ipBytes]
    rfl
  · rw [inner6to4, sealedIPv4Header, ipv4Header_dst _ _ _ _ _ _ _ _ v.length_src v.length_dst,
      view.ipBytes]
    rfl
  · rw [inner6to4, List.drop_left' front, view.data]
    exact transport

theorem Forwarded6.quoted {raw src4 dst4 data inner : Bytes} {ident flags : Nat} {p : Pkt}
    {v : Packet6} {e : Packet4} {otype ocode : UInt8} {oword : Nat}
    (forwarded : Forwarded6 env t v src4 dst4 data) (high : t.cfg.mtu ≤ 65535)
    (fragment : IdentFlags v v.data.length ident flags) (parsed : Parsed6 raw v) (view : View6 p v)
    (start : v.offFlags &&& ip6FragMask = 0) (last : v.offFlags &&& ip6FragMF = 0)
    (quotable : Quotable protoICMPv6 128 v.proto v.data) (src : env.Pairs src4 v.src)
    (dst : env.Pairs dst4 v.dst) (error : ErrorForwarded4 env t e otype ocode oword inner)
    (quotes : Quotes4 (e.data.drop icmpHdrLen) (whole6to4 v ident flags src4 dst4 data)) :
    QuoteOf6 p inner := by
  have hs := forwarded.src.length
  have hd := forwarded.dst.length
  have width := length_rewrite6to4 forwarded.payload
  have small := forwarded.small
  simp only [Packet6.size, ipv6HdrLen] at small
  have word := fragment.unfragmented start last
  obtain ⟨q, em, emSrc, emDst, cut, embedded, found, -, toSrc, toDst, -, payload, rfl⟩ :=
    error.embedded
  obtain ⟨src', dst', length, flags', next, m, body⟩ := parse4_quote hs hd
    (by rw [ipv4HdrLen]; omega) (by rcases word with rfl | rfl <;> decide)
    (quotes.cut (Packet4.embedded_quotes embedded)) found
  -- the quoted addresses lead back to the sender's own
  obtain ⟨w₁, toSrc⟩ := toSrc
  obtain ⟨w₂, toDst⟩ := toDst
  rw [src', src.to6 v.length_src] at toSrc
  rw [dst', dst.to6 v.length_dst] at toDst
  cases toSrc
  cases toDst
  have first : em.flagsOff &&& ip4OffMask = 0 := by
    rw [flags']
    rcases word with rfl | rfl <;> rfl
  have transport : cut <+: v.data := by
    refine rewrite4to6_quote parsed forwarded.length start quotable hs hd forwarded.payload ?_ ?_ ?_
      ?_ ?_ ((congrArg _ body).trans List.take_take) payload
    exacts [src', dst', first, next, width ▸ length]
  have front : (ipv6Header em.tos (uint16 ((em.total : Int) - em.hdr.length)) em.next em.ttl v.src
      v.dst).length = ipv6HdrLen := by
    simp [v.length_src, v.length_dst, ipv6HdrLen]
  constructor
  · rw [inner4to6, ipv6Header_version]
  · rw [inner4to6, ipv6Header_len, length, view.data, ← width]
    simp only [uint16]
    omega
  · rw [inner4to6, ipv6Header_next, view.proto, Packet4.next, next]
    exact parsed.next_back
  · rw [inner4to6, ipv6Header_src _ _ _ _ _ v.length_src v.length_dst, view.ipBytes]
    rfl
  · rw [inner4to6, ipv6Header_dst _ _ _ _ _ v.length_src v.length_dst, view.ipBytes]
    rfl
  · rw [inner4to6, List.drop_left' front, view.data]
    exact transport

/-- A packet that leaves in one piece leaves without a fragment header. -/
theorem whole_of_single {v : Packet4} {src6 dst6 data y : Bytes} {whole : Bool}
    (usable : mtuMin ≤ t.cfg.mtu) (unfragmented : v.flagsOff &&& (ip4OffMask ||| ip4FlagMF) = 0)
    (width : data.length = v.data.length)
    (fits : noFragHdr t v.flagsOff t.room v.hdr.length v.data.length = some whole)
    (single : pieces4to6 t v src6 dst6 data whole = [y]) : y = whole4to6 v src6 dst6 data := by
  cases whole with
  | true => exact (List.singleton_inj.mp single).symm
  | false =>
    rw [noFragHdr, if_pos unfragmented] at fits
    split at fits
    · split at fits <;> cases fits
    · have large := of_decide_eq_false (Option.some.inj fits)
      have room := (fragRoom_eq usable).1
      have less : t.fragRoom ≤ t.room := by
        simp only [Translator.fragRoom, fragHdrLen]
        omega
      -- the room of a fragment is less than the payload, so a second one follows
      rw [pieces4to6, if_neg (by decide), fragments4to6, if_pos (by omega)] at single
      obtain ⟨fuel, succ⟩ : ∃ fuel, data.length = fuel + 1 := ⟨data.length - 1, by omega⟩
      rw [succ, fragments4to6, if_pos (by rw [List.length_drop]; omega)] at single
      cases single

/-- An IPv4 packet that answers an ICMPv6 error is the error translated. -/
theorem Sends.errorFrom6 {raw back : Bytes} {qs : List Bytes} (sends : Sends env t raw qs)
    {e : Packet6} (found : parse6 raw = .ok e) (icmp : e.proto = protoICMPv6)
    (kind : ¬ (e.icmpType = 128 ∨ e.icmpType = 129)) (member : back ∈ qs)
    (four : byteAt back 0 >>> 4 = 4) :
    ∃ otype ocode oword inner, ErrorForwarded6 env t e otype ocode oword inner ∧
      back.drop (ipv4HdrLen + icmpHdrLen) = inner := by
  have six := (parse6_ok found).version
  cases sends with
  | nothing => cases member
  | complaint4 again => exact absurd (six.symm.trans (parse4_ok again).version) (by decide)
  | reply4 again => exact absurd (six.symm.trans (parse4_ok again).version) (by decide)
  | data4 again => exact absurd (six.symm.trans (parse4_ok again).version) (by decide)
  | error4 again => exact absurd (six.symm.trans (parse4_ok again).version) (by decide)
  | complaint6 =>
    obtain rfl := List.mem_singleton.mp member
    rw [icmp6Packet, ipv6Header_version] at four
    exact absurd four (by decide)
  | reply6 =>
    obtain rfl := List.mem_singleton.mp member
    rw [icmp6Packet, ipv6Header_version] at four
    exact absurd four (by decide)
  | data6 again forwarded =>
    cases found.symm.trans again
    exact absurd (forwarded.kind icmp) kind
  | error6 again forwarded src dst =>
    cases found.symm.trans again
    obtain rfl := List.mem_singleton.mp member
    exact ⟨_, _, _, _, forwarded, drop_error6to4 (length_source4 src) dst.length ..⟩

theorem Sends.errorFrom4 {raw back : Bytes} {qs : List Bytes} (sends : Sends env t raw qs)
    {e : Packet4} (found : parse4 raw = .ok e) (icmp : e.proto = protoICMP)
    (kind : ¬ (e.icmpType = 8 ∨ e.icmpType = 0)) (member : back ∈ qs)
    (six : byteAt back 0 >>> 4 = 6) :
    ∃ otype ocode oword inner, ErrorForwarded4 env t e otype ocode oword inner ∧
      back.drop (ipv6HdrLen + icmpHdrLen) = inner := by
  have four := (parse4_ok found).version
  cases sends with
  | nothing => cases member
  | complaint4 =>
    obtain rfl := List.mem_singleton.mp member
    exact absurd six (show ¬ (0x45 : UInt8) >>> 4 = 6 by decide)
  | reply4 =>
    obtain rfl := List.mem_singleton.mp member
    exact absurd six (show ¬ (0x45 : UInt8) >>> 4 = 6 by decide)
  | data4 again forwarded =>
    cases found.symm.trans again
    exact absurd (forwarded.kind icmp) kind
  | error4 again forwarded src dst =>
    cases found.symm.trans again
    obtain rfl := List.mem_singleton.mp member
    exact ⟨_, _, _, _, forwarded, drop_error4to6 (length_source6 src) dst.length ..⟩
  | complaint6 again => exact absurd (four.symm.trans again.version) (by decide)
  | reply6 again => exact absurd (four.symm.trans (parse6_ok again).version) (by decide)
  | data6 again => exact absurd (four.symm.trans (parse6_ok again).version) (by decide)
  | error6 again => exact absurd (four.symm.trans (parse6_ok again).version) (by decide)

end

/-- An ICMP error that quotes a translated packet comes back as an error that quotes the
packet its sender knows. -/
structure QuotesSender {σ : Type} (env : Env σ) (t : Translator) : Prop where
  four : ∀ {raw y e back src6 dst6 : Bytes} {p ep : Pkt} {n pointer : Nat} {silent : Bool} {w w' : σ},
    parseIPv4 { raw } = .ok (.none, p) → be16 p.ipBytes 6 &&& (ip4OffMask ||| ip4FlagMF) = 0 →
    Quotable protoICMP 8 p.proto p.data →
    env.Pairs (sub p.ipBytes 12 16) src6 → env.Pairs (sub p.ipBytes 16 20) dst6 →
    src6.length = 16 → dst6.length = 16 →
    .translated 4 n ∈ (translate env t raw w).acts → packets (translate env t raw w).acts = [y] →
    parseIPv6 { raw := e } = .ok (.none, pointer, silent, ep) → ep.proto = protoICMPv6 →
    ¬ (byteAt ep.data 0 = 128 ∨ byteAt ep.data 0 = 129) → Quotes6 (ep.data.drop icmpHdrLen) y →
    back ∈ packets (translate env t e w').acts → byteAt back 0 >>> 4 = 4 →
    QuoteOf4 p (back.drop (ipv4HdrLen + icmpHdrLen))
  six : ∀ {raw y e back src4 dst4 : Bytes} {p ep : Pkt} {n pointer word : Nat} {silent : Bool}
      {w w' : σ},
    parseIPv6 { raw } = .ok (.none, pointer, silent, p) → p.offFlags = .ok word →
    word &&& (ip6FragMask ||| ip6FragMF) = 0 → Quotable protoICMPv6 128 p.proto p.data →
    env.Pairs src4 (sub p.ipBytes 8 24) → env.Pairs dst4 (sub p.ipBytes 24 40) →
    src4.length = 4 → dst4.length = 4 →
    .translated 6 n ∈ (translate env t raw w).acts → packets (translate env t raw w).acts = [y] →
    parseIPv4 { raw := e } = .ok (.none, ep) → ep.proto = protoICMP →
    ¬ (byteAt ep.data 0 = 8 ∨ byteAt ep.data 0 = 0) → Quotes4 (ep.data.drop icmpHdrLen) y →
    back ∈ packets (translate env t e w').acts → byteAt back 0 >>> 4 = 6 →
    QuoteOf6 p (back.drop (ipv6HdrLen + icmpHdrLen))

theorem errors_quote_sender {σ : Type} {cfg : Config} {t : Translator}
    (built : Translator.new cfg = .ok t) (low : mtuMin ≤ cfg.mtu) (high : cfg.mtu ≤ 65535)
    (env : Env σ) : QuotesSender env t := by
  have same : t.cfg.mtu = cfg.mtu := by rw [Translator.new_cfg built, Config.raised_mtu]
  rw [← same] at low high
  constructor
  · intro raw y e back src6 dst6 p ep n _ _ w w' parsed unfragmented quotable src dst hs hd counted
      single errorParsed icmp kind quotes member four
    obtain ⟨v, found, view⟩ := parse4_of_accepted parsed
    obtain ⟨ev, errorFound, errorView⟩ := parse6_of_accepted errorParsed
    rw [view.ipBytes] at unfragmented src dst
    rw [view.proto, view.data] at quotable
    rw [errorView.proto] at icmp
    rw [errorView.data] at kind quotes
    have echo (icmp : v.proto = protoICMP) : v.icmpType = 8 ∨ v.icmpType = 0 :=
      .inl (quotable.echo (by decide) (by decide) icmp).1
    obtain ⟨src6', dst6', data, whole, forwarded, fits, -, sent⟩ :=
      (translate_sound env t raw w).1.translated4 counted found echo
    obtain ⟨w₁, toSrc⟩ := forwarded.src
    obtain ⟨w₂, toDst⟩ := forwarded.dst
    cases (src.to6 hs w₁).symm.trans toSrc
    cases (dst.to6 hd w₂).symm.trans toDst
    obtain rfl := whole_of_single low unfragmented (length_rewrite4to6 forwarded.payload) fits
      (sent.symm.trans single)
    obtain ⟨_, _, _, inner, error, rfl⟩ :=
      (translate_sends env t e w').errorFrom6 errorFound icmp kind member four
    rw [Nat.and_or_distrib_left, Nat.or_eq_zero_iff] at unfragmented
    exact forwarded.quoted (parse4_ok found) view unfragmented.1 quotable src dst error quotes
  · intro raw y e back src4 dst4 p ep n _ word _ w w' parsed offFlags unfragmented quotable src dst hs
      hd counted single errorParsed icmp kind quotes member six
    obtain ⟨v, found, view⟩ := parse6_of_accepted parsed
    obtain ⟨ev, errorFound, errorView⟩ := parse4_of_accepted errorParsed
    cases view.offFlags.symm.trans offFlags
    rw [view.ipBytes] at src dst
    rw [view.proto, view.data] at quotable
    rw [errorView.proto] at icmp
    rw [errorView.data] at kind quotes
    have echo (icmp : v.proto = protoICMPv6) : v.icmpType = 128 ∨ v.icmpType = 129 :=
      .inl (quotable.echo (by decide) (by decide) icmp).1
    obtain ⟨src4', dst4', data, ident, flags, forwarded, fragment, sent⟩ :=
      (translate_sound env t raw w).1.translated6 counted found echo
    obtain ⟨w₁, toSrc⟩ := forwarded.src
    obtain ⟨w₂, toDst⟩ := forwarded.dst
    cases (src.to4 hs true w₁).symm.trans toSrc
    cases (dst.to4 hd false w₂).symm.trans toDst
    obtain rfl := List.singleton_inj.mp (sent.symm.trans single)
    obtain ⟨_, _, _, inner, error, rfl⟩ :=
      (translate_sends env t e w').errorFrom4 errorFound icmp kind member six
    rw [Nat.and_or_distrib_left, Nat.or_eq_zero_iff] at unfragmented
    exact forwarded.quoted high fragment (parse6_ok found) view unfragmented.1 unfragmented.2 quotable
      src dst error quotes

/-- A UDP datagram from 192.0.2.33 and the same one as IPv6, each with an error that quotes
eight bytes of its payload two hops later. -/
theorem errors_quote_sender_udp :
    let x4 : Bytes := [69, 0, 0, 32, 0, 7, 0, 0, 64, 17, 142, 112, 192, 0, 2, 33, 198, 51, 100, 1, 48, 57,
      0, 53, 0, 12, 223, 11, 1, 2, 3, 4]
    let x6 : Bytes := [96, 0, 0, 0, 0, 12, 17, 63, 0, 100, 255, 155, 0, 0, 0, 0, 0, 0, 0, 0, 192, 0, 2, 33,
      0, 100, 255, 155, 0, 0, 0, 0, 0, 0, 0, 0, 198, 51, 100, 1, 48, 57, 0, 53, 0, 12, 223, 11, 1, 2, 3,
      4]
    let e6 : Bytes := [96, 0, 0, 0, 0, 56, 58, 64, 0, 100, 255, 155, 0, 0, 0, 0, 0, 0, 0, 0, 198, 51, 100,
      1, 0, 100, 255, 155, 0, 0, 0, 0, 0, 0, 0, 0, 192, 0, 2, 33, 1, 4, 165, 12, 0, 0, 0, 0, 96, 0, 0, 0,
      0, 12, 17, 61, 0, 100, 255, 155, 0, 0, 0, 0, 0, 0, 0, 0, 192, 0, 2, 33, 0, 100, 255, 155, 0, 0, 0, 0,
      0, 0, 0, 0, 198, 51, 100, 1, 48, 57, 0, 53, 0, 12, 223, 11]
    let e4 : Bytes := [69, 0, 0, 56, 0, 0, 0, 0, 64, 1, 142, 111, 198, 51, 100, 1, 192, 0, 2, 33, 3, 3,
      237, 118, 0, 0, 0, 0, 69, 0, 0, 32, 0, 0, 0, 0, 60, 17, 146, 119, 192, 0, 2, 33, 198, 51, 100, 1,
      48, 57, 0, 53, 0, 12, 223, 11]
    let p4 : Pkt := { raw := x4, ip := some 20, hdrLen := 20, lo := 20, hi := 32, proto := 17 }
    let p6 : Pkt := { raw := x6, ip := some 40, lo := 40, hi := 52, proto := 17 }
    let sent raw := packets (translate Env.sample (.sample 1500 .calc) raw ()).acts
    (∃ back ∈ sent e6, QuoteOf4 p4 (back.drop 28)) ∧ ∃ back ∈ sent e4, QuoteOf6 p6 (back.drop 48) := by
  intro x4 x6 e6 e4 p4 p6 sent
  have quotes := errors_quote_sender (show Translator.new (Config.sample 1500 1280 .calc) =
    .ok (.sample 1500 .calc) from rfl) (by decide) (by decide) Env.sample
  let ep6 : Pkt := { raw := e6, ip := some 40, lo := 40, hi := 96, icmp := some 40, proto := 58 }
  let ep4 : Pkt :=
    { raw := e4, ip := some 20, hdrLen := 20, lo := 20, hi := 56, icmp := some 20, proto := 1 }
  obtain ⟨back4, member4, four⟩ : ∃ back ∈ sent e6, byteAt back 0 >>> 4 = 4 := by decide +kernel
  obtain ⟨back6, member6, six⟩ : ∃ back ∈ sent e4, byteAt back 0 >>> 4 = 6 := by decide +kernel
  refine ⟨⟨back4, member4, ?_⟩, back6, member6, ?_⟩
  · exact quotes.four (n := 32) (y := x6) (w := ())
      (show parseIPv4 { raw := x4 } = .ok (.none, p4) by decide +kernel)
      (by decide) (.inr (.inl ⟨rfl, by decide⟩)) (Env.sample_pairs rfl) (Env.sample_pairs rfl) rfl rfl
      (by decide +kernel) (by decide +kernel)
      (show parseIPv6 { raw := e6 } = .ok (.none, 0, false, ep6) by decide +kernel) rfl (by decide)
      ⟨61, by decide +kernel⟩ member4 four
  · exact quotes.six (n := 52) (w := ())
      (y := [69, 0, 0, 32, 0, 0, 0, 0, 62, 17, 144, 119, 192, 0, 2, 33, 198, 51, 100, 1, 48, 57, 0, 53, 0,
        12, 223, 11, 1, 2, 3, 4])
      (show parseIPv6 { raw := x6 } = .ok (.none, 0, false, p6) by decide +kernel)
      rfl (by decide) (.inr (.inl ⟨rfl, by decide⟩))
      (Env.sample_pairs (a := [192, 0, 2, 33]) rfl) (Env.sample_pairs (a := [198, 51, 100, 1]) rfl) rfl rfl
      (by decide +kernel) (by decide +kernel)
      (show parseIPv4 { raw := e4 } = .ok (.none, ep4) by decide +kernel) rfl (by decide)
      ⟨60, 146, 119, by decide +kernel⟩ member6 six

end Clatto.Xlate
