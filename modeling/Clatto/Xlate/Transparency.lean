import Clatto.Xlate.ChecksumFacts
import Clatto.Xlate.ReadBack

/-! Transport checksums survive translation: what is right stays right and what
is wrong stays wrong, whether or not the segment is fragmented on the way. -/

namespace Clatto.Xlate

open Bytes Ones

theorem fragments4to6_nil (p : Packet4) (src6 dst6 : Bytes) (room fuel off : Nat) :
    fragments4to6 p src6 dst6 room fuel off [] = [] := by
  cases fuel <;> rfl

theorem piece6_fragment4to6 {p : Packet4} {src6 dst6 data : Bytes} (hs : src6.length = 16)
    (hd : dst6.length = 16) {off n : Nat} (start : off % 8 = 0) (small : off < 65536)
    (width : n ≤ data.length) (short : fragHdrLen + n < 65536) :
    piece6 (fragment4to6 p src6 dst6 off n data) =
      { src := src6, dst := dst6, proto := p.next, ident := p.ident, offset := off
        more := decide (data.length > n) || decide (p.flagsOff &&& ip4FlagMF ≠ 0)
        data := data.take n } := by
  have flags := fragFlags_eq start small (decide (p.flagsOff &&& ip4FlagMF ≠ 0)) data.length n
  have identical : p.ident % 4294967296 = p.ident :=
    Nat.mod_eq_of_lt (Nat.lt_of_lt_of_le (be16_lt _ _) (by decide))
  rw [fragment4to6, piece6_fragment hs hd (List.length_take_of_le width) short, flags.1, flags.2,
    identical]

/-- The fragments of a payload follow each other from its offset to its end, and
carry nothing but the payload. -/
theorem fragments4to6_contiguous {p : Packet4} {src6 dst6 : Bytes} (hs : src6.length = 16)
    (hd : dst6.length = 16) {room : Nat} (positive : 0 < room) (aligned : room % 8 = 0)
    {first : Piece} (base : first.src = src6 ∧ first.dst = dst6 ∧ first.proto = p.next ∧
      first.ident = p.ident) {fuel off : Nat} {data : Bytes} (enough : data.length < fuel)
    (some : data ≠ []) (start : off % 8 = 0) (fits : off + data.length ≤ 65535)
    (short : data.length + fragHdrLen ≤ 65535) :
    Contiguous first (decide (p.flagsOff &&& ip4FlagMF ≠ 0)) off
        ((fragments4to6 p src6 dst6 room fuel off data).map piece6) ∧
      ((fragments4to6 p src6 dst6 room fuel off data).map piece6).flatMap Piece.data = data := by
  induction fuel generalizing off data with
  | zero => omega
  | succ fuel ih =>
    have positive' : 0 < data.length := List.length_pos_iff.mpr some
    simp only [fragments4to6, positive', if_true, List.map_cons]
    generalize cut : min data.length room = n
    have width : (data.take n).length = n := by simp; omega
    rw [piece6_fragment4to6 hs hd start (by omega) (by omega) (by omega)]
    have same : Piece.SameDatagram { src := src6, dst := dst6, proto := p.next, ident := p.ident
                                     offset := off, data := data.take n
                                     more := decide (data.length > n) ||
                                       decide (p.flagsOff &&& ip4FlagMF ≠ 0) } first :=
      ⟨base.1.symm, base.2.1.symm, base.2.2.1.symm, base.2.2.2.symm⟩
    by_cases last : data.length ≤ room
    · obtain rfl : n = data.length := by omega
      rw [List.drop_length, fragments4to6_nil, List.take_length]
      rw [List.take_length] at same
      exact ⟨.last same rfl (by simp), by simp⟩
    · have rest : data.drop n ≠ [] := by
        rw [← List.length_pos_iff, List.length_drop]
        omega
      have left : (data.drop n).length = data.length - n := List.length_drop
      obtain ⟨next, joined⟩ := @ih (off + n) (data.drop n) (by omega) rest (by omega) (by omega)
        (by omega)
      refine ⟨.cons same rfl ?_ (by rwa [width]), ?_⟩
      · rw [decide_eq_true (show data.length > n by omega), Bool.true_or]
      · rw [List.flatMap_cons, joined, List.take_append_drop]

theorem fragRoom_aligned (t : Translator) : t.fragRoom.toNat % 8 = 0 := by
  have := fragRoom_mod t
  omega

/-- Whichever way an unfragmented packet leaves, a receiver gets the datagram. -/
theorem pieces4to6_reassemble {t : Translator} {whole : Bool} (roomy : t.Roomy whole) {p : Packet4}
    {src6 dst6 data : Bytes} (hs : src6.length = 16) (hd : dst6.length = 16) (some : data ≠ [])
    (short : data.length + fragHdrLen ≤ 65535) (plain : p.next ≠ protoFrag)
    (start : p.flagsOff &&& ip4OffMask = 0) (last : p.flagsOff &&& ip4FlagMF = 0) :
    Reassembles ((pieces4to6 t p src6 dst6 data whole).map piece6) ⟨src6, dst6, p.next, data⟩ := by
  unfold pieces4to6
  cases whole with
  | true =>
    have piece := piece6_whole hs hd plain (show data.length < 65536 by omega) p.tos (p.ttl - 1)
    rw [if_pos rfl, List.map_singleton, whole4to6, piece]
    exact ⟨⟨_, _, rfl, .last ⟨rfl, rfl, rfl, rfl⟩ rfl rfl, rfl, rfl, rfl⟩, by simp⟩
  | false =>
    have positive : 0 < t.fragRoom.toNat := by
      have := roomy.resolve_left nofun
      omega
    rw [if_neg (by decide), start, Nat.zero_mul]
    obtain ⟨run, joined⟩ := @fragments4to6_contiguous p src6 dst6 hs hd _ positive
      (fragRoom_aligned t)
      { src := src6, dst := dst6, proto := p.next, ident := p.ident, offset := 0, more := false
        data := data } ⟨rfl, rfl, rfl, rfl⟩ (data.length + 1) 0 data (by omega) some rfl (by omega)
      short
    rw [last] at run
    have datagram := run.reassembles
    rwa [joined] at datagram

/-- The field `adjustAt` writes, modulo 65535: the old one, with what leaves added
and what enters taken away. -/
theorem nonZero_adjust_mod {old : Nat} (word : old < 65536) {remove add : UInt64}
    (small : add.toNat < 2 ^ 48) (udp : Bool) :
    ((nonZero udp (adjust (UInt16.ofNat old) remove add)).toNat + add.toNat) % 65535 =
      (old + remove.toNat) % 65535 := by
  have value := @toNat_adjust (UInt16.ofNat old) remove add small
  have back : (UInt16.ofNat old).toNat = old := by
    rw [UInt16.toNat_ofNat', Nat.mod_eq_of_lt word]
  rw [back] at value
  have outer := carry_mod (65535 - old + (65535 - carry remove.toNat) + add.toNat)
  have bound := carry_le (65535 - old + (65535 - carry remove.toNat) + add.toNat)
  have inner := carry_mod remove.toNat
  have limit := carry_le remove.toNat
  unfold nonZero
  split
  · rename_i replaced
    rw [replaced.2, UInt16.toNat_zero] at value
    show (65535 + add.toNat) % 65535 = _
    omega
  · omega

/-- Moving a checksum from one pseudo-header to another neither repairs nor breaks
it. The two pseudo-headers differ in what is removed and added; the rest they
have in common is not empty. -/
theorem verify_adjustAt {data : Bytes} {field : Nat} (even : field % 2 = 0)
    (inside : field + 2 ≤ data.length) (short : data.length < 2 ^ 20) {pin pout remove add : UInt64}
    {common : Nat} (positive : 0 < common)
    (before : carry pin.toNat = carry (remove.toNat + common)) (pinSmall : pin.toNat < 2 ^ 40)
    (after : carry pout.toNat = carry (add.toNat + common)) (poutSmall : pout.toNat < 2 ^ 40)
    (small : add.toNat < 2 ^ 48) (udp : Bool) :
    verify data pin ↔ verify (adjustAt udp data field remove add) pout := by
  have moved := @nonZero_adjust_mod _ (be16_lt data field) remove _ small udp
  have words := wordSum_splice even inside
    (nonZero udp (adjust (UInt16.ofNat (be16 data field)) remove add)).toNat_lt
  have roomyIn : Roomy data pin := by
    unfold Roomy
    omega
  have roomyOut : Roomy (adjustAt udp data field remove add) pout := by
    unfold Roomy
    rw [length_adjustAt]
    omega
  rw [verify_iff roomyIn, verify_iff roomyOut, adjustAt]
  rw [carry_eq_iff] at before after
  omega

/-- Where the checksum of a transport protocol stands. -/
def checksumField (proto : UInt8) : Nat := if proto = protoUDP then 6 else 16

/-- A TCP segment, or a UDP datagram that carries a checksum. -/
def Checksummed (d : Datagram) : Prop :=
  d.proto = protoTCP ∨ d.proto = protoUDP ∧ be16 d.data 6 ≠ 0

/-- Everything but the checksum is the same on both sides. -/
structure CarriedBy (d d' : Datagram) : Prop where
  proto : d'.proto = d.proto
  inside : checksumField d.proto + 2 ≤ d.data.length
  length : d'.data.length = d.data.length
  bytes : ∀ i, i ≠ checksumField d.proto → i ≠ checksumField d.proto + 1 →
    byteAt d'.data i = byteAt d.data i
  nonzero : d.proto = protoUDP → be16 d'.data 6 ≠ 0

theorem nonZero_ne_zero (ck : UInt16) : (nonZero true ck).toNat ≠ 0 := by
  unfold nonZero
  split
  · decide
  · rename_i clear
    intro zero
    exact clear ⟨rfl, UInt16.toNat_inj.mp zero⟩

theorem rewriteTransport_adjusts {mode : UDPChecksumMode} {proto : UInt8} {data out : Bytes}
    {pseudo remove add : UInt64} (checked : proto = protoTCP ∨ proto = protoUDP ∧ be16 data 6 ≠ 0)
    (done : rewriteTransport mode proto data pseudo remove add = .ok out) :
    checksumField proto + 2 ≤ data.length ∧
      out = adjustAt (decide (proto = protoUDP)) data (checksumField proto) remove add := by
  unfold rewriteTransport at done
  rcases checked with rfl | ⟨rfl, present⟩
  · rw [if_neg (by decide), if_pos rfl] at done
    split at done
    · cases done
    · rename_i long
      cases done
      exact ⟨show 16 + 2 ≤ data.length by omega, rfl⟩
  · rw [if_pos rfl, if_neg present] at done
    split at done
    · cases done
    · rename_i long
      cases done
      exact ⟨show 6 + 2 ≤ data.length by omega, rfl⟩

theorem carriedBy_adjustAt {d d' : Datagram} {remove add : UInt64} (proto : d'.proto = d.proto)
    (inside : checksumField d.proto + 2 ≤ d.data.length)
    (rewritten : d'.data =
      adjustAt (decide (d.proto = protoUDP)) d.data (checksumField d.proto) remove add) :
    CarriedBy d d' where
  proto := proto
  inside := inside
  length := by rw [rewritten, length_adjustAt]
  bytes := by
    intro i high low
    rw [rewritten, adjustAt, byteAt_splice_outside (by simpa using inside)]
    simp only [length_enc16]
    omega
  nonzero := by
    intro udp
    rw [rewritten]
    simp only [udp, checksumField, if_true, decide_true] at inside ⊢
    rw [adjustAt, be16_splice inside, Nat.mod_eq_of_lt (UInt16.toNat_lt _)]
    exact nonZero_ne_zero _

/-- The segment verifies under its IPv4 pseudo-header. -/
def verifies4 (d : Datagram) : Bool := verify d.data (pseudo4 d.src d.dst d.data.length d.proto)

/-- The segment verifies under its IPv6 pseudo-header. -/
def verifies6 (d : Datagram) : Bool := verify d.data (pseudo6 d.src d.dst d.data.length d.proto)

theorem sum16_pair {src dst : Bytes} (even : src.length % 2 = 0)
    (short : src.length + dst.length ≤ 32) :
    carry (sum16 (src ++ dst) 0).toNat = carry (wordSum src + wordSum dst) ∧
      (sum16 (src ++ dst) 0).toNat ≤ 2 ^ 37 := by
  have sum := @sum16_short (src ++ dst) (by simpa using short)
  rwa [wordSum_append even] at sum

theorem checksumField_even (proto : UInt8) : checksumField proto % 2 = 0 := by
  unfold checksumField
  split <;> rfl

theorem checked_proto_pos {d : Datagram} (checked : Checksummed d) : 0 < d.proto.toNat := by
  rcases checked with tcp | ⟨udp, -⟩
  · rw [tcp]
    decide
  · rw [udp]
    decide

theorem Packet4.addresses (p : Packet4) : sub p.hdr 12 20 = p.src ++ p.dst :=
  (sub_append_sub (by omega) (by omega)).symm

theorem Packet6.addresses (p : Packet6) : sub p.hdr 8 40 = p.src ++ p.dst :=
  (sub_append_sub (by omega) (by omega)).symm

def Packet4.datagram (p : Packet4) : Datagram := ⟨p.src, p.dst, p.proto, p.data⟩

def Packet6.datagram (p : Packet6) : Datagram := ⟨p.src, p.dst, p.proto, p.data⟩

theorem checked_not_icmp {d : Datagram} (checked : Checksummed d) :
    d.proto ≠ protoICMP ∧ d.proto ≠ protoICMPv6 := by
  rcases checked with tcp | ⟨udp, -⟩
  · rw [tcp]
    decide
  · rw [udp]
    decide

/-- The pseudo-headers of both sides agree on everything but the addresses. -/
theorem verify_readdressed {d : Datagram} {src dst : Bytes} (checked : Checksummed d)
    (inside : checksumField d.proto + 2 ≤ d.data.length) (short : d.data.length < 65536)
    (evenOld : d.src.length % 2 = 0) (shortOld : d.src.length + d.dst.length ≤ 32)
    (evenNew : src.length % 2 = 0) (shortNew : src.length + dst.length ≤ 32) {pin pout : UInt64}
    (before : carry pin.toNat =
        carry (wordSum d.src + wordSum d.dst + d.data.length + d.proto.toNat) ∧
      pin.toNat < 2 ^ 40)
    (after : carry pout.toNat =
        carry (wordSum src + wordSum dst + d.data.length + d.proto.toNat) ∧
      pout.toNat < 2 ^ 40) (udp : Bool) :
    verify d.data pin ↔ verify (adjustAt udp d.data (checksumField d.proto)
      (sum16 (d.src ++ d.dst) 0) (sum16 (src ++ dst) 0)) pout := by
  obtain ⟨old, -⟩ := sum16_pair evenOld shortOld
  obtain ⟨new, newSmall⟩ := sum16_pair evenNew shortNew
  have positive : 0 < d.data.length + d.proto.toNat :=
    Nat.lt_of_lt_of_le (checked_proto_pos checked) (Nat.le_add_left _ _)
  refine verify_adjustAt (checksumField_even _) inside (by omega) positive ?_ before.2 ?_ after.2
    (by omega) udp
  · rw [before.1, Nat.add_assoc]
    exact (carry_add_congr old _).symm
  · rw [after.1, Nat.add_assoc]
    exact (carry_add_congr new _).symm

theorem rewrite4to6_transparent {mode : UDPChecksumMode} {p : Packet4} {src6 dst6 out : Bytes}
    (hs : src6.length = 16) (hd : dst6.length = 16) (whole : p.flagsOff &&& ip4OffMask = 0)
    (checked : Checksummed p.datagram) (short : p.data.length < 65536)
    (done : rewrite4to6 mode p src6 dst6 = .ok out) :
    CarriedBy p.datagram ⟨src6, dst6, p.proto, out⟩ ∧
      (verifies4 p.datagram ↔ verifies6 ⟨src6, dst6, p.proto, out⟩) := by
  have transport : p.proto ≠ protoICMP := (checked_not_icmp checked).1
  have hps := p.length_src
  have hpd := p.length_dst
  rw [rewrite4to6, if_neg (not_not.mpr whole), if_neg transport, p.addresses] at done
  obtain ⟨inside, rfl⟩ := rewriteTransport_adjusts checked done
  refine ⟨carriedBy_adjustAt rfl inside rfl, ?_⟩
  unfold verifies4 verifies6
  rw [length_adjustAt]
  exact verify_readdressed checked inside short (by simp [Packet4.datagram, hps])
    (by simp [Packet4.datagram, hps, hpd]) (by omega) (by omega)
    (pseudo4_spec hps hpd (show p.data.length < 2 ^ 32 by omega) p.proto)
    (pseudo6_spec hs hd (show p.data.length < 2 ^ 32 by omega) p.proto) _

theorem rewrite6to4_transparent {mode : UDPChecksumMode} {p : Packet6} {src4 dst4 out : Bytes}
    (hs : src4.length = 4) (hd : dst4.length = 4) (whole : p.frag = none)
    (checked : Checksummed p.datagram) (short : p.data.length < 65536)
    (done : rewrite6to4 mode p src4 dst4 = .ok out) :
    CarriedBy p.datagram ⟨src4, dst4, p.proto, out⟩ ∧
      (verifies6 p.datagram ↔ verifies4 ⟨src4, dst4, p.proto, out⟩) := by
  have transport : p.proto ≠ protoICMPv6 := (checked_not_icmp checked).2
  have hps := p.length_src
  have hpd := p.length_dst
  have start : p.offFlags = 0 := by rw [Packet6.offFlags, whole]; rfl
  rw [rewrite6to4, start, if_neg (by decide), if_neg transport, p.addresses] at done
  obtain ⟨inside, rfl⟩ := rewriteTransport_adjusts checked done
  refine ⟨carriedBy_adjustAt rfl inside rfl, ?_⟩
  unfold verifies4 verifies6
  rw [length_adjustAt]
  exact verify_readdressed checked inside short (by simp [Packet6.datagram, hps])
    (by simp [Packet6.datagram, hps, hpd]) (by omega) (by omega)
    (pseudo6_spec hps hpd (show p.data.length < 2 ^ 32 by omega) p.proto)
    (pseudo4_spec hs hd (show p.data.length < 2 ^ 32 by omega) p.proto) _

/-- The packets among what was observed, in order. -/
def packets (acts : List Action) : List Bytes :=
  acts.filterMap fun
    | .packet b => some b
    | _ => none

@[simp] theorem packets_append (acts acts' : List Action) :
    packets (acts ++ acts') = packets acts ++ packets acts' := List.filterMap_append

@[simp] theorem packets_map (sent : List Bytes) : packets (sent.map .packet) = sent := by
  induction sent with
  | nil => rfl
  | cons b sent ih => exact congrArg (b :: ·) ih

/-- The segment of a packet the IPv4 parser accepted. -/
def Pkt.datagram4 (p : Pkt) : Datagram := ⟨sub p.ipBytes 12 16, sub p.ipBytes 16 20, p.proto, p.data⟩

/-- The segment of a packet the IPv6 parser accepted. -/
def Pkt.datagram6 (p : Pkt) : Datagram := ⟨sub p.ipBytes 8 24, sub p.ipBytes 24 40, p.proto, p.data⟩

theorem View4.datagram {p : Pkt} {v : Packet4} (view : View4 p v) : p.datagram4 = v.datagram := by
  rw [Pkt.datagram4, view.ipBytes, view.proto, view.data]
  rfl

theorem View6.datagram {p : Pkt} {v : Packet6} (view : View6 p v) : p.datagram6 = v.datagram := by
  rw [Pkt.datagram6, view.ipBytes, view.proto, view.data]
  rfl

theorem parse4_of_accepted {raw : Bytes} {p : Pkt} (parsed : parseIPv4 { raw } = .ok (.none, p)) :
    ∃ v, parse4 raw = .ok v ∧ View4 p v := by
  have refines := parseIPv4_refines raw
  rw [parsed] at refines
  cases found : parse4 raw with
  | error e =>
    rw [found] at refines
    obtain ⟨reason, _, same, bad, -⟩ := refines
    cases same
    exact absurd rfl bad
  | ok v =>
    rw [found] at refines
    obtain ⟨_, same, view⟩ := refines
    cases same
    exact ⟨v, rfl, view⟩

theorem parse6_of_accepted {raw : Bytes} {p : Pkt} {pointer : Nat} {silent : Bool}
    (parsed : parseIPv6 { raw } = .ok (.none, pointer, silent, p)) :
    ∃ v, parse6 raw = .ok v ∧ View6 p v := by
  have refines := parseIPv6_refines raw
  rw [parsed] at refines
  rcases found : parse6 raw with (_ | e | ⟨v, _⟩) | v
  · rw [found] at refines
    obtain ⟨reason, _, _, same, bad⟩ := refines
    cases same
    exact absurd rfl bad
  · rw [found] at refines
    obtain ⟨reason, _, _, same, bad, -⟩ := refines
    cases same
    exact absurd rfl bad
  · rw [found] at refines
    obtain ⟨_, same, -⟩ := refines
    cases same
  · rw [found] at refines
    obtain ⟨_, same, view⟩ := refines
    cases same
    exact ⟨v, rfl, view⟩

section

variable {σ : Type} {env : Env σ} {t : Translator} {raw : Bytes} {acts : List Action} {n : Nat}

/-- A counted IPv4 packet that is no ICMP error left as all of its pieces. -/
theorem Handled.translated4 (handled : Handled env t raw acts)
    (counted : .translated 4 n ∈ acts) {v : Packet4} (found : parse4 raw = .ok v)
    (kind : v.proto = protoICMP → v.icmpType = 8 ∨ v.icmpType = 0) :
    ∃ src6 dst6 data whole, Forwarded4 env t v src6 dst6 data ∧
      noFragHdr t v.flagsOff t.room v.hdr.length v.data.length = some whole ∧
      (t.Roomy whole ∨ data = []) ∧ packets acts = pieces4to6 t v src6 dst6 data whole := by
  cases handled with
  | empty => cases counted
  | unknown => simp at counted
  | six _ version =>
    have four := (parse4_ok found).version
    rw [version] at four
    exact absurd four (by decide)
  | four _ version handled =>
    cases handled with
    | unparsed failed => simp at counted
    | parsed again trace =>
      cases found.symm.trans again
      cases trace with
      | report => simp at counted
      | complain => simp at counted
      | echo => simp at counted
      | data forwarded whole fits sent done shape pieces all refused room =>
        cases done with
        | false => simp at counted
        | true =>
          refine ⟨_, _, _, whole, forwarded, fits, room rfl, ?_⟩
          rw [packets_append, packets_map]
          refine (List.append_nil _).trans ?_
          by_cases roomy : t.Roomy whole
          · exact all roomy rfl
          · -- without room there is no data either, and nothing is sent
            obtain rfl := (room rfl).resolve_left roomy
            cases whole with
            | true => exact absurd (.inl rfl) roomy
            | false =>
              have none : sent = [] := List.eq_nil_iff_forall_not_mem.mpr fun q member => by
                obtain ⟨k, -, inside, -⟩ := shape q member
                cases inside
              rw [none]
              exact (fragments4to6_nil ..).symm
      | error forwarded => exact absurd (kind forwarded.icmp) forwarded.kind
      | errorRefused synth => cases synth <;> simp [synthesised] at counted
      | errorUnmapped synth => cases synth <;> simp [synthesised] at counted

/-- A counted IPv6 packet that is no ICMPv6 error left as one packet. -/
theorem Handled.translated6 (handled : Handled env t raw acts) (counted : .translated 6 n ∈ acts)
    {v : Packet6} (found : parse6 raw = .ok v)
    (kind : v.proto = protoICMPv6 → v.icmpType = 128 ∨ v.icmpType = 129) :
    ∃ src4 dst4 data ident flags, Forwarded6 env t v src4 dst4 data ∧
      IdentFlags v v.data.length ident flags ∧
      packets acts = [whole6to4 v ident flags src4 dst4 data] := by
  cases handled with
  | empty => cases counted
  | unknown => simp at counted
  | four _ version =>
    have six := (parse6_ok found).version
    rw [version] at six
    exact absurd six (by decide)
  | six _ version handled =>
    cases handled with
    | silent => cases counted
    | unparsed failed => simp at counted
    | sourceRoute failed => cases found.symm.trans failed
    | parsed again trace =>
      cases found.symm.trans again
      cases trace with
      | report => simp at counted
      | complain => simp at counted
      | echo => simp at counted
      | data forwarded fragment => exact ⟨_, _, _, _, _, forwarded, fragment, rfl⟩
      | dataRefused => cases counted
      | error forwarded => exact absurd (kind forwarded.icmp) forwarded.kind
      | errorRefused synth => cases synth <;> simp [synthesised] at counted
      | errorUnmapped synth => cases synth <;> simp [synthesised] at counted

theorem Accepted4.total_lt {v : Packet4} (accepted : Accepted4 v) :
    v.hdr.length + v.data.length < 65536 := by
  have size := accepted.size
  rw [Packet4.size] at size
  rw [size]
  exact be16_lt _ _

/-- Without a fragment header the packet is sent whole, with or without DF. -/
theorem IdentFlags.whole {v : Packet6} {len : Int} {ident flags : Nat}
    (fragment : IdentFlags v len ident flags) (unfragmented : v.frag = none) :
    flags % 65536 % 2 ^ 13 * 8 = 0 ∧ (flags % 65536).testBit 13 = false := by
  rw [IdentFlags, unfragmented] at fragment
  dsimp only at fragment
  split at fragment
  · rw [fragment.2]
    decide
  · rw [fragment.2]
    decide

theorem reassembles_sealed {src dst data : Bytes} (hs : src.length = 4) (hd : dst.length = 4)
    (short : ipv4HdrLen + data.length < 65536) (tos ttl proto : UInt8) {ident flags : Nat}
    (whole : flags % 65536 % 2 ^ 13 * 8 = 0 ∧ (flags % 65536).testBit 13 = false) :
    Reassembles [piece4 (sealedIPv4Header tos (ipv4HdrLen + data.length) ident flags ttl proto src
      dst ++ data)] ⟨src, dst, proto, data⟩ := by
  have piece := piece4_sealed hs hd short tos ttl proto ident flags
  rw [whole.1, whole.2] at piece
  rw [piece]
  exact ⟨⟨_, _, rfl, .last ⟨rfl, rfl, rfl, rfl⟩ rfl rfl, rfl, rfl, rfl⟩, by simp⟩

theorem transparent4to6 (handled : Handled env t raw acts) (usable : mtuMin ≤ t.cfg.mtu)
    (counted : .translated 4 n ∈ acts) {v : Packet4} (found : parse4 raw = .ok v)
    (unfragmented : v.flagsOff &&& (ip4OffMask ||| ip4FlagMF) = 0)
    (checked : Checksummed v.datagram) :
    ∃ d, Reassembles ((packets acts).map piece6) d ∧ CarriedBy v.datagram d ∧
      (verifies4 v.datagram ↔ verifies6 d) := by
  have transport : v.proto ≠ protoICMP := (checked_not_icmp checked).1
  obtain ⟨src6, dst6, data, whole, forwarded, -, -, sent⟩ :=
    handled.translated4 counted found (fun icmp => absurd icmp transport)
  obtain ⟨_, src⟩ := forwarded.src
  obtain ⟨_, dst⟩ := forwarded.dst
  have hs := Env.to6_length src
  have hd := Env.to6_length dst
  have total := forwarded.total_lt
  have header := v.hdr_ge
  have width := length_rewrite4to6 forwarded.payload
  rw [Nat.and_or_distrib_left, Nat.or_eq_zero_iff] at unfragmented
  obtain ⟨start, last⟩ := unfragmented
  obtain ⟨carried, same⟩ := rewrite4to6_transparent hs hd start checked (by omega) forwarded.payload
  have next : v.next = v.proto := if_neg transport
  have plain : v.next ≠ protoFrag := by
    rw [next]
    rcases checked with tcp | ⟨udp, -⟩
    · exact fun frag => absurd (tcp.symm.trans frag) (by decide)
    · exact fun frag => absurd (udp.symm.trans frag) (by decide)
  have some : data ≠ [] := by
    have inside : checksumField v.proto + 2 ≤ v.data.length := carried.inside
    rw [← List.length_pos_iff]
    omega
  have received := pieces4to6_reassemble (roomy_of_usable usable whole) hs hd some
    (by rw [fragHdrLen]; omega) plain start last
  rw [← sent, next] at received
  exact ⟨_, received, carried, same⟩

theorem transparent6to4 (handled : Handled env t raw acts) (high : t.cfg.mtu ≤ 65535)
    (counted : .translated 6 n ∈ acts) {v : Packet6} (found : parse6 raw = .ok v)
    (unfragmented : v.frag = none) (checked : Checksummed v.datagram) :
    ∃ d, Reassembles ((packets acts).map piece4) d ∧ CarriedBy v.datagram d ∧
      (verifies6 v.datagram ↔ verifies4 d) := by
  have transport : v.proto ≠ protoICMPv6 := (checked_not_icmp checked).2
  obtain ⟨src4, dst4, data, ident, flags, forwarded, fragment, sent⟩ :=
    handled.translated6 counted found (fun icmp => absurd icmp transport)
  obtain ⟨_, src⟩ := forwarded.src
  obtain ⟨_, dst⟩ := forwarded.dst
  have hs := Env.to4_length src
  have hd := Env.to4_length dst
  have small := forwarded.small
  rw [Packet6.size, ipv6HdrLen] at small
  have width := length_rewrite6to4 forwarded.payload
  obtain ⟨carried, same⟩ :=
    rewrite6to4_transparent hs hd unfragmented checked (by omega) forwarded.payload
  have next : v.next = v.proto := if_neg transport
  refine ⟨_, ?_, carried, same⟩
  rw [sent, List.map_singleton, whole6to4, next]
  exact reassembles_sealed hs hd (by rw [ipv4HdrLen]; omega) _ _ _ (fragment.whole unfragmented)

end

/-- Transport checksums are transparent: a TCP segment or a UDP datagram with a
checksum verifies on one side if and only if it does on the other, nothing but
the checksum is different, and no UDP checksum is lost. -/
theorem checksum_transparent {σ : Type} {cfg : Config} {t : Translator}
    (built : Translator.new cfg = .ok t) (low : mtuMin ≤ cfg.mtu) (high : cfg.mtu ≤ 65535)
    (env : Env σ) (raw : Bytes) (w : σ) :
    (∀ p n, parseIPv4 { raw } = .ok (.none, p) →
      be16 p.ipBytes 6 &&& (ip4OffMask ||| ip4FlagMF) = 0 → Checksummed p.datagram4 →
      .translated 4 n ∈ (translate env t raw w).acts →
      ∃ d, Reassembles ((packets (translate env t raw w).acts).map piece6) d ∧
        CarriedBy p.datagram4 d ∧ (verifies4 p.datagram4 ↔ verifies6 d)) ∧
    (∀ pointer silent p n, parseIPv6 { raw } = .ok (.none, pointer, silent, p) → p.frag = none →
      Checksummed p.datagram6 → .translated 6 n ∈ (translate env t raw w).acts →
      ∃ d, Reassembles ((packets (translate env t raw w).acts).map piece4) d ∧
        CarriedBy p.datagram6 d ∧ (verifies6 p.datagram6 ↔ verifies4 d)) := by
  have mtu : t.cfg.mtu = cfg.mtu := by rw [Translator.new_cfg built, Config.raised_mtu]
  have handled := (translate_sound env t raw w).1
  refine ⟨?_, ?_⟩
  · intro p n parsed unfragmented checked counted
    obtain ⟨v, found, view⟩ := parse4_of_accepted parsed
    rw [view.datagram] at checked ⊢
    rw [view.ipBytes] at unfragmented
    exact transparent4to6 handled (mtu ▸ low) counted found unfragmented checked
  · intro pointer silent p n parsed unfragmented checked counted
    obtain ⟨v, found, view⟩ := parse6_of_accepted parsed
    rw [view.datagram] at checked ⊢
    have whole : v.frag = none := by
      rw [view.frag] at unfragmented
      exact Option.map_eq_none_iff.mp unfragmented
    exact transparent6to4 handled (mtu ▸ high) counted found whole checked

/-- A UDP datagram from 192.0.2.33 to 198.51.100.1, and the same one back under the
well-known prefix. -/
theorem checksum_transparent_udp :
    let raw4 : Bytes := [69, 0, 0, 32, 0, 7, 0, 0, 64, 17, 142, 112, 192, 0, 2, 33, 198, 51, 100, 1,
      48, 57, 0, 53, 0, 12, 223, 11, 1, 2, 3, 4]
    let raw6 : Bytes := [96, 0, 0, 0, 0, 12, 17, 63, 0, 100, 255, 155, 0, 0, 0, 0, 0, 0, 0, 0,
      192, 0, 2, 33, 0, 100, 255, 155, 0, 0, 0, 0, 0, 0, 0, 0, 198, 51, 100, 1,
      48, 57, 0, 53, 0, 12, 223, 11, 1, 2, 3, 4]
    let acts raw := (translate Env.sample (.sample 1500 .calc) raw ()).acts
    (∃ d, Reassembles ((packets (acts raw4)).map piece6) d ∧ d.proto = 17 ∧ verifies6 d) ∧
      ∃ d, Reassembles ((packets (acts raw6)).map piece4) d ∧ d.proto = 17 ∧ verifies4 d := by
  intro raw4 raw6 acts
  have built : Translator.new (Config.sample 1500 1280 .calc) = .ok (.sample 1500 .calc) := rfl
  refine ⟨?_, ?_⟩
  · obtain ⟨d, received, carried, same⟩ :=
      (checksum_transparent built (by decide) (by decide) Env.sample raw4 ()).1
        { raw := raw4, ip := some 20, hdrLen := 20, lo := 20, hi := 32, proto := 17 } 32
        (by decide +kernel) (by decide) (.inr (by decide)) (by decide +kernel)
    exact ⟨d, received, carried.proto, same.mp (by decide +kernel)⟩
  · obtain ⟨d, received, carried, same⟩ :=
      (checksum_transparent built (by decide) (by decide) Env.sample raw6 ()).2 0 false
        { raw := raw6, ip := some 40, hdrLen := 0, lo := 40, hi := 52, proto := 17 } 52
        (by decide +kernel) rfl (.inr (by decide)) (by decide +kernel)
    exact ⟨d, received, carried.proto, same.mp (by decide +kernel)⟩

end Clatto.Xlate
