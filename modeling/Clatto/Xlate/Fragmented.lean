import Clatto.Xlate.RoundTrip
import Clatto.Xlate.ZeroChecksum

/-! Datagrams that cross in fragments. The translator sees one fragment at a time, a receiver
sees what all of them make up. The translation of packets is measured against a translation
of datagrams that knows nothing of fragments. -/

namespace Clatto.Xlate

open Bytes Ones

instance (d : Datagram) : Decidable (Checksummed d) := inferInstanceAs (Decidable (_ ∨ _))

/-- A datagram under new addresses, with its transport checksum moved along. -/
def readdressed (d : Datagram) (src dst : Bytes) : Datagram where
  src := src
  dst := dst
  proto := d.proto
  data :=
    if Checksummed d then
      adjustAt (decide (d.proto = protoUDP)) d.data (checksumField d.proto)
        (sum16 (d.src ++ d.dst) 0) (sum16 (src ++ dst) 0)
    else d.data

/-- A UDP datagram without a checksum crosses as it is only where that is asked for. -/
def Summed (mode : UDPChecksumMode) (d : Datagram) : Prop :=
  d.proto = protoUDP → be16 d.data 6 ≠ 0 ∨ mode = .forward

/-- The checksum field of a datagram is inside of it. -/
def FieldInside (d : Datagram) : Prop :=
  Checksummed d → checksumField d.proto + 2 ≤ d.data.length

section

variable {d : Datagram} {src dst : Bytes}

theorem readdressed_data (checked : Checksummed d) :
    (readdressed d src dst).data =
      adjustAt (decide (d.proto = protoUDP)) d.data (checksumField d.proto)
        (sum16 (d.src ++ d.dst) 0) (sum16 (src ++ dst) 0) :=
  if_pos checked

theorem carriedBy_readdressed (checked : Checksummed d) (inside : FieldInside d) :
    CarriedBy d (readdressed d src dst) :=
  carriedBy_adjustAt rfl (inside checked) (readdressed_data checked)

theorem verifies_readdressed6 (checked : Checksummed d) (inside : FieldInside d)
    (short : d.data.length < 65536) (four : d.src.length = 4 ∧ d.dst.length = 4)
    (six : src.length = 16 ∧ dst.length = 16) :
    verifies4 d ↔ verifies6 (readdressed d src dst) := by
  unfold verifies4 verifies6
  rw [readdressed_data checked, length_adjustAt]
  exact verify_readdressed checked (inside checked) short (by omega) (by omega) (by omega) (by omega)
    (pseudo4_spec four.1 four.2 (by omega) d.proto) (pseudo6_spec six.1 six.2 (by omega) d.proto) _

theorem verifies_readdressed4 (checked : Checksummed d) (inside : FieldInside d)
    (short : d.data.length < 65536) (six : d.src.length = 16 ∧ d.dst.length = 16)
    (four : src.length = 4 ∧ dst.length = 4) :
    verifies6 d ↔ verifies4 (readdressed d src dst) := by
  unfold verifies4 verifies6
  rw [readdressed_data checked, length_adjustAt]
  exact verify_readdressed checked (inside checked) short (by omega) (by omega) (by omega) (by omega)
    (pseudo6_spec six.1 six.2 (by omega) d.proto) (pseudo4_spec four.1 four.2 (by omega) d.proto) _

end

theorem rewriteTransport_udp {mode : UDPChecksumMode} {data out : Bytes}
    {pseudo remove add : UInt64}
    (done : rewriteTransport mode protoUDP data pseudo remove add = .ok out) : 8 ≤ data.length := by
  by_contra short
  rw [rewriteTransport, if_pos rfl, if_pos (Nat.lt_of_not_le short)] at done
  cases done

theorem adjustAt_append {udp : Bool} {first rest : Bytes} {field : Nat} {remove add : UInt64}
    (inside : field + 2 ≤ first.length) :
    adjustAt udp (first ++ rest) field remove add =
      adjustAt udp first field remove add ++ rest := by
  rw [adjustAt, be16_append_left inside, splice_append_left (by simpa using inside), adjustAt]

/-- Rewriting the front of a datagram moves the checksum of the whole. -/
theorem readdressed_front {mode : UDPChecksumMode} {d : Datagram} {src dst first rest out : Bytes}
    {pseudo : UInt64} (joined : d.data = first ++ rest) (summed : Summed mode d)
    (done : rewriteTransport mode d.proto first pseudo (sum16 (d.src ++ d.dst) 0)
      (sum16 (src ++ dst) 0) = .ok out) :
    (readdressed d src dst).data = out ++ rest ∧ FieldInside d := by
  have same (udp : d.proto = protoUDP) : be16 d.data 6 = be16 first 6 := by
    rw [udp] at done
    have long := rewriteTransport_udp done
    rw [joined, be16_append_left (by omega)]
  by_cases checked : Checksummed d
  · have front : d.proto = protoTCP ∨ d.proto = protoUDP ∧ be16 first 6 ≠ 0 := by
      rcases checked with tcp | ⟨udp, present⟩
      · exact .inl tcp
      · exact .inr ⟨udp, same udp ▸ present⟩
    obtain ⟨inside, rfl⟩ := rewriteTransport_adjusts front done
    constructor
    · rw [readdressed_data checked, joined, adjustAt_append inside]
    · intro _
      rw [joined, List.length_append]
      omega
  · have kept : out = first := by
      have notTCP : d.proto ≠ protoTCP := fun tcp => checked (.inl tcp)
      rw [rewriteTransport, if_neg notTCP] at done
      split at done
      · rename_i udp
        have zero : be16 d.data 6 = 0 := by
          by_contra present
          exact checked (.inr ⟨udp, present⟩)
        rw [if_pos ((same udp).symm.trans zero), (summed udp).resolve_left (not_not.mpr zero)] at done
        split at done <;> cases done
        rfl
      · exact (Except.ok.inj done).symm
    refine ⟨?_, fun present => absurd present checked⟩
    rw [kept, ← joined]
    exact if_neg checked

/-- Pieces that stand for a translated piece: they cover the same part of the datagram, with
the checksum moved if the piece is the first. `relabel` is how the identification of fragments
changes. -/
structure Passes (mode : UDPChecksumMode) (relabel : Nat → Nat) (src dst : Bytes) (p : Piece)
    (qs : List Piece) : Prop where
  run : ∃ ident, Contiguous ⟨src, dst, p.proto, ident, 0, false, []⟩ p.more p.offset qs ∧
    (p.offset ≠ 0 ∨ p.more = true → ident = relabel p.ident)
  later : p.offset ≠ 0 → qs.flatMap Piece.data = p.data
  start : p.offset = 0 → ∃ pseudo, rewriteTransport mode p.proto p.data pseudo
    (sum16 (p.src ++ p.dst) 0) (sum16 (src ++ dst) 0) = .ok (qs.flatMap Piece.data)

theorem Passes.length {mode : UDPChecksumMode} {relabel : Nat → Nat} {src dst : Bytes} {p : Piece}
    {qs : List Piece} (passes : Passes mode relabel src dst p qs) :
    (qs.flatMap Piece.data).length = p.data.length := by
  by_cases start : p.offset = 0
  · obtain ⟨pseudo, done⟩ := passes.start start
    exact length_rewriteTransport done
  · rw [passes.later start]

section

variable {ι : Type} {piece : ι → Piece} {parts : ι → List Piece} {l : List ι} {d : Datagram}
  {mode : UDPChecksumMode} {relabel : Nat → Nat} {src dst : Bytes}

/-- Behind a first piece with data nothing starts at the beginning again. -/
theorem offset_ne_zero {first : Piece} {more : Bool} {p : Piece} {rest : List Piece}
    (run : Contiguous first more p.data.length rest) (some : p.data ≠ []) :
    ∀ q ∈ rest, q.offset ≠ 0 := by
  intro q member
  have beyond := run.offset_ge q member
  have filled := List.length_pos_iff.mpr some
  omega

theorem exists_ident {i : ι} {first : Piece} (run : Contiguous first false 0 ((i :: l).map piece))
    (passes : ∀ j ∈ i :: l, Passes mode relabel src dst (piece j) (parts j))
    (some : (piece i).data ≠ []) :
    ∃ ident, ∀ j ∈ i :: l,
      Contiguous ⟨src, dst, first.proto, ident, 0, false, []⟩ (piece j).more (piece j).offset
        (parts j) := by
  have protos (j : ι) (member : j ∈ i :: l) : (piece j).proto = first.proto :=
    (run.same _ (List.mem_map_of_mem member)).2.2.1
  obtain ⟨-, ends⟩ := run.uncons
  rcases ends with ⟨none, -⟩ | ⟨flag, later⟩
  · obtain ⟨ident, own, -⟩ := (passes i (.head _)).run
    refine ⟨ident, fun j member => ?_⟩
    rw [List.map_eq_nil_iff.mp none] at member
    obtain rfl := List.mem_singleton.mp member
    rwa [protos j (.head _)] at own
  · rw [Nat.zero_add] at later
    refine ⟨relabel first.ident, fun j member => ?_⟩
    obtain ⟨ident, own, label⟩ := (passes j member).run
    have fragment : (piece j).offset ≠ 0 ∨ (piece j).more = true := by
      rcases List.mem_cons.mp member with rfl | member
      · exact .inr flag
      · exact .inl (offset_ne_zero later some _ (List.mem_map_of_mem member))
    have idents := (run.same _ (List.mem_map_of_mem member)).2.2.2
    rw [protos j member, label fragment, idents] at own
    exact own

/-- A datagram whose pieces are all translated is put together as the translated datagram. -/
theorem reassembles_readdressed (split : Reassembles (l.map piece) d)
    (passes : ∀ i ∈ l, Passes mode relabel src dst (piece i) (parts i))
    (some : ∀ i ∈ l, (piece i).data ≠ []) (summed : Summed mode d) :
    Reassembles (l.flatMap parts) (readdressed d src dst) ∧ FieldInside d := by
  obtain ⟨⟨first, rest, cut, run, source, destination, proto⟩, joined⟩ := split
  cases l with
  | nil => cases cut
  | cons i l =>
    obtain ⟨rfl, rfl⟩ := List.cons.inj cut
    obtain ⟨ident, pieces⟩ := exists_ident run passes (some i (.head _))
    have sent := run.expand fun j member => ⟨pieces j member, (passes j member).length⟩
    obtain ⟨start, ends⟩ := run.uncons
    obtain ⟨pseudo, done⟩ := (passes i (.head _)).start start
    -- nothing but the first piece is changed
    have others : (l.flatMap parts).flatMap Piece.data = (l.map piece).flatMap Piece.data := by
      rw [List.flatMap_assoc, List.flatMap_map]
      refine List.flatMap_congr fun j member => (passes j (.tail _ member)).later ?_
      rcases ends with ⟨none, -⟩ | ⟨-, later⟩
      · rw [List.map_eq_nil_iff.mp none] at member
        cases member
      · rw [Nat.zero_add] at later
        exact offset_ne_zero later (some i (.head _)) _ (List.mem_map_of_mem member)
    rw [← source, ← destination, ← proto] at done
    rw [List.map_cons, List.flatMap_cons] at joined
    obtain ⟨content, inside⟩ := readdressed_front joined summed done
    have whole := sent.reassembles
    rw [List.flatMap_cons, List.flatMap_append, others, ← content, ← proto] at whole
    exact ⟨whole, inside⟩

theorem delivers_readdressed (arrived : Delivers (l.map piece) d)
    (passes : ∀ i ∈ l, Passes mode relabel src dst (piece i) (parts i))
    (some : ∀ i ∈ l, (piece i).data ≠ []) (summed : Summed mode d) :
    Delivers (l.flatMap parts) (readdressed d src dst) ∧ FieldInside d := by
  obtain ⟨ordered, perm, split⟩ := arrived
  obtain ⟨l', perm', rfl⟩ := exists_perm_of_map perm
  obtain ⟨received, inside⟩ := reassembles_readdressed split
    (fun i member => passes i (perm'.mem_iff.mpr member))
    (fun i member => some i (perm'.mem_iff.mpr member)) summed
  exact ⟨⟨_, perm'.flatMap_right _, received⟩, inside⟩

end

section

variable {σ : Type} {env : Env σ} {t : Translator} {raw : Bytes} {acts : List Action} {n : Nat}

theorem Translated4.passes {sent : List Bytes} {v : Packet4} {src6 dst6 data : Bytes} {whole : Bool}
    (done : Translated4 env t raw sent v src6 dst6 data whole)
    (transport : (piece4 raw).proto ≠ protoICMP) (some : (piece4 raw).data ≠ []) :
    Passes t.cfg.udpChecksum id src6 dst6 (piece4 raw) (sent.map piece6) := by
  have read := piece4_parsed done.parsed
  have next : v.next = (piece4 raw).proto := by
    rw [read] at transport ⊢
    exact if_neg transport
  constructor
  · cases whole with
    | false =>
      obtain ⟨run, -⟩ := @Translated4.cut _ _ _ _ _ _ _ _ _ done some
        ⟨src6, dst6, (piece4 raw).proto, (piece4 raw).ident, 0, false, []⟩ ⟨rfl, rfl, next.symm, rfl⟩
      exact ⟨_, run, fun _ => rfl⟩
    | true =>
      have unfragmented : ¬ ((piece4 raw).offset ≠ 0 ∨ (piece4 raw).more = true) := fun fragment =>
        absurd (done.split fragment) (by decide)
      refine ⟨0, ?_, fun fragment => absurd fragment unfragmented⟩
      simp only [not_or, not_not, Bool.not_eq_true] at unfragmented
      have width := length_rewrite4to6 done.payload
      have small := done.parsed.data_le
      have single := piece6_whole done.src.length done.dst.length done.parsed.next_ne
        (show data.length < 65536 by omega) v.tos (v.ttl - 1)
      rw [done.sent, pieces4to6, if_pos rfl, List.map_singleton, whole4to6, single, next,
        unfragmented.1, unfragmented.2]
      exact .last ⟨rfl, rfl, rfl, rfl⟩ rfl rfl
  · intro later
    rw [done.data_eq]
    rw [read] at later ⊢
    exact done.later fun start => later (by dsimp only; omega)
  · intro start
    have payload := done.payload
    rw [done.data_eq]
    rw [read] at start transport ⊢
    dsimp only at start transport ⊢
    rw [rewrite4to6, if_neg (by omega), if_neg transport, v.addresses] at payload
    exact ⟨_, payload⟩

/-- What a packet that the IPv6 parser accepted brings, whatever extension headers it has. -/
def Pkt.piece (p : Pkt) : Piece where
  src := sub p.ipBytes 8 24
  dst := sub p.ipBytes 24 40
  proto := p.proto
  ident := be32 p.fragBytes 4
  offset := be16 p.fragBytes 2 / 8 * 8
  more := (be16 p.fragBytes 2).testBit 0
  data := p.data

/-- Read an IPv6 packet that may have other extension headers, if the parser accepts it. -/
def read6 (raw : Bytes) : Piece :=
  match parseIPv6 { raw } with
  | .ok (.none, _, _, p) => p.piece
  | _ => piece6 raw

theorem read6_parsed {v : Packet6} (found : parse6 raw = .ok v) :
    read6 raw = { src := v.src, dst := v.dst, proto := v.proto
                  ident := v.frag.elim 0 fun f => be32 f 4
                  offset := v.offFlags / 8 * 8, more := v.offFlags.testBit 0, data := v.data } := by
  have refines := parseIPv6_refines raw
  rw [found] at refines
  obtain ⟨p, parsed, view⟩ := refines
  have header : be32 p.fragBytes 4 = (v.frag.elim 0 fun f => be32 f 4) ∧
      be16 p.fragBytes 2 = v.offFlags := by
    cases present : v.frag with
    | none =>
      rw [Pkt.fragBytes, view.frag, Packet6.offFlags, present]
      exact ⟨(by decide : be32 [] 4 = 0), (by decide : be16 [] 2 = 0)⟩
    | some f =>
      rw [view.fragBytes present, Packet6.offFlags, present]
      exact ⟨rfl, rfl⟩
  rw [read6, parsed]
  dsimp only
  rw [Pkt.piece, header.1, header.2, view.ipBytes, view.proto, view.data]
  rfl

theorem Handled.parsed6 (handled : Handled env t raw acts) (counted : .translated 6 n ∈ acts) :
    ∃ v, parse6 raw = .ok v := by
  cases handled with
  | empty => cases counted
  | unknown => simp at counted
  | four _ _ handled =>
    cases handled with
    | unparsed => simp at counted
    | parsed found trace =>
      cases trace with
      | report => simp at counted
      | complain => simp at counted
      | echo => simp at counted
      | data forwarded whole fits sent done =>
        cases done <;> simp at counted
      | error forwarded synth => cases synth <;> simp [synthesised] at counted
      | errorRefused synth => cases synth <;> simp [synthesised] at counted
      | errorUnmapped synth => cases synth <;> simp [synthesised] at counted
  | six _ _ handled =>
    cases handled with
    | silent => cases counted
    | unparsed => simp at counted
    | sourceRoute failed answer => rcases answer with rfl | ⟨-, rfl⟩ <;> simp at counted
    | parsed found => exact ⟨_, found⟩

/-- A packet that was translated, and the packet that was sent for it. -/
structure Translated6 (env : Env σ) (t : Translator) (raw : Bytes) (sent : List Bytes)
    (v : Packet6) (src4 dst4 data : Bytes) (ident flags : Nat) : Prop
    extends Forwarded6 env t v src4 dst4 data where
  parsed : parse6 raw = .ok v
  fragment : IdentFlags v v.data.length ident flags
  sent : sent = [whole6to4 v ident flags src4 dst4 data]

theorem Handled.transport6 (handled : Handled env t raw acts) (counted : .translated 6 n ∈ acts)
    (transport : (read6 raw).proto ≠ protoICMPv6) :
    ∃ v src4 dst4 data ident flags,
      Translated6 env t raw (packets acts) v src4 dst4 data ident flags := by
  obtain ⟨v, found⟩ := handled.parsed6 counted
  rw [read6_parsed found] at transport
  obtain ⟨src4, dst4, data, ident, flags, forwarded, fragment, sent⟩ :=
    handled.translated6 counted found fun icmp => absurd icmp transport
  exact ⟨v, src4, dst4, data, ident, flags, forwarded, found, fragment, sent⟩

theorem Packet6.offFlags_lt (v : Packet6) : v.offFlags < 65536 := by
  rw [offFlags]
  cases v.frag with
  | none => decide
  | some f => exact be16_lt f 2

theorem IdentFlags.position {v : Packet6} {len : Int} {ident flags : Nat}
    (fragment : IdentFlags v len ident flags) :
    flags % 65536 % 2 ^ 13 * 8 = v.offFlags / 8 * 8 ∧
      (flags % 65536).testBit 13 = v.offFlags.testBit 0 := by
  cases present : v.frag with
  | none =>
    obtain ⟨start, last⟩ := fragment.whole present
    rw [start, last, Packet6.offFlags, present]
    exact ⟨rfl, rfl⟩
  | some f =>
    rw [IdentFlags, present] at fragment
    obtain ⟨small, offset, more⟩ := carried_flags (be16_lt f 2) fragment.2
    rw [show ip4OffMask = 2 ^ 13 - 1 from rfl, Nat.and_two_pow_sub_one_eq_mod,
      fragMask_eq (be16_lt f 2)] at offset
    rw [show ip4FlagMF = 2 ^ 13 from rfl, show ip6FragMF = 2 ^ 0 from rfl, and_two_pow,
      and_two_pow] at more
    rw [Packet6.offFlags, present, Option.elim_some, Nat.mod_eq_of_lt small]
    refine ⟨offset, ?_⟩
    cases low : (be16 f 2).testBit 0 <;> cases high : flags.testBit 13 <;> simp [low, high] at more ⊢

theorem Translated6.passes {sent : List Bytes} {v : Packet6} {src4 dst4 data : Bytes}
    {ident flags : Nat} (high : t.cfg.mtu ≤ 65535)
    (done : Translated6 env t raw sent v src4 dst4 data ident flags)
    (transport : (read6 raw).proto ≠ protoICMPv6) :
    Passes t.cfg.udpChecksum (· % 65536) src4 dst4 (read6 raw) (sent.map piece4) := by
  have read := read6_parsed done.parsed
  have small := done.small
  rw [Packet6.size, ipv6HdrLen] at small
  have width := length_rewrite6to4 done.payload
  have next : v.next = (read6 raw).proto := by
    rw [read] at transport ⊢
    exact if_neg transport
  have single : sent.map piece4 = [⟨src4, dst4, (read6 raw).proto, ident % 65536,
      (read6 raw).offset, (read6 raw).more, data⟩] := by
    rw [done.sent, List.map_singleton, whole6to4,
      piece4_sealed done.src.length done.dst.length (by rw [ipv4HdrLen]; omega), next,
      done.fragment.position.1, done.fragment.position.2, read]
  rw [single]
  constructor
  · refine ⟨ident % 65536, .last ⟨rfl, rfl, rfl, rfl⟩ rfl rfl, fun fragment => ?_⟩
    cases present : v.frag with
    | none =>
      rw [read, Packet6.offFlags, present] at fragment
      simp at fragment
    | some f =>
      have label := done.fragment
      rw [IdentFlags, present] at label
      rw [read, present, label.1]
      exact Nat.mod_mod _ _
  · intro later
    have payload := done.payload
    rw [read] at later ⊢
    dsimp only at later ⊢
    rw [rewrite6to4, if_pos (by rwa [fragMask_eq v.offFlags_lt])] at payload
    rw [List.flatMap_singleton]
    exact (Except.ok.inj payload).symm
  · intro start
    have payload := done.payload
    rw [read] at start transport ⊢
    dsimp only at start transport ⊢
    rw [rewrite6to4, if_neg (by rwa [fragMask_eq v.offFlags_lt, not_not]), if_neg transport,
      v.addresses] at payload
    rw [List.flatMap_singleton]
    exact ⟨_, payload⟩

end

section

variable {σ : Type} {env : Env σ} {t : Translator} {calls : List (Bytes × σ)} {d : Datagram}

/-- A datagram of one family: its addresses are as long as they are there. -/
structure Sized (d : Datagram) (width : Nat) : Prop where
  src : d.src.length = width
  dst : d.dst.length = width
  data : d.data.length < 65536

theorem parsed_calls4
    (translated : ∀ c ∈ calls, ∃ n, .translated 4 n ∈ (translate env t c.1 c.2).acts) :
    ∀ c ∈ calls, ∃ v, Parsed4 c.1 v := by
  intro c member
  obtain ⟨n, counted⟩ := translated c member
  obtain ⟨v, found⟩ := (translate_sound env t c.1 c.2).1.parsed4 counted
  exact ⟨v, parse4_ok found⟩

/-- The addresses and the protocol of a datagram have passed the parser. -/
theorem exists_parsed4 (arrived : Delivers (calls.map fun c => piece4 c.1) d)
    (translated : ∀ c ∈ calls, ∃ n, .translated 4 n ∈ (translate env t c.1 c.2).acts) :
    ∃ raw v, Parsed4 raw v ∧ v.src = d.src ∧ v.dst = d.dst ∧ v.proto = d.proto := by
  obtain ⟨p, among⟩ := arrived.nonempty
  have same := arrived.same p among
  obtain ⟨c, member, rfl⟩ := List.mem_map.mp among
  obtain ⟨v, read⟩ := parsed_calls4 translated c member
  rw [piece4_parsed read] at same
  exact ⟨c.1, v, read, same⟩

theorem sized4 (arrived : Delivers (calls.map fun c => piece4 c.1) d)
    (translated : ∀ c ∈ calls, ∃ n, .translated 4 n ∈ (translate env t c.1 c.2).acts) :
    Sized d 4 := by
  obtain ⟨raw, v, -, src, dst, -⟩ := exists_parsed4 arrived translated
  refine ⟨src ▸ v.length_src, dst ▸ v.length_dst, Nat.lt_succ_of_le (arrived.length_le ?_)⟩
  intro p among
  obtain ⟨c, member, rfl⟩ := List.mem_map.mp among
  obtain ⟨v, read⟩ := parsed_calls4 translated c member
  rw [piece4_parsed read]
  exact read.fragment.1

/-- A datagram that arrives from IPv4 in whatever pieces leaves as the translated datagram. -/
theorem delivers4to6 (arrived : Delivers (calls.map fun c => piece4 c.1) d)
    (transport : d.proto ≠ protoICMP) (summed : Summed t.cfg.udpChecksum d) {src6 dst6 : Bytes}
    (src : ∀ w, (env.to6 d.src w).1 = .ok src6) (dst : ∀ w, (env.to6 d.dst w).1 = .ok dst6)
    (translated : ∀ c ∈ calls, ∃ n, .translated 4 n ∈ (translate env t c.1 c.2).acts)
    (some : ∀ c ∈ calls, (piece4 c.1).data ≠ []) :
    Delivers ((emissions env t calls).map piece6) (readdressed d src6 dst6) ∧ FieldInside d := by
  rw [emissions, List.map_flatMap]
  refine @delivers_readdressed _ (fun c : Bytes × σ => piece4 c.1) _ _ _ _ id _ _ arrived ?_ some
    summed
  intro c member
  obtain ⟨sameSrc, sameDst, sameProto⟩ := arrived.same _ (List.mem_map_of_mem member)
  obtain ⟨n, counted⟩ := translated c member
  obtain ⟨v, src6', dst6', data, whole, done⟩ :=
    (translate_sound env t c.1 c.2).1.transport4 counted (sameProto ▸ transport)
  have passes := done.passes (sameProto ▸ transport) (some c member)
  obtain ⟨w, toSrc⟩ := done.src
  obtain ⟨w', toDst⟩ := done.dst
  rw [piece4_parsed done.parsed] at sameSrc sameDst
  rw [show v.src = d.src from sameSrc] at toSrc
  rw [show v.dst = d.dst from sameDst] at toDst
  rwa [← Except.ok.inj ((src w).symm.trans toSrc), ← Except.ok.inj ((dst w').symm.trans toDst)]
    at passes

theorem read6_fits {raw : Bytes} {v : Packet6} (found : parse6 raw = .ok v) :
    (read6 raw).offset + (read6 raw).data.length ≤ 65535 := by
  have parsed := parse6_ok found
  rw [read6_parsed found, ← fragMask_eq v.offFlags_lt]
  cases present : v.frag with
  | none =>
    have size := parsed.size_eq
    have field := be16_lt raw 4
    rw [Packet6.size, dataEnd6] at size
    rw [Packet6.offFlags, present]
    dsimp only [Option.elim_none]
    rw [Nat.zero_and]
    split at size <;> simp only [ipv6HdrLen] at * <;> omega
  | some f =>
    rw [Packet6.offFlags, present]
    exact (parsed.fragment present).2

theorem sized6 (arrived : Delivers (calls.map fun c => read6 c.1) d)
    (translated : ∀ c ∈ calls, ∃ n, .translated 6 n ∈ (translate env t c.1 c.2).acts) :
    Sized d 16 := by
  have parsed (c : Bytes × σ) (member : c ∈ calls) : ∃ v, parse6 c.1 = .ok v := by
    obtain ⟨n, counted⟩ := translated c member
    exact (translate_sound env t c.1 c.2).1.parsed6 counted
  obtain ⟨p, among⟩ := arrived.nonempty
  obtain ⟨src, dst, -⟩ := arrived.same p among
  obtain ⟨c, member, rfl⟩ := List.mem_map.mp among
  obtain ⟨v, read⟩ := parsed c member
  rw [read6_parsed read] at src dst
  refine ⟨src ▸ v.length_src, dst ▸ v.length_dst, Nat.lt_succ_of_le (arrived.length_le ?_)⟩
  intro p among
  obtain ⟨c, member, rfl⟩ := List.mem_map.mp among
  obtain ⟨v, read⟩ := parsed c member
  exact read6_fits read

/-- A datagram that arrives from IPv6 in whatever pieces leaves as the translated datagram. -/
theorem delivers6to4 (high : t.cfg.mtu ≤ 65535)
    (arrived : Delivers (calls.map fun c => read6 c.1) d)
    (transport : d.proto ≠ protoICMPv6) (summed : Summed t.cfg.udpChecksum d) {src4 dst4 : Bytes}
    (src : ∀ w, (env.to4 true d.src w).1 = .ok src4)
    (dst : ∀ w, (env.to4 false d.dst w).1 = .ok dst4)
    (translated : ∀ c ∈ calls, ∃ n, .translated 6 n ∈ (translate env t c.1 c.2).acts)
    (some : ∀ c ∈ calls, (read6 c.1).data ≠ []) :
    Delivers ((emissions env t calls).map piece4) (readdressed d src4 dst4) ∧ FieldInside d := by
  rw [emissions, List.map_flatMap]
  refine @delivers_readdressed _ (fun c : Bytes × σ => read6 c.1) _ _ _ _ (· % 65536) _ _ arrived ?_
    some summed
  intro c member
  obtain ⟨sameSrc, sameDst, sameProto⟩ := arrived.same _ (List.mem_map_of_mem member)
  obtain ⟨n, counted⟩ := translated c member
  obtain ⟨v, src4', dst4', data, ident, flags, done⟩ :=
    (translate_sound env t c.1 c.2).1.transport6 counted (sameProto ▸ transport)
  have passes := done.passes high (sameProto ▸ transport)
  obtain ⟨w, toSrc⟩ := done.src
  obtain ⟨w', toDst⟩ := done.dst
  rw [read6_parsed done.parsed] at sameSrc sameDst
  rw [show v.src = d.src from sameSrc] at toSrc
  rw [show v.dst = d.dst from sameDst] at toDst
  rwa [← Except.ok.inj ((src w).symm.trans toSrc), ← Except.ok.inj ((dst w').symm.trans toDst)]
    at passes

end

/-- Fragmentation does not show: however a datagram was cut up and in whatever order its
fragments are met, what is sent for them makes up the datagram under its new addresses. Its
checksum is right if and only if it was, and nothing else is different. -/
theorem fragments_transparent {σ : Type} {env : Env σ} {t : Translator} (high : t.cfg.mtu ≤ 65535)
    {calls : List (Bytes × σ)} {d : Datagram} (summed : Summed t.cfg.udpChecksum d) :
    (∀ src6 dst6, Delivers (calls.map fun c => piece4 c.1) d → d.proto ≠ protoICMP →
      (∀ w, (env.to6 d.src w).1 = .ok src6) → (∀ w, (env.to6 d.dst w).1 = .ok dst6) →
      (∀ c ∈ calls, (piece4 c.1).data ≠ [] ∧
        ∃ n, .translated 4 n ∈ (translate env t c.1 c.2).acts) →
      Delivers ((emissions env t calls).map piece6) (readdressed d src6 dst6) ∧
        (Checksummed d → CarriedBy d (readdressed d src6 dst6) ∧
          (verifies4 d ↔ verifies6 (readdressed d src6 dst6)))) ∧
    (∀ src4 dst4, Delivers (calls.map fun c => read6 c.1) d → d.proto ≠ protoICMPv6 →
      (∀ w, (env.to4 true d.src w).1 = .ok src4) → (∀ w, (env.to4 false d.dst w).1 = .ok dst4) →
      (∀ c ∈ calls, (read6 c.1).data ≠ [] ∧
        ∃ n, .translated 6 n ∈ (translate env t c.1 c.2).acts) →
      Delivers ((emissions env t calls).map piece4) (readdressed d src4 dst4) ∧
        (Checksummed d → CarriedBy d (readdressed d src4 dst4) ∧
          (verifies6 d ↔ verifies4 (readdressed d src4 dst4)))) := by
  constructor
  · intro src6 dst6 arrived transport src dst each
    obtain ⟨received, inside⟩ := delivers4to6 arrived transport summed src dst
      (fun c member => (each c member).2) (fun c member => (each c member).1)
    have four := sized4 arrived fun c member => (each c member).2
    obtain ⟨p, among⟩ := arrived.nonempty
    obtain ⟨c, -, -⟩ := List.mem_map.mp among
    refine ⟨received, fun checked => ⟨carriedBy_readdressed checked inside, ?_⟩⟩
    exact verifies_readdressed6 checked inside four.data ⟨four.src, four.dst⟩
      ⟨Env.to6_length (src c.2), Env.to6_length (dst c.2)⟩
  · intro src4 dst4 arrived transport src dst each
    obtain ⟨received, inside⟩ := delivers6to4 high arrived transport summed src dst
      (fun c member => (each c member).2) (fun c member => (each c member).1)
    have six := sized6 arrived fun c member => (each c member).2
    obtain ⟨p, among⟩ := arrived.nonempty
    obtain ⟨c, -, -⟩ := List.mem_map.mp among
    refine ⟨received, fun checked => ⟨carriedBy_readdressed checked inside, ?_⟩⟩
    exact verifies_readdressed4 checked inside six.data ⟨six.src, six.dst⟩
      ⟨Env.to4_length (src c.2), Env.to4_length (dst c.2)⟩

/-- The two fragments of a datagram from 192.0.2.33 to 198.51.100.1. -/
def front : Bytes :=
  [69, 0, 0, 36, 0, 7, 32, 0, 64, 17, 110, 108, 192, 0, 2, 33, 198, 51, 100, 1, 48, 57, 0, 53, 0, 24,
    194, 209, 1, 2, 3, 4, 5, 6, 7, 8]

def back : Bytes :=
  [69, 0, 0, 28, 0, 7, 0, 2, 64, 17, 142, 114, 192, 0, 2, 33, 198, 51, 100, 1, 1, 2, 3, 4, 5, 6, 7, 8]

def frontAndBack : Datagram where
  src := [192, 0, 2, 33]
  dst := [198, 51, 100, 1]
  proto := 17
  data := [48, 57, 0, 53, 0, 24, 194, 209, 1, 2, 3, 4, 5, 6, 7, 8, 1, 2, 3, 4, 5, 6, 7, 8]

theorem delivers_frontAndBack :
    Delivers ([(back, ()), (front, ())].map fun c => piece4 c.1) frontAndBack := by
  have run : Contiguous (piece4 front) false 0 [piece4 front, piece4 back] :=
    .cons ⟨rfl, rfl, rfl, rfl⟩ (by decide) (by decide)
      (.last ⟨by decide, by decide, by decide, by decide⟩ (by decide) (by decide))
  have whole : (⟨(piece4 front).src, (piece4 front).dst, (piece4 front).proto,
      [piece4 front, piece4 back].flatMap Piece.data⟩ : Datagram) = frontAndBack := by decide
  exact ⟨[piece4 front, piece4 back], .swap (piece4 front) (piece4 back) [], whole ▸ run.reassembles⟩

theorem translated_frontAndBack : ∀ c ∈ [(back, ()), (front, ())], (piece4 c.1).data ≠ [] ∧
    ∃ n, .translated 4 n ∈ (translate Env.sample (.sample 1500 .calc) c.1 c.2).acts := by
  rintro _ (_ | ⟨_, _ | ⟨_, ⟨⟩⟩⟩)
  · exact ⟨by decide, 28, by decide +kernel⟩
  · exact ⟨by decide, 36, by decide +kernel⟩

theorem fragments_transparent_frontAndBack : ∃ d6,
    Delivers ((emissions Env.sample (.sample 1500 .calc) [(back, ()), (front, ())]).map piece6) d6 ∧
      verifies6 d6 := by
  obtain ⟨received, sums⟩ := (@fragments_transparent _ Env.sample (.sample 1500 .calc) (by decide)
    [(back, ()), (front, ())] frontAndBack fun _ => .inl (by decide)).1 _ _ delivers_frontAndBack
    (by decide) (fun _ => rfl) (fun _ => rfl) translated_frontAndBack
  exact ⟨_, received, (sums (.inr ⟨rfl, by decide⟩)).2.mp (by decide +kernel)⟩

end Clatto.Xlate
