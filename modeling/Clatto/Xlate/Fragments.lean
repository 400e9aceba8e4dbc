import Clatto.Xlate.RoundTrip

/-! Packets that have to be fragmented on their way to IPv6, whole ones and fragments
alike: nothing is lost, nothing is sent twice. -/

namespace Clatto.Xlate

open Bytes

/-- The IPv6 fragments of a payload that starts at an offset of its datagram; `more` tells
whether the datagram goes on behind it. -/
structure FragmentsOf (first : Piece) (more : Bool) (off : Nat) (data : Bytes) (limit : Int)
    (qs : List Bytes) : Prop where
  header : ∀ q ∈ qs, byteAt q 6 = protoFrag
  contiguous : Contiguous first more off (qs.map piece6)
  data : (qs.map piece6).flatMap Piece.data = data
  aligned : ∀ q ∈ qs, (piece6 q).more = true →
    0 < (piece6 q).data.length ∧ (piece6 q).data.length % 8 = 0
  word : ∀ q ∈ qs, be16 q 42 = (piece6 q).offset + (piece6 q).more.toNat
  size : ∀ q ∈ qs, q.length ≤ limit

/-- Every fragment starts at a multiple of eight bytes, and all but the last are full. -/
theorem mem_fragments4to6 {p : Packet4} {src6 dst6 : Bytes} {room : Nat} (aligned : room % 8 = 0)
    {fuel off : Nat} {data q : Bytes} (member : q ∈ fragments4to6 p src6 dst6 room fuel off data) :
    ∃ k, k % 8 = 0 ∧ k < data.length ∧
      q = fragment4to6 p src6 dst6 (off + k) (min (data.length - k) room) (data.drop k) := by
  induction fuel generalizing off data with
  | zero => cases member
  | succ fuel ih =>
    rw [fragments4to6] at member
    split at member
    · rename_i some
      rcases List.mem_cons.mp member with rfl | later
      · exact ⟨0, rfl, some, rfl⟩
      · obtain ⟨k, multiple, inside, rfl⟩ := ih later
        rw [List.length_drop] at inside
        have full : min data.length room = room := by omega
        refine ⟨room + k, by omega, by omega, ?_⟩
        rw [full, List.drop_drop, List.length_drop, Nat.add_assoc, Nat.sub_sub]
    · cases member

theorem mem_pieces4to6 {t : Translator} {p : Packet4} {src6 dst6 data q : Bytes} {whole : Bool}
    (member : q ∈ pieces4to6 t p src6 dst6 data whole) :
    whole = true ∧ q = whole4to6 p src6 dst6 data ∨
      whole = false ∧ ∃ k, k % 8 = 0 ∧ k < data.length ∧
        q = fragment4to6 p src6 dst6 ((p.flagsOff &&& ip4OffMask) * 8 + k)
          (min (data.length - k) t.fragRoom.toNat) (data.drop k) := by
  cases whole with
  | true => exact .inl ⟨rfl, List.mem_singleton.mp member⟩
  | false => exact .inr ⟨rfl, mem_fragments4to6 (fragRoom_aligned t) member⟩

section

variable {p : Packet4} {src6 dst6 data : Bytes} (hs : src6.length = 16) (hd : dst6.length = 16)

include hs hd

/-- The flag and the offset fill the word of the fragment header between them. -/
theorem word_fragment4to6 {off n : Nat} (rest : Bytes) :
    be16 (fragment4to6 p src6 dst6 off n rest) 42 =
      fragFlags (decide (p.flagsOff &&& ip4FlagMF ≠ 0)) off rest.length n % 65536 := by
  have front : (ipv6Header p.tos (fragHdrLen + n) protoFrag (p.ttl - 1) src6 dst6).length = 40 := by
    simp [hs, hd]
  rw [fragment4to6, be16_append_right (by omega), front]
  exact be16_enc16 _ (enc32 p.ident ++ rest.take n)

theorem length_fragment4to6 {off n : Nat} {rest : Bytes} (width : n ≤ rest.length) :
    (fragment4to6 p src6 dst6 off n rest).length = 48 + n := by
  simp [fragment4to6, hs, hd, width]
  omega

end

section

variable {raw : Bytes} {v : Packet4}

theorem Parsed4.data_le (parsed : Parsed4 raw v) : 20 + v.data.length ≤ 65535 := by
  have bounds := headerLen4_bounds parsed.good
  have total := be16_lt raw 2
  have stop : dataEnd4 raw ≤ be16 raw 2 := by
    unfold dataEnd4
    split <;> omega
  rw [parsed.data, length_sub_of_le (by omega)]
  omega

/-- A fragment ends inside the largest datagram, at a multiple of eight bytes unless it is
the last. -/
theorem Parsed4.fragment (parsed : Parsed4 raw v) :
    (v.flagsOff &&& ip4OffMask) * 8 + v.data.length ≤ 65535 ∧
      (v.flagsOff &&& ip4FlagMF ≠ 0 → v.data.length % 8 = 0) := by
  have small := parsed.data_le
  by_cases icmp : v.proto = protoICMP
  · obtain ⟨start, last⟩ := parsed.icmp_whole icmp
    rw [start, last]
    exact ⟨by omega, fun more => absurd rfl more⟩
  · have accepted := parsed.accepted
    rw [proto4Reason, if_neg icmp] at accepted
    split at accepted
    · cases accepted
    split at accepted
    · cases accepted
    rename_i aligned
    split at accepted
    · cases accepted
    rename_i short
    refine ⟨by omega, fun more => ?_⟩
    have low : v.data.length &&& 7 = 0 := by
      by_contra odd
      exact aligned ⟨more, odd⟩
    rwa [show (7 : Nat) = 2 ^ 3 - 1 from rfl, Nat.and_two_pow_sub_one_eq_mod] at low

/-- No accepted packet carries a protocol that stands for a fragment header. -/
theorem Parsed4.next_ne (parsed : Parsed4 raw v) : v.next ≠ protoFrag := by
  have accepted := parsed.accepted
  intro frag
  rw [Packet4.next] at frag
  split at frag
  · cases frag
  · rename_i icmp
    rw [proto4Reason, if_neg icmp, if_pos (.inr (.inr (.inl frag)))] at accepted
    cases accepted

theorem pieces4to6_fragments {t : Translator} (usable : mtuMin ≤ t.cfg.mtu)
    (parsed : Parsed4 raw v) {src6 dst6 data : Bytes} (hs : src6.length = 16)
    (hd : dst6.length = 16) (same : data.length = v.data.length) (some : data ≠ []) {first : Piece}
    (base : first.src = src6 ∧ first.dst = dst6 ∧ first.proto = v.next ∧ first.ident = v.ident) :
    FragmentsOf first (decide (v.flagsOff &&& ip4FlagMF ≠ 0)) ((v.flagsOff &&& ip4OffMask) * 8)
      data (min t.cfg.mtu t.cfg.offlinkMTU) (pieces4to6 t v src6 dst6 data false) := by
  obtain ⟨fits, multiple⟩ := parsed.fragment
  have small := parsed.data_le
  obtain ⟨positive, room⟩ := fragRoom_eq usable
  have aligned := fragRoom_aligned t
  have limit : 48 + (t.fragRoom.toNat : Int) ≤ min t.cfg.mtu t.cfg.offlinkMTU := by
    have := fragRoom_mod t
    rw [← positive]
    simp only [Translator.fragRoom, Translator.room, fragHdrLen, ipv6HdrLen]
    omega
  obtain ⟨run, joined⟩ := @fragments4to6_contiguous v src6 dst6 hs hd _ room aligned first base
    (data.length + 1) ((v.flagsOff &&& ip4OffMask) * 8) data (by omega) some (by omega) (by omega)
    (by rw [fragHdrLen]; omega)
  -- every fragment, and what is read from it
  have each : ∀ q ∈ pieces4to6 t v src6 dst6 data false, ∃ k n, k % 8 = 0 ∧ k < data.length ∧
      n = min (data.length - k) t.fragRoom.toNat ∧
      q = fragment4to6 v src6 dst6 ((v.flagsOff &&& ip4OffMask) * 8 + k) n (data.drop k) ∧
      (piece6 q).offset = (v.flagsOff &&& ip4OffMask) * 8 + k ∧
      (piece6 q).more = (decide (data.length - k > n) || decide (v.flagsOff &&& ip4FlagMF ≠ 0)) ∧
      (piece6 q).data.length = n := by
    intro q member
    obtain ⟨k, start, inside, rfl⟩ := mem_fragments4to6 aligned member
    have piece := @piece6_fragment4to6 v src6 dst6 (data.drop k) hs hd
      ((v.flagsOff &&& ip4OffMask) * 8 + k) (min (data.length - k) t.fragRoom.toNat) (by omega)
      (by omega) (by rw [List.length_drop]; omega) (by rw [fragHdrLen]; omega)
    refine ⟨k, _, start, inside, rfl, rfl, ?_⟩
    rw [piece, List.length_drop]
    exact ⟨rfl, rfl, List.length_take_of_le (by rw [List.length_drop]; omega)⟩
  refine ⟨fun q member => ?_, run, joined, fun q member more => ?_, fun q member => ?_,
    fun q member => ?_⟩
  · obtain ⟨k, n, -, -, -, rfl, -⟩ := each q member
    rfl
  · obtain ⟨k, n, start, inside, cut, -, -, flag, width⟩ := each q member
    rw [flag, Bool.or_eq_true, decide_eq_true_eq, decide_eq_true_eq] at more
    rw [width]
    rcases more with later | more
    · omega
    · have := multiple more
      omega
  · obtain ⟨k, n, start, inside, cut, rfl, offset, flag, -⟩ := each q member
    rw [word_fragment4to6 hs hd, fragFlags_word (by omega) (by omega), offset, flag,
      List.length_drop]
    refine Nat.mod_eq_of_lt ?_
    have := Bool.toNat_lt (decide (data.length - k > n) || decide (v.flagsOff &&& ip4FlagMF ≠ 0))
    omega
  · obtain ⟨k, n, -, inside, cut, rfl, -⟩ := each q member
    rw [length_fragment4to6 hs hd (by rw [List.length_drop]; omega)]
    omega

end

/-- What sends a packet down the fragment path of `xlate4to6Data`: the mapper knows its addresses
(the destination is asked for first), it needs fragment headers, and its payload can be rewritten
for the new header. -/
structure FragmentPath {σ : Type} (env : Env σ) (t : Translator) (p : Pkt) (w : σ)
    (src6 dst6 h : Bytes) (p' : Pkt) : Prop where
  dst : (env.to6 (sub p.ipBytes 16 20) w).1 = .ok dst6
  src : (env.to6 (sub p.ipBytes 12 16) (env.to6 (sub p.ipBytes 16 20) w).2).1 = .ok src6
  fragmented : noFragHdr t (be16 p.ipBytes 6) t.room p.hdrLen p.data.length = some false
  header : (do
    let h ← header4to6 p (List.replicate ipv6HdrLen 0) p.data.length src6 dst6
    put8 h 7 ((← index h 7) - 1)) = .ok h
  payload : payload4to6 t p h = .ok (.none, p')

section

variable {σ : Type} {env : Env σ} {t : Translator} {p p' : Pkt} {v : Packet4} {w : σ}
  {src6 dst6 h : Bytes}

theorem View4.header4to6 (view : View4 p v) (hs : src6.length = 16) (hd : dst6.length = 16) :
    (do
      let h ← header4to6 p (List.replicate ipv6HdrLen 0) p.data.length src6 dst6
      put8 h 7 ((← index h 7) - 1)) =
      .ok (ipv6Header v.tos v.data.length v.next (v.ttl - 1) src6 dst6) := by
  have long : 20 ≤ p.ipBytes.length := view.ipBytes ▸ v.hdr_ge
  have wide : ∀ tc len next hop, (ipv6Header tc len next hop src6 dst6).length = 40 := by
    simp [hs, hd]
  rw [header4to6_eq long (by simp [ipv6HdrLen]) hs hd, Checked.ok_bind, index_eq (by simp [wide]),
    Checked.ok_bind, put8_eq (by simp [wide]), splice_ipv6Hop, byteAt_ipv6Header_hop, view.data,
    uint16_natCast, ipv6Header_mod, view.ipBytes, view.proto]
  rfl

/-- The fragment path, seen on the packet. -/
structure FragmentPath.Seen (env : Env σ) (t : Translator) (v : Packet4) (w : σ)
    (src6 dst6 h data : Bytes) : Prop where
  dst : (env.to6 v.dst w).1 = .ok dst6
  src : (env.to6 v.src (env.to6 v.dst w).2).1 = .ok src6
  fragmented : noFragHdr t v.flagsOff t.room v.hdr.length v.data.length = some false
  next : byteAt h 6 = v.next
  payload : rewrite4to6 t.cfg.udpChecksum v src6 dst6 = .ok data

theorem FragmentPath.seen (path : FragmentPath env t p w src6 dst6 h p') (view : View4 p v) :
    FragmentPath.Seen env t v w src6 dst6 h p'.data := by
  have dst : (env.to6 v.dst w).1 = .ok dst6 := by
    rw [Packet4.dst, ← view.ipBytes]
    exact path.dst
  have src : (env.to6 v.src (env.to6 v.dst w).2).1 = .ok src6 := by
    rw [Packet4.src, Packet4.dst, ← view.ipBytes]
    exact path.src
  have hs := Env.to6_length src
  have hd := Env.to6_length dst
  have header := path.header
  rw [view.header4to6 hs hd] at header
  cases header
  have payload := path.payload
  rw [payload4to6_eq view hs hd] at payload
  have fragmented := path.fragmented
  rw [view.ipBytes, view.hdrLen, view.data] at fragmented
  refine ⟨dst, src, fragmented, byteAt_ipv6Header_next .., ?_⟩
  cases rewritten : rewrite4to6 t.cfg.udpChecksum v src6 dst6 with
  | error reason =>
    rw [rewritten] at payload
    cases payload
    exact absurd rfl (rewrite4to6_error rewritten)
  | ok data =>
    rw [rewritten] at payload
    cases payload
    rw [Pkt.data_withData view.ordered view.hi (by rw [length_rewrite4to6 rewritten, view.data])]

end

/-- A packet that needs fragment headers leaves as the fragments of its rewritten payload, for any
position in a datagram that it came with. -/
theorem fragments_complete {σ : Type} {cfg : Config} {t : Translator}
    (built : Translator.new cfg = .ok t) (low : mtuMin ≤ cfg.mtu) {env : Env σ}
    (willing : env.Willing) {raw : Bytes} {p : Pkt} (parsed : parseIPv4 { raw } = .ok (.none, p))
    (some : p.data ≠ []) {w : σ} {src6 dst6 h : Bytes} {p' : Pkt}
    (path : FragmentPath env t p w src6 dst6 h p') :
    packets (xlate4to6Data env t p w).acts ≠ [] ∧
      FragmentsOf { src := src6, dst := dst6, proto := byteAt h 6, ident := be16 p.ipBytes 4
                    offset := 0, more := false, data := [] }
        (decide (be16 p.ipBytes 6 &&& ip4FlagMF ≠ 0)) ((be16 p.ipBytes 6 &&& ip4OffMask) * 8)
        p'.data (min cfg.mtu (max cfg.offlinkMTU mtuMin))
        (packets (xlate4to6Data env t p w).acts) := by
  have mtu : t.cfg.mtu = cfg.mtu := by rw [Translator.new_cfg built, Config.raised_mtu]
  have offlink : t.cfg.offlinkMTU = max cfg.offlinkMTU mtuMin := by
    rw [Translator.new_cfg built, Config.raised]
    split
    · dsimp only
      omega
    · omega
  obtain ⟨v, found, view⟩ := parse4_of_accepted parsed
  have seen := path.seen view
  have width := length_rewrite4to6 seen.payload
  have nonempty : p'.data ≠ [] := by
    rw [← List.length_pos_iff, width, ← view.data, List.length_pos_iff]
    exact some
  have sent : packets (xlate4to6Data env t p w).acts = pieces4to6 t v src6 dst6 p'.data false := by
    rw [xlate4to6Data_eq view, data4_run seen.dst seen.src,
      forward4_sends willing (mtu ▸ low) seen.fragmented seen.payload, packets_append, packets_map]
    exact List.append_nil _
  have fragments := @pieces4to6_fragments raw v t (mtu ▸ low) (parse4_ok found) src6 dst6 p'.data
    (Env.to6_length seen.src) (Env.to6_length seen.dst) width nonempty
    ⟨src6, dst6, v.next, v.ident, 0, false, []⟩ ⟨rfl, rfl, rfl, rfl⟩
  rw [mtu, offlink, ← sent] at fragments
  refine ⟨fun none => nonempty ?_, ?_⟩
  · rw [← fragments.data, none]
    rfl
  · rw [seen.next, view.ipBytes]
    exact fragments

/-- A UDP datagram of 1308 bytes, more than one packet of 1280 bytes can carry. -/
def longDatagram : Bytes :=
  [69, 0, 5, 28, 0, 7, 0, 0, 64, 17, 137, 116, 192, 0, 2, 33, 198, 51, 100, 1,
    48, 57, 0, 53, 5, 8, 1, 2] ++ List.replicate 1280 7

def longDatagramPkt : Pkt where
  raw := longDatagram
  ip := some 20
  hdrLen := 20
  lo := 20
  hi := 1308
  proto := 17

theorem longDatagram_path : ∃ p', FragmentPath Env.sample (.sample 1500 .calc) longDatagramPkt ()
    [0, 100, 255, 155, 0, 0, 0, 0, 0, 0, 0, 0, 192, 0, 2, 33]
    [0, 100, 255, 155, 0, 0, 0, 0, 0, 0, 0, 0, 198, 51, 100, 1]
    [96, 0, 0, 0, 5, 8, 17, 63, 0, 100, 255, 155, 0, 0, 0, 0, 0, 0, 0, 0, 192, 0, 2, 33,
      0, 100, 255, 155, 0, 0, 0, 0, 0, 0, 0, 0, 198, 51, 100, 1] p' := by
  have accepted : (payload4to6 (.sample 1500 .calc) longDatagramPkt
      [96, 0, 0, 0, 5, 8, 17, 63, 0, 100, 255, 155, 0, 0, 0, 0, 0, 0, 0, 0, 192, 0, 2, 33,
        0, 100, 255, 155, 0, 0, 0, 0, 0, 0, 0, 0, 198, 51, 100, 1]).toOption.map Prod.fst =
      some .none := by decide +kernel
  obtain ⟨⟨reason, p'⟩, rewritten, same⟩ := Option.map_eq_some_iff.mp accepted
  cases same
  refine ⟨p', by decide +kernel, by decide +kernel, by decide +kernel, by decide +kernel, ?_⟩
  generalize payload4to6 _ _ _ = answer at rewritten ⊢
  cases answer with
  | error fault => cases rewritten
  | ok answer => exact congrArg Except.ok (Option.some.inj rewritten)

theorem fragments_complete_udp :
    let acts := (translate Env.sample (.sample 1500 .calc) longDatagram ()).acts
    (packets acts).map List.length = [1280, 104] ∧
      ∃ first data, FragmentsOf first false 0 data 1280 (packets acts) := by
  intro acts
  have built : Translator.new (Config.sample 1500 1280 .calc) = .ok (.sample 1500 .calc) := rfl
  have same : acts = (xlate4to6Data Env.sample (.sample 1500 .calc) longDatagramPkt ()).acts := by
    decide +kernel
  have flags : be16 longDatagramPkt.ipBytes 6 = 0 := by decide +kernel
  obtain ⟨p', path⟩ := longDatagram_path
  have willing : Env.sample.Willing := fun _ _ none => nomatch none
  obtain ⟨-, fragments⟩ := fragments_complete built (by decide) willing
    (show parseIPv4 { raw := longDatagram } = .ok (.none, longDatagramPkt) by decide +kernel)
    (by decide +kernel) path
  rw [flags, ← same] at fragments
  exact ⟨by decide +kernel, _, p'.data, fragments⟩

end Clatto.Xlate
