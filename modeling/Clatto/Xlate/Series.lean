import Clatto.Xlate.Fragmented

/-! Two translators in a row, as in 464XLAT, with a network between them that may hold packets
back and change their order. -/

namespace Clatto.Xlate

open Bytes Ones

/-- Without other extension headers both ways of reading a packet agree. -/
theorem read6_plain {raw : Bytes} {v : Packet6} (found : parse6 raw = .ok v)
    (plain : ¬ (byteAt raw 6 = 0 ∨ byteAt raw 6 = 43 ∨ byteAt raw 6 = 60)) :
    read6 raw = piece6 raw := by
  have parsed := parse6_ok found
  obtain ⟨b, splits, -, frag, proto, data⟩ := parsed.body_plain plain
  have dst : v.dst = sub raw 24 40 := by
    rw [Packet6.dst, parsed.hdr, sub, sub, List.take_take]
    rfl
  have body : sub raw 40 (dataEnd6 raw) = sub raw 40 (40 + be16 raw 4) := by
    have long := parsed.long
    rw [dataEnd6, ipv6HdrLen]
    split
    · rfl
    · rename_i short
      rw [sub, sub, List.take_of_length_le le_rfl, List.take_of_length_le (by omega)]
  rw [body] at splits
  rw [read6_parsed found, parsed.src, dst, Packet6.offFlags, frag, proto, data, piece6]
  by_cases fragment : byteAt raw 6 = 44
  · rw [if_pos fragment]
    rw [fragment] at splits
    obtain ⟨long, frag, proto, data⟩ := splitFrag_some splits
    have bound : 8 ≤ be16 raw 4 := by
      rw [sub, List.length_drop, List.length_take] at long
      omega
    have front : (sub raw 40 (40 + be16 raw 4)).take 8 = sub raw 40 48 := by
      rw [← Bytes.sub_zero, Bytes.sub_sub (by omega)]
    have rest : (sub raw 40 (40 + be16 raw 4)).drop 8 = sub raw 48 (40 + be16 raw 4) :=
      List.drop_drop
    rw [frag, proto, data, front, rest, Option.elim_some, Option.elim_some, be32_sub (by omega),
      be16_sub (by omega), byteAt_sub (by omega)]
  · rw [if_neg fragment]
    rw [splitFrag, if_neg (show byteAt raw 6 ≠ protoFrag from fragment)] at splits
    cases splits
    simp

/-- What the first translator sends has no extension headers that the second would skip. -/
theorem Translated4.plain {σ : Type} {env : Env σ} {t : Translator} {raw q : Bytes}
    {sent : List Bytes} {v : Packet4} {src6 dst6 data : Bytes} {whole : Bool}
    (done : Translated4 env t raw sent v src6 dst6 data whole) (transport : v.proto ≠ protoICMP)
    (member : q ∈ sent) : ¬ (byteAt q 6 = 0 ∨ byteAt q 6 = 43 ∨ byteAt q 6 = 60) := by
  have shape := done.piece member
  cases whole with
  | true =>
    obtain rfl : q = whole4to6 v src6 dst6 data := shape
    have next : byteAt (whole4to6 v src6 dst6 data) 6 = v.proto := if_neg transport
    rw [next]
    exact (proto4Reason_plain transport done.parsed.accepted).1
  | false =>
    obtain ⟨k, -, -, rfl⟩ := shape
    exact (by decide : ¬ (protoFrag = 0 ∨ protoFrag = 43 ∨ protoFrag = 60))

theorem Translated4.filled {σ : Type} {env : Env σ} {t : Translator} {raw q : Bytes}
    {sent : List Bytes} {v : Packet4} {src6 dst6 data : Bytes} {whole : Bool}
    (done : Translated4 env t raw sent v src6 dst6 data whole) (some : (piece4 raw).data ≠ [])
    (member : q ∈ sent) : (piece6 q).data ≠ [] := by
  have shape := done.piece member
  have width := length_rewrite4to6 done.payload
  have small := done.parsed.data_le
  have fits := done.parsed.fragment.1
  have filled : data ≠ [] := by
    rw [piece4_parsed done.parsed] at some
    exact List.ne_nil_of_length_pos (by rw [width]; exact List.length_pos_iff.mpr some)
  cases whole with
  | true =>
    obtain rfl : q = whole4to6 v src6 dst6 data := shape
    rw [whole4to6, piece6_whole done.src.length done.dst.length done.parsed.next_ne (by omega)]
    exact filled
  | false =>
    obtain ⟨k, multiple, inside, rfl⟩ := shape
    have room := (done.room.resolve_right filled).resolve_left Bool.false_ne_true
    rw [piece6_fragment4to6 done.src.length done.dst.length (by omega) (by omega)
      (by rw [List.length_drop]; omega) (by rw [fragHdrLen]; omega)]
    apply List.ne_nil_of_length_pos
    rw [List.length_take, List.length_drop]
    omega

section

variable {d : Datagram} {src dst : Bytes}

theorem checksummed_readdressed (inside : FieldInside d) :
    Checksummed (readdressed d src dst) ↔ Checksummed d := by
  constructor
  · intro checked
    by_contra unchecked
    have data : (readdressed d src dst).data = d.data := if_neg unchecked
    rw [Checksummed, data] at checked
    exact unchecked checked
  · intro checked
    have carried := @carriedBy_readdressed d src dst checked inside
    rcases checked with tcp | ⟨udp, -⟩
    · exact .inl tcp
    · exact .inr ⟨udp, carried.nonzero udp⟩

theorem summed_readdressed {mode : UDPChecksumMode} (inside : FieldInside d)
    (summed : Summed mode d) : Summed mode (readdressed d src dst) := by
  intro udp
  by_cases present : be16 d.data 6 = 0
  · exact .inr ((summed udp).resolve_left (not_not.mpr present))
  · have checked : Checksummed d := .inr ⟨udp, present⟩
    exact .inl ((carriedBy_readdressed checked inside).nonzero udp)

/-- Under its old addresses a datagram is what it was, unless its checksum was the other
zero. -/
theorem readdressed_back (inside : FieldInside d) (four : Sized d 4)
    (valid : Netutil.classifyIPv4 d.src ≠ .invalid) (hs : src.length = 16) (hd : dst.length = 16)
    (restorable : d.proto = protoTCP → be16 d.data 16 ≠ 0xffff) :
    readdressed (readdressed d src dst) d.src d.dst = d := by
  have data : (readdressed (readdressed d src dst) d.src d.dst).data = d.data := by
    by_cases checked : Checksummed d
    · have hs4 := four.src
      have hd4 := four.dst
      obtain ⟨-, removeSmall⟩ := @sum16_pair d.src d.dst (by omega) (by omega)
      obtain ⟨-, addSmall⟩ := @sum16_pair src dst (by omega) (by omega)
      rw [readdressed_data ((checksummed_readdressed inside).mpr checked), readdressed_data checked]
      refine adjustAt_back (inside checked) (by omega) (by omega)
        (valid4_sum four.src four.dst valid) ?_
      rcases checked with tcp | ⟨udp, present⟩
      · rw [show (readdressed d src dst).proto = protoTCP from tcp, tcp]
        exact restorable tcp
      · rw [show (readdressed d src dst).proto = protoUDP from udp, udp]
        exact present
    · have unchecked := mt (@checksummed_readdressed d src dst inside).mp checked
      exact (if_neg unchecked).trans (if_neg checked)
  cases d
  simp_all [readdressed]

theorem CarriedBy.trans {d' d'' : Datagram} (first : CarriedBy d d') (second : CarriedBy d' d'') :
    CarriedBy d d'' where
  proto := second.proto.trans first.proto
  inside := first.inside
  length := second.length.trans first.length
  bytes := by
    intro i high low
    rw [second.bytes i (by rwa [first.proto]) (by rwa [first.proto]), first.bytes i high low]
  nonzero := fun udp => second.nonzero (first.proto.trans udp)

end

/-- What a first translator has sent is read by a second one as by any receiver. -/
theorem read6_emissions {σ τ : Type} {env₁ : Env σ} {env₂ : Env τ} {t₁ t₂ : Translator}
    {calls : List (Bytes × σ)} {c : Bytes × τ} {n : Nat}
    (each : ∀ c ∈ calls, (piece4 c.1).proto ≠ protoICMP ∧ (piece4 c.1).data ≠ [] ∧
      ∃ n, .translated 4 n ∈ (translate env₁ t₁ c.1 c.2).acts)
    (sent : c.1 ∈ emissions env₁ t₁ calls)
    (counted : .translated 6 n ∈ (translate env₂ t₂ c.1 c.2).acts) :
    read6 c.1 = piece6 c.1 ∧ (read6 c.1).data ≠ [] := by
  obtain ⟨call, member, among⟩ := List.mem_flatMap.mp sent
  obtain ⟨transport, some, m, counted'⟩ := each call member
  obtain ⟨v, src6, dst6, data, whole, done⟩ :=
    (translate_sound env₁ t₁ call.1 call.2).1.transport4 counted' transport
  obtain ⟨v', found⟩ := (translate_sound env₂ t₂ c.1 c.2).1.parsed6 counted
  have proto : v.proto ≠ protoICMP := by
    rw [piece4_parsed done.parsed] at transport
    exact transport
  have same := read6_plain found (done.plain proto among)
  rw [same]
  exact ⟨rfl, done.filled some among⟩

/-- 464XLAT for datagrams: two translators in a row, with any fragmentation before, between and
behind them and any order of the packets, carry a datagram over. Where the second gives it its
addresses back, it is the datagram that was sent. -/
theorem crosses_464 {σ τ : Type} {env₁ : Env σ} {env₂ : Env τ} {t₁ t₂ : Translator}
    (high : t₂.cfg.mtu ≤ 65535) {calls : List (Bytes × σ)} {between : List (Bytes × τ)}
    {d : Datagram} {src6 dst6 src4 dst4 : Bytes}
    (arrived : Delivers (calls.map fun c => piece4 c.1) d) (transport : d.proto ≠ protoICMP)
    (summed₁ : Summed t₁.cfg.udpChecksum d) (summed₂ : Summed t₂.cfg.udpChecksum d)
    (first : ∀ w, (env₁.to6 d.src w).1 = .ok src6 ∧ (env₁.to6 d.dst w).1 = .ok dst6)
    (each₁ : ∀ c ∈ calls, (piece4 c.1).data ≠ [] ∧
      ∃ n, .translated 4 n ∈ (translate env₁ t₁ c.1 c.2).acts)
    (travel : (between.map Prod.fst).Perm (emissions env₁ t₁ calls))
    (second : ∀ w, (env₂.to4 true src6 w).1 = .ok src4 ∧ (env₂.to4 false dst6 w).1 = .ok dst4)
    (each₂ : ∀ c ∈ between, ∃ n, .translated 6 n ∈ (translate env₂ t₂ c.1 c.2).acts) :
    ∃ d', Delivers ((emissions env₂ t₂ between).map piece4) d' ∧ d'.src = src4 ∧ d'.dst = dst4 ∧
      (Checksummed d → CarriedBy d d' ∧ (verifies4 d ↔ verifies4 d')) ∧
      (src4 = d.src → dst4 = d.dst → (d.proto = protoTCP → be16 d.data 16 ≠ 0xffff) → d' = d) := by
  obtain ⟨received, inside⟩ := delivers4to6 arrived transport summed₁ (fun w => (first w).1)
    (fun w => (first w).2) (fun c member => (each₁ c member).2) fun c member => (each₁ c member).1
  have four := sized4 arrived fun c member => (each₁ c member).2
  obtain ⟨raw, v, parsed, source, -, proto⟩ :=
    exists_parsed4 arrived fun c member => (each₁ c member).2
  -- the packets on their way
  have plain (c : Bytes × τ) (member : c ∈ between) :
      read6 c.1 = piece6 c.1 ∧ (read6 c.1).data ≠ [] := by
    obtain ⟨n, counted⟩ := each₂ c member
    refine read6_emissions (fun call among => ?_) (travel.mem_iff.mp (List.mem_map_of_mem member))
      counted
    refine ⟨?_, each₁ call among⟩
    rw [(arrived.same _ (List.mem_map_of_mem among)).2.2]
    exact transport
  have onward : Delivers (between.map fun c => read6 c.1) (readdressed d src6 dst6) := by
    obtain ⟨ordered, perm, split⟩ := received
    have read : (between.map fun c => read6 c.1) = (between.map Prod.fst).map piece6 := by
      rw [List.map_map]
      exact List.map_congr_left fun c member => (plain c member).1
    exact ⟨ordered, read ▸ (travel.map piece6).trans perm, split⟩
  have transport6 : d.proto ≠ protoICMPv6 :=
    proto ▸ (proto4Reason_plain (proto ▸ transport) parsed.accepted).2.2
  obtain ⟨received', inside'⟩ := delivers6to4 high onward transport6
    (summed_readdressed inside summed₂) (fun w => (second w).1) (fun w => (second w).2) each₂
    fun c member => (plain c member).2
  refine ⟨_, received', rfl, rfl, fun checked => ?_, ?_⟩
  · have checked' := (@checksummed_readdressed d src6 dst6 inside).mpr checked
    have six := sized6 onward each₂
    obtain ⟨p, among⟩ := onward.nonempty
    obtain ⟨c, -, -⟩ := List.mem_map.mp among
    refine ⟨(carriedBy_readdressed checked inside).trans (carriedBy_readdressed checked' inside'),
      ?_⟩
    rw [verifies_readdressed6 checked inside four.data ⟨four.src, four.dst⟩ ⟨six.src, six.dst⟩]
    exact verifies_readdressed4 checked' inside' six.data ⟨six.src, six.dst⟩
      ⟨Env.to4_length (second c.2).1, Env.to4_length (second c.2).2⟩
  · rintro rfl rfl restorable
    have six := sized6 onward each₂
    exact readdressed_back inside four (source ▸ parsed.valid.1) six.src six.dst restorable

/-- The packets for both fragments, in the order in which they were not sent. -/
def onTheWay : List Bytes :=
  [[96, 0, 0, 0, 0, 24, 44, 63, 0, 100, 255, 155, 0, 0, 0, 0, 0, 0, 0, 0, 192, 0, 2, 33, 0, 100, 255,
      155, 0, 0, 0, 0, 0, 0, 0, 0, 198, 51, 100, 1, 17, 0, 0, 1, 0, 0, 0, 7, 48, 57, 0, 53, 0, 24, 194,
      209, 1, 2, 3, 4, 5, 6, 7, 8],
    [96, 0, 0, 0, 0, 16, 44, 63, 0, 100, 255, 155, 0, 0, 0, 0, 0, 0, 0, 0, 192, 0, 2, 33, 0, 100, 255,
      155, 0, 0, 0, 0, 0, 0, 0, 0, 198, 51, 100, 1, 17, 0, 0, 16, 0, 0, 0, 7, 1, 2, 3, 4, 5, 6, 7, 8]]

theorem crosses_464_frontAndBack :
    Delivers ((emissions Env.sample (.sample 1500 .calc) (onTheWay.map (·, ()))).map piece4)
      frontAndBack := by
  have sent : emissions Env.sample (.sample 1500 .calc) [(back, ()), (front, ())] =
      onTheWay.reverse := by decide +kernel
  obtain ⟨d, received, -, -, -, same⟩ := @crosses_464 _ _ Env.sample Env.sample (.sample 1500 .calc)
    (.sample 1500 .calc) (by decide) [(back, ()), (front, ())] (onTheWay.map (·, ())) frontAndBack
    _ _ [192, 0, 2, 33] [198, 51, 100, 1] delivers_frontAndBack (by decide) (fun _ => .inl (by decide))
    (fun _ => .inl (by decide)) (fun _ => ⟨rfl, rfl⟩) translated_frontAndBack
    (by rw [sent]; exact (List.reverse_perm onTheWay).symm) (fun () => ⟨by decide, by decide⟩)
    (by rintro _ (_ | ⟨_, _ | ⟨_, ⟨⟩⟩⟩); exacts [⟨64, by decide +kernel⟩, ⟨56, by decide +kernel⟩])
  rwa [same rfl rfl (by decide)] at received

end Clatto.Xlate
