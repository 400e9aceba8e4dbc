import Clatto.Xlate.Receive

/-! Everything a call on an IPv4 packet can lead to, as one relation between the
packet and the actions observed. -/

namespace Clatto.Xlate

open Bytes Effect

variable {σ : Type}

/-- The mapper gives this answer in some state of the surroundings. -/
def Env.Maps6 (env : Env σ) (a b : Bytes) : Prop := ∃ w, (env.to6 a w).1 = .ok b

def Env.Maps4 (env : Env σ) (allocate : Bool) (a b : Bytes) : Prop :=
  ∃ w, (env.to4 allocate a w).1 = .ok b

def Env.Willing (env : Env σ) : Prop := ∀ n w, (env.packet n w).1 ≠ none

/-- The checks every packet passes before it is looked at further. -/
structure Accepted4 (p : Packet4) : Prop where
  ttl : p.ttl ≠ 0
  header : verify p.hdr 0
  size : p.size = p.total
  message : p.proto = protoICMP → verify p.data 0

/-- A packet that is due to leave on the other side. -/
structure Through4 (t : Translator) (p : Packet4) : Prop extends Accepted4 p where
  foreign : p.dst ≠ t.local4
  alive : p.ttl ≠ 1

/-- A data packet whose addresses and payload have been translated. -/
structure Forwarded4 (env : Env σ) (t : Translator) (p : Packet4) (src6 dst6 data : Bytes) : Prop
    extends Through4 t p where
  kind : p.proto = protoICMP → p.icmpType = 8 ∨ p.icmpType = 0
  src : env.Maps6 p.src src6
  dst : env.Maps6 p.dst dst6
  payload : rewrite4to6 t.cfg.udpChecksum p src6 dst6 = .ok data

/-- The packet that leaves when no fragment header is needed. -/
def whole4to6 (p : Packet4) (src6 dst6 data : Bytes) : Bytes :=
  ipv6Header p.tos data.length p.next (p.ttl - 1) src6 dst6 ++ data

/-- The fragments that leave otherwise, for a positive room. -/
def fragments4to6 (p : Packet4) (src6 dst6 : Bytes) (room : Nat) : Nat → Nat → Bytes → List Bytes
  | 0, _, _ => []
  | fuel + 1, off, data =>
    if data.length > 0 then
      fragment4to6 p src6 dst6 off (min data.length room) data ::
        fragments4to6 p src6 dst6 room fuel (off + min data.length room)
          (data.drop (min data.length room))
    else []

/-- All packets that carry a translated payload. -/
def pieces4to6 (t : Translator) (p : Packet4) (src6 dst6 data : Bytes) (whole : Bool) :
    List Bytes :=
  if whole then [whole4to6 p src6 dst6 data]
  else fragments4to6 p src6 dst6 t.fragRoom.toNat (data.length + 1)
    ((p.flagsOff &&& ip4OffMask) * 8) data

/-- A packet of the shape of a piece, without regard to the MTU: the whole, or a
fragment that starts `k` bytes into the payload. -/
def IsPiece4 (t : Translator) (p : Packet4) (src6 dst6 data : Bytes) (whole : Bool) (q : Bytes) :
    Prop :=
  if whole then q = whole4to6 p src6 dst6 data
  else ∃ k, k % 8 = 0 ∧ k < data.length ∧
    q = fragment4to6 p src6 dst6 ((p.flagsOff &&& ip4OffMask) * 8 + k)
      (min (data.length - k) t.fragRoom.toNat) (data.drop k)

/-- An ICMP error whose embedded packet has been translated. -/
structure ErrorForwarded4 (env : Env σ) (t : Translator) (p : Packet4) (otype ocode : UInt8)
    (oword : Nat) (inner : Bytes) : Prop extends Through4 t p where
  icmp : p.proto = protoICMP
  kind : ¬ (p.icmpType = 8 ∨ p.icmpType = 0)
  embedded : ∃ raw em emSrc emDst data, p.embedded = some raw ∧ parse4 raw = .ok em ∧
    em.Answerable ∧ env.Maps6 em.src emSrc ∧ env.Maps6 em.dst emDst ∧
    errorType4to6 t p.icmpType p.icmpCode p.icmpRest em.total = .ok (.ok (otype, ocode, oword)) ∧
    rewrite4to6 t.cfg.udpChecksum (em.clip (mtuMin - 2 * ipv6HdrLen - icmpHdrLen) (by decide))
      emSrc emDst = .ok data ∧ inner = inner4to6 em emSrc emDst data

/-- There is room for the data of a fragment, where fragments are needed. -/
def Translator.Roomy (t : Translator) (whole : Bool) : Prop := whole = true ∨ 0 < t.fragRoom

/-- The report about an unmapped router, when there is one. -/
def synthesised (p : Event) (synth : Bool) : List Action := if synth then [.event p] else []

/-- The actions a call on a parsed IPv4 packet may perform. -/
inductive Trace4 (env : Env σ) (t : Translator) (p : Packet4) : List Action → Prop
  | report (kind : Kind) (reason : Reason) : Trace4 env t p [.event (p.event kind reason)]
  | complain (kind : Kind) (reason : Reason) (typ code : UInt8) (word : Nat)
      (accepted : Accepted4 p) (answerable : p.Answerable) (error : typ = 3 ∨ typ = 11)
      (oversized : typ = 3 → code = 4 →
        word = uint32 (t.cfg.mtu - mtuAdj) ∧ t.cfg.mtu - mtuAdj < p.size) :
      Trace4 env t p [.event (p.event kind reason),
        .packet (icmp4Packet 0 t.local4 p.src typ code word p.quote)]
  | echo (accepted : Accepted4 p) (own : p.dst = t.local4) (icmp : p.proto = protoICMP)
      (request : p.icmpType = 8) :
      Trace4 env t p [.event (p.event .self .echoRequest), .packet
        (icmp4Packet p.tos p.dst p.src 0 p.icmpCode p.icmpRest (p.data.drop icmpHdrLen))]
  | data {src6 dst6 data : Bytes} (forwarded : Forwarded4 env t p src6 dst6 data) (whole : Bool)
      (fits : noFragHdr t p.flagsOff t.room p.hdr.length p.data.length = some whole)
      (sent : List Bytes) (done : Bool)
      (shape : ∀ q ∈ sent, IsPiece4 t p src6 dst6 data whole q)
      (pieces : t.Roomy whole → sent <+: pieces4to6 t p src6 dst6 data whole)
      (all : t.Roomy whole → done → sent = pieces4to6 t p src6 dst6 data whole)
      (refused : t.Roomy whole → done = false → ¬ env.Willing)
      (room : done → t.Roomy whole ∨ data = []) :
      Trace4 env t p (sent.map .packet ++ if done then [.translated 4 p.size] else [])
  | error {otype ocode : UInt8} {oword : Nat} {inner src6 dst6 : Bytes}
      (forwarded : ErrorForwarded4 env t p otype ocode oword inner) (synth : Bool)
      (src : if synth then src6 = t.local6 else env.Maps6 p.src src6) (dst : env.Maps6 p.dst dst6) :
      Trace4 env t p (synthesised (p.event .icmp .synthesisedSource) synth ++
        [.packet (error4to6 p src6 dst6 otype ocode oword inner), .translated 4 p.size])
  | errorRefused (synth : Bool) (refused : ¬ env.Willing) :
      Trace4 env t p (synthesised (p.event .icmp .synthesisedSource) synth)
  | errorUnmapped (synth : Bool) :
      Trace4 env t p (synthesised (p.event .icmp .synthesisedSource) synth ++
        [.event (p.event .drop .destinationUnmappable)])

/-- The actions a call on bytes from the IPv4 side may perform. -/
inductive Handled4 (env : Env σ) (t : Translator) (raw : Bytes) : List Action → Prop
  | unparsed {e : Event} (failed : parse4 raw = .error e) : Handled4 env t raw [.event e]
  | parsed {p : Packet4} {acts : List Action} (found : parse4 raw = .ok p)
      (trace : Trace4 env t p acts) : Handled4 env t raw acts

/-- A trace, and a fault only where the MTU is too small for IPv6. -/
def Sound4 (env : Env σ) (t : Translator) (p : Packet4) (acts : List Action)
    (result : Checked Unit) : Prop :=
  Trace4 env t p acts ∧ (mtuMin ≤ t.cfg.mtu → result = .ok ())

section

variable {env : Env σ} {t : Translator} {p : Packet4}

theorem meets_emitWith {n : Nat} {content : Xl σ Bytes} {made : Bytes → Prop}
    (makes : content.Meets fun acts result => acts = [] ∧ ∃ b, result = .ok b ∧ made b) :
    (emitWith env n content).Meets fun acts result =>
      (∃ b, made b ∧ acts = [.packet b] ∧ result = .ok true) ∨
        (acts = [] ∧ result = .ok false ∧ ¬ env.Willing) := by
  refine meets_ask_bind fun w => ?_
  cases answer : (env.packet n w).1 with
  | none => exact meets_pure (.inr ⟨rfl, rfl, fun willing => willing _ _ answer⟩)
  | some _ =>
    refine meets_bind (makes.mono ?_)
    rintro acts result ⟨rfl, b, rfl, holds⟩
    exact meets_act_bind (meets_pure (.inl ⟨b, holds, rfl, rfl⟩))

theorem meets_emit {b : Bytes} :
    (emit env b).Meets fun acts result =>
      (acts = [.packet b] ∧ result = .ok true) ∨
        (acts = [] ∧ result = .ok false ∧ ¬ env.Willing) := by
  refine (@meets_emitWith _ _ _ _ (· = b) (meets_pure ⟨rfl, b, rfl, rfl⟩)).mono ?_
  rintro acts result (⟨_, rfl, sent⟩ | refused)
  · exact .inl sent
  · exact .inr refused

theorem report_sound (kind : Kind) (reason : Reason) :
    (report (p.event kind reason) : Xl σ Unit).Meets (Sound4 env t p) :=
  meets_act ⟨.report kind reason, fun _ => rfl⟩

theorem complain4_sound (accepted : Accepted4 p) (kind : Kind) (reason : Reason)
    {typ code : UInt8} {word : Nat} (error : typ = 3 ∨ typ = 11)
    (oversized : typ = 3 → code = 4 →
      word = uint32 (t.cfg.mtu - mtuAdj) ∧ t.cfg.mtu - mtuAdj < p.size) :
    (report (p.event kind reason) >>= fun _ => complain4 env t typ code word p).Meets
      (Sound4 env t p) := by
  refine meets_act_bind ?_
  unfold complain4
  split
  · rename_i answerable
    refine meets_bind (meets_emit.mono ?_)
    rintro acts result (⟨rfl, rfl⟩ | ⟨rfl, rfl, -⟩)
    · exact meets_pure ⟨.complain kind reason typ code word accepted answerable error oversized,
        fun _ => rfl⟩
    · exact meets_pure ⟨.report kind reason, fun _ => rfl⟩
  · exact meets_pure ⟨.report kind reason, fun _ => rfl⟩

theorem host4_sound (accepted : Accepted4 p) (own : p.dst = t.local4)
    (icmp : p.proto = protoICMP) : (host4 env p).Meets (Sound4 env t p) := by
  unfold host4
  split
  · rename_i request
    refine meets_act_bind (meets_bind (meets_emit.mono ?_))
    rintro acts result (⟨rfl, rfl⟩ | ⟨rfl, rfl, -⟩)
    · exact meets_pure ⟨.echo accepted own icmp request, fun _ => rfl⟩
    · exact meets_pure ⟨.report .self .echoRequest, fun _ => rfl⟩
  · exact report_sound _ _

/-- The fragment loop with room for data: it sends a prefix of the fragments, and
stops early only when one is refused. -/
theorem sendFragments_spec {src6 dst6 : Bytes} {room : Nat} (positive : 0 < room) {fuel off : Nat}
    {data : Bytes} (enough : data.length < fuel) :
    (sendFragments env room p src6 dst6 fuel off data).Meets fun acts result =>
      ∃ sent done, acts = sent.map .packet ∧ result = .ok done ∧
        sent <+: fragments4to6 p src6 dst6 room fuel off data ∧
        (done → sent = fragments4to6 p src6 dst6 room fuel off data) ∧
        (done = false → ¬ env.Willing) := by
  induction fuel generalizing off data with
  | zero => omega
  | succ fuel ih =>
    unfold sendFragments fragments4to6
    by_cases more : data.length > 0
    · have size : (if (data.length : Int) < room then (data.length : Int) else room) =
          (min data.length room : Nat) := by
        split <;> omega
      have forward : ¬ ((min data.length room : Nat) : Int) < 0 := by omega
      simp only [more, if_true, size, forward, if_false, Int.toNat_natCast]
      refine meets_bind (meets_emit.mono ?_)
      rintro acts result (⟨rfl, rfl⟩ | ⟨rfl, rfl, unwilling⟩)
      · refine (ih (by simp; omega)).mono ?_
        rintro acts result ⟨sent, done, rfl, rfl, front, all, refused⟩
        refine ⟨_ :: sent, done, rfl, rfl, List.prefix_cons_inj _ |>.mpr front, fun finished => ?_,
          refused⟩
        rw [all finished]
      · exact meets_pure ⟨[], false, rfl, rfl, List.nil_prefix, nofun, fun _ => unwilling⟩
    · simp only [more, if_false]
      exact meets_pure ⟨[], true, rfl, rfl, List.nil_prefix, fun _ => rfl, nofun⟩

/-- The fragment loop with any room: it sends nothing but fragments. -/
theorem sendFragments_shape {src6 dst6 : Bytes} {room : Int} (aligned : room % 8 = 0)
    {fuel off : Nat} {data : Bytes} :
    (sendFragments env room p src6 dst6 fuel off data).Meets fun acts _ =>
      ∃ sent : List Bytes, acts = sent.map .packet ∧ ∀ q ∈ sent, ∃ k, k % 8 = 0 ∧
        k < data.length ∧ q = fragment4to6 p src6 dst6 (off + k)
          (min (data.length - k) room.toNat) (data.drop k) := by
  induction fuel generalizing off data with
  | zero => exact meets_lift ⟨[], rfl, nofun⟩
  | succ fuel ih =>
    unfold sendFragments
    split
    · rename_i some
      generalize cut : (if data.length < room then (data.length : Int) else room) = n
      dsimp only
      split
      · exact meets_lift ⟨[], rfl, nofun⟩
      · rename_i forward
        refine meets_bind (meets_emit.mono ?_)
        rintro acts result (⟨rfl, rfl⟩ | ⟨rfl, rfl, -⟩)
        · refine ih.mono ?_
          rintro acts result ⟨sent, rfl, shape⟩
          refine ⟨_ :: sent, rfl, fun q member => ?_⟩
          rcases List.mem_cons.mp member with rfl | member
          · have size : n.toNat = min (data.length - 0) room.toNat := by
              split at cut <;> omega
            exact ⟨0, rfl, some, by rw [← size]; rfl⟩
          · obtain ⟨k, multiple, inside, rfl⟩ := shape q member
            rw [List.length_drop] at inside
            -- there is a next fragment only when this one is full
            have full : n = room := by
              split at cut <;> omega
            refine ⟨n.toNat + k, by omega, by omega, ?_⟩
            rw [Nat.add_assoc, List.drop_drop, List.length_drop, Nat.sub_sub]
        · exact meets_pure ⟨[], rfl, nofun⟩
    · exact meets_pure ⟨[], rfl, nofun⟩

theorem sendFragments_stuck {src6 dst6 data : Bytes} {room : Int} (none : room ≤ 0)
    (some : 0 < data.length) {fuel off : Nat} :
    (sendFragments env room p src6 dst6 fuel off data).Meets fun _ result => result ≠ .ok true := by
  induction fuel generalizing off with
  | zero => exact meets_lift nofun
  | succ fuel ih =>
    have size : (if (data.length : Int) < room then (data.length : Int) else room) = room := by
      rw [if_neg]
      omega
    unfold sendFragments
    simp only [some, if_true, size]
    split
    · exact meets_lift nofun
    · have zero : room.toNat = 0 := by omega
      refine meets_bind (meets_emit.mono ?_)
      rintro acts result (⟨rfl, rfl⟩ | ⟨rfl, rfl, -⟩)
      · rw [zero]
        exact ih
      · exact meets_pure nofun

theorem fragRoom_mod (t : Translator) : t.fragRoom % 8 = 0 := by
  simp only [Translator.fragRoom]
  omega

theorem fragRoom_pos (usable : mtuMin ≤ t.cfg.mtu) : 0 < t.fragRoom := by
  have := t.offlink_ge
  simp only [Translator.fragRoom, Translator.room, mtuMin, fragHdrLen, ipv6HdrLen] at *
  omega

theorem fragRoom_eq (usable : mtuMin ≤ t.cfg.mtu) :
    t.fragRoom = t.fragRoom.toNat ∧ 0 < t.fragRoom.toNat := by
  have := fragRoom_pos usable
  omega

theorem roomy_of_usable (usable : mtuMin ≤ t.cfg.mtu) (whole : Bool) : t.Roomy whole :=
  .inr (fragRoom_pos usable)

theorem noFragHdr_none {fo hdrLen dataLen : Nat} {fragSize : Int}
    (refused : noFragHdr t fo fragSize hdrLen dataLen = none) :
    t.cfg.mtu - mtuAdj < (hdrLen + dataLen : Nat) := by
  unfold noFragHdr at refused
  split at refused
  · split at refused
    · split at refused
      · assumption
      · cases refused
    · cases refused
  · cases refused

theorem forward4_sound {src6 dst6 : Bytes} (through : Through4 t p)
    (kind : p.proto = protoICMP → p.icmpType = 8 ∨ p.icmpType = 0) (src : env.Maps6 p.src src6)
    (dst : env.Maps6 p.dst dst6) : (forward4 env t p src6 dst6).Meets (Sound4 env t p) := by
  unfold forward4
  split
  · rename_i refused
    exact complain4_sound through.toAccepted4 _ _ (.inl rfl) fun _ _ => ⟨rfl, noFragHdr_none refused⟩
  · rename_i whole fits
    split
    · exact report_sound _ _
    · rename_i data payload
      have forwarded : Forwarded4 env t p src6 dst6 data := ⟨through, kind, src, dst, payload⟩
      refine meets_bind ?_
      cases whole with
      | true =>
        refine meets_emit.mono ?_
        rintro acts result (⟨rfl, rfl⟩ | ⟨rfl, rfl, unwilling⟩)
        · exact meets_act ⟨.data forwarded true fits [_] true
            (fun q member => List.mem_singleton.mp member) (fun _ => List.prefix_rfl)
            (fun _ _ => rfl) nofun fun _ => .inl (.inl rfl), fun _ => rfl⟩
        · exact meets_pure ⟨.data forwarded true fits [] false nofun (fun _ => List.nil_prefix)
            nofun (fun _ _ => unwilling) nofun, fun _ => rfl⟩
      | false =>
        have shaped := @sendFragments_shape σ env p src6 dst6 _ (fragRoom_mod t) (data.length + 1)
          ((p.flagsOff &&& ip4OffMask) * 8) data
        by_cases room : 0 < t.fragRoom
        · obtain ⟨same, positive⟩ : t.fragRoom = t.fragRoom.toNat ∧ 0 < t.fragRoom.toNat := by omega
          rw [if_neg (by decide)]
          rw [same] at shaped ⊢
          refine ((sendFragments_spec positive (by omega)).and shaped).mono ?_
          rintro acts result ⟨⟨sent, done, rfl, rfl, front, all, refused⟩, again, equal, shape⟩
          obtain rfl := List.map_injective_iff.mpr (fun _ _ => Action.packet.inj) equal
          have traced : Trace4 env t p
              (sent.map .packet ++ if done then [.translated 4 p.size] else []) :=
            .data forwarded false fits sent done shape
              (fun _ => front) (fun _ => all) (fun _ => refused) fun _ => .inl (.inr room)
          cases done with
          | true => exact meets_act ⟨traced, fun _ => rfl⟩
          | false => exact meets_pure ⟨traced, fun _ => rfl⟩
        · have cramped : ¬ t.Roomy false := fun roomy => roomy.elim nofun room
          have unusable (usable : mtuMin ≤ t.cfg.mtu) : False := room (fragRoom_pos usable)
          have stuck : (sendFragments env t.fragRoom p src6 dst6 (data.length + 1)
              ((p.flagsOff &&& ip4OffMask) * 8) data).Meets
              fun _ result => data ≠ [] → result ≠ .ok true := fun w some =>
            sendFragments_stuck (Int.not_lt.mp room) (List.length_pos_iff.mpr some) w
          refine (shaped.and stuck).mono ?_
          rintro acts result ⟨⟨sent, rfl, shape⟩, stuck⟩
          have traced (done : Bool) (empty : done → data = []) : Trace4 env t p
              (sent.map .packet ++ if done then [.translated 4 p.size] else []) :=
            .data forwarded false fits sent done shape
              (fun roomy => absurd roomy cramped) (fun roomy => absurd roomy cramped)
              (fun roomy => absurd roomy cramped) fun finished => .inr (empty finished)
          rcases result with fault | _ | _
          · exact ⟨by simpa using traced false nofun, fun usable => (unusable usable).elim⟩
          · exact meets_pure ⟨traced false nofun, fun _ => rfl⟩
          · exact meets_act ⟨traced true fun _ => by_contra fun some => stuck some rfl, fun _ => rfl⟩

theorem unmapped4_sound (accepted : Accepted4 p) (err : MapError) (reason : Reason)
    {code : UInt8} (other : code ≠ 4) :
    (unmapped4 env t err reason code p).Meets (Sound4 env t p) := by
  unfold unmapped4
  split
  · exact complain4_sound accepted _ _ (.inl rfl) fun _ same => absurd same other
  · exact report_sound _ _

theorem data4_sound (through : Through4 t p)
    (kind : p.proto = protoICMP → p.icmpType = 8 ∨ p.icmpType = 0) :
    (data4 env t p).Meets (Sound4 env t p) := by
  refine meets_ask_bind fun w => ?_
  cases dst : (env.to6 p.dst w).1 with
  | error err => exact unmapped4_sound through.toAccepted4 _ _ (by decide)
  | ok dst6 =>
    refine meets_ask_bind fun w' => ?_
    cases src : (env.to6 p.src w').1 with
    | error err => exact unmapped4_sound through.toAccepted4 _ _ (by decide)
    | ok src6 => exact forward4_sound through kind ⟨w', src⟩ ⟨w, dst⟩

/-- The error fields are always found, and no ICMP error turns into an echo
message: the pointer table is only read inside its bounds. -/
theorem errorType4to6_spec (t : Translator) (typ code : UInt8) (word total : Nat) :
    ∃ answer, errorType4to6 t typ code word total = .ok answer ∧
      ∀ {otype ocode oword}, answer = .ok (otype, ocode, oword) →
        otype = 1 ∨ otype = 2 ∨ otype = 3 ∨ otype = 4 := by
  unfold errorType4to6
  simp only [Checked.pure_eq]
  repeat' split
  all_goals try exact ⟨_, rfl, fun {_ _ _} same => by cases same <;> decide⟩
  rename_i inside
  rw [inRange_of (by omega), Checked.ok_bind]
  split
  · exact ⟨_, rfl, nofun⟩
  · exact ⟨_, rfl, fun {_ _ _} same => by cases same; decide⟩

theorem forwardErrorFrom4_sound {otype ocode : UInt8} {oword : Nat} {inner src6 : Bytes}
    (forwarded : ErrorForwarded4 env t p otype ocode oword inner) (synth : Bool)
    (src : if synth then src6 = t.local6 else env.Maps6 p.src src6) :
    (forwardErrorFrom4 env p src6 otype ocode oword inner).Meets fun acts result =>
      Sound4 env t p (synthesised (p.event .icmp .synthesisedSource) synth ++ acts) result := by
  refine meets_ask_bind fun w => ?_
  cases dst : (env.to6 p.dst w).1 with
  | error err => exact meets_act ⟨.errorUnmapped synth, fun _ => rfl⟩
  | ok dst6 =>
    refine meets_bind (meets_emit.mono ?_)
    rintro acts result (⟨rfl, rfl⟩ | ⟨rfl, rfl, unwilling⟩)
    · exact meets_act ⟨.error forwarded synth src ⟨w, dst⟩, fun _ => rfl⟩
    · exact meets_pure ⟨by simpa using .errorRefused synth unwilling, fun _ => rfl⟩

theorem error4_sound (through : Through4 t p) (icmp : p.proto = protoICMP)
    (kind : ¬ (p.icmpType = 8 ∨ p.icmpType = 0)) : (error4 env t p).Meets (Sound4 env t p) := by
  unfold error4
  split
  · exact report_sound _ _
  · rename_i raw embedded
    split
    · exact report_sound _ _
    · rename_i em parsed
      split
      · rename_i answerable
        refine meets_ask_bind fun w => meets_ask_bind fun w' => ?_
        split
        · rename_i emSrc emDst src dst
          obtain ⟨answer, found, -⟩ :=
            errorType4to6_spec t p.icmpType p.icmpCode p.icmpRest em.total
          rw [found, lift_ok, pure_bind]
          rcases answer with reason | ⟨otype, ocode, oword⟩
          · exact report_sound _ _
          · dsimp only
            split
            · exact report_sound _ _
            · rename_i data payload
              have forwarded : ErrorForwarded4 env t p otype ocode oword
                  (inner4to6 em emSrc emDst data) :=
                ⟨through, icmp, kind, raw, em, emSrc, emDst, data, embedded, parsed, answerable,
                  ⟨w, src⟩, ⟨w', dst⟩, found, payload, rfl⟩
              refine meets_ask_bind fun w'' => ?_
              cases router : (env.to6 p.src w'').1 with
              | ok src6 => exact forwardErrorFrom4_sound forwarded false ⟨w'', router⟩
              | error err =>
                exact meets_act_bind (forwardErrorFrom4_sound forwarded true rfl)
        · exact report_sound _ _
      · exact report_sound _ _

theorem receive4_sound (env : Env σ) (t : Translator) (raw : Bytes) :
    (receive4 env t raw).Meets fun acts result =>
      Handled4 env t raw acts ∧ (mtuMin ≤ t.cfg.mtu → result = .ok ()) := by
  unfold receive4
  split
  · rename_i e failed
    exact meets_act ⟨.unparsed failed, fun _ => rfl⟩
  · rename_i p found
    refine @Meets.mono _ _ _ (Sound4 env t p) _ _ ?_
      fun acts result sound => ⟨.parsed found sound.1, sound.2⟩
    split
    · exact report_sound _ _
    · rename_i header
      split
      · exact report_sound _ _
      · rename_i message
        have accepted : Accepted4 p := by
          simp only [not_or, not_not] at header
          exact ⟨header.1, header.2.1, header.2.2, fun icmp => by simpa [icmp] using message⟩
        split
        · rename_i own
          split
          · rename_i icmp
            exact host4_sound accepted own icmp
          · exact complain4_sound accepted _ _ (.inl rfl) fun _ same => absurd same (by decide)
        · rename_i foreign
          split
          · exact complain4_sound accepted _ _ (.inr rfl) fun same => absurd same (by decide)
          · rename_i alive
            have through : Through4 t p := ⟨accepted, foreign, alive⟩
            split
            · rename_i kind
              exact data4_sound through kind
            · rename_i kind
              simp only [Classical.not_imp] at kind
              exact error4_sound through kind.1 kind.2

end

end Clatto.Xlate
