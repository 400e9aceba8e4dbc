import Clatto.Xlate.Reparse

/-! What is counted and what is reported, against what is sent. -/

namespace Clatto.Xlate

open Bytes Effect

variable {σ : Type}

/-- What the observer was told of translated packets. -/
def translations (acts : List Action) : List (UInt8 × Nat) :=
  acts.filterMap fun
    | .translated family length => some (family, length)
    | _ => none

@[simp] theorem translations_append (acts acts' : List Action) :
    translations (acts ++ acts') = translations acts ++ translations acts' :=
  List.filterMap_append

@[simp] theorem translations_packets (sent : List Bytes) :
    translations (sent.map .packet) = [] := by
  induction sent with
  | nil => rfl
  | cons b sent ih => exact ih

def version (b : Bytes) : UInt8 := byteAt b 0 >>> 4

/-- The total length that a packet says it has. -/
def declaredLength (raw : Bytes) : Nat :=
  if version raw = 4 then be16 raw 2 else ipv6HdrLen + be16 raw 4

def Crosses (raw q : Bytes) : Prop :=
  version raw = 4 ∧ version q = 6 ∨ version raw = 6 ∧ version q = 4

instance (raw q : Bytes) : Decidable (Crosses raw q) := inferInstanceAs (Decidable (_ ∨ _))

/-- An IPv6 packet from or to a multicast address. -/
def Multicast6 (raw : Bytes) : Prop :=
  version raw = 6 ∧ (byteAt raw 8 = 0xff ∨ byteAt raw 24 = 0xff)

/-- A packet is counted once when something of the other family was sent for it, and is
never passed over in silence. -/
structure Accounted (raw : Bytes) (acts : List Action) : Prop where
  counted : translations acts =
    if ∃ q ∈ packets acts, Crosses raw q then [(version raw, declaredLength raw)] else []
  noted : raw ≠ [] → packets acts = [] → (∃ e, .event e ∈ acts) ∨ Multicast6 raw

section

variable {env : Env σ} {t : Translator} {raw : Bytes} {acts : List Action}

theorem Accounted.of_translated {q : Bytes} {family : UInt8} {length : Nat}
    (sent : q ∈ packets acts) (crosses : Crosses raw q)
    (counted : translations acts = [(family, length)]) (same : version raw = family)
    (total : declaredLength raw = length) : Accounted raw acts where
  counted := by rw [counted, if_pos ⟨q, sent, crosses⟩, same, total]
  noted _ none := by
    rw [none] at sent
    cases sent

theorem Accounted.of_event {e : Event} (event : .event e ∈ acts) (counted : translations acts = [])
    (stays : ∀ q ∈ packets acts, ¬ Crosses raw q) : Accounted raw acts where
  counted := by
    rw [counted, if_neg]
    rintro ⟨q, sent, crosses⟩
    exact stays q sent crosses
  noted _ _ := .inl ⟨e, event⟩

theorem Accounted.reported (e : Event) : Accounted raw [.event e] :=
  .of_event (List.mem_singleton_self _) rfl fun q sent => by cases sent

/-- A translated ICMP error, perhaps with a source of the translator's own. -/
theorem Accounted.of_error {q : Bytes} {family : UInt8} {length : Nat} (crosses : Crosses raw q)
    (same : version raw = family) (total : declaredLength raw = length) (e : Event) (synth : Bool) :
    Accounted raw (synthesised e synth ++ [.packet q, .translated family length]) :=
  .of_translated (q := q) (by cases synth <;> exact List.mem_singleton_self q) crosses
    (by cases synth <;> rfl) same total

theorem accounted_answer {e : Event} {q : Bytes} (stays : ¬ Crosses raw q) :
    Accounted raw [.event e, .packet q] :=
  .of_event (List.mem_cons_self ..) rfl fun _ sent => List.mem_singleton.mp sent ▸ stays

theorem answered4 {e : Event} {q : Bytes} (four : version raw = 4) (same : version q = 4) :
    Accounted raw [.event e, .packet q] :=
  accounted_answer (by rintro (⟨-, other⟩ | ⟨other, -⟩) <;> simp_all)

theorem answered6 {e : Event} {q : Bytes} (six : version raw = 6) (same : version q = 6) :
    Accounted raw [.event e, .packet q] :=
  accounted_answer (by rintro (⟨other, -⟩ | ⟨-, other⟩) <;> simp_all)

theorem accounted_unmapped (e e' : Event) (synth : Bool) :
    Accounted raw (synthesised e synth ++ [.event e']) :=
  .of_event (List.mem_append_right _ (List.mem_singleton_self _)) (by cases synth <;> rfl)
    (by cases synth <;> nofun)

theorem declaredLength4 {p : Packet4} (found : parse4 raw = .ok p) (accepted : Accepted4 p) :
    declaredLength raw = p.size := by
  have parsed := parse4_ok found
  have four : version raw = 4 := parsed.version
  rw [declaredLength, if_pos four, accepted.size, Packet4.total, parsed.be16_hdr (by decide)]

theorem declaredLength6 {p : Packet6} (found : parse6 raw = .ok p) (accepted : Accepted6 p) :
    declaredLength raw = p.size := by
  have parsed := parse6_ok found
  have other : version raw ≠ 4 := by
    rw [version, parsed.version]
    decide
  rw [declaredLength, if_neg other, Packet6.size, Nat.add_assoc, accepted.length, Packet6.payloadLen,
    be16, be16, parsed.byteAt_hdr (by decide), parsed.byteAt_hdr (by decide)]

/-- A packet that is to be sent in fragments, although there is nothing to send or no room
for any of it. -/
structure Vanishes (t : Translator) (raw : Bytes) (p : Packet4) : Prop where
  found : parse4 raw = .ok p
  through : Through4 t p
  kind : p.proto = protoICMP → p.icmpType = 8 ∨ p.icmpType = 0
  fragmented : noFragHdr t p.flagsOff t.room p.hdr.length p.data.length = some false
  lost : p.data = [] ∨ t.fragRoom ≤ 0
  payload : ∃ src6 dst6 data, rewrite4to6 t.cfg.udpChecksum p src6 dst6 = .ok data

theorem fragments4to6_ne_nil {p : Packet4} {src6 dst6 data : Bytes} (some : data ≠ [])
    (room fuel off : Nat) : fragments4to6 p src6 dst6 room (fuel + 1) off data ≠ [] := by
  rw [fragments4to6, if_pos (List.length_pos_iff.mpr some)]
  exact List.cons_ne_nil _ _

theorem Trace4.accounted {p : Packet4} (found : parse4 raw = .ok p) (trace : Trace4 env t p acts)
    (willing : env.Willing) (stays : ¬ Vanishes t raw p) : Accounted raw acts := by
  have four : version raw = 4 := (parse4_ok found).version
  cases trace with
  | report kind reason => exact .reported _
  | complain => exact answered4 four (sealedIPv4Header_first ..)
  | echo => exact answered4 four (sealedIPv4Header_first ..)
  | @data src6 dst6 data forwarded whole fits sent done shape pieces all refused _ =>
    have width := length_rewrite4to6 forwarded.payload
    have enough : whole = false → p.data ≠ [] ∧ 0 < t.fragRoom := by
      rintro rfl
      by_contra lost
      rw [not_and_or, not_not, Int.not_lt] at lost
      exact stays ⟨found, forwarded.toThrough4, forwarded.kind, fits, lost, _, _, _,
        forwarded.payload⟩
    have roomy : t.Roomy whole := by
      cases whole with
      | true => exact .inl rfl
      | false => exact .inr (enough rfl).2
    have finished : done = true := by
      by_contra stopped
      exact refused roomy (Bool.eq_false_iff.mpr stopped) willing
    have every := all roomy finished
    obtain ⟨q, member⟩ : ∃ q, q ∈ sent := by
      refine List.exists_mem_of_ne_nil _ ?_
      rw [every]
      cases whole with
      | true => exact List.cons_ne_nil _ _
      | false =>
        have some : data ≠ [] := by
          rw [← List.length_pos_iff, width, List.length_pos_iff]
          exact (enough rfl).1
        exact fragments4to6_ne_nil some _ _ _
    have six : version q = 6 := version_pieces4to6 (every ▸ member)
    rw [finished]
    refine .of_translated (q := q) ?_ (.inl ⟨four, six⟩) ?_ four
      (declaredLength4 found forwarded.toAccepted4)
    · rw [packets_append, packets_map]
      exact List.mem_append_left _ member
    · rw [translations_append, translations_packets]
      rfl
  | error forwarded synth src dst =>
    exact .of_error (.inl ⟨four, ipv6Header_version ..⟩) four
      (declaredLength4 found forwarded.toAccepted4) _ synth
  | errorRefused synth refused => exact absurd willing refused
  | errorUnmapped synth => exact accounted_unmapped _ _ synth

theorem Trace6.accounted {p : Packet6} (found : parse6 raw = .ok p) (trace : Trace6 env t p acts)
    (willing : env.Willing) : Accounted raw acts := by
  have six : version raw = 6 := (parse6_ok found).version
  cases trace with
  | report kind reason => exact .reported _
  | complain => exact answered6 six (ipv6Header_version ..)
  | echo => exact answered6 six (ipv6Header_version ..)
  | data forwarded fragment =>
    exact .of_error (.inr ⟨six, sealedIPv4Header_first ..⟩) six
      (declaredLength6 found forwarded.toAccepted6) (p.event .drop .none) false
  | dataRefused refused => exact absurd willing refused
  | error forwarded synth src dst fragment =>
    exact .of_error (.inr ⟨six, sealedIPv4Header_first ..⟩) six
      (declaredLength6 found forwarded.toAccepted6) _ synth
  | errorRefused synth refused => exact absurd willing refused
  | errorUnmapped synth => exact accounted_unmapped _ _ synth

/-- A packet without a header of its own family is silently dropped for a multicast
address only. -/
theorem multicast_of_silent (version6 : version raw = 6) (failed : parse6 raw = .error .silent) :
    Multicast6 raw := by
  unfold parse6 at failed
  split at failed
  · cases failed
  split at failed
  · split at failed
    · rename_i multicast
      exact ⟨version6, multicast⟩
    · cases failed
  · dsimp only at failed
    split at failed
    · cases failed
    split at failed
    · cases failed
    split at failed
    · split at failed <;> cases failed
    · cases failed

theorem Handled.accounted (handled : Handled env t raw acts) (willing : env.Willing)
    (stays : ∀ p, ¬ Vanishes t raw p) : Accounted raw acts := by
  cases handled with
  | empty none =>
    exact ⟨by simp [translations, packets], fun some => absurd (List.length_eq_zero_iff.mp none) some⟩
  | unknown => exact .reported _
  | four _ _ handled =>
    cases handled with
    | unparsed => exact .reported _
    | parsed found trace => exact trace.accounted found willing (stays _)
  | six _ version handled =>
    cases handled with
    | silent failed =>
      exact ⟨by simp [translations, packets], fun _ _ => .inr (multicast_of_silent version failed)⟩
    | unparsed => exact .reported _
    | sourceRoute failed answer =>
      rcases answer with rfl | ⟨-, rfl⟩
      · exact .reported _
      · exact answered6 version (ipv6Header_version ..)
    | parsed found trace => exact trace.accounted found willing

theorem rewriteTransport_sums {mode : UDPChecksumMode} {proto : UInt8} {data out : Bytes}
    {pseudo remove add : UInt64}
    (done : rewriteTransport mode proto data pseudo remove add = .ok out)
    (pseudo' remove' add' : UInt64) :
    ∃ out', rewriteTransport mode proto data pseudo' remove' add' = .ok out' := by
  unfold rewriteTransport at done ⊢
  by_cases udp : proto = protoUDP
  · rw [if_pos udp] at done ⊢
    by_cases short : data.length < 8
    · rw [if_pos short] at done
      cases done
    rw [if_neg short] at done ⊢
    by_cases absent : be16 data 6 = 0
    · rw [if_pos absent] at done ⊢
      cases mode <;> simp only [fillChecksum] at done ⊢
      · cases done
      · exact ⟨_, rfl⟩
      · exact ⟨_, rfl⟩
    · rw [if_neg absent]
      exact ⟨_, rfl⟩
  · rw [if_neg udp] at done ⊢
    by_cases tcp : proto = protoTCP
    · rw [if_pos tcp] at done ⊢
      by_cases short : data.length < 20
      · rw [if_pos short] at done
        cases done
      · rw [if_neg short]
        exact ⟨_, rfl⟩
    · rw [if_neg tcp]
      exact ⟨_, rfl⟩

/-- Whether a payload can be rewritten does not depend on the new addresses. -/
theorem rewrite4to6_addresses {mode : UDPChecksumMode} {p : Packet4} {src6 dst6 data : Bytes}
    (payload : rewrite4to6 mode p src6 dst6 = .ok data) (src6' dst6' : Bytes) :
    ∃ data', rewrite4to6 mode p src6' dst6' = .ok data' := by
  unfold rewrite4to6 at payload ⊢
  by_cases later : p.flagsOff &&& ip4OffMask ≠ 0
  · rw [if_pos later]
    exact ⟨_, rfl⟩
  rw [if_neg later] at payload ⊢
  by_cases icmp : p.proto = protoICMP
  · rw [if_pos icmp]
    exact ⟨_, rfl⟩
  · rw [if_neg icmp] at payload ⊢
    exact rewriteTransport_sums payload _ _ _

theorem Vanishes.data4 {p : Packet4} (lost : Vanishes t raw p) {src6 dst6 : Bytes}
    (dst : ∀ w, (env.to6 p.dst w).1 = .ok dst6) (src : ∀ w, (env.to6 p.src w).1 = .ok src6) :
    (data4 env t p).Meets fun acts _ => acts = [.translated 4 p.size] ∨
      ∃ sent : List Bytes, acts = sent.map .packet ∧ ∀ q ∈ sent, version q = 6 := by
  obtain ⟨_, _, _, payload⟩ := lost.payload
  obtain ⟨data, payload⟩ := rewrite4to6_addresses payload src6 dst6
  have width := length_rewrite4to6 payload
  refine meets_ask_bind fun w => ?_
  rw [dst w]
  refine meets_ask_bind fun w' => ?_
  rw [src w']
  dsimp only
  rw [forward4, lost.fragmented, payload]
  refine meets_bind ?_
  rw [if_neg (by decide)]
  by_cases some : 0 < data.length
  · have none : t.fragRoom ≤ 0 := lost.lost.resolve_left fun empty => by
      rw [width, empty] at some
      cases some
    refine ((sendFragments_shape (fragRoom_mod t)).and (sendFragments_stuck none some)).mono ?_
    rintro acts result ⟨⟨sent, rfl, shape⟩, stuck⟩
    have six (q : Bytes) (member : q ∈ sent) : version q = 6 := by
      obtain ⟨k, -, -, rfl⟩ := shape q member
      exact ipv6Header_version ..
    rcases result with fault | _ | _
    · exact .inr ⟨sent, rfl, six⟩
    · exact meets_pure (.inr ⟨sent, by simp, six⟩)
    · exact absurd rfl stuck
  · rw [sendFragments, if_neg some]
    exact meets_pure (meets_act (.inl rfl))

theorem not_accounted {p : Packet4} (lost : Vanishes t raw p) :
    ¬ Accounted raw (translate Env.constant t raw ()).acts := by
  have parsed := parse4_ok lost.found
  have four : version raw = 4 := parsed.version
  have nonempty : raw ≠ [] := by
    rintro rfl
    cases parsed.long
  rw [translate_through4 lost.found lost.through lost.kind]
  have run : (data4 Env.constant t p).Meets _ := lost.data4 (fun _ => rfl) (fun _ => rfl)
  rcases run () with counted | ⟨sent, silent, six⟩
  · rw [counted]
    intro accounted
    have none := accounted.counted
    rw [if_neg (by rintro ⟨q, member, -⟩; cases member)] at none
    cases none
  · rw [silent]
    intro accounted
    cases sent with
    | nil =>
      rcases accounted.noted nonempty rfl with ⟨e, member⟩ | ⟨other, -⟩
      · cases member
      · cases four.symm.trans other
    | cons q sent =>
      have count := accounted.counted
      rw [translations_packets, packets_map,
        if_pos ⟨q, List.mem_cons_self .., .inl ⟨four, six q (List.mem_cons_self ..)⟩⟩] at count
      cases count

end

/-- What is counted and reported is what was sent, except for a packet that is to be sent
in fragments of which there are none. -/
theorem accounted_iff (t : Translator) (raw : Bytes) :
    (∀ {σ : Type} (env : Env σ) (w : σ), env.Willing → Accounted raw (translate env t raw w).acts) ↔
      ∀ p, ¬ Vanishes t raw p := by
  constructor
  · exact fun accounted p lost => not_accounted lost (accounted Env.constant () Env.constant_willing)
  · exact fun stays σ env w willing => (translate_sound env t raw w).1.accounted willing stays

/-- The last fragment of a datagram, without any data in it. -/
def emptyFragment : Bytes :=
  [69, 0, 0, 20, 0, 7, 0, 1, 64, 17, 142, 123, 198, 51, 100, 1, 192, 0, 2, 33]

/-- It is counted, but nothing is sent and nothing is reported. -/
theorem emptyFragment_vanishes : Env.constant.Willing ∧
    (translate Env.constant (.sample 1500 .calc) emptyFragment ()).acts = [.translated 4 20] ∧
    ¬ Accounted emptyFragment [.translated 4 20] := by
  refine ⟨Env.constant_willing, by decide +kernel, fun accounted => ?_⟩
  have none := accounted.counted
  rw [if_neg (by rintro ⟨q, member, -⟩; cases member)] at none
  cases none

end Clatto.Xlate
