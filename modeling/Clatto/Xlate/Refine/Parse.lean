import Clatto.Xlate.Refine.View

/-! The parsers over buffers accept what the parsers over values accept, and
never leave the buffer. -/

namespace Clatto.Xlate

open Bytes Effect

/-- How `parseIPv4` answers for the value-level parser. A failure is only
reported for packets of the parser's own family. -/
def Parses4 (raw : Bytes) : Except Event Packet4 → Checked (Reason × Pkt) → Prop
  | .ok v, answer => ∃ p, answer = .ok (.none, p) ∧ View4 p v
  | .error e, answer => ∃ reason p, answer = .ok (reason, p) ∧ reason ≠ .none ∧
      (0 < raw.length → byteAt raw 0 >>> 4 = 4 → p.event .drop reason = .ok e)

theorem checkProto4_eq {p : Pkt} (long : 20 ≤ p.raw.length) :
    checkProto4 p = .ok (proto4Reason p.proto (be16 p.raw 6) p.data.length,
      if proto4Reason p.proto (be16 p.raw 6) p.data.length = .none ∧ p.proto = protoICMP
        then { p with icmp := some p.lo } else p) := by
  rw [checkProto4, ip4FlagsOff, uint16At_eq (by omega), Checked.ok_bind, proto4Reason]
  by_cases icmp : p.proto = protoICMP
  · simp only [icmp, if_true, and_true]
    split
    · simp [Checked.pure_eq]
    · split
      · simp [Checked.pure_eq]
      · rename_i enough
        rw [slice_eq (by omega) (by omega)]
        simp [Checked.pure_eq, Checked.ok_bind]
  · simp only [icmp, if_false, and_false, Checked.pure_eq]
    split
    · rfl
    · split
      · rfl
      · split <;> rfl

/-- The view `parseIPv4` builds when the fixed header is in order. -/
def view4 (raw : Bytes) : Pkt where
  raw := raw
  ip := some (headerLen4 raw)
  hdrLen := headerLen4 raw
  lo := headerLen4 raw
  hi := dataEnd4 raw
  proto := byteAt raw 9

theorem parseIPv4_eq {raw : Bytes} (long : 20 ≤ raw.length) :
    parseIPv4 { raw } =
      if badHeader4 raw then
        .ok (.ipHeaderInvalid, { raw, ip := some ipv4HdrLen, hdrLen := ipv4HdrLen })
      else checkProto4 (view4 raw) := by
  have enough : ¬ raw.length < ipv4HdrLen := Nat.not_lt.mpr long
  simp only [parseIPv4, enough, if_false]
  rw [index_eq (by omega), Checked.ok_bind, ip4TotalLen, uint16At_eq (by omega),
    Checked.ok_bind, slice_eq (by omega) (by omega), Checked.ok_bind,
    slice_eq (by omega) (by omega), Checked.ok_bind]
  by_cases bad : badHeader4 raw
  · rw [if_pos bad]
    exact if_pos bad
  · have bounds := headerLen4_bounds bad
    rw [if_neg bad]
    refine (if_neg bad).trans ?_
    change (slice raw 0 (headerLen4 raw) >>= fun _ =>
      slice raw (headerLen4 raw) (dataEnd4 raw) >>= fun _ => _) = _
    rw [slice_eq (by omega) (by omega), Checked.ok_bind, slice_eq (by omega) (by omega),
      Checked.ok_bind, index_eq (by omega), Checked.ok_bind]
    rfl

theorem view4_spells {raw : Bytes} (good : ¬ badHeader4 raw)
    (wide : 20 ≤ (raw.take (headerLen4 raw)).length)
    (icmp : byteAt (raw.take (headerLen4 raw)) 9 = protoICMP →
      8 ≤ (sub raw (headerLen4 raw) (dataEnd4 raw)).length) :
    View4 (if (view4 raw).proto = protoICMP then { view4 raw with icmp := some (view4 raw).lo }
        else view4 raw)
      ⟨raw.take (headerLen4 raw), sub raw (headerLen4 raw) (dataEnd4 raw), wide, icmp⟩ := by
  have bounds := headerLen4_bounds good
  have size : (raw.take (headerLen4 raw)).length = headerLen4 raw := by simp; omega
  have family : byteAt raw 0 >>> 4 = 4 := by
    simp only [badHeader4, not_or, not_not] at good
    exact good.1
  have proto : byteAt (raw.take (headerLen4 raw)) 9 = byteAt raw 9 := byteAt_take (by omega)
  have wire : raw.take (dataEnd4 raw) =
      raw.take (headerLen4 raw) ++ sub raw (headerLen4 raw) (dataEnd4 raw) := by
    rw [← Bytes.sub_zero, ← Bytes.sub_zero, sub_append_sub (by omega) (by omega)]
  by_cases isICMP : byteAt raw 9 = protoICMP
  · rw [if_pos (show (view4 raw).proto = protoICMP from isICMP)]
    exact ⟨congrArg some size.symm, size.symm, size.symm, bounds.2.2, wire, proto.symm,
      (if_pos (proto.trans isICMP)).symm, family⟩
  · rw [if_neg (show ¬ (view4 raw).proto = protoICMP from isICMP)]
    exact ⟨congrArg some size.symm, size.symm, size.symm, bounds.2.2, wire, proto.symm,
      (if_neg fun same => isICMP (proto.symm.trans same)).symm, family⟩

theorem parseIPv4_refines (raw : Bytes) : Parses4 raw (parse4 raw) (parseIPv4 { raw }) := by
  by_cases short : raw.length < ipv4HdrLen
  · simp only [parse4, parseIPv4, short, if_true, Checked.pure_eq]
    refine ⟨_, _, rfl, by decide, fun nonempty family => ?_⟩
    simp only [Pkt.event, Pkt.family, index_eq nonempty, Checked.ok_bind, Checked.pure_eq, family,
      if_true]
  have long : 20 ≤ raw.length := Nat.le_of_not_lt short
  rw [parseIPv4_eq long, parse4, if_neg short]
  by_cases bad : badHeader4 raw
  · rw [dif_pos bad, if_pos bad]
    refine ⟨_, _, rfl, by decide, fun _ family => ?_⟩
    rw [Pkt.event_four (p := { raw, ip := some ipv4HdrLen, hdrLen := ipv4HdrLen }) family rfl
      le_rfl long]
    simp [Pkt.ipBytes, Pkt.data, sub, List.take_take, ipv4HdrLen]
  · rw [dif_neg bad, if_neg bad, checkProto4_eq (p := view4 raw) long]
    have bounds := headerLen4_bounds bad
    dsimp only
    by_cases accepted : proto4Reason (byteAt raw 9) (be16 raw 6)
        (sub raw (headerLen4 raw) (dataEnd4 raw)).length = .none
    · rw [dif_pos accepted]
      have reason : proto4Reason (view4 raw).proto (be16 (view4 raw).raw 6)
        (view4 raw).data.length = .none := accepted
      simp only [reason, true_and]
      exact ⟨_, rfl, view4_spells bad _ _⟩
    · rw [dif_neg accepted]
      have reason : ¬ proto4Reason (view4 raw).proto (be16 (view4 raw).raw 6)
        (view4 raw).data.length = .none := accepted
      simp only [reason, false_and, if_false]
      refine ⟨_, _, rfl, accepted, fun _ family => ?_⟩
      rw [Pkt.event_four (p := view4 raw) (n := headerLen4 raw) family rfl bounds.1
        (bounds.2.1.trans bounds.2.2)]
      have src : min 16 (headerLen4 raw) = 16 := by omega
      have dst : min 20 (headerLen4 raw) = 20 := by omega
      simp [Pkt.ipBytes, view4, sub, List.take_take, Pkt.data, src, dst]

/-- How `parseIPv6` answers for the value-level parser. -/
def Parses6 (raw : Bytes) : Except Fail6 Packet6 → Checked (Reason × Nat × Bool × Pkt) → Prop
  | .ok v, answer => ∃ p, answer = .ok (.none, 0, false, p) ∧ View6 p v
  | .error .silent, answer => ∃ reason pointer p, answer = .ok (reason, pointer, true, p) ∧
      reason ≠ .none
  | .error (.drop e), answer => ∃ reason pointer p, answer = .ok (reason, pointer, false, p) ∧
      reason ≠ .none ∧ reason ≠ .routingHeaderSegmentsLeft ∧
      (0 < raw.length → byteAt raw 0 >>> 4 = 6 → p.event .drop reason = .ok e)
  | .error (.sourceRoute v pointer), answer => ∃ p,
      answer = .ok (.routingHeaderSegmentsLeft, pointer, false, p) ∧ View6 p v

/-- What the extension-header loop answers for the walk over values. -/
def scanAnswer : Except ExtScan ExtScan → Option Reason × ExtScan
  | .ok s => (none, s)
  | .error s => (some .extHeaderLength, s)

theorem scanExt_eq {raw : Bytes} {hi : Nat} (bounded : hi ≤ raw.length) {fuel : Nat} {s : ExtScan}
    (ordered : s.lo ≤ hi) (enough : hi - s.lo < fuel) :
    scanExt raw hi fuel s = .ok (scanAnswer (walk (raw.take hi) fuel s)) := by
  induction fuel generalizing s with
  | zero => omega
  | succ fuel ih =>
    have size : (raw.take hi).length = hi := by simp; omega
    have width : (sub raw s.lo hi).length = hi - s.lo := length_sub_of_le bounded _
    have read : ∀ {i}, i < hi - s.lo → byteAt (sub raw s.lo hi) i = byteAt (raw.take hi) (s.lo + i) :=
      fun {i} inside => by rw [byteAt_sub (by omega), byteAt_take (by omega)]
    rw [scanExt, walk]
    by_cases more : s.proto = 0 ∨ s.proto = 43 ∨ s.proto = 60
    · rw [if_pos more, if_pos more, slice_eq ordered bounded, Checked.ok_bind, width, size]
      by_cases two : hi - s.lo < 2
      · simp [two, Checked.pure_eq, scanAnswer]
      rw [if_neg two, index_eq (by omega), Checked.ok_bind, read (by omega)]
      dsimp only
      by_cases cut : hi - s.lo < ((byteAt (raw.take hi) (s.lo + 1)).toNat + 1) * 8
      · simp [two, cut, Checked.pure_eq, scanAnswer]
      · have fits : ¬ (hi - s.lo < 2 ∨
            hi - s.lo < ((byteAt (raw.take hi) (s.lo + 1)).toNat + 1) * 8) := by omega
        have next : slice (sub raw s.lo hi) (((byteAt (raw.take hi) (s.lo + 1)).toNat + 1) * 8)
            (hi - s.lo) = .ok _ := slice_eq (by omega) (by omega)
        have third : index (sub raw s.lo hi) 3 = .ok (byteAt (raw.take hi) (s.lo + 3)) := by
          rw [index_eq (by omega), read (by omega)]
        have first : index (sub raw s.lo hi) 0 = .ok (byteAt (raw.take hi) s.lo) := by
          rw [index_eq (by omega), read (by omega), Nat.add_zero]
        rw [if_neg cut, if_neg fits]
        split
        · simp only [third, first, next, Checked.ok_bind, Functor.map, Except.map]
          exact ih (by dsimp only; omega) (by dsimp only; omega)
        · simp only [first, next, Checked.ok_bind, Checked.pure_eq]
          exact ih (by dsimp only; omega) (by dsimp only; omega)
    · rw [if_neg more, if_neg more]
      rfl

theorem walk_bounds {b : Bytes} {fuel : Nat} {s s' : ExtScan} (inside : s.lo ≤ b.length)
    (counted : s.lo = ipv6HdrLen + s.hdrLen)
    (reached : walk b fuel s = .ok s' ∨ walk b fuel s = .error s') :
    s'.lo ≤ b.length ∧ s'.lo = ipv6HdrLen + s'.hdrLen := by
  induction fuel generalizing s with
  | zero =>
    rcases reached with reached | reached
    · cases reached
    · cases reached
      exact ⟨inside, counted⟩
  | succ fuel ih =>
    rw [walk] at reached
    by_cases more : s.proto = 0 ∨ s.proto = 43 ∨ s.proto = 60
    · rw [if_pos more] at reached
      dsimp only at reached
      split at reached
      · rcases reached with reached | reached
        · cases reached
        · cases reached
          exact ⟨inside, counted⟩
      · exact ih (by dsimp only; omega) (by dsimp only; omega) reached
    · rw [if_neg more] at reached
      rcases reached with reached | reached
      · cases reached
        exact ⟨inside, counted⟩
      · cases reached

/-- The view `parseIPv6` holds after the extension headers. -/
def view6 (raw : Bytes) (s : ExtScan) : Pkt where
  raw := raw
  ip := some ipv6HdrLen
  hdrLen := s.hdrLen
  lo := s.lo
  hi := dataEnd6 raw
  proto := s.proto

theorem dataEnd6_bounds {raw : Bytes} (long : 40 ≤ raw.length) :
    40 ≤ dataEnd6 raw ∧ dataEnd6 raw ≤ raw.length := by
  unfold dataEnd6 ipv6HdrLen
  split <;> omega

theorem parseIPv6_eq {raw : Bytes} (long : 40 ≤ raw.length) :
    parseIPv6 { raw } =
      if badHeader6 raw then
        .ok (.ipHeaderInvalid, 0, decide (byteAt raw 8 = 0xff ∨ byteAt raw 24 = 0xff),
          { raw, ip := some ipv6HdrLen })
      else
        match walk (raw.take (dataEnd6 raw)) (raw.length + 1) (startScan raw) with
        | .error s => .ok (.extHeaderLength, 0, false, view6 raw s)
        | .ok s => checkFrag6 (view6 raw s) s.segLeft s.segPtr := by
  have enough : ¬ raw.length < ipv6HdrLen := Nat.not_lt.mpr long
  have stop := dataEnd6_bounds long
  simp only [parseIPv6, enough, if_false]
  rw [slice_eq (by omega) (by simp only [ipv6HdrLen]; omega), Checked.ok_bind,
    index_eq (by omega), Checked.ok_bind, slice_eq (by omega) (by omega), Checked.ok_bind,
    slice_eq (by omega) (by omega), Checked.ok_bind]
  by_cases bad : badHeader6 raw
  · rw [if_pos bad]
    refine (if_pos bad).trans ?_
    rw [index_eq (by omega), Checked.ok_bind, index_eq (by omega), Checked.ok_bind]
    rfl
  · rw [if_neg bad]
    refine (if_neg bad).trans ?_
    rw [index_eq (by omega), Checked.ok_bind,
      slice_eq (by simp only [ipv6HdrLen]; omega) le_rfl, Checked.ok_bind, ip6PayloadLen,
      uint16At_eq (by omega), Checked.ok_bind, length_sub_of_le le_rfl]
    change (slice raw ipv6HdrLen (dataEnd6 raw) >>= fun _ =>
      scanExt raw (dataEnd6 raw) (raw.length + 1) (startScan raw) >>= _) = _
    rw [@slice_eq _ ipv6HdrLen _ stop.1 stop.2, Checked.ok_bind,
      scanExt_eq stop.2 (by exact stop.1) (by simp only [startScan, ipv6HdrLen]; omega),
      Checked.ok_bind]
    cases walk (raw.take (dataEnd6 raw)) (raw.length + 1) (startScan raw) with
    | error s => rfl
    | ok s => rfl

/-- The view with its ICMP slice set where the protocol has one. -/
def Pkt.markICMP (p : Pkt) : Pkt :=
  { p with icmp := if p.proto = protoICMPv6 then some p.lo else none }

theorem checkProto6_eq {p : Pkt} {offFlags : Nat} (unmarked : p.icmp = none)
    (read : p.offFlags = .ok offFlags) (segLeft segPtr : Nat) :
    checkProto6 p segLeft segPtr =
      if proto6Reason p.proto offFlags p.data.length = .none then
        if segLeft ≠ 0 then .ok (.routingHeaderSegmentsLeft, segPtr + 4, false, p.markICMP)
        else .ok (.none, 0, false, p.markICMP)
      else .ok (proto6Reason p.proto offFlags p.data.length, 0, false, p) := by
  rw [checkProto6, proto6Reason, read]
  by_cases icmp : p.proto = protoICMPv6
  · have marked : p.markICMP = { p with icmp := some p.lo } := by simp [Pkt.markICMP, icmp]
    simp only [icmp, if_true, Checked.ok_bind, Checked.pure_eq, marked]
    split
    · simp
    · split
      · simp
      · rename_i enough
        rw [slice_eq (by omega) (by omega), Checked.ok_bind]
        split <;> simp
  · have marked : p.markICMP = p := by simp [Pkt.markICMP, icmp, ← unmarked]
    simp only [icmp, if_false, Checked.pure_eq, marked]
    split
    · simp
    · split <;> simp

/-- A view of `parseIPv6` once the fixed header is in order: headers up to `lo`,
data up to the end of the payload. -/
structure Scanned (raw : Bytes) (q : Pkt) : Prop where
  same : q.raw = raw
  ip : q.ip = some ipv6HdrLen
  lo : q.lo = ipv6HdrLen + q.hdrLen
  hi : q.hi = dataEnd6 raw
  ordered : q.lo ≤ q.hi
  bounded : q.hi ≤ raw.length
  unmarked : q.icmp = none

theorem Scanned.length_data {raw : Bytes} {q : Pkt} (scanned : Scanned raw q) :
    ipv6HdrLen + q.hdrLen + q.data.length = dataEnd6 raw := by
  have width := Pkt.length_data (p := q) (scanned.same ▸ scanned.bounded)
  have := scanned.lo
  have := scanned.hi
  have := scanned.ordered
  omega

theorem Scanned.event {raw : Bytes} {q : Pkt} (scanned : Scanned raw q)
    (family : byteAt raw 0 >>> 4 = 6) (reason : Reason) :
    q.event .drop reason = .ok (dropEvent6 raw q.proto (dataEnd6 raw) reason) := by
  have long : ipv6HdrLen ≤ raw.length := by
    have := scanned.lo
    have := scanned.ordered
    have := scanned.bounded
    omega
  have header : q.ipBytes = raw.take 40 := by rw [Pkt.ipBytes, scanned.ip, scanned.same]; rfl
  rw [Pkt.event_six (scanned.same ▸ family) scanned.ip le_rfl (scanned.same ▸ long),
    scanned.length_data, header]
  simp [dropEvent6, sub, List.take_take]

def Pkt.pastFrag (q : Pkt) : Pkt :=
  { q with
    frag := some q.lo, proto := byteAt q.data 0, lo := q.lo + fragHdrLen
    hdrLen := q.hdrLen + fragHdrLen }

theorem Scanned.pastFrag {raw : Bytes} {q : Pkt} (scanned : Scanned raw q)
    (room : 8 ≤ q.data.length) : Scanned raw q.pastFrag where
  same := scanned.same
  ip := scanned.ip
  lo := by
    have := scanned.lo
    simp only [Pkt.pastFrag]
    omega
  hi := scanned.hi
  ordered := by
    have := Pkt.length_data (p := q) (scanned.same ▸ scanned.bounded)
    simp only [Pkt.pastFrag, fragHdrLen]
    omega
  bounded := scanned.bounded
  unmarked := scanned.unmarked

theorem Pkt.data_pastFrag (q : Pkt) : q.pastFrag.data = q.data.drop 8 := by
  change sub q.raw (q.lo + 8) q.hi = (sub q.raw q.lo q.hi).drop 8
  rw [sub, sub, List.drop_drop]

theorem Scanned.offFlags_pastFrag {raw : Bytes} {q : Pkt} (scanned : Scanned raw q)
    (room : 8 ≤ q.data.length) : q.pastFrag.offFlags = .ok (be16 (q.data.take 8) 2) := by
  have width := Pkt.length_data (p := q) (scanned.same ▸ scanned.bounded)
  have bounded : q.hi ≤ q.raw.length := scanned.same ▸ scanned.bounded
  have bytes : q.pastFrag.fragBytes = q.data.take 8 := by
    change sub q.raw q.lo (q.lo + 8) = _
    rw [Pkt.data, ← Bytes.sub_zero, Bytes.sub_sub (by omega)]
    rfl
  rw [Pkt.offFlags, if_pos (by simp [Pkt.pastFrag]), bytes, fragOffFlags,
    uint16At_eq (by simp; omega)]

theorem checkFrag6_eq (q : Pkt) (segLeft segPtr : Nat) :
    checkFrag6 q segLeft segPtr =
      match splitFrag q.proto q.data with
      | .error (_, reason) =>
        .ok (reason, 0, false, if q.data.length < fragHdrLen then q else q.pastFrag)
      | .ok _ => checkProto6 (if q.proto = protoFrag then q.pastFrag else q) segLeft segPtr := by
  unfold checkFrag6 splitFrag
  by_cases fragment : q.proto = protoFrag
  · simp only [fragment, if_true]
    by_cases short : q.data.length < fragHdrLen
    · simp only [short, if_true, dif_pos, Checked.pure_eq]
    · have room : fragHdrLen ≤ q.data.length := Nat.le_of_not_lt short
      have word : be16 (sub q.data 0 fragHdrLen) 2 = be16 q.data 2 := by
        rw [be16_sub (by simp only [fragHdrLen]; omega), Nat.zero_add]
      have next : byteAt (sub q.data 0 fragHdrLen) 0 = byteAt q.data 0 := by
        rw [byteAt_sub (by simp only [fragHdrLen]; omega), Nat.zero_add]
      have width : (sub q.data 0 fragHdrLen).length = 8 := length_sub_of_le room _
      simp only [short, if_false, dif_neg, not_false_eq_true]
      rw [slice_eq (Nat.zero_le _) room, Checked.ok_bind, index_eq (by omega), Checked.ok_bind,
        slice_eq room le_rfl, Checked.ok_bind, fragOffFlags, uint16At_eq (by omega),
        Checked.ok_bind, next, word, length_sub_of_le le_rfl]
      split
      · rfl
      · split
        · rfl
        · rfl
  · simp only [fragment, if_false]

/-- The view behind an optional fragment header, for the body it was split into. -/
structure BodyView (raw : Bytes) (q q' : Pkt) (body : Body6) : Prop where
  scanned : Scanned raw q'
  proto : q'.proto = body.proto
  data : q'.data = body.data
  offFlags : q'.offFlags = .ok (body.frag.elim 0 fun f => be16 f 2)
  frag : q'.frag = body.frag.map fun _ => q.lo
  hdrLen : q'.hdrLen = q.hdrLen + (body.frag.getD []).length
  split : q.data = body.frag.getD [] ++ body.data

theorem splitFrag_view {raw : Bytes} {q : Pkt} {body : Body6} (scanned : Scanned raw q)
    (plain : q.frag = none) (found : splitFrag q.proto q.data = .ok body) :
    BodyView raw q (if q.proto = protoFrag then q.pastFrag else q) body := by
  unfold splitFrag at found
  by_cases fragment : q.proto = protoFrag
  · rw [if_pos fragment] at found ⊢
    split at found
    · cases found
    · rename_i long
      have room : 8 ≤ q.data.length := Nat.le_of_not_lt long
      split at found
      · cases found
      · split at found
        · cases found
        · cases found
          exact {
            scanned := scanned.pastFrag room
            proto := rfl
            data := q.data_pastFrag
            offFlags := scanned.offFlags_pastFrag room
            frag := rfl
            hdrLen := by simp [Pkt.pastFrag, fragHdrLen]; omega
            split := (List.take_append_drop 8 q.data).symm }
  · rw [if_neg fragment] at found ⊢
    cases found
    exact {
      scanned := scanned
      proto := rfl
      data := rfl
      offFlags := by simp [Pkt.offFlags, plain, Checked.pure_eq]
      frag := plain
      hdrLen := rfl
      split := rfl }

theorem splitFrag_failure {raw : Bytes} {q : Pkt} {proto : UInt8} {reason : Reason}
    (scanned : Scanned raw q) (failed : splitFrag q.proto q.data = .error (proto, reason)) :
    Scanned raw (if q.data.length < fragHdrLen then q else q.pastFrag) ∧
      (if q.data.length < fragHdrLen then q else q.pastFrag).proto = proto ∧
      reason ≠ .none ∧ reason ≠ .routingHeaderSegmentsLeft := by
  unfold splitFrag at failed
  split at failed
  · split at failed
    · rename_i short
      cases failed
      rw [if_pos short]
      exact ⟨scanned, rfl, by decide, by decide⟩
    · rename_i long
      rw [if_neg long]
      have past := scanned.pastFrag (Nat.le_of_not_lt long)
      split at failed
      · cases failed
        exact ⟨past, rfl, by decide, by decide⟩
      · split at failed
        · cases failed
          exact ⟨past, rfl, by decide, by decide⟩
        · cases failed
  · cases failed

theorem proto6Reason_ne (proto : UInt8) (offFlags len : Nat) :
    proto6Reason proto offFlags len ≠ .routingHeaderSegmentsLeft := by
  unfold proto6Reason
  repeat' split
  all_goals decide

theorem view6_scanned {raw : Bytes} {s : ExtScan} (long : 40 ≤ raw.length)
    (reached : walk (raw.take (dataEnd6 raw)) (raw.length + 1) (startScan raw) = .ok s ∨
      walk (raw.take (dataEnd6 raw)) (raw.length + 1) (startScan raw) = .error s) :
    Scanned raw (view6 raw s) := by
  have stop := dataEnd6_bounds long
  have size : (raw.take (dataEnd6 raw)).length = dataEnd6 raw := by simp; omega
  have bounds := walk_bounds (s := startScan raw) (by rw [size]; exact stop.1) rfl reached
  exact ⟨rfl, rfl, bounds.2, rfl, bounds.1.trans size.le, stop.2, rfl⟩

theorem BodyView.spells {raw : Bytes} {s : ExtScan} {q' : Pkt} {body : Body6} {v : Packet6}
    (view : BodyView raw (view6 raw s) q' body) (scanned : Scanned raw (view6 raw s))
    (family : byteAt raw 0 >>> 4 = 6) (hdr : v.hdr = raw.take ipv6HdrLen)
    (ext : v.ext = sub raw ipv6HdrLen s.lo) (frag : v.frag = body.frag)
    (proto : v.proto = body.proto) (data : v.data = body.data) : View6 q'.markICMP v := by
  have lo : s.lo = ipv6HdrLen + s.hdrLen := scanned.lo
  have ordered : s.lo ≤ dataEnd6 raw := scanned.ordered
  have extSize : v.ext.length = s.hdrLen := by
    have := scanned.bounded
    rw [ext, length_sub_of_le (ordered.trans this)]
    omega
  have extLen : q'.hdrLen = v.extLen := by
    rw [view.hdrLen, Packet6.extLen, frag, extSize]
    rfl
  have wire : raw.take (dataEnd6 raw) = v.wire := by
    rw [Packet6.wire, hdr, ext, frag, data, ← view.split]
    change _ = _ ++ (sub raw ipv6HdrLen s.lo ++ sub raw s.lo (dataEnd6 raw))
    rw [sub_append_sub (by omega) ordered, ← Bytes.sub_zero, ← Bytes.sub_zero,
      sub_append_sub (by omega) (by omega)]
  exact {
    ip := view.scanned.ip
    hdrLen := extLen
    lo := view.scanned.lo.trans (by rw [extLen])
    hi := view.scanned.same ▸ view.scanned.bounded
    wire := by
      change q'.raw.take q'.hi = _
      rw [view.scanned.same, view.scanned.hi, wire]
    proto := view.proto.trans proto.symm
    frag := by
      change q'.frag = _
      rw [view.frag, frag, extSize, ← lo]
      rfl
    icmp := by
      change (if q'.proto = protoICMPv6 then some q'.lo else none) = _
      rw [view.proto, proto]
      rfl
    family := by
      change byteAt q'.raw 0 >>> 4 = 6
      rw [view.scanned.same, family] }

theorem parseIPv6_refines (raw : Bytes) : Parses6 raw (parse6 raw) (parseIPv6 { raw }) := by
  by_cases short : raw.length < ipv6HdrLen
  · simp only [parse6, parseIPv6, short, dif_pos, if_true, Checked.pure_eq]
    refine ⟨_, _, _, rfl, by decide, by decide, fun nonempty family => ?_⟩
    simp only [Pkt.event, Pkt.family, index_eq nonempty, Checked.ok_bind, Checked.pure_eq, family,
      if_true]
  have long : 40 ≤ raw.length := Nat.le_of_not_lt short
  rw [parseIPv6_eq long, parse6, dif_neg short]
  by_cases bad : badHeader6 raw
  · rw [if_pos bad, if_pos bad]
    by_cases multicast : byteAt raw 8 = 0xff ∨ byteAt raw 24 = 0xff
    · rw [if_pos multicast, decide_eq_true multicast]
      exact ⟨_, _, _, rfl, by decide⟩
    · rw [if_neg multicast, decide_eq_false multicast]
      refine ⟨_, _, _, rfl, by decide, by decide, fun _ family => ?_⟩
      rw [Pkt.event_six (p := { raw, ip := some ipv6HdrLen }) family rfl le_rfl long]
      simp [Pkt.ipBytes, Pkt.data, dropEvent6, sub, List.take_take, ipv6HdrLen]
  · have family : byteAt raw 0 >>> 4 = 6 := by
      simp only [badHeader6, not_or, not_not] at bad
      exact bad.1
    rw [if_neg bad, if_neg bad]
    dsimp only
    cases walked : walk (raw.take (dataEnd6 raw)) (raw.length + 1) (startScan raw) with
    | error s =>
      exact ⟨_, _, _, rfl, by decide, by decide,
        fun _ _ => (view6_scanned long (.inr walked)).event family _⟩
    | ok s =>
      have scanned := view6_scanned long (.inl walked)
      dsimp only
      rw [checkFrag6_eq]
      change Parses6 raw (match splitFrag (view6 raw s).proto (view6 raw s).data with
        | .error (proto, reason) => _ | .ok body => _) _
      cases split : splitFrag (view6 raw s).proto (view6 raw s).data with
      | error failure =>
        obtain ⟨scanned', proto, failed, other⟩ := splitFrag_failure scanned split
        exact ⟨_, _, _, rfl, failed, other, fun _ _ => proto ▸ scanned'.event family _⟩
      | ok body =>
        have view := splitFrag_view scanned rfl split
        dsimp only
        rw [checkProto6_eq view.scanned.unmarked view.offFlags, view.proto, view.data]
        by_cases accepted : proto6Reason body.proto (body.frag.elim 0 fun f => be16 f 2)
            body.data.length = .none
        · rw [dif_pos accepted, if_pos accepted]
          by_cases routed : s.segLeft ≠ 0
          · rw [if_pos routed, if_pos routed]
            exact ⟨_, rfl, view.spells scanned family rfl rfl rfl rfl rfl⟩
          · rw [if_neg routed, if_neg routed]
            exact ⟨_, rfl, view.spells scanned family rfl rfl rfl rfl rfl⟩
        · rw [dif_neg accepted, if_neg accepted]
          exact ⟨_, _, _, rfl, accepted, proto6Reason_ne _ _ _, fun _ _ =>
            view.proto ▸ view.scanned.event family _⟩

end Clatto.Xlate
