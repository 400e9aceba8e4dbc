import Clatto.Xlate.Refine.Parse

/-! Source routing. The loop over the extension headers remembers the Segments Left field
of the last routing header only. -/

namespace Clatto.Xlate

open Bytes

/-- An extension header of a packet: which one it is, and where it stands. -/
structure ExtHeader where
  proto : UInt8
  off : Nat
  deriving DecidableEq

namespace ExtHeader

/-- The length of the header at an offset. -/
def lengthAt (b : Bytes) (off : Nat) : Nat := ((byteAt b (off + 1)).toNat + 1) * 8

variable (b : Bytes) (h : ExtHeader)

def segmentsLeft : Nat := (byteAt b (h.off + 3)).toNat

/-- Whether a header asks for the packet to be routed further. -/
def Routes : Prop := h.proto = 43 ∧ h.segmentsLeft b ≠ 0

instance : Decidable (h.Routes b) := inferInstanceAs (Decidable (_ ∧ _))

end ExtHeader

/-- The extension headers from an offset on, up to the first that is none of them. -/
inductive Chain (b : Bytes) : UInt8 → Nat → List ExtHeader → UInt8 → Nat → Prop
  | done {proto : UInt8} {lo : Nat} (other : ¬ (proto = 0 ∨ proto = 43 ∨ proto = 60)) :
      Chain b proto lo [] proto lo
  | more {proto next : UInt8} {lo stop : Nat} {hs : List ExtHeader}
      (ext : proto = 0 ∨ proto = 43 ∨ proto = 60)
      (fits : lo + ExtHeader.lengthAt b lo ≤ b.length)
      (rest : Chain b (byteAt b lo) (lo + ExtHeader.lengthAt b lo) hs next stop) :
      Chain b proto lo (⟨proto, lo⟩ :: hs) next stop

namespace Chain

variable {b : Bytes} {proto next : UInt8} {lo stop : Nat} {hs : List ExtHeader}

theorem step {proto' : UInt8} {lo' : Nat} (ext : proto = 0 ∨ proto = 43 ∨ proto = 60)
    (first : byteAt b lo = proto') (size : lo + ExtHeader.lengthAt b lo = lo')
    (fits : lo' ≤ b.length) (rest : Chain b proto' lo' hs next stop) :
    Chain b proto lo (⟨proto, lo⟩ :: hs) next stop := by
  subst first size
  exact .more ext fits rest

theorem length_le (chain : Chain b proto lo hs next stop) : hs.length ≤ b.length - lo := by
  induction chain with
  | done => simp
  | more _ fits _ ih =>
    unfold ExtHeader.lengthAt at fits ih
    simp only [List.length_cons]
    omega

def visit (b : Bytes) (s : ExtScan) (h : ExtHeader) : ExtScan :=
  let hl := ExtHeader.lengthAt b h.off
  let segLeft := if h.proto = 43 then h.segmentsLeft b else s.segLeft
  { proto := byteAt b h.off, lo := h.off + hl, hdrLen := s.hdrLen + hl, segLeft
    segPtr := if segLeft = 0 then s.segPtr + hl else s.segPtr }

theorem walk_eq (chain : Chain b proto lo hs next stop) {s : ExtScan} {fuel : Nat}
    (here : s.proto = proto ∧ s.lo = lo) (enough : hs.length < fuel) :
    walk b fuel s = .ok (hs.foldl (visit b) s) := by
  induction chain generalizing s fuel with
  | done other =>
    obtain ⟨rfl, rfl⟩ := here
    obtain ⟨fuel, rfl⟩ := Nat.exists_eq_succ_of_ne_zero (Nat.ne_of_gt enough)
    rw [walk, if_neg other]
    rfl
  | more ext fits rest ih =>
    obtain ⟨rfl, rfl⟩ := here
    obtain ⟨fuel, rfl⟩ := Nat.exists_eq_succ_of_ne_zero (Nat.ne_of_gt (Nat.zero_lt_of_lt enough))
    have room : ¬ (b.length - s.lo < 2 ∨
        b.length - s.lo < ((byteAt b (s.lo + 1)).toNat + 1) * 8) := by
      unfold ExtHeader.lengthAt at fits
      omega
    rw [walk, if_pos ext]
    dsimp only
    rw [if_neg room]
    exact ih ⟨rfl, rfl⟩ (Nat.lt_of_succ_lt_succ enough)

theorem foldl_visit (chain : Chain b proto lo hs next stop) {s : ExtScan}
    (here : s.proto = proto ∧ s.lo = lo) :
    (hs.foldl (visit b) s).proto = next ∧ (hs.foldl (visit b) s).lo = stop := by
  induction chain generalizing s with
  | done => exact here
  | more _ _ _ ih => exact ih ⟨rfl, rfl⟩

theorem segLeft_foldl (s : ExtScan) : (hs.foldl (visit b) s).segLeft =
    (hs.filter fun h => h.proto = 43).getLast?.elim s.segLeft (ExtHeader.segmentsLeft b) := by
  induction hs using List.reverseRecOn with
  | nil => rfl
  | append_singleton hs h ih =>
    rw [List.foldl_append, List.foldl_cons, List.foldl_nil, List.filter_append]
    by_cases routing : h.proto = 43
    · simp [visit, routing]
    · simp [visit, routing, ih]

theorem segPtr_foldl {s : ExtScan} (aligned : 8 ∣ s.segPtr) : 8 ∣ (hs.foldl (visit b) s).segPtr := by
  induction hs generalizing s with
  | nil => exact aligned
  | cons h hs ih =>
    refine ih ?_
    dsimp only [visit]
    generalize (if h.proto = 43 then h.segmentsLeft b else s.segLeft) = left
    split
    · exact Nat.dvd_add aligned (Nat.dvd_mul_left 8 _)
    · exact aligned

theorem off_aligned (chain : Chain b proto lo hs next stop) (aligned : 8 ∣ lo) {h : ExtHeader}
    (member : h ∈ hs) : 8 ∣ h.off := by
  induction chain with
  | done => cases member
  | more _ _ _ ih =>
    rcases List.mem_cons.mp member with rfl | member
    · exact aligned
    · exact ih (Nat.dvd_add aligned (Nat.dvd_mul_left 8 _)) member

end Chain

/-- A packet without anything past its payload length. -/
def payload6 (raw : Bytes) : Bytes := raw.take (dataEnd6 raw)

/-- A packet with a chain of extension headers in which nothing but source routing could
be objected to. -/
structure WellFormed6 (raw : Bytes) (hs : List ExtHeader) (next : UInt8) (stop : Nat) : Prop where
  long : 40 ≤ raw.length
  header : ¬ badHeader6 raw
  chain : Chain (payload6 raw) (byteAt raw 6) 40 hs next stop
  body : ∃ body, splitFrag next (sub raw stop (dataEnd6 raw)) = .ok body ∧
    proto6Reason body.proto (body.frag.elim 0 fun f => be16 f 2) body.data.length = .none

theorem WellFormed6.parseIPv6 {raw : Bytes} {hs : List ExtHeader} {next : UInt8} {stop : Nat}
    (ok : WellFormed6 raw hs next stop) :
    ∃ p, parseIPv6 { raw } =
      if (hs.foldl (Chain.visit (payload6 raw)) (startScan raw)).segLeft = 0 then
        .ok (.none, 0, false, p)
      else .ok (.routingHeaderSegmentsLeft,
        (hs.foldl (Chain.visit (payload6 raw)) (startScan raw)).segPtr + 4, false, p) := by
  obtain ⟨body, splits, accepted⟩ := ok.body
  have size := ok.chain.length_le
  have enough : hs.length < raw.length + 1 := by
    simp only [payload6, List.length_take] at size
    omega
  have walked := ok.chain.walk_eq (s := startScan raw) ⟨rfl, rfl⟩ enough
  obtain ⟨proto, lo⟩ := ok.chain.foldl_visit (s := startScan raw) ⟨rfl, rfl⟩
  have refines := parseIPv6_refines raw
  have long : ¬ raw.length < ipv6HdrLen := Nat.not_lt.mpr ok.long
  generalize hs.foldl (Chain.visit (payload6 raw)) (startScan raw) = s at walked proto lo ⊢
  subst proto lo
  unfold payload6 at walked
  simp only [parse6, dif_neg long, if_neg ok.header, walked, splits, dif_pos accepted] at refines
  by_cases left : s.segLeft = 0
  · rw [if_neg (not_not.mpr left)] at refines
    obtain ⟨p, parsed, -⟩ := refines
    exact ⟨p, by rw [if_pos left, parsed]⟩
  · rw [if_pos left] at refines
    obtain ⟨p, parsed, -⟩ := refines
    exact ⟨p, by rw [if_neg left, parsed]⟩

/-- `parseIPv6` refuses source routing, and points to the Segments Left field of the
first header that asks for it. -/
def RefusesRouting (raw : Bytes) (hs : List ExtHeader) : Prop :=
  ∃ reason pointer silent p, parseIPv6 { raw } = .ok (reason, pointer, silent, p) ∧
    (reason = .none ↔ ∀ h ∈ hs, ¬ h.Routes (payload6 raw)) ∧
    ∀ h, hs.find? (fun h => h.Routes (payload6 raw)) = some h →
      reason = .routingHeaderSegmentsLeft ∧ pointer = h.off + 3

/-- Source routing is not refused as it should be: the last routing header decides whether
it is refused, and the pointer is the one of the byte behind. -/
theorem refusesRouting_iff {raw : Bytes} {hs : List ExtHeader} {next : UInt8} {stop : Nat}
    (ok : WellFormed6 raw hs next stop) :
    RefusesRouting raw hs ↔ ∀ h ∈ hs, ¬ h.Routes (payload6 raw) := by
  obtain ⟨p, parsed⟩ := ok.parseIPv6
  constructor
  · rintro ⟨reason, pointer, silent, q, answer, none, first⟩ h member routes
    cases found : hs.find? fun h => h.Routes (payload6 raw) with
    | none =>
      rw [List.find?_eq_none] at found
      exact found h member (decide_eq_true routes)
    | some o =>
      obtain ⟨refused, place⟩ := first o found
      have aligned := Nat.mod_eq_zero_of_dvd
        (ok.chain.off_aligned ⟨5, rfl⟩ (List.mem_of_find?_eq_some found))
      have aligned' := Nat.mod_eq_zero_of_dvd
        (@Chain.segPtr_foldl (payload6 raw) hs (startScan raw) ⟨5, rfl⟩)
      rw [answer] at parsed
      split at parsed <;> cases parsed
      · cases refused
      · omega
  · intro none
    have left : (hs.foldl (Chain.visit (payload6 raw)) (startScan raw)).segLeft = 0 := by
      rw [Chain.segLeft_foldl]
      cases last : (hs.filter fun h => h.proto = 43).getLast? with
      | none => rfl
      | some h =>
        obtain ⟨member, routing⟩ := List.mem_filter.mp (List.mem_of_getLast? last)
        by_contra some
        exact none h member ⟨of_decide_eq_true routing, some⟩
    rw [if_pos left] at parsed
    refine ⟨_, _, _, p, parsed, iff_of_true rfl none, fun h found => ?_⟩
    have routes := List.find?_some found
    exact absurd (of_decide_eq_true routes) (none h (List.mem_of_find?_eq_some found))

/-- A UDP packet from one host to another behind extension headers. -/
def chainSample (first : UInt8) (headers : Bytes) : Bytes :=
  [0x60, 0, 0, 0, 0, UInt8.ofNat (headers.length + 8), first, 64] ++
    [0x20, 1, 0xd, 0xb8, 0, 0, 0, 0, 0, 0, 0, 0, 0, 0, 0, 1] ++
    [0x20, 1, 0xd, 0xb8, 0, 0, 0, 0, 0, 0, 0, 0, 0, 0, 0, 2] ++ headers ++ [0, 1, 0, 2, 0, 8, 0, 0]

/-- Hop-by-hop options, and a routing header that the packet has come to the end of. -/
def arrivedSample : Bytes := chainSample 0 [43, 0, 1, 4, 0, 0, 0, 0, 17, 0, 0, 0, 0, 0, 0, 0]

theorem refusesRouting_iff_arrived : RefusesRouting arrivedSample [⟨0, 40⟩, ⟨43, 48⟩] := by
  have last : Chain (payload6 arrivedSample) 43 48 [⟨43, 48⟩] 17 56 := by
    refine .step (by decide) ?_ ?_ ?_ (.done (by decide)) <;> decide +kernel
  have chain : Chain (payload6 arrivedSample) 0 40 [⟨0, 40⟩, ⟨43, 48⟩] 17 56 := by
    refine .step (by decide) ?_ ?_ ?_ last <;> decide +kernel
  refine (refusesRouting_iff ⟨by decide, by decide +kernel, chain, ?_⟩).mpr (by decide +kernel)
  exact ⟨_, rfl, by decide +kernel⟩

/-- A packet that is still to be routed by its first routing header, but has come to the
end of the second. -/
def routedSample : Bytes := chainSample 43 [43, 0, 0, 1, 0, 0, 0, 0, 17, 0, 0, 0, 0, 0, 0, 0]

theorem routedSample_accepted : WellFormed6 routedSample [⟨43, 40⟩, ⟨43, 48⟩] 17 56 ∧
    ExtHeader.Routes (payload6 routedSample) ⟨43, 40⟩ ∧
    ∃ p, parseIPv6 { raw := routedSample } = .ok (.none, 0, false, p) := by
  have last : Chain (payload6 routedSample) 43 48 [⟨43, 48⟩] 17 56 := by
    refine .step (by decide) ?_ ?_ ?_ (.done (by decide)) <;> decide +kernel
  have chain : Chain (payload6 routedSample) 43 40 [⟨43, 40⟩, ⟨43, 48⟩] 17 56 := by
    refine .step (by decide) ?_ ?_ ?_ last <;> decide +kernel
  have ok : WellFormed6 routedSample [⟨43, 40⟩, ⟨43, 48⟩] 17 56 :=
    ⟨by decide, by decide +kernel, chain, _, rfl, by decide +kernel⟩
  obtain ⟨p, parsed⟩ := ok.parseIPv6
  rw [if_pos (by decide +kernel)] at parsed
  exact ⟨ok, by decide +kernel, p, parsed⟩

end Clatto.Xlate
