import Clatto.Xlate.Stale

/-! What a call of the translator leaves alone, and the only packets for which it asks its
mapper to allocate an address. -/

namespace Clatto.Xlate

open Bytes Effect

variable {σ : Type}

/-- Surroundings in which no question makes a property false. -/
structure Env.Keeps (env : Env σ) (Inv : σ → Prop) : Prop where
  to6 : ∀ a w, Inv w → Inv (env.mapIPv4ToIPv6 a w).2
  to4 : ∀ a allocate w, Inv w → Inv (env.mapIPv6ToIPv4 a allocate w).2
  packet : ∀ n w, Inv w → Inv (env.packet n w).2
  ident : ∀ w, Inv w → Inv (env.randomIdent w).2

/-- The same surroundings, with a mapper that does not allocate. -/
def Env.frugal (env : Env σ) : Env σ where
  mapIPv4ToIPv6 := env.mapIPv4ToIPv6
  mapIPv6ToIPv4 a _ := env.mapIPv6ToIPv4 a false
  packet := env.packet
  randomIdent := env.randomIdent
  packet_length := env.packet_length

namespace Env.Keeps

variable {env : Env σ} {Inv : σ → Prop} (keeps : env.Keeps Inv)

include keeps

theorem alike : env.Alike env fun w w' => w = w' ∧ Inv w where
  to6 := by
    rintro a w _ ⟨rfl, holds⟩
    exact ⟨rfl, rfl, keeps.to6 a w holds⟩
  to4 := by
    rintro a allocate w _ ⟨rfl, holds⟩
    exact ⟨rfl, rfl, keeps.to4 a allocate w holds⟩
  packet := by
    rintro n w _ ⟨rfl, holds⟩
    exact ⟨Iff.rfl, rfl, keeps.packet n w holds⟩
  ident := by
    rintro w _ ⟨rfl, holds⟩
    exact ⟨rfl, rfl, keeps.ident w holds⟩

theorem translate {w : σ} (holds : Inv w) (t : Translator) (raw : Bytes) :
    Inv (Xlate.translate env t raw w).world :=
  (keeps.alike.translate t raw w w ⟨rfl, holds⟩).2.2.2

theorem maps6 {w : σ} (holds : Inv w) (a : Bytes) : Inv (env.to6 a w).2 :=
  (keeps.alike.maps6 a w w ⟨rfl, holds⟩).2.2

theorem maps4 {w : σ} (holds : Inv w) (allocate : Bool) (a : Bytes) :
    Inv (env.to4 allocate a w).2 :=
  (keeps.alike.maps4 allocate a w w ⟨rfl, holds⟩).2.2

end Env.Keeps

theorem Env.to4_world (env : Env σ) (allocate : Bool) (a : Bytes) (w : σ) :
    (env.to4 allocate a w).2 = (env.mapIPv6ToIPv4 (.from16 a) allocate w).2 := by
  unfold Env.to4
  split <;> rename_i answered <;> rw [answered]

theorem Env.to4_answer {env : Env σ} {allocate : Bool} {a b : Bytes} {w : σ}
    (answered : (env.to4 allocate a w).1 = .ok b) :
    ∃ bits, (env.mapIPv6ToIPv4 (.from16 a) allocate w).1 = .ok (.v4 bits) := by
  unfold Env.to4 at answered
  split at answered
  · cases answered
  · rename_i bits _ found
    exact ⟨bits, by rw [found]⟩
  · cases answered

/-- A packet from IPv6 that is not an error, arrives intact, is for somebody else and may go
one hop further. -/
structure Deliverable (t : Translator) (raw : Bytes) (p : Packet6) : Prop where
  version : byteAt raw 0 >>> 4 = 6
  parsed : parse6 raw = .ok p
  whole : p.extLen + p.data.length = p.payloadLen
  intact : p.proto = protoICMPv6 →
    verify p.data (pseudo6 p.src p.dst p.data.length protoICMPv6) = true
  away : p.dst ≠ t.local6
  hop : 2 ≤ p.hop.toNat
  noError : p.proto = protoICMPv6 → p.icmpType = 128 ∨ p.icmpType = 129

variable {env : Env σ} {t : Translator} {raw : Bytes}

theorem sendFragments_frugal {room : Int} {p : Packet4} {src6 dst6 : Bytes} {fuel off : Nat}
    {data : Bytes} : sendFragments env.frugal room p src6 dst6 fuel off data =
      sendFragments env room p src6 dst6 fuel off data := by
  induction fuel generalizing off data with
  | zero => rfl
  | succ fuel ih =>
    simp only [sendFragments, ih]
    rfl

theorem receive4_frugal : receive4 env t raw = receive4 env.frugal t raw := by
  have forwards (p : Packet4) (src6 dst6 : Bytes) :
      forward4 env.frugal t p src6 dst6 = forward4 env t p src6 dst6 := by
    simp only [forward4, sendFragments_frugal]
    rfl
  have data (p : Packet4) : data4 env.frugal t p = data4 env t p := by
    simp only [data4, forwards]
    rfl
  simp only [receive4, data]
  rfl

theorem translate_frugal (env : Env σ) (t : Translator) (raw : Bytes) :
    translate env t raw = translate env.frugal t raw ∨
      ∃ p, Deliverable t raw p ∧ translate env t raw = data6 env t p := by
  rw [translate_eq, translate_eq, receive, receive]
  split
  · exact .inl rfl
  split
  · exact .inl receive4_frugal
  split
  swap
  · exact .inl rfl
  rename_i version
  rw [receive6, receive6]
  split
  · exact .inl rfl
  · exact .inl rfl
  · exact .inl rfl
  rename_i p parsed
  split
  · exact .inl rfl
  rename_i good
  split
  · exact .inl rfl
  rename_i intact
  split
  · exact .inl rfl
  rename_i away
  split
  · exact .inl rfl
  rename_i far
  split
  swap
  · exact .inl rfl
  rename_i noError
  push Not at good intact
  refine .inr ⟨p, ⟨version, parsed, good.2, ?_, away, ?_, noError⟩, rfl⟩
  · exact fun icmp => by simpa using intact icmp
  · have none : p.hop.toNat ≠ 0 := fun zero => good.1 (UInt8.toNat_inj.mp zero)
    have one : p.hop.toNat ≠ 1 := fun one => far (UInt8.toNat_inj.mp one)
    omega

theorem data6_of_dst {p : Packet6} {err : MapError} {w : σ}
    (dst : (env.to4 false p.dst w).1 = .error err) :
    data6 env t p w =
      unmapped6 env t err .destinationUnmappable 0 p (env.to4 false p.dst w).2 := by
  rw [data6, bind_run, ask_run]
  simp only [dst]
  rfl

theorem data6_of_src {p : Packet6} {dst4 : Bytes} {err : MapError} {w : σ}
    (dst : (env.to4 false p.dst w).1 = .ok dst4)
    (src : (env.to4 true p.src (env.to4 false p.dst w).2).1 = .error err) :
    data6 env t p w = unmapped6 env t err .sourceUnmappable 5 p
      (env.to4 true p.src (env.to4 false p.dst w).2).2 := by
  rw [data6, bind_run, ask_run]
  simp only [dst]
  rw [bind_run, ask_run]
  simp only [src]
  rfl

theorem data6_run {p : Packet6} {src4 dst4 : Bytes} {w : σ}
    (dst : (env.to4 false p.dst w).1 = .ok dst4)
    (src : (env.to4 true p.src (env.to4 false p.dst w).2).1 = .ok src4) :
    data6 env t p w =
      forward6 env t p src4 dst4 (env.to4 true p.src (env.to4 false p.dst w).2).2 := by
  rw [data6, bind_run, ask_run]
  simp only [dst]
  rw [bind_run, ask_run]
  simp only [src]
  rfl

/-- What questions without an allocation keep is kept, until the mapper is asked for the source
of a packet whose destination it has mapped. -/
theorem translate_keeps {Inv : σ → Prop} (keeps : env.frugal.Keeps Inv) {w : σ} (holds : Inv w)
    (t : Translator) (raw : Bytes) :
    Inv (translate env t raw w).world ∨
      ∃ p dst4, Deliverable t raw p ∧ (env.to4 false p.dst w).1 = .ok dst4 ∧
        ∀ After : σ → Prop, env.frugal.Keeps After →
          After (env.to4 true p.src (env.to4 false p.dst w).2).2 →
          After (translate env t raw w).world := by
  rcases translate_frugal env t raw with same | ⟨p, deliverable, same⟩
  · rw [same]
    exact .inl (keeps.translate holds t raw)
  rw [same]
  have asked : Inv (env.to4 false p.dst w).2 := keeps.maps4 holds false p.dst
  cases found : (env.to4 false p.dst w).1 with
  | error err =>
    rw [data6_of_dst found]
    exact .inl (keeps.alike.unmapped6 _ _ ⟨rfl, asked⟩).2.2.2
  | ok dst4 =>
    refine .inr ⟨p, dst4, deliverable, found, fun After kept after => ?_⟩
    cases found' : (env.to4 true p.src (env.to4 false p.dst w).2).1 with
    | error err =>
      rw [data6_of_src found found']
      exact (kept.alike.unmapped6 _ _ ⟨rfl, after⟩).2.2.2
    | ok src4 =>
      rw [data6_run found found']
      exact (kept.alike.forward6 _ _ ⟨rfl, after⟩).2.2.2

end Clatto.Xlate
