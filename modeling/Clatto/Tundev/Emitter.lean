import Clatto.Lib.Slab
import Clatto.Xlate.Requests

/-! The output buffers of the engine. They are recycled from one write to the next and are
never cleared. -/

namespace Clatto.Tundev

open Bytes Xlate Effect

/-- `Offset`: the headroom in front of every packet. -/
def offset : Nat := 16

/-- `maxPacket`. -/
def maxPacket : Nat := 65535

structure Buffer where
  bytes : Bytes
  bytes_length : bytes.length = offset + maxPacket

namespace Buffer

/-- `make([]byte, Offset+maxPacket)`. -/
def blank : Buffer := ⟨List.replicate (offset + maxPacket) 0, List.length_replicate⟩

instance : Inhabited Buffer := ⟨blank⟩

/-- The packet of `n` bytes behind the headroom. -/
def packet (buf : Buffer) (n : Nat) : Bytes := sub buf.bytes offset (offset + n)

/-- A packet is written behind the headroom. The rest of the buffer stays as it is. -/
def store (b : Bytes) (buf : Buffer) : Buffer where
  bytes := splice buf.bytes offset b
  bytes_length := by rw [length_splice, buf.bytes_length]

theorem length_packet (buf : Buffer) {n : Nat} (short : n ≤ maxPacket) :
    (buf.packet n).length = n := by
  rw [packet, length_sub_of_le (by rw [buf.bytes_length]; omega)]
  omega

theorem packet_store (buf : Buffer) {b : Bytes} (short : b.length ≤ maxPacket) :
    (buf.store b).packet b.length = b := by
  have fits : offset + b.length ≤ buf.bytes.length := by
    rw [buf.bytes_length]
    omega
  have same : (sub buf.bytes offset (offset + b.length)).length = b.length := by
    rw [length_sub_of_le fits]
    omega
  calc (buf.store b).packet b.length
      = splice (sub buf.bytes offset (offset + b.length)) 0 b :=
        @sub_splice_inside buf.bytes b offset (offset + b.length) 0 (by omega) (by omega)
    _ = b := splice_all same.symm

end Buffer

/-- `emitter`. What it hands out are buffers, each noted with the length of its packet. -/
abbrev Emitter := Slab Buffer Nat

namespace Emitter

variable (m : Emitter)

/-- `Packet`. What the buffer holds is left over from earlier packets. -/
def packet (n : Nat) : Option Bytes × Emitter :=
  if n > maxPacket then (none, m)
  else
    let taken := m.take .blank n
    (some ((taken.2.heap.get taken.1).packet n), taken.2)

def contents : List Bytes := m.out.map fun used => (m.heap.get used.1).packet used.2

/-- The translator fills the buffers it was given since there were `before` of them. -/
def fill (before : Nat) (sent : List Bytes) : Emitter :=
  m.write Buffer.store (((m.out.drop before).map Prod.fst).zip sent)

/-- `recycle`. -/
def recycle : Emitter := m.giveBack

theorem packet_length {n : Nat} {b : Bytes} (granted : (m.packet n).1 = some b) : b.length = n := by
  unfold packet at granted
  split at granted
  · cases granted
  · cases granted
    exact Buffer.length_packet _ (by omega)

theorem packet_of_le {n : Nat} (short : n ≤ maxPacket) :
    (m.packet n).1 ≠ none ∧ (m.packet n).2 = (m.take .blank n).2 := by
  unfold packet
  rw [if_neg (by omega)]
  exact ⟨Option.some_ne_none _, rfl⟩

variable {m}

/-- One buffer is handed out for each length. -/
def takes (m : Emitter) (lengths : List Nat) : Emitter := Slab.takes .blank lengths m

theorem takes_append (lengths more : List Nat) :
    m.takes (lengths ++ more) = (m.takes lengths).takes more := Slab.takes_append lengths more

/-- After a call of the translator the packets it sent wait behind those that were there
before. -/
theorem contents_fill (tidy : m.Tidy) {sent : List Bytes} (short : ∀ b ∈ sent, b.length ≤ maxPacket) :
    ((m.takes (sent.map List.length)).fill m.out.length sent).contents = m.contents ++ sent := by
  obtain ⟨tidy', ⟨refs, out, same⟩, -, kept⟩ : m.Taken _ (m.takes (sent.map List.length)) :=
    tidy.takes _
  generalize m.takes (sent.map List.length) = m' at *
  have distinct := tidy'.nodup
  rw [List.length_map] at same
  rw [out, List.map_append, List.map_fst_zip (by simp [same]), List.nodup_append] at distinct
  have fresh : (m'.out.drop m.out.length).map Prod.fst = refs := by
    rw [out, List.drop_left, List.map_fst_zip (by simp [same])]
  have written : ((refs.zip sent).map Prod.fst).Nodup := by
    rw [List.map_fst_zip (Nat.le_of_eq same)]
    exact distinct.2.1
  rw [contents, fill, fresh]
  change (m'.out.map _) = _
  rw [out, List.map_append]
  congr 1
  · refine List.map_congr_left fun used member => ?_
    have old : used.1 ∈ m.out.map Prod.fst := List.mem_map_of_mem member
    rw [Slab.get_write_of_not_mem, kept _ old]
    rw [List.map_fst_zip (Nat.le_of_eq same)]
    exact fun new => distinct.2.2 _ old _ new rfl
  · rw [List.zip_map_right, List.map_map]
    refine (List.map_congr_left fun item member => ?_).trans (List.map_snd_zip (Nat.le_of_eq same.symm))
    have sized := short item.2 (List.of_mem_zip member).2
    change Buffer.packet (Heap.get _ item.1) item.2.length = item.2
    rw [Slab.get_write written member, Buffer.packet_store _ sized]

end Emitter

end Clatto.Tundev

namespace Clatto.Xlate

open Tundev

variable {σ : Type}

/-- A mapper and a source of randomness, with the buffers of an engine. -/
def Env.buffered (env : Env σ) : Env (σ × Emitter) where
  mapIPv4ToIPv6 a s := ((env.mapIPv4ToIPv6 a s.1).1, ((env.mapIPv4ToIPv6 a s.1).2, s.2))
  mapIPv6ToIPv4 a allocate s :=
    ((env.mapIPv6ToIPv4 a allocate s.1).1, ((env.mapIPv6ToIPv4 a allocate s.1).2, s.2))
  packet n s := ((s.2.packet n).1, (s.1, (s.2.packet n).2))
  randomIdent s := ((env.randomIdent s.1).1, ((env.randomIdent s.1).2, s.2))
  packet_length := Emitter.packet_length _

/-- The same mapper and randomness, with an emitter that has a clean buffer for every packet. -/
def Env.granting (env : Env σ) : Env σ where
  mapIPv4ToIPv6 := env.mapIPv4ToIPv6
  mapIPv6ToIPv4 := env.mapIPv6ToIPv4
  packet n w := (some (List.replicate n 0), w)
  randomIdent := env.randomIdent
  packet_length := by
    rintro n w b ⟨⟩
    exact List.length_replicate

variable (env : Env σ) {t : Translator} {raw : Bytes}

/-- What is left in the buffers does not show, and no buffer is refused. -/
theorem Env.buffered_alike : (env.buffered.upTo maxPacket).Alike
    (env.granting.upTo maxPacket) fun s w => s.1 = w where
  to6 := by
    rintro a s _ rfl
    exact ⟨rfl, rfl⟩
  to4 := by
    rintro a allocate s _ rfl
    exact ⟨rfl, rfl⟩
  packet := by
    rintro n s _ rfl
    simp only [Env.upTo]
    split
    · rename_i small
      have granted := (s.2.packet_of_le small).1
      exact ⟨⟨fun none => absurd none granted, nofun⟩, rfl⟩
    · exact ⟨Iff.rfl, rfl⟩
  ident := by
    rintro s _ rfl
    exact ⟨rfl, rfl⟩

theorem Env.buffered_moves : env.buffered.Moves maxPacket fun s acts s' =>
    (∀ b ∈ packets acts, b.length ≤ maxPacket) ∧ s'.2 = s.2.takes ((packets acts).map List.length) where
  refl s := ⟨by simp [packets], rfl⟩
  trans := by
    rintro s s' s'' acts acts' ⟨short, taken⟩ ⟨short', taken'⟩
    rw [packets_append, List.map_append, Emitter.takes_append, ← taken, ← taken']
    refine ⟨fun b member => ?_, rfl⟩
    rcases List.mem_append.mp member with first | second
    · exact short b first
    · exact short' b second
  event s e := ⟨by simp [packets], rfl⟩
  translated s family length := ⟨by simp [packets], rfl⟩
  to6 s a := ⟨by simp [packets], rfl⟩
  to4 s a allocate := ⟨by simp [packets], rfl⟩
  ident s := ⟨by simp [packets], rfl⟩
  refused s n small none := absurd none (s.2.packet_of_le small).1
  sent := by
    rintro s s' b small - ⟨-, taken⟩
    refine ⟨by simpa [packets] using small, ?_⟩
    exact taken.trans (s.2.packet_of_le small).2

/-- A call with the engine's buffers, against one with clean buffers. -/
structure Relayed (m : Emitter) (buffered : Outcome (σ × Emitter) Action Unit)
    (clean : Outcome σ Action Unit) : Prop where
  acts : buffered.acts = clean.acts
  result : buffered.result = clean.result
  world : buffered.world.1 = clean.world
  short : ∀ b ∈ packets clean.acts, b.length ≤ maxPacket
  taken : buffered.world.2 = m.takes ((packets clean.acts).map List.length)

theorem translate_relayed (mtu : t.cfg.mtu ≤ maxPacket) (small : raw.length ≤ maxPacket) (w : σ)
    (m : Emitter) : Relayed m (translate env.buffered t raw (w, m))
      (translate env.granting t raw w) := by
  have low : mtuMin ≤ maxPacket := by decide
  obtain ⟨short, taken⟩ := env.buffered_moves.translate low mtu small (w, m)
  obtain ⟨result, acts, world⟩ := env.buffered_alike.translate t raw (w, m) w rfl
  rw [← translate_upTo _ low mtu small, ← translate_upTo _ low mtu small] at result acts world
  rw [acts] at short taken
  exact ⟨acts, result, world, short, taken⟩

end Clatto.Xlate
