import Clatto.Lib.Effect
import Clatto.Xlate.Checksum
import Clatto.Xlate.Packet

/-! The translator's parameters, and the parties it talks to while it handles a
packet. -/

namespace Clatto.Xlate

open Bytes

/-- The errors of a `Mapper`. Only `ErrReject` is told apart from the rest. -/
inductive MapError where
  | reject
  | drop
  | other (text : String)
  deriving DecidableEq, Repr

/-- `xlate.UDPChecksumMode`. -/
inductive UDPChecksumMode where
  | drop
  | calc
  | forward
  deriving DecidableEq, Repr

/-- `xlate.Config`. -/
structure Config where
  localAddr4 : Netip.Addr
  localAddr6 : Netip.Addr
  mtu : Int
  offlinkMTU : Int
  udpChecksum : UDPChecksumMode

/-- The translator together with what `New` establishes: local addresses of the
right size and an off-link MTU no smaller than every IPv6 link's. -/
structure Translator where
  cfg : Config
  local4 : Bytes
  local6 : Bytes
  local4_length : local4.length = 4
  local6_length : local6.length = 16
  offlink_ge : mtuMin ≤ cfg.offlinkMTU

/-- The configuration `New` keeps: no off-link MTU below that of every IPv6 link. -/
def Config.raised (cfg : Config) : Config :=
  if cfg.offlinkMTU < mtuMin then { cfg with offlinkMTU := mtuMin } else cfg

theorem Config.raised_offlink_ge (cfg : Config) : mtuMin ≤ cfg.raised.offlinkMTU := by
  unfold Config.raised
  split <;> simp_all

@[simp] theorem Config.raised_mtu (cfg : Config) : cfg.raised.mtu = cfg.mtu := by
  unfold Config.raised
  split <;> rfl

/-- `New`, which panics when the local IPv4 address is not one. -/
def Translator.new (cfg : Config) : Checked Translator :=
  match found : cfg.raised.localAddr4.as4 with
  | .error fault => .error fault
  | .ok local4 => .ok {
      cfg := cfg.raised
      local4 := local4
      local6 := cfg.raised.localAddr6.as16
      local4_length := Netip.Addr.length_as4 found
      local6_length := Netip.Addr.length_as16 _
      offlink_ge := cfg.raised_offlink_ge }

theorem Translator.new_cfg {cfg : Config} {t : Translator} (built : Translator.new cfg = .ok t) :
    t.cfg = cfg.raised := by
  unfold Translator.new at built
  split at built <;> cases built
  rfl

/-- The mapper, the emitter and the source of randomness. All of them share one
hidden state, so their answers may change from call to call in any way. -/
structure Env (σ : Type) where
  mapIPv4ToIPv6 : Netip.Addr → σ → Except MapError Netip.Addr × σ
  mapIPv6ToIPv4 : Netip.Addr → Bool → σ → Except MapError Netip.Addr × σ
  packet : Nat → σ → Option Bytes × σ
  randomIdent : σ → UInt16 × σ
  packet_length : ∀ {n w b}, (packet n w).1 = some b → b.length = n

/-- A configuration with addresses from the documentation blocks. -/
def Config.sample (mtu offlinkMTU : Int) (udpChecksum : UDPChecksumMode) : Config where
  localAddr4 := .v4 0xc0000201
  localAddr6 := .v6 0x20010db8000000000000000000000001 ""
  mtu := mtu
  offlinkMTU := offlinkMTU
  udpChecksum := udpChecksum

/-- Surroundings without state: every buffer is granted, and cleared. -/
def Env.stateless (to6 : Netip.Addr → Except MapError Netip.Addr)
    (to4 : Netip.Addr → Except MapError Netip.Addr) : Env Unit where
  mapIPv4ToIPv6 := fun a w => (to6 a, w)
  mapIPv6ToIPv4 := fun a _ w => (to4 a, w)
  packet := fun n w => (some (List.replicate n 0), w)
  randomIdent := fun w => (0, w)
  packet_length := by
    rintro n w b ⟨⟩
    simp

/-- A translator for the sample configuration, and surroundings in which the
IPv4 Internet lives under the well-known prefix. -/
def Translator.sample (mtu : Int) (udpChecksum : UDPChecksumMode) : Translator where
  cfg := Config.sample mtu 1280 udpChecksum
  local4 := [192, 0, 2, 1]
  local6 := [0x20, 0x01, 0x0d, 0xb8, 0, 0, 0, 0, 0, 0, 0, 0, 0, 0, 0, 1]
  local4_length := rfl
  local6_length := rfl
  offlink_ge := le_rfl

def Env.sample : Env Unit :=
  Env.stateless
    (fun
      | .v4 bits => .ok (.v6 (BitVec.ofNat 128 (0x64ff9b * 2 ^ 96 + bits.toNat)) "")
      | _ => .error .drop)
    (fun
      | .v6 bits _ => .ok (.v4 (BitVec.ofNat 32 bits.toNat))
      | _ => .error .drop)

abbrev Xl (σ : Type) := Effect σ Action

variable {σ : Type}

/-- Report an event about `p` to the observer. -/
def observe (p : Pkt) (kind : Kind) (reason : Reason) : Xl σ Unit := do
  let e ← Effect.lift (p.event kind reason)
  Effect.act (.event e)

/-- Ask the emitter for a buffer of `n` bytes and fill it. The buffer's old
contents are unspecified; a refused packet answers `false`. -/
def emitPacket (env : Env σ) (n : Nat) (fill : Bytes → Xl σ Bytes) : Xl σ Bool := do
  match ← Effect.ask (env.packet n) with
  | none => pure false
  | some b => do
    let b ← fill b
    Effect.act (.packet b)
    pure true

def map4to6 (env : Env σ) (a : Bytes) : Xl σ (Except MapError Bytes) := do
  let a ← Effect.lift (slice a 0 4)
  match ← Effect.ask (env.mapIPv4ToIPv6 (Netip.Addr.from4 a)) with
  | .error err => pure (.error err)
  | .ok r => if r.is6 then pure (.ok r.as16) else pure (.error .drop)

def map6to4 (env : Env σ) (a : Bytes) (allocate : Bool) : Xl σ (Except MapError Bytes) := do
  let a ← Effect.lift (slice a 0 16)
  match ← Effect.ask (env.mapIPv6ToIPv4 (Netip.Addr.from16 a) allocate) with
  | .error err => pure (.error err)
  | .ok r => if r.is4 then .ok <$> Effect.lift r.as4 else pure (.error .drop)

end Clatto.Xlate
