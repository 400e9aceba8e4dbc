import Clatto.Tundev.Emitter

/-! The engine: packets go from the device through the translator and back to the device, in
batches. -/

namespace Clatto.Tundev

open Bytes Xlate Effect

/-- `Stats`. -/
structure Stats where
  packetsIn : UInt64 := 0
  packetsOut : UInt64 := 0
  bytesIn : UInt64 := 0
  bytesOut : UInt64 := 0
  readErrors : UInt64 := 0
  writeErrors : UInt64 := 0
  deriving DecidableEq

inductive Read where
  | closed
  | failed (err : String)
  | packets (batch : List Bytes)

inductive Write where
  | done
  | closed
  | failed (err : String)
  deriving DecidableEq

/-- What one round of `Run` finds: the result of its read, whether the context is cancelled by
the time that is asked, the translator that is in use once there are packets, and the result
of its write if there is one. -/
structure Round where
  read : Read
  cancelled : Bool
  translator : Translator
  write : Write

/-- What `Run` returns: the error of the context, if there is one, or that of the device. -/
inductive Ending where
  | context (cancelled : Bool)
  | device (err : String)
  | crash (fault : Fault)
  deriving DecidableEq

/-- The variables of `Run`, with what the observer and the device have been given. -/
structure Loop (σ : Type) where
  world : σ
  em : Emitter := .empty
  consecutiveErrors : Nat := 0
  stats : Stats := {}
  acts : List Action := []
  offered : List (Write × List Bytes) := []

variable {σ : Type}

namespace Stats

variable (s : Stats)

def received (b : Bytes) : Stats :=
  { s with packetsIn := s.packetsIn + 1, bytesIn := s.bytesIn + UInt64.ofNat b.length }

def readError : Stats := { s with readErrors := s.readErrors + 1 }

def writeError : Stats := { s with writeErrors := s.writeErrors + 1 }

/-- `outBytes` is summed before the write. -/
def sent (batch : List Bytes) : Stats :=
  { s with
    packetsOut := s.packetsOut + UInt64.ofNat batch.length
    bytesOut := s.bytesOut + batch.foldl (fun sum b => sum + UInt64.ofNat b.length) 0 }

end Stats

namespace Loop

variable (env : Env σ) (s : Loop σ)

/-- One packet is translated into the emitter's buffers. -/
def pump (t : Translator) (raw : Bytes) : Checked Unit × Loop σ :=
  let out := translate env.buffered t raw (s.world, s.em)
  (out.result, { s with
    world := out.world.1
    em := out.world.2.fill s.em.out.length (packets out.acts)
    stats := s.stats.received raw
    acts := s.acts ++ out.acts })

/-- The packets of a batch, one after the other. -/
def pumpAll (t : Translator) : List Bytes → Loop σ → Checked Unit × Loop σ
  | [], s => (.ok (), s)
  | raw :: batch, s =>
    match s.pump env t raw with
    | (.error fault, s) => (.error fault, s)
    | (.ok _, s) => pumpAll t batch s

/-- The end of a round: what is in the buffers goes to the device. -/
def flush (r : Round) : Loop σ × Option Ending :=
  if s.em.out = [] then (s, none)
  else
    let batch := s.em.contents
    let s := { s with offered := s.offered ++ [(r.write, batch)] }
    match r.write with
    | .closed => ({ s with em := s.em.recycle }, some (.context r.cancelled))
    | .failed _ => ({ s with stats := s.stats.writeError, em := s.em.recycle }, none)
    | .done => ({ s with stats := s.stats.sent batch, em := s.em.recycle }, none)

/-- One round of `Run`, and what it returns if it ends there. -/
def step (r : Round) : Loop σ × Option Ending :=
  match r.read with
  | .closed => (s, some (.context r.cancelled))
  | .failed err =>
    if r.cancelled then (s, some (.context true))
    else
      let s := { s with
        stats := s.stats.readError
        consecutiveErrors := s.consecutiveErrors + 1 }
      if s.consecutiveErrors > 10 then (s, some (.device err)) else (s, none)
  | .packets batch =>
    match pumpAll env r.translator batch { s with consecutiveErrors := 0 } with
    | (.error fault, s) => (s, some (.crash fault))
    | (.ok _, s) => s.flush r

/-- `Run`, for as many rounds as there are. -/
def run : List Round → Loop σ → Loop σ × Option Ending
  | [], s => (s, none)
  | r :: rounds, s =>
    match s.step env r with
    | (s, none) => run rounds s
    | (s, some ending) => (s, some ending)

end Loop

end Clatto.Tundev
