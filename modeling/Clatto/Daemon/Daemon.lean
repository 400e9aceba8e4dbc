import Clatto.Addrmap.PoolFile
import Clatto.Config.Resolve
import Clatto.Netconf.Update
import Clatto.Xlate.SixToFour

/-! The daemon ties the translator, the kernel configuration and the pool together, and
replaces its configuration while it runs. Metrics, log lines and times are left out. -/

namespace Clatto

open Netip Addrmap Netconf Config

/-- `netip.AddrFromSlice`. -/
def Netip.Addr.fromSlice (b : Bytes) : Option Addr :=
  if b.length = 4 then some (.from4 b) else if b.length = 16 then some (.from16 b) else none

/-- `Addr.Unmap`. -/
def Netip.Addr.unmap : Addr → Addr
  | .v6 bits zone => if (Addr.v6 bits zone).is4In6 then .v4 (bits.setWidth 32) else .v6 bits zone
  | other => other

/-- `Addr.IsUnspecified`. -/
def Netip.Addr.isUnspecified (a : Addr) : Bool := a = .v4 0 ∨ a = .v6 0 ""

theorem Netip.Addr.isValid_unmap {b : Bytes} {a : Addr} (found : Addr.fromSlice b = some a) :
    a.unmap.isValid = true := by
  have valid : a.isValid = true := by
    rw [fromSlice] at found
    split at found
    · cases found
      rfl
    · split at found
      · cases found
        rfl
      · cases found
  cases a with
  | zero => cases valid
  | v4 bits => rfl
  | v6 bits zone =>
    rw [unmap]
    split <;> rfl

/-- A source address that a route lookup reports, if it can be used. -/
def usableSource (src : Bytes) : Option Addr :=
  ((Addr.fromSlice src).map Addr.unmap).filter (!·.isUnspecified)

/-- `SourceAddress`: the first source address that the routes to a destination report. -/
def sourceAddress (routeGet : Addr → Except String (List Bytes)) : SourceAddr where
  ask dst :=
    match routeGet dst with
    | .error err => .error s!"route lookup for {dst}: {err}"
    | .ok sources =>
      match sources.findSome? usableSource with
      | some a => .ok a
      | none => .error s!"route lookup for {dst} reports no source address"
  answers := by
    intro dst a answered
    split at answered
    · cases answered
    · split at answered
      · rename_i found
        cases answered
        obtain ⟨src, -, usable⟩ := List.exists_of_findSome?_eq_some found
        obtain ⟨b, sliced, rfl⟩ := Option.map_eq_some_iff.mp (Option.filter_eq_some_iff.mp usable).1
        exact Addr.isValid_unmap sliced
      · cases answered

def nowhere : SourceAddr := sourceAddress fun _ => .ok []

/-- The errors of `Apply`: those that wrap `ErrInvalid`, and a failure of `Update`. -/
inductive ApplyError where
  | invalid (reason : String)
  | update (reason : String)
  deriving DecidableEq

def ApplyError.text : ApplyError → String
  | .invalid reason => s!"invalid configuration: {reason}"
  | .update reason => s!"update interface (kernel state may be partially updated): {reason}"

/-- `daemon.Status`. -/
structure Status where
  generation : Nat
  source : String
  lastError : String
  interface : String

/-- The translator that an engine runs with. A panic of `New` stands for itself. -/
structure Engine where
  translator : Checked Xlate.Translator
  table : Table

/-- `daemon.Daemon`. The pool of the current configuration is the one that the engine's
table refers to. -/
structure Daemon where
  sourceAddr : SourceAddr
  cur : Resolved
  engine : Option Engine
  applied : Options
  started : Bool
  level : Level
  packetKinds : Finset Xlate.Kind
  status : Status

/-- What a call of the daemon finds around it: how entries are listed, the clock, what
goes wrong while a state file is saved, and what is read from a state file if it can be
opened. The files are shared with others, so nothing is known about what is in them. -/
structure Occasion where
  listing : Listing
  moment : Moment
  stamp : Stamp
  faults : Pool.Faults
  opened : Option Scan

/-- Nothing goes wrong around a call, and there is no state file. -/
def Occasion.plain : Occasion where
  listing := .standard
  moment := .second 0
  stamp := ⟨[], by decide, by decide⟩
  faults := ⟨false, false, false, false⟩
  opened := none

namespace Config.Resolved

variable (r : Resolved)

/-- The path of the state file, if there is a pool that has one. -/
def stateFile : Option String :=
  match r.pool, r.config.dynamicPool with
  | some _, some dp => if dp.stateFile = "" then none else some dp.stateFile
  | _, _ => none

/-- `loadPoolState`. -/
def loadPoolState (o : Occasion) : Resolved :=
  match r.stateFile, o.opened with
  | some _, some scan => { r with pool := r.pool.map fun p => (p.read o.moment scan).2 }
  | _, _ => r

/-- `savePoolState`. -/
def savePoolState (o : Occasion) (force : Bool) : Resolved :=
  match r.stateFile with
  | some _ =>
    { r with pool := r.pool.map fun p =>
        if force || p.dirty then (p.save o.moment o.stamp o.faults none).2 else p }
  | none => r

/-- `netconfOptions`. -/
def netconfOptions (name : String) : Options where
  name := name
  addresses := r.addresses
  routes4 := r.routes4
  routes6 := r.routes6
  forward4 := r.forward4
  forward6 := r.forward6
  shared := r.shared

def engine : Engine := ⟨Xlate.Translator.new r.xlate, r.table⟩

end Config.Resolved

namespace Daemon

/-- `New`. -/
def new (initial : Resolved) (sourceAddr : SourceAddr) (o : Occasion) : Daemon where
  sourceAddr := sourceAddr
  cur := initial.loadPoolState o
  engine := none
  applied := ⟨"", [], [], [], false, false, none⟩
  started := false
  level := initial.logLevel
  packetKinds := initial.packetKinds
  status := ⟨1, "startup", "", initial.config.interface.name⟩

variable (d : Daemon)

/-- `failLocked`. -/
def failed (err : ApplyError) : Daemon :=
  { d with status := { d.status with lastError := err.text } }

/-- The daemon as it runs when its interface has been configured. -/
def running (applied : Options) : Daemon :=
  { d with applied, engine := some d.cur.engine, started := true }

/-- The first part of `Run`: the device is created, under a name that the system may
choose, and the interface is configured. -/
def start (device : Except String String) (w : World Kernel) : Except String Daemon × World Kernel :=
  match device with
  | .error err =>
    let name := d.cur.config.interface.name
    (.error (s!"create tun device {name}: {err} " ++
      "(the process needs CAP_NET_ADMIN and /dev/net/tun)"), w)
  | .ok name =>
    let want := d.cur.netconfOptions name
    if d.cur.configure then
      match Netconf.apply want w with
      | (.error err, w) => (.error s!"configure interface: {err}", w)
      | (.ok _, w) => (.ok (d.running want), w)
    else (.ok (d.running want), w)

/-- What the ticker of `Run` does. -/
def tick (o : Occasion) : Daemon :=
  { d with cur :=
      { d.cur with pool := d.cur.pool.map (·.maintain o.moment) : Resolved }.savePoolState o false }

/-- The end of `Run`. -/
def stop (o : Occasion) : Daemon := { d with cur := d.cur.savePoolState o true }

/-- The daemon when `ResolveWith` was asked about a configuration: the pool is shared. -/
def consulted (pool : Option Pool) : Daemon := { d with cur := { d.cur with pool } }

/-- Settings in the way that `%v` prints them. -/
def listText (settings : List String) : String :=
  let text := " ".intercalate settings
  s!"[{text}]"

/-- What a new configuration is resolved with. -/
def resolveOptions : ResolveOptions :=
  { existingPool := d.cur.pool, sourceAddr := some d.sourceAddr }

/-- Validation: what a configuration resolves to, if it is accepted, and the daemon
afterwards. -/
def validate (listing : Listing) (cfg : Config) : Except ApplyError Resolved × Daemon :=
  let found := resolveWith listing cfg d.resolveOptions
  let consulted := d.consulted found.2
  match found.1 with
  | .error err => (.error (.invalid err), consulted)
  | .ok r =>
    let changed := listText (immutableChanges d.cur r)
    if immutableChanges d.cur r ≠ [] then
      (.error (.invalid s!"{changed} cannot change without a restart"), consulted)
    else (.ok r, consulted)

/-- The interface follows a configuration, once it is up. -/
def configure (r : Resolved) (w : World Kernel) : Except String Options × World Kernel :=
  if d.started ∧ r.configure then
    let want := r.netconfOptions d.applied.name
    match Netconf.update d.applied want w with
    | (.error err, w) => (.error err, w)
    | (.ok _, w) => (.ok want, w)
  else (.ok d.applied, w)

/-- The daemon after a configuration has been taken over. -/
def switched (r : Resolved) (applied : Options) (source : String) : Daemon where
  sourceAddr := d.sourceAddr
  cur := r
  engine := d.engine.map fun _ => r.engine
  applied := applied
  started := d.started
  level := r.logLevel
  packetKinds := r.packetKinds
  status := ⟨d.status.generation + 1, source, "", d.status.interface⟩

/-- A pool that was not there before takes over the assignments in its state file, which may
be the one that the old pool is saved to. -/
def exchangePools (o : Occasion) (r : Resolved) : Resolved × Daemon :=
  if r.pool.isSome ∧ ¬ r.reuses then
    (r.loadPoolState o, { d with cur := d.cur.savePoolState o true })
  else (r, d)

/-- The rest of `Apply`. -/
def switch (o : Occasion) (r : Resolved) (source : String) (w : World Kernel) :
    Except ApplyError Unit × Daemon × World Kernel :=
  let (r, d) := d.exchangePools o r
  match d.configure r w with
  | (.error err, w) => (.error (.update err), d.failed (.update err), w)
  | (.ok applied, w) => (.ok (), d.switched r applied source, w)

/-- `Apply`. -/
def apply (o : Occasion) (cfg : Config) (source : String) (w : World Kernel) :
    Except ApplyError Unit × Daemon × World Kernel :=
  match d.validate o.listing cfg with
  | (.error err, d) => (.error err, d.failed err, w)
  | (.ok r, d) => d.switch o r source w

/-- `ApplyYAML`, when the document has been parsed. -/
def applyYAML (o : Occasion) (parsed : Except String Config) (source : String) (w : World Kernel) :
    Except ApplyError Unit × Daemon × World Kernel :=
  match parsed with
  | .error err => (.error (.invalid err), d.failed (.invalid err), w)
  | .ok cfg => d.apply o cfg source w

/-- `Reload`, from what `LoadFile` returns if there is a file. -/
def reload (o : Occasion) (loaded : Option (Except String Config)) (source : String)
    (w : World Kernel) : Except ApplyError Unit × Daemon × World Kernel :=
  d.applyYAML o (loaded.getD (.error "no configuration file to reload")) source w

end Daemon

/-- What surrounds the translator besides its table: the clock, the emitter and the source of
randomness. -/
structure Outside (ω : Type) where
  moment : ω → Moment × ω
  packet : Nat → ω → Option Bytes × ω
  randomIdent : ω → UInt16 × ω
  packet_length : ∀ {n x b}, (packet n x).1 = some b → b.length = n

namespace Outside

variable {ω : Type} (outside : Outside ω)

/-- Ask a mapper at the moment it is. A mapper that faults has no answer. -/
def consult (call : Mapper → Moment → Checked (Except Xlate.MapError Addr) × Mapper)
    (s : Mapper × ω) : Except Xlate.MapError Addr × (Mapper × ω) :=
  let (m, x) := outside.moment s.2
  let (answer, mapper) := call s.1 m
  (match answer with
    | .ok answer => answer
    | .error _ => .error (.other "panic"), (mapper, x))

/-- The surroundings of a translator whose mapper is a table with its pool. -/
def env : Xlate.Env (Mapper × ω) where
  mapIPv4ToIPv6 a := outside.consult fun s m => s.mapIPv4ToIPv6 a m
  mapIPv6ToIPv4 a allocate := outside.consult fun s m => s.mapIPv6ToIPv4 a allocate m
  packet n s := ((outside.packet n s.2).1, (s.1, (outside.packet n s.2).2))
  randomIdent s := ((outside.randomIdent s.2).1, (s.1, (outside.randomIdent s.2).2))
  packet_length := outside.packet_length

end Outside

namespace Daemon

variable {ω : Type} (outside : Outside ω)

def receive (raw : Bytes) : Effect (Daemon × ω) Xlate.Action Unit := fun (d, x) =>
  match d.engine with
  | none => ⟨.ok (), [], (d, x)⟩
  | some engine =>
    match engine.translator with
    | .error fault => ⟨.error fault, [], (d, x)⟩
    | .ok t =>
      let out := Xlate.translate outside.env t raw (⟨engine.table, d.cur.pool⟩, x)
      ⟨out.result, out.acts, (d.consulted out.world.1.pool, out.world.2)⟩

/-- What happens between two configurations. -/
inductive Event where
  | packet (raw : Bytes)
  | tick (o : Occasion)

def handle : Event → Effect (Daemon × ω) Xlate.Action Unit
  | .packet raw => receive outside raw
  | .tick o => fun (d, x) => ⟨.ok (), [], (d.tick o, x)⟩

def serve : List Event → Effect (Daemon × ω) Xlate.Action Unit
  | [] => pure ()
  | event :: events => do
    handle outside event
    serve events

end Daemon

end Clatto
