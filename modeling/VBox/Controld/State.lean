import VBox.Proto.Wire
import VBox.Lib.Maps

/-!
# Controld.State

The daemon's instances and their file (`state.rs` and `snapshot.rs` in `crates/controld/src`). The
daemon keeps, under one lock, a hash map from names to running servers with their guest apps, and
after an operation that changes it writes it to `state.bin`: encode, write `state.bin.tmp`, rename.
`DaemonState::new` reads the file back and keeps the instances whose server still runs.

What the operating system answers is an argument: whether a process is alive (`Probe`), in which
order a map is walked (`Walk`), and which of the fallible calls fail (`StartEnv`, `LaunchEnv`,
`FlushIo`). An entry of the map is probed at its own moment, so probes depend on its name.

* `startInstance`, `stopInstance`, `launchApp`, `summaries` and `new` are the operations, one after
  another; the parts of them that hold the lock are definitions of their own.
* `Records`: the file stands for a map.
* `startInstance_atomic_iff`: when a failed `start_instance` has left everything as it was.
-/

namespace VBox.Controld

open ByteCodec

/-- A handle on a process that the daemon spawned. -/
structure Child where
  id : UInt32
  deriving DecidableEq, Repr

/-- `Child::try_wait`. -/
inductive TryWait where
  | running
  | exited (status : Int32)
  | failed
  deriving DecidableEq, Repr

structure Instance where
  port : UInt16
  serverPid : UInt32
  /-- None for an instance that was recovered at startup. -/
  serverChild : Option Child
  appPids : List UInt32
  deriving DecidableEq, Repr

abbrev Instances := AList fun _ : String => Instance

structure InstanceSnapshot where
  name : String
  port : UInt16
  serverPid : UInt32
  appPids : List UInt32
  deriving DecidableEq, Repr

structure Snapshot where
  instances : List InstanceSnapshot
  deriving DecidableEq, Repr

/-- The serialiser of snapshots. A vector is written with its length first, so that no snapshot is
written as nothing. -/
structure SnapshotWire extends Postcard Snapshot where
  toAllocvec_ne_nil : ∀ s, toAllocvec s ≠ []

namespace Wire

open Codec VBox.Wire

def instanceSnapshot : Codec InstanceSnapshot :=
  (str.prod (u16.prod (u32.prod (list u32)))).map
    ⟨fun p => ⟨p.1, p.2.1, p.2.2.1, p.2.2.2⟩, fun s => (s.name, s.port, s.serverPid, s.appPids),
      fun _ => rfl, fun _ => rfl⟩

def snapshot : Codec Snapshot :=
  (list instanceSnapshot).map ⟨Snapshot.mk, Snapshot.instances, fun _ => rfl, fun _ => rfl⟩

theorem snapshot_ne_nil (s : Snapshot) : snapshot.encode s ≠ [] := by
  intro h
  have hlength : encodeVarint (s.instances.length + 1) s.instances.length = [] :=
    (List.append_eq_nil_iff.1 h).1
  rw [encodeVarint] at hlength
  split at hlength <;> cases hlength

end Wire

/-- The format that postcard documents. -/
def snapshotWire : SnapshotWire := { Postcard.ofCodec Wire.snapshot with
  toAllocvec_ne_nil := Wire.snapshot_ne_nil }

/-- The answers of the process table at one moment. -/
structure Probe where
  pidAlive : UInt32 → Bool
  tryWait : Child → TryWait

/-- `state.bin` and `state.bin.tmp`. -/
structure Disk where
  stateBin : Option Bytes
  tmp : Option Bytes
  deriving DecidableEq

structure DaemonState where
  instances : Instances
  disk : Disk

/-! ## Pure helpers -/

def serverAlive (probe : Probe) (inst : Instance) : Bool :=
  match inst.serverChild with
  | some child => probe.tryWait child == .running
  | none => probe.pidAlive inst.serverPid

/-- The map without the instances whose server is gone, and whether there were any. -/
def reapDeadInstances (probe : String → Probe) (map : Instances) : Instances × Bool :=
  (map.retain fun name inst => serverAlive (probe name) inst,
    map.entries.any fun e => !serverAlive (probe e.1) e.2)

def retainLiveAppPids (pidAlive : UInt32 → Bool) (appPids : List UInt32) : List UInt32 × Bool :=
  let retained := appPids.filter pidAlive
  (retained, retained.length != appPids.length)

/-- The first instance of another name on the port, in the order of the walk. -/
def portConflictOwner (map : Instances) (name : String) (port : UInt16) : Option (String × UInt32) :=
  (map.entries.find? fun e => e.1 != name && e.2.port == port).map fun e => (e.1, e.2.serverPid)

inductive ReconcileOutcome where
  | drop
  | recover (appPids : List UInt32)
  deriving DecidableEq, Repr

def decideReconcile (snap : InstanceSnapshot) (pidAlive : UInt32 → Bool) : ReconcileOutcome :=
  if pidAlive snap.serverPid then .recover (snap.appPids.filter pidAlive) else .drop

/-- Guest apps first, then the server. -/
def pidsToTerminate (inst : Instance) : List UInt32 := inst.appPids ++ [inst.serverPid]

/-! ## The file -/

/-- What becomes of the write of the temporary file and of its rename. A failed write leaves
anything behind. -/
inductive FlushIo where
  | done
  | writeFailed (left : Option Bytes)
  | renameFailed
  deriving DecidableEq

def snapshotOf (map : Instances) : Snapshot :=
  ⟨map.entries.map fun e => ⟨e.1, e.2.port, e.2.serverPid, e.2.appPids⟩⟩

inductive LoadError where
  | read
  | decode
  deriving DecidableEq, Repr

section Wire

variable (wire : SnapshotWire)

/-- `flush`: snapshot under the lock, write, rename. -/
def flush (walk : AList.Walk String Instance) (io : FlushIo) (map : Instances) (disk : Disk) : Disk :=
  let bytes := wire.toAllocvec (snapshotOf (walk.order map))
  match io with
  | .done => { stateBin := some bytes, tmp := none }
  | .writeFailed left => { disk with tmp := left }
  | .renameFailed => { disk with tmp := some bytes }

/-- `readable` is false when the read fails for another reason than a missing file. -/
def loadSnapshot (readable : Bool) (file : Option Bytes) : Except LoadError (Option Snapshot) :=
  if readable then
    match file with
    | none => .ok none
    | some bytes =>
      if bytes.isEmpty then .ok none
      else match wire.fromBytes bytes with
        | .ok snap => .ok (some snap)
        | .error _ => .error .decode
  else .error .read

/-! ## Startup -/

/-- The instances that reconciliation takes over. Every entry is probed at its own moment. -/
def recovered (probe : InstanceSnapshot → UInt32 → Bool) (insts : List InstanceSnapshot) :
    List (String × Instance) :=
  insts.filterMap fun inst =>
    match decideReconcile inst (probe inst) with
    | .drop => none
    | .recover appPids => some (inst.name, ⟨inst.port, inst.serverPid, none, appPids⟩)

structure StartupEnv where
  /-- The directories and the D-Bus files are there. -/
  assets : Bool
  readable : Bool
  probe : InstanceSnapshot → UInt32 → Bool
  walk : AList.Walk String Instance
  flush : FlushIo

inductive StartupError where
  | assets
  | load (e : LoadError)
  deriving DecidableEq, Repr

/-- `reconcile_on_startup`. The result of its flush is ignored; without a snapshot there is none. -/
def reconcileOnStartup (env : StartupEnv) (d : DaemonState) : Except LoadError DaemonState :=
  match loadSnapshot wire env.readable d.disk.stateBin with
  | .error e => .error e
  | .ok none => .ok d
  | .ok (some snap) =>
    let map := (recovered env.probe snap.instances).foldl (fun m p => m.insert p.1 p.2) d.instances
    .ok { instances := map, disk := flush wire env.walk env.flush map d.disk }

def DaemonState.new (env : StartupEnv) (disk : Disk) : Except StartupError DaemonState :=
  if env.assets then
    match reconcileOnStartup wire env { instances := ∅, disk } with
    | .error e => .error (.load e)
    | .ok d => .ok d
  else .error .assets

end Wire

/-! ## Operations

An operation takes the lock once, works on the map, and flushes after it has released the lock. -/

/-- What an operation has done when it releases the lock. -/
structure Locked (α : Type) where
  instances : Instances
  /-- The instance it took out and terminated. -/
  terminated : Option Instance
  /-- Whether a flush follows. -/
  flush : Bool
  result : α

structure QuicInstanceConfig where
  bind : IpAddr
  port : Option UInt16
  token : String

structure StartEnv where
  probe : String → Probe
  /-- The walk that looks for the owner of the port. -/
  scan : AList.Walk String Instance
  createLogDir : Bool
  createLog : Bool
  cloneLog : Bool
  certMaterial : Bool
  /-- The pid of the server, if it could be spawned. -/
  spawn : Option UInt32
  /-- The server after 150 ms. -/
  tryWait : TryWait
  walk : AList.Walk String Instance
  flush : FlushIo

inductive StartError where
  | portConflict (port : UInt16) (owner : String) (pid : UInt32)
  | createLogDir
  | createLog
  | cloneLog
  | emptyToken
  | certMaterial
  | spawn
  | exited (status : Int32)
  deriving DecidableEq, Repr

/-- The fallible part of `start_instance`, which does not touch the map. -/
def spawnServer (quic : Option QuicInstanceConfig) (env : StartEnv) : Except StartError Child := do
  unless env.createLogDir do throw .createLogDir
  unless env.createLog do throw .createLog
  unless env.cloneLog do throw .cloneLog
  if let some quic := quic then
    if quic.token.isEmpty then throw .emptyToken
    unless env.certMaterial do throw .certMaterial
  match env.spawn with
  | none => throw .spawn
  | some pid =>
    match env.tryWait with
    | .exited status => throw (.exited status)
    | _ => return ⟨pid⟩

def startLocked (name : String) (port : UInt16) (quic : Option QuicInstanceConfig) (env : StartEnv)
    (map : Instances) : Locked (Except StartError UInt32) :=
  let (map, reapedDead) := reapDeadInstances env.probe map
  match portConflictOwner (env.scan.order map) name port with
  | some (owner, pid) =>
    { instances := map, terminated := none, flush := reapedDead,
      result := .error (.portConflict port owner pid) }
  | none =>
    let existing := map.lookup name
    let map := map.erase name
    match spawnServer quic env with
    | .error e => { instances := map, terminated := existing, flush := false, result := .error e }
    | .ok child =>
      { instances := map.insert name ⟨port, child.id, some child, []⟩, terminated := existing,
        flush := true, result := .ok child.id }

structure SummariesEnv where
  probe : String → Probe
  /-- The probes of the guest apps, made after the servers'. -/
  appProbe : String → Probe
  scan : AList.Walk String Instance
  walk : AList.Walk String Instance
  flush : FlushIo

def summariesLocked (env : SummariesEnv) (map : Instances) : Locked (List InstanceSummary) :=
  let (map, reaped) := reapDeadInstances env.probe map
  let retain (name : String) (inst : Instance) :=
    retainLiveAppPids (env.appProbe name).pidAlive inst.appPids
  let needFlush := reaped || map.entries.any fun e => (retain e.1 e.2).2
  let map := map.mapValues fun name inst => { inst with appPids := (retain name inst).1 }
  { instances := map, terminated := none, flush := needFlush,
    result := (env.scan.order map).entries.map fun e => ⟨e.1, e.2.port, e.2.serverPid, e.2.appPids⟩ }

def stopLocked (name : String) (map : Instances) : Option (Instance × Instances) :=
  (map.lookup name).map fun inst => (inst, map.erase name)

structure LaunchEnv where
  runtimeDir : Bool
  socketExists : Bool
  createLogDir : Bool
  openLog : Bool
  cloneLog : Bool
  spawn : Option UInt32
  /-- The app after 120 ms. -/
  tryWait : TryWait
  /-- The app every 100 ms until the caller's deadline. -/
  polls : List TryWait
  walk : AList.Walk String Instance
  flush : FlushIo

inductive LaunchError where
  | emptyArgv
  | runtimeDir
  | noSocket
  | createLogDir
  | openLog
  | cloneLog
  | spawn
  | exitedAtOnce (status : Int32)
  | exitedDuringWait (status : Int32)
  deriving DecidableEq, Repr

def TryWait.status : TryWait → Option Int32
  | .exited status => some status
  | _ => none

/-- The part of `launch_app` before it takes the lock. -/
def spawnApp (argv : List String) (waitReady : Nat) (env : LaunchEnv) :
    Except LaunchError UInt32 := do
  if argv.isEmpty then throw .emptyArgv
  unless env.runtimeDir do throw .runtimeDir
  unless env.socketExists do throw .noSocket
  unless env.createLogDir do throw .createLogDir
  unless env.openLog do throw .openLog
  unless env.cloneLog do throw .cloneLog
  match env.spawn with
  | none => throw .spawn
  | some pid =>
    if let some status := env.tryWait.status then throw (.exitedAtOnce status)
    if 0 < waitReady then
      if let some status := env.polls.findSome? TryWait.status then throw (.exitedDuringWait status)
    return pid

/-- `launch_app` under the lock: the pid is recorded if the instance is there. -/
def recordApp (name : String) (pid : UInt32) (map : Instances) : Instances :=
  match map.lookup name with
  | some inst => map.insert name { inst with appPids := inst.appPids ++ [pid] }
  | none => map

/-- What a whole operation has done. -/
structure Done (α : Type) where
  state : DaemonState
  terminated : Option Instance
  result : α

inductive StopError where
  | noSuchInstance (name : String)
  deriving DecidableEq, Repr

section Wire

variable (wire : SnapshotWire)

def flushIf (flushes : Bool) (walk : AList.Walk String Instance) (io : FlushIo) (map : Instances)
    (disk : Disk) : Disk :=
  if flushes then flush wire walk io map disk else disk

def startInstance (name : String) (port : UInt16) (quic : Option QuicInstanceConfig)
    (env : StartEnv) (d : DaemonState) : Done (Except StartError UInt32) :=
  let l := startLocked name port quic env d.instances
  { state := { instances := l.instances,
               disk := flushIf wire l.flush env.walk env.flush l.instances d.disk },
    terminated := l.terminated, result := l.result }

def summaries (env : SummariesEnv) (d : DaemonState) : Done (List InstanceSummary) :=
  let l := summariesLocked env d.instances
  { state := { instances := l.instances,
               disk := flushIf wire l.flush env.walk env.flush l.instances d.disk },
    terminated := l.terminated, result := l.result }

def stopInstance (name : String) (walk : AList.Walk String Instance) (io : FlushIo)
    (d : DaemonState) : Done (Except StopError Unit) :=
  match stopLocked name d.instances with
  | none => { state := d, terminated := none, result := .error (.noSuchInstance name) }
  | some (inst, map) =>
    { state := { instances := map, disk := flush wire walk io map d.disk },
      terminated := some inst, result := .ok () }

def launchApp (name : String) (argv : List String) (waitReady : Nat) (env : LaunchEnv)
    (d : DaemonState) : Done (Except LaunchError UInt32) :=
  match spawnApp argv waitReady env with
  | .error e => { state := d, terminated := none, result := .error e }
  | .ok pid =>
    let map := recordApp name pid d.instances
    { state := { instances := map, disk := flush wire env.walk env.flush map d.disk },
      terminated := none, result := .ok pid }

end Wire
/-! ## What the helpers do -/

variable {map : Instances} {name : String} {inst : Instance} {probe : String → Probe}

theorem lookup_reap :
    (reapDeadInstances probe map).1.lookup name = some inst ↔
      map.lookup name = some inst ∧ serverAlive (probe name) inst = true :=
  AList.lookup_retain_eq_some

theorem reap_eq_self (h : (reapDeadInstances probe map).2 = false) :
    (reapDeadInstances probe map).1 = map := by
  apply AList.ext
  rw [reapDeadInstances] at h ⊢
  exact List.filter_eq_self.2 fun e he => by simpa using List.any_eq_false.1 h e he

theorem portConflictOwner_eq_none {port : UInt16} :
    portConflictOwner map name port = none ↔
      ∀ other inst, map.lookup other = some inst → other ≠ name → inst.port ≠ port := by
  simp only [portConflictOwner, Option.map_eq_none_iff, List.find?_eq_none, AList.lookup_eq_some_iff,
    Bool.and_eq_true, bne_iff_ne, beq_iff_eq, not_and]
  constructor
  · intro h other inst hmem
    exact h ⟨other, inst⟩ hmem
  · intro h e hmem
    exact h e.1 e.2 hmem

theorem retainLiveAppPids_eq_self {pidAlive : UInt32 → Bool} {appPids : List UInt32}
    (h : (retainLiveAppPids pidAlive appPids).2 = false) :
    (retainLiveAppPids pidAlive appPids).1 = appPids := by
  simp only [retainLiveAppPids, bne_eq_false_iff_eq] at h ⊢
  exact List.filter_eq_self.2 (List.length_filter_eq_length_iff.1 h)

theorem summariesLocked_eq_self {env : SummariesEnv} {map : Instances}
    (h : (summariesLocked env map).flush = false) :
    (summariesLocked env map).instances = map := by
  simp only [summariesLocked, Bool.or_eq_false_iff] at h
  obtain ⟨hreap, happs⟩ := h
  rw [reap_eq_self hreap] at happs
  apply AList.ext
  simp only [summariesLocked, reap_eq_self hreap, AList.mapValues]
  refine (List.map_congr_left fun e he => ?_).trans (List.map_id _)
  have hsame := retainLiveAppPids_eq_self (by simpa using List.any_eq_false.1 happs e he)
  rw [hsame]
  rfl

theorem lookup_recordApp {pid : UInt32} {other : String} :
    (recordApp name pid map).lookup other =
      if other = name then
        (map.lookup name).map fun inst => { inst with appPids := inst.appPids ++ [pid] }
      else map.lookup other := by
  rw [recordApp]
  cases hinst : map.lookup name with
  | none =>
    by_cases h : other = name
    · rw [if_pos h, h, Option.map_none]
      exact hinst
    · rw [if_neg h]
  | some inst => exact AList.lookup_insert_eq other

/-! ## What the file stands for -/

section Records

variable (wire : SnapshotWire)

/-- The entries of a file; a missing or empty one has none. -/
def savedEntries (file : Option Bytes) : Option (List InstanceSnapshot) :=
  match loadSnapshot wire true file with
  | .error _ => none
  | .ok none => some []
  | .ok (some snap) => some snap.instances

/-- The file holds the map: names, ports, server pids and app pids, every instance once. -/
def Records (file : Option Bytes) (map : Instances) : Prop :=
  ∃ saved, savedEntries wire file = some saved ∧ saved.Perm (snapshotOf map).instances

variable {wire}

theorem savedEntries_toAllocvec (snap : Snapshot) :
    savedEntries wire (some (wire.toAllocvec snap)) = some snap.instances := by
  have hne : (wire.toAllocvec snap).isEmpty = false := by
    simpa using wire.toAllocvec_ne_nil snap
  simp [savedEntries, loadSnapshot, hne]

theorem snapshotOf_perm {walked : Instances} (h : walked.entries.Perm map.entries) :
    (snapshotOf walked).instances.Perm (snapshotOf map).instances :=
  h.map _

theorem records_toAllocvec (walk : AList.Walk String Instance) :
    Records wire (some (wire.toAllocvec (snapshotOf (walk.order map)))) map :=
  ⟨_, savedEntries_toAllocvec _, snapshotOf_perm (walk.perm map)⟩

theorem flush_done_records {walk : AList.Walk String Instance} {disk : Disk} :
    Records wire (flush wire walk .done map disk).stateBin map :=
  records_toAllocvec walk

/-- A flush replaces the file or does not touch it. -/
theorem flush_stateBin (wire : SnapshotWire) (map : Instances)
    (walk : AList.Walk String Instance) (io : FlushIo) (disk : Disk) :
    (io = .done ∧ (flush wire walk io map disk).stateBin =
        some (wire.toAllocvec (snapshotOf (walk.order map)))) ∨
      (io ≠ .done ∧ (flush wire walk io map disk).stateBin = disk.stateBin) := by
  cases io with
  | done => exact .inl ⟨rfl, rfl⟩
  | writeFailed left => exact .inr ⟨nofun, rfl⟩
  | renameFailed => exact .inr ⟨nofun, rfl⟩

theorem records_empty : Records wire none ∅ := ⟨[], rfl, .refl _⟩

end Records

/-! ## A failed start -/

section Start

variable (wire : SnapshotWire)

/-- The start left everything as it was: the instances whose server was alive are tracked, none of
their processes was signalled, and the file holds the map. -/
def LeftAlone (probe : String → Probe) (map : Instances) {α : Type} (done : Done α) : Prop :=
  (∀ name inst, map.lookup name = some inst → serverAlive (probe name) inst = true →
    done.state.instances.lookup name = some inst ∧
      ∀ gone ∈ done.terminated, ∀ pid ∈ pidsToTerminate inst, pid ∉ pidsToTerminate gone) ∧
  Records wire done.state.disk.stateBin done.state.instances

/-- A live instance of another name has the port. -/
def PortTaken (probe : String → Probe) (map : Instances) (name : String) (port : UInt16) : Prop :=
  ∃ other inst, map.lookup other = some inst ∧ serverAlive (probe other) inst = true ∧
    other ≠ name ∧ inst.port = port

variable {wire} {port : UInt16} {quic : Option QuicInstanceConfig} {env : StartEnv} {d : DaemonState}

theorem portTaken_iff (probe : String → Probe) (map : Instances) (name : String) (port : UInt16)
    (scan : AList.Walk String Instance) :
    PortTaken probe map name port ↔
      portConflictOwner (scan.order (reapDeadInstances probe map).1) name port ≠ none := by
  rw [Ne, portConflictOwner_eq_none]
  simp only [AList.Walk.lookup_order, lookup_reap, PortTaken, and_imp, not_forall, ne_eq, not_not,
    exists_prop]

/-- The ways `start_instance` can end, with what it leaves behind. -/
theorem startLocked_cases (name : String) (port : UInt16) (quic : Option QuicInstanceConfig)
    (env : StartEnv) (map : Instances) :
    (∃ owner pid, PortTaken env.probe map name port ∧
        startLocked name port quic env map =
          { instances := (reapDeadInstances env.probe map).1, terminated := none,
            flush := (reapDeadInstances env.probe map).2,
            result := .error (.portConflict port owner pid) }) ∨
      (¬ PortTaken env.probe map name port ∧ ∃ e, spawnServer quic env = .error e ∧
        startLocked name port quic env map =
          { instances := (reapDeadInstances env.probe map).1.erase name,
            terminated := (reapDeadInstances env.probe map).1.lookup name,
            flush := false, result := .error e }) ∨
      (¬ PortTaken env.probe map name port ∧ ∃ child, spawnServer quic env = .ok child ∧
        startLocked name port quic env map =
          { instances := ((reapDeadInstances env.probe map).1.erase name).insert name
              ⟨port, child.id, some child, []⟩,
            terminated := (reapDeadInstances env.probe map).1.lookup name,
            flush := true, result := .ok child.id }) := by
  have htaken := portTaken_iff env.probe map name port env.scan
  cases howner : portConflictOwner (env.scan.order (reapDeadInstances env.probe map).1) name port with
  | some owner =>
    refine .inl ⟨owner.1, owner.2, htaken.2 (by simp [howner]), ?_⟩
    simp only [startLocked, howner]
  | none =>
    have hfree : ¬ PortTaken env.probe map name port := fun h => htaken.1 h howner
    cases hspawn : spawnServer quic env with
    | error e =>
      refine .inr (.inl ⟨hfree, e, rfl, ?_⟩)
      simp only [startLocked, howner, hspawn]
    | ok child =>
      refine .inr (.inr ⟨hfree, child, rfl, ?_⟩)
      simp only [startLocked, howner, hspawn]

/-- A start leaves a live instance of another name as it is, and terminates at most the one that had
its own name. -/
theorem startInstance_other {other : String} (hother : other ≠ name)
    (hinst : d.instances.lookup other = some inst)
    (halive : serverAlive (env.probe other) inst = true) :
    (startInstance wire name port quic env d).state.instances.lookup other = some inst ∧
      ∀ gone, (startInstance wire name port quic env d).terminated = some gone →
        d.instances.lookup name = some gone := by
  have hreap := lookup_reap.2 ⟨hinst, halive⟩
  rw [startInstance]
  rcases startLocked_cases name port quic env d.instances with
    ⟨owner, pid, -, hlocked⟩ | ⟨-, e, -, hlocked⟩ | ⟨-, child, -, hlocked⟩
  · rw [hlocked]
    refine ⟨hreap, ?_⟩
    intro gone hgone
    cases hgone
  · rw [hlocked]
    exact ⟨(AList.lookup_erase_ne hother).trans hreap, fun gone hgone => (lookup_reap.1 hgone).1⟩
  · rw [hlocked]
    refine ⟨?_, fun gone hgone => (lookup_reap.1 hgone).1⟩
    rw [AList.lookup_insert_ne hother, AList.lookup_erase_ne hother]
    exact hreap

/-- The live instances that a start leaves tracked when it fails for another reason than the port:
all but the one it was to replace. -/
theorem tracked_of_erase :
    (∀ other inst, map.lookup other = some inst → serverAlive (probe other) inst = true →
      ((reapDeadInstances probe map).1.erase name).lookup other = some inst) ↔
      (reapDeadInstances probe map).1.lookup name = none := by
  constructor
  · intro h
    by_contra hne
    obtain ⟨inst, hinst⟩ := Option.ne_none_iff_exists'.1 hne
    obtain ⟨hmap, halive⟩ := lookup_reap.1 hinst
    have hgone := h name inst hmap halive
    rw [AList.lookup_erase] at hgone
    cases hgone
  · intro hnone other inst hmap halive
    have hreap := lookup_reap.2 ⟨hmap, halive⟩
    rw [AList.lookup_erase_eq]
    split
    · rename_i h
      rw [h, hnone] at hreap
      cases hreap
    · exact hreap

theorem erase_of_lookup_eq_none (h : map.lookup name = none) : map.erase name = map := by
  apply AList.ext
  exact List.kerase_of_notMem_keys (AList.lookup_eq_none.1 h)

/-- **A `start_instance` that fails leaves everything as it was, exactly when** the port was taken
and the file holds what is left or is written again, or no live instance had the requested name and
the file already held exactly the live ones. Whatever fails after the port check fails with the
old instance gone and without a flush. -/
theorem startInstance_atomic_iff {e : StartError}
    (hfail : (startInstance wire name port quic env d).result = .error e) :
    LeftAlone wire env.probe d.instances (startInstance wire name port quic env d) ↔
      (Records wire d.disk.stateBin (reapDeadInstances env.probe d.instances).1 ∧
        (PortTaken env.probe d.instances name port ∨
          (reapDeadInstances env.probe d.instances).1.lookup name = none)) ∨
      (PortTaken env.probe d.instances name port ∧
        (reapDeadInstances env.probe d.instances).2 = true ∧ env.flush = .done) := by
  rw [startInstance] at hfail ⊢
  rcases startLocked_cases name port quic env d.instances with
    ⟨owner, pid, htaken, heq⟩ | ⟨hfree, e', -, heq⟩ | ⟨hfree, child, -, heq⟩
  · rw [heq]
    have htracked : ∀ other inst, d.instances.lookup other = some inst →
        serverAlive (env.probe other) inst = true →
        (reapDeadInstances env.probe d.instances).1.lookup other = some inst :=
      fun other inst hmap halive => lookup_reap.2 ⟨hmap, halive⟩
    simp only [LeftAlone, Option.mem_def, reduceCtorEq, false_implies, implies_true, and_true,
      htaken, true_or, true_and, flushIf]
    rw [and_iff_right htracked]
    cases hreaped : (reapDeadInstances env.probe d.instances).2 with
    | false => simp
    | true =>
      simp only [if_true, true_and]
      rcases flush_stateBin wire (reapDeadInstances env.probe d.instances).1 env.walk env.flush
        d.disk with ⟨hio, hfile⟩ | ⟨hio, hfile⟩
      · rw [hfile]
        exact iff_of_true (records_toAllocvec env.walk) (.inr hio)
      · rw [hfile]
        exact ⟨.inl, fun h => h.resolve_right hio⟩
  · rw [heq]
    simp only [LeftAlone, flushIf, hfree, false_or, false_and, or_false]
    constructor
    · rintro ⟨htracked, hrecords⟩
      have hnone := tracked_of_erase.1 fun other inst hmap halive => (htracked other inst hmap halive).1
      rw [erase_of_lookup_eq_none hnone] at hrecords
      exact ⟨hrecords, hnone⟩
    · rintro ⟨hrecords, hnone⟩
      rw [hnone, erase_of_lookup_eq_none hnone]
      exact ⟨fun other inst hmap halive => ⟨lookup_reap.2 ⟨hmap, halive⟩, nofun⟩, hrecords⟩
  · rw [heq] at hfail
    cases hfail

/-- A daemon with one instance, which the file holds, and its guest app. -/
def devState : DaemonState :=
  let map : Instances := AList.singleton "dev" ⟨5710, 100, none, [201]⟩
  { instances := map,
    disk := { stateBin := some (snapshotWire.toAllocvec (snapshotOf map)), tmp := none } }

/-- Nothing fails and every process is alive. -/
def allWell : StartEnv where
  probe _ := { pidAlive := fun _ => true, tryWait := fun _ => .running }
  scan := .kept _ _
  createLogDir := true
  createLog := true
  cloneLog := true
  certMaterial := true
  spawn := some 300
  tryWait := .running
  walk := .kept _ _
  flush := .done

theorem devState_records : Records snapshotWire devState.disk.stateBin devState.instances :=
  records_toAllocvec (.kept _ _)

/-- A second instance on the same port is refused and nothing happens. -/
theorem startInstance_refused :
    (startInstance snapshotWire "other" 5710 none allWell devState).result =
        .error (.portConflict 5710 "dev" 100) ∧
      LeftAlone snapshotWire allWell.probe devState.instances
        (startInstance snapshotWire "other" 5710 none allWell devState) := by
  have hfail : (startInstance snapshotWire "other" 5710 none allWell devState).result =
      .error (.portConflict 5710 "dev" 100) := rfl
  refine ⟨hfail, (startInstance_atomic_iff hfail).2 (.inl ⟨devState_records, .inl ?_⟩)⟩
  exact ⟨"dev", ⟨5710, 100, none, [201]⟩, rfl, rfl, by decide, rfl⟩

/-- The running instance is started again, with an empty token: the start is refused when the
instance and its app are terminated, and the file still has it. -/
theorem startInstance_refused_too_late :
    let quic : QuicInstanceConfig := { bind := .v4 ⟨[127, 0, 0, 1], rfl⟩, port := none, token := "" }
    let done := startInstance snapshotWire "dev" 5710 (some quic) allWell devState
    Records snapshotWire devState.disk.stateBin devState.instances ∧
      done.result = .error .emptyToken ∧
      done.terminated = some ⟨5710, 100, none, [201]⟩ ∧
      done.state.instances.lookup "dev" = none ∧
      ¬ Records snapshotWire done.state.disk.stateBin done.state.instances ∧
      ¬ LeftAlone snapshotWire allWell.probe devState.instances done := by
  intro quic done
  have hgone : done.state.instances.lookup "dev" = none := rfl
  refine ⟨devState_records, rfl, rfl, hgone, ?_, ?_⟩
  · rintro ⟨saved, hsaved, hperm⟩
    have hfile : savedEntries snapshotWire devState.disk.stateBin = some saved := hsaved
    rw [devState, savedEntries_toAllocvec] at hfile
    cases hfile
    exact absurd hperm.length_eq (by decide)
  · rintro ⟨htracked, -⟩
    have hdev := (htracked "dev" ⟨5710, 100, none, [201]⟩ rfl rfl).1
    rw [hgone] at hdev
    cases hdev

end Start

end VBox.Controld
