import VBox.Controld.State
import VBox.Lib.Runs

/-!
# Controld.Restart

What survives a restart of the daemon, and what holds of its map over all restarts.

* `reconcile_exact`: a flushed map comes back as its live part, once and for all.
* `Distinct.step`: no operation brings two instances to one port.
* `ports_distinct`: neither does a run of them, with restarts in it.
-/

namespace VBox.Controld

open ByteCodec

variable {wire : SnapshotWire} {map : Instances} {name : String} {inst : Instance}

/-! ## The map that is read back -/

section Recovered

variable {probe : InstanceSnapshot → UInt32 → Bool} {insts : List InstanceSnapshot}

theorem mem_recovered :
    (name, inst) ∈ recovered probe insts ↔
      ∃ snap ∈ insts, snap.name = name ∧ probe snap snap.serverPid = true ∧
        inst = ⟨snap.port, snap.serverPid, none, snap.appPids.filter (probe snap)⟩ := by
  rw [recovered, List.mem_filterMap]
  refine exists_congr fun snap => and_congr_right fun _ => ?_
  cases halive : probe snap snap.serverPid with
  | false => simp [decideReconcile, halive]
  | true => simp [decideReconcile, halive, eq_comm]

theorem recovered_cons (snap : InstanceSnapshot) :
    recovered probe (snap :: insts) =
      if probe snap snap.serverPid then
        (snap.name, ⟨snap.port, snap.serverPid, none, snap.appPids.filter (probe snap)⟩) ::
          recovered probe insts
      else recovered probe insts := by
  rw [recovered, List.filterMap_cons, ← recovered]
  cases halive : probe snap snap.serverPid with
  | false => simp [decideReconcile, halive]
  | true => simp [decideReconcile, halive]

theorem recovered_names (hnodup : (insts.map (·.name)).Nodup) :
    ((recovered probe insts).map Prod.fst).Nodup := by
  refine List.Sublist.nodup ?_ hnodup
  induction insts with
  | nil => exact .slnil
  | cons snap insts ih =>
    have ih := ih (List.nodup_cons.1 hnodup).2
    rw [recovered_cons]
    split
    · exact ih.cons_cons snap.name
    · exact ih.cons snap.name

/-- From a file with distinct names, every live entry is taken over. -/
theorem lookup_recovered (hnodup : (insts.map (·.name)).Nodup) :
    ((recovered probe insts).foldl (fun m p => m.insert p.1 p.2) (∅ : Instances)).lookup name =
        some inst ↔
      ∃ snap ∈ insts, snap.name = name ∧ probe snap snap.serverPid = true ∧
        inst = ⟨snap.port, snap.serverPid, none, snap.appPids.filter (probe snap)⟩ := by
  rw [← mem_recovered, ← AList.collect, AList.lookup_collect (recovered_names hnodup)]
  constructor
  · rintro ⟨p, hp, rfl, rfl⟩
    exact hp
  · intro hp
    exact ⟨_, hp, rfl, rfl⟩

end Recovered

theorem mem_snapshotOf {snap : InstanceSnapshot} :
    snap ∈ (snapshotOf map).instances ↔
      ∃ inst, map.lookup snap.name = some inst ∧
        snap = ⟨snap.name, inst.port, inst.serverPid, inst.appPids⟩ := by
  simp only [snapshotOf, List.mem_map, AList.lookup_eq_some_iff]
  constructor
  · rintro ⟨⟨name, inst⟩, hmem, rfl⟩
    exact ⟨inst, hmem, rfl⟩
  · rintro ⟨inst, hmem, heq⟩
    exact ⟨⟨snap.name, inst⟩, hmem, heq.symm⟩

theorem snapshotOf_names : ((snapshotOf map).instances.map (·.name)).Nodup := by
  have h := map.keys_nodup
  rw [AList.keys, List.keys] at h
  simpa [snapshotOf, List.map_map, Function.comp_def] using h

/-! ## Reconciliation -/

section Reconcile

variable {env : StartupEnv} {d d' : DaemonState}

/-- What `reconcile_on_startup` has done when it returns: it has inserted the live entries of the
file, and it flushes unless there was no file. -/
theorem reconcile_ok (h : reconcileOnStartup wire env d = .ok d') :
    ∃ saved, savedEntries wire d.disk.stateBin = some saved ∧
      d'.instances = (recovered env.probe saved).foldl (fun m p => m.insert p.1 p.2) d.instances ∧
      (d'.disk = d.disk ∨ d'.disk = flush wire env.walk env.flush d'.instances d.disk) := by
  rw [reconcileOnStartup] at h
  cases hreadable : env.readable with
  | false =>
    rw [hreadable] at h
    cases h
  | true =>
    rw [hreadable] at h
    rw [savedEntries]
    cases hload : loadSnapshot wire true d.disk.stateBin with
    | error e =>
      rw [hload] at h
      cases h
    | ok found =>
      rw [hload] at h
      cases found with
      | none =>
        cases h
        exact ⟨[], rfl, rfl, .inl rfl⟩
      | some snap =>
        cases h
        exact ⟨snap.instances, rfl, rfl, .inr rfl⟩

theorem reconcile_of_saved (env : StartupEnv) (d : DaemonState) {saved : List InstanceSnapshot}
    (hreadable : env.readable = true)
    (hsaved : savedEntries wire d.disk.stateBin = some saved) :
    ∃ d', reconcileOnStartup wire env d = .ok d' := by
  rw [reconcileOnStartup, hreadable]
  rw [savedEntries] at hsaved
  cases hload : loadSnapshot wire true d.disk.stateBin with
  | error e =>
    rw [hload] at hsaved
    cases hsaved
  | ok found =>
    cases found with
    | none => exact ⟨_, rfl⟩
    | some snap => exact ⟨_, rfl⟩

end Reconcile

/-- A startup during which the process table does not change. -/
def stableEnv (pidAlive : UInt32 → Bool) (walk : AList.Walk String Instance) (io : FlushIo) :
    StartupEnv :=
  { assets := true, readable := true, probe := fun _ => pidAlive, walk, flush := io }

/-- An instance as a restarted daemon has it. -/
def reattached (pidAlive : UInt32 → Bool) (inst : Instance) : Instance :=
  ⟨inst.port, inst.serverPid, none, inst.appPids.filter pidAlive⟩

/-- What a restarted daemon has under a name of the flushed map. -/
def survivor (pidAlive : UInt32 → Bool) (found : Option Instance) : Option Instance :=
  (found.filter fun inst => pidAlive inst.serverPid).map (reattached pidAlive)

section Stable

variable {pidAlive : UInt32 → Bool} {saved : List InstanceSnapshot}

theorem survivor_eq_some {found : Option Instance} :
    survivor pidAlive found = some inst ↔
      ∃ old, found = some old ∧ pidAlive old.serverPid = true ∧ inst = reattached pidAlive old := by
  rw [survivor, Option.map_eq_some_iff]
  refine exists_congr fun old => ?_
  rw [Option.filter_eq_some_iff, and_assoc, eq_comm (a := inst)]

theorem survivor_survivor (found : Option Instance) :
    survivor pidAlive (survivor pidAlive found) = survivor pidAlive found := by
  cases found with
  | none => rfl
  | some old =>
    cases halive : pidAlive old.serverPid with
    | false => simp [survivor, Option.filter, halive]
    | true => simp [survivor, Option.filter, halive, reattached]

/-- The entries of a file that holds a map, under a stable process table. -/
theorem lookup_recovered_of_perm (hperm : saved.Perm (snapshotOf map).instances) (name : String) :
    ((recovered (fun _ => pidAlive) saved).foldl (fun m p => m.insert p.1 p.2)
        (∅ : Instances)).lookup name = survivor pidAlive (map.lookup name) := by
  have hnodup : (saved.map (·.name)).Nodup := (hperm.map _).nodup_iff.2 snapshotOf_names
  apply Option.ext
  intro inst
  rw [lookup_recovered hnodup, survivor_eq_some]
  constructor
  · rintro ⟨snap, hmem, rfl, halive, rfl⟩
    obtain ⟨old, hold, heq⟩ := mem_snapshotOf.1 (hperm.mem_iff.1 hmem)
    rw [heq] at halive ⊢
    exact ⟨old, hold, halive, rfl⟩
  · rintro ⟨old, hold, halive, rfl⟩
    exact ⟨⟨name, old.port, old.serverPid, old.appPids⟩,
      hperm.mem_iff.2 (mem_snapshotOf.2 ⟨old, hold, rfl⟩), rfl, halive, rfl⟩

/-- Inserting into a map what it already has changes nothing. -/
theorem lookup_insert_again {ps : List (String × Instance)} (hnodup : (ps.map Prod.fst).Nodup)
    (h : ∀ name, (ps.foldl (fun m p => m.insert p.1 p.2) (∅ : Instances)).lookup name =
      map.lookup name) (name : String) :
    (ps.foldl (fun m p => m.insert p.1 p.2) map).lookup name = map.lookup name := by
  apply Option.ext
  intro inst
  rw [AList.lookup_foldl_insert ps hnodup]
  have hname := h name
  constructor
  · rintro (hps | ⟨-, hmap⟩)
    · rw [← hname]
      exact (AList.lookup_foldl_insert ps hnodup ∅).2 (.inl hps)
    · exact hmap
  · intro hmap
    rw [← hname] at hmap
    exact .inl ((AList.lookup_collect hnodup).1 hmap)

/-- A daemon that starts on the file gets the map. -/
def ReadsBack (wire : SnapshotWire) (pidAlive : UInt32 → Bool) (file : Option Bytes)
    (map : Instances) : Prop :=
  ∃ saved, savedEntries wire file = some saved ∧ (saved.map (·.name)).Nodup ∧
    ∀ name, ((recovered (fun _ => pidAlive) saved).foldl (fun m p => m.insert p.1 p.2)
      (∅ : Instances)).lookup name = map.lookup name

theorem Records.readsBack {file : Option Bytes} {map' : Instances} (hrecords : Records wire file map)
    (h : ∀ name, map'.lookup name = survivor pidAlive (map.lookup name)) :
    ReadsBack wire pidAlive file map' := by
  obtain ⟨saved, hsaved, hperm⟩ := hrecords
  refine ⟨saved, hsaved, (hperm.map _).nodup_iff.2 snapshotOf_names, fun name => ?_⟩
  rw [h name]
  exact lookup_recovered_of_perm hperm name

/-- Reconciliation in a daemon that is empty or has the map already. -/
theorem ReadsBack.reconcile {disk : Disk} (h : ReadsBack wire pidAlive disk.stateBin map)
    {start : Instances} (hstart : start = ∅ ∨ start = map) (walk : AList.Walk String Instance)
    (io : FlushIo) :
    ∃ d, reconcileOnStartup wire (stableEnv pidAlive walk io) ⟨start, disk⟩ = .ok d ∧
      (∀ name, d.instances.lookup name = map.lookup name) ∧
      (d.disk.stateBin = disk.stateBin ∨ Records wire d.disk.stateBin d.instances) := by
  obtain ⟨saved, hsaved, hnodup, hread⟩ := h
  obtain ⟨d, hd⟩ := reconcile_of_saved (stableEnv pidAlive walk io) ⟨start, disk⟩ rfl hsaved
  obtain ⟨saved', hsaved', hmap, hdisk⟩ := reconcile_ok hd
  obtain rfl : saved' = saved := Option.some.inj (hsaved'.symm.trans hsaved)
  refine ⟨d, hd, fun name => ?_, ?_⟩
  · rw [hmap]
    rcases hstart with rfl | rfl
    · exact hread name
    · exact lookup_insert_again (recovered_names hnodup) hread name
  · rcases hdisk with hdisk | hdisk
    · exact .inl (congrArg Disk.stateBin hdisk)
    · rw [hdisk]
      rcases flush_stateBin wire d.instances walk io disk with ⟨-, hfile⟩ | ⟨-, hfile⟩
      · refine .inr ?_
        change Records wire (flush wire walk io d.instances disk).stateBin d.instances
        rw [hfile]
        exact records_toAllocvec walk
      · exact .inl hfile

/-- **A flushed map comes back as exactly its live part**: the instances whose server is alive, with
their name, port and server pid and with the guest apps that are alive, in their order. Reconciling
again, in a new daemon or in the running one, changes nothing, whether or not the first
reconciliation could write the file. -/
theorem reconcile_exact (wire : SnapshotWire) (map : Instances) (pidAlive : UInt32 → Bool)
    (disk : Disk) (walk walk₁ : AList.Walk String Instance) (io₁ : FlushIo) :
    ∃ d, reconcileOnStartup wire (stableEnv pidAlive walk₁ io₁)
        { instances := ∅, disk := flush wire walk .done map disk } = .ok d ∧
      (∀ name, d.instances.lookup name = survivor pidAlive (map.lookup name)) ∧
      ∀ (walk₂ : AList.Walk String Instance) (io₂ : FlushIo),
        (∃ d₂, reconcileOnStartup wire (stableEnv pidAlive walk₂ io₂)
            { instances := ∅, disk := d.disk } = .ok d₂ ∧
          ∀ name, d₂.instances.lookup name = d.instances.lookup name) ∧
        (∃ d₂, reconcileOnStartup wire (stableEnv pidAlive walk₂ io₂) d = .ok d₂ ∧
          ∀ name, d₂.instances.lookup name = d.instances.lookup name) := by
  have hflushed : Records wire (flush wire walk .done map disk).stateBin map := flush_done_records
  let live := (map.retain fun _ inst => pidAlive inst.serverPid).mapValues
    fun _ inst => reattached pidAlive inst
  have hlive : ∀ name, live.lookup name = survivor pidAlive (map.lookup name) := by
    intro name
    rw [AList.lookup_mapValues, AList.lookup_retain]
    rfl
  obtain ⟨d, hd, hmap, hfile⟩ := (hflushed.readsBack hlive).reconcile (.inl rfl) walk₁ io₁
  have hlookup : ∀ name, d.instances.lookup name = survivor pidAlive (map.lookup name) :=
    fun name => (hmap name).trans (hlive name)
  -- whichever file the first reconciliation leaves, it is read back to the same map
  have hback : ReadsBack wire pidAlive d.disk.stateBin d.instances := by
    rcases hfile with hfile | hrecords
    · rw [hfile]
      exact hflushed.readsBack hlookup
    · refine hrecords.readsBack fun name => ?_
      rw [hlookup, survivor_survivor]
  refine ⟨d, hd, hlookup, fun walk₂ io₂ => ⟨?_, ?_⟩⟩
  · obtain ⟨d₂, hd₂, hmap₂, -⟩ := hback.reconcile (.inl rfl) walk₂ io₂
    exact ⟨d₂, hd₂, hmap₂⟩
  · obtain ⟨d₂, hd₂, hmap₂, -⟩ := hback.reconcile (.inr rfl) walk₂ io₂
    exact ⟨d₂, hd₂, hmap₂⟩

end Stable

/-! ## One instance to a port -/

/-- Two tracked instances never have the same port. -/
def PortsDistinct (map : Instances) : Prop :=
  ∀ name name' inst inst', map.lookup name = some inst → map.lookup name' = some inst' →
    inst.port = inst'.port → name = name'

/-- What is read back from the file has distinct names and ports. -/
def FileDistinct (wire : SnapshotWire) (file : Option Bytes) : Prop :=
  ∀ saved, savedEntries wire file = some saved → (saved.map (·.name)).Nodup ∧
    ∀ a ∈ saved, ∀ b ∈ saved, a.port = b.port → a.name = b.name

structure Distinct (wire : SnapshotWire) (d : DaemonState) : Prop where
  ports : PortsDistinct d.instances
  file : FileDistinct wire d.disk.stateBin

/-- An operation of the daemon, with all that decides how it ends. A restart may find a read error
or a broken file, and then there is no daemon. -/
inductive DaemonOp where
  | start (name : String) (port : UInt16) (quic : Option QuicInstanceConfig) (env : StartEnv)
  | stop (name : String) (walk : AList.Walk String Instance) (io : FlushIo)
  | launch (name : String) (argv : List String) (waitReady : Nat) (env : LaunchEnv)
  | summaries (env : SummariesEnv)
  | flush (walk : AList.Walk String Instance) (io : FlushIo)
  | restart (env : StartupEnv)

def DaemonState.step (wire : SnapshotWire) (d : DaemonState) :
    DaemonOp → Except StartupError DaemonState
  | .start name port quic env => .ok (startInstance wire name port quic env d).state
  | .stop name walk io => .ok (stopInstance wire name walk io d).state
  | .launch name argv waitReady env => .ok (launchApp wire name argv waitReady env d).state
  | .summaries env => .ok (Controld.summaries wire env d).state
  | .flush walk io => .ok { d with disk := Controld.flush wire walk io d.instances d.disk }
  | .restart env => DaemonState.new wire env d.disk

def DaemonState.run (wire : SnapshotWire) (d : DaemonState) (ops : List DaemonOp) :
    Except StartupError DaemonState :=
  ops.foldlM (DaemonState.step wire) d

section Distinct

/-- A map whose instances all stood in another under their name and on their port. -/
theorem PortsDistinct.of_ports {map' : Instances} (h : PortsDistinct map)
    (hports : ∀ name inst', map'.lookup name = some inst' →
      ∃ inst, map.lookup name = some inst ∧ inst.port = inst'.port) : PortsDistinct map' := by
  intro name name' inst inst' hinst hinst' hport
  obtain ⟨old, hold, holdport⟩ := hports name inst hinst
  obtain ⟨old', hold', holdport'⟩ := hports name' inst' hinst'
  exact h name name' old old' hold hold' (by rw [holdport, holdport', hport])

theorem PortsDistinct.reap (h : PortsDistinct map) (probe : String → Probe) :
    PortsDistinct (reapDeadInstances probe map).1 :=
  h.of_ports fun _ inst hinst => ⟨inst, (lookup_reap.1 hinst).1, rfl⟩

theorem PortsDistinct.erase (h : PortsDistinct map) (name : String) :
    PortsDistinct (map.erase name) := by
  refine h.of_ports fun other inst hinst => ⟨inst, ?_, rfl⟩
  rw [AList.lookup_erase_eq] at hinst
  split at hinst
  · cases hinst
  · exact hinst

theorem PortsDistinct.insert (h : PortsDistinct map)
    (hfree : ∀ other inst', map.lookup other = some inst' → other ≠ name → inst'.port ≠ inst.port) :
    PortsDistinct (map.insert name inst) := by
  intro other other' found found' hfound hfound' hport
  rw [AList.lookup_insert_eq] at hfound hfound'
  split at hfound
  · rename_i hname
    split at hfound'
    · rename_i hname'
      rw [hname, hname']
    · rename_i hname'
      cases hfound
      exact absurd hport.symm (hfree other' found' hfound' hname')
  · rename_i hname
    split at hfound'
    · cases hfound'
      exact absurd hport (hfree other found hfound hname)
    · exact h other other' found found' hfound hfound' hport

theorem PortsDistinct.recordApp (h : PortsDistinct map) (name : String) (pid : UInt32) :
    PortsDistinct (recordApp name pid map) := by
  refine h.of_ports fun other inst' hinst' => ?_
  rw [lookup_recordApp] at hinst'
  split at hinst'
  · rename_i hname
    obtain ⟨inst, hinst, rfl⟩ := Option.map_eq_some_iff.1 hinst'
    exact ⟨inst, hname ▸ hinst, rfl⟩
  · exact ⟨inst', hinst', rfl⟩

/-- The port check is made against the live instances of other names, and the one of the same name
is taken out before the new one is put in. -/
theorem PortsDistinct.startLocked (h : PortsDistinct map) {port : UInt16}
    {quic : Option QuicInstanceConfig} {env : StartEnv} :
    PortsDistinct (startLocked name port quic env map).instances := by
  rcases startLocked_cases name port quic env map with
    ⟨owner, pid, -, heq⟩ | ⟨-, e, -, heq⟩ | ⟨hfree, child, -, heq⟩
  · rw [heq]
    exact h.reap env.probe
  · rw [heq]
    exact (h.reap env.probe).erase name
  · rw [heq]
    refine ((h.reap env.probe).erase name).insert fun other inst' hinst' hne hport => hfree ?_
    rw [AList.lookup_erase_ne hne] at hinst'
    obtain ⟨hmap, halive⟩ := lookup_reap.1 hinst'
    exact ⟨other, inst', hmap, halive, hne, hport⟩

theorem PortsDistinct.summariesLocked (h : PortsDistinct map) {env : SummariesEnv} :
    PortsDistinct (summariesLocked env map).instances := by
  refine (h.reap env.probe).of_ports fun other inst' hinst' => ?_
  rw [Controld.summariesLocked] at hinst'
  obtain ⟨inst, hinst, rfl⟩ := Option.map_eq_some_iff.1 ((AList.lookup_mapValues _).symm.trans hinst')
  exact ⟨inst, hinst, rfl⟩

theorem FileDistinct.toAllocvec (h : PortsDistinct map) (walk : AList.Walk String Instance) :
    FileDistinct wire (some (wire.toAllocvec (snapshotOf (walk.order map)))) := by
  intro saved hsaved
  rw [savedEntries_toAllocvec] at hsaved
  cases hsaved
  refine ⟨snapshotOf_names, fun a ha b hb hport => ?_⟩
  obtain ⟨insta, hinsta, heqa⟩ := mem_snapshotOf.1 ha
  obtain ⟨instb, hinstb, heqb⟩ := mem_snapshotOf.1 hb
  rw [AList.Walk.lookup_order] at hinsta hinstb
  rw [heqa, heqb] at hport
  exact h a.name b.name insta instb hinsta hinstb hport

theorem FileDistinct.flush {disk : Disk} (hfile : FileDistinct wire disk.stateBin)
    (h : PortsDistinct map) (walk : AList.Walk String Instance) (io : FlushIo) :
    FileDistinct wire (flush wire walk io map disk).stateBin := by
  rcases flush_stateBin wire map walk io disk with ⟨-, hnew⟩ | ⟨-, hnew⟩
  · rw [hnew]
    exact .toAllocvec h walk
  · rw [hnew]
    exact hfile

theorem FileDistinct.flushIf {disk : Disk} (hfile : FileDistinct wire disk.stateBin)
    (h : PortsDistinct map) (flushes : Bool) (walk : AList.Walk String Instance) (io : FlushIo) :
    FileDistinct wire (flushIf wire flushes walk io map disk).stateBin := by
  rw [Controld.flushIf]
  split
  · exact hfile.flush h walk io
  · exact hfile

/-- Instances that are read back from such a file. -/
theorem FileDistinct.portsDistinct {file : Option Bytes} (h : FileDistinct wire file)
    {saved : List InstanceSnapshot} (hsaved : savedEntries wire file = some saved)
    (probe : InstanceSnapshot → UInt32 → Bool) :
    PortsDistinct ((recovered probe saved).foldl (fun m p => m.insert p.1 p.2) ∅) := by
  obtain ⟨hnodup, hports⟩ := h saved hsaved
  intro name name' inst inst' hinst hinst' hport
  obtain ⟨snap, hsnap, rfl, -, rfl⟩ := (lookup_recovered hnodup).1 hinst
  obtain ⟨snap', hsnap', rfl, -, rfl⟩ := (lookup_recovered hnodup).1 hinst'
  exact hports snap hsnap snap' hsnap' hport

theorem FileDistinct.new {env : StartupEnv} {disk : Disk} {d : DaemonState}
    (h : FileDistinct wire disk.stateBin) (hnew : DaemonState.new wire env disk = .ok d) :
    Distinct wire d := by
  rw [DaemonState.new] at hnew
  split at hnew
  · cases hreconcile : reconcileOnStartup wire env { instances := ∅, disk } with
    | error e =>
      rw [hreconcile] at hnew
      cases hnew
    | ok d' =>
      rw [hreconcile] at hnew
      cases hnew
      obtain ⟨saved, hsaved, hmap, hdisk⟩ := reconcile_ok hreconcile
      have hports : PortsDistinct d.instances := by
        rw [hmap]
        exact h.portsDistinct hsaved env.probe
      refine ⟨hports, ?_⟩
      rcases hdisk with hdisk | hdisk
      · rw [hdisk]
        exact h
      · rw [hdisk]
        exact h.flush hports env.walk env.flush
  · cases hnew

theorem Distinct.step {d d' : DaemonState} {op : DaemonOp} (h : Distinct wire d)
    (hstep : d.step wire op = .ok d') : Distinct wire d' := by
  cases op with
  | start name port quic env =>
    cases hstep
    exact ⟨h.ports.startLocked, h.file.flushIf h.ports.startLocked _ _ _⟩
  | stop name walk io =>
    cases hstep
    cases hinst : d.instances.lookup name with
    | none => simpa [stopInstance, stopLocked, hinst] using h
    | some inst =>
      have hports := h.ports.erase name
      simp only [stopInstance, stopLocked, hinst, Option.map_some]
      exact ⟨hports, h.file.flush hports walk io⟩
  | launch name argv waitReady env =>
    cases hstep
    cases hspawn : spawnApp argv waitReady env with
    | error e => simpa [launchApp, hspawn] using h
    | ok pid =>
      have hports := h.ports.recordApp name pid
      simp only [launchApp, hspawn]
      exact ⟨hports, h.file.flush hports env.walk env.flush⟩
  | summaries env =>
    cases hstep
    exact ⟨h.ports.summariesLocked, h.file.flushIf h.ports.summariesLocked _ _ _⟩
  | flush walk io =>
    cases hstep
    exact ⟨h.ports, h.file.flush h.ports walk io⟩
  | restart env => exact h.file.new hstep

theorem Distinct.run {d d' : DaemonState} {ops : List DaemonOp} (h : Distinct wire d)
    (hrun : d.run wire ops = .ok d') : Distinct wire d' := by
  rw [DaemonState.run] at hrun
  induction ops generalizing d with
  | nil =>
    cases hrun
    exact h
  | cons op ops ih =>
    rw [List.foldlM_cons] at hrun
    cases hstep : d.step wire op with
    | error e =>
      rw [hstep] at hrun
      cases hrun
    | ok next =>
      rw [hstep] at hrun
      exact ih (h.step hstep) hrun

/-- The files an earlier daemon may have left: none, an empty one, or one that a daemon flushed
which itself had started on such a file. -/
inductive Flushed (wire : SnapshotWire) : Option Bytes → Prop where
  | missing : Flushed wire none
  | empty : Flushed wire (some [])
  | flushed {file tmp : Option Bytes} {env : StartupEnv} {ops : List DaemonOp} {d₀ d : DaemonState}
      (walk : AList.Walk String Instance) :
      Flushed wire file → DaemonState.new wire env { stateBin := file, tmp } = .ok d₀ →
      d₀.run wire ops = .ok d →
      Flushed wire (some (wire.toAllocvec (snapshotOf (walk.order d.instances))))

theorem Flushed.fileDistinct {file : Option Bytes} (h : Flushed wire file) :
    FileDistinct wire file := by
  induction h with
  | missing =>
    intro saved hsaved
    cases hsaved
    simp
  | empty =>
    intro saved hsaved
    cases hsaved
    simp
  | flushed walk _ hnew hrun ih => exact .toAllocvec ((ih.new hnew).run hrun).ports walk

/-- **No two instances share a port**, whatever is started, stopped, launched, listed and restarted,
in whatever order, whatever fails, and whatever the process table says at each probe. -/
theorem ports_distinct {file tmp : Option Bytes} {env : StartupEnv} {ops : List DaemonOp}
    {d₀ d : DaemonState} (hfile : Flushed wire file)
    (hnew : DaemonState.new wire env { stateBin := file, tmp } = .ok d₀)
    (hrun : d₀.run wire ops = .ok d) :
    d.instances.keys.Nodup ∧ PortsDistinct d.instances :=
  ⟨d.instances.keys_nodup, ((hfile.fileDistinct.new hnew).run hrun).ports⟩

/-- Two instances, a refused third, and a second start of the first on another port. -/
theorem ports_distinct_moved :
    let env := stableEnv (fun _ => true) (.kept _ _) .done
    let ops : List DaemonOp :=
      [.start "a" 5710 none allWell, .start "b" 5712 none allWell, .start "c" 5712 none allWell,
        .start "a" 5714 none allWell, .start "c" 5710 none allWell]
    ∃ d₀ d, DaemonState.new snapshotWire env { stateBin := none, tmp := none } = .ok d₀ ∧
      d₀.run snapshotWire ops = .ok d ∧
      d.instances.entries.map (fun e => (e.1, e.2.port)) = [("c", 5710), ("a", 5714), ("b", 5712)] ∧
      PortsDistinct d.instances := by
  intro env ops
  have hnew : DaemonState.new snapshotWire env { stateBin := none, tmp := none } =
      .ok { instances := ∅, disk := { stateBin := none, tmp := none } } := rfl
  obtain ⟨d, hrun, hentries⟩ : ∃ d, DaemonState.run snapshotWire
      { instances := ∅, disk := { stateBin := none, tmp := none } } ops = .ok d ∧
      d.instances.entries.map (fun e => (e.1, e.2.port)) =
        [("c", 5710), ("a", 5714), ("b", 5712)] := ⟨_, rfl, rfl⟩
  exact ⟨_, d, hnew, hrun, hentries, (ports_distinct .missing hnew hrun).2⟩

end Distinct

end VBox.Controld
