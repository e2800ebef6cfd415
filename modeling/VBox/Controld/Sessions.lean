import VBox.Controld.Restart
import VBox.Lib.Table

/-!
# Controld.Sessions

The daemon's operations side by side. Every control session has a thread of its own; an operation
holds the lock while it works on the map and then flushes: the snapshot under the lock, the write of
`state.bin.tmp` and the rename without it. All threads write the same temporary file.

A step of the system is one of these atomic actions of one thread, or the end of a guest app. An
event that does not fit the phase of its thread does nothing, so that every list of events is an
interleaving.

* `step_fires`: what a step can do, one constructor for each action.
* `InHand`: somebody still has the current map in hand, or the file has it.
* `settled_records`: in a run in which no stale snapshot is written last and no failed start goes
  unrecorded, the file holds the map whenever all operations have returned.
-/

namespace VBox.Controld

open ByteCodec

/-- Where a session's thread is. -/
inductive Phase where
  | idle
  /-- `stop_instance` has taken the instance out and is about to terminate it. -/
  | terminating (inst : Instance)
  /-- `launch_app` has a running app and is about to record it. -/
  | launched (name : String) (pid : UInt32)
  /-- About to take the snapshot of a flush. -/
  | snapshot
  | write (bytes : Bytes)
  | rename
  deriving DecidableEq

/-- The thread is still to take a snapshot. -/
def Phase.Due : Phase → Prop
  | .terminating _ => True
  | .launched _ _ => True
  | .snapshot => True
  | _ => False

/-- A guest app that runs. -/
structure App where
  /-- Its `launch_app` is past the lock; nothing it still does can fail, so it returns the pid. -/
  handedOut : Bool
  signalled : Bool
  deriving DecidableEq, Repr

structure System where
  instances : Instances
  disk : Disk
  threads : Nat → Phase
  apps : Table UInt32 App

inductive Event where
  | start (t : Nat) (name : String) (port : UInt16) (quic : Option QuicInstanceConfig)
      (env : StartEnv)
  | summaries (t : Nat) (env : SummariesEnv)
  | stop (t : Nat) (name : String)
  | terminate (t : Nat)
  | launch (t : Nat) (name : String) (argv : List String) (waitReady : Nat) (env : LaunchEnv)
  | record (t : Nat)
  | snapshot (t : Nat) (walk : AList.Walk String Instance)
  | write (t : Nat)
  | rename (t : Nat)
  | exit (pid : UInt32)

namespace System

/-- The system of a daemon on which no operation is under way and no app runs. -/
def ofDaemon (d : DaemonState) : System :=
  { instances := d.instances, disk := d.disk, threads := fun _ => .idle, apps := .empty }

def goto (s : System) (t : Nat) (phase : Phase) : System :=
  { s with threads := Function.update s.threads t phase }

/-- What the process table answers: a running app is alive. -/
def seen (s : System) (probe : String → Probe) : String → Probe := fun name =>
  { probe name with pidAlive := fun pid => s.apps.contains pid || (probe name).pidAlive pid }

/-- `terminate` signals the apps and the server of the instance. -/
def signal (s : System) (inst : Instance) : Table UInt32 App :=
  s.apps.mapValues fun pid app =>
    if pid ∈ pidsToTerminate inst then { app with signalled := true } else app

def signal? (s : System) : Option Instance → Table UInt32 App
  | none => s.apps
  | some inst => s.signal inst

/-- After the lock is released. -/
def release {α : Type} (s : System) (t : Nat) (l : Locked α) : System :=
  { s with instances := l.instances, apps := s.signal? l.terminated,
           threads := Function.update s.threads t (if l.flush then .snapshot else .idle) }

def startLocked (s : System) (name : String) (port : UInt16) (quic : Option QuicInstanceConfig)
    (env : StartEnv) : Locked (Except StartError UInt32) :=
  Controld.startLocked name port quic { env with probe := s.seen env.probe } s.instances

def summariesLocked (s : System) (env : SummariesEnv) : Locked (List InstanceSummary) :=
  Controld.summariesLocked
    { env with probe := s.seen env.probe, appProbe := s.seen env.appProbe } s.instances

/-- The pid is recorded, and the call will return it. -/
def record (s : System) (t : Nat) (name : String) (pid : UInt32) : System :=
  { s with instances := recordApp name pid s.instances,
           apps := s.apps.modify pid fun app => { app with handedOut := true },
           threads := Function.update s.threads t .snapshot }

/-- A rename without a temporary file fails, which is ignored. -/
def renamed (disk : Disk) : Disk :=
  match disk.tmp with
  | some bytes => { stateBin := some bytes, tmp := none }
  | none => disk

variable (wire : SnapshotWire)

def step (s : System) : Event → System
  | .start t name port quic env =>
    match s.threads t with
    | .idle => s.release t (s.startLocked name port quic env)
    | _ => s
  | .summaries t env =>
    match s.threads t with
    | .idle => s.release t (s.summariesLocked env)
    | _ => s
  | .stop t name =>
    match s.threads t, stopLocked name s.instances with
    | .idle, some (inst, map) => { s.goto t (.terminating inst) with instances := map }
    | _, _ => s
  | .terminate t =>
    match s.threads t with
    | .terminating inst => { s.goto t .snapshot with apps := s.signal inst }
    | _ => s
  | .launch t name argv waitReady env =>
    match s.threads t, spawnApp argv waitReady env with
    | .idle, .ok pid =>
      -- the system does not give away a pid that is in use
      if s.apps.contains pid then s
      else { s.goto t (.launched name pid) with apps := s.apps.insert pid ⟨false, false⟩ }
    | _, _ => s
  | .record t =>
    match s.threads t with
    | .launched name pid => s.record t name pid
    | _ => s
  | .snapshot t walk =>
    match s.threads t with
    | .snapshot => s.goto t (.write (wire.toAllocvec (snapshotOf (walk.order s.instances))))
    | _ => s
  | .write t =>
    match s.threads t with
    | .write bytes => { s.goto t .rename with disk := { s.disk with tmp := some bytes } }
    | _ => s
  | .rename t =>
    match s.threads t with
    | .rename => { s.goto t .idle with disk := renamed s.disk }
    | _ => s
  | .exit pid => { s with apps := s.apps.remove pid }

def run (s : System) (events : List Event) : System := events.foldl (step wire) s

/-- A step that does something. -/
inductive Fires (s : System) : Event → System → Prop where
  | start {t name port quic env} : s.threads t = .idle →
      Fires s (.start t name port quic env) (s.release t (s.startLocked name port quic env))
  | summaries {t env} : s.threads t = .idle →
      Fires s (.summaries t env) (s.release t (s.summariesLocked env))
  | stop {t name inst} : s.threads t = .idle → s.instances.lookup name = some inst →
      Fires s (.stop t name)
        { s.goto t (.terminating inst) with instances := s.instances.erase name }
  | terminate {t inst} : s.threads t = .terminating inst →
      Fires s (.terminate t) { s.goto t .snapshot with apps := s.signal inst }
  | launch {t name argv waitReady env pid} : s.threads t = .idle →
      spawnApp argv waitReady env = .ok pid → s.apps.contains pid = false →
      Fires s (.launch t name argv waitReady env)
        { s.goto t (.launched name pid) with apps := s.apps.insert pid ⟨false, false⟩ }
  | record {t name pid} : s.threads t = .launched name pid →
      Fires s (.record t) (s.record t name pid)
  | snapshot {t walk} : s.threads t = .snapshot →
      Fires s (.snapshot t walk)
        (s.goto t (.write (wire.toAllocvec (snapshotOf (walk.order s.instances)))))
  | write {t bytes} : s.threads t = .write bytes →
      Fires s (.write t) { s.goto t .rename with disk := { s.disk with tmp := some bytes } }
  | rename {t} : s.threads t = .rename →
      Fires s (.rename t) { s.goto t .idle with disk := renamed s.disk }
  | exit {pid} : Fires s (.exit pid) { s with apps := s.apps.remove pid }

theorem step_fires (s : System) (e : Event) :
    s.step wire e = s ∨ Fires wire s e (s.step wire e) := by
  cases e with
  | start t name port quic env =>
    cases hphase : s.threads t <;> simp only [step, hphase, true_or]
    exact .inr (.start hphase)
  | summaries t env =>
    cases hphase : s.threads t <;> simp only [step, hphase, true_or]
    exact .inr (.summaries hphase)
  | stop t name =>
    cases hphase : s.threads t <;> simp only [step, hphase, true_or]
    cases hinst : s.instances.lookup name with
    | none => simp only [stopLocked, hinst, Option.map_none, true_or]
    | some inst =>
      simp only [stopLocked, hinst, Option.map_some]
      exact .inr (.stop hphase hinst)
  | terminate t =>
    cases hphase : s.threads t <;> simp only [step, hphase, true_or]
    exact .inr (.terminate hphase)
  | launch t name argv waitReady env =>
    cases hphase : s.threads t <;> simp only [step, hphase, true_or]
    cases hspawn : spawnApp argv waitReady env with
    | error e => simp only [true_or]
    | ok pid =>
      cases hpid : s.apps.contains pid with
      | true => simp only [if_true, hpid, true_or]
      | false =>
        simp only [hpid, Bool.false_eq_true, if_false]
        exact .inr (.launch hphase hspawn hpid)
  | record t =>
    cases hphase : s.threads t <;> simp only [step, hphase, true_or]
    exact .inr (.record hphase)
  | snapshot t walk =>
    cases hphase : s.threads t <;> simp only [step, hphase, true_or]
    exact .inr (.snapshot hphase)
  | write t =>
    cases hphase : s.threads t <;> simp only [step, hphase, true_or]
    exact .inr (.write hphase)
  | rename t =>
    cases hphase : s.threads t <;> simp only [step, hphase, true_or]
    exact .inr (.rename hphase)
  | exit pid => exact .inr .exit

/-! ## One operation at a time -/

variable {wire}

@[simp] theorem goto_threads_self (s : System) (t : Nat) (phase : Phase) :
    (s.goto t phase).threads t = phase := by
  simp [goto]

@[simp] theorem goto_instances (s : System) (t : Nat) (phase : Phase) :
    (s.goto t phase).instances = s.instances := rfl

/-- A flush that nobody interrupts is the flush of `Controld.State`. -/
theorem run_flush {s : System} {t : Nat} (h : s.threads t = .snapshot)
    (walk : AList.Walk String Instance) :
    s.run wire [.snapshot t walk, .write t, .rename t] =
      { s.goto t .idle with disk := flush wire walk .done s.instances s.disk } := by
  simp only [run, List.foldl_cons, List.foldl_nil, step, h, goto_threads_self]
  simp only [goto, Function.update_idem, renamed, flush]

/-! ## The file and the map -/

/-- All operations have returned. -/
def Settled (s : System) : Prop := ∀ t, s.threads t = .idle

section File

variable (wire)

/-- The current map is not lost: a thread is still to take a snapshot, or one has the map in its
bytes, or the map is in the temporary file and a thread is about to rename it, or the file holds
the map and no rename will bring anything else. -/
inductive InHand (s : System) : Prop where
  | due {t} : (s.threads t).Due → InHand s
  | held {t bytes} : s.threads t = .write bytes → Records wire (some bytes) s.instances → InHand s
  | written {t bytes} : s.threads t = .rename → s.disk.tmp = some bytes →
      Records wire (some bytes) s.instances → InHand s
  | saved : Records wire s.disk.stateBin s.instances →
      (∀ t bytes, s.threads t = .rename → s.disk.tmp = some bytes →
        Records wire (some bytes) s.instances) → InHand s

/-- The steps that do not lose the map. A snapshot that is written is of the current map, or another
thread is still to take one, or holds one of the current map. A start that fails after the port check
had nothing to take out of the map, or another thread is still to take a snapshot. -/
def Allows (s : System) : Event → Prop
  | .start t name port quic env =>
    s.threads t = .idle → ¬ PortTaken (s.seen env.probe) s.instances name port →
    (∃ e, spawnServer quic env = .error e) →
      ((reapDeadInstances (s.seen env.probe) s.instances).2 = false ∧
        s.instances.lookup name = none) ∨ ∃ other, (s.threads other).Due
  | .write t =>
    ∀ bytes, s.threads t = .write bytes →
      Records wire (some bytes) s.instances ∨
        ∃ other, other ≠ t ∧ ((s.threads other).Due ∨
          ∃ bytes', s.threads other = .write bytes' ∧ Records wire (some bytes') s.instances)
  | _ => True

variable {wire} {s s' : System} {t : Nat}

theorem InHand.of_same (h : InHand wire s) (hmap : s'.instances = s.instances)
    (hdisk : s'.disk = s.disk) (hthreads : s'.threads = s.threads) : InHand wire s' := by
  cases h with
  | due h => exact .due (hthreads ▸ h)
  | held h hrecords => exact .held (hthreads ▸ h) (hmap ▸ hrecords)
  | written h htmp hrecords => exact .written (hthreads ▸ h) (hdisk ▸ htmp) (hmap ▸ hrecords)
  | saved hrecords h =>
    refine .saved (by rw [hdisk, hmap]; exact hrecords) fun t bytes hphase htmp => ?_
    rw [hmap]
    exact h t bytes (hthreads ▸ hphase) (hdisk ▸ htmp)

/-- A thread in another phase is another thread. -/
theorem goto_threads_of_ne {other : Nat} {phase : Phase} (h : s.threads other ≠ s.threads t) :
    (s.goto t phase).threads other = s.threads other := by
  have hne : other ≠ t := fun heq => h (heq ▸ rfl)
  simp [goto, hne]

theorem InHand.release_flush {α : Type} {l : Locked α} (h : l.flush = true) :
    InHand wire (s.release t l) :=
  .due (t := t) (by simp [release, h, Phase.Due])

theorem InHand.release_same {α : Type} {l : Locked α} (h : InHand wire s) (hidle : s.threads t = .idle)
    (hflush : l.flush = false) (hmap : l.instances = s.instances) :
    InHand wire (s.release t l) := by
  refine h.of_same hmap rfl ?_
  simp only [release, hflush, Bool.false_eq_true, if_false]
  rw [← hidle]
  exact Function.update_eq_self t s.threads

theorem InHand.start {name : String} {port : UInt16} {quic : Option QuicInstanceConfig}
    {env : StartEnv} (h : InHand wire s) (hidle : s.threads t = .idle)
    (hallowed : s.Allows wire (.start t name port quic env)) :
    InHand wire (s.release t (s.startLocked name port quic env)) := by
  rw [startLocked]
  rcases startLocked_cases name port quic { env with probe := s.seen env.probe } s.instances with
    ⟨owner, pid, -, heq⟩ | ⟨hfree, e, hspawn, heq⟩ | ⟨-, child, -, heq⟩
  · -- the port is taken: what was reaped is flushed
    rw [heq]
    cases hreaped : (reapDeadInstances (s.seen env.probe) s.instances).2 with
    | true => exact .release_flush rfl
    | false => exact h.release_same hidle rfl (reap_eq_self hreaped)
  · rw [heq]
    rcases hallowed hidle hfree ⟨e, hspawn⟩ with ⟨hreaped, hnone⟩ | ⟨other, hdue⟩
    · refine h.release_same hidle rfl ?_
      simp only [reap_eq_self hreaped]
      exact erase_of_lookup_eq_none hnone
    · refine .due (t := other) ?_
      have hne : other ≠ t := by
        rintro rfl
        rw [hidle] at hdue
        exact hdue
      simpa [release, hne] using hdue
  · rw [heq]
    exact .release_flush rfl

theorem InHand.write {bytes : Bytes} (hphase : s.threads t = .write bytes)
    (hallowed : s.Allows wire (.write t)) :
    InHand wire { s.goto t .rename with disk := { s.disk with tmp := some bytes } } := by
  rcases hallowed bytes hphase with hrecords | ⟨other, hne, hdue | ⟨bytes', hother, hrecords⟩⟩
  · exact .written (goto_threads_self s t .rename) rfl hrecords
  · refine .due (t := other) ?_
    simpa [goto, hne] using hdue
  · refine .held (t := other) ?_ hrecords
    simpa [goto, hne] using hother

theorem InHand.rename (h : InHand wire s) (hphase : s.threads t = .rename) :
    InHand wire { s.goto t .idle with disk := renamed s.disk } := by
  cases h with
  | @due other hdue =>
    refine .due (t := other) ?_
    have hne : s.threads other ≠ s.threads t := by
      intro heq
      rw [heq, hphase] at hdue
      exact hdue
    exact (goto_threads_of_ne hne).symm ▸ hdue
  | @held other bytes hother hrecords =>
    have hne : s.threads other ≠ s.threads t := by simp [hother, hphase]
    exact .held ((goto_threads_of_ne hne).trans hother) hrecords
  | written _ htmp hrecords =>
    refine .saved ?_ fun _ _ _ h => ?_
    · simpa [renamed, htmp] using hrecords
    · simp [renamed, htmp] at h
  | saved hrecords htmps =>
    cases htmp : s.disk.tmp with
    | none =>
      refine .saved ?_ fun _ _ _ h => ?_
      · simpa [renamed, htmp] using hrecords
      · simp [renamed, htmp] at h
    | some bytes =>
      refine .saved ?_ fun _ _ _ h => ?_
      · simpa [renamed, htmp] using htmps t bytes hphase htmp
      · simp [renamed, htmp] at h

theorem InHand.step {e : Event} (h : InHand wire s) (hallowed : s.Allows wire e) :
    InHand wire (s.step wire e) := by
  rcases step_fires wire s e with hsame | hfires
  · rw [hsame]
    exact h
  generalize s.step wire e = s' at hfires
  cases hfires with
  | start hidle => exact h.start hidle hallowed
  | @summaries t env hidle =>
    cases hflush : (s.summariesLocked env).flush with
    | true => exact .release_flush hflush
    | false => exact h.release_same hidle hflush (summariesLocked_eq_self hflush)
  | @stop t name inst _ _ => exact .due (t := t) (by simp [goto, Phase.Due])
  | @terminate t inst _ => exact .due (t := t) (by simp [goto, Phase.Due])
  | @launch t name argv waitReady env pid _ _ _ => exact .due (t := t) (by simp [goto, Phase.Due])
  | @record t name pid _ => exact .due (t := t) (by simp [System.record, Phase.Due])
  | @snapshot t walk _ => exact .held (goto_threads_self s t _) (records_toAllocvec walk)
  | write hphase => exact .write hphase hallowed
  | rename hphase => exact h.rename hphase
  | exit => exact h.of_same rfl rfl rfl

theorem InHand.records (h : InHand wire s) (hsettled : s.Settled) :
    Records wire s.disk.stateBin s.instances := by
  cases h with
  | @due t h =>
    rw [hsettled t] at h
    exact h.elim
  | @held t bytes h _ =>
    rw [hsettled t] at h
    cases h
  | @written t bytes h _ _ =>
    rw [hsettled t] at h
    cases h
  | saved hrecords _ => exact hrecords

/-- **Whenever all operations have returned, the file holds the map**, in every run in which no
stale snapshot is written when nobody will write a newer one, and no start fails after it has
changed the map when nobody will record the change. -/
theorem settled_records {events : List Event} (hrecords : Records wire s.disk.stateBin s.instances)
    (hidle : s.Settled)
    (hallowed : ∀ past e, past ++ [e] <+: events → (s.run wire past).Allows wire e) :
    ∀ past, past <+: events → (s.run wire past).Settled →
      Records wire (s.run wire past).disk.stateBin (s.run wire past).instances := by
  have hstart : InHand wire s := .saved hrecords fun t _ hphase => by
    rw [hidle t] at hphase
    cases hphase
  intro past hpre
  suffices h : InHand wire (s.run wire past) from h.records
  induction past using List.reverseRecOn with
  | nil => exact hstart
  | append_singleton past e ih =>
    rw [run, List.foldl_append]
    exact (ih ((List.prefix_append past [e]).trans hpre)).step (hallowed past e hpre)

theorem allows_cons {e : Event} {events : List Event} :
    (∀ past e', past ++ [e'] <+: e :: events → (s.run wire past).Allows wire e') ↔
      s.Allows wire e ∧
        ∀ past e', past ++ [e'] <+: events → ((s.step wire e).run wire past).Allows wire e' :=
  Runs.forall_step_cons

/-- Two threads start an instance each. -/
def startA : Event := .start 1 "a" 5710 none allWell
def startB : Event := .start 2 "b" 5712 none { allWell with spawn := some 301 }

def emptySystem : System := ofDaemon { instances := ∅, disk := { stateBin := none, tmp := none } }

/-- The flushes overlap, but the snapshot that is written last was taken last. -/
theorem overlapping_flushes_record :
    let events := [startA, .snapshot 1 (.kept _ _), startB, .write 1, .snapshot 2 (.kept _ _),
      .rename 1, .write 2, .rename 2]
    (emptySystem.run snapshotWire events).instances.keys = ["b", "a"] ∧
      Records snapshotWire (emptySystem.run snapshotWire events).disk.stateBin
        (emptySystem.run snapshotWire events).instances := by
  intro events
  have hsettled : (emptySystem.run snapshotWire events).Settled := by
    intro t
    rcases t with _ | _ | _ | t <;> rfl
  refine ⟨rfl, settled_records records_empty (fun _ => rfl) ?_ events (List.prefix_refl _) hsettled⟩
  have hstarts : ∀ s : System, s.Allows snapshotWire startA ∧ s.Allows snapshotWire startB := by
    intro s
    constructor <;> (rintro - - ⟨e, he⟩; cases he)
  refine allows_cons.2 ⟨(hstarts _).1, allows_cons.2 ⟨trivial, allows_cons.2 ⟨(hstarts _).2, ?_⟩⟩⟩
  refine allows_cons.2 ⟨?_, allows_cons.2 ⟨trivial, allows_cons.2 ⟨trivial, allows_cons.2 ⟨?_,
    allows_cons.2 ⟨trivial, Runs.forall_step_nil⟩⟩⟩⟩⟩
  · -- thread 1 writes an old snapshot while thread 2 is still to take one
    exact fun _ _ => .inr ⟨2, by decide, .inl trivial⟩
  · intro bytes hphase
    cases hphase
    exact .inl (records_toAllocvec (.kept _ _))

/-- The snapshot that is written last was taken first, and the file loses an instance. -/
theorem stale_snapshot_wins :
    let events := [startA, .snapshot 1 (.kept _ _), startB, .snapshot 2 (.kept _ _), .write 2,
      .rename 2, .write 1, .rename 1]
    let s := emptySystem.run snapshotWire events
    Records snapshotWire emptySystem.disk.stateBin emptySystem.instances ∧ emptySystem.Settled ∧
      s.Settled ∧ s.instances.keys = ["b", "a"] ∧
      ¬ Records snapshotWire s.disk.stateBin s.instances := by
  intro events s
  refine ⟨records_empty, fun _ => rfl, fun t => ?_, rfl, ?_⟩
  · rcases t with _ | _ | _ | t <;> rfl
  · rintro ⟨saved, hsaved, hperm⟩
    let old : Instances := AList.singleton "a" ⟨5710, 300, some ⟨300⟩, []⟩
    have hfile : s.disk.stateBin = some (snapshotWire.toAllocvec (snapshotOf old)) := rfl
    rw [hfile, savedEntries_toAllocvec] at hsaved
    cases hsaved
    exact absurd hperm.length_eq (by decide)

end File

end System
end VBox.Controld
