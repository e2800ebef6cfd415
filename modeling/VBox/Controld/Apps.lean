import VBox.Controld.Sessions

/-!
# Controld.Apps

Who answers for a guest app. `launch_app` spawns the app without the lock and records its pid
afterwards, if the instance is still there. An instance whose server is gone is dropped from the map
with its list of apps, by the next `start_instance` or `summaries`.

An app is accounted for while a tracked instance lists it, while a `terminate` that is under way is
about to signal it, or once it has been signalled.

* `accountable_step`: a step keeps every app accounted for if and only if it is one of `KeepsApps`.
* `accountable_iff`: so do whole runs.
-/

namespace VBox.Controld
namespace System

/-- A tracked instance lists the app. -/
def Tracked (s : System) (pid : UInt32) : Prop :=
  ∃ name inst, s.instances.lookup name = some inst ∧ pid ∈ inst.appPids

/-- A `stop_instance` has taken the instance out and is about to signal the app. -/
def Doomed (s : System) (pid : UInt32) : Prop :=
  ∃ t inst, s.threads t = .terminating inst ∧ pid ∈ pidsToTerminate inst

/-- Every app that still runs and whose pid `launch_app` has handed out is accounted for. -/
def Accountable (s : System) : Prop :=
  ∀ pid app, s.apps.get? pid = some app → app.handedOut = true →
    app.signalled = true ∨ s.Doomed pid ∨ s.Tracked pid

/-- The app is accounted for by something else than an instance whose server is found dead. -/
def Kept (s : System) (probe : String → Probe) (pid : UInt32) (app : App) : Prop :=
  app.signalled = true ∨ s.Doomed pid ∨
    ∃ name inst, s.instances.lookup name = some inst ∧ serverAlive (probe name) inst = true ∧
      pid ∈ inst.appPids

/-- The start replaces a live instance and so signals the process. -/
def Replaced (s : System) (probe : String → Probe) (name : String) (port : UInt16)
    (pid : UInt32) : Prop :=
  ¬ PortTaken probe s.instances name port ∧
    ∃ inst, s.instances.lookup name = some inst ∧ serverAlive (probe name) inst = true ∧
      pid ∈ pidsToTerminate inst

/-- The running apps of the instances whose server is found dead. -/
def ReapedApp (s : System) (probe : String → Probe) (pid : UInt32) (app : App) : Prop :=
  s.apps.get? pid = some app ∧ app.handedOut = true ∧
    ∃ name inst, s.instances.lookup name = some inst ∧ serverAlive (probe name) inst = false ∧
      pid ∈ inst.appPids

/-- The steps that lose no app. No instance is reaped that lists a running app, unless something
else accounts for it; and an app is recorded while its instance is tracked, unless it has ended. -/
def KeepsApps (s : System) : Event → Prop
  | .start t name port _ env =>
    s.threads t = .idle → ∀ pid app, s.ReapedApp (s.seen env.probe) pid app →
      s.Kept (s.seen env.probe) pid app ∨ s.Replaced (s.seen env.probe) name port pid
  | .summaries t env =>
    s.threads t = .idle → ∀ pid app, s.ReapedApp (s.seen env.probe) pid app →
      s.Kept (s.seen env.probe) pid app
  | .record t =>
    ∀ name pid app, s.threads t = .launched name pid → s.apps.get? pid = some app →
      s.instances.lookup name ≠ none ∨ app.signalled = true ∨ s.Doomed pid ∨ s.Tracked pid
  | _ => True

variable {s s' : System} {t : Nat} {pid : UInt32}

/-- The thread was not terminating and is not now. -/
theorem doomed_goto {phase : Phase} (h : ∀ inst, s.threads t ≠ .terminating inst)
    (h' : ∀ inst, phase ≠ .terminating inst) : (s.goto t phase).Doomed pid ↔ s.Doomed pid := by
  constructor
  · rintro ⟨other, inst, hother, hpid⟩
    by_cases hne : other = t
    · subst hne
      rw [goto_threads_self] at hother
      exact absurd hother (h' inst)
    · refine ⟨other, inst, ?_, hpid⟩
      simpa [goto, hne] using hother
  · rintro ⟨other, inst, hother, hpid⟩
    refine ⟨other, inst, ?_, hpid⟩
    rw [goto_threads_of_ne]
    · exact hother
    · rw [hother]
      exact (h inst).symm

theorem get?_signal {inst : Instance} {app' : App} :
    (s.signal inst).get? pid = some app' ↔
      ∃ app, s.apps.get? pid = some app ∧
        app' = if pid ∈ pidsToTerminate inst then { app with signalled := true } else app := by
  rw [signal, Table.get?_mapValues, Option.map_eq_some_iff]
  simp only [eq_comm]

/-! ## Reaping -/

/-- Under a locked section of an idle thread nothing changes for the instances that are being
terminated. -/
theorem doomed_release {α : Type} {l : Locked α} (hidle : s.threads t = .idle) :
    (s.release t l).Doomed pid ↔ s.Doomed pid := by
  have hphase : ∀ inst, (if l.flush then Phase.snapshot else .idle) ≠ .terminating inst := by
    intro inst
    split <;> exact nofun
  exact doomed_goto (fun inst => by rw [hidle]; exact nofun) hphase

/-- Of the running apps it is enough to look at those of the instances that are reaped. -/
theorem forall_kept_iff (h : s.Accountable) (probe : String → Probe) (P : UInt32 → Prop) :
    (∀ pid app, s.apps.get? pid = some app → app.handedOut = true → s.Kept probe pid app ∨ P pid) ↔
      ∀ pid app, s.ReapedApp probe pid app → s.Kept probe pid app ∨ P pid := by
  constructor
  · rintro hall pid app ⟨hget, hout, -⟩
    exact hall pid app hget hout
  · intro hall pid app hget hout
    rcases h pid app hget hout with hsignalled | hdoomed | ⟨name, inst, hinst, hpid⟩
    · exact .inl (.inl hsignalled)
    · exact .inl (.inr (.inl hdoomed))
    · cases halive : serverAlive (probe name) inst with
      | true => exact .inl (.inr (.inr ⟨name, inst, hinst, halive, hpid⟩))
      | false => exact hall pid app ⟨hget, hout, name, inst, hinst, halive, hpid⟩

theorem seen_alive {probe : String → Probe} {app : App} (h : s.apps.get? pid = some app)
    (name : String) : (s.seen probe name).pidAlive pid = true := by
  simp [seen, Table.contains_of_get? h]

/-- After `summaries` a running app is listed by the instances that were found alive and listed
it. -/
theorem tracked_summaries {env : SummariesEnv} {app : App} (h : s.apps.get? pid = some app) :
    (s.release t (s.summariesLocked env)).Tracked pid ↔
      ∃ name inst, s.instances.lookup name = some inst ∧
        serverAlive (s.seen env.probe name) inst = true ∧ pid ∈ inst.appPids := by
  have hlookup : ∀ name, (s.release t (s.summariesLocked env)).instances.lookup name =
      ((reapDeadInstances (s.seen env.probe) s.instances).1.lookup name).map fun inst =>
        { inst with appPids := inst.appPids.filter (s.seen env.appProbe name).pidAlive } :=
    fun name => AList.lookup_mapValues _
  constructor
  · rintro ⟨name, inst', hinst', hpid⟩
    rw [hlookup] at hinst'
    obtain ⟨inst, hinst, rfl⟩ := Option.map_eq_some_iff.1 hinst'
    obtain ⟨hmap, halive⟩ := lookup_reap.1 hinst
    exact ⟨name, inst, hmap, halive, List.mem_of_mem_filter hpid⟩
  · rintro ⟨name, inst, hmap, halive, hpid⟩
    refine ⟨name, { inst with appPids := inst.appPids.filter (s.seen env.appProbe name).pidAlive },
      ?_, List.mem_filter.2 ⟨hpid, seen_alive h name⟩⟩
    rw [hlookup, lookup_reap.2 ⟨hmap, halive⟩, Option.map_some]

theorem accountable_summaries (h : s.Accountable) (hidle : s.threads t = .idle)
    (env : SummariesEnv) :
    (s.release t (s.summariesLocked env)).Accountable ↔ s.KeepsApps (.summaries t env) := by
  have hkeeps := forall_kept_iff h (s.seen env.probe) fun _ => False
  simp only [or_false] at hkeeps
  rw [KeepsApps, forall_prop_of_true hidle, ← hkeeps]
  refine forall_congr' fun pid => forall_congr' fun app => forall_congr' fun hget => ?_
  have hrunning : s.apps.get? pid = some app := hget
  rw [doomed_release hidle, tracked_summaries hrunning, Kept]

/-- What a start does to the apps: those of the instance it replaces are signalled. -/
theorem accountable_release {α : Type} {l : Locked α} (hidle : s.threads t = .idle) :
    (s.release t l).Accountable ↔
      ∀ pid app, s.apps.get? pid = some app → app.handedOut = true →
        app.signalled = true ∨ s.Doomed pid ∨ (s.release t l).Tracked pid ∨
          ∃ inst, l.terminated = some inst ∧ pid ∈ pidsToTerminate inst := by
  have happs : (s.release t l).apps = s.signal? l.terminated := rfl
  cases hterminated : l.terminated with
  | none =>
    rw [hterminated] at happs
    refine forall_congr' fun pid => forall_congr' fun app => ?_
    rw [happs, doomed_release hidle]
    simp [signal?]
  | some inst =>
    rw [hterminated] at happs
    constructor
    · intro h pid app hget hout
      have hafter := h pid (if pid ∈ pidsToTerminate inst then { app with signalled := true } else app)
        (by rw [happs]; exact get?_signal.2 ⟨app, hget, rfl⟩) (by split <;> exact hout)
      by_cases hpid : pid ∈ pidsToTerminate inst
      · exact .inr (.inr (.inr ⟨inst, rfl, hpid⟩))
      · rw [if_neg hpid, doomed_release hidle] at hafter
        rcases hafter with hsignalled | hdoomed | htracked
        · exact .inl hsignalled
        · exact .inr (.inl hdoomed)
        · exact .inr (.inr (.inl htracked))
    · intro h pid app' hget' hout'
      rw [happs] at hget'
      obtain ⟨app, hget, rfl⟩ := get?_signal.1 hget'
      by_cases hpid : pid ∈ pidsToTerminate inst
      · rw [if_pos hpid]
        exact .inl rfl
      · rw [if_neg hpid] at hout' ⊢
        rw [doomed_release hidle]
        rcases h pid app hget hout' with hsignalled | hdoomed | htracked | ⟨inst', hinst', hmem⟩
        · exact .inl hsignalled
        · exact .inr (.inl hdoomed)
        · exact .inr (.inr htracked)
        · cases hinst'
          exact absurd hmem hpid

/-- Past the port check, whatever becomes of the new server: the live instances of other names keep
their apps, and those of the requested one are terminated. -/
theorem replaced_iff {probe : String → Probe} {name : String} {port : UInt16} {map : Instances}
    (hfree : ¬ PortTaken probe s.instances name port)
    (hother : ∀ other, other ≠ name →
      map.lookup other = (reapDeadInstances probe s.instances).1.lookup other)
    (hname : ∀ inst, map.lookup name = some inst → inst.appPids = []) :
    ((∃ other inst, map.lookup other = some inst ∧ pid ∈ inst.appPids) ∨
        ∃ inst, (reapDeadInstances probe s.instances).1.lookup name = some inst ∧
          pid ∈ pidsToTerminate inst) ↔
      (∃ other inst, s.instances.lookup other = some inst ∧
        serverAlive (probe other) inst = true ∧ pid ∈ inst.appPids) ∨
        s.Replaced probe name port pid := by
  constructor
  · rintro (⟨other, inst, hinst, hpid⟩ | ⟨inst, hinst, hpid⟩)
    · by_cases hne : other = name
      · subst hne
        rw [hname inst hinst] at hpid
        cases hpid
      · rw [hother other hne] at hinst
        obtain ⟨hmap, halive⟩ := lookup_reap.1 hinst
        exact .inl ⟨other, inst, hmap, halive, hpid⟩
    · obtain ⟨hmap, halive⟩ := lookup_reap.1 hinst
      exact .inr ⟨hfree, inst, hmap, halive, hpid⟩
  · rintro (⟨other, inst, hmap, halive, hpid⟩ | ⟨-, inst, hmap, halive, hpid⟩)
    · by_cases hne : other = name
      · subst hne
        exact .inr ⟨inst, lookup_reap.2 ⟨hmap, halive⟩, List.mem_append_left _ hpid⟩
      · refine .inl ⟨other, inst, ?_, hpid⟩
        rw [hother other hne]
        exact lookup_reap.2 ⟨hmap, halive⟩
    · exact .inr ⟨inst, lookup_reap.2 ⟨hmap, halive⟩, hpid⟩

theorem accountable_start (h : s.Accountable) (hidle : s.threads t = .idle) (name : String)
    (port : UInt16) (quic : Option QuicInstanceConfig) (env : StartEnv) :
    (s.release t (s.startLocked name port quic env)).Accountable ↔
      s.KeepsApps (.start t name port quic env) := by
  rw [accountable_release hidle, KeepsApps, forall_prop_of_true hidle, ← forall_kept_iff h]
  refine forall_congr' fun pid => forall_congr' fun app => forall_congr' fun hget =>
    forall_congr' fun hout => ?_
  rw [Kept, or_assoc, or_assoc]
  refine or_congr_right (or_congr_right ?_)
  have hcases := startLocked_cases name port quic { env with probe := s.seen env.probe } s.instances
  rw [← startLocked] at hcases
  rcases hcases with ⟨owner, pid', htaken, heq⟩ | ⟨hfree, e, -, heq⟩ | ⟨hfree, child, -, heq⟩
  · rw [heq]
    have hreplaced : ¬ s.Replaced (s.seen env.probe) name port pid := fun hr => hr.1 htaken
    simp only [Tracked, release, lookup_reap, and_assoc, reduceCtorEq, false_and, exists_false,
      or_false, hreplaced]
  · rw [heq]
    simp only [Tracked, release]
    refine replaced_iff hfree (fun other hne => AList.lookup_erase_ne hne) fun inst hinst => ?_
    rw [AList.lookup_erase] at hinst
    cases hinst
  · rw [heq]
    simp only [Tracked, release]
    refine replaced_iff hfree (fun other hne => ?_) fun inst hinst => ?_
    · rw [AList.lookup_insert_ne hne, AList.lookup_erase_ne hne]
    · rw [AList.lookup_insert] at hinst
      cases hinst
      rfl

/-! ## The other steps -/

theorem tracked_record {name : String} {pid' : UInt32} :
    (s.record t name pid').Tracked pid ↔
      (pid = pid' ∧ s.instances.lookup name ≠ none) ∨ s.Tracked pid := by
  simp only [Tracked, record, lookup_recordApp]
  constructor
  · rintro ⟨other, inst', hinst', hpid⟩
    split at hinst'
    · rename_i hother
      obtain ⟨inst, hinst, rfl⟩ := Option.map_eq_some_iff.1 hinst'
      rcases List.mem_append.1 hpid with hpid | hpid
      · exact .inr ⟨name, inst, hinst, hpid⟩
      · exact .inl ⟨List.mem_singleton.1 hpid, by rw [hinst]; exact Option.some_ne_none inst⟩
    · exact .inr ⟨other, inst', hinst', hpid⟩
  · rintro (⟨rfl, hsome⟩ | ⟨other, inst, hinst, hpid⟩)
    · obtain ⟨inst, hinst⟩ := Option.ne_none_iff_exists'.1 hsome
      refine ⟨name, { inst with appPids := inst.appPids ++ [pid] }, ?_, by simp⟩
      rw [if_pos rfl, hinst, Option.map_some]
    · by_cases hother : other = name
      · subst hother
        refine ⟨other, { inst with appPids := inst.appPids ++ [pid'] }, ?_, by simp [hpid]⟩
        rw [if_pos rfl, hinst, Option.map_some]
      · refine ⟨other, inst, ?_, hpid⟩
        rw [if_neg hother]
        exact hinst

theorem accountable_record (h : s.Accountable) {name : String} {pid : UInt32}
    (hphase : s.threads t = .launched name pid) :
    (s.record t name pid).Accountable ↔ s.KeepsApps (.record t) := by
  have hdoomed : ∀ pid', (s.record t name pid).Doomed pid' ↔ s.Doomed pid' := fun _ =>
    doomed_goto (fun inst => by rw [hphase]; exact nofun) nofun
  have hget : ∀ pid', (s.record t name pid).apps.get? pid' =
      if pid' = pid then (s.apps.get? pid).map fun app => { app with handedOut := true }
      else s.apps.get? pid' := fun pid' => s.apps.get?_modify pid pid' _
  constructor
  · intro hafter name' pid' app hphase' happ
    rw [hphase] at hphase'
    cases hphase'
    have hnew := hafter pid { app with handedOut := true }
      (by rw [hget, if_pos rfl, happ, Option.map_some]) rfl
    rw [hdoomed, tracked_record] at hnew
    rcases hnew with hsignalled | hd | ⟨-, hsome⟩ | htracked
    · exact .inr (.inl hsignalled)
    · exact .inr (.inr (.inl hd))
    · exact .inl hsome
    · exact .inr (.inr (.inr htracked))
  · intro hkeeps pid' app' hget' hout
    rw [hdoomed, tracked_record]
    rw [hget] at hget'
    split at hget'
    · rename_i hpid
      subst hpid
      obtain ⟨app, happ, rfl⟩ := Option.map_eq_some_iff.1 hget'
      rcases hkeeps name pid' app hphase happ with hsome | hsignalled | hd | htracked
      · exact .inr (.inr (.inl ⟨rfl, hsome⟩))
      · exact .inl hsignalled
      · exact .inr (.inl hd)
      · exact .inr (.inr (.inr htracked))
    · rcases h pid' app' hget' hout with hsignalled | hd | htracked
      · exact .inl hsignalled
      · exact .inr (.inl hd)
      · exact .inr (.inr (.inr htracked))

/-- The apps of an instance that is taken out are about to be signalled. -/
theorem Accountable.stop (h : s.Accountable) (hidle : s.threads t = .idle) {name : String}
    {inst : Instance} (hinst : s.instances.lookup name = some inst) :
    Accountable { s.goto t (.terminating inst) with instances := s.instances.erase name } := by
  intro pid app hget hout
  rcases h pid app hget hout with
    hsignalled | ⟨other, inst', hother, hpid⟩ | ⟨other, inst', hother, hpid⟩
  · exact .inl hsignalled
  · refine .inr (.inl ⟨other, inst', ?_, hpid⟩)
    exact (goto_threads_of_ne (by rw [hother, hidle]; exact nofun)).trans hother
  · by_cases hne : other = name
    · subst hne
      rw [hinst] at hother
      cases hother
      exact .inr (.inl ⟨t, inst, goto_threads_self s t _, List.mem_append_left _ hpid⟩)
    · refine .inr (.inr ⟨other, inst', ?_, hpid⟩)
      exact (AList.lookup_erase_ne hne).trans hother

theorem Accountable.terminate (h : s.Accountable) {inst : Instance}
    (hphase : s.threads t = .terminating inst) :
    Accountable { s.goto t .snapshot with apps := s.signal inst } := by
  intro pid app' hget' hout'
  obtain ⟨app, hget, rfl⟩ := get?_signal.1 hget'
  by_cases hpid : pid ∈ pidsToTerminate inst
  · rw [if_pos hpid]
    exact .inl rfl
  · rw [if_neg hpid] at hout' ⊢
    rcases h pid app hget hout' with hsignalled | ⟨other, inst', hother, hpid'⟩ | htracked
    · exact .inl hsignalled
    · -- the instance that is about to be signalled is another one
      have hne : s.threads other ≠ s.threads t := by
        rw [hother, hphase]
        rintro heq
        cases heq
        exact hpid hpid'
      exact .inr (.inl ⟨other, inst', (goto_threads_of_ne hne).trans hother, hpid'⟩)
    · exact .inr (.inr htracked)

/-- A step that changes no map and no app, of a thread that is not terminating. -/
theorem Accountable.goto (h : s.Accountable) (phase : Phase)
    (hphase : ∀ inst, s.threads t ≠ .terminating inst) (hphase' : ∀ inst, phase ≠ .terminating inst)
    (disk : Disk) : Accountable { s.goto t phase with disk } := by
  intro pid app hget hout
  rcases h pid app hget hout with hsignalled | hdoomed | htracked
  · exact .inl hsignalled
  · exact .inr (.inl ((doomed_goto hphase hphase').2 hdoomed))
  · exact .inr (.inr htracked)

theorem Accountable.launch (h : s.Accountable) (hidle : s.threads t = .idle) (name : String)
    {pid : UInt32} :
    Accountable { s.goto t (.launched name pid) with apps := s.apps.insert pid ⟨false, false⟩ } := by
  intro pid' app hget hout
  rw [Table.get?_insert] at hget
  split at hget
  · cases hget
    cases hout
  · have hgoto : Accountable { s.goto t (.launched name pid) with disk := s.disk } :=
      h.goto (.launched name pid) (fun inst => by rw [hidle]; exact nofun) nofun s.disk
    exact hgoto pid' app hget hout

/-! ## Runs -/

variable {wire : SnapshotWire}

/-- An event that does not fit the phase of its thread loses no app. -/
theorem keepsApps_of_step_eq {e : Event} (h : s.Accountable) (hsame : s.step wire e = s) :
    s.KeepsApps e := by
  cases e with
  | start t name port quic env =>
    intro hidle
    have hstep : s.step wire (.start t name port quic env) =
        s.release t (s.startLocked name port quic env) := by simp only [step, hidle]
    exact (accountable_start h hidle name port quic env).1 (hstep ▸ hsame.symm ▸ h) hidle
  | summaries t env =>
    intro hidle
    have hstep : s.step wire (.summaries t env) = s.release t (s.summariesLocked env) := by
      simp only [step, hidle]
    exact (accountable_summaries h hidle env).1 (hstep ▸ hsame.symm ▸ h) hidle
  | record t =>
    intro name pid app hphase happ
    have hstep : s.step wire (.record t) = s.record t name pid := by simp only [step, hphase]
    exact (accountable_record h hphase).1 (hstep ▸ hsame.symm ▸ h) name pid app hphase happ
  | stop t name => trivial
  | terminate t => trivial
  | launch t name argv waitReady env => trivial
  | snapshot t walk => trivial
  | write t => trivial
  | rename t => trivial
  | exit pid => trivial

theorem accountable_step (h : s.Accountable) (e : Event) :
    (s.step wire e).Accountable ↔ s.KeepsApps e := by
  rcases step_fires wire s e with hsame | hfires
  · rw [hsame]
    exact iff_of_true h (keepsApps_of_step_eq h hsame)
  generalize s.step wire e = s' at hfires
  cases hfires with
  | start hidle => exact accountable_start h hidle _ _ _ _
  | summaries hidle => exact accountable_summaries h hidle _
  | stop hidle hinst => exact iff_of_true (h.stop hidle hinst) trivial
  | terminate hphase => exact iff_of_true (h.terminate hphase) trivial
  | launch hidle _ _ => exact iff_of_true (h.launch hidle _) trivial
  | record hphase => exact accountable_record h hphase
  | snapshot hphase =>
    exact iff_of_true (h.goto (.write _) (fun inst => by rw [hphase]; exact nofun) nofun s.disk) trivial
  | write hphase =>
    exact iff_of_true (h.goto .rename (fun inst => by rw [hphase]; exact nofun) nofun _) trivial
  | rename hphase =>
    exact iff_of_true (h.goto .idle (fun inst => by rw [hphase]; exact nofun) nofun _) trivial
  | exit =>
    refine iff_of_true (fun pid app hget hout => ?_) trivial
    exact h pid app (Table.get?_of_remove hget) hout

/-- **Every app stays accounted for all along a run, exactly when** no instance is reaped while it
lists a running app that nothing else accounts for, and no app is recorded when its instance is gone
and the app still runs. -/
theorem accountable_iff (wire : SnapshotWire) (d : DaemonState) (events : List Event) :
    (∀ past, past <+: events → ((ofDaemon d).run wire past).Accountable) ↔
      ∀ past e, past ++ [e] <+: events → ((ofDaemon d).run wire past).KeepsApps e := by
  have hstart : (ofDaemon d).Accountable := fun _ _ hget => by cases hget
  exact Runs.forall_prefix_iff hstart (fun _ e hs => accountable_step hs e) events

/-- A launch that works. -/
def launchWell : LaunchEnv where
  runtimeDir := true
  socketExists := true
  createLogDir := true
  openLog := true
  cloneLog := true
  spawn := some 400
  tryWait := .running
  polls := []
  walk := .kept _ _
  flush := .done

/-- The instance is stopped while its app comes up: `launch_app` returns a pid that no instance
lists and that nobody has signalled. -/
theorem launched_into_nothing :
    let events : List Event :=
      [.launch 1 "dev" ["gedit"] 0 launchWell, .stop 2 "dev", .terminate 2,
        .snapshot 2 (.kept _ _), .write 2, .rename 2, .record 1, .snapshot 1 (.kept _ _), .write 1,
        .rename 1]
    let s := (ofDaemon devState).run snapshotWire events
    s.Settled ∧ s.apps.get? 400 = some ⟨true, false⟩ ∧ s.instances = ∅ ∧ ¬ s.Accountable := by
  intro events s
  have hsettled : s.Settled := by
    intro t
    rcases t with _ | _ | _ | t <;> rfl
  refine ⟨hsettled, rfl, rfl, fun h => ?_⟩
  rcases h 400 ⟨true, false⟩ rfl rfl with hsignalled | ⟨t, inst, hphase, -⟩ | ⟨name, inst, hinst, -⟩
  · cases hsignalled
  · rw [hsettled t] at hphase
    cases hphase
  · cases hinst

end System
end VBox.Controld
