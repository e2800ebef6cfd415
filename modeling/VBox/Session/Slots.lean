import VBox.Lib.Runs
import Mathlib.Algebra.Group.Nat.Defs
import Mathlib.Data.List.Basic

/-!
# Session.Slots

The accept loop of the server (`main` in `crates/server/src/main.rs`) and its count of connections.
The main thread loads the counter, decides, and adds one before it spawns the handler; the handler's
thread subtracts one after the handler has returned. A handler that panics unwinds past the
subtraction.

* `exact_step`: a step keeps the count exact if and only if no handler panics in it (and the counter
  does not wrap around).
* `exact_iff`: so do whole runs.
-/

namespace VBox

inductive AcceptDecision where
  | accept (activeAfter : UInt64)
  | reject (activeUnchanged : UInt64)
  deriving DecidableEq, Repr

/-- The addition wraps around, as `usize` does in a release build. -/
def decideAccept (currentActive maxClients : UInt64) : AcceptDecision :=
  let attempted := currentActive + 1
  if maxClients < attempted then .reject currentActive else .accept attempted

/-- Where the main thread is in the loop. -/
inductive AcceptPhase where
  | accepting
  | loaded (current : UInt64)
  /-- It has added one and is about to spawn the handler's thread. -/
  | spawning
  /-- The thread could not be spawned, and the process is gone. -/
  | exited
  deriving DecidableEq

inductive HandlerEnd where
  | ok
  | err
  | panicked
  deriving DecidableEq

structure AcceptLoop where
  active : UInt64
  main : AcceptPhase
  /-- The handlers that run. -/
  running : List Nat
  /-- Those that have returned and are about to subtract one. -/
  leaving : List Nat
  /-- The next handler. -/
  next : Nat

inductive AcceptEvent where
  | incoming
  | acceptError
  | decide
  | spawned
  | spawnFailed
  | ended (handler : Nat) (how : HandlerEnd)
  | released (handler : Nat)

namespace AcceptLoop

def start : AcceptLoop :=
  { active := 0, main := .accepting, running := [], leaving := [], next := 0 }

def step (maxClients : UInt64) (s : AcceptLoop) : AcceptEvent → AcceptLoop
  | .incoming =>
    match s.main with
    | .accepting => { s with main := .loaded s.active }
    | _ => s
  | .acceptError => s
  | .decide =>
    match s.main with
    | .loaded current =>
      match decideAccept current maxClients with
      | .reject _ => { s with main := .accepting }
      | .accept _ => { s with active := s.active + 1, main := .spawning }
    | _ => s
  | .spawned =>
    match s.main with
    | .spawning =>
      { s with main := .accepting, running := s.next :: s.running, next := s.next + 1 }
    | _ => s
  | .spawnFailed =>
    match s.main with
    | .spawning => { s with active := 0, main := .exited, running := [], leaving := [] }
    | _ => s
  | .ended handler how =>
    if handler ∈ s.running then
      match how with
      | .ok | .err =>
        { s with running := s.running.erase handler, leaving := handler :: s.leaving }
      | .panicked => { s with running := s.running.erase handler }
    else s
  | .released handler =>
    if handler ∈ s.leaving then
      { s with active := s.active - 1, leaving := s.leaving.erase handler }
    else s

def run (maxClients : UInt64) (events : List AcceptEvent) : AcceptLoop :=
  events.foldl (step maxClients) start

/-- The handlers that have a slot: those that run, those that are about to give it back, and the one
that is about to be spawned. -/
def slots (s : AcceptLoop) : Nat :=
  s.running.length + s.leaving.length + if s.main = .spawning then 1 else 0

/-- The counter counts the handlers, and there are not too many. -/
def Exact (maxClients : UInt64) (s : AcceptLoop) : Prop :=
  s.active.toNat = s.slots ∧ s.active.toNat ≤ maxClients.toNat

/-- What the main thread has loaded is not less than the counter, which only it increases. -/
def Loaded (maxClients : UInt64) (s : AcceptLoop) : Prop :=
  ∀ current, s.main = .loaded current →
    s.active.toNat ≤ current.toNat ∧ current.toNat ≤ maxClients.toNat

/-- No running handler panics, and no connection is decided on while the counter is at the largest
`usize`. -/
def Allows (s : AcceptLoop) : AcceptEvent → Prop
  | .ended handler .panicked => handler ∉ s.running
  | .decide => ¬ (s.main = .loaded (UInt64.ofNat (2 ^ 64 - 1)) ∧ s.active = UInt64.ofNat (2 ^ 64 - 1))
  | _ => True

variable {maxClients : UInt64} {s : AcceptLoop}

theorem toNat_add_one (n : UInt64) : (n + 1).toNat = (n.toNat + 1) % 2 ^ 64 :=
  UInt64.toNat_add n 1

theorem toNat_sub_one {n : UInt64} (h : 0 < n.toNat) : (n - 1).toNat = n.toNat - 1 :=
  UInt64.toNat_sub_of_le n 1 (UInt64.le_iff_toNat_le.2 h)

/-- The connection is turned away when one more would be too many. -/
theorem decideAccept_cases (current maxClients : UInt64) :
    (maxClients.toNat < (current.toNat + 1) % 2 ^ 64 ∧
        decideAccept current maxClients = .reject current) ∨
      ((current.toNat + 1) % 2 ^ 64 ≤ maxClients.toNat ∧
        decideAccept current maxClients = .accept (current + 1)) := by
  rw [← toNat_add_one, decideAccept]
  by_cases h : maxClients < current + 1
  · exact .inl ⟨UInt64.lt_iff_toNat_lt.1 h, if_pos h⟩
  · refine .inr ⟨?_, if_neg h⟩
    rw [UInt64.lt_iff_toNat_lt] at h
    omega

/-- A step that does something. -/
inductive Fires (maxClients : UInt64) (s : AcceptLoop) : AcceptEvent → AcceptLoop → Prop where
  | incoming : s.main = .accepting → Fires maxClients s .incoming { s with main := .loaded s.active }
  | rejected {current} : s.main = .loaded current →
      maxClients.toNat < (current.toNat + 1) % 2 ^ 64 →
      Fires maxClients s .decide { s with main := .accepting }
  | accepted {current} : s.main = .loaded current →
      (current.toNat + 1) % 2 ^ 64 ≤ maxClients.toNat →
      Fires maxClients s .decide { s with active := s.active + 1, main := .spawning }
  | spawned : s.main = .spawning →
      Fires maxClients s .spawned
        { s with main := .accepting, running := s.next :: s.running, next := s.next + 1 }
  | spawnFailed : s.main = .spawning →
      Fires maxClients s .spawnFailed
        { s with active := 0, main := .exited, running := [], leaving := [] }
  | returned {handler how} : handler ∈ s.running → how ≠ .panicked →
      Fires maxClients s (.ended handler how)
        { s with running := s.running.erase handler, leaving := handler :: s.leaving }
  | panicked {handler} : handler ∈ s.running →
      Fires maxClients s (.ended handler .panicked)
        { s with running := s.running.erase handler }
  | released {handler} : handler ∈ s.leaving →
      Fires maxClients s (.released handler)
        { s with active := s.active - 1, leaving := s.leaving.erase handler }

theorem step_fires (maxClients : UInt64) (s : AcceptLoop) (e : AcceptEvent) :
    (s.step maxClients e = s ∧ s.Allows e) ∨ Fires maxClients s e (s.step maxClients e) := by
  cases e with
  | incoming =>
    cases hmain : s.main with
    | accepting =>
      simp only [step, hmain]
      exact .inr (.incoming hmain)
    | _ => exact .inl ⟨by simp only [step, hmain], trivial⟩
  | acceptError => exact .inl ⟨rfl, trivial⟩
  | decide =>
    cases hmain : s.main with
    | loaded current =>
      refine .inr ?_
      rcases decideAccept_cases current maxClients with ⟨hlt, heq⟩ | ⟨hle, heq⟩
      · simp only [step, hmain, heq]
        exact .rejected hmain hlt
      · simp only [step, hmain, heq]
        exact .accepted hmain hle
    | _ => exact .inl ⟨by simp only [step, hmain], fun h => by rw [hmain] at h; cases h.1⟩
  | spawned =>
    cases hmain : s.main with
    | spawning =>
      simp only [step, hmain]
      exact .inr (.spawned hmain)
    | _ => exact .inl ⟨by simp only [step, hmain], trivial⟩
  | spawnFailed =>
    cases hmain : s.main with
    | spawning =>
      simp only [step, hmain]
      exact .inr (.spawnFailed hmain)
    | _ => exact .inl ⟨by simp only [step, hmain], trivial⟩
  | ended handler how =>
    by_cases hrunning : handler ∈ s.running
    · simp only [step, if_pos hrunning]
      cases how with
      | ok => exact .inr (.returned hrunning nofun)
      | err => exact .inr (.returned hrunning nofun)
      | panicked => exact .inr (.panicked hrunning)
    · refine .inl ⟨if_neg hrunning, ?_⟩
      cases how with
      | panicked => exact hrunning
      | _ => trivial
  | released handler =>
    by_cases hleaving : handler ∈ s.leaving
    · simp only [step, if_pos hleaving]
      exact .inr (.released hleaving)
    · exact .inl ⟨if_neg hleaving, trivial⟩

theorem released_pos (hexact : s.Exact maxClients) {handler : Nat} (h : handler ∈ s.leaving) :
    0 < s.active.toNat := by
  have hpos := List.length_pos_of_mem h
  rw [hexact.1, slots]
  omega

theorem loaded_step (hexact : s.Exact maxClients) (h : s.Loaded maxClients) (e : AcceptEvent) :
    (s.step maxClients e).Loaded maxClients := by
  rcases step_fires maxClients s e with ⟨hsame, -⟩ | hfires
  · rw [hsame]
    exact h
  generalize s.step maxClients e = s' at hfires
  intro current hcurrent
  cases hfires with
  | incoming =>
    cases hcurrent
    exact ⟨Nat.le_refl _, hexact.2⟩
  | rejected => cases hcurrent
  | accepted => cases hcurrent
  | spawned => cases hcurrent
  | spawnFailed => cases hcurrent
  | returned => exact h current hcurrent
  | panicked => exact h current hcurrent
  | released hleaving =>
    obtain ⟨hactive, hmax⟩ := h current hcurrent
    refine ⟨?_, hmax⟩
    simp only [toNat_sub_one (released_pos hexact hleaving)]
    omega

/-- One more than what was loaded is not too many, unless the addition wraps around. -/
theorem exact_accepted (hexact : s.Exact maxClients) (h : s.Loaded maxClients) {current : UInt64}
    (hmain : s.main = .loaded current) (hle : (current.toNat + 1) % 2 ^ 64 ≤ maxClients.toNat) :
    Exact maxClients { s with active := s.active + 1, main := .spawning } ↔ s.Allows .decide := by
  obtain ⟨hactive, hmax⟩ := h current hmain
  obtain ⟨hslots, -⟩ := hexact
  have hlt := current.toNat_lt
  have hlt' := maxClients.toNat_lt
  have hslots' : s.slots = s.running.length + s.leaving.length := by simp [slots, hmain]
  have hlargest : ∀ n : UInt64, n = UInt64.ofNat (2 ^ 64 - 1) ↔ n.toNat = 2 ^ 64 - 1 := by
    intro n
    rw [← UInt64.toNat_inj]
    rfl
  simp only [Exact, slots, Allows, hmain, AcceptPhase.loaded.injEq, hlargest, toNat_add_one, if_true]
  omega

theorem exact_step (hexact : s.Exact maxClients) (h : s.Loaded maxClients) (e : AcceptEvent) :
    (s.step maxClients e).Exact maxClients ↔ s.Allows e := by
  rcases step_fires maxClients s e with ⟨hsame, hallows⟩ | hfires
  · rw [hsame]
    exact iff_of_true hexact hallows
  generalize s.step maxClients e = s' at hfires
  obtain ⟨hslots, hmax⟩ := id hexact
  rw [slots] at hslots
  cases hfires with
  | incoming hmain =>
    refine iff_of_true ⟨?_, hmax⟩ trivial
    simpa [slots, hmain] using hslots
  | @rejected current hmain hlt =>
    refine iff_of_true ⟨?_, hmax⟩ ?_
    · simpa [slots, hmain] using hslots
    · rintro ⟨hloaded, -⟩
      rw [hmain] at hloaded
      cases hloaded
      exact absurd hlt (by simp)
  | accepted hmain hle => exact exact_accepted hexact h hmain hle
  | spawned hmain =>
    refine iff_of_true ⟨?_, hmax⟩ trivial
    simp only [hmain, if_true] at hslots
    simp only [slots, List.length_cons, hslots, reduceCtorEq, if_false]
    omega
  | spawnFailed => exact iff_of_true ⟨by simp [slots], by simp⟩ trivial
  | @returned handler how hrunning hhow =>
    refine iff_of_true ⟨?_, hmax⟩ ?_
    · have hlength := List.length_erase_add_one hrunning
      simp only [slots, List.length_cons]
      omega
    · cases how with
      | panicked => exact absurd rfl hhow
      | _ => trivial
  | @panicked handler hrunning =>
    refine iff_of_false (fun hafter => ?_) fun hallows => hallows hrunning
    have hlength := List.length_erase_add_one hrunning
    have hslots' := hafter.1
    simp only [slots] at hslots'
    omega
  | @released handler hleaving =>
    have hlength := List.length_erase_add_one hleaving
    have hpos := released_pos hexact hleaving
    refine iff_of_true ⟨?_, ?_⟩ trivial
    · simp only [slots, toNat_sub_one hpos]
      omega
    · simp only [toNat_sub_one hpos]
      omega

/-- **The counter counts the running handlers and never exceeds the limit, all along a run, exactly
when** no running handler panics (and no connection is decided on while the counter stands at the
largest `usize`). A rejected connection leaves it as it is. -/
theorem exact_iff (maxClients : UInt64) (events : List AcceptEvent) :
    ((∀ past, past <+: events → (run maxClients past).Exact maxClients) ↔
      ∀ past e, past ++ [e] <+: events → (run maxClients past).Allows e) ∧
    ∀ (s : AcceptLoop) (current : UInt64), s.main = .loaded current →
      decideAccept current maxClients = .reject current →
      (s.step maxClients .decide).active = s.active := by
  refine ⟨?_, fun s current hmain hreject => by simp only [step, hmain, hreject]⟩
  have hstart : start.Exact maxClients ∧ start.Loaded maxClients := ⟨⟨rfl, by simp [start]⟩, nofun⟩
  have hiff := Runs.forall_prefix_iff (I := fun s => Exact maxClients s ∧ Loaded maxClients s) hstart
    (fun s e hs => ⟨fun h => (exact_step hs.1 hs.2 e).1 h.1,
      fun h => ⟨(exact_step hs.1 hs.2 e).2 h, loaded_step hs.1 hs.2 e⟩⟩) events
  refine Iff.trans ⟨fun hexact past hpre => ?_, fun h past hpre => (h past hpre).1⟩ hiff
  refine ⟨hexact past hpre, ?_⟩
  induction past using List.reverseRecOn with
  | nil => exact hstart.2
  | append_singleton past e ih =>
    have hpast := (List.prefix_append past [e]).trans hpre
    rw [List.foldl_append]
    exact loaded_step (hexact past hpast) (ih hpast) e

/-- One client is allowed; its handler panics, and nobody is let in any more. -/
theorem panic_leaks_slot :
    let events : List AcceptEvent := [.incoming, .decide, .spawned, .ended 0 .panicked]
    let s := run 1 events
    s.active = 1 ∧ s.running = [] ∧ s.leaving = [] ∧ ¬ s.Exact 1 ∧
      decideAccept s.active 1 = .reject 1 := by
  intro events s
  refine ⟨rfl, rfl, rfl, fun h => ?_, rfl⟩
  exact absurd h.1 (by decide)

end AcceptLoop
end VBox
