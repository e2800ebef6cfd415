import VBox.Cli.Library
import VBox.Controld.State

/-!
# Cli.Instances

The instances that commands talk to: `from_globals` and `sanitize_socket_name` in `context.rs`,
`instance_context` and `prepare_app` in `runtime.rs` (`crates/vbox-cli/src`). An instance has a name,
a Wayland socket and a port. An app gets an instance named after the id of its record in the library,
the first one that the command's argument matches, and the daemon replaces whatever runs under that
name.

* `core`: an id without the characters at its ends that are neither letters nor digits. All that
  `sanitizeId` keeps of an id is told by its core.
* `isolated_of_found`: two apps get instances of their own if and only if the cores of the records
  that are found for them can be told apart and neither is `default` or `0`.
* `isolated_iff`: any two apps of a library do if and only if each is found under its own id and that
  holds of their ids.
* `socket_agrees_iff`: a command finds the socket of an instance if and only if its name has a letter
  or a digit, no `_`, and no two other characters in a row inside.
-/

namespace VBox.Cli

/-! ## Contexts -/

structure InstanceNames where
  name : Str
  socket : Str
  deriving DecidableEq

/-- The fields of `AppContext` that tell one instance from another. -/
structure InstanceContext extends AppContext, InstanceNames

structure GlobalOptions where
  name : Option Str
  port : Option UInt16
  socket : Option Str

/-- The values of `VBOX_INSTANCE`, `VBOX_PORT` and `VBOX_SOCKET`. -/
structure Environment where
  name : Option Str
  port : Option Str
  socket : Option Str

def defaultSocket : Str := ['v', 'b', 'o', 'x', '-', '0']

def namedSocket (name : Str) : Str := ['v', 'b', 'o', 'x', '-'] ++ name

def socketStep (s : Str × Bool) (ch : Char) : Str × Bool :=
  let (out, lastDash) := s
  let mapped := if ch.isAlphanum ∨ ch = '_' ∨ ch = '-' then ch else '-'
  if mapped = '-' then
    (if lastDash = false ∧ out ≠ [] then out ++ [mapped] else out, true)
  else (out ++ [mapped], false)

def sanitizeSocketName (value : Str) : Str :=
  let out := (value.foldl socketStep ([], false)).1.rdropWhile (· == '-')
  if out = [] then defaultName else out

def fromGlobals (opts : GlobalOptions) (env : Environment) : InstanceContext :=
  let name := (opts.name.or env.name).getD defaultName
  { name := name,
    port := (opts.port.or (env.port.bind Text.parseU16)).getD 5710,
    socket := (opts.socket.or env.socket).getD
      (if name = defaultName then defaultSocket else namedSocket (sanitizeSocketName name)) }

/-- What `instance_context` sets before it asks for a port. -/
def instanceNames (name : Str) : InstanceNames :=
  { name := name,
    socket := if name = defaultName then defaultSocket else namedSocket (sanitizeId name) }

def instanceContext (ctx : AppContext) (control : Option Str) (io : Io) (name : Str)
    (d : StateDir) : Except PortsError InstanceContext × StateDir :=
  match instancePort ctx control io name d with
  | (.error e, d') => (.error e, d')
  | (.ok port, d') => (.ok { instanceNames name with port := port }, d')

/-- The instance of the app that has a record with this id. -/
def appNames (id : Str) : InstanceNames := instanceNames (sanitizeId id)

/-- A call of `prepare_app`. The library is the cache, which is fetched from the guest when there is
none, if that succeeds. -/
structure PrepareAppCall where
  ctx : AppContext
  control : Option Str
  io : Io
  library : Option (List AppRecord)
  appId : Str

inductive PrepareAppError where
  | library
  | unknownApp (query : Str)
  | ports (e : PortsError)

def PrepareAppCall.record (call : PrepareAppCall) : Except PrepareAppError AppRecord :=
  match call.library with
  | none => .error .library
  | some rows =>
    match findAppRecord rows call.appId with
    | none => .error (.unknownApp call.appId)
    | some record => .ok record

/-- The context that `prepare_app` starts its stack with. -/
def prepareApp (call : PrepareAppCall) (d : StateDir) :
    Except PrepareAppError InstanceContext × StateDir :=
  match call.record with
  | .error e => (.error e, d)
  | .ok record =>
    let (answer, d') := instanceContext call.ctx call.control call.io (sanitizeId record.id) d
    (answer.mapError .ports, d')

theorem instanceContext_served (ctx : AppContext) (control : Option Str) (io : Io) (name : Str)
    (d : StateDir) :
    ∃ r d', instanceContext ctx control io name d =
        (r.map fun port => { instanceNames name with port := port }, d') ∧
      Served ctx control name d r d' := by
  have hserved := instancePort_served ctx control io name d
  rw [instanceContext]
  generalize instancePort ctx control io name d = answer at hserved ⊢
  obtain ⟨r, d'⟩ := answer
  refine ⟨r, d', ?_, hserved⟩
  cases r <;> rfl

/-! ## The core of an id -/

section Core

variable {value value' : Str}

def core (value : Str) : Str := Text.trimMatches (fun c => !c.isAlphanum) value

/-- Two characters that `sanitize_id` makes the same. -/
def Alike (a b : Char) : Prop :=
  a = b ∨ a.isAlphanum = false ∧ b.isAlphanum = false

/-- What `sanitize_id` makes of a character. -/
def dashed (ch : Char) : Char := if ch.isAlphanum then ch else '-'

theorem dashed_of_isAlphanum {ch : Char} (h : ch.isAlphanum = true) : dashed ch = ch := if_pos h

theorem dashed_of_not_isAlphanum {ch : Char} (h : ch.isAlphanum = false) : dashed ch = '-' :=
  if_neg (by simp [h])

theorem dashed_eq_dash_iff {ch : Char} : dashed ch = '-' ↔ ch.isAlphanum = false := by
  cases h : ch.isAlphanum with
  | false => simp [dashed_of_not_isAlphanum h]
  | true =>
    rw [dashed_of_isAlphanum h]
    simp only [Bool.true_eq_false, iff_false]
    rintro rfl
    cases h

theorem dashed_eq_iff {a b : Char} : dashed a = dashed b ↔ Alike a b := by
  cases ha : a.isAlphanum with
  | false =>
    rw [dashed_of_not_isAlphanum ha, eq_comm, dashed_eq_dash_iff, Alike, ha]
    constructor
    · intro hb
      exact .inr ⟨rfl, hb⟩
    · rintro (rfl | ⟨-, hb⟩)
      · exact ha
      · exact hb
  | true =>
    cases hb : b.isAlphanum with
    | false =>
      rw [dashed_of_not_isAlphanum hb, dashed_eq_dash_iff, Alike, ha, hb]
      constructor
      · intro h
        cases h
      · rintro (rfl | ⟨h, -⟩)
        · exact ha.symm.trans hb
        · exact h
    | true =>
      rw [dashed_of_isAlphanum ha, dashed_of_isAlphanum hb, Alike, ha]
      simp

theorem sanitizeId_eq_map : sanitizeId value = (core value).map dashed := by
  have hmatch : ((· == '-') ∘ dashed : Char → Bool) = fun c => !c.isAlphanum := by
    funext c
    rw [Bool.eq_iff_iff]
    simp [dashed_eq_dash_iff]
  rw [core, ← hmatch]
  exact Text.trimMatches_map dashed

theorem sanitizeId_eq_iff : sanitizeId value = sanitizeId value' ↔
    List.Forall₂ Alike (core value) (core value') := by
  have hR : (fun a b => dashed a = dashed b) = Alike := by
    funext a b
    exact propext dashed_eq_iff
  rw [sanitizeId_eq_map, sanitizeId_eq_map, ← hR, ← List.forall₂_map_right_iff,
    ← List.forall₂_map_left_iff, List.forall₂_eq_eq_eq]

theorem map_dashed_of_isAlphanum {l : Str} (h : ∀ c ∈ l, c.isAlphanum = true) :
    l.map dashed = l := by
  rw [List.map_congr_left fun c hc => dashed_of_isAlphanum (h c hc), List.map_id']

/-- A name of letters and digits only comes from an id with that very core. -/
theorem sanitizeId_eq_iff_of_isAlphanum {name : Str} (hname : ∀ c ∈ name, c.isAlphanum = true) :
    sanitizeId value = name ↔ core value = name := by
  rw [sanitizeId_eq_map]
  constructor
  · intro h
    subst h
    symm
    apply map_dashed_of_isAlphanum
    intro c hc
    by_contra hne
    have hdash := hname _ (List.mem_map_of_mem hc)
    rw [dashed_of_not_isAlphanum (by simpa using hne)] at hdash
    cases hdash
  · rintro rfl
    exact map_dashed_of_isAlphanum hname

theorem sanitizeId_sanitizeId : sanitizeId (sanitizeId value) = sanitizeId value := by
  have hdashed : ∀ c ∈ sanitizeId value, (if c.isAlphanum then c else '-') = c := by
    intro c hc
    rcases isAlphanum_or_dash_of_mem_sanitizeId hc with hc | rfl
    · exact dashed_of_isAlphanum hc
    · rfl
  conv_lhs => rw [sanitizeId, List.map_congr_left hdashed, List.map_id']
  exact Text.trimMatches_idempotent

end Core

/-! ## The sockets of apps -/

theorem defaultSocket_eq : defaultSocket = namedSocket ['0'] := rfl

theorem namedSocket_injective : Function.Injective namedSocket :=
  fun _ _ h => List.append_cancel_left h

theorem core_eq_default_iff {id : Str} : core id = defaultName ↔ sanitizeId id = defaultName :=
  (sanitizeId_eq_iff_of_isAlphanum (List.all_eq_true.1 rfl)).symm

theorem core_eq_zero_iff {id : Str} : core id = ['0'] ↔ sanitizeId id = ['0'] :=
  (sanitizeId_eq_iff_of_isAlphanum (List.forall_mem_singleton.2 rfl)).symm

theorem appNames_socket_of_ne {id : Str} (h : sanitizeId id ≠ defaultName) :
    (appNames id).socket = namedSocket (sanitizeId id) := by
  simp only [appNames, instanceNames, if_neg h, sanitizeId_sanitizeId]

theorem appNames_socket_ne_default_iff {id : Str} (h : sanitizeId id ≠ defaultName) :
    (appNames id).socket ≠ defaultSocket ↔ core id ≠ ['0'] := by
  rw [appNames_socket_of_ne h, defaultSocket_eq, namedSocket_injective.ne_iff, ne_eq, ne_eq,
    core_eq_zero_iff]

/-! ## Sequences of preparations -/

/-- The state directory, and the calls with their contexts. -/
structure Preparations where
  dir : StateDir
  contexts : List (PrepareAppCall × Except PrepareAppError InstanceContext)

namespace Preparations

def step (s : Preparations) (call : PrepareAppCall) : Preparations :=
  { dir := (prepareApp call s.dir).2,
    contexts := s.contexts ++ [(call, (prepareApp call s.dir).1)] }

def run (tmp : Option Str) (calls : List PrepareAppCall) : Preparations :=
  calls.foldl step { dir := { ports := none, tmp := tmp }, contexts := [] }

/-- The file holds the entries, or cannot be read any more. -/
def Holds (d : StateDir) (entries : List (Str × UInt16)) : Prop :=
  d.entries = .ok entries ∧ (∀ entry ∈ entries, Plain entry.1) ∨ ∃ e, d.entries = .error e

/-- A context for the record that was found, with its port among the entries. -/
def Answers (entries : List (Str × UInt16)) (call : PrepareAppCall) (c : InstanceContext) : Prop :=
  ∃ record, call.record = .ok record ∧ c.toInstanceNames = appNames record.id ∧
    (sanitizeId record.id ≠ defaultName → (sanitizeId record.id, c.port) ∈ entries)

/-- The ports that were given so far. -/
structure Given (calls : List PrepareAppCall) (s : Preparations) (entries : List (Str × UInt16)) :
    Prop where
  names : (entries.map Prod.fst).Nodup
  ports : (entries.map Prod.snd).Nodup
  notBase : ∀ base, (∀ call ∈ calls, call.ctx.port = base) → base ∉ entries.map Prod.snd
  file : Holds s.dir entries
  answered : ∀ call c, (call, .ok c) ∈ s.contexts → Answers entries call c

variable {calls : List PrepareAppCall} {s : Preparations} {entries : List (Str × UInt16)}

theorem given_nil (tmp : Option Str) : Given [] (run tmp []) [] where
  names := List.nodup_nil
  ports := List.nodup_nil
  notBase := by
    intro base _
    exact List.not_mem_nil
  file := .inl ⟨rfl, by simp⟩
  answered := by
    intro call c hmem
    exact absurd hmem List.not_mem_nil

/-- What a preparation does for a record that was found. -/
def Prepares (call : PrepareAppCall) (record : AppRecord) (d : StateDir)
    (r : Except PortsError UInt16) (d' : StateDir) : Prop :=
  prepareApp call d =
    ((r.map fun port => { appNames record.id with port := port }).mapError .ports, d')

theorem prepares_served {call : PrepareAppCall} {record : AppRecord} (hrecord : call.record = .ok record)
    (d : StateDir) : ∃ r d', Prepares call record d r d' ∧
      Served call.ctx call.control (sanitizeId record.id) d r d' := by
  obtain ⟨r, d', hcontext, hserved⟩ :=
    instanceContext_served call.ctx call.control call.io (sanitizeId record.id) d
  refine ⟨r, d', ?_, hserved⟩
  rw [Prepares, prepareApp, hrecord]
  simp only [hcontext]
  rfl

/-- What a preparation answers, when its port is known to be among the entries. -/
theorem answered_step {call : PrepareAppCall} {record : AppRecord} {r : Except PortsError UInt16}
    {d' : StateDir} (hrecord : call.record = .ok record) (hprepare : Prepares call record s.dir r d')
    (hs : ∀ call c, (call, .ok c) ∈ s.contexts → Answers entries call c)
    (hr : ∀ port, r = .ok port → sanitizeId record.id ≠ defaultName →
      (sanitizeId record.id, port) ∈ entries) :
    ∀ call' c, (call', .ok c) ∈ (s.step call).contexts → Answers entries call' c := by
  intro call' c hmem
  rw [step, hprepare, List.mem_append, List.mem_singleton, Prod.mk.injEq] at hmem
  rcases hmem with hmem | ⟨rfl, hc⟩
  · exact hs call' c hmem
  · cases r with
    | error e => cases hc
    | ok port =>
      obtain rfl := Except.ok.inj hc
      exact ⟨record, hrecord, rfl, hr port rfl⟩

/-- Names of apps are plain or empty, and after an empty one the file cannot be read. -/
theorem holds_added {id : Str} {port : UInt16} (hplain : ∀ entry ∈ entries, Plain entry.1) :
    Holds ⟨some (formatInstancePorts (entries ++ [(sanitizeId id, port)])), none⟩
      (entries ++ [(sanitizeId id, port)]) := by
  by_cases hname : sanitizeId id = []
  · rw [hname]
    exact .inr ⟨_, entries_format_unnamed hplain port none⟩
  · have hplain' : ∀ entry ∈ entries ++ [(sanitizeId id, port)], Plain entry.1 := by
      rw [List.forall_mem_append, List.forall_mem_singleton]
      exact ⟨hplain, plain_sanitizeId hname⟩
    exact .inl ⟨entries_format hplain' none, hplain'⟩

/-- A preparation that adds no entry. -/
theorem given_kept (hs : Given calls s entries) {call : PrepareAppCall}
    (hports : (s.step call).dir.ports = s.dir.ports)
    (hanswered : ∀ call' c, (call', .ok c) ∈ (s.step call).contexts → Answers entries call' c) :
    Given (calls ++ [call]) (s.step call) entries where
  names := hs.names
  ports := hs.ports
  notBase base hall := hs.notBase base fun c hc => hall c (List.mem_append_left _ hc)
  file := by
    rw [Holds, entries_congr hports]
    exact hs.file
  answered := hanswered

/-- A preparation that adds an entry. -/
theorem given_added (hs : Given calls s entries) {call : PrepareAppCall} {record : AppRecord}
    {port : UInt16} (hrecord : call.record = .ok record)
    (hprepare : Prepares call record s.dir (.ok port)
      ⟨some (formatInstancePorts (entries ++ [(sanitizeId record.id, port)])), none⟩)
    (hplain : ∀ entry ∈ entries, Plain entry.1)
    (hnew : sanitizeId record.id ∉ entries.map Prod.fst) (hport : port ∉ entries.map Prod.snd)
    (hbase : port ≠ call.ctx.port) :
    Given (calls ++ [call]) (s.step call) (entries ++ [(sanitizeId record.id, port)]) where
  names := by
    rw [List.map_append]
    exact List.Nodup.append hs.names (List.nodup_singleton _) (by simpa using hnew)
  ports := by
    rw [List.map_append]
    exact List.Nodup.append hs.ports (List.nodup_singleton _) (by simpa using hport)
  notBase base hall := by
    have hcall := hall call (List.mem_append_right _ List.mem_cons_self)
    have hold := hs.notBase base fun c hc => hall c (List.mem_append_left _ hc)
    rw [List.map_append, List.mem_append, not_or]
    refine ⟨hold, ?_⟩
    rw [List.map_singleton, List.mem_singleton, ← hcall]
    exact Ne.symm hbase
  file := by
    rw [step, hprepare]
    exact holds_added hplain
  answered := by
    refine answered_step hrecord hprepare ?_ ?_
    · intro call' c hmem
      obtain ⟨found, hfound, hnames, hin⟩ := hs.answered call' c hmem
      exact ⟨found, hfound, hnames, fun hne => List.mem_append_left _ (hin hne)⟩
    · intro port' hport' _
      obtain rfl := Except.ok.inj hport'
      exact List.mem_append_right _ List.mem_cons_self

/-- Without a record nothing is asked for. -/
theorem given_notFound (hs : Given calls s entries) {call : PrepareAppCall} {e : PrepareAppError}
    (hrecord : call.record = .error e) : Given (calls ++ [call]) (s.step call) entries := by
  have hprepare : prepareApp call s.dir = (.error e, s.dir) := by rw [prepareApp, hrecord]
  refine given_kept hs (by rw [step, hprepare]) ?_
  intro call' c hmem
  rw [step, hprepare, List.mem_append, List.mem_singleton, Prod.mk.injEq] at hmem
  rcases hmem with hmem | ⟨-, hc⟩
  · exact hs.answered call' c hmem
  · cases hc

theorem given_step (hs : Given calls s entries) (call : PrepareAppCall) :
    ∃ entries', Given (calls ++ [call]) (s.step call) entries' := by
  cases hrecord : call.record with
  | error e => exact ⟨entries, given_notFound hs hrecord⟩
  | ok record =>
    obtain ⟨r, d', hprepare, hserved⟩ := prepares_served hrecord s.dir
    have hkept : d'.ports = s.dir.ports → (∀ port, r = .ok port → sanitizeId record.id ≠ defaultName →
        (sanitizeId record.id, port) ∈ entries) → Given (calls ++ [call]) (s.step call) entries :=
      fun hports hr => given_kept hs (by rw [step, hprepare]; exact hports)
        (answered_step hrecord hprepare hs.answered hr)
    cases hserved with
    | default hdefault => exact ⟨entries, hkept rfl fun port _ hne => absurd hdefault hne⟩
    | known _ hentries hmem =>
      rcases hs.file with ⟨hread, -⟩ | ⟨e, hread⟩
      · obtain rfl := Except.ok.inj (hread.symm.trans hentries)
        refine ⟨entries, hkept rfl ?_⟩
        intro port hport _
        obtain rfl := Except.ok.inj hport
        exact hmem
      · cases hread.symm.trans hentries
    | added hne hentries hnew hfree =>
      rcases hs.file with ⟨hread, hplain⟩ | ⟨e, hread⟩
      · obtain rfl := Except.ok.inj (hread.symm.trans hentries)
        exact ⟨_, given_added hs hrecord hprepare hplain hnew hfree.notTaken hfree.notBase⟩
      · cases hread.symm.trans hentries
    | failed _ hports =>
      refine ⟨entries, hkept hports ?_⟩
      intro port hport
      cases hport

theorem given_run (tmp : Option Str) (calls : List PrepareAppCall) :
    ∃ entries, Given calls (run tmp calls) entries := by
  induction calls using List.reverseRecOn with
  | nil => exact ⟨[], given_nil tmp⟩
  | append_singleton calls call ih =>
    obtain ⟨entries, hgiven⟩ := ih
    rw [run, List.foldl_append]
    exact given_step hgiven call

end Preparations

/-! ## Isolation -/

/-- The instance that `prepare_app` gives the app it finds for an argument. -/
def preparedNames (rows : List AppRecord) (id : Str) : Option InstanceNames :=
  (findAppRecord rows id).map fun record => appNames record.id

/-- Preparing the app `id` leaves the server of the app `id'` alone, in every daemon: it stays, and
what is terminated is what ran under the name for `id`. -/
def LeavesServer (rows : List AppRecord) (id id' : Str) : Prop :=
  ∀ (wire : Controld.SnapshotWire) (port : UInt16) (quic : Option Controld.QuicInstanceConfig)
    (env : Controld.StartEnv) (d : Controld.DaemonState) (inst : Controld.Instance)
    (names names' : InstanceNames),
    preparedNames rows id = some names → preparedNames rows id' = some names' →
    let name := String.ofList names.name
    let other := String.ofList names'.name
    d.instances.lookup other = some inst → Controld.serverAlive (env.probe other) inst = true →
      let done := Controld.startInstance wire name port quic env d
      done.state.instances.lookup other = some inst ∧
        ∀ gone, done.terminated = some gone → name ≠ other ∧ d.instances.lookup name = some gone

/-- The app `id` of the library was prepared, with this context. -/
def Prepared (rows : List AppRecord) (id : Str) (s : Preparations) (c : InstanceContext) : Prop :=
  ∃ call, call.library = some rows ∧ call.appId = id ∧ (call, .ok c) ∈ s.contexts

/-- Two apps with instances of their own. -/
structure Isolated (rows : List AppRecord) (id id' : Str) : Prop where
  name : (preparedNames rows id).map (·.name) ≠ (preparedNames rows id').map (·.name)
  socket : (preparedNames rows id).map (·.socket) ≠ (preparedNames rows id').map (·.socket)
  /-- Over any preparations, with any base ports, file system failures and other libraries. -/
  port : ∀ tmp calls c c', Prepared rows id (Preparations.run tmp calls) c →
    Prepared rows id' (Preparations.run tmp calls) c' → c.port ≠ c'.port
  notDefault : ∀ i ∈ [id, id'], ∀ names, preparedNames rows i = some names →
    names.name ≠ defaultName ∧ names.socket ≠ defaultSocket
  notDefaultPort : ∀ i ∈ [id, id'], ∀ tmp calls base c, (∀ call ∈ calls, call.ctx.port = base) →
    Prepared rows i (Preparations.run tmp calls) c → c.port ≠ base
  /-- Every context that is given carries these names. -/
  given : ∀ i ∈ [id, id'], ∀ tmp calls c, Prepared rows i (Preparations.run tmp calls) c →
    preparedNames rows i = some c.toInstanceNames
  server : LeavesServer rows id id' ∧ LeavesServer rows id' id

section Isolated

variable {rows : List AppRecord} {id id' : Str} {r r' : AppRecord}

theorem preparedNames_of_found (h : findAppRecord rows id = some r) :
    preparedNames rows id = some (appNames r.id) := by
  rw [preparedNames, h, Option.map_some]

theorem leavesServer_of_ne (h : findAppRecord rows id = some r)
    (h' : findAppRecord rows id' = some r') (hne : sanitizeId r.id ≠ sanitizeId r'.id) :
    LeavesServer rows id id' := by
  intro wire port quic env d inst names names' hnames hnames' name other hinst halive
  obtain rfl := Option.some.inj (hnames.symm.trans (preparedNames_of_found h))
  obtain rfl := Option.some.inj (hnames'.symm.trans (preparedNames_of_found h'))
  have hname : other ≠ name := by
    intro h
    exact hne (String.ofList_injective h).symm
  obtain ⟨hstays, hgone⟩ := Controld.startInstance_other hname hinst halive
  exact ⟨hstays, fun gone h => ⟨hname.symm, hgone gone h⟩⟩

theorem Prepared.answers {tmp : Option Str} {calls : List PrepareAppCall} {c : InstanceContext}
    {entries : List (Str × UInt16)} (hprepared : Prepared rows id (Preparations.run tmp calls) c)
    (hgiven : Preparations.Given calls (Preparations.run tmp calls) entries)
    (h : findAppRecord rows id = some r) :
    c.toInstanceNames = appNames r.id ∧
      (sanitizeId r.id ≠ defaultName → (sanitizeId r.id, c.port) ∈ entries) := by
  obtain ⟨call, hlibrary, hid, hmem⟩ := hprepared
  obtain ⟨record, hrecord, hnames, hin⟩ := hgiven.answered call c hmem
  obtain rfl : record = r := by
    rw [PrepareAppCall.record, hlibrary] at hrecord
    simp only [hid, h] at hrecord
    exact (Except.ok.inj hrecord).symm
  exact ⟨hnames, hin⟩

/-- Two arguments, in terms of the records that are found for them. -/
theorem isolated_of_found (h : findAppRecord rows id = some r)
    (h' : findAppRecord rows id' = some r') : Isolated rows id id' ↔
      ¬List.Forall₂ Alike (core r.id) (core r'.id) ∧
        ∀ i ∈ [r.id, r'.id], core i ≠ defaultName ∧ core i ≠ ['0'] := by
  have hnames := preparedNames_of_found h
  have hnames' := preparedNames_of_found h'
  have hfound : ∀ i ∈ [id, id'], ∃ q ∈ [r, r'], findAppRecord rows i = some q := by
    simp only [List.forall_mem_cons, List.not_mem_nil, false_implies, implies_true, and_true]
    exact ⟨⟨r, List.mem_cons_self, h⟩, r', List.mem_cons_of_mem r List.mem_cons_self, h'⟩
  rw [← sanitizeId_eq_iff]
  constructor
  · intro hisolated
    refine ⟨fun heq => hisolated.name ?_, ?_⟩
    · rw [hnames, hnames', Option.map_some, Option.map_some]
      exact congrArg some heq
    · have hown : ∀ q, (∃ i ∈ [id, id'], findAppRecord rows i = some q) →
          core q.id ≠ defaultName ∧ core q.id ≠ ['0'] := by
        rintro q ⟨i, hi, hq⟩
        obtain ⟨hname, hsocket⟩ := hisolated.notDefault i hi _ (preparedNames_of_found hq)
        exact ⟨core_eq_default_iff.not.2 hname, (appNames_socket_ne_default_iff hname).1 hsocket⟩
      simp only [List.forall_mem_cons, List.not_mem_nil, false_implies, implies_true, and_true]
      exact ⟨hown r ⟨id, List.mem_cons_self, h⟩,
        hown r' ⟨id', List.mem_cons_of_mem id List.mem_cons_self, h'⟩⟩
  · rintro ⟨hne, hdefault⟩
    have hname : ∀ q ∈ [r, r'], sanitizeId q.id ≠ defaultName ∧ core q.id ≠ ['0'] := by
      intro q hq
      obtain ⟨hdef, hzero⟩ := hdefault q.id (List.mem_map_of_mem hq)
      exact ⟨core_eq_default_iff.not.1 hdef, hzero⟩
    have hr := (hname r List.mem_cons_self).1
    have hr' := (hname r' (List.mem_cons_of_mem r List.mem_cons_self)).1
    refine ⟨?_, ?_, ?_, ?_, ?_, ?_, leavesServer_of_ne h h' hne, leavesServer_of_ne h' h (Ne.symm hne)⟩
    · rw [hnames, hnames']
      exact (Option.some_injective _).ne hne
    · rw [hnames, hnames', Option.map_some, Option.map_some, appNames_socket_of_ne hr,
        appNames_socket_of_ne hr']
      exact (Option.some_injective _).ne (namedSocket_injective.ne hne)
    · intro tmp calls c c' hc hc' hport
      obtain ⟨entries, hgiven⟩ := Preparations.given_run tmp calls
      have hmem := (hc.answers hgiven h).2 hr
      have hmem' := (hc'.answers hgiven h').2 hr'
      exact hne (congrArg Prod.fst (List.inj_on_of_nodup_map hgiven.ports hmem hmem' hport))
    · intro i hi names hi'
      obtain ⟨q, hq, hfind⟩ := hfound i hi
      obtain rfl := Option.some.inj (hi'.symm.trans (preparedNames_of_found hfind))
      exact ⟨(hname q hq).1, (appNames_socket_ne_default_iff (hname q hq).1).2 (hname q hq).2⟩
    · intro i hi tmp calls base c hall hc hport
      obtain ⟨q, hq, hfind⟩ := hfound i hi
      obtain ⟨entries, hgiven⟩ := Preparations.given_run tmp calls
      have hmem := (hc.answers hgiven hfind).2 (hname q hq).1
      rw [hport] at hmem
      exact hgiven.notBase base hall (List.mem_map_of_mem hmem)
    · intro i hi tmp calls c hc
      obtain ⟨q, hq, hfind⟩ := hfound i hi
      obtain ⟨entries, hgiven⟩ := Preparations.given_run tmp calls
      rw [preparedNames_of_found hfind, (hc.answers hgiven hfind).1]

/-- An app is found under its own id: no row before it has the id in its id or its name. -/
def FoundFirst (rows : List AppRecord) (id : Str) : Prop :=
  ∃ before record after, rows = before ++ record :: after ∧ record.id = id ∧
    ∀ q ∈ before, selected q.id q.name [id] = false

theorem foundFirst_iff : FoundFirst rows id ↔ ∃ r, findAppRecord rows id = some r ∧ r.id = id := by
  constructor
  · rintro ⟨before, r, after, rfl, rfl, hbefore⟩
    refine ⟨r, List.find?_eq_some_iff_append.2 ⟨selected_self r, before, after, rfl, ?_⟩, rfl⟩
    intro q hq
    rw [hbefore q hq]
    rfl
  · rintro ⟨r, hfind, rfl⟩
    obtain ⟨-, before, after, hrows, hbefore⟩ := List.find?_eq_some_iff_append.1 hfind
    refine ⟨before, r, after, hrows, rfl, fun q hq => ?_⟩
    simpa using hbefore q hq

/-- Some record is found for every id of the library. -/
theorem exists_found (hid : id ∈ rows.map AppRecord.id) : ∃ r, findAppRecord rows id = some r := by
  obtain ⟨r, hr, rfl⟩ := List.mem_map.1 hid
  exact Option.isSome_iff_exists.1 (List.find?_isSome.2 ⟨r, hr, selected_self r⟩)

/-- If different ids find different apps, each finds its own: the record that is found for an id is
found no later under the id that it has. -/
theorem found_own (hapart : ∀ q ∈ rows.map AppRecord.id, ∀ q' ∈ rows.map AppRecord.id, ∀ r r',
      findAppRecord rows q = some r → findAppRecord rows q' = some r' → r.id = r'.id → q = q') :
    ∀ (n : Nat) (before after : List AppRecord) (r : AppRecord) (q : Str), before.length = n →
      q ∈ rows.map AppRecord.id → findAppRecord rows q = some r → rows = before ++ r :: after →
      r.id = q := by
  intro n
  induction n using Nat.strongRecOn with
  | ind n ih =>
    intro before after r q hlength hq hfind hrows
    have hmem : r ∈ rows := by
      rw [hrows]
      exact List.mem_append_right before List.mem_cons_self
    obtain ⟨g, hg⟩ := exists_found (List.mem_map_of_mem (f := AppRecord.id) hmem)
    obtain ⟨-, before', after', hrows', hbefore'⟩ := List.find?_eq_some_iff_append.1 hg
    -- the record itself matches its id, so what is found is not behind it
    have hle : before'.length ≤ before.length := by
      by_contra hlt
      have hget : rows[before.length]? = some r := by
        rw [hrows, List.getElem?_append_right (Nat.le_refl _), Nat.sub_self]
        rfl
      rw [hrows', List.getElem?_append_left (by omega)] at hget
      have hnot := hbefore' r (List.mem_of_getElem? hget)
      rw [selected_self] at hnot
      cases hnot
    have hown : g.id = r.id := by
      rcases Nat.lt_or_ge before'.length before.length with hlt | hge
      · exact ih before'.length (hlength ▸ hlt) before' after' g r.id rfl
          (List.mem_map_of_mem hmem) hg hrows'
      · have hsplit := List.append_inj (hrows.symm.trans hrows') (by omega)
        rw [(List.cons.inj hsplit.2).1]
    exact (hapart q hq r.id (List.mem_map_of_mem hmem) r g hfind hg hown.symm).symm

/-- Any two apps of a library have instances of their own if and only if, wherever there are two,
each is found under its own id, their cores can be told apart, and neither is `default` or `0`. -/
theorem isolated_iff (rows : List AppRecord) :
    (∀ id ∈ rows.map AppRecord.id, ∀ id' ∈ rows.map AppRecord.id, id ≠ id' → Isolated rows id id') ↔
      ∀ id ∈ rows.map AppRecord.id, ∀ id' ∈ rows.map AppRecord.id, id ≠ id' →
        (∀ i ∈ [id, id'], FoundFirst rows i) ∧ ¬List.Forall₂ Alike (core id) (core id') ∧
          ∀ i ∈ [id, id'], core i ≠ defaultName ∧ core i ≠ ['0'] := by
  constructor
  · intro hall id hid id' hid' hne
    have hapart : ∀ q ∈ rows.map AppRecord.id, ∀ q' ∈ rows.map AppRecord.id, ∀ r r',
        findAppRecord rows q = some r → findAppRecord rows q' = some r' → r.id = r'.id → q = q' := by
      intro q hq q' hq' r r' hr hr' hsame
      by_contra hdiffer
      refine (hall q hq q' hq' hdiffer).name ?_
      rw [preparedNames_of_found hr, preparedNames_of_found hr', hsame]
    have hown : ∀ i ∈ rows.map AppRecord.id, ∃ r, findAppRecord rows i = some r ∧ r.id = i := by
      intro i hi
      obtain ⟨r, hr⟩ := exists_found hi
      obtain ⟨-, before, after, hrows, -⟩ := List.find?_eq_some_iff_append.1 hr
      exact ⟨r, hr, found_own hapart before.length before after r i rfl hi hr hrows⟩
    obtain ⟨r, hr, rfl⟩ := hown id hid
    obtain ⟨r', hr', rfl⟩ := hown id' hid'
    refine ⟨?_, (isolated_of_found hr hr').1 (hall r.id hid r'.id hid' hne)⟩
    simp only [List.forall_mem_cons, List.not_mem_nil, false_implies, implies_true, and_true]
    exact ⟨foundFirst_iff.2 ⟨r, hr, rfl⟩, foundFirst_iff.2 ⟨r', hr', rfl⟩⟩
  · intro hall id hid id' hid' hne
    obtain ⟨hfound, hcores⟩ := hall id hid id' hid' hne
    obtain ⟨r, hr, rfl⟩ := foundFirst_iff.1 (hfound id List.mem_cons_self)
    obtain ⟨r', hr', rfl⟩ :=
      foundFirst_iff.1 (hfound id' (List.mem_cons_of_mem r.id List.mem_cons_self))
    exact (isolated_of_found hr hr').2 hcores

end Isolated

/-- A quiet call of `prepare_app` with the base port 5710. -/
def quietCall (rows : List AppRecord) (id : Str) : PrepareAppCall :=
  ⟨⟨5710⟩, none, .quiet, some rows, id⟩

def dotAndDash : List AppRecord := [namedRow ['a', '.', 'b'] ['X'], namedRow ['a', '-', 'b'] ['Y']]

def gvimAndVim : List AppRecord :=
  [namedRow ['g', 'v', 'i', 'm'] ['X'], namedRow ['v', 'i', 'm'] ['Y']]

/-- The ids `a.b` and `a-b` share one instance, the id `vim` finds `gvim` before it, and the app `0`
has the socket of the default instance. -/
theorem apps_share_instance :
    ¬(∀ rows, ∀ id ∈ rows.map AppRecord.id, ∀ id' ∈ rows.map AppRecord.id, id ≠ id' →
        Isolated rows id id') ∧
      (Preparations.run none [quietCall dotAndDash ['a', '.', 'b'],
          quietCall dotAndDash ['a', '-', 'b']]).contexts.map
          (fun e => (e.1.appId, e.2.toOption.map fun c => (c.name, c.port))) =
        [(['a', '.', 'b'], some (['a', '-', 'b'], 5712)),
          (['a', '-', 'b'], some (['a', '-', 'b'], 5712))] ∧
      preparedNames gvimAndVim ['v', 'i', 'm'] = preparedNames gvimAndVim ['g', 'v', 'i', 'm'] ∧
      (appNames ['0']).socket = defaultSocket := by
  refine ⟨?_, rfl, rfl, rfl⟩
  intro h
  exact (h dotAndDash ['a', '.', 'b'] List.mem_cons_self ['a', '-', 'b']
    (List.mem_cons_of_mem _ List.mem_cons_self) (by decide)).name rfl

/-! ## The socket of a command -/

section SocketName

variable {value out : Str} {lastDash : Bool}

theorem socketStep_of_isAlphanum {ch : Char} (h : ch.isAlphanum = true) :
    socketStep (out, lastDash) ch = (out ++ [ch], false) := by
  have hdash : ch ≠ '-' := by
    rintro rfl
    cases h
  simp [socketStep, h, hdash]

theorem socketStep_underscore : socketStep (out, lastDash) '_' = (out ++ ['_'], false) := by
  simp [socketStep]

/-- What else there is counts as a dash, and is left out at the start and after a dash. -/
theorem socketStep_dash {ch : Char} (h : ch.isAlphanum = false) (hne : ch ≠ '_') :
    socketStep (out, lastDash) ch =
      (if lastDash = false ∧ out ≠ [] then out ++ ['-'] else out, true) := by
  by_cases hdash : ch = '-'
  · subst hdash
    simp [socketStep]
  · simp [socketStep, h, hne, hdash]

/-- A character adds at most one. -/
theorem socketStep_adds (s : Str × Bool) (ch : Char) :
    ∃ added, (socketStep s ch).1 = s.1 ++ added ∧ added.length ≤ 1 := by
  obtain ⟨out, lastDash⟩ := s
  by_cases halnum : ch.isAlphanum = true
  · exact ⟨[ch], by rw [socketStep_of_isAlphanum halnum], Nat.le_refl 1⟩
  by_cases hunderscore : ch = '_'
  · exact ⟨['_'], by rw [hunderscore, socketStep_underscore], Nat.le_refl 1⟩
  rw [socketStep_dash (by simpa using halnum) hunderscore]
  dsimp only
  split
  · exact ⟨['-'], rfl, Nat.le_refl 1⟩
  · exact ⟨[], (List.append_nil out).symm, Nat.zero_le 1⟩

theorem foldl_socketStep_adds (value : Str) (s : Str × Bool) :
    ∃ added, (value.foldl socketStep s).1 = s.1 ++ added ∧ added.length ≤ value.length := by
  induction value generalizing s with
  | nil => exact ⟨[], (List.append_nil s.1).symm, Nat.le_refl 0⟩
  | cons ch value ih =>
    obtain ⟨first, hfirst, hone⟩ := socketStep_adds s ch
    obtain ⟨added, hadded, hlength⟩ := ih (socketStep s ch)
    refine ⟨first ++ added, ?_, ?_⟩
    · rw [List.foldl_cons, hadded, hfirst, List.append_assoc]
    · rw [List.length_append, List.length_cons]
      omega

/-- Letters, digits and underscores stay. -/
theorem mem_foldl_socketStep {ch : Char} (hkept : ch.isAlphanum = true ∨ ch = '_')
    (hmem : ch ∈ value) (s : Str × Bool) : ch ∈ (value.foldl socketStep s).1 := by
  obtain ⟨before, after, rfl⟩ := List.append_of_mem hmem
  rw [List.foldl_append, List.foldl_cons]
  generalize before.foldl socketStep s = s'
  obtain ⟨out, lastDash⟩ := s'
  obtain ⟨added, hadded, -⟩ := foldl_socketStep_adds after (socketStep (out, lastDash) ch)
  rw [hadded]
  apply List.mem_append_left
  rcases hkept with halnum | rfl
  · rw [socketStep_of_isAlphanum halnum]
    exact List.mem_append_right out List.mem_cons_self
  · rw [socketStep_underscore]
    exact List.mem_append_right out List.mem_cons_self

theorem mem_sanitizeSocketName {ch : Char} (hkept : ch.isAlphanum = true ∨ ch = '_')
    (hmem : ch ∈ value) : ch ∈ sanitizeSocketName value := by
  have hdash : (ch == '-') = false := by
    rcases hkept with halnum | rfl
    · rw [beq_eq_false_iff_ne]
      rintro rfl
      cases halnum
    · rfl
  have hout := mem_foldl_socketStep hkept hmem ([], false)
  rw [← List.rdropWhile_append_rtakeWhile (l := (value.foldl socketStep ([], false)).1)
    (p := (· == '-')), List.mem_append] at hout
  have hin : ch ∈ (value.foldl socketStep ([], false)).1.rdropWhile (· == '-') := by
    rcases hout with hin | hin
    · exact hin
    · rw [List.mem_rtakeWhile_imp hin] at hdash
      cases hdash
  simp only [sanitizeSocketName]
  rw [if_neg (List.ne_nil_of_mem hin)]
  exact hin

/-- Dashes only: nothing is added to nothing, and at most one dash to the rest. -/
theorem foldl_socketStep_dashes (hvalue : ∀ ch ∈ value, ch.isAlphanum = false ∧ ch ≠ '_')
    (out : Str) (lastDash : Bool) :
    ∃ dashes lastDash', value.foldl socketStep (out, lastDash) = (out ++ dashes, lastDash') ∧
      (∀ ch ∈ dashes, (ch == '-') = true) ∧ (out = [] → dashes = []) := by
  induction value generalizing out lastDash with
  | nil => exact ⟨[], lastDash, by simp, by simp, fun _ => rfl⟩
  | cons ch value ih =>
    obtain ⟨hch, hrest⟩ := List.forall_mem_cons.1 hvalue
    rw [List.foldl_cons, socketStep_dash hch.1 hch.2]
    split
    · rename_i hadded
      obtain ⟨dashes, lastDash', hfold, hdashes, -⟩ := ih hrest (out ++ ['-']) true
      refine ⟨'-' :: dashes, lastDash', ?_, ?_, fun hnil => absurd hnil hadded.2⟩
      · rw [hfold, List.append_assoc]
        rfl
      · exact List.forall_mem_cons.2 ⟨rfl, hdashes⟩
    · exact ih hrest out true

/-- Between two characters of a pair there is at least one letter or digit. -/
def Spaced (a b : Char) : Prop := a.isAlphanum = true ∨ b.isAlphanum = true

/-- After a character `prev`, one that is spaced from it is copied. -/
theorem socketStep_of_spaced {prev ch : Char} (hch : ch ≠ '_') (hout : out ≠ [])
    (h : Spaced prev ch) :
    socketStep (out, !prev.isAlphanum) ch = (out ++ [dashed ch], !ch.isAlphanum) := by
  cases halnum : ch.isAlphanum with
  | true => rw [socketStep_of_isAlphanum halnum, dashed_of_isAlphanum halnum, Bool.not_true]
  | false =>
    have hprev : prev.isAlphanum = true := h.resolve_right (by simp [halnum])
    rw [socketStep_dash halnum hch, dashed_of_not_isAlphanum halnum, hprev, if_pos ⟨rfl, hout⟩,
      Bool.not_false]

/-- Of two characters in a row that count as dashes the second is left out. -/
theorem socketStep_of_not_spaced {prev ch : Char} (hch : ch ≠ '_') (h : ¬Spaced prev ch) :
    socketStep (out, !prev.isAlphanum) ch = (out, true) := by
  simp only [Spaced, not_or, Bool.not_eq_true] at h
  rw [socketStep_dash h.2 hch, if_neg (by simp [h.1])]

/-- After a character has gone through, the rest is copied if it is spaced, and else comes out
shorter. `prev` is the character before. -/
theorem foldl_socketStep_spaced (out : Str) (hvalue : '_' ∉ value) (prev : Char) (hout : out ≠ []) :
    (List.IsChain Spaced (prev :: value) →
        (value.foldl socketStep (out, !prev.isAlphanum)).1 = out ++ value.map dashed) ∧
      (¬List.IsChain Spaced (prev :: value) →
        (value.foldl socketStep (out, !prev.isAlphanum)).1.length < out.length + value.length) := by
  induction value generalizing prev out with
  | nil =>
    refine ⟨fun _ => (List.append_nil out).symm, ?_⟩
    intro h
    exact absurd (List.IsChain.singleton prev) h
  | cons ch value ih =>
    obtain ⟨hch, hrest⟩ := not_or.1 (List.mem_cons.not.1 hvalue)
    rw [List.isChain_cons_cons, List.foldl_cons, List.map_cons, List.length_cons]
    by_cases hpair : Spaced prev ch
    · obtain ⟨hspaced, hshort⟩ := ih (out ++ [dashed ch]) hrest ch (by simp)
      rw [socketStep_of_spaced (Ne.symm hch) hout hpair]
      constructor
      · rintro ⟨-, hchain⟩
        rw [hspaced hchain, List.append_assoc]
        rfl
      · intro hnot
        have hlength := hshort fun hchain => hnot ⟨hpair, hchain⟩
        rw [List.length_append, List.length_singleton] at hlength
        omega
    · rw [socketStep_of_not_spaced (Ne.symm hch) hpair]
      refine ⟨fun h => absurd h.1 hpair, ?_⟩
      intro _
      obtain ⟨added, hadded, hlength⟩ := foldl_socketStep_adds value (out, true)
      rw [hadded, List.length_append]
      change out.length + added.length < out.length + (value.length + 1)
      omega

theorem isAlphanum_of_head?_core {c : Char} (h : (core value).head? = some c) :
    c.isAlphanum = true := by
  simpa using Text.head?_trimMatches h

theorem core_ne_nil_iff : core value ≠ [] ↔ ∃ c ∈ value, c.isAlphanum = true := by
  rw [core, ne_eq, Text.trimMatches_eq_nil_iff]
  simp

/-- The loop on a name without underscores: what comes of the core, and then dashes. -/
theorem foldl_socketStep_core (hunderscore : '_' ∉ value) (hne : core value ≠ []) :
    ∃ out dashes, (value.foldl socketStep ([], false)).1 = out ++ dashes ∧
      (∀ ch ∈ dashes, (ch == '-') = true) ∧
      (List.IsChain Spaced (core value) → out = sanitizeId value) ∧
      (¬List.IsChain Spaced (core value) → out.length < (sanitizeId value).length) := by
  obtain ⟨before, after, hsplit, hbefore, hafter⟩ :=
    Text.trimMatches_split (p := fun c => !c.isAlphanum) (l := value)
  change value = before ++ (core value ++ after) at hsplit
  have hother : ∀ l, l ⊆ value → (∀ c ∈ l, (!c.isAlphanum) = true) →
      ∀ c ∈ l, c.isAlphanum = false ∧ c ≠ '_' := by
    intro l hsub hl c hc
    exact ⟨by simpa using hl c hc, ne_of_mem_of_not_mem (hsub hc) hunderscore⟩
  have hsubbefore : before ⊆ value := by
    rw [hsplit]
    exact List.subset_append_left _ _
  have hsubafter : after ⊆ value := by
    rw [hsplit]
    exact fun c hc => List.mem_append_right _ (List.mem_append_right _ hc)
  have hsubcore : '_' ∉ core value := fun h => hunderscore (Text.trimMatches_subset h)
  rw [sanitizeId_eq_map, List.length_map]
  obtain ⟨c, rest, hcore⟩ := List.exists_cons_of_ne_nil hne
  have hhead : (core value).head? = some c := by rw [hcore, List.head?_cons]
  have halnum : c.isAlphanum = true := isAlphanum_of_head?_core hhead
  obtain ⟨skipped, lastDash, hfold, -, hskipped⟩ :=
    foldl_socketStep_dashes (hother before hsubbefore hbefore) [] false
  rw [hskipped rfl, List.append_nil] at hfold
  rw [hcore] at hsubcore ⊢
  obtain ⟨hspaced, hshort⟩ := foldl_socketStep_spaced [c]
    (not_or.1 (List.mem_cons.not.1 hsubcore)).2 c (by simp)
  rw [halnum, Bool.not_true] at hspaced hshort
  generalize hmid : rest.foldl socketStep ([c], false) = mid at hspaced hshort
  obtain ⟨out, lastDash'⟩ := mid
  obtain ⟨dashes, lastDash'', hrest, hdashes, -⟩ :=
    foldl_socketStep_dashes (hother after hsubafter hafter) out lastDash'
  refine ⟨out, dashes, ?_, hdashes, ?_, ?_⟩
  · rw [hsplit, hcore, List.foldl_append, hfold, List.foldl_append, List.foldl_cons,
      socketStep_of_isAlphanum halnum, List.nil_append, hmid, hrest]
  · intro hchain
    calc out = [c] ++ rest.map dashed := hspaced hchain
      _ = (c :: rest).map dashed := by rw [List.map_cons, dashed_of_isAlphanum halnum]; rfl
  · intro hnot
    have hlength := hshort hnot
    rw [List.length_cons, Nat.add_comm]
    exact hlength

theorem sanitizeSocketName_eq_iff_spaced (hunderscore : '_' ∉ value) (hne : core value ≠ []) :
    sanitizeSocketName value = sanitizeId value ↔ List.IsChain Spaced (core value) := by
  obtain ⟨out, dashes, hfold, hdashes, hspaced, hshort⟩ := foldl_socketStep_core hunderscore hne
  have hid : sanitizeId value ≠ [] := by
    rw [sanitizeId_eq_map]
    simpa using hne
  have htrimmed : (sanitizeId value).rdropWhile (· == '-') = sanitizeId value :=
    List.rdropWhile_idempotent _ _
  simp only [sanitizeSocketName]
  rw [hfold, Text.rdropWhile_append_of_forall hdashes]
  by_cases hchain : List.IsChain Spaced (core value)
  · rw [hspaced hchain, htrimmed, if_neg hid]
    exact iff_of_true rfl hchain
  · refine iff_of_false ?_ hchain
    obtain ⟨c, hc, halnum⟩ := core_ne_nil_iff.1 hne
    have hlength := hshort hchain
    have hle := (List.rdropWhile_prefix (· == '-') out).length_le
    rw [if_neg]
    · intro heq
      rw [heq] at hle
      omega
    · intro hnil
      have hmem := mem_foldl_socketStep (.inl halnum) hc ([], false)
      rw [hfold, List.mem_append] at hmem
      have hall : ∀ c ∈ out ++ dashes, (c == '-') = true := by
        rw [List.forall_mem_append]
        exact ⟨(List.rdropWhile_eq_nil_iff).1 hnil, hdashes⟩
      have hdash := hall c (List.mem_append.2 hmem)
      rw [eq_of_beq hdash] at halnum
      cases halnum

theorem sanitizeSocketName_eq_iff : sanitizeSocketName value = sanitizeId value ↔
    (∃ c ∈ value, c.isAlphanum = true) ∧ '_' ∉ value ∧ List.IsChain Spaced (core value) := by
  rw [← core_ne_nil_iff]
  by_cases hunderscore : '_' ∈ value
  · refine iff_of_false ?_ fun h => h.2.1 hunderscore
    intro heq
    have hmem := mem_sanitizeSocketName (.inr rfl) hunderscore
    rw [heq] at hmem
    rcases isAlphanum_or_dash_of_mem_sanitizeId hmem with h | h
    · cases h
    · exact absurd h (by decide)
  by_cases hne : core value = []
  · refine iff_of_false ?_ fun h => h.1 hne
    intro heq
    rw [sanitizeId_eq_map, hne, sanitizeSocketName] at heq
    split at heq
    · cases heq
    · rename_i hout
      exact hout heq
  · rw [sanitizeSocketName_eq_iff_spaced hunderscore hne]
    exact ⟨fun h => ⟨hne, hunderscore, h⟩, fun h => h.2.2⟩

end SocketName

theorem socket_of_instanceContext {ctx : AppContext} {control : Option Str} {io : Io} {name : Str}
    {d : StateDir} {c : InstanceContext} (hc : (instanceContext ctx control io name d).1 = .ok c) :
    c.socket = (instanceNames name).socket := by
  obtain ⟨r, d', hcontext, -⟩ := instanceContext_served ctx control io name d
  rw [hcontext] at hc
  cases r with
  | error e => cases hc
  | ok port =>
    obtain rfl := Except.ok.inj hc
    rfl

theorem socket_agrees_iff (opts : GlobalOptions) (env : Environment) (hopts : opts.socket = none)
    (henv : env.socket = none) {ctx : AppContext} {control : Option Str} {io : Io} {d : StateDir}
    {c : InstanceContext}
    (hc : (instanceContext ctx control io (fromGlobals opts env).name d).1 = .ok c) :
    (fromGlobals opts env).socket = c.socket ↔
      (fromGlobals opts env).name = defaultName ∨
        (∃ ch ∈ (fromGlobals opts env).name, ch.isAlphanum = true) ∧
          '_' ∉ (fromGlobals opts env).name ∧
          List.IsChain Spaced (core (fromGlobals opts env).name) := by
  rw [socket_of_instanceContext hc]
  simp only [fromGlobals, instanceNames, hopts, henv, Option.or_none, Option.getD_none]
  generalize (opts.name.or env.name).getD defaultName = name
  by_cases hname : name = defaultName
  · rw [if_pos hname, if_pos hname]
    exact iff_of_true rfl (.inl hname)
  · rw [if_neg hname, if_neg hname, namedSocket_injective.eq_iff, sanitizeSocketName_eq_iff,
      or_iff_right hname]

/-- The options `--instance dev.box`. -/
def devBox : GlobalOptions := ⟨some ['d', 'e', 'v', '.', 'b', 'o', 'x'], none, none⟩

theorem devBox_agrees : (fromGlobals devBox ⟨none, none, none⟩).socket =
    namedSocket ['d', 'e', 'v', '-', 'b', 'o', 'x'] := by
  have hc : (instanceContext ⟨5710⟩ none .quiet (fromGlobals devBox ⟨none, none, none⟩).name
      ⟨none, none⟩).1 = .ok ⟨⟨5712⟩, instanceNames ['d', 'e', 'v', '.', 'b', 'o', 'x']⟩ := rfl
  refine ((socket_agrees_iff devBox ⟨none, none, none⟩ rfl rfl hc).2 (.inr ⟨?_, ?_, ?_⟩)).trans rfl
  · exact ⟨'d', List.mem_cons_self, rfl⟩
  · decide
  · refine .cons_cons (.inl rfl) (.cons_cons (.inl rfl) (.cons_cons (.inl rfl) ?_))
    exact .cons_cons (.inr rfl) (.cons_cons (.inl rfl) (.cons_cons (.inl rfl) (.singleton _)))

/-- With `--instance 'dev box!!west'` the command waits for a socket that the instance, started under
that name, does not have. -/
theorem dev_box_west_disagrees :
    ¬(∀ (opts : GlobalOptions) (env : Environment) (ctx : AppContext) (control : Option Str) (io : Io)
      (d : StateDir) (c : InstanceContext), opts.socket = none → env.socket = none →
      (instanceContext ctx control io (fromGlobals opts env).name d).1 = .ok c →
        (fromGlobals opts env).socket = c.socket) := by
  intro hall
  have h := hall ⟨some "dev box!!west".toList, none, none⟩ ⟨none, none, none⟩ ⟨5710⟩ none .quiet
    ⟨none, none⟩ ⟨⟨5712⟩, instanceNames "dev box!!west".toList⟩ rfl rfl rfl
  exact absurd h (by decide)

end VBox.Cli
