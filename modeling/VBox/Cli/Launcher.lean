import VBox.Cli.IconNames
import VBox.Cli.Instances
import VBox.Cli.Library
import VBox.DataPlane.OneShot
import VBox.Lib.Json
import VBox.Lib.Paths
import VBox.Lib.Table

/-!
# Cli.Launcher

The launcher of an app on the host. `build_launcher_app` of the command line tool (`runtime.rs` in
`crates/vbox-cli/src`) writes what it knows into the resources of a bundle; the client in the bundle
(`crates/client/src/launch.rs`) reads them, hands them to the tool's commands in their environment
(`from_globals` in `context.rs`), and reads what `prepare_app` prints.

* `bundleLaunchArgs_resources`: the client reads what the tool wrote.
* `fromGlobals_launched`, `helperContext_instance`: the commands of the client run in the context of
  the tool that built the launcher, on the app's instance.
* `parsePrepareAppStdout_printed`: in both of its forms the client reads the answer of `prepare_app`,
  whatever was printed before.
-/

namespace VBox.Cli

/-! ## Contexts -/

/-- `AppContext`, with all its fields. -/
structure FullContext extends InstanceContext where
  root : Str
  stateDir : Str
  cliPath : Str
  guest : Option Str
  guestDir : Option Str
  width : UInt32
  height : UInt32
  debug : Bool
  build : Bool

/-- `GlobalOptions`, with all its fields. -/
structure FullOptions extends GlobalOptions where
  guest : Option Str
  guestDir : Option Str
  width : Option UInt32
  height : Option UInt32
  debug : Bool
  noBuild : Bool

abbrev Env := Table String Str

/-- The variables of a command, over those of its parent. -/
def Env.with (env : Env) (vars : List (String × Str)) : Env :=
  vars.foldl (fun env var => env.insert var.1 var.2) env

def Env.instance (env : Env) : Environment :=
  { name := env.get? "VBOX_INSTANCE", port := env.get? "VBOX_PORT", socket := env.get? "VBOX_SOCKET" }

/-- The running program. -/
structure Exe where
  currentExe : Option Str
  /-- `repo_root` from the place of the program, or from that of its sources. -/
  repoRoot : Option Str

def repoRoot (env : Env) (exe : Exe) : Option Str := (env.get? "VBOX_ROOT").or exe.repoRoot

def FullContext.fromGlobals (opts : FullOptions) (env : Env) (exe : Exe) : Option FullContext :=
  (repoRoot env exe).map fun root =>
    { Cli.fromGlobals opts.toGlobalOptions env.instance with
      root
      stateDir := (env.get? "VBOX_STATE_DIR").getD (Paths.join root ".vbox".toList)
      cliPath := exe.currentExe.getD (Paths.join root "target/release/vbox".toList)
      guest := opts.guest.or (env.get? "VBOX_GUEST")
      guestDir := opts.guestDir.or (env.get? "VBOX_GUEST_DIR")
      width := (opts.width.or ((env.get? "VBOX_WIDTH").bind Text.parseU32)).getD 1024
      height := (opts.height.or ((env.get? "VBOX_HEIGHT").bind Text.parseU32)).getD 768
      debug := opts.debug || decide (env.get? "VBOX_DEBUG" = some "1".toList)
      build := !opts.noBuild && decide (env.get? "VBOX_BUILD" ≠ some "0".toList) }

/-- `instance_context` -/
def FullContext.instanceContext (ctx : FullContext) (env : Env) (io : Io) (name : Str) (d : StateDir) :
    Except PortsError FullContext × StateDir :=
  let (r, d') := Cli.instanceContext ctx.toAppContext (env.get? "VBOX_CONTROL_PORT") io name d
  (r.map fun c => { ctx with toInstanceContext := c }, d')

/-! ## The bundle -/

/-- The files of `Contents/Resources`. -/
abbrev Resources := Table String Str

def iconCacheDir (ctx : FullContext) : Str := Paths.join ctx.stateDir "icons".toList

/-- The files that `build_launcher_app` writes. `app` is the context of the app's instance. -/
def launcherFiles (ctx app : FullContext) (row : AppRecord) : List (String × Str) :=
  [("AppID.txt", row.id), ("AppName.txt", row.name), ("Exec.txt", row.exec), ("Argv.b64", row.argvB64),
    ("VBoxNativePath.txt", ctx.cliPath), ("Root.txt", ctx.root), ("StateDir.txt", ctx.stateDir),
    ("Guest.txt", ctx.guest.getD []), ("GuestDir.txt", ctx.guestDir.getD []),
    ("Port.txt", Text.printU16 app.port), ("Width.txt", Text.printU32 ctx.width),
    ("Height.txt", Text.printU32 ctx.height), ("IconDir.txt", iconCacheDir ctx),
    ("Instance.txt", sanitizeId row.id)]

/-- What is there of an older launcher is written over. -/
def launcherResources (ctx app : FullContext) (row : AppRecord) (old : Resources) : Resources :=
  (launcherFiles ctx app row).foldl (fun resources file => resources.insert file.1 (file.2 ++ ['\n']))
    (old.remove "Socket.txt")

def readResource (resources : Resources) (name : String) : Option Str :=
  ((resources.get? name).map Text.trim).filter (· ≠ [])

structure BundleLaunchArgs where
  vboxNative : Str
  appId : Str
  inst : Str
  commandEnv : List (String × Str)
  iconDir : Option Str

/-- The files that are handed on, and the variables for them. -/
def bundleVars : List (String × String) :=
  [("Root.txt", "VBOX_ROOT"), ("StateDir.txt", "VBOX_STATE_DIR"), ("Guest.txt", "VBOX_GUEST"),
    ("GuestDir.txt", "VBOX_GUEST_DIR"), ("Port.txt", "VBOX_PORT"), ("Width.txt", "VBOX_WIDTH"),
    ("Height.txt", "VBOX_HEIGHT")]

def bundleCommandEnv (resources : Resources) : List (String × Str) :=
  bundleVars.filterMap fun var => (readResource resources var.1).map fun value => (var.2, value)

/-- None where the program is not that of a launcher. -/
def bundleLaunchArgs (resources : Resources) : Option BundleLaunchArgs :=
  match readResource resources "AppID.txt",
    (readResource resources "VBoxNativePath.txt").or (readResource resources "CohNativePath.txt") with
  | some appId, some vboxNative =>
    some
      { vboxNative, appId
        inst := (readResource resources "Instance.txt").getD (IconNames.sanitizeAppId appId)
        commandEnv := bundleCommandEnv resources
        iconDir := readResource resources "IconDir.txt" }
  | _, _ => none

/-! ### Words -/

/-- A text without white space. -/
def Word (text : Str) : Prop := text ≠ [] ∧ ∀ c ∈ text, Text.isWhitespace c = false

theorem word_of_all {w : Str} (hne : w ≠ []) (hall : w.all (fun c => !Text.isWhitespace c) = true) :
    Word w := ⟨hne, by simpa using hall⟩

theorem word_printU16 (n : UInt16) : Word (Text.printU16 n) :=
  ⟨Text.printU16_ne_nil n, fun _ hc => Text.isWhitespace_of_isDigit (Text.isDigit_of_mem_printU16 hc)⟩

theorem word_printU32 (n : UInt32) : Word (Text.printU32 n) :=
  ⟨Text.printU32_ne_nil n, fun _ hc => Text.isWhitespace_of_isDigit (Text.isDigit_of_mem_printU32 hc)⟩

theorem Word.append {v w : Str} (hv : Word v) (hw : Word w) : Word (v ++ w) :=
  ⟨by simp [hv.1], List.forall_mem_append.2 ⟨hv.2, hw.2⟩⟩

theorem Word.trim {w : Str} (hw : Word w) : Text.trim w = w :=
  Text.trimMatches_eq_self (fun _ hc => hw.2 _ (List.mem_of_mem_head? hc))
    fun _ hc => hw.2 _ (List.mem_of_getLast? hc)

/-! ### What is written is read -/

section Bundle

variable {ctx app : FullContext} {row : AppRecord} {old resources : Resources} {env : Env}
  {name : String} {value : Str}

theorem get?_writes_other {files : List (String × Str)} (h : name ∉ files.map Prod.fst) (t : Resources) :
    (files.foldl (fun t file => t.insert file.1 (file.2 ++ ['\n'])) t).get? name = t.get? name := by
  induction files generalizing t with
  | nil => rfl
  | cons file files ih =>
    rw [List.map_cons, List.mem_cons, not_or] at h
    rw [List.foldl_cons, ih h.2, Table.get?_insert, if_neg h.1]

theorem get?_writes {files : List (String × Str)} (hnodup : (files.map Prod.fst).Nodup)
    (h : (name, value) ∈ files) (t : Resources) :
    (files.foldl (fun t file => t.insert file.1 (file.2 ++ ['\n'])) t).get? name =
      some (value ++ ['\n']) := by
  induction files generalizing t with
  | nil => cases h
  | cons file files ih =>
    rw [List.map_cons, List.nodup_cons] at hnodup
    rw [List.foldl_cons]
    rcases List.mem_cons.1 h with rfl | h
    · rw [get?_writes_other hnodup.1, Table.get?_insert, if_pos rfl]
    · exact ih hnodup.2 h _

theorem trim_append_newline (value : Str) : Text.trim (value ++ ['\n']) = Text.trim value := by
  rw [Text.trim, Text.trim, Text.trimMatches, Text.trimMatches, List.dropWhile_append]
  split
  · rename_i hnil
    rw [List.isEmpty_iff.1 hnil]
    rfl
  · exact List.rdropWhile_concat_pos _ _ _ rfl

theorem readResource_launcher (h : (name, value) ∈ launcherFiles ctx app row) :
    readResource (launcherResources ctx app row old) name =
      (some (Text.trim value)).filter (· ≠ []) := by
  have hnodup : ((launcherFiles ctx app row).map Prod.fst).Nodup := by
    have hnames : (launcherFiles ctx app row).map Prod.fst = ["AppID.txt", "AppName.txt", "Exec.txt",
      "Argv.b64", "VBoxNativePath.txt", "Root.txt", "StateDir.txt", "Guest.txt", "GuestDir.txt",
      "Port.txt", "Width.txt", "Height.txt", "IconDir.txt", "Instance.txt"] := rfl
    rw [hnames]
    decide
  rw [readResource, launcherResources, get?_writes hnodup h, Option.map_some, trim_append_newline]

/-- A text that is the same when it has been written and read. -/
def Clean (value : Str) : Prop := Text.trim value = value ∧ value ≠ []

theorem Word.clean (h : Word value) : Clean value := ⟨h.trim, h.1⟩

theorem readResource_clean (h : (name, value) ∈ launcherFiles ctx app row) (hclean : Clean value) :
    readResource (launcherResources ctx app row old) name = some value := by
  rw [readResource_launcher h, hclean.1, Option.filter_some, if_pos (by simpa using hclean.2)]

theorem readResource_empty (h : (name, []) ∈ launcherFiles ctx app row) :
    readResource (launcherResources ctx app row old) name = none := by
  rw [readResource_launcher h]
  rfl

theorem Clean.append {v w : Str} (hv : Clean v) (hw : Word w) : Clean (v ++ w) := by
  refine ⟨Text.trimMatches_eq_self (fun c hc => ?_) fun c hc => ?_, by simp [hw.1]⟩
  · rw [List.head?_append_of_ne_nil _ hv.2, ← hv.1] at hc
    exact Text.head?_trimMatches hc
  · rw [List.getLast?_append_of_ne_nil _ hw.1] at hc
    exact hw.2 c (List.mem_of_getLast? hc)

theorem clean_iconCacheDir (h : Clean ctx.stateDir) : Clean (iconCacheDir ctx) := by
  have hicons : Word "icons".toList ∧ Word ('/' :: "icons".toList) :=
    ⟨word_of_all (by decide) (by decide), word_of_all (by decide) (by decide)⟩
  rw [iconCacheDir, Paths.join, if_neg (by decide)]
  split
  · exact h.append hicons.1
  · exact h.append hicons.2

theorem readResource_instance (ctx app : FullContext) (row : AppRecord) (old : Resources) :
    readResource (launcherResources ctx app row old) "Instance.txt" =
      if sanitizeId row.id = [] then none else some (sanitizeId row.id) := by
  have hfile : ("Instance.txt", sanitizeId row.id) ∈ launcherFiles ctx app row := by simp [launcherFiles]
  split
  · rename_i hnil
    rw [hnil] at hfile
    exact readResource_empty hfile
  · rename_i hne
    refine readResource_clean hfile (Word.clean ⟨hne, fun c hc => ?_⟩)
    rcases isAlphanum_or_dash_of_mem_sanitizeId hc with hc | rfl
    · exact Text.isWhitespace_of_isAlphanum hc
    · rfl

/-- **The client reads what the tool wrote**, if white space at the ends of it does not matter. The name
of the instance is the tool's, unless that is empty. -/
theorem bundleLaunchArgs_resources (hid : Clean row.id) (hcliPath : Clean ctx.cliPath)
    (hstateDir : Clean ctx.stateDir) :
    bundleLaunchArgs (launcherResources ctx app row old) = some
      { vboxNative := ctx.cliPath
        appId := row.id
        inst := if sanitizeId row.id = [] then IconNames.sanitizeAppId row.id else sanitizeId row.id
        commandEnv := bundleCommandEnv (launcherResources ctx app row old)
        iconDir := some (iconCacheDir ctx) } := by
  have happ : readResource (launcherResources ctx app row old) "AppID.txt" = some row.id :=
    readResource_clean (by simp [launcherFiles]) hid
  have hnative : readResource (launcherResources ctx app row old) "VBoxNativePath.txt" =
      some ctx.cliPath := readResource_clean (by simp [launcherFiles]) hcliPath
  have hicons : readResource (launcherResources ctx app row old) "IconDir.txt" =
      some (iconCacheDir ctx) := readResource_clean (by simp [launcherFiles]) (clean_iconCacheDir hstateDir)
  simp only [bundleLaunchArgs, happ, hnative, hicons, readResource_instance, Option.some_or]
  by_cases hnil : sanitizeId row.id = []
  · simp only [hnil, if_true, Option.getD_none]
  · simp only [hnil, if_false, Option.getD_some]

theorem get?_with_other {vars : List (String × Str)} (h : name ∉ vars.map Prod.fst) (env : Env) :
    (env.with vars).get? name = env.get? name := by
  induction vars generalizing env with
  | nil => rfl
  | cons var vars ih =>
    rw [List.map_cons, List.mem_cons, not_or] at h
    rw [Env.with, List.foldl_cons, ← Env.with, ih h.2, Table.get?_insert, if_neg h.1]

/-- A variable is handed on if there is something in its file. -/
theorem get?_with_read {vars : List (String × String)} {file : String}
    (hnodup : (vars.map Prod.snd).Nodup) (h : (file, name) ∈ vars) (env : Env) :
    (env.with (vars.filterMap fun var =>
      (readResource resources var.1).map fun value => (var.2, value))).get? name =
        (readResource resources file).or (env.get? name) := by
  induction vars generalizing env with
  | nil => cases h
  | cons var vars ih =>
    rw [List.map_cons, List.nodup_cons] at hnodup
    rw [List.filterMap_cons]
    rcases List.mem_cons.1 h with rfl | h
    · have hrest : name ∉ (vars.filterMap fun var =>
          (readResource resources var.1).map fun value => (var.2, value)).map Prod.fst := by
        intro hmem
        obtain ⟨⟨key, value⟩, hkey, rfl⟩ := List.mem_map.1 hmem
        obtain ⟨var, hvar, hsome⟩ := List.mem_filterMap.1 hkey
        obtain ⟨_, -, heq⟩ := Option.map_eq_some_iff.1 hsome
        exact hnodup.1 (List.mem_map.2 ⟨var, hvar, congrArg Prod.fst heq⟩)
      cases hread : readResource resources file with
      | none => simpa [hread] using get?_with_other hrest env
      | some value =>
        simp only [Option.map_some, Option.some_or]
        rw [Env.with, List.foldl_cons, ← Env.with, get?_with_other hrest, Table.get?_insert, if_pos rfl]
    · cases hread : readResource resources var.1 with
      | none => simpa [hread] using ih hnodup.2 h env
      | some value =>
        have hne : name ≠ var.2 := by
          rintro rfl
          exact hnodup.1 (List.mem_map.2 ⟨_, h, rfl⟩)
        simp only [Option.map_some]
        rw [Env.with, List.foldl_cons, ← Env.with, ih hnodup.2 h, Table.get?_insert, if_neg hne]

theorem get?_commandEnv {file : String} (h : (file, name) ∈ bundleVars) :
    (env.with (bundleCommandEnv resources)).get? name =
      (readResource resources file).or (env.get? name) :=
  get?_with_read (by decide) h env

theorem get?_commandEnv_other (h : name ∉ bundleVars.map Prod.snd) :
    (env.with (bundleCommandEnv resources)).get? name = env.get? name := by
  refine get?_with_other (fun hmem => h ?_) env
  obtain ⟨⟨key, value⟩, hkey, rfl⟩ := List.mem_map.1 hmem
  obtain ⟨var, hvar, hsome⟩ := List.mem_filterMap.1 hkey
  obtain ⟨_, -, heq⟩ := Option.map_eq_some_iff.1 hsome
  exact List.mem_map.2 ⟨var, hvar, congrArg Prod.fst heq⟩

/-! ### The context of the client's commands -/

/-- A variable that the client sets, or that is not set at all. -/
def Carried (env : Env) (var : String) : Option Str → Prop
  | some value => Clean value
  | none => env.get? var = none

/-- What the tool knows goes through the bundle. -/
structure Launchable (ctx : FullContext) (row : AppRecord) (env : Env) : Prop where
  id : Clean row.id
  cliPath : Clean ctx.cliPath
  root : Clean ctx.root
  stateDir : Clean ctx.stateDir
  guest : Carried env "VBOX_GUEST" ctx.guest
  guestDir : Carried env "VBOX_GUEST_DIR" ctx.guestDir

/-- The options `--no-build --instance name`. -/
def helperOptions (name : Str) : FullOptions :=
  { name := some name, port := none, socket := none, guest := none, guestDir := none, width := none,
    height := none, debug := false, noBuild := true }

def helperContext (ctx app : FullContext) (env : Env) (exe : Exe) (name : Str) : FullContext :=
  { ctx with
    name
    port := app.port
    socket := (env.get? "VBOX_SOCKET").getD
      (if name = defaultName then defaultSocket else namedSocket (sanitizeSocketName name))
    cliPath := exe.currentExe.getD (Paths.join ctx.root "target/release/vbox".toList)
    debug := decide (env.get? "VBOX_DEBUG" = some "1".toList)
    build := false }

theorem carried_commandEnv (file : String) {field : Option Str} (h : Carried env name field)
    (hvar : (file, name) ∈ bundleVars) (hfile : (file, field.getD []) ∈ launcherFiles ctx app row) :
    (env.with (bundleCommandEnv (launcherResources ctx app row old))).get? name = field := by
  rw [get?_commandEnv hvar]
  cases field with
  | some value => exact congrArg (·.or (env.get? name)) (readResource_clean hfile h)
  | none => rw [readResource_empty hfile, Option.none_or, h]

theorem set_commandEnv (file : String) (hvar : (file, name) ∈ bundleVars)
    (hfile : (file, value) ∈ launcherFiles ctx app row) (hclean : Clean value) :
    (env.with (bundleCommandEnv (launcherResources ctx app row old))).get? name = some value := by
  rw [get?_commandEnv hvar, readResource_clean hfile hclean, Option.some_or]

/-- The commands of the client run in the context of the tool that built the launcher. -/
theorem fromGlobals_launched (h : Launchable ctx row env) (exe : Exe) (name : Str) :
    FullContext.fromGlobals (helperOptions name)
      (env.with (bundleCommandEnv (launcherResources ctx app row old))) exe =
        some (helperContext ctx app env exe name) := by
  obtain ⟨vars, hvars⟩ : ∃ vars, vars = env.with (bundleCommandEnv (launcherResources ctx app row old)) :=
    ⟨_, rfl⟩
  have hroot : vars.get? "VBOX_ROOT" = some ctx.root := by
    rw [hvars]
    exact set_commandEnv "Root.txt" (by decide) (by simp [launcherFiles]) h.root
  have hstate : vars.get? "VBOX_STATE_DIR" = some ctx.stateDir := by
    rw [hvars]
    exact set_commandEnv "StateDir.txt" (by decide) (by simp [launcherFiles]) h.stateDir
  have hport : vars.get? "VBOX_PORT" = some (Text.printU16 app.port) := by
    rw [hvars]
    exact set_commandEnv "Port.txt" (by decide) (by simp [launcherFiles]) (word_printU16 app.port).clean
  have hwidth : vars.get? "VBOX_WIDTH" = some (Text.printU32 ctx.width) := by
    rw [hvars]
    exact set_commandEnv "Width.txt" (by decide) (by simp [launcherFiles]) (word_printU32 _).clean
  have hheight : vars.get? "VBOX_HEIGHT" = some (Text.printU32 ctx.height) := by
    rw [hvars]
    exact set_commandEnv "Height.txt" (by decide) (by simp [launcherFiles]) (word_printU32 _).clean
  have hguest : vars.get? "VBOX_GUEST" = ctx.guest := by
    rw [hvars]
    exact carried_commandEnv "Guest.txt" h.guest (by decide) (by simp [launcherFiles])
  have hguestDir : vars.get? "VBOX_GUEST_DIR" = ctx.guestDir := by
    rw [hvars]
    exact carried_commandEnv "GuestDir.txt" h.guestDir (by decide) (by simp [launcherFiles])
  have hsocket : vars.get? "VBOX_SOCKET" = env.get? "VBOX_SOCKET" := by
    rw [hvars]
    exact get?_commandEnv_other (by decide)
  have hdebug : vars.get? "VBOX_DEBUG" = env.get? "VBOX_DEBUG" := by
    rw [hvars]
    exact get?_commandEnv_other (by decide)
  rw [← hvars]
  simp only [FullContext.fromGlobals, repoRoot, Cli.fromGlobals, Env.instance, helperOptions,
    helperContext, hroot, hstate, hport, hwidth, hheight, hguest, hguestDir, hsocket, hdebug,
    Option.some_or, Option.none_or, Option.getD_some, Option.bind_some, Option.map_some,
    Text.parseU16_printU16, Text.parseU32_printU32, Bool.false_or, Bool.not_true, Bool.false_and]

/-- They run on the instance that the launcher was built for. -/
theorem helperContext_instance {toolEnv : Env} {io : Io} {d : StateDir}
    (happ : (ctx.instanceContext toolEnv io (sanitizeId row.id) d).1 = .ok app) (exe : Exe) :
    (helperContext ctx app env exe (sanitizeId row.id)).name = app.name ∧
      (helperContext ctx app env exe (sanitizeId row.id)).port = app.port := by
  obtain ⟨r, d', hcontext, -⟩ := instanceContext_served ctx.toAppContext
    (toolEnv.get? "VBOX_CONTROL_PORT") io (sanitizeId row.id) d
  rw [FullContext.instanceContext, hcontext] at happ
  cases r with
  | error e => cases happ
  | ok port =>
    obtain rfl := Except.ok.inj happ
    exact ⟨rfl, rfl⟩

end Bundle

/-! ## The answer of `prepare_app` -/

/-- One line, as an object with `--bundle` and without it as four words. -/
def prepareAppLine (bundle : Bool) (app : FullContext) : Str :=
  if bundle then
    "\x7b\"version\":1,\"port\":".toList ++ Text.printU16 app.port ++ ",\"socket\":\"".toList ++
      app.socket ++ "\",\"width\":".toList ++ Text.printU32 app.width ++ ",\"height\":".toList ++
      Text.printU32 app.height ++ ",\"data_plane\":\x7b\"mode\":\"tcp-only\"\x7d\x7d".toList
  else
    Text.printU16 app.port ++ ' ' :: app.socket ++ ' ' :: Text.printU32 app.width ++ ' ' ::
      Text.printU32 app.height

/-- The fields of the object that the line with `--bundle` is the text of. -/
def prepareAppFields (app : FullContext) : Json.Fields :=
  [("version".toList, .num ['1']), ("port".toList, .num (Text.printU16 app.port)),
    ("socket".toList, .str app.socket), ("width".toList, .num (Text.printU32 app.width)),
    ("height".toList, .num (Text.printU32 app.height)),
    ("data_plane".toList, .obj [("mode".toList, .str "tcp-only".toList)])]

/-- What the standard output of `prepare_app` holds, after the lines of the programs that it runs. -/
def prepareAppStdout (bundle : Bool) (printed : List Str) (app : FullContext) : Str :=
  (printed.flatMap fun line => line ++ ['\n']) ++ (prepareAppLine bundle app ++ ['\n'])

structure ViewTransport where
  mode : DataPlaneMode
  quicAddr : Option SocketAddr
  quicToken : Option Str
  quicCertSha256 : Option Str
  deriving DecidableEq

def ViewTransport.tcp : ViewTransport :=
  { mode := .tcpOnly, quicAddr := none, quicToken := none, quicCertSha256 := none }

structure PreparedInstance where
  port : UInt16
  socket : Str
  width : UInt32
  height : UInt32
  transport : ViewTransport
  deriving DecidableEq

inductive PrepareError where
  | noStdout
  | malformed (line : Str)
  | parsePort
  | parseWidth
  | parseHeight
  | parseBundle
  | unsupportedVersion (version : Nat)
  | unknownMode (mode : Str)
  | missingQuicAddr
  | missingSessionToken
  | missingCertSha256
  deriving DecidableEq

structure PrepareAppDataPlane where
  mode : Str
  quicAddr : Option SocketAddr
  sessionToken : Option Str
  quicServerCertSha256 : Option Str

structure PrepareAppBundle where
  version : Nat
  port : UInt16
  socket : Str
  width : UInt32
  height : UInt32
  dataPlane : Option PrepareAppDataPlane

/-- An unsigned number below `size`: without a sign, a fraction and an exponent. -/
def asUnsigned (size : Nat) : Json → Option Nat
  | .num text =>
    if text ≠ [] ∧ text.all Char.isDigit ∧ Nat.ofDigitChars 10 text 0 < size then
      some (Nat.ofDigitChars 10 text 0)
    else none
  | _ => none

/-- An optional field. -/
def asOption {α : Type} (read : Json → Option α) : Json → Option (Option α)
  | .null => some none
  | v => (read v).map some

section Client

-- `serde_json::from_str` and the parser of socket addresses
variable (fromStr : Str → Option Json) (parseAddr : Str → Option SocketAddr)

/-- In an array no field may be missing. -/
def PrepareAppDataPlane.read (v : Json) : Option PrepareAppDataPlane := do
  let names := ["mode", "quic_addr", "session_token", "quic_server_cert_sha256"].map String.toList
  let fields ← v.readStruct names
  if v.asArray.any (·.length < names.length) then none
  else
    let mode ← Json.readField Json.asStr none fields "mode".toList
    let quicAddr ← Json.readField (asOption fun v => v.asStr.bind parseAddr) (some none) fields
      "quic_addr".toList
    let sessionToken ← Json.readField (asOption Json.asStr) (some none) fields "session_token".toList
    let quicServerCertSha256 ← Json.readField (asOption Json.asStr) (some none) fields
      "quic_server_cert_sha256".toList
    some { mode, quicAddr, sessionToken, quicServerCertSha256 }

def prepareAppNames : List String := ["version", "port", "socket", "width", "height", "data_plane"]

def PrepareAppBundle.read (v : Json) : Option PrepareAppBundle := do
  let fields ← v.readStruct (prepareAppNames.map String.toList)
  let version ← Json.readField (asUnsigned UInt8.size) none fields "version".toList
  let port ← Json.readField (asUnsigned UInt16.size) none fields "port".toList
  let socket ← Json.readField Json.asStr none fields "socket".toList
  let width ← Json.readField (asUnsigned UInt32.size) none fields "width".toList
  let height ← Json.readField (asUnsigned UInt32.size) none fields "height".toList
  let dataPlane ← Json.readField (asOption (PrepareAppDataPlane.read parseAddr)) (some none) fields
    "data_plane".toList
  some { version, port := .ofNat port, socket, width := .ofNat width, height := .ofNat height, dataPlane }

def prepareAppTransport (dataPlane : PrepareAppDataPlane) : Except PrepareError ViewTransport :=
  let mode :=
    if dataPlane.mode = "tcp-only".toList then some DataPlaneMode.tcpOnly
    else if dataPlane.mode = "auto".toList then some .auto
    else if dataPlane.mode = "quic-only".toList then some .quicOnly
    else none
  match mode with
  | none => .error (.unknownMode dataPlane.mode)
  | some .tcpOnly => .ok .tcp
  | some mode =>
    match dataPlane.quicAddr, dataPlane.sessionToken, dataPlane.quicServerCertSha256 with
    | none, _, _ => .error .missingQuicAddr
    | some _, none, _ => .error .missingSessionToken
    | some _, some _, none => .error .missingCertSha256
    | some quicAddr, some quicToken, some quicCertSha256 =>
      .ok
        { mode, quicAddr := some quicAddr, quicToken := some quicToken,
          quicCertSha256 := some quicCertSha256 }

def parsePrepareAppBundle (line : Str) : Except PrepareError PreparedInstance :=
  match (fromStr line).bind (PrepareAppBundle.read parseAddr) with
  | none => .error .parseBundle
  | some bundle =>
    if bundle.version ≠ 1 then .error (.unsupportedVersion bundle.version)
    else
      (bundle.dataPlane.elim (.ok .tcp) prepareAppTransport).map fun transport =>
        { port := bundle.port, socket := bundle.socket, width := bundle.width, height := bundle.height,
          transport }

def parsePrepareAppStdout (stdout : Str) : Except PrepareError PreparedInstance :=
  match Text.lastLine stdout with
  | none => .error .noStdout
  | some line =>
    if line.head? = some '{' then parsePrepareAppBundle fromStr parseAddr line
    else
      match Text.splitWhitespace line with
      | [port, socket, width, height] =>
        match Text.parseU16 port, Text.parseU32 width, Text.parseU32 height with
        | none, _, _ => .error .parsePort
        | some _, none, _ => .error .parseWidth
        | some _, some _, none => .error .parseHeight
        | some port, some width, some height => .ok { port, socket, width, height, transport := .tcp }
      | _ => .error (.malformed line)

variable {fromStr parseAddr}

theorem asUnsigned_toDigits {size n : Nat} (h : n < size) :
    asUnsigned size (.num (Nat.toDigits 10 n)) = some n := by
  have hdigits : (Nat.toDigits 10 n).all Char.isDigit = true :=
    List.all_eq_true.2 fun c hc => Nat.isDigit_of_mem_toDigits (by decide) (by decide) hc
  have hvalue : Nat.ofDigitChars 10 (Nat.toDigits 10 n) 0 = n := Nat.ofDigitChars_ten_toDigits
  simp only [asUnsigned, hvalue]
  rw [if_pos ⟨Nat.toDigits_ne_nil, hdigits, h⟩]

theorem readStruct_of_nodup (found : List Json.Name) {names : List Json.Name} {fields : Json.Fields}
    (hfound : (fields.map Prod.fst).filter (names.contains ·) = found) (hnodup : found.Nodup) :
    Json.readStruct names (.obj fields) = some fields := by
  rw [Json.readStruct, hfound, if_pos hnodup]

def tcpOnly : PrepareAppDataPlane :=
  { mode := "tcp-only".toList, quicAddr := none, sessionToken := none, quicServerCertSha256 := none }

variable (parseAddr) in
theorem read_tcpOnly :
    PrepareAppDataPlane.read parseAddr (.obj [("mode".toList, .str "tcp-only".toList)]) = some tcpOnly := by
  rw [PrepareAppDataPlane.read, readStruct_of_nodup ["mode".toList] rfl (by decide)]
  rfl

theorem read_prepareAppFields (app : FullContext) :
    PrepareAppBundle.read parseAddr (.obj (prepareAppFields app)) = some
      { version := 1, port := app.port, socket := app.socket, width := app.width, height := app.height,
        dataPlane := some tcpOnly } := by
  have hversion : Json.readField (asUnsigned UInt8.size) none (prepareAppFields app) "version".toList =
      some 1 := rfl
  have hport : Json.readField (asUnsigned UInt16.size) none (prepareAppFields app) "port".toList =
      some app.port.toNat := asUnsigned_toDigits app.port.toNat_lt
  have hsocket : Json.readField Json.asStr none (prepareAppFields app) "socket".toList =
      some app.socket := rfl
  have hwidth : Json.readField (asUnsigned UInt32.size) none (prepareAppFields app) "width".toList =
      some app.width.toNat := asUnsigned_toDigits app.width.toNat_lt
  have hheight : Json.readField (asUnsigned UInt32.size) none (prepareAppFields app) "height".toList =
      some app.height.toNat := asUnsigned_toDigits app.height.toNat_lt
  have hdataPlane : Json.readField (asOption (PrepareAppDataPlane.read parseAddr)) (some none)
      (prepareAppFields app) "data_plane".toList = some (some tcpOnly) :=
    congrArg (Option.map some) (read_tcpOnly parseAddr)
  have hstruct : Json.readStruct (prepareAppNames.map String.toList) (.obj (prepareAppFields app)) =
      some (prepareAppFields app) :=
    readStruct_of_nodup (prepareAppNames.map String.toList) rfl (by decide)
  simp only [PrepareAppBundle.read, hstruct, Option.bind_eq_bind, Option.bind_some, hversion, hport,
    hsocket, hwidth, hheight, hdataPlane, UInt16.ofNat_toNat, UInt32.ofNat_toNat]

/-! ### The line -/

theorem word_prepareAppLine {app : FullContext} (hsocket : Word app.socket) :
    Word (prepareAppLine true app) := by
  simp only [prepareAppLine, if_true]
  refine Word.append (.append (.append (.append (.append (.append (.append (.append ?_
    (word_printU16 _)) ?_) hsocket) ?_) (word_printU32 _)) ?_) (word_printU32 _)) ?_
  all_goals exact word_of_all (by decide) (by decide)

theorem head?_prepareAppLine (app : FullContext) : (prepareAppLine true app).head? = some '{' := rfl

/-- The four words. -/
theorem splitWhitespace_prepareAppLine {app : FullContext} (hsocket : Word app.socket) :
    Text.splitWhitespace (prepareAppLine false app) =
      [Text.printU16 app.port, app.socket, Text.printU32 app.width, Text.printU32 app.height] := by
  have hwords : ∀ {w : Str}, Word w → Text.splitWhitespace w = [w] := fun hw =>
    Text.splitWhitespace_word hw.1 hw.2
  rw [prepareAppLine, if_neg Bool.false_ne_true]
  simp only [List.append_assoc, List.cons_append]
  rw [Text.splitWhitespace_append rfl, Text.splitWhitespace_append rfl, Text.splitWhitespace_append rfl,
    hwords (word_printU16 _), hwords hsocket, hwords (word_printU32 _), hwords (word_printU32 _)]
  rfl

theorem trim_prepareAppLine {app : FullContext} (hsocket : Word app.socket) (bundle : Bool) :
    Text.trim (prepareAppLine bundle app) = prepareAppLine bundle app := by
  cases bundle with
  | true => exact (word_prepareAppLine hsocket).trim
  | false =>
    rw [prepareAppLine, if_neg Bool.false_ne_true]
    refine Text.trimMatches_eq_self (fun c hc => ?_) fun c hc => ?_
    · simp only [List.append_assoc] at hc
      rw [List.head?_append_of_ne_nil _ (word_printU16 _).1] at hc
      exact (word_printU16 _).2 c (List.mem_of_mem_head? hc)
    · rw [List.getLast?_append_of_ne_nil _ (List.cons_ne_nil _ _), ← List.singleton_append,
        List.getLast?_append_of_ne_nil _ (word_printU32 _).1] at hc
      exact (word_printU32 _).2 c (List.mem_of_getLast? hc)

theorem newline_not_mem_prepareAppLine {app : FullContext} (hsocket : Word app.socket) (bundle : Bool) :
    '\n' ∉ prepareAppLine bundle app := by
  have hword : ∀ {w : Str}, Word w → '\n' ∉ w := fun hw hmem => absurd (hw.2 _ hmem) (by decide)
  cases bundle with
  | true => exact hword (word_prepareAppLine hsocket)
  | false =>
    rw [prepareAppLine, if_neg Bool.false_ne_true]
    simp [hword (word_printU16 _), hword hsocket, hword (word_printU32 _)]

/-- **The answer is read.** Whatever the programs that `prepare_app` runs print before, and in both
forms of the answer. -/
theorem parsePrepareAppStdout_printed {app : FullContext} (hsocket : Word app.socket)
    (hjson : fromStr (prepareAppLine true app) = some (.obj (prepareAppFields app))) (bundle : Bool)
    (printed : List Str) :
    parsePrepareAppStdout fromStr parseAddr (prepareAppStdout bundle printed app) = .ok
      { port := app.port, socket := app.socket, width := app.width, height := app.height,
        transport := .tcp } := by
  have hne : prepareAppLine bundle app ≠ [] := by
    intro hnil
    cases bundle with
    | true => exact (word_prepareAppLine hsocket).1 hnil
    | false =>
      have hsplit := splitWhitespace_prepareAppLine hsocket
      rw [hnil] at hsplit
      cases hsplit
  have hline : Text.lastLine (prepareAppStdout bundle printed app) = some (prepareAppLine bundle app) :=
    Text.lastLine_append hne (newline_not_mem_prepareAppLine hsocket bundle)
      (trim_prepareAppLine hsocket bundle)
  rw [parsePrepareAppStdout, hline]
  cases bundle with
  | true =>
    dsimp only
    rw [if_pos (head?_prepareAppLine app), parsePrepareAppBundle, hjson, Option.bind_some,
      read_prepareAppFields]
    rfl
  | false =>
    have hhead : (prepareAppLine false app).head? ≠ some '{' := by
      intro hhead
      have hsome := hhead
      rw [prepareAppLine, if_neg Bool.false_ne_true] at hsome
      simp only [List.append_assoc] at hsome
      rw [List.head?_append_of_ne_nil _ (word_printU16 _).1] at hsome
      exact absurd (Text.isDigit_of_mem_printU16 (List.mem_of_mem_head? hsome)) (by decide)
    dsimp only
    rw [if_neg hhead, splitWhitespace_prepareAppLine hsocket]
    simp only [Text.parseU16_printU16, Text.parseU32_printU32]

end Client

end VBox.Cli
