import VBox.Lib.Shell
import VBox.Cli.Machines

/-!
# Cli.Ssh

The options of ssh (`crates/vbox-cli/src/ssh.rs`). They are decided once and rendered twice: as the
arguments and the environment of a `Command`, and as a line for a shell.

* `SshOptions.toShellString_words`: the line is words that the shell reads one by one.
* `SshOptions.simpleCommand_toShellString`: it is read as what the `Command` gets.
* `renderings_agree`: so it is for all credentials, and a quoted text is one word.
-/

namespace VBox.Cli.Ssh

open Shell (Spells plain quoted squote backslash)

/-- `flags` are the `-x value` pairs, `env` the environment variables. -/
structure SshOptions where
  flags : List (Str × Str)
  env : List (Str × Str)

/-- `std::process::Command`, with its settings of the environment in the order of the calls. -/
structure Command where
  program : Str
  args : List Str
  envs : List (Str × Str)

namespace Command

def new (program : Str) : Command := { program, args := [], envs := [] }

def arg (cmd : Command) (arg : Str) : Command := { cmd with args := cmd.args ++ [arg] }

def env (cmd : Command) (key value : Str) : Command :=
  { cmd with envs := cmd.envs ++ [(key, value)] }

end Command

def shellQuote (value : Str) : Str :=
  [squote] ++
    value.flatMap (fun c => if c = squote then [squote, backslash, squote, squote] else [c]) ++
    [squote]

namespace SshOptions

def applyToCommand (opts : SshOptions) (cmd : Command) : Command :=
  let cmd := opts.env.foldl (fun cmd (key, value) => cmd.env key value) cmd
  opts.flags.foldl (fun cmd (flag, value) => (cmd.arg flag).arg value) cmd

def toShellString (opts : SshOptions) (program : Str) : Str :=
  let envPrefix :=
    if opts.env.isEmpty then []
    else [' '].intercalate (opts.env.map fun (k, v) => k ++ ['='] ++ shellQuote v) ++ [' ']
  let rest := opts.flags.foldl
    (fun rest (flag, value) => rest ++ [' '] ++ flag ++ [' '] ++ shellQuote value) []
  envPrefix ++ program ++ rest

end SshOptions

/-- `display` is the variable `DISPLAY` of the process, if it is set. -/
def buildOptions (creds : SshCreds) (askpassHelper display : Option Str) : SshOptions :=
  let identity := match creds.identityFile with
    | none => []
    | some path => [("-i".toList, path), ("-o".toList, "IdentitiesOnly=yes".toList)]
  match creds.keychainAccount, askpassHelper with
  | some account, some helper =>
    { env :=
        [("SSH_ASKPASS".toList, helper), ("SSH_ASKPASS_REQUIRE".toList, "force".toList),
          ("VBOX_ASKPASS_ACCOUNT".toList, account)] ++
        (if display.isNone then [("DISPLAY".toList, ":0".toList)] else [])
      flags := identity ++
        [("-o".toList, "PreferredAuthentications=password,keyboard-interactive,publickey".toList),
          ("-o".toList, "NumberOfPasswordPrompts=1".toList),
          ("-o".toList, "PubkeyAuthentication=no".toList)] }
  | _, _ => { flags := identity, env := [] }

theorem shellQuote_eq (value : Str) : shellQuote value = Shell.quote value := rfl

namespace SshOptions

variable {opts : SshOptions} {program : Str}

/-! ## The command -/

theorem applyToCommand_eq (opts : SshOptions) (cmd : Command) :
    opts.applyToCommand cmd =
      { cmd with
        args := cmd.args ++ opts.flags.flatMap fun (flag, value) => [flag, value]
        envs := cmd.envs ++ opts.env } := by
  have henv (env : List (Str × Str)) (cmd : Command) :
      env.foldl (fun cmd (key, value) => cmd.env key value) cmd =
        { cmd with envs := cmd.envs ++ env } := by
    induction env generalizing cmd with
    | nil => simp
    | cons kv env ih => rw [List.foldl_cons, ih]; simp [Command.env]
  have hflags (flags : List (Str × Str)) (cmd : Command) :
      flags.foldl (fun cmd (flag, value) => (cmd.arg flag).arg value) cmd =
        { cmd with args := cmd.args ++ flags.flatMap fun (flag, value) => [flag, value] } := by
    induction flags generalizing cmd with
    | nil => simp
    | cons fv flags ih => rw [List.foldl_cons, ih]; simp [Command.arg]
  rw [applyToCommand, henv, hflags]

/-! ## The line -/

/-- The names are names of variables and the flags are words of their own. -/
structure Plain (opts : SshOptions) : Prop where
  names : ∀ kv ∈ opts.env, Shell.isName kv.1 = true
  flags : ∀ fv ∈ opts.flags, fv.1 ≠ [] ∧ fv.1.all Shell.ordinary = true

/-- The words of the line, each with the letters that it is read as. -/
def words (opts : SshOptions) (program : Str) : List (Str × Shell.Word) :=
  opts.env.map (fun (k, v) => (k ++ ['='] ++ shellQuote v, plain (k ++ ['=']) ++ quoted v)) ++
    (program, plain program) ::
      opts.flags.flatMap fun (f, v) => [(f, plain f), (shellQuote v, quoted v)]

theorem intercalate_blank {x : Str} (xs : List Str) :
    ' ' :: [' '].intercalate (x :: xs) = (x :: xs).flatMap fun x => ' ' :: x := by
  induction xs generalizing x with
  | nil => simp
  | cons y ys ih =>
    rw [List.intercalate_cons_cons, List.flatMap_cons, ← ih]
    simp

theorem toShellString_words (opts : SshOptions) (program : Str) :
    ' ' :: opts.toShellString program = (opts.words program).flatMap fun w => ' ' :: w.1 := by
  have henv : ' ' :: (if opts.env.isEmpty then [] else
      [' '].intercalate (opts.env.map fun (k, v) => k ++ ['='] ++ shellQuote v) ++ [' ']) =
        (opts.env.flatMap fun (k, v) => ' ' :: (k ++ ['='] ++ shellQuote v)) ++ [' '] := by
    cases opts.env with
    | nil => rfl
    | cons kv env =>
      rw [List.isEmpty_cons, if_neg Bool.false_ne_true, List.map_cons, ← List.cons_append,
        intercalate_blank]
      simp [List.flatMap_map]
  have hflags (flags : List (Str × Str)) (rest : Str) :
      flags.foldl (fun rest (flag, value) => rest ++ [' '] ++ flag ++ [' '] ++ shellQuote value)
        rest = rest ++ flags.flatMap fun (f, v) => ' ' :: (f ++ ' ' :: shellQuote v) := by
    induction flags generalizing rest with
    | nil => simp
    | cons fv flags ih => rw [List.foldl_cons, ih]; simp
  rw [toShellString, hflags, ← List.cons_append, ← List.cons_append, henv, words,
    List.flatMap_append, List.flatMap_cons, List.flatMap_map, List.flatMap_assoc]
  simp

theorem spells_words (h : opts.Plain) (hne : program ≠ [])
    (hprogram : program.all Shell.ordinary = true) :
    ∀ w ∈ opts.words program, Spells w.1 w.2 := by
  intro w hw
  rw [words, List.mem_append, List.mem_cons, List.mem_map, List.mem_flatMap] at hw
  obtain ⟨⟨k, v⟩, hkv, rfl⟩ | rfl | ⟨⟨f, v⟩, hfv, hw⟩ := hw
  · have hname := Shell.ordinary_of_isName (h.names _ hkv)
    refine .append (.plain (by simp) ?_) (.quote v)
    rw [List.all_append, hname]
    rfl
  · exact .plain hne hprogram
  · obtain rfl | hw := List.mem_cons.1 hw
    · exact .plain (h.flags _ hfv).1 (h.flags _ hfv).2
    · rw [List.mem_singleton.1 hw]
      exact .quote v

theorem words_text (opts : SshOptions) (program : Str) :
    (opts.words program).map (fun w => Shell.Word.text w.2) =
      opts.env.map (fun (k, v) => k ++ '=' :: v) ++
        program :: opts.flags.flatMap fun (f, v) => [f, v] := by
  simp [words, List.map_flatMap]

section Line

variable (h : opts.Plain) (hne : program ≠ []) (hprogram : program.all Shell.ordinary = true)
include h hne hprogram

theorem tokens_toShellString : Shell.tokens (opts.toShellString program) =
    some (((opts.words program).map Prod.snd).map .word) := by
  have hnothing : Shell.tokens [] = some [] := rfl
  have hwords := Shell.tokens_words hnothing (spells_words h hne hprogram)
  rw [← Shell.tokens_blank, toShellString_words, List.map_map]
  exact hwords

theorem items_toShellString : Shell.items (opts.toShellString program) =
    some ((opts.env.map (fun (k, v) => k ++ '=' :: v) ++
      program :: opts.flags.flatMap fun (f, v) => [f, v]).map .arg) := by
  rw [Shell.items, tokens_toShellString h hne hprogram, Option.map_some, ← words_text,
    List.map_map, List.map_map, List.map_map]
  rfl

/-- The shell reads the line as the settings and the arguments that a command gets. -/
theorem simpleCommand_toShellString (hequal : '=' ∉ program) :
    Shell.simpleCommand (opts.toShellString program) =
      some (opts.env, program :: opts.flags.flatMap fun (f, v) => [f, v]) := by
  have hsplit : Shell.splitAssignments ((opts.words program).map Prod.snd) =
      (opts.env, plain program :: opts.flags.flatMap fun (f, v) => [plain f, quoted v]) := by
    rw [words, List.map_append, List.map_cons, List.map_map, List.map_flatMap]
    refine Shell.splitAssignments_append ?_ (Shell.assignment_none hequal) _
    rw [List.forall₂_map_left_iff, List.forall₂_same]
    intro kv hkv
    exact Shell.assignment_name (h.names kv hkv) kv.2
  rw [Shell.simpleCommand, tokens_toShellString h hne hprogram, Option.bind_some,
    Shell.allWords_map, Option.map_some, hsplit]
  simp [List.map_flatMap]

end Line

end SshOptions

/-! ## All credentials -/

theorem buildOptions_plain (creds : SshCreds) (askpassHelper display : Option Str) :
    (buildOptions creds askpassHelper display).Plain := by
  have hnames : (buildOptions creds askpassHelper display).env.all (fun kv => Shell.isName kv.1) =
      true := by
    obtain ⟨identityFile, _ | account⟩ := creds <;> cases askpassHelper <;> cases display <;> rfl
  have hflags : (buildOptions creds askpassHelper display).flags.all
      (fun fv => !fv.1.isEmpty && fv.1.all Shell.ordinary) = true := by
    obtain ⟨_ | path, _ | account⟩ := creds <;> cases askpassHelper <;> rfl
  constructor
  · exact List.all_eq_true.1 hnames
  · intro fv hfv
    simpa using List.all_eq_true.1 hflags fv hfv

/-- What the shell reads is what the command gets, in the same order; and a quoted text is one word,
equal to the text. -/
theorem renderings_agree :
    (∀ (creds : SshCreds) (askpassHelper display : Option Str),
      Shell.simpleCommand
          ((buildOptions creds askpassHelper display).toShellString "ssh".toList) =
        let cmd := (buildOptions creds askpassHelper display).applyToCommand
          (.new "ssh".toList)
        some (cmd.envs, cmd.program :: cmd.args)) ∧
      ∀ value : Str, Shell.items (shellQuote value) = some [.arg value] := by
  constructor
  · intro creds askpassHelper display
    have hplain := buildOptions_plain creds askpassHelper display
    rw [SshOptions.simpleCommand_toShellString hplain (by decide) (by decide) (by decide),
      SshOptions.applyToCommand_eq]
    simp [Command.new]
  · intro value
    exact Shell.items_quote value

end VBox.Cli.Ssh
