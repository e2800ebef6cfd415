import VBox.Cli.Ssh

/-!
# Cli.Sync

`sync` in `crates/vbox-cli/src/runtime.rs`: a line for the local shell, with a command for the remote
shell in it. The remote command quotes the guest directory, and stands in double quotes itself.

* `items_beforeRemote`: what the local shell has read when the double quotes begin.
* `run_remoteCommand`: what they make of the remote command.
* `sync_reaches_iff`: both shells leave the guest directory as it is if and only if it is inert.
-/

namespace VBox.Cli.Sync

open Shell (Lexer Spells Item plain quoted quote escape squote dquote backslash inert)
open Ssh (SshOptions)

/-- What the line is made of. `display` is the variable `DISPLAY`, if it is set. -/
structure Context where
  root : Str
  guest : Str
  guestDir : Str
  cliPath : Str
  creds : SshCreds
  display : Option Str

/-- `shell_quote` of `runtime.rs`. -/
def shellQuote (value : Str) : Str :=
  [squote] ++
    value.flatMap (fun c => if c = squote then [squote, backslash, squote, squote] else [c]) ++
    [squote]

def askpassHelper (ctx : Context) : Option Str := ctx.creds.keychainAccount.map fun _ => ctx.cliPath

def sshOptions (ctx : Context) : SshOptions :=
  Ssh.buildOptions ctx.creds (askpassHelper ctx) ctx.display

def inlineSsh (ctx : Context) : Str := (sshOptions ctx).toShellString "ssh".toList

/-! ### The pieces of the script, with a value between them -/

def setText : Str := "set -euo pipefail; cd ".toList

def tarText : Str :=
  "; COPYFILE_DISABLE=1 tar --no-xattrs --exclude='./target' --exclude='./.vbox' ".toList ++
    "--exclude='./.icebox' --exclude='./.git' -czf - . | ".toList

def mkdirText : Str := "mkdir -p ".toList

def unpackText : Str := " && tar -xzf - -C ".toList

/-- The script of `sync`. -/
def script (ctx : Context) : Str :=
  let remote := shellQuote ctx.guestDir
  setText ++ shellQuote ctx.root ++ tarText ++ inlineSsh ctx ++ [' '] ++ shellQuote ctx.guest ++
    [' ', dquote] ++ mkdirText ++ remote ++ unpackText ++ remote ++ [dquote]

theorem shellQuote_eq (value : Str) : shellQuote value = quote value := rfl

/-! ## What is meant -/

def args (texts : List String) : List Item := texts.map fun text => .arg text.toList

/-- What the remote shell is to read: a command that makes the one directory, and one that unpacks
into the other. -/
def remoteItems (dir₁ dir₂ : Str) : List Item :=
  args ["mkdir", "-p"] ++ [.arg dir₁] ++ [.op "&&".toList] ++ args ["tar", "-xzf", "-", "-C"] ++
    [.arg dir₂]

/-- What the local shell is to read before the remote command. -/
def localItems (ctx : Context) : List Item :=
  args ["set", "-euo", "pipefail"] ++ [.op [';']] ++ args ["cd"] ++ [.arg ctx.root, .op [';']] ++
    args ["COPYFILE_DISABLE=1", "tar", "--no-xattrs", "--exclude=./target", "--exclude=./.vbox",
      "--exclude=./.icebox", "--exclude=./.git", "-czf", "-", "."] ++ [.op ['|']] ++
    ((sshOptions ctx).env.map (fun (k, v) => k ++ '=' :: v) ++ "ssh".toList ::
      (sshOptions ctx).flags.flatMap fun (f, v) => [f, v]).map .arg ++ [.arg ctx.guest]

/-- The remote shell runs `mkdir -p` and `tar -C` with the guest directory as the one argument. -/
def ReachesGuestDir (ctx : Context) : Prop :=
  ∃ remote, Shell.items (script ctx) = some (localItems ctx ++ [.arg remote]) ∧
    Shell.items remote = some (remoteItems ctx.guestDir ctx.guestDir)

/-! ## The local shell -/

/-- The remote command, with a directory for each of its two. -/
def remoteCommand (dir₁ dir₂ : Str) : Str := mkdirText ++ quote dir₁ ++ unpackText ++ quote dir₂

theorem items_remoteCommand (dir₁ dir₂ : Str) :
    Shell.items (remoteCommand dir₁ dir₂) = some (remoteItems dir₁ dir₂) := by
  obtain ⟨mkdir, hmkdir, hm⟩ : ∃ text, mkdirText = text ++ [' '] ∧
      Shell.items text = some (args ["mkdir", "-p"]) :=
    ⟨"mkdir -p".toList, by decide +kernel, by decide +kernel⟩
  obtain ⟨unpack, hunpack, hu⟩ : ∃ text, unpackText = ' ' :: (text ++ [' ']) ∧
      Shell.items text = some ([.op "&&".toList] ++ args ["tar", "-xzf", "-", "-C"]) :=
    ⟨"&& tar -xzf - -C".toList, by decide +kernel, by decide +kernel⟩
  have hcommand : remoteCommand dir₁ dir₂ =
      mkdir ++ ' ' :: quote dir₁ ++ ' ' :: unpack ++ ' ' :: quote dir₂ := by
    simp [remoteCommand, hmkdir, hunpack]
  rw [hcommand, Shell.items_append (Shell.items_append (Shell.items_append hm
    (Shell.items_quote dir₁)) hu) (Shell.items_quote dir₂), remoteItems]
  simp only [List.append_assoc]

/-- The line up to the double quotes, and the rest of it. -/
theorem items_beforeRemote (ctx : Context) :
    ∃ text, script ctx =
        text ++ ' ' :: dquote :: (remoteCommand ctx.guestDir ctx.guestDir ++ [dquote]) ∧
      Shell.items text = some (localItems ctx) := by
  obtain ⟨set, hset, hs⟩ : ∃ text, setText = text ++ [' '] ∧
      Shell.items text = some (args ["set", "-euo", "pipefail"] ++ [.op [';']] ++ args ["cd"]) :=
    ⟨"set -euo pipefail; cd".toList, by decide +kernel, by decide +kernel⟩
  obtain ⟨tar, htar, ht⟩ : ∃ text, tarText = ';' :: ' ' :: (text ++ [' ']) ∧
      Shell.items text =
        some (args ["COPYFILE_DISABLE=1", "tar", "--no-xattrs", "--exclude=./target",
          "--exclude=./.vbox", "--exclude=./.icebox", "--exclude=./.git", "-czf", "-", "."] ++
          [.op ['|']]) :=
    ⟨"COPYFILE_DISABLE=1 tar --no-xattrs --exclude='./target' --exclude='./.vbox' ".toList ++
      "--exclude='./.icebox' --exclude='./.git' -czf - . |".toList, by decide +kernel,
      by decide +kernel⟩
  have hroot : Shell.items (quote ctx.root ++ [';']) = some [.arg ctx.root, .op [';']] := by
    rw [Shell.items, Shell.tokens_semicolon (.quote ctx.root)]
    simp [Shell.Token.item]
  have hssh : Shell.items (inlineSsh ctx) = _ :=
    SshOptions.items_toShellString (Ssh.buildOptions_plain _ _ _) (by decide) (by decide)
  refine ⟨set ++ ' ' :: (quote ctx.root ++ [';']) ++ ' ' :: tar ++ ' ' :: inlineSsh ctx ++
    ' ' :: quote ctx.guest, ?_, ?_⟩
  · simp [script, remoteCommand, shellQuote_eq, hset, htar]
  · rw [Shell.items_append (Shell.items_append (Shell.items_append (Shell.items_append hs hroot)
      ht) hssh) (Shell.items_quote ctx.guest), localItems]
    simp only [List.append_assoc, sshOptions]

/-! ## The double quotes -/

section Double

variable {s : Lexer} (dir : Str) (hm : s.mode = .double) (hp : s.pending = .none)
include hm hp

/-- The remote command keeps its form, with two texts for the directory, or a double quote in the
directory ended the quotes and is lost. -/
theorem run_remoteCommand :
    (∃ e₁ e₂, (e₁ = dir ∧ e₂ = dir ∧ inert dir = true ∨
        e₁.length < dir.length ∧ inert dir = false) ∧
        s.run (remoteCommand dir dir) = some (s.append (quoted (remoteCommand e₁ e₂)))) ∨
      inert dir = false ∧ ∀ t, s.run (remoteCommand dir dir) = some t →
        t.text.count dquote < s.text.count dquote + 2 * dir.count dquote := by
  have hform : remoteCommand dir dir =
      mkdirText ++ quote dir ++ (unpackText ++ quote dir ++ []) := by
    simp [remoteCommand]
  have hmkdir : mkdirText.all Shell.literal = true := by decide +kernel
  have hunpack : unpackText.all Shell.literal = true := by decide +kernel
  rw [hform]
  obtain ⟨e₁, he₁, hle₁, hrun₁⟩ | ⟨hi, hlost⟩ := Lexer.run_literal_quote hm hp hmkdir
  · rw [hrun₁]
    obtain ⟨e₂, he₂, -, hrun₂⟩ | ⟨hi, hlost⟩ := Lexer.run_literal_quote (d := dir) (r := [])
      (s := s.append (quoted (mkdirText ++ quote e₁))) hm hp hunpack
    · refine .inl ⟨e₁, e₂, ?_, ?_⟩
      · obtain ⟨h₁, hi⟩ | h₁ := he₁
        · obtain ⟨h₂, -⟩ | ⟨-, hi'⟩ := he₂
          · exact .inl ⟨h₁, h₂, hi⟩
          · rw [hi] at hi'; cases hi'
        · exact .inr h₁
      · rw [hrun₂, Lexer.run_nil, Lexer.append_append, ← Shell.quoted_append, remoteCommand]
        simp only [List.append_assoc]
    · refine .inr ⟨hi, fun t ht => ?_⟩
      have hless := hlost t ht
      have hcount : (mkdirText ++ quote e₁).count dquote = e₁.count dquote := by
        rw [List.count_append, Shell.count_quote (by decide) (by decide)]
        exact Nat.zero_add _
      rw [Lexer.count_append, Shell.Word.text_quoted, hcount, List.count_nil] at hless
      omega
  · refine .inr ⟨hi, fun t ht => ?_⟩
    have hless := hlost t ht
    have hcount : (unpackText ++ quote dir ++ []).count dquote = dir.count dquote := by
      rw [List.append_nil, List.count_append, Shell.count_quote (by decide) (by decide)]
      exact Nat.zero_add _
    omega

end Double

/-- The local shell reads the remote command in double quotes, after the items before it. -/
theorem items_script (ctx : Context) : ∃ ts, ts.map Shell.Token.item = localItems ctx ∧
    Shell.items (script ctx) = ((((Lexer.start.prepend ts).enter .double).run
      (remoteCommand ctx.guestDir ctx.guestDir ++ [dquote, ' '])).bind Lexer.finish).map
        (List.map Shell.Token.item) := by
  obtain ⟨text, htext, hitems⟩ := items_beforeRemote ctx
  obtain ⟨ts, hts, hmap⟩ := Option.map_eq_some_iff.1 hitems
  refine ⟨ts, hmap, ?_⟩
  have hform : script ctx ++ [' '] = (text ++ [' ']) ++
      dquote :: (remoteCommand ctx.guestDir ctx.guestDir ++ [dquote, ' ']) := by
    rw [htext]
    simp
  rw [Shell.items, Shell.tokens, hform, Lexer.run_append_of_run (Shell.run_of_tokens hts),
    Lexer.run_open_dquote rfl rfl]

/-- What the local shell makes of the line: the items before the remote command, and the remote
command with two texts for the directory; or it has lost a double quote. -/
theorem script_read {ctx : Context} {is : List Item} (h : Shell.items (script ctx) = some is) :
    (∃ e₁ e₂, (e₁ = ctx.guestDir ∧ e₂ = ctx.guestDir ∧ inert ctx.guestDir = true ∨
        e₁.length < ctx.guestDir.length ∧ inert ctx.guestDir = false) ∧
        is = localItems ctx ++ [.arg (remoteCommand e₁ e₂)]) ∨
      inert ctx.guestDir = false ∧ (is.flatMap Item.text).count dquote <
        ((localItems ctx).flatMap Item.text).count dquote + 2 * ctx.guestDir.count dquote := by
  obtain ⟨ts, hts, hscript⟩ := items_script ctx
  rw [hscript, Lexer.run_append] at h
  obtain ⟨us, hus, rfl⟩ := Option.map_eq_some_iff.1 h
  obtain ⟨u, hu, hfinish⟩ := Option.bind_eq_some_iff.1 hus
  obtain ⟨t, ht, htu⟩ := Option.bind_eq_some_iff.1 hu
  have hp : t.pending = .none := by
    rw [show remoteCommand ctx.guestDir ctx.guestDir = (mkdirText ++ quote ctx.guestDir ++
      unpackText ++ squote :: escape ctx.guestDir) ++ [squote] by simp [remoteCommand, quote]] at ht
    exact Lexer.run_squote_pending ht
  obtain ⟨-, rfl⟩ := (Lexer.last_dquote hp).1 ((congrArg (·.bind Lexer.finish) htu).trans hfinish)
  obtain ⟨e₁, e₂, he, hrun⟩ | ⟨hi, hlost⟩ := run_remoteCommand
    (s := (Lexer.start.prepend ts).enter .double) ctx.guestDir rfl rfl
  · refine .inl ⟨e₁, e₂, he, ?_⟩
    cases ht.symm.trans hrun
    rw [← hts]
    simp [Lexer.endWord, Lexer.enter, Lexer.append, Lexer.letters, Lexer.prepend, Lexer.start,
      Shell.Token.item]
  · refine .inr ⟨hi, ?_⟩
    have hless := hlost t ht
    rw [Lexer.text_enter, Lexer.text_prepend] at hless
    rw [← hts, List.flatMap_map, List.flatMap_map]
    have hcount := Lexer.count_tokens (s := t.enter .plain) (a := dquote) hp
    rw [Lexer.text_enter] at hcount
    exact hcount.trans_lt hless

theorem script_inert {ctx : Context} (h : inert ctx.guestDir = true) :
    Shell.items (script ctx) =
      some (localItems ctx ++ [.arg (remoteCommand ctx.guestDir ctx.guestDir)]) := by
  obtain ⟨ts, hts, hscript⟩ := items_script ctx
  obtain ⟨e₁, e₂, ⟨rfl, rfl, -⟩ | ⟨-, hi⟩, hrun⟩ | ⟨hi, -⟩ := run_remoteCommand
    (s := (Lexer.start.prepend ts).enter .double) ctx.guestDir rfl rfl
  · rw [hscript, Lexer.run_append_of_run hrun, (Lexer.last_dquote rfl).2 ⟨rfl, rfl⟩, ← hts]
    simp [Lexer.endWord, Lexer.enter, Lexer.append, Lexer.letters, Lexer.prepend, Lexer.start,
      Shell.Token.item]
  · rw [h] at hi; cases hi
  · rw [h] at hi; cases hi

theorem count_remoteItems (dir : Str) :
    ((remoteItems dir dir).flatMap Item.text).count dquote = 2 * dir.count dquote := by
  have hmkdir : ((args ["mkdir", "-p"]).flatMap Item.text).count dquote = 0 := by decide +kernel
  have hand : ([Item.op "&&".toList].flatMap Item.text).count dquote = 0 := by decide +kernel
  have htar : ((args ["tar", "-xzf", "-", "-C"]).flatMap Item.text).count dquote = 0 := by
    decide +kernel
  have hdir : [Item.arg dir].flatMap Item.text = dir := by simp [Item.text]
  rw [remoteItems]
  simp only [List.flatMap_append, List.count_append, hmkdir, hand, htar, hdir]
  omega

/-- Both shells leave the guest directory as it is if and only if it has no double quote, no
backtick, no dollar sign that begins an expansion, and no backslash before a character that it would
quote in double quotes. -/
theorem sync_reaches_iff (ctx : Context) : ReachesGuestDir ctx ↔ inert ctx.guestDir = true := by
  constructor
  · rintro ⟨remote, hlocal, hremote⟩
    obtain ⟨e₁, e₂, he, his⟩ | ⟨hi, hless⟩ := script_read hlocal
    · cases List.append_cancel_left his
      rw [items_remoteCommand] at hremote
      obtain ⟨-, -, hi⟩ | ⟨hlen, -⟩ := he
      · exact hi
      · have hdir : some (Item.arg e₁) = some (.arg ctx.guestDir) :=
          congrArg (fun is : List Item => is[2]?) (Option.some.inj hremote)
        cases hdir
        exact absurd hlen (Nat.lt_irrefl _)
    · have hcount := Shell.count_items (a := dquote) (by decide) hremote
      rw [count_remoteItems] at hcount
      rw [List.flatMap_append, List.count_append, List.flatMap_singleton, Item.text] at hless
      omega
  · intro h
    exact ⟨_, script_inert h, items_remoteCommand _ _⟩

/-- A guest directory with two backslashes in its name. -/
def twoBackslashes : Context :=
  { root := "/src".toList
    guest := "vm".toList
    guestDir := "/srv/a".toList ++ [backslash, backslash] ++ "b".toList
    cliPath := "/vbox".toList
    creds := { identityFile := none, keychainAccount := none }
    display := none }

/-- The remote shell gets one of them: another directory is made and filled. -/
theorem backslash_lost : ¬ ∀ ctx : Context, ReachesGuestDir ctx := by
  intro h
  obtain ⟨remote, hlocal, hremote⟩ := h twoBackslashes
  have hone : Shell.items (script twoBackslashes) = some (localItems twoBackslashes ++
      [.arg (remoteCommand ("/srv/a".toList ++ [backslash] ++ "b".toList)
        ("/srv/a".toList ++ [backslash] ++ "b".toList))]) := by
    decide +kernel
  rw [hone] at hlocal
  cases List.append_cancel_left (Option.some.inj hlocal)
  exact absurd hremote (by decide +kernel)

end VBox.Cli.Sync
