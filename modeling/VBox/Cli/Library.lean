import VBox.Cli.InstancePorts
import Mathlib.Data.List.Infix
import Mathlib.Logic.Equiv.List

/-!
# Cli.Library

The library of the guest's apps (`crates/vbox-cli/src/runtime.rs`). A script in the guest
(`APP_LIBRARY_PY`) prints a table of apps, one line each, and the host keeps the text as a cache and
reads it for every command. A command finds its app by id or name, and the launcher of an app is a
bundle with the app's name.

* `readAppCache_printTable_iff`: the table is read back as it was written if and only if no argument
  of an app has a tab or a line feed.
* `acts_on_row_iff`: a command for a row's id acts on that row and on nothing else if and only if no
  row before it matches the id and no other row has the same launcher.
-/

namespace VBox.Cli

/-! ## The script in the guest -/

/-- `str.isspace` of one character. -/
def pyIsSpace (c : Char) : Bool :=
  Text.isWhitespace c || (0x1c ≤ c.toNat && c.toNat ≤ 0x1f)

/-- `" ".join(str(value).replace("\\t", " ").split())` -/
def clean (value : Str) : Str :=
  List.intercalate [' '] (((value.map fun c => if c = '\t' then ' ' else c).splitOnP pyIsSpace).filter
    (· ≠ []))

/-- The characters that need no quotes in a shell. -/
def shlexSafe (c : Char) : Bool :=
  c.isAlphanum || ['_', '@', '%', '+', '=', ':', ',', '.', '/', '-'].contains c

/-- `shlex.quote` -/
def shlexQuote (arg : Str) : Str :=
  if arg = [] then ['\'', '\'']
  else if arg.all shlexSafe then arg
  else '\'' :: arg.flatMap (fun c => if c = '\'' then ['\'', '"', '\'', '"', '\''] else [c]) ++ ['\'']

/-- The alphabet of Base64. -/
def isBase64 (c : Char) : Bool := c.isAlphanum || c == '+' || c == '/' || c == '='

/-- Base64 of JSON, as both sides have it from their libraries. -/
structure ArgvCodec where
  encode : List Str → Str
  decode : Str → Option (List Str)
  decode_encode : ∀ argv, decode (encode argv) = some argv
  encode_alphabet : ∀ argv, ∀ c ∈ encode argv, isBase64 c = true

/-- What `load_desktop` takes from a desktop file; the arguments are those that `shlex.split` has
found in `Exec` and that were kept. -/
structure Desktop where
  appId : Str
  name : Str
  argv : List Str
  icon : Str
  path : Str
  categories : Str

structure App where
  id : Str
  name : Str
  exec : Str
  icon : Str
  desktop : Str
  categories : Str
  argvB64 : Str

variable (codec : ArgvCodec)

def loadDesktop (d : Desktop) : App where
  id := clean d.appId
  name := clean d.name
  exec := List.intercalate [' '] (d.argv.map shlexQuote)
  icon := clean d.icon
  desktop := clean d.path
  categories := clean d.categories
  argvB64 := codec.encode d.argv

def App.columns (app : App) : List Str :=
  [app.id, app.name, app.exec, app.icon, app.desktop, app.categories, app.argvB64]

def printRow (app : App) : Str := List.intercalate ['\t'] app.columns

def printTable (apps : List App) : Str := apps.flatMap fun app => printRow app ++ ['\n']

/-! ## The reader on the host -/

structure AppRecord where
  id : Str
  name : Str
  exec : Str
  icon : Str
  argvB64 : Str
  argv : List Str
  deriving DecidableEq

/-- A row of fewer than seven columns is dropped. -/
def readRow (line : Str) : Option AppRecord :=
  match line.splitOn '\t' with
  | id :: name :: exec :: icon :: _ :: _ :: argvB64 :: _ =>
    some ⟨id, name, exec, icon, argvB64, (codec.decode argvB64).getD [exec]⟩
  | _ => none

def readAppCache (text : Str) : List AppRecord := (Text.lines text).filterMap (readRow codec)

/-- The record of an app as it should be read. -/
def AppRecord.ofDesktop (d : Desktop) : AppRecord :=
  { id := (loadDesktop codec d).id, name := (loadDesktop codec d).name,
    exec := (loadDesktop codec d).exec, icon := (loadDesktop codec d).icon,
    argvB64 := (loadDesktop codec d).argvB64, argv := d.argv }

/-! ## What the columns hold -/

section Columns

variable {value arg : Str} {c : Char}

/-- The characters that separate columns and rows. -/
def isBreak (c : Char) : Bool := c = '\t' || c = '\n'

theorem pyIsSpace_of_isBreak (h : isBreak c = true) : pyIsSpace c = true := by
  rcases Bool.or_eq_true_iff.1 h with h | h
  · rw [of_decide_eq_true h]
    rfl
  · rw [of_decide_eq_true h]
    rfl

theorem isBreak_iff : isBreak c = true ↔ c = '\t' ∨ c = '\n' := by
  simp [isBreak]

theorem not_mem_clean (h : isBreak c = true) : c ∉ clean value := by
  have hsep : c ∉ [' '] := by
    rintro hmem
    rw [List.mem_singleton.1 hmem] at h
    cases h
  rw [clean, Text.mem_intercalate_iff hsep]
  rintro ⟨w, hw, hc⟩
  have hspace := Text.not_of_mem_splitOnP (List.mem_filter.1 hw).1 hc
  rw [pyIsSpace_of_isBreak h] at hspace
  cases hspace

/-- Quoting neither adds nor takes a break. -/
theorem mem_shlexQuote_iff (h : isBreak c = true) : c ∈ shlexQuote arg ↔ c ∈ arg := by
  have hquote : ∀ l : Str, (∀ q ∈ l, q = '\'' ∨ q = '"') → c ∉ l := by
    intro l hl hmem
    rcases hl c hmem with rfl | rfl
    · cases h
    · cases h
  rw [shlexQuote]
  split
  · rename_i hnil
    rw [hnil]
    exact iff_of_false (hquote _ (by simp)) List.not_mem_nil
  · split
    · exact Iff.rfl
    · have hne : c ≠ '\'' := by
        rintro rfl
        cases h
      rw [List.mem_append, List.mem_cons, or_iff_left (hquote _ (by simp)), or_iff_right hne,
        List.mem_flatMap]
      constructor
      · rintro ⟨x, hx, hmem⟩
        split at hmem
        · exact absurd hmem (hquote _ (by simp))
        · rw [List.mem_singleton.1 hmem]
          exact hx
      · intro hmem
        refine ⟨c, hmem, ?_⟩
        rw [if_neg hne]
        exact List.mem_cons_self

theorem mem_exec_iff {codec : ArgvCodec} {d : Desktop} (h : isBreak c = true) :
    c ∈ (loadDesktop codec d).exec ↔ ∃ arg ∈ d.argv, c ∈ arg := by
  have hsep : c ∉ [' '] := by
    rintro hmem
    rw [List.mem_singleton.1 hmem] at h
    cases h
  rw [loadDesktop, Text.mem_intercalate_iff hsep]
  constructor
  · rintro ⟨w, hw, hc⟩
    obtain ⟨arg, harg, rfl⟩ := List.mem_map.1 hw
    exact ⟨arg, harg, (mem_shlexQuote_iff h).1 hc⟩
  · rintro ⟨arg, harg, hc⟩
    exact ⟨shlexQuote arg, List.mem_map_of_mem harg, (mem_shlexQuote_iff h).2 hc⟩

theorem not_mem_argvB64 {codec : ArgvCodec} {d : Desktop} (h : isBreak c = true) :
    c ∉ (loadDesktop codec d).argvB64 := by
  intro hmem
  rcases isBreak_iff.1 h with rfl | rfl
  · exact absurd (codec.encode_alphabet _ _ hmem) (by decide)
  · exact absurd (codec.encode_alphabet _ _ hmem) (by decide)

/-- Only the column of the command can have a break. -/
theorem not_mem_columns {codec : ArgvCodec} {d : Desktop} (h : isBreak c = true)
    (hexec : c ∉ (loadDesktop codec d).exec) : ∀ column ∈ (loadDesktop codec d).columns, c ∉ column := by
  simp only [App.columns, List.forall_mem_cons]
  exact ⟨not_mem_clean h, not_mem_clean h, hexec, not_mem_clean h, not_mem_clean h,
    not_mem_clean h, not_mem_argvB64 h, by simp⟩

end Columns

/-! ## Reading what was printed -/

section Table

variable {codec : ArgvCodec}

/-- No argument has a tab or a line feed. -/
def Desktop.Unbroken (d : Desktop) : Prop := ∀ arg ∈ d.argv, '\t' ∉ arg ∧ '\n' ∉ arg

theorem unbroken_iff {d : Desktop} :
    d.Unbroken ↔ '\t' ∉ (loadDesktop codec d).exec ∧ '\n' ∉ (loadDesktop codec d).exec := by
  rw [mem_exec_iff rfl, mem_exec_iff rfl, Desktop.Unbroken]
  constructor
  · intro h
    refine ⟨?_, ?_⟩
    · rintro ⟨arg, harg, hmem⟩
      exact (h arg harg).1 hmem
    · rintro ⟨arg, harg, hmem⟩
      exact (h arg harg).2 hmem
  · rintro ⟨htab, hnewline⟩ arg harg
    exact ⟨fun hmem => htab ⟨arg, harg, hmem⟩, fun hmem => hnewline ⟨arg, harg, hmem⟩⟩

theorem readRow_printRow {d : Desktop} (hd : d.Unbroken) :
    readRow codec (printRow (loadDesktop codec d)) = some (AppRecord.ofDesktop codec d) := by
  have hsplit : (printRow (loadDesktop codec d)).splitOn '\t' = (loadDesktop codec d).columns :=
    List.splitOn_intercalate '\t' (not_mem_columns rfl (unbroken_iff.1 hd).1) (List.cons_ne_nil _ _)
  rw [readRow, hsplit]
  simp only [App.columns, AppRecord.ofDesktop, loadDesktop, codec.decode_encode, Option.getD_some]

theorem printRow_terminated {d : Desktop} (hd : d.Unbroken) :
    '\n' ∉ printRow (loadDesktop codec d) ∧
      (printRow (loadDesktop codec d)).getLast? ≠ some '\r' := by
  constructor
  · rw [printRow, Text.mem_intercalate_iff (by decide)]
    rintro ⟨column, hcolumn, hmem⟩
    exact not_mem_columns rfl (unbroken_iff.1 hd).2 column hcolumn hmem
  · have hrow : printRow (loadDesktop codec d) = List.intercalate ['\t']
        ((loadDesktop codec d).columns.take 6) ++ '\t' :: (loadDesktop codec d).argvB64 := by
      simp [printRow, App.columns, List.intercalate_cons_cons]
    rw [hrow, List.getLast?_append_of_ne_nil _ (List.cons_ne_nil _ _), List.getLast?_cons]
    cases hlast : (loadDesktop codec d).argvB64.getLast? with
    | none => decide
    | some c =>
      rw [Option.getD_some, ne_eq, Option.some.injEq]
      rintro rfl
      exact absurd (codec.encode_alphabet _ _ (List.mem_of_getLast? hlast)) (by decide)

theorem readAppCache_printTable {ds : List Desktop} (hds : ∀ d ∈ ds, d.Unbroken) :
    readAppCache codec (printTable (ds.map (loadDesktop codec))) =
      ds.map (AppRecord.ofDesktop codec) := by
  have hlines : Text.lines (printTable (ds.map (loadDesktop codec))) =
      (ds.map (loadDesktop codec)).map printRow := by
    apply Text.lines_terminated
    rw [List.forall_mem_map]
    exact fun d hd => printRow_terminated (hds d hd)
  have hrows : ∀ d ∈ ds, (readRow codec ∘ printRow ∘ loadDesktop codec) d =
      (some ∘ AppRecord.ofDesktop codec) d := fun d hd => readRow_printRow (hds d hd)
  rw [readAppCache, hlines, List.map_map, List.filterMap_map]
  exact (List.filterMap_congr hrows).trans (congrFun List.filterMap_eq_map ds)

/-- What is read of a command has no break, whatever the text. -/
theorem unbroken_of_mem_readAppCache {text : Str} {r : AppRecord} (h : r ∈ readAppCache codec text) :
    '\t' ∉ r.exec ∧ '\n' ∉ r.exec := by
  obtain ⟨line, hline, hrow⟩ := List.mem_filterMap.1 h
  have hexec : r.exec ∈ line.splitOn '\t' := by
    unfold readRow at hrow
    generalize line.splitOn '\t' = columns at hrow ⊢
    split at hrow
    · obtain rfl := Option.some.inj hrow
      simp
    · cases hrow
  constructor
  · intro hmem
    exact absurd (Text.not_of_mem_splitOnP hexec hmem) (by decide)
  · intro hmem
    refine Text.newline_not_mem_of_mem_lines hline ?_
    have hline : List.intercalate ['\t'] (line.splitOn '\t') = line := List.intercalate_splitOn '\t'
    rw [← hline, Text.mem_intercalate_iff (by decide)]
    exact ⟨r.exec, hexec, hmem⟩

theorem readAppCache_printTable_iff (ds : List Desktop) :
    -- One record for each app, in order, with its id, name, icon and arguments,
    ((readAppCache codec (printTable (ds.map (loadDesktop codec)))).map
          (fun r => (r.id, r.name, r.icon, r.argv)) =
        ds.map (fun d => (clean d.appId, clean d.name, clean d.icon, d.argv)) ∧
      -- and with its command line.
      (readAppCache codec (printTable (ds.map (loadDesktop codec)))).map AppRecord.exec =
        ds.map (fun d => List.intercalate [' '] (d.argv.map shlexQuote))) ↔
      ∀ d ∈ ds, ∀ arg ∈ d.argv, '\t' ∉ arg ∧ '\n' ∉ arg := by
  constructor
  · rintro ⟨-, hexec⟩ d hd
    have hmem : (loadDesktop codec d).exec ∈
        (readAppCache codec (printTable (ds.map (loadDesktop codec)))).map AppRecord.exec := by
      rw [hexec]
      exact List.mem_map_of_mem hd
    obtain ⟨r, hr, heq⟩ := List.mem_map.1 hmem
    have hnone := unbroken_of_mem_readAppCache hr
    rw [heq] at hnone
    exact unbroken_iff.2 hnone
  · intro hds
    rw [readAppCache_printTable hds, List.map_map, List.map_map]
    exact ⟨rfl, rfl⟩

end Table

/-- A codec that has `text` for `argv`, and a number in unary for everything else. -/
def tableCodec (argv : List Str) (text : Str)
    (halphabet : text.all isBase64 = true) (htext : text.all (· == 'A') = false) : ArgvCodec where
  encode l := if l = argv then text
    else List.replicate (Encodable.encode (l.map fun arg => arg.map Char.toNat)) 'A'
  decode s := if s = text then some argv
    else if s.all (· == 'A') then
      (Encodable.decode (α := List (List Nat)) s.length).map fun l => l.map fun arg =>
        arg.map Char.ofNat
    else none
  decode_encode l := by
    by_cases hl : l = argv
    · rw [if_pos hl, if_pos rfl, hl]
    · have hunary : (List.replicate (Encodable.encode (l.map fun arg => arg.map Char.toNat))
          'A').all (· == 'A') = true := by simp
      rw [if_neg hl, if_neg, if_pos hunary, List.length_replicate, Encodable.encodek]
      · simp [Function.comp_def]
      · intro heq
        rw [heq, htext] at hunary
        cases hunary
  encode_alphabet l c hc := by
    split at hc
    · exact List.all_eq_true.1 halphabet c hc
    · rw [List.eq_of_mem_replicate hc]
      rfl

/-- `Exec=sh -c "a<TAB>b"` -/
def tabApp : Desktop :=
  { appId := ['x'], name := ['X'], argv := [['s', 'h'], ['-', 'c'], ['a', '\t', 'b']], icon := ['i'],
    path := "/x.desktop".toList, categories := "Utility;".toList }

def tabCodec : ArgvCodec :=
  tableCodec tabApp.argv "WyJzaCIsICItYyIsICJhXHRiIl0=".toList (by decide) (by decide)

/-- The icon and the command of the app are read from the wrong columns. -/
theorem tab_breaks_row : ¬∀ (codec : ArgvCodec) (ds : List Desktop),
    (readAppCache codec (printTable (ds.map (loadDesktop codec)))).map
        (fun r => (r.id, r.name, r.icon, r.argv)) =
      ds.map (fun d => (clean d.appId, clean d.name, clean d.icon, d.argv)) := by
  intro hall
  have hread : (readAppCache tabCodec (printTable ([tabApp].map (loadDesktop tabCodec)))).map
      (fun r => (r.id, r.name, r.icon, r.argv)) =
        [(['x'], ['X'], ['b', '\''], ["sh -c 'a".toList])] := by
    decide
  have h := (hall tabCodec [tabApp]).symm.trans hread
  exact absurd h (by decide)

/-- An app whose argument has the beginning of its own row in it. -/
def ownRowApp : Desktop :=
  { appId := ['I'], name := ['N'], argv := [['x'], ['\n', 'I', '\t', 'N', '\t']], icon := ['i'],
    path := "/x.desktop".toList, categories := [] }

/-- Its row is broken, but what is left of it is read as the row that was meant. Without the command
lines the condition is not necessary. -/
theorem broken_row_can_be_read : ∃ (codec : ArgvCodec) (d : Desktop), ¬d.Unbroken ∧
    (readAppCache codec (printTable ([d].map (loadDesktop codec)))).map
        (fun r => (r.id, r.name, r.icon, r.argv)) =
      [(clean d.appId, clean d.name, clean d.icon, d.argv)] := by
  refine ⟨tableCodec ownRowApp.argv "WyJ4IiwgIlxuSVx0Tlx0Il0=".toList (by decide) (by decide),
    ownRowApp, ?_, by decide⟩
  intro h
  exact (h ['\n', 'I', '\t', 'N', '\t'] (by decide)).1 (by decide)

/-! ## Finding an app -/

/-- `str::to_ascii_lowercase` -/
def toAsciiLowercase (s : Str) : Str := s.map Char.toLower

def selected (id name : Str) (filters : List Str) : Bool :=
  filters.isEmpty || filters.any fun f =>
    decide (toAsciiLowercase f <:+: toAsciiLowercase id) ||
      decide (toAsciiLowercase f <:+: toAsciiLowercase name)

def findAppRecord (rows : List AppRecord) (query : Str) : Option AppRecord :=
  rows.find? fun row => selected row.id row.name [query]

section Find

variable {rows before after : List AppRecord} {r : AppRecord}

theorem selected_self (r : AppRecord) : selected r.id r.name [r.id] = true := by
  simp [selected]

/-- A row is found by its id unless a row before it matches too. -/
theorem findAppRecord_eq_some_iff (hids : ((before ++ r :: after).map AppRecord.id).Nodup) :
    findAppRecord (before ++ r :: after) r.id = some r ↔
      ∀ q ∈ before, selected q.id q.name [r.id] = false := by
  have hself : ((r :: after).find? fun row => selected row.id row.name [r.id]) = some r :=
    List.find?_cons_of_pos (selected_self r)
  rw [findAppRecord, List.find?_append, hself]
  constructor
  · intro hfind q hq
    cases hbefore : before.find? fun row => selected row.id row.name [r.id] with
    | none => simpa using List.find?_eq_none.1 hbefore q hq
    | some q' =>
      rw [hbefore] at hfind
      obtain rfl : q' = r := by simpa using hfind
      have hmem := List.mem_of_find?_eq_some hbefore
      rw [List.map_append, List.nodup_append] at hids
      exact absurd rfl (hids.2.2 _ (List.mem_map_of_mem hmem) _ List.mem_cons_self)
  · intro hnone
    have hbefore : (before.find? fun row => selected row.id row.name [r.id]) = none := by
      rw [List.find?_eq_none]
      intro q hq
      simp [hnone q hq]
    rw [hbefore]
    rfl

end Find

/-! ## Launchers -/

def safeAppFilename (value : Str) : Str :=
  Text.trim (value.map fun c => if c = '/' ∨ c = ':' then '-' else c)

/-- `suffix` is the value of `VBOX_LAUNCHER_SUFFIX`. -/
def launcherDisplayName (suffix : Option Str) (name : Str) : Str :=
  match suffix with
  | none | some [] => name
  | some suffix => name ++ [' ', '('] ++ suffix ++ [')']

/-- The file name of the bundle in the directory of the launchers. -/
def launcherApp (suffix : Option Str) (row : AppRecord) : Str :=
  safeAppFilename (launcherDisplayName suffix row.name) ++ ['.', 'a', 'p', 'p']

/-- The host. -/
structure LauncherIo (β : Type) where
  macos : Bool
  /-- What a build leaves of a bundle, complete or not, and whether it succeeds. -/
  build : AppRecord → Option β → β × Bool
  /-- What a removal leaves. -/
  remove : β → Option β

section Launchers

variable {κ β : Type} [DecidableEq κ] (fold : Str → κ) (suffix : Option Str) (io : LauncherIo β)

/-- The directory of the launchers. Two file names that `fold` makes equal are one file: the file
systems of the host ignore the case of letters. -/
abbrev Launchers (κ β : Type) := κ → Option β

def buildLauncherApp (row : AppRecord) (l : Launchers κ β) : Bool × Launchers κ β :=
  if io.macos then
    let app := fold (launcherApp suffix row)
    ((io.build row (l app)).2, Function.update l app (some (io.build row (l app)).1))
  else (false, l)

def removeLauncherApp (row : AppRecord) (l : Launchers κ β) : Bool × Launchers κ β :=
  let app := fold (launcherApp suffix row)
  match l app with
  | none => (true, l)
  | some bundle => ((io.remove bundle).isNone, Function.update l app (io.remove bundle))

def installLauncher (rows : List AppRecord) (id : Str) (l : Launchers κ β) : Bool × Launchers κ β :=
  match findAppRecord rows id with
  | none => (false, l)
  | some row => buildLauncherApp fold suffix io row l

def removeLauncher (rows : List AppRecord) (id : Str) (l : Launchers κ β) : Bool × Launchers κ β :=
  match findAppRecord rows id with
  | none => (false, l)
  | some row => removeLauncherApp fold suffix io row l

variable {fold suffix io} {row : AppRecord} {l : Launchers κ β} {app : κ}

theorem buildLauncherApp_other (h : app ≠ fold (launcherApp suffix row)) :
    (buildLauncherApp fold suffix io row l).2 app = l app := by
  rw [buildLauncherApp]
  split
  · exact Function.update_of_ne h _ _
  · rfl

theorem removeLauncherApp_other (h : app ≠ fold (launcherApp suffix row)) :
    (removeLauncherApp fold suffix io row l).2 app = l app := by
  simp only [removeLauncherApp]
  split
  · rfl
  · exact Function.update_of_ne h _ _

end Launchers

/-- Installing and removing the launcher of `r` touch no launcher of another row. -/
def LeavesLaunchers {κ : Type} [DecidableEq κ] (fold : Str → κ) (suffix : Option Str)
    (rows others : List AppRecord) (r : AppRecord) : Prop :=
  ∀ (β : Type) (io : LauncherIo β) (l : Launchers κ β), ∀ q ∈ others,
    let app := fold (launcherApp suffix q)
    (installLauncher fold suffix io rows r.id l).2 app = l app ∧
      (removeLauncher fold suffix io rows r.id l).2 app = l app

theorem acts_on_row_iff {κ : Type} [DecidableEq κ] (fold : Str → κ) (suffix : Option Str)
    (before after : List AppRecord) (r : AppRecord)
    (hids : ((before ++ r :: after).map AppRecord.id).Nodup) :
    findAppRecord (before ++ r :: after) r.id = some r ∧
        LeavesLaunchers fold suffix (before ++ r :: after) (before ++ after) r ↔
      (∀ q ∈ before, selected q.id q.name [r.id] = false) ∧
        ∀ q ∈ before ++ after, fold (launcherApp suffix q) ≠ fold (launcherApp suffix r) := by
  rw [← findAppRecord_eq_some_iff hids]
  refine and_congr_right fun hfind => ?_
  constructor
  · intro hleaves q hq heq
    -- every launcher is there, and a removal succeeds
    have hremoved := (hleaves Unit ⟨false, fun _ _ => ((), true), fun _ => none⟩
      (fun _ => some ()) q hq).2
    simp only [removeLauncher, hfind, removeLauncherApp, heq, Function.update_self] at hremoved
    cases hremoved
  · intro hne β io l q hq
    simp only [installLauncher, removeLauncher, hfind]
    exact ⟨buildLauncherApp_other (hne q hq), removeLauncherApp_other (hne q hq)⟩

/-- A row with the id as its name and no arguments. -/
def namedRow (id name : Str) : AppRecord := ⟨id, name, [], [], [], []⟩

theorem two_rows_apart : findAppRecord [namedRow ['a'] ['A'], namedRow ['b'] ['B']] ['b'] =
    some (namedRow ['b'] ['B']) := by
  have hids : (([namedRow ['a'] ['A']] ++ namedRow ['b'] ['B'] :: []).map AppRecord.id).Nodup := by
    decide
  refine ((acts_on_row_iff id none [namedRow ['a'] ['A']] [] (namedRow ['b'] ['B']) hids).2 ?_).1
  refine ⟨?_, ?_⟩
  · intro q hq
    rw [List.mem_singleton.1 hq]
    decide
  · intro q hq
    rw [List.mem_singleton.1 hq]
    decide

/-- The id `a` finds the app `a.b`, which comes before it. -/
theorem wrong_row_found : ¬∀ (before after : List AppRecord) (r : AppRecord),
    ((before ++ r :: after).map AppRecord.id).Nodup →
      findAppRecord (before ++ r :: after) r.id = some r ∧
        LeavesLaunchers id none (before ++ r :: after) (before ++ after) r := by
  intro hall
  have hfind := (hall [namedRow ['a', '.', 'b'] ['A']] [] (namedRow ['a'] ['B']) (by decide)).1
  exact absurd hfind (by decide)

end VBox.Cli
