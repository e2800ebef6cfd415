import VBox.Lib.Text
import Mathlib.Data.List.Induction
import Mathlib.Data.List.Nodup

/-!
# Cli.InstancePorts

The ports of the instances (`instance_port` in `crates/vbox-cli/src/runtime.rs`). Each call reads a
text file of names and ports, looks the name up, and writes the whole file again when it adds a line.

* `entries_format`: what was written is read again, if the names are plain.
* `instancePort_served`: all that one call can do.
* `instance_ports_allocated`: over any calls with plain names, ports are distinct, free, in range and
  kept.
* `file_intact_iff`: over any calls that prepare apps, the file stays readable and complete if and
  only if every app id has a letter or a digit.
-/

namespace VBox.Cli

abbrev Str := List Char

abbrev Errno := Nat

structure AppContext where
  port : UInt16

/-- What goes wrong in the file system during a call. A missing file is not an error. -/
structure Io where
  read : Option Errno
  createDir : Option Errno
  /-- The error of the write, and what it leaves in the temporary file. -/
  write : Option (Errno × Option Str)
  rename : Option Errno

def Io.quiet : Io :=
  { read := none, createDir := none, write := none, rename := none }

/-- The state directory: the file of the ports and the temporary file next to it. -/
structure StateDir where
  ports : Option Str
  tmp : Option Str
  deriving DecidableEq

inductive PortsError where
  | read (errno : Errno)
  | missingPort (line : Nat)
  | expectedInstanceAndPort (line : Nat)
  | parsePort (line : Nat)
  | createDir (errno : Errno)
  | write (errno : Errno)
  | rename (errno : Errno)
  | noFreePortAfter (base : UInt16)
  | noFreePortIn (first last : Nat) (name : Str)
  deriving DecidableEq

/-! ## The file -/

/-- One line of the file: nothing, an entry, or an error. -/
def readLine (number : Nat) (line : Str) : Except PortsError (Option (Str × UInt16)) :=
  let line := Text.trim line
  if line = [] ∨ line.head? = some '#' then .ok none
  else
    match Text.splitWhitespace line with
    | [] => .ok none
    | [_] => .error (.missingPort number)
    | [name, port] =>
      match Text.parseU16 port with
      | some port => .ok (some (name, port))
      | none => .error (.parsePort number)
    | _ => .error (.expectedInstanceAndPort number)

def readLines (idx : Nat) (entries : List (Str × UInt16)) :
    List Str → Except PortsError (List (Str × UInt16))
  | [] => .ok entries
  | line :: lines =>
    match readLine (idx + 1) line with
    | .error e => .error e
    | .ok none => readLines (idx + 1) entries lines
    | .ok (some entry) => readLines (idx + 1) (entries ++ [entry]) lines

/-- What is in the file. -/
def StateDir.entries (d : StateDir) : Except PortsError (List (Str × UInt16)) :=
  match d.ports with
  | none => .ok []
  | some text => readLines 0 [] (Text.lines text)

def readInstancePorts (io : Io) (d : StateDir) : Except PortsError (List (Str × UInt16)) :=
  match io.read with
  | some errno => .error (.read errno)
  | none => d.entries

def formatLine (entry : Str × UInt16) : Str :=
  entry.1 ++ '\t' :: Text.printU16 entry.2

def formatInstancePorts (entries : List (Str × UInt16)) : Str :=
  entries.flatMap fun entry => formatLine entry ++ ['\n']

/-- The file is replaced by the rename, all at once. -/
def writeInstancePorts (io : Io) (entries : List (Str × UInt16)) (d : StateDir) :
    Except PortsError Unit × StateDir :=
  match io.createDir with
  | some errno => (.error (.createDir errno), d)
  | none =>
    let out := formatInstancePorts entries
    match io.write with
    | some (errno, left) => (.error (.write errno), { d with tmp := left })
    | none =>
      match io.rename with
      | some errno => (.error (.rename errno), { d with tmp := some out })
      | none => (.ok (), { ports := some out, tmp := none })

/-! ## The allocation -/

def instancePortOffset : Nat := 2

def instancePortSpan : Nat := 2048

/-- The control port, from the value of `VBOX_CONTROL_PORT`. -/
def controlPort (var : Option Str) : UInt16 :=
  (var.bind Text.parseU16).getD 5711

def reservedPorts (ctx : AppContext) (control : Option Str) : List UInt16 :=
  if [ctx.port].contains (controlPort control) then [ctx.port]
  else [ctx.port, controlPort control]

def firstPort (ctx : AppContext) : Nat :=
  max (ctx.port.toNat + instancePortOffset) 1024

def lastPort (ctx : AppContext) : Nat :=
  min (firstPort ctx + instancePortSpan - 1) 65535

/-- The first port of the range that is neither reserved nor taken. -/
def freePort (reserved : List UInt16) (entries : List (Str × UInt16)) (first last : Nat) :
    Option UInt16 :=
  ((List.range' first (last + 1 - first)).map UInt16.ofNat).find? fun candidate =>
    !reserved.contains candidate && !entries.any fun entry => entry.2 == candidate

def defaultName : Str := ['d', 'e', 'f', 'a', 'u', 'l', 't']

def instancePort (ctx : AppContext) (control : Option Str) (io : Io) (name : Str) (d : StateDir) :
    Except PortsError UInt16 × StateDir :=
  if name = defaultName then (.ok ctx.port, d)
  else
    match readInstancePorts io d with
    | .error e => (.error e, d)
    | .ok entries =>
      match entries.find? fun entry => entry.1 == name with
      | some entry => (.ok entry.2, d)
      | none =>
        if 65535 < firstPort ctx then (.error (.noFreePortAfter ctx.port), d)
        else
          match freePort (reservedPorts ctx control) entries (firstPort ctx) (lastPort ctx) with
          | none => (.error (.noFreePortIn (firstPort ctx) (lastPort ctx) name), d)
          | some candidate =>
            match writeInstancePorts io (entries ++ [(name, candidate)]) d with
            | (.error e, d') => (.error e, d')
            | (.ok _, d') => (.ok candidate, d')

/-- Letters and digits stay; what else there is becomes `-`, and goes at the ends. -/
def sanitizeId (value : Str) : Str :=
  Text.trimMatches (· == '-') (value.map fun ch => if ch.isAlphanum then ch else '-')

/-! ## Reading what was written -/

/-- The names that the format can hold. -/
structure Plain (name : Str) : Prop where
  nonempty : name ≠ []
  noWhitespace : ∀ c ∈ name, Text.isWhitespace c = false
  noComment : name.head? ≠ some '#'

section Format

variable {entry : Str × UInt16} {entries : List (Str × UInt16)}

theorem getLast?_formatLine (entry : Str × UInt16) :
    (formatLine entry).getLast? = (Text.printU16 entry.2).getLast? := by
  rw [formatLine, List.getLast?_append_of_ne_nil _ (List.cons_ne_nil _ _), List.getLast?_cons,
    List.getLast?_eq_some_getLast (Text.printU16_ne_nil entry.2), Option.getD_some]

theorem isDigit_of_getLast?_formatLine {c : Char} (hc : (formatLine entry).getLast? = some c) :
    c.isDigit = true := by
  rw [getLast?_formatLine] at hc
  exact Text.isDigit_of_mem_printU16 (List.mem_of_getLast? hc)

theorem formatLine_terminated (hname : ∀ c ∈ entry.1, Text.isWhitespace c = false) :
    '\n' ∉ formatLine entry ∧ (formatLine entry).getLast? ≠ some '\r' := by
  constructor
  · intro hmem
    rw [formatLine, List.mem_append, List.mem_cons] at hmem
    rcases hmem with hmem | htab | hmem
    · exact absurd (hname _ hmem) (by decide)
    · exact absurd htab (by decide)
    · exact absurd (Text.isDigit_of_mem_printU16 hmem) (by decide)
  · intro hlast
    exact absurd (isDigit_of_getLast?_formatLine hlast) (by decide)

theorem trim_formatLine (hplain : Plain entry.1) :
    Text.trim (formatLine entry) = formatLine entry := by
  apply Text.trimMatches_eq_self
  · intro c hc
    rw [formatLine, List.head?_append_of_ne_nil _ hplain.nonempty] at hc
    exact hplain.noWhitespace c (List.mem_of_head? hc)
  · intro c hc
    exact Text.isWhitespace_of_isDigit (isDigit_of_getLast?_formatLine hc)

theorem splitWhitespace_formatLine (hplain : Plain entry.1) :
    Text.splitWhitespace (formatLine entry) = [entry.1, Text.printU16 entry.2] :=
  Text.splitWhitespace_pair (by decide) hplain.nonempty hplain.noWhitespace
    (Text.printU16_ne_nil _)
    fun _ hc => Text.isWhitespace_of_isDigit (Text.isDigit_of_mem_printU16 hc)

theorem readLine_formatLine (hplain : Plain entry.1) (number : Nat) :
    readLine number (formatLine entry) = .ok (some entry) := by
  have hline : ¬(formatLine entry = [] ∨ (formatLine entry).head? = some '#') := by
    rw [formatLine, List.head?_append_of_ne_nil _ hplain.nonempty]
    simp [hplain.noComment]
  simp only [readLine, trim_formatLine hplain, if_neg hline, splitWhitespace_formatLine hplain,
    Text.parseU16_printU16]

/-- Without a name only the port is left of the line, and it is taken for the name. -/
theorem readLine_unnamed (number : Nat) (port : UInt16) :
    readLine number (formatLine ([], port)) = .error (.missingPort number) := by
  have hdigits : ∀ c ∈ Text.printU16 port, Text.isWhitespace c = false := fun c hc =>
    Text.isWhitespace_of_isDigit (Text.isDigit_of_mem_printU16 hc)
  have htrim : Text.trim (formatLine ([], port)) = Text.printU16 port := by
    rw [formatLine, List.nil_append, Text.trim, Text.trimMatches_cons (by decide)]
    exact Text.trimMatches_eq_self (fun c hc => hdigits c (List.mem_of_head? hc))
      fun c hc => hdigits c (List.mem_of_getLast? hc)
  have hline : ¬(Text.printU16 port = [] ∨ (Text.printU16 port).head? = some '#') := by
    rintro (hnil | hhead)
    · exact Text.printU16_ne_nil port hnil
    · exact absurd (Text.isDigit_of_mem_printU16 (List.mem_of_head? hhead)) (by decide)
  simp only [readLine, htrim, if_neg hline,
    Text.splitWhitespace_word (Text.printU16_ne_nil port) hdigits]

theorem readLines_formatted (hplain : ∀ entry ∈ entries, Plain entry.1) (idx : Nat)
    (before : List (Str × UInt16)) (rest : List Str) :
    readLines idx before (entries.map formatLine ++ rest) =
      readLines (idx + entries.length) (before ++ entries) rest := by
  induction entries generalizing idx before with
  | nil => simp
  | cons entry entries ih =>
    rw [List.map_cons, List.cons_append, readLines,
      readLine_formatLine (hplain entry List.mem_cons_self)]
    have hrest := ih (fun e he => hplain e (List.mem_cons_of_mem entry he)) (idx + 1)
      (before ++ [entry])
    rw [List.append_assoc, List.singleton_append, Nat.add_right_comm] at hrest
    exact hrest

theorem lines_formatInstancePorts
    (hnames : ∀ entry ∈ entries, ∀ c ∈ entry.1, Text.isWhitespace c = false) :
    Text.lines (formatInstancePorts entries) = entries.map formatLine :=
  Text.lines_terminated fun entry he => formatLine_terminated (hnames entry he)

/-- Writing and then reading changes nothing, when every name is plain. -/
theorem entries_format (hplain : ∀ entry ∈ entries, Plain entry.1) (tmp : Option Str) :
    StateDir.entries ⟨some (formatInstancePorts entries), tmp⟩ = .ok entries := by
  have hread := readLines_formatted hplain 0 [] []
  rw [List.append_nil, List.nil_append] at hread
  change readLines 0 [] (Text.lines (formatInstancePorts entries)) = .ok entries
  rw [lines_formatInstancePorts fun entry he => (hplain entry he).noWhitespace]
  exact hread

/-- An entry without a name makes the file unreadable. -/
theorem entries_format_unnamed (hplain : ∀ entry ∈ entries, Plain entry.1) (port : UInt16)
    (tmp : Option Str) :
    StateDir.entries ⟨some (formatInstancePorts (entries ++ [([], port)])), tmp⟩ =
      .error (.missingPort (entries.length + 1)) := by
  have hread := readLines_formatted hplain 0 [] [formatLine ([], port)]
  rw [readLines, readLine_unnamed, Nat.zero_add] at hread
  change readLines 0 [] (Text.lines (formatInstancePorts (entries ++ [([], port)]))) = _
  rw [lines_formatInstancePorts ?_, List.map_append]
  · exact hread
  · intro entry he
    rcases List.mem_append.1 he with he | he
    · exact (hplain entry he).noWhitespace
    · obtain rfl := List.mem_singleton.1 he
      simp

end Format

/-! ## What a call can do -/

/-- The ports that may be given to a new name. -/
structure Free (ctx : AppContext) (control : Option Str) (entries : List (Str × UInt16))
    (port : UInt16) : Prop where
  notBase : port ≠ ctx.port
  notControl : port ≠ controlPort control
  notTaken : port ∉ entries.map Prod.snd
  first_le : firstPort ctx ≤ port.toNat
  le_last : port.toNat ≤ lastPort ctx

theorem not_mem_reservedPorts {ctx : AppContext} {control : Option Str} {port : UInt16} :
    port ∉ reservedPorts ctx control ↔ port ≠ ctx.port ∧ port ≠ controlPort control := by
  rw [reservedPorts]
  split
  · rename_i hsame
    simp only [List.contains_eq_mem, List.mem_singleton, decide_eq_true_eq] at hsame
    simp [hsame]
  · simp

theorem free_of_freePort {ctx : AppContext} {control : Option Str}
    {entries : List (Str × UInt16)} {port : UInt16}
    (h : freePort (reservedPorts ctx control) entries (firstPort ctx) (lastPort ctx) = some port) :
    Free ctx control entries port := by
  have htest := List.find?_some h
  have hmem := List.mem_of_find?_eq_some h
  rw [Bool.and_eq_true, Bool.not_eq_true', Bool.not_eq_true'] at htest
  obtain ⟨hreserved, htaken⟩ := htest
  obtain ⟨hbase, hcontrol⟩ := not_mem_reservedPorts.1 (by simpa using hreserved)
  obtain ⟨raw, hraw, rfl⟩ := List.mem_map.1 hmem
  obtain ⟨hfirst, hlast⟩ := List.mem_range'_1.1 hraw
  have hle : lastPort ctx ≤ 65535 := Nat.min_le_right _ _
  have hnat : (UInt16.ofNat raw).toNat = raw := by
    rw [UInt16.toNat_ofNat', Nat.mod_eq_of_lt]
    omega
  refine ⟨hbase, hcontrol, ?_, ?_, ?_⟩
  · rw [List.any_eq_false] at htaken
    intro hin
    obtain ⟨entry, he, hport⟩ := List.mem_map.1 hin
    exact htaken entry he (by simp [hport])
  · omega
  · omega

/-- All that one call can do: answer for the default instance, find the name, add it, or fail. -/
inductive Served (ctx : AppContext) (control : Option Str) (name : Str) (d : StateDir) :
    Except PortsError UInt16 → StateDir → Prop where
  | default : name = defaultName → Served ctx control name d (.ok ctx.port) d
  | known {entries : List (Str × UInt16)} {port : UInt16} : name ≠ defaultName →
      d.entries = .ok entries → (name, port) ∈ entries → Served ctx control name d (.ok port) d
  | added {entries : List (Str × UInt16)} {port : UInt16} : name ≠ defaultName →
      d.entries = .ok entries → name ∉ entries.map Prod.fst → Free ctx control entries port →
      Served ctx control name d (.ok port)
        ⟨some (formatInstancePorts (entries ++ [(name, port)])), none⟩
  | failed {e : PortsError} {d' : StateDir} : name ≠ defaultName → d'.ports = d.ports →
      Served ctx control name d (.error e) d'

theorem writeInstancePorts_cases (io : Io) (entries : List (Str × UInt16)) (d : StateDir) :
    (∃ e d', writeInstancePorts io entries d = (.error e, d') ∧ d'.ports = d.ports) ∨
      writeInstancePorts io entries d = (.ok (), ⟨some (formatInstancePorts entries), none⟩) := by
  unfold writeInstancePorts
  cases io.createDir with
  | some errno => exact .inl ⟨_, _, rfl, rfl⟩
  | none =>
    cases io.write with
    | some failure => exact .inl ⟨_, _, rfl, rfl⟩
    | none =>
      cases io.rename with
      | some errno => exact .inl ⟨_, _, rfl, rfl⟩
      | none => exact .inr rfl

theorem entries_of_readInstancePorts {io : Io} {d : StateDir} {entries : List (Str × UInt16)}
    (h : readInstancePorts io d = .ok entries) : d.entries = .ok entries := by
  unfold readInstancePorts at h
  cases hread : io.read with
  | some errno =>
    rw [hread] at h
    cases h
  | none =>
    rw [hread] at h
    exact h

theorem instancePort_served (ctx : AppContext) (control : Option Str) (io : Io) (name : Str)
    (d : StateDir) :
    Served ctx control name d (instancePort ctx control io name d).1
      (instancePort ctx control io name d).2 := by
  unfold instancePort
  by_cases hdefault : name = defaultName
  · rw [if_pos hdefault]
    exact .default hdefault
  rw [if_neg hdefault]
  cases hread : readInstancePorts io d with
  | error e => exact .failed hdefault rfl
  | ok entries =>
    have hentries := entries_of_readInstancePorts hread
    dsimp only
    cases hfind : entries.find? fun entry => entry.1 == name with
    | some entry =>
      have hname : entry.1 = name := by simpa using List.find?_some hfind
      subst hname
      exact .known hdefault hentries (List.mem_of_find?_eq_some hfind)
    | none =>
      dsimp only
      by_cases hfirst : 65535 < firstPort ctx
      · rw [if_pos hfirst]
        exact .failed hdefault rfl
      rw [if_neg hfirst]
      cases hfree : freePort (reservedPorts ctx control) entries (firstPort ctx) (lastPort ctx) with
      | none => exact .failed hdefault rfl
      | some port =>
        dsimp only
        obtain ⟨e, d', hwrite, hports⟩ | hwrite :=
          writeInstancePorts_cases io (entries ++ [(name, port)]) d
        · rw [hwrite]
          exact .failed hdefault hports
        · rw [hwrite]
          refine .added hdefault hentries ?_ (free_of_freePort hfree)
          intro hmem
          obtain ⟨entry, he, hname⟩ := List.mem_map.1 hmem
          exact List.find?_eq_none.1 hfind entry he (by simp [hname])

theorem entries_congr {d d' : StateDir} (h : d'.ports = d.ports) : d'.entries = d.entries := by
  rw [StateDir.entries, StateDir.entries, h]

/-! ## Sequences of calls -/

structure Call where
  ctx : AppContext
  /-- The value of `VBOX_CONTROL_PORT`. -/
  control : Option Str
  io : Io
  name : Str

/-- The state directory, and the names that were asked for with the answers. -/
structure History where
  dir : StateDir
  answers : List (Str × Except PortsError UInt16)

namespace History

def step (h : History) (c : Call) : History :=
  { dir := (instancePort c.ctx c.control c.io c.name h.dir).2,
    answers := h.answers ++ [(c.name, (instancePort c.ctx c.control c.io c.name h.dir).1)] }

/-- The file is absent; of the temporary file something may be left. -/
def absent (tmp : Option Str) : History :=
  { dir := { ports := none, tmp := tmp }, answers := [] }

def run (tmp : Option Str) (calls : List Call) : History :=
  calls.foldl step (absent tmp)

theorem run_append (tmp : Option Str) (past rest : List Call) :
    run tmp (past ++ rest) = rest.foldl step (run tmp past) :=
  List.foldl_append

end History

/-! ## The allocation as a map -/

/-- Names and ports, one for one, the ports all free to be given. -/
structure Allocation (ctx : AppContext) (control : Option Str) where
  entries : List (Str × UInt16)
  plain : ∀ entry ∈ entries, Plain entry.1
  names : (entries.map Prod.fst).Nodup
  ports : (entries.map Prod.snd).Nodup
  free : ∀ entry ∈ entries, Free ctx control [] entry.2

namespace Allocation

variable {ctx : AppContext} {control : Option Str} {a : Allocation ctx control} {name : Str}
  {port : UInt16}

def empty (ctx : AppContext) (control : Option Str) : Allocation ctx control where
  entries := []
  plain := by simp
  names := List.nodup_nil
  ports := List.nodup_nil
  free := by simp

def add (a : Allocation ctx control) (name : Str) (port : UInt16) (hplain : Plain name)
    (hnew : name ∉ a.entries.map Prod.fst) (hfree : Free ctx control a.entries port) :
    Allocation ctx control where
  entries := a.entries ++ [(name, port)]
  plain := by
    intro entry he
    rcases List.mem_append.1 he with he | he
    · exact a.plain entry he
    · obtain rfl := List.mem_singleton.1 he
      exact hplain
  names := by
    rw [List.map_append]
    exact List.Nodup.append a.names (List.nodup_singleton name) (by simpa using hnew)
  ports := by
    rw [List.map_append]
    exact List.Nodup.append a.ports (List.nodup_singleton port) (by simpa using hfree.notTaken)
  free := by
    intro entry he
    rcases List.mem_append.1 he with he | he
    · exact a.free entry he
    · obtain rfl := List.mem_singleton.1 he
      exact ⟨hfree.notBase, hfree.notControl, List.not_mem_nil, hfree.first_le, hfree.le_last⟩

/-- Two entries with the same name are one entry, and so are two with the same port. -/
theorem name_eq_iff_port_eq {name' : Str} {port' : UInt16} (h : (name, port) ∈ a.entries)
    (h' : (name', port') ∈ a.entries) : name = name' ↔ port = port' := by
  constructor
  · intro hname
    exact congrArg Prod.snd (List.inj_on_of_nodup_map a.names h h' hname)
  · intro hport
    exact congrArg Prod.fst (List.inj_on_of_nodup_map a.ports h h' hport)

/-- The allocation that a call leads to. -/
theorem exists_of_served {d d' : StateDir} {r : Except PortsError UInt16}
    (hserved : Served ctx control name d r d') (hplain : Plain name) (hname : name ≠ defaultName)
    (ha : d.entries = .ok a.entries) :
    ∃ a' : Allocation ctx control, d'.entries = .ok a'.entries ∧ a.entries <+: a'.entries ∧
      ∀ port, r = .ok port → (name, port) ∈ a'.entries := by
  cases hserved with
  | default hdefault => exact absurd hdefault hname
  | known _ hentries hmem =>
    obtain rfl := Except.ok.inj (ha.symm.trans hentries)
    refine ⟨a, ha, List.prefix_refl _, ?_⟩
    intro port hport
    obtain rfl := Except.ok.inj hport
    exact hmem
  | added _ hentries hnew hfree =>
    obtain rfl := Except.ok.inj (ha.symm.trans hentries)
    refine ⟨a.add name _ hplain hnew hfree, ?_, List.prefix_append _ _, ?_⟩
    · exact entries_format (a.add name _ hplain hnew hfree).plain none
    · intro port hport
      obtain rfl := Except.ok.inj hport
      exact List.mem_append_right _ List.mem_cons_self
  | failed _ hports =>
    refine ⟨a, (entries_congr hports).trans ha, List.prefix_refl _, ?_⟩
    intro port hport
    cases hport

/-- The allocation that a sequence of calls leads to. -/
theorem exists_of_calls {calls : List Call}
    (hcalls : ∀ c ∈ calls, c.ctx = ctx ∧ c.control = control ∧ Plain c.name ∧ c.name ≠ defaultName)
    (h : History) (ha : h.dir.entries = .ok a.entries) :
    ∃ a' : Allocation ctx control, (calls.foldl History.step h).dir.entries = .ok a'.entries ∧
      a.entries <+: a'.entries ∧
      ∀ name port, (name, .ok port) ∈ (calls.foldl History.step h).answers →
        (name, .ok port) ∈ h.answers ∨ (name, port) ∈ a'.entries := by
  induction calls generalizing h a with
  | nil => exact ⟨a, ha, List.prefix_refl _, fun _ _ hmem => .inl hmem⟩
  | cons c calls ih =>
    obtain ⟨hctx, hcontrol, hplain, hname⟩ := hcalls c List.mem_cons_self
    have hserved := instancePort_served c.ctx c.control c.io c.name h.dir
    rw [hctx, hcontrol] at hserved
    obtain ⟨a₁, ha₁, hpre₁, hanswer⟩ := exists_of_served hserved hplain hname ha
    have hdir : (h.step c).dir.entries = .ok a₁.entries := by
      rw [History.step, hctx, hcontrol]
      exact ha₁
    obtain ⟨a₂, ha₂, hpre₂, hanswers⟩ :=
      ih (fun c' hc' => hcalls c' (List.mem_cons_of_mem c hc')) (h.step c) hdir
    refine ⟨a₂, ha₂, hpre₁.trans hpre₂, ?_⟩
    intro name port hmem
    rcases hanswers name port hmem with hmem | hmem
    · rcases List.mem_append.1 hmem with hmem | hmem
      · exact .inl hmem
      · obtain ⟨rfl, hport⟩ := Prod.mk.inj (List.mem_singleton.1 hmem)
        rw [hctx, hcontrol] at hport
        exact .inr (hpre₂.subset (hanswer port hport.symm))
    · exact .inr hmem

end Allocation

theorem ports_eq_of_served {ctx : AppContext} {control : Option Str} {name : Str} {d d' : StateDir}
    {r : Except PortsError UInt16} {e : PortsError} (hserved : Served ctx control name d r d')
    (herror : r = .error e) : d'.ports = d.ports := by
  cases hserved with
  | default => cases herror
  | known => cases herror
  | added => cases herror
  | failed _ hports => exact hports

theorem instance_ports_allocated (ctx : AppContext) (control : Option Str) (tmp : Option Str)
    (calls : List Call)
    (hcalls : ∀ c ∈ calls,
      c.ctx = ctx ∧ c.control = control ∧ Plain c.name ∧ c.name ≠ defaultName) :
    -- Distinct names get distinct ports, and a name always gets the same.
    (∀ name name' port port', (name, .ok port) ∈ (History.run tmp calls).answers →
      (name', .ok port') ∈ (History.run tmp calls).answers → (name = name' ↔ port = port')) ∧
    (∀ name port, (name, .ok port) ∈ (History.run tmp calls).answers →
      port ≠ ctx.port ∧ port ≠ controlPort control ∧
        max (ctx.port.toNat + 2) 1024 ≤ port.toNat ∧
        port.toNat ≤ min (max (ctx.port.toNat + 2) 1024 + 2047) 65535) ∧
    (∀ past, past <+: calls → ∃ earlier later,
      (History.run tmp past).dir.entries = .ok earlier ∧
        (History.run tmp calls).dir.entries = .ok later ∧ earlier <+: later) ∧
    (∀ past c e, past ++ [c] <+: calls →
      (instancePort c.ctx c.control c.io c.name (History.run tmp past).dir).1 = .error e →
        (History.run tmp (past ++ [c])).dir.ports = (History.run tmp past).dir.ports) := by
  have habsent : (History.absent tmp).dir.entries =
      .ok (Allocation.empty ctx control).entries := rfl
  obtain ⟨a, ha, -, hanswers⟩ := Allocation.exists_of_calls hcalls _ habsent
  have hmem : ∀ name port, (name, .ok port) ∈ (History.run tmp calls).answers →
      (name, port) ∈ a.entries := by
    intro name port hanswer
    rcases hanswers name port hanswer with hnone | hmem
    · exact absurd hnone List.not_mem_nil
    · exact hmem
  refine ⟨?_, ?_, ?_, ?_⟩
  · intro name name' port port' h h'
    exact a.name_eq_iff_port_eq (hmem name port h) (hmem name' port' h')
  · intro name port h
    have hfree := a.free _ (hmem name port h)
    exact ⟨hfree.notBase, hfree.notControl, hfree.first_le, hfree.le_last⟩
  · rintro past ⟨rest, rfl⟩
    obtain ⟨a₁, ha₁, -, -⟩ := Allocation.exists_of_calls
      (fun c hc => hcalls c (List.mem_append_left rest hc)) _ habsent
    obtain ⟨a₂, ha₂, hpre, -⟩ := Allocation.exists_of_calls
      (fun c hc => hcalls c (List.mem_append_right past hc)) (History.run tmp past) ha₁
    refine ⟨a₁.entries, a₂.entries, ha₁, ?_, hpre⟩
    rw [History.run_append]
    exact ha₂
  · intro past c e _ herror
    rw [History.run_append]
    exact ports_eq_of_served
      (instancePort_served c.ctx c.control c.io c.name (History.run tmp past).dir) herror

def twoApps : List Call :=
  [⟨⟨5710⟩, none, .quiet, ['a']⟩, ⟨⟨5710⟩, none, { Io.quiet with rename := some 28 }, ['b']⟩,
    ⟨⟨5710⟩, none, .quiet, ['b']⟩, ⟨⟨5710⟩, none, .quiet, ['a']⟩]

theorem twoApps_allocated : (History.run none twoApps).answers =
      [(['a'], .ok 5712), (['b'], .error (.rename 28)), (['b'], .ok 5713), (['a'], .ok 5712)] ∧
    ∀ name port, (name, .ok port) ∈ (History.run none twoApps).answers →
      5712 ≤ port.toNat ∧ port.toNat ≤ 7759 := by
  have hplain : ∀ name ∈ [['a'], ['b']], Plain name ∧ name ≠ defaultName := by
    intro name hname
    rcases List.mem_pair.1 hname with rfl | rfl
    · exact ⟨⟨by decide, List.forall_mem_singleton.2 rfl, by decide⟩, by decide⟩
    · exact ⟨⟨by decide, List.forall_mem_singleton.2 rfl, by decide⟩, by decide⟩
  have hcalls : ∀ c ∈ twoApps,
      c.ctx = ⟨5710⟩ ∧ c.control = none ∧ Plain c.name ∧ c.name ≠ defaultName := by
    intro c hc
    simp only [twoApps, List.mem_cons, List.not_mem_nil, or_false] at hc
    rcases hc with rfl | rfl | rfl | rfl
    all_goals exact ⟨rfl, rfl, hplain _ (by decide)⟩
  refine ⟨rfl, ?_⟩
  intro name port h
  have hbase : (AppContext.mk 5710).port.toNat = 5710 := rfl
  obtain ⟨-, -, hfirst, hlast⟩ :=
    (instance_ports_allocated ⟨5710⟩ none none twoApps hcalls).2.1 name port h
  rw [hbase] at hfirst hlast
  omega

/-! ## The names of apps -/

section Sanitize

variable {value : Str}

theorem sanitizeId_eq_nil_iff : sanitizeId value = [] ↔ ∀ c ∈ value, c.isAlphanum = false := by
  rw [sanitizeId, Text.trimMatches_eq_nil_iff, List.forall_mem_map]
  refine forall₂_congr fun c _ => ?_
  by_cases hc : c.isAlphanum = true
  · have hdash : c ≠ '-' := by
      rintro rfl
      exact absurd hc (by decide)
    simp [hc, hdash]
  · simp [hc]

theorem isAlphanum_or_dash_of_mem_sanitizeId {c : Char} (hc : c ∈ sanitizeId value) :
    c.isAlphanum = true ∨ c = '-' := by
  obtain ⟨ch, -, rfl⟩ := List.mem_map.1 (Text.trimMatches_subset hc)
  by_cases hch : ch.isAlphanum = true
  · rw [if_pos hch]
    exact .inl hch
  · rw [if_neg hch]
    exact .inr rfl

/-- What is left of an id is plain, if anything is. -/
theorem plain_sanitizeId (hne : sanitizeId value ≠ []) : Plain (sanitizeId value) where
  nonempty := hne
  noWhitespace := by
    intro c hc
    rcases isAlphanum_or_dash_of_mem_sanitizeId hc with hc | rfl
    · exact Text.isWhitespace_of_isAlphanum hc
    · decide
  noComment := by
    intro hhead
    rcases isAlphanum_or_dash_of_mem_sanitizeId (List.mem_of_head? hhead) with hc | hc
    · exact absurd hc (by decide)
    · exact absurd hc (by decide)

end Sanitize

/-! ## Preparing apps -/

structure PrepareApp where
  ctx : AppContext
  control : Option Str
  io : Io
  /-- The id of the record that was found. -/
  id : Str

/-- The port that `prepare_app` asks for. -/
def PrepareApp.call (app : PrepareApp) : Call :=
  ⟨app.ctx, app.control, app.io, sanitizeId app.id⟩

namespace History

variable {h : History} {c : Call} {entries : List (Str × UInt16)}

/-- The entries are read again as they were written, and are the ports given so far. -/
structure Kept (h : History) (entries : List (Str × UInt16)) : Prop where
  read : h.dir.entries = .ok entries
  written : ∀ text, h.dir.ports = some text → text = formatInstancePorts entries
  exact : ∀ name port,
    (name, port) ∈ entries ↔ name ≠ defaultName ∧ (name, .ok port) ∈ h.answers

def Intact (h : History) : Prop :=
  ∃ entries, h.Kept entries

def AllOk (h : History) : Prop :=
  ∀ answer ∈ h.answers, ∃ port, answer.2 = .ok port

theorem allOk_step : (h.step c).AllOk ↔
    h.AllOk ∧ ∃ port, (instancePort c.ctx c.control c.io c.name h.dir).1 = .ok port := by
  simp only [AllOk, step, List.mem_append, List.mem_singleton, or_imp, forall_and, forall_eq]

theorem mem_answers_step {name : Str} {port : UInt16} :
    (name, .ok port) ∈ (h.step c).answers ↔ (name, .ok port) ∈ h.answers ∨
      name = c.name ∧ (instancePort c.ctx c.control c.io c.name h.dir).1 = .ok port := by
  rw [step, List.mem_append, List.mem_singleton, Prod.mk.injEq, eq_comm (a := Except.ok port)]

theorem Kept.of_dir_eq {h' : History} (hkept : h.Kept entries) (hdir : h'.dir = h.dir)
    (hexact : ∀ name port,
      (name, port) ∈ entries ↔ name ≠ defaultName ∧ (name, .ok port) ∈ h'.answers) :
    h'.Kept entries where
  read := by
    rw [hdir]
    exact hkept.read
  written := by
    rw [hdir]
    exact hkept.written
  exact := hexact

theorem served_step {port : UInt16}
    (hok : (instancePort c.ctx c.control c.io c.name h.dir).1 = .ok port) :
    Served c.ctx c.control c.name h.dir (.ok port) (h.step c).dir := by
  have hserved := instancePort_served c.ctx c.control c.io c.name h.dir
  rw [hok] at hserved
  exact hserved

/-- An answered call with a plain name keeps the file. -/
theorem kept_step (hkept : h.Kept entries) (hplain : ∀ entry ∈ entries, Plain entry.1)
    (hname : Plain c.name) {port : UInt16}
    (hok : (instancePort c.ctx c.control c.io c.name h.dir).1 = .ok port) :
    ∃ entries', (h.step c).Kept entries' ∧ ∀ entry ∈ entries', Plain entry.1 := by
  have hserved := served_step hok
  have hmem : ∀ name port', (name, .ok port') ∈ (h.step c).answers ↔
      (name, .ok port') ∈ h.answers ∨ name = c.name ∧ port = port' := by
    intro name port'
    rw [mem_answers_step, hok, Except.ok.injEq]
  generalize hdir : (h.step c).dir = d' at hserved
  cases hserved with
  | default hdefault =>
    refine ⟨entries, hkept.of_dir_eq hdir ?_, hplain⟩
    intro name port
    rw [hkept.exact, hmem]
    grind
  | known hnot hentries hin =>
    obtain rfl := Except.ok.inj (hkept.read.symm.trans hentries)
    refine ⟨entries, hkept.of_dir_eq hdir ?_, hplain⟩
    intro name port
    have hagain := (hkept.exact c.name _).1 hin
    rw [hmem, hkept.exact]
    grind
  | added hnot hentries hnew hfree =>
    obtain rfl := Except.ok.inj (hkept.read.symm.trans hentries)
    have hplain' : ∀ entry ∈ entries ++ [(c.name, port)], Plain entry.1 := by
      rw [List.forall_mem_append, List.forall_mem_singleton]
      exact ⟨hplain, hname⟩
    refine ⟨entries ++ [(c.name, port)], ⟨?_, ?_, ?_⟩, hplain'⟩
    · rw [hdir]
      exact entries_format hplain' none
    · intro text htext
      rw [hdir] at htext
      exact (Option.some.inj htext).symm
    · intro name port
      rw [List.mem_append, hkept.exact, hmem, List.mem_singleton, Prod.mk.injEq]
      grind

/-- An answered call without a name makes the file unreadable. -/
theorem bricked_of_unnamed (hread : h.dir.entries = .ok entries)
    (hplain : ∀ entry ∈ entries, Plain entry.1) (hname : c.name = []) {port : UInt16}
    (hok : (instancePort c.ctx c.control c.io c.name h.dir).1 = .ok port) :
    ∃ e, (h.step c).dir.entries = .error e := by
  have hserved := served_step hok
  generalize (h.step c).dir = d' at hserved ⊢
  cases hserved with
  | default hdefault => exact absurd (hname.symm.trans hdefault) (by decide)
  | known _ hentries hin =>
    obtain rfl := Except.ok.inj (hread.symm.trans hentries)
    exact absurd hname (hplain _ hin).nonempty
  | added _ hentries _ _ =>
    obtain rfl := Except.ok.inj (hread.symm.trans hentries)
    have hbad := entries_format_unnamed hplain port none
    rw [← hname] at hbad
    exact ⟨_, hbad⟩

/-- An unreadable file stays as it is: only the default instance is still answered for. -/
theorem bricked_step {e : PortsError} {port : UInt16} (hread : h.dir.entries = .error e)
    (hok : (instancePort c.ctx c.control c.io c.name h.dir).1 = .ok port) :
    (h.step c).dir.entries = .error e := by
  have hserved := served_step hok
  generalize (h.step c).dir = d' at hserved ⊢
  cases hserved with
  | default _ => exact hread
  | known _ hentries _ => cases hread.symm.trans hentries
  | added _ hentries _ _ => cases hread.symm.trans hentries

/-- Answered calls keep the file as long as each has a name, and then lose it for good. -/
theorem kept_or_bricked (tmp : Option Str) (calls : List Call)
    (hplain : ∀ c ∈ calls, c.name ≠ [] → Plain c.name) (hok : (run tmp calls).AllOk) :
    ((∀ c ∈ calls, c.name ≠ []) ∧
        ∃ entries, (run tmp calls).Kept entries ∧ ∀ entry ∈ entries, Plain entry.1) ∨
      ((∃ c ∈ calls, c.name = []) ∧ ∃ e, (run tmp calls).dir.entries = .error e) := by
  induction calls using List.reverseRecOn with
  | nil =>
    refine .inl ⟨by simp, [], ⟨rfl, ?_, ?_⟩, by simp⟩
    · intro text htext
      cases htext
    · intro name port
      simp [run, absent]
  | append_singleton calls c ih =>
    rw [run_append, List.foldl_cons, List.foldl_nil] at hok ⊢
    obtain ⟨hoks, port, hok⟩ := allOk_step.1 hok
    obtain ⟨hplains, hplain⟩ := List.forall_mem_append.1 hplain
    have hmem : c ∈ calls ++ [c] := List.mem_append_right calls List.mem_cons_self
    rcases ih hplains hoks with ⟨hnamed, entries, hkept, hentries⟩ | ⟨⟨c', hc', hname⟩, e, hread⟩
    · by_cases hname : c.name = []
      · exact .inr ⟨⟨c, hmem, hname⟩, bricked_of_unnamed hkept.read hentries hname hok⟩
      · refine .inl ⟨?_, kept_step hkept hentries (hplain c List.mem_cons_self hname) hok⟩
        exact List.forall_mem_append.2 ⟨hnamed, List.forall_mem_singleton.2 hname⟩
    · exact .inr ⟨⟨c', List.mem_append_left [c] hc', hname⟩, e, bricked_step hread hok⟩

end History

theorem file_intact_iff (tmp : Option Str) (apps : List PrepareApp)
    (hok : (History.run tmp (apps.map PrepareApp.call)).AllOk) :
    (History.run tmp (apps.map PrepareApp.call)).Intact ↔
      ∀ app ∈ apps, ∃ c ∈ app.id, c.isAlphanum = true := by
  have hnamed : (∀ c ∈ apps.map PrepareApp.call, c.name ≠ []) ↔
      ∀ app ∈ apps, ∃ c ∈ app.id, c.isAlphanum = true := by
    rw [List.forall_mem_map]
    refine forall₂_congr fun app _ => ?_
    change sanitizeId app.id ≠ [] ↔ _
    rw [ne_eq, sanitizeId_eq_nil_iff]
    simp
  have hplain : ∀ c ∈ apps.map PrepareApp.call, c.name ≠ [] → Plain c.name := by
    rw [List.forall_mem_map]
    intro app _ hne
    exact plain_sanitizeId hne
  rw [← hnamed]
  rcases History.kept_or_bricked tmp _ hplain hok with
    ⟨hall, entries, hkept, -⟩ | ⟨⟨c, hc, hname⟩, e, hread⟩
  · exact iff_of_true ⟨entries, hkept⟩ hall
  · refine iff_of_false ?_ fun hall => hall c hc hname
    rintro ⟨entries, hkept⟩
    cases hread.symm.trans hkept.read

def namedApps : List PrepareApp :=
  [⟨⟨5710⟩, none, .quiet, ['o', 'r', 'g', '.', 'a']⟩, ⟨⟨5710⟩, none, .quiet, ['b', '_']⟩]

theorem namedApps_intact : (History.run none (namedApps.map PrepareApp.call)).Intact := by
  have hanswers : (History.run none (namedApps.map PrepareApp.call)).answers =
      [(['o', 'r', 'g', '-', 'a'], .ok 5712), (['b'], .ok 5713)] := rfl
  refine (file_intact_iff none namedApps ?_).2 ?_
  · rw [History.AllOk, hanswers]
    simp
  · intro app happ
    rcases List.mem_pair.1 happ with rfl | rfl
    · exact ⟨'o', List.mem_cons_self, rfl⟩
    · exact ⟨'b', List.mem_cons_self, rfl⟩

/-- An app whose id is all in another script. -/
def unnamedApp : PrepareApp :=
  ⟨⟨5710⟩, none, .quiet, ['日', '本']⟩

/-- Its call is answered, and then nothing can be read any more. -/
theorem unnamed_app_bricks : ¬∀ (tmp : Option Str) (apps : List PrepareApp),
    (History.run tmp (apps.map PrepareApp.call)).AllOk →
      (History.run tmp (apps.map PrepareApp.call)).Intact := by
  intro hall
  have hanswers : (History.run none ([unnamedApp].map PrepareApp.call)).answers =
      [([], .ok 5712)] := rfl
  have hread : (History.run none ([unnamedApp].map PrepareApp.call)).dir.entries =
      .error (.missingPort 1) := rfl
  have hok : (History.run none ([unnamedApp].map PrepareApp.call)).AllOk := by
    rw [History.AllOk, hanswers]
    simp
  obtain ⟨entries, hkept⟩ := hall none [unnamedApp] hok
  cases hread.symm.trans hkept.read

end VBox.Cli
