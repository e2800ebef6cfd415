import VBox.Cli.InstancePorts
import VBox.Lib.Json
import Mathlib.Data.List.Forall2
import Mathlib.Data.List.Perm.Subperm
import Mathlib.Logic.Function.Basic

/-!
# Cli.Remotes

The saved remotes (`crates/vbox-cli/src/remote.rs`): the file `remote-hosts.json` in the state
directory, and the keychain with their passwords. Every command reads the whole file, changes the
list and writes the whole file again. A file that `serde_json` does not read as the store counts as
an empty store.

* `Remote.view_toJson_iff`: a record that is read and written again is the same record if and only
  if it has no field that the type lacks.
* `Remote.forall₂_items`: the records of a file that is read are the hosts of the store, one by
  one.
* `Remote.addCmd_cases`, `Remote.removeName_cases`, `Remote.setHasPassword_cases`: what a command
  does, as its way to a save or to an error.
-/

namespace VBox.Cli

/-! ## What a command finds -/

/-- A store's file. A text that is not JSON has no `json`; `elsewhere` are the records that stand in
the text where the program does not look. -/
structure Content (ρ : Type) where
  readable : Bool
  json : Option Json
  elsewhere : List ρ

/-- The files of the state directory, and the keychain. -/
structure Stores where
  remoteHosts : Option (Content Json)
  machines : Option (Content (Str × Json))
  keychain : Str → Option Str

/-- What does not change while a command runs. `security` may refuse to store or to delete. -/
structure World where
  guest : Option Str
  guestDir : Option Str
  hostUser : Option Str
  home : Option Str
  now : Str
  stdin : Option Str
  savesRemotes : Bool
  savesMachines : Bool
  keychainStores : Bool
  keychainDeletes : Bool
  prlctlList : Json
  prlctlInfo : Str → Json

/-- Loading fails where there is a file that cannot be read, and else finds what is parsed. -/
theorem load_cases_of_file {ρ σ : Type} {file : Option (Content ρ)} {empty : σ}
    {parse : Content ρ → σ} {message : String} {loaded : Except String σ}
    (h : loaded = file.elim (.ok empty) fun content =>
      if content.readable then .ok (parse content) else .error message) :
    ((∃ content ∈ file, content.readable = false) ∧ ∃ e, loaded = .error e) ∨
      ((¬∃ content ∈ file, content.readable = false) ∧ loaded = .ok (file.elim empty parse)) := by
  subst h
  cases file with
  | none => exact .inr ⟨by simp, rfl⟩
  | some content =>
    cases hreadable : content.readable with
    | false => exact .inl ⟨⟨content, rfl, hreadable⟩, message, by simp [hreadable]⟩
    | true => exact .inr ⟨by simp [hreadable], by simp [hreadable]⟩

/-! ## `keychain.rs` -/

def setPassword (w : World) (account password : Str) (s : Stores) : Except String Stores :=
  if w.keychainStores then
    .ok { s with keychain := Function.update s.keychain account (some password) }
  else .error "keychain store failed"

/-- Errors are ignored by every caller. -/
def deletePassword (w : World) (account : Str) (s : Stores) : Stores :=
  if w.keychainDeletes then { s with keychain := Function.update s.keychain account none } else s

/-! What a command leaves in the keychain at an account: nothing new, no password, or a password. -/

def setEntry (account : Str) (entry : Option (Option Str)) (s : Stores) : Stores :=
  entry.elim s fun password => { s with keychain := Function.update s.keychain account password }

/-- What deleting leaves. -/
def deleted (w : World) : Option (Option Str) := if w.keychainDeletes then some none else none

/-- What storing a password leaves; an empty password is deleted. -/
def passwordEntry (w : World) (password : Str) : Option (Option Str) :=
  if password = [] then deleted w else if w.keychainStores then some (some password) else none

def KeychainRefuses (w : World) (password : Str) : Prop :=
  password ≠ [] ∧ w.keychainStores = false

section Keychain

variable {w : World} {account : Str} {entry : Option (Option Str)} {s : Stores}

@[simp] theorem setEntry_remoteHosts : (setEntry account entry s).remoteHosts = s.remoteHosts := by
  cases entry <;> rfl

@[simp] theorem setEntry_machines : (setEntry account entry s).machines = s.machines := by
  cases entry <;> rfl

theorem deletePassword_eq : deletePassword w account s = setEntry account (deleted w) s := by
  rw [deletePassword, deleted]
  split <;> rfl

theorem setEntry_deleted_twice : setEntry account (deleted w) (setEntry account (deleted w) s) =
    setEntry account (deleted w) s := by
  rw [deleted]
  split
  · simp [setEntry]
  · rfl

theorem passwordEntry_of_refuses {password : Str} (h : KeychainRefuses w password) :
    passwordEntry w password = none := by
  simp [passwordEntry, h.1, h.2]

theorem setPassword_cases (w : World) (account : Str) (s : Stores) {password : Str}
    (hne : password ≠ []) :
    (KeychainRefuses w password ∧ ∃ e, setPassword w account password s = .error e) ∨
      (¬KeychainRefuses w password ∧
        setPassword w account password s = .ok (setEntry account (passwordEntry w password) s)) := by
  cases hstores : w.keychainStores with
  | false =>
    exact .inl ⟨⟨hne, hstores⟩, "keychain store failed", by simp [setPassword, hstores]⟩
  | true =>
    refine .inr ⟨by simp [KeychainRefuses, hstores], ?_⟩
    simp [setPassword, hstores, passwordEntry, hne, setEntry]

end Keychain

namespace Remote

/-! ## The records -/

structure RemoteHost where
  name : Str
  ssh : Str
  guestDir : Str
  osKind : Str
  osRaw : Str
  addedAt : Str
  identityFile : Str
  hasPassword : Bool
  deriving DecidableEq

def fieldNames : List Str :=
  ["name", "ssh", "guest_dir", "os_kind", "os_raw", "added_at", "identity_file",
    "has_password"].map String.toList

def defaultOsKind : Str := "linux".toList

/-- The fields that may be missing. -/
def defaults : Json.Fields :=
  [("guest_dir".toList, .str []), ("os_kind".toList, .str defaultOsKind),
    ("os_raw".toList, .str []), ("added_at".toList, .str []), ("identity_file".toList, .str []),
    ("has_password".toList, .bool false)]

def RemoteHost.ofFields (fields : Json.Fields) : Option RemoteHost := do
  let name ← Json.readField Json.asStr none fields "name".toList
  let ssh ← Json.readField Json.asStr none fields "ssh".toList
  let guestDir ← Json.readField Json.asStr (some []) fields "guest_dir".toList
  let osKind ← Json.readField Json.asStr (some defaultOsKind) fields "os_kind".toList
  let osRaw ← Json.readField Json.asStr (some []) fields "os_raw".toList
  let addedAt ← Json.readField Json.asStr (some []) fields "added_at".toList
  let identityFile ← Json.readField Json.asStr (some []) fields "identity_file".toList
  let hasPassword ← Json.readField Json.asBool (some false) fields "has_password".toList
  return ⟨name, ssh, guestDir, osKind, osRaw, addedAt, identityFile, hasPassword⟩

def RemoteHost.ofJson (v : Json) : Option RemoteHost :=
  (v.readStruct fieldNames).bind RemoteHost.ofFields

def RemoteHost.toFields (host : RemoteHost) : Json.Fields :=
  [("name".toList, .str host.name), ("ssh".toList, .str host.ssh),
    ("guest_dir".toList, .str host.guestDir), ("os_kind".toList, .str host.osKind),
    ("os_raw".toList, .str host.osRaw), ("added_at".toList, .str host.addedAt),
    ("identity_file".toList, .str host.identityFile),
    ("has_password".toList, .bool host.hasPassword)]

def RemoteHost.toJson (host : RemoteHost) : Json := .obj host.toFields

def storeNames : List Str := ["hosts".toList]

def hostsOfItems (v : Json) : Option (List RemoteHost) :=
  v.asArray.bind (·.mapM RemoteHost.ofJson)

/-- `serde_json::from_str::<RemoteHosts>` -/
def hostsOfJson (v : Json) : Option (List RemoteHost) :=
  (v.readStruct storeNames).bind fun fields =>
    Json.readField hostsOfItems (some []) fields "hosts".toList

def hostsToJson (hosts : List RemoteHost) : Json :=
  .obj [("hosts".toList, .arr (hosts.map RemoteHost.toJson))]

/-! ## The commands -/

/-- `from_str(&text).unwrap_or_default()` -/
def parse (content : Content Json) : List RemoteHost := (content.json.bind hostsOfJson).getD []

def load (s : Stores) : Except String (List RemoteHost) :=
  match s.remoteHosts with
  | none => .ok []
  | some content => if content.readable then .ok (parse content) else .error "read remote-hosts.json"

def written (hosts : List RemoteHost) : Content Json := ⟨true, some (hostsToJson hosts), []⟩

/-- The new text is written beside the file and renamed to it; an error leaves the file. -/
def save (w : World) (hosts : List RemoteHost) (s : Stores) : Except String Unit × Stores :=
  if w.savesRemotes then (.ok (), { s with remoteHosts := some (written hosts) })
  else (.error "write remote-hosts.json", s)

def sanitizeStep (out : Str) (ch : Char) : Str :=
  if ch.isAlphanum || ch == '.' || ch == '_' || ch == '-' then out ++ [ch]
  else if out.getLast? = some '_' then out
  else out ++ ['_']

def sanitizeId (value : Str) : Str :=
  let out := Text.trimMatches (· == '_') ((value.map Char.toLower).foldl sanitizeStep [])
  if out = [] then "host".toList else out

def keychainAccount (name : Str) : Str := "remote:".toList ++ sanitizeId name

structure RemoteRecord where
  id : Str
  name : Str
  sshUser : Str
  sshHost : Str
  guestDir : Str
  osRaw : Str
  osKind : Str
  identityFile : Str
  hasPassword : Bool

/-- `str::split_once` at a character. -/
def splitOnce (at' : Char) (text : Str) : Option (Str × Str) :=
  if at' ∈ text then some (text.takeWhile (· ≠ at'), (text.dropWhile (· ≠ at')).tail) else none

/-- A host without a user is left out. -/
def recordOf (host : RemoteHost) : Option RemoteRecord :=
  (splitOnce '@' host.ssh).map fun (user, sshHost) =>
    ⟨keychainAccount host.name, host.name, user, sshHost, host.guestDir, host.osRaw, host.osKind,
      host.identityFile, host.hasPassword⟩

def records (s : Stores) : Except String (List RemoteRecord) :=
  (load s).map fun hosts => hosts.filterMap recordOf

def removeName (w : World) (name : Str) (s : Stores) : Except String Bool × Stores :=
  match load s with
  | .error e => (.error e, s)
  | .ok hosts =>
    match save w (hosts.filter (·.name ≠ name)) s with
    | (.error e, s) => (.error e, s)
    | (.ok (), s) =>
      (.ok (decide ((hosts.filter (·.name ≠ name)).length ≠ hosts.length)),
        (hosts.filter (·.name = name)).foldl
          (fun s host => if host.hasPassword then deletePassword w (keychainAccount host.name) s else s)
          s)

def removeCmd (w : World) (name : Str) (s : Stores) : Except String Unit × Stores :=
  match removeName w name s with
  | (.error e, s) => (.error e, s)
  | (.ok true, s) => (.ok (), s)
  | (.ok false, s) => (.error ("no such remote: " ++ String.ofList name), s)

def setHasPassword (w : World) (name : Str) (present : Bool) (s : Stores) :
    Except String Unit × Stores :=
  match load s with
  | .error e => (.error e, s)
  | .ok hosts =>
    if hosts.any (·.name = name) then
      save w (hosts.map fun host =>
        if host.name = name then { host with hasPassword := present } else host) s
    else (.error ("no such remote: " ++ String.ofList name), s)

structure AddRemoteInput where
  name : Str
  ssh : Str
  guestDir : Option Str
  osKind : Str
  osRaw : Str
  identityFile : Option Str
  passwordStdin : Bool

/-- The end of line that a terminal or `echo` adds is not part of the password. -/
def readPasswordStdin (w : World) : Except String Str :=
  match w.stdin with
  | none => .error "read password from stdin"
  | some text => .ok (text.rdropWhile fun c => c == '\r' || c == '\n')

def readPassword (w : World) (input : AddRemoteInput) : Except String (Option Str) :=
  if input.passwordStdin then (readPasswordStdin w).map some else .ok none

/-- Whether there is a password now; without one the entry is deleted. -/
def storePassword (w : World) (account : Str) (password : Option Str) (s : Stores) :
    Except String (Bool × Stores) :=
  match password with
  | some (c :: rest) => (setPassword w account (c :: rest) s).map fun s => (true, s)
  | _ => .ok (false, deletePassword w account s)

def addCmd (w : World) (input : AddRemoteInput) (s : Stores) : Except String Unit × Stores :=
  if Text.trim input.name = [] then (.error "--name required", s)
  else if '@' ∉ input.ssh then (.error "--ssh must be user@host", s)
  else match input.guestDir.or w.guestDir with
  | none =>
    (.error "guest dir is not configured; set --guest-dir PATH or VBOX_GUEST_DIR", s)
  | some guestDir =>
    match readPassword w input with
    | .error e => (.error e, s)
    | .ok password =>
      match storePassword w (keychainAccount input.name) password s with
      | .error e => (.error e, s)
      | .ok (hasPassword, s) =>
        match load s with
        | .error e => (.error e, s)
        | .ok hosts =>
          save w (hosts.filter (·.name ≠ input.name) ++
            [⟨input.name, input.ssh, guestDir, input.osKind, input.osRaw, w.now,
              input.identityFile.getD [], hasPassword⟩]) s

/-! ## The records of a file -/

/-- The records that stand where the program looks. -/
def items (content : Content Json) : List Json :=
  content.json.elim [] fun v =>
    (Json.valuesOf (v.structFields storeNames) "hosts".toList).flatMap fun v => v.asArray.getD []

def recordsOf (content : Content Json) : List Json := content.elsewhere ++ items content

def keys (r : Json) : List Str := (r.structFields fieldNames).map Prod.fst

/-- What a record says: a field that is missing says its default. -/
def view (r : Json) (name : Str) : Option Json :=
  (Json.field? (r.structFields fieldNames) name).or (Json.field? defaults name)

def nameOf (r : Json) : Option Str := (view r "name".toList).bind Json.asStr

section Records

variable {r : Json} {host : RemoteHost} {k : Str}

theorem field?_defaults_of_not_mem (h : k ∉ fieldNames) : Json.field? defaults k = none := by
  have hsub : defaults.map Prod.fst ⊆ fieldNames := by decide
  exact Json.field?_eq_none_iff.2 fun hmem => h (hsub hmem)

/-- Each field is written as it was read. -/
theorem view_toJson (h : RemoteHost.ofJson r = some host) (hk : k ∈ fieldNames) :
    view host.toJson k = view r k := by
  obtain ⟨fields, hread, hhost⟩ := Option.bind_eq_some_iff.1 h
  simp only [RemoteHost.ofFields, Option.bind_eq_bind, Option.bind_eq_some_iff, Option.pure_def,
    Option.some.injEq] at hhost
  obtain ⟨name, hname, ssh, hssh, guestDir, hguestDir, osKind, hosKind, osRaw, hosRaw, addedAt,
    haddedAt, identityFile, hidentityFile, hasPassword, hhasPassword, rfl⟩ := hhost
  have hstr : ∀ v s, Json.asStr v = some s → v = .str s := fun v s => Json.eq_str_of_asStr
  have hbool : ∀ v b, Json.asBool v = some b → v = .bool b := fun v b => Json.eq_bool_of_asBool
  rw [view, view, Json.structFields_of_readStruct hread]
  simp only [fieldNames, List.map_cons, List.map_nil, List.mem_cons, List.not_mem_nil,
    or_false] at hk
  rcases hk with rfl | rfl | rfl | rfl | rfl | rfl | rfl | rfl
  · exact (Json.readField_eq_some hstr hname).symm
  · exact (Json.readField_eq_some hstr hssh).symm
  · exact (Json.readField_eq_some hstr hguestDir).symm
  · exact (Json.readField_eq_some hstr hosKind).symm
  · exact (Json.readField_eq_some hstr hosRaw).symm
  · exact (Json.readField_eq_some hstr haddedAt).symm
  · exact (Json.readField_eq_some hstr hidentityFile).symm
  · exact (Json.readField_eq_some hbool hhasPassword).symm

theorem view_toJson_of_not_mem (hk : k ∉ fieldNames) : view host.toJson k = none := by
  rw [view, field?_defaults_of_not_mem hk, Option.or_none, Json.field?_eq_none_iff]
  exact hk

/-- A record that says no more than a host has no field that the type lacks. -/
theorem mem_fieldNames_of_view (h : view host.toJson = view r) : ∀ k ∈ keys r, k ∈ fieldNames := by
  intro k hk
  by_contra hnot
  have hnone : view r k = none := by rw [← h, view_toJson_of_not_mem hnot]
  exact Json.field?_eq_none_iff.1 (Option.or_eq_none_iff.1 hnone).1 hk

/-- A record is written as it was read if and only if all of its fields are fields of the type. -/
theorem view_toJson_iff (h : RemoteHost.ofJson r = some host) :
    view host.toJson = view r ↔ ∀ k ∈ keys r, k ∈ fieldNames := by
  constructor
  · exact mem_fieldNames_of_view
  · intro hkeys
    funext k
    by_cases hk : k ∈ fieldNames
    · exact view_toJson h hk
    · rw [view_toJson_of_not_mem hk, view, field?_defaults_of_not_mem hk, Option.or_none, eq_comm,
        Json.field?_eq_none_iff]
      exact fun hmem => hk (hkeys k hmem)

theorem nameOf_toJson : nameOf host.toJson = some host.name := rfl

theorem nameOf_of_ofJson (h : RemoteHost.ofJson r = some host) : nameOf r = some host.name := by
  rw [nameOf, ← view_toJson h (by decide), ← nameOf, nameOf_toJson]

end Records

/-! ## What a rewritten file keeps -/

/-- The records that do not have the name. -/
def othersOf (name : Str) (rs : List Json) : List Json := rs.filter fun r => nameOf r ≠ some name

/-- Every record of another name is still there, and says the same. -/
def Kept (name : Str) (old new : List Json) : Prop :=
  List.Subperm ((othersOf name old).map view) ((othersOf name new).map view)

/-- Every record of another name stands where the program looks, in a file that it reads, and has no
field that the type lacks. -/
def ReadWhole (name : Str) (content : Content Json) : Prop :=
  (∀ r ∈ content.elsewhere, nameOf r = some name) ∧
    ∀ r ∈ items content, nameOf r ≠ some name →
      (content.json.bind hostsOfJson).isSome = true ∧ ∀ k ∈ keys r, k ∈ fieldNames

section Rewrite

variable {name : Str} {content : Content Json} {hosts hosts' : List RemoteHost}

/-- The host that a record is read as. -/
abbrev ReadAs (r : Json) (host : RemoteHost) : Prop := RemoteHost.ofJson r = some host

theorem forall₂_of_mapM {rs : List Json} (h : rs.mapM RemoteHost.ofJson = some hosts) :
    List.Forall₂ ReadAs rs hosts := by
  induction rs generalizing hosts with
  | nil =>
    obtain rfl := Option.some.inj h
    exact .nil
  | cons r rs ih =>
    rw [List.mapM_cons] at h
    obtain ⟨host, hhost, h⟩ := Option.bind_eq_some_iff.1 h
    obtain ⟨rest, hrest, h⟩ := Option.bind_eq_some_iff.1 h
    obtain rfl := Option.some.inj h
    exact .cons hhost (ih hrest)

/-- In a file that is read, the records are the hosts. -/
theorem forall₂_items (h : content.json.bind hostsOfJson = some hosts) :
    List.Forall₂ ReadAs (items content) hosts := by
  obtain ⟨v, hjson, hv⟩ := Option.bind_eq_some_iff.1 h
  obtain ⟨fields, hread, hfield⟩ := Option.bind_eq_some_iff.1 hv
  rw [items, hjson, Option.elim_some, Json.structFields_of_readStruct hread,
    Json.valuesOf_of_readStruct hread (by decide) (by decide)]
  unfold Json.readField at hfield
  split at hfield
  · rename_i v hv
    obtain ⟨rs, hrs, hmap⟩ := Option.bind_eq_some_iff.1 hfield
    rw [hv, Option.toList_some, List.flatMap_singleton, hrs, Option.getD_some]
    exact forall₂_of_mapM hmap
  · rename_i hnone
    obtain rfl := Option.some.inj hfield
    rw [hnone]
    exact .nil

theorem forall₂_othersOf (name : Str) (h : content.json.bind hostsOfJson = some hosts) :
    List.Forall₂ ReadAs (othersOf name (items content)) (hosts.filter (·.name ≠ name)) := by
  refine List.rel_filter ?_ (forall₂_items h)
  intro r host hread
  simp [nameOf_of_ofJson hread]

theorem othersOf_toJson : othersOf name (hosts.map RemoteHost.toJson) =
    (hosts.filter (·.name ≠ name)).map RemoteHost.toJson := by
  rw [othersOf, List.filter_map]
  congr 1
  apply List.filter_congr
  intro host _
  simp [nameOf_toJson]

theorem recordsOf_written : recordsOf (written hosts) = hosts.map RemoteHost.toJson := by
  rw [recordsOf, written, List.nil_append, items, Option.elim_some]
  exact List.flatMap_singleton _ _

theorem map_view_toJson {rs : List Json} (h : List.Forall₂ ReadAs rs hosts)
    (hkeys : ∀ r ∈ rs, ∀ k ∈ keys r, k ∈ fieldNames) :
    (hosts.map RemoteHost.toJson).map view = rs.map view := by
  induction h with
  | nil => rfl
  | cons hread hrest ih =>
    rw [List.forall_mem_cons] at hkeys
    rw [List.map_cons, List.map_cons, List.map_cons, (view_toJson_iff hread).2 hkeys.1, ih hkeys.2]

theorem kept_written_iff
    (hhosts : hosts'.filter (·.name ≠ name) = (parse content).filter (·.name ≠ name)) :
    Kept name (recordsOf content) (recordsOf (written hosts')) ↔ ReadWhole name content := by
  have helsewhere : othersOf name content.elsewhere = [] ↔
      ∀ r ∈ content.elsewhere, nameOf r = some name := by
    rw [othersOf, List.filter_eq_nil_iff]
    simp
  rw [Kept, recordsOf_written, othersOf_toJson, hhosts, recordsOf, othersOf, List.filter_append,
    ← othersOf, ← othersOf, ReadWhole, ← helsewhere, List.map_append]
  cases hparse : content.json.bind hostsOfJson with
  | none =>
    rw [parse, hparse]
    simp [List.subperm_nil, othersOf, List.filter_eq_nil_iff]
  | some hosts =>
    have hforall := forall₂_othersOf name hparse
    rw [parse, hparse, Option.getD_some]
    constructor
    · intro hsub
      have hlen := hsub.length_le
      rw [List.length_append, List.length_map, List.length_map, List.length_map, List.length_map,
        hforall.length_eq] at hlen
      refine ⟨List.eq_nil_of_length_eq_zero (by omega), ?_⟩
      intro r hr hname
      refine ⟨rfl, ?_⟩
      have hmem : view r ∈ (othersOf name (items content)).map view :=
        List.mem_map_of_mem (List.mem_filter.2 ⟨hr, by simpa using hname⟩)
      obtain ⟨v, hv, heq⟩ := List.mem_map.1 (hsub.subset (List.mem_append_right _ hmem))
      obtain ⟨host, -, rfl⟩ := List.mem_map.1 hv
      exact mem_fieldNames_of_view heq
    · rintro ⟨hnil, hwhole⟩
      rw [hnil, List.map_nil, List.nil_append, map_view_toJson hforall]
      intro r hr
      obtain ⟨hr, hname⟩ := List.mem_filter.1 hr
      exact (hwhole r hr (by simpa using hname)).2

end Rewrite

/-! ## What a command does -/

/-- The hosts that the program finds. -/
def stored (s : Stores) : List RemoteHost := s.remoteHosts.elim [] parse

def CannotRewrite (w : World) (s : Stores) : Prop :=
  (∃ content ∈ s.remoteHosts, content.readable = false) ∨ w.savesRemotes = false

/-- Load, change, save. -/
def rewrite (w : World) (change : List RemoteHost → List RemoteHost) (s : Stores) :
    Except String Unit × Stores :=
  match load s with
  | .error e => (.error e, s)
  | .ok hosts => save w (change hosts) s

def withHosts (s : Stores) (hosts : List RemoteHost) : Stores :=
  { s with remoteHosts := some (written hosts) }

section Commands

variable {w : World} {s : Stores} {name : Str} {input : AddRemoteInput}

theorem load_cases (s : Stores) :
    ((∃ content ∈ s.remoteHosts, content.readable = false) ∧ ∃ e, load s = .error e) ∨
      ((¬∃ content ∈ s.remoteHosts, content.readable = false) ∧ load s = .ok (stored s)) := by
  have h : load s = s.remoteHosts.elim (.ok []) fun content =>
      if content.readable then .ok (parse content) else .error "read remote-hosts.json" := by
    rw [load]
    cases s.remoteHosts <;> rfl
  exact load_cases_of_file h

theorem rewrite_cases (w : World) (change : List RemoteHost → List RemoteHost) (s : Stores) :
    (CannotRewrite w s ∧ ∃ e, rewrite w change s = (.error e, s)) ∨
      (¬CannotRewrite w s ∧ rewrite w change s = (.ok (), withHosts s (change (stored s)))) := by
  rw [rewrite, CannotRewrite]
  rcases load_cases s with ⟨hunreadable, e, hload⟩ | ⟨hreadable, hload⟩
  · rw [hload]
    exact .inl ⟨.inl hunreadable, e, rfl⟩
  · rw [hload, or_iff_right hreadable]
    cases hsaves : w.savesRemotes with
    | false => exact .inl ⟨rfl, "write remote-hosts.json", by simp [save, hsaves]⟩
    | true => exact .inr ⟨by simp, by simp [save, hsaves, withHosts]⟩

/-- Deleting the password of every removed host: they have one account. -/
theorem foldl_deletePassword (w : World) (name : Str) (hosts : List RemoteHost)
    (hname : ∀ host ∈ hosts, host.name = name) (s : Stores) :
    hosts.foldl (fun s host =>
        if host.hasPassword then deletePassword w (keychainAccount host.name) s else s) s =
      setEntry (keychainAccount name) (if hosts.any (·.hasPassword) then deleted w else none) s := by
  induction hosts generalizing s with
  | nil => rfl
  | cons host hosts ih =>
    rw [List.forall_mem_cons] at hname
    rw [List.foldl_cons, ih hname.2, List.any_cons, hname.1, deletePassword_eq]
    cases host.hasPassword with
    | false => rfl
    | true =>
      rw [if_pos rfl, Bool.true_or, if_pos rfl]
      split
      · exact setEntry_deleted_twice
      · rfl

/-- What removing a remote leaves at its account. -/
def removeEntry (w : World) (name : Str) (s : Stores) : Option (Option Str) :=
  if ((stored s).filter (·.name = name)).any (·.hasPassword) then deleted w else none

theorem removeName_cases (w : World) (name : Str) (s : Stores) :
    (CannotRewrite w s ∧ ∃ e, removeName w name s = (.error e, s)) ∨
      (¬CannotRewrite w s ∧ ∃ found, removeName w name s = (.ok found,
        setEntry (keychainAccount name) (removeEntry w name s)
          (withHosts s ((stored s).filter (·.name ≠ name))))) := by
  have hrewrite := rewrite_cases w (List.filter (·.name ≠ name)) s
  unfold rewrite at hrewrite
  unfold removeName
  rcases load_cases s with ⟨hunreadable, e, hload⟩ | ⟨hreadable, hload⟩
  · rw [hload]
    exact .inl ⟨.inl hunreadable, e, rfl⟩
  · rw [hload] at hrewrite ⊢
    rcases hrewrite with ⟨hcannot, e, hsave⟩ | ⟨hcan, hsave⟩
    · simp only [hsave]
      exact .inl ⟨hcannot, e, rfl⟩
    · have hfold := foldl_deletePassword w name ((stored s).filter (·.name = name)) (by simp)
      simp only at hsave
      simp only [hsave, hfold, removeEntry]
      exact .inr ⟨hcan, _, rfl⟩

theorem removeCmd_snd (w : World) (name : Str) (s : Stores) :
    (removeCmd w name s).2 = (removeName w name s).2 := by
  unfold removeCmd
  split <;> rename_i h <;> rw [h]

theorem setHasPassword_cases (w : World) (name : Str) (present : Bool) (s : Stores) :
    ((CannotRewrite w s ∨ ∀ host ∈ stored s, host.name ≠ name) ∧
        ∃ e, setHasPassword w name present s = (.error e, s)) ∨
      (¬(CannotRewrite w s ∨ ∀ host ∈ stored s, host.name ≠ name) ∧
        setHasPassword w name present s = (.ok (), withHosts s ((stored s).map fun host =>
          if host.name = name then { host with hasPassword := present } else host))) := by
  have hrewrite := rewrite_cases w (List.map fun host =>
    if host.name = name then { host with hasPassword := present } else host) s
  unfold rewrite at hrewrite
  unfold setHasPassword
  rcases load_cases s with ⟨hunreadable, e, hload⟩ | ⟨hreadable, hload⟩
  · rw [hload]
    exact .inl ⟨.inl (.inl hunreadable), e, rfl⟩
  · rw [hload] at hrewrite ⊢
    by_cases hany : ∃ host ∈ stored s, host.name = name
    · have hfound : ¬∀ host ∈ stored s, host.name ≠ name := by
        simpa using hany
      simp only [if_pos (show (stored s).any (·.name = name) = true by simpa using hany),
        or_iff_left hfound]
      exact hrewrite
    · have hnone : ∀ host ∈ stored s, host.name ≠ name := by
        simpa using hany
      simp only [if_neg (show ¬(stored s).any (·.name = name) = true by simpa using hany)]
      exact .inl ⟨.inr hnone, _, rfl⟩

theorem filter_mark (hosts : List RemoteHost) (present : Bool) :
    (hosts.map fun host =>
        if host.name = name then { host with hasPassword := present } else host).filter
          (·.name ≠ name) =
      hosts.filter (·.name ≠ name) := by
  induction hosts with
  | nil => rfl
  | cons host hosts ih =>
    rw [List.map_cons, List.filter_cons, List.filter_cons, ih]
    by_cases hname : host.name = name
    · rw [if_pos hname, if_neg (by simp [hname]), if_neg (by simp [hname])]
    · rw [if_neg hname]

/-- A check fails before the keychain is touched. -/
def Rejected (w : World) (input : AddRemoteInput) : Prop :=
  Text.trim input.name = [] ∨ '@' ∉ input.ssh ∨ (input.guestDir = none ∧ w.guestDir = none) ∨
    (input.passwordStdin = true ∧ w.stdin = none)

/-- The password that is given; none is as good as an empty one. -/
def givenPassword (w : World) (input : AddRemoteInput) : Str :=
  if input.passwordStdin then
    (w.stdin.getD []).rdropWhile fun c => c == '\r' || c == '\n'
  else []

theorem storePassword_cases (w : World) (account : Str) {given : Option Str} {password : Str}
    (hgiven : given.getD [] = password) (s : Stores) :
    (KeychainRefuses w password ∧ ∃ e, storePassword w account given s = .error e) ∨
      (¬KeychainRefuses w password ∧ ∃ has, storePassword w account given s =
        .ok (has, setEntry account (passwordEntry w password) s)) := by
  subst hgiven
  match given with
  | none =>
    refine .inr ⟨fun h => h.1 rfl, false, ?_⟩
    simp only [storePassword, deletePassword_eq]
    rfl
  | some [] =>
    refine .inr ⟨fun h => h.1 rfl, false, ?_⟩
    simp only [storePassword, deletePassword_eq]
    rfl
  | some (c :: rest) =>
    rcases setPassword_cases w account s (List.cons_ne_nil c rest) with
      ⟨hrefuses, e, he⟩ | ⟨haccepts, hok⟩
    · exact .inl ⟨hrefuses, e, by rw [storePassword, he]; rfl⟩
    · exact .inr ⟨haccepts, true, by rw [storePassword, hok]; rfl⟩

theorem addCmd_of_rejected (h : Rejected w input) (s : Stores) :
    ∃ e, addCmd w input s = (.error e, s) := by
  unfold addCmd
  split
  · exact ⟨_, rfl⟩
  · split
    · exact ⟨_, rfl⟩
    · rename_i hname hssh
      rcases h with h | h | ⟨hinput, hw⟩ | ⟨hasked, hstdin⟩
      · exact absurd h hname
      · exact absurd h hssh
      · rw [hinput, hw]
        exact ⟨_, rfl⟩
      · have hread : readPassword w input = .error "read password from stdin" := by
          simp [readPassword, readPasswordStdin, hasked, hstdin, Except.map]
        split
        · exact ⟨_, rfl⟩
        · rw [hread]
          exact ⟨_, rfl⟩

theorem readPassword_of_not_rejected (h : ¬Rejected w input) :
    ∃ given, readPassword w input = .ok given ∧ given.getD [] = givenPassword w input := by
  simp only [Rejected, not_or, not_and] at h
  cases hasked : input.passwordStdin with
  | false => exact ⟨none, by simp [readPassword, hasked], by simp [givenPassword, hasked]⟩
  | true =>
    obtain ⟨text, htext⟩ := Option.ne_none_iff_exists'.1 (h.2.2.2 hasked)
    refine ⟨some (text.rdropWhile fun c => c == '\r' || c == '\n'), ?_, ?_⟩
    · simp [readPassword, readPasswordStdin, hasked, htext, Except.map]
    · simp [givenPassword, hasked, htext]

theorem addCmd_cases (w : World) (input : AddRemoteInput) (s : Stores) :
    (∃ e, addCmd w input s = (.error e, s) ∧
        (Rejected w input ∨ KeychainRefuses w (givenPassword w input))) ∨
      (¬(Rejected w input ∨ KeychainRefuses w (givenPassword w input)) ∧
        ∃ host : RemoteHost, host.name = input.name ∧ addCmd w input s =
          rewrite w (fun hosts => hosts.filter (·.name ≠ input.name) ++ [host])
            (setEntry (keychainAccount input.name) (passwordEntry w (givenPassword w input)) s)) := by
  by_cases hrejected : Rejected w input
  · obtain ⟨e, he⟩ := addCmd_of_rejected hrejected s
    exact .inl ⟨e, he, .inl hrejected⟩
  · obtain ⟨given, hread, hgiven⟩ := readPassword_of_not_rejected hrejected
    have hchecks := hrejected
    simp only [Rejected, not_or, not_and] at hchecks
    obtain ⟨guestDir, hdir⟩ : ∃ guestDir, input.guestDir.or w.guestDir = some guestDir := by
      rw [← Option.ne_none_iff_exists', Ne, Option.or_eq_none_iff]
      exact fun h => hchecks.2.2.1 h.1 h.2
    unfold addCmd
    simp only [if_neg hchecks.1, if_neg hchecks.2.1, hdir, hread]
    rcases storePassword_cases w (keychainAccount input.name) hgiven s with
      ⟨hrefuses, e, hstore⟩ | ⟨haccepts, has, hstore⟩
    · rw [hstore]
      exact .inl ⟨e, rfl, .inr hrefuses⟩
    · rw [hstore]
      exact .inr ⟨not_or.2 ⟨hrejected, haccepts⟩, _, rfl, rfl⟩

end Commands

end Remote

end VBox.Cli
