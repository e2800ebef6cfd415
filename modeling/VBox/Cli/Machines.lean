import VBox.Cli.Remotes
import VBox.Lib.Maps
import VBox.Lib.Paths
import Mathlib.Data.List.Infix

/-!
# Cli.Machines

The machines that the command line knows (`crates/vbox-cli/src/machines/`, `ssh.rs`): the virtual
machines that `prlctl` lists and the saved remotes. What a user sets for a machine is kept in
`machines.json` under the machine's uuid; the record of a virtual machine reads it from there, the
record of a remote is taken from `remote-hosts.json` alone.

* `changeEntry_cases`, `rewrite_cases`: a command on the overrides as its way to a save or to an
  error.
* `kept_written_iff`: what a file that is written anew keeps of the one before.
* `set_read_back_iff`: a value that was set is read back if and only if the target is a virtual
  machine, or the record had the value before.
-/

namespace VBox.Cli

structure MachineRecord where
  uuid : Str
  name : Str
  status : Str
  ip : Str
  osRaw : Str
  osKind : Str
  sshUser : Str
  sshHost : Str
  guestDir : Str
  identityFile : Str
  hasPassword : Bool
  deriving DecidableEq

/-! ## `kind.rs` -/

inductive MachineKind where
  | parallels (uuid : Str)
  | remote (name : Str)

namespace MachineKind

def fromRecord (record : MachineRecord) : MachineKind :=
  if "remote:".toList.isPrefixOf record.uuid then remote record.name else parallels record.uuid

def keychainAccount : MachineKind → Str
  | remote name => Remote.keychainAccount name
  | parallels uuid => "parallels:".toList ++ uuid

end MachineKind

namespace Machines

/-! ## The overrides -/

abbrev Overrides := AList fun _ : Str => Json

/-- The fields of an object into a `BTreeMap`, one after another. -/
def overridesOfFields (fields : Json.Fields) : Overrides :=
  AList.collect Prod.fst Prod.snd fields

def parse (content : Content (Str × Json)) : Overrides :=
  ((content.json.bind Json.asObject).map overridesOfFields).getD ∅

def loadOverrides (s : Stores) : Except String Overrides :=
  match s.machines with
  | none => .ok ∅
  | some content => if content.readable then .ok (parse content) else .error "read machines.json"

def written (overrides : Overrides) : Content (Str × Json) :=
  ⟨true, some (.obj (overrides.entries.map fun e => (e.1, e.2))), []⟩

def saveOverrides (w : World) (overrides : Overrides) (s : Stores) : Except String Unit × Stores :=
  if w.savesMachines then (.ok (), { s with machines := some (written overrides) })
  else (.error "write machines.json", s)

/-- Load, change, save. -/
def rewrite (w : World) (change : Overrides → Overrides) (s : Stores) :
    Except String Unit × Stores :=
  match loadOverrides s with
  | .error e => (.error e, s)
  | .ok overrides => saveOverrides w (change overrides) s

/-- Change the fields of one entry, which is made if it is missing. -/
def changeEntry (w : World) (uuid : Str) (change : Json.Fields → Json.Fields) (s : Stores) :
    Except String Unit × Stores :=
  match loadOverrides s with
  | .error e => (.error e, s)
  | .ok overrides =>
    match ((overrides.lookup uuid).getD (.obj [])).asObject with
    | none => (.error "override record is not an object", s)
    | some fields => saveOverrides w (overrides.insert uuid (.obj (change fields))) s

def dropOverride (w : World) (uuid : Str) (s : Stores) : Except String Unit × Stores :=
  rewrite w (fun overrides => overrides.erase uuid) s

/-! ## The records -/

/-- `value.get(name).and_then(Value::as_str).unwrap_or_default()` -/
def strField (v : Json) (name : Str) : Str := ((v.get? name).bind Json.asStr).getD []

def vmUuid (machine : Json) : Str :=
  Text.trimMatches (fun c => c == '{' || c == '}') (strField machine "uuid".toList)

def vmName (machine : Json) : Str := strField machine "name".toList

def contains (hay : Str) (needle : String) : Bool := decide (needle.toList <:+: hay)

def classifyOs (osRaw name : Str) : Str :=
  let hay := (osRaw ++ ' ' :: name).map Char.toLower
  if ["windows", "win-", "win10", "win11"].any (contains hay) then "windows".toList
  else if ["macos", "darwin", "osx"].any (contains hay) then "macos".toList
  else if ["fedora", "ubuntu", "debian", "linux", "centos", "rhel", "arch", "suse", "mint"].any
      (contains hay) then "linux".toList
  else "unknown".toList

def defaultUser (w : World) : Except String Str :=
  match ((w.guest.bind (Remote.splitOnce '@')).map Prod.fst).filter (· ≠ []) with
  | some user => .ok user
  | none =>
    match w.hostUser with
    | some user => .ok user
    | none => .error ("could not infer default SSH user; use --guest USER@HOST, VBOX_GUEST, or " ++
        "`vbox machines set <target> ssh_user <user>`")

def defaultGuestDir (w : World) (user : Str) : Str :=
  (w.guestDir.filter (· ≠ [])).getD ("/home/".toList ++ user ++ "/vbox".toList)

/-- The keys that `records` shows as text. -/
inductive ProjectedKey where
  | sshUser
  | sshHost
  | guestDir
  | identityFile
  deriving DecidableEq

namespace ProjectedKey

def key : ProjectedKey → Str
  | sshUser => "ssh_user".toList
  | sshHost => "ssh_host".toList
  | guestDir => "guest_dir".toList
  | identityFile => "identity_file".toList

def of (row : MachineRecord) : ProjectedKey → Str
  | sshUser => row.sshUser
  | sshHost => row.sshHost
  | guestDir => row.guestDir
  | identityFile => row.identityFile

def put (row : MachineRecord) (value : Str) : ProjectedKey → MachineRecord
  | sshUser => { row with sshUser := value }
  | sshHost => { row with sshHost := value }
  | guestDir => { row with guestDir := value }
  | identityFile => { row with identityFile := value }

end ProjectedKey

/-- What an override says under a key, as text. -/
def overrideStr (ov : Option Json.Fields) (k : ProjectedKey) : Option Str :=
  (ov.bind (Json.field? · k.key)).bind Json.asStr

/-- A machine as `prlctl` describes it, with the defaults. One without a uuid is left out. -/
def listed (w : World) (defaultUser defaultDir : Str) (machine : Json) : Option MachineRecord :=
  let uuid := vmUuid machine
  let ip := if strField machine "ip_configured".toList = [] then ['-']
    else strField machine "ip_configured".toList
  let info := w.prlctlInfo (strField machine "uuid".toList)
  let osRaw := strField ((info.asArray.bind List.head?).getD info) "OS".toList
  let defaultSshHost := if ip = ['-'] then [] else ip
  if uuid = [] then none
  else some
    { uuid := uuid
      name := vmName machine
      status := strField machine "status".toList
      ip := ip
      osRaw := osRaw
      osKind := classifyOs osRaw (vmName machine)
      sshUser := defaultUser
      sshHost := defaultSshHost
      guestDir := defaultDir
      identityFile := []
      hasPassword := false }

/-- The override's values in place of the defaults. -/
def override (row : MachineRecord) (ov : Option Json.Fields) : MachineRecord :=
  { row with
    sshUser := (overrideStr ov .sshUser).getD row.sshUser
    sshHost := ((overrideStr ov .sshHost).filter (· ≠ [])).getD row.sshHost
    guestDir := ((overrideStr ov .guestDir).filter (· ≠ [])).getD row.guestDir
    identityFile := (overrideStr ov .identityFile).getD row.identityFile
    hasPassword := ((ov.bind (Json.field? · "has_password".toList)).bind Json.asBool).getD
      row.hasPassword }

def vmRow (w : World) (overrides : Overrides) (defaultUser defaultDir : Str) (machine : Json) :
    Option MachineRecord :=
  (listed w defaultUser defaultDir machine).map fun row =>
    override row ((overrides.lookup row.uuid).bind Json.asObject)

/-- The machines that `prlctl` lists. -/
def machines (w : World) : List Json := w.prlctlList.asArray.getD []

def vmRows (w : World) (overrides : Overrides) (user : Str) : List MachineRecord :=
  (machines w).filterMap (vmRow w overrides user (defaultGuestDir w user))

def remoteRow (row : Remote.RemoteRecord) : MachineRecord where
  uuid := row.id
  name := row.name
  status := "remote".toList
  ip := if row.sshHost = [] then ['-'] else row.sshHost
  osRaw := row.osRaw
  osKind := row.osKind
  sshUser := row.sshUser
  sshHost := row.sshHost
  guestDir := row.guestDir
  identityFile := row.identityFile
  hasPassword := row.hasPassword

def records (w : World) (s : Stores) : Except String (List MachineRecord) :=
  match loadOverrides s with
  | .error e => .error e
  | .ok overrides =>
    match defaultUser w with
    | .error e => .error e
    | .ok user =>
      match Remote.records s with
      | .error e => .error e
      | .ok remotes => .ok (vmRows w overrides user ++ remotes.map remoteRow)

def isTarget (target : Str) (row : MachineRecord) : Bool := row.uuid = target || row.name = target

def findOne (w : World) (target : Str) (s : Stores) : Except String MachineRecord :=
  match records w s with
  | .error e => .error e
  | .ok rows =>
    match rows.find? (isTarget target) with
    | none => .error ("machine not found: " ++ String.ofList target)
    | some row => .ok row

/-! ## `password.rs` -/

def markOverridePassword (w : World) (uuid : Str) (present : Bool) (s : Stores) :
    Except String Unit × Stores :=
  changeEntry w uuid (fun fields =>
    if present then Json.insert fields "has_password".toList (.bool true)
    else Json.remove fields "has_password".toList) s

def markHasPassword (w : World) (kind : MachineKind) (present : Bool) (s : Stores) :
    Except String Unit × Stores :=
  match kind with
  | .remote name => Remote.setHasPassword w name present s
  | .parallels uuid => markOverridePassword w uuid present s

def passwordClear (w : World) (record : MachineRecord) (s : Stores) : Except String Unit × Stores :=
  let kind := MachineKind.fromRecord record
  markHasPassword w kind false (deletePassword w kind.keychainAccount s)

def passwordSet (w : World) (record : MachineRecord) (password : Str) (s : Stores) :
    Except String Unit × Stores :=
  if password = [] then passwordClear w record s
  else
    let kind := MachineKind.fromRecord record
    match setPassword w kind.keychainAccount password s with
    | .error e => (.error e, s)
    | .ok s => markHasPassword w kind true s

/-! ## The commands -/

def configKeys : List Str :=
  ["ssh_user", "ssh_host", "ssh_port", "identity_file", "guest_dir", "port", "socket", "width",
    "height", "debug", "tls", "notes", "password"].map String.toList

def validateConfigKey (key : Str) : Except String Unit :=
  if key ∈ configKeys then .ok () else .error ("unsupported config key: " ++ String.ofList key)

def setCmd (w : World) (target key value : Str) (s : Stores) : Except String Unit × Stores :=
  match validateConfigKey key with
  | .error e => (.error e, s)
  | .ok () =>
    match findOne w target s with
    | .error e => (.error e, s)
    | .ok row =>
      if key = "password".toList then passwordSet w row value s
      else changeEntry w row.uuid (fun fields => Json.insert fields key (.str value)) s

/-- An entry that is not an object stays as it is. -/
def unsetEntry (uuid key : Str) (overrides : Overrides) : Overrides :=
  match (overrides.lookup uuid).bind Json.asObject with
  | none => overrides
  | some fields => overrides.insert uuid (.obj (Json.remove fields key))

def unsetCmd (w : World) (target key : Str) (s : Stores) : Except String Unit × Stores :=
  match validateConfigKey key with
  | .error e => (.error e, s)
  | .ok () =>
    match findOne w target s with
    | .error e => (.error e, s)
    | .ok row =>
      if key = "password".toList then passwordClear w row s
      else rewrite w (unsetEntry row.uuid key) s

end Machines

/-! ## `ssh.rs` -/

def expandTilde (w : World) (value : Str) : Str :=
  match value with
  | '~' :: '/' :: rest =>
    match w.home with
    | some home => Paths.join home rest
    | none => value
  | _ => value

def optionPath (w : World) (value : Str) : Option Str :=
  if value = [] then none else some (expandTilde w value)

structure SshCreds where
  identityFile : Option Str
  keychainAccount : Option Str

namespace SshCreds

def ofRemote (w : World) (row : Remote.RemoteRecord) : Option SshCreds :=
  if row.identityFile ≠ [] ∨ row.hasPassword = true then
    some ⟨optionPath w row.identityFile, if row.hasPassword then some row.id else none⟩
  else none

def ofRecord (w : World) (row : MachineRecord) : Option SshCreds :=
  if row.identityFile ≠ [] ∨ row.hasPassword = true then
    some ⟨optionPath w row.identityFile,
      if row.hasPassword then some (MachineKind.fromRecord row).keychainAccount else none⟩
  else none

def fromContext (w : World) (s : Stores) : SshCreds :=
  match w.guest.filter (· ≠ []) with
  | none => ⟨none, none⟩
  | some guest =>
    let remote := (Remote.records s).toOption.bind
      (List.find? fun row => row.sshUser ++ '@' :: row.sshHost = guest)
    let machine := (Machines.records w s).toOption.bind
      (List.find? fun row => row.sshUser ++ '@' :: row.sshHost = guest)
    ((remote.bind (ofRemote w)).or (machine.bind (ofRecord w))).getD ⟨none, none⟩

end SshCreds

namespace Machines

/-! ## The file of the overrides -/

section Overrides

variable {w : World} {s : Stores} {overrides : Overrides} {fields : Json.Fields} {k uuid : Str}

/-- The overrides that the program finds. -/
def stored (s : Stores) : Overrides := s.machines.elim ∅ parse

def withOverrides (s : Stores) (overrides : Overrides) : Stores :=
  { s with machines := some (written overrides) }

def CannotRewrite (w : World) (s : Stores) : Prop :=
  (∃ content ∈ s.machines, content.readable = false) ∨ w.savesMachines = false

theorem lookup_overridesOfFields : (overridesOfFields fields).lookup k = Json.field? fields k := by
  induction fields using List.reverseRecOn with
  | nil => rfl
  | append_singleton fields f ih =>
    obtain ⟨name, v⟩ := f
    rw [overridesOfFields, AList.collect, List.foldl_append, List.foldl_cons, List.foldl_nil,
      ← AList.collect, ← overridesOfFields, AList.lookup_insert_eq, Json.field?_concat, ih]

theorem field?_entries :
    Json.field? (overrides.entries.map fun e => (e.1, e.2)) k = overrides.lookup k := by
  apply Option.ext
  intro v
  have hnodup : (overrides.entries.map fun e => (e.1, e.2)).map Prod.fst |>.Nodup := by
    rw [List.map_map]
    exact overrides.nodupKeys
  rw [← lookup_overridesOfFields, overridesOfFields, AList.lookup_collect hnodup,
    AList.lookup_eq_some_iff]
  constructor
  · rintro ⟨f, hf, rfl, rfl⟩
    obtain ⟨e, he, rfl⟩ := List.mem_map.1 hf
    exact he
  · intro he
    exact ⟨(k, v), List.mem_map.2 ⟨⟨k, v⟩, he, rfl⟩, rfl, rfl⟩

theorem lookup_stored_withOverrides :
    (stored (withOverrides s overrides)).lookup k = overrides.lookup k := by
  have hstored : stored (withOverrides s overrides) =
      overridesOfFields (overrides.entries.map fun e => (e.1, e.2)) := rfl
  rw [hstored, lookup_overridesOfFields, field?_entries]

theorem loadOverrides_cases (s : Stores) :
    ((∃ content ∈ s.machines, content.readable = false) ∧ ∃ e, loadOverrides s = .error e) ∨
      ((¬∃ content ∈ s.machines, content.readable = false) ∧
        loadOverrides s = .ok (stored s)) := by
  have h : loadOverrides s = s.machines.elim (.ok ∅) fun content =>
      if content.readable then .ok (parse content) else .error "read machines.json" := by
    rw [loadOverrides]
    cases s.machines <;> rfl
  exact load_cases_of_file h

theorem rewrite_cases (w : World) (change : Overrides → Overrides) (s : Stores) :
    (CannotRewrite w s ∧ ∃ e, rewrite w change s = (.error e, s)) ∨
      (¬CannotRewrite w s ∧ rewrite w change s = (.ok (), withOverrides s (change (stored s)))) := by
  rw [rewrite, CannotRewrite]
  rcases loadOverrides_cases s with ⟨hunreadable, e, hload⟩ | ⟨hreadable, hload⟩
  · rw [hload]
    exact .inl ⟨.inl hunreadable, e, rfl⟩
  · rw [hload, or_iff_right hreadable]
    cases hsaves : w.savesMachines with
    | false => exact .inl ⟨rfl, "write machines.json", by simp [saveOverrides, hsaves]⟩
    | true => exact .inr ⟨by simp, by simp [saveOverrides, hsaves, withOverrides]⟩

/-- The entry is there and is not an object. -/
def NotObject (s : Stores) (uuid : Str) : Prop :=
  (((stored s).lookup uuid).getD (.obj [])).asObject = none

theorem changeEntry_cases (w : World) (uuid : Str) (change : Json.Fields → Json.Fields)
    (s : Stores) :
    ((CannotRewrite w s ∨ NotObject s uuid) ∧ ∃ e, changeEntry w uuid change s = (.error e, s)) ∨
      (¬(CannotRewrite w s ∨ NotObject s uuid) ∧
        ∃ fields, (((stored s).lookup uuid).getD (.obj [])).asObject = some fields ∧
          changeEntry w uuid change s =
            (.ok (), withOverrides s ((stored s).insert uuid (.obj (change fields))))) := by
  unfold changeEntry
  rcases loadOverrides_cases s with ⟨hunreadable, e, hload⟩ | ⟨hreadable, hload⟩
  · rw [hload]
    exact .inl ⟨.inl (.inl hunreadable), e, rfl⟩
  · cases hentry : (((stored s).lookup uuid).getD (.obj [])).asObject with
    | none =>
      simp only [hload, hentry]
      exact .inl ⟨.inr hentry, _, rfl⟩
    | some fields =>
      have hobject : ¬NotObject s uuid := by simp [NotObject, hentry]
      have hrewrite := rewrite_cases w (fun overrides => overrides.insert uuid (.obj (change fields))) s
      rw [rewrite] at hrewrite
      simp only [hload, hentry, or_iff_left hobject] at hrewrite ⊢
      rcases hrewrite with hcannot | ⟨hcan, hsave⟩
      · exact .inl hcannot
      · exact .inr ⟨hcan, fields, rfl, hsave⟩

end Overrides

/-! ## What a rewritten file keeps -/

def fieldsOf (content : Content (Str × Json)) : Json.Fields :=
  (content.json.bind Json.asObject).getD []

def recordsOf (content : Content (Str × Json)) : List (Str × Json) :=
  content.elsewhere ++ fieldsOf content

/-- Every override of another machine is still there. -/
def Kept (uuid : Str) (old new : List (Str × Json)) : Prop :=
  List.Subperm (Json.remove old uuid) (Json.remove new uuid)

/-- Every override of another machine stands where the program looks, and no machine has two. -/
def ReadWhole (uuid : Str) (content : Content (Str × Json)) : Prop :=
  (∀ e ∈ content.elsewhere, e.1 = uuid) ∧
    ((Json.remove (fieldsOf content) uuid).map Prod.fst).Nodup

section Rewrite

variable {uuid k : Str} {v : Json} {content : Content (Str × Json)} {overrides : Overrides}

theorem lookup_parse : (parse content).lookup k = Json.field? (fieldsOf content) k := by
  rw [parse, fieldsOf]
  cases content.json.bind Json.asObject with
  | none => rfl
  | some fields => exact lookup_overridesOfFields

theorem recordsOf_written :
    recordsOf (written overrides) = overrides.entries.map fun e => (e.1, e.2) := rfl

theorem mem_recordsOf_written :
    (k, v) ∈ recordsOf (written overrides) ↔ overrides.lookup k = some v := by
  rw [AList.lookup_eq_some_iff, recordsOf_written, List.mem_map]
  constructor
  · rintro ⟨⟨k', v'⟩, hmem, heq⟩
    obtain ⟨rfl, rfl⟩ := Prod.mk.inj heq
    exact hmem
  · intro hmem
    exact ⟨⟨k, v⟩, hmem, rfl⟩

theorem nodup_remove_written :
    ((Json.remove (recordsOf (written overrides)) uuid).map Prod.fst).Nodup := by
  have hnodup : ((recordsOf (written overrides)).map Prod.fst).Nodup := by
    rw [recordsOf_written, List.map_map]
    exact overrides.nodupKeys
  exact hnodup.sublist (List.filter_sublist.map _)

/-- Where no name stands twice, a field is found if and only if it is there. -/
theorem field?_eq_some_iff {fields : Json.Fields} (hnodup : (fields.map Prod.fst).Nodup) :
    Json.field? fields k = some v ↔ (k, v) ∈ fields := by
  rw [← lookup_overridesOfFields, overridesOfFields, AList.lookup_collect hnodup]
  constructor
  · rintro ⟨⟨k', v'⟩, hmem, rfl, rfl⟩
    exact hmem
  · intro hmem
    exact ⟨(k, v), hmem, rfl, rfl⟩

theorem kept_written_iff (hlookup : ∀ k ≠ uuid, overrides.lookup k = (parse content).lookup k) :
    Kept uuid (recordsOf content) (recordsOf (written overrides)) ↔ ReadWhole uuid content := by
  have helsewhere : Json.remove content.elsewhere uuid = [] ↔
      ∀ e ∈ content.elsewhere, e.1 = uuid := by
    rw [Json.remove, List.filter_eq_nil_iff]
    simp
  have hnew : ∀ k v, (k, v) ∈ Json.remove (recordsOf (written overrides)) uuid ↔
      Json.field? (Json.remove (fieldsOf content) uuid) k = some v := by
    intro k v
    rw [Json.mem_remove, mem_recordsOf_written, Json.field?_remove]
    by_cases hk : k = uuid
    · simp [hk]
    · rw [hlookup k hk, lookup_parse, if_neg hk, and_iff_left hk]
  have hold : Json.remove (recordsOf content) uuid =
      Json.remove content.elsewhere uuid ++ Json.remove (fieldsOf content) uuid :=
    List.filter_append _ _
  rw [Kept, hold, ReadWhole, ← helsewhere]
  constructor
  · intro hsub
    have hkeys : (Json.remove (recordsOf (written overrides)) uuid).map Prod.fst ⊆
        (Json.remove (fieldsOf content) uuid).map Prod.fst := by
      intro k hk
      obtain ⟨⟨k, v⟩, hmem, rfl⟩ := List.mem_map.1 hk
      exact Json.mem_of_field? ((hnew k v).1 hmem)
    have hlen := (List.subperm_of_subset nodup_remove_written hkeys).length_le
    rw [List.length_map, List.length_map] at hlen
    have hperm := hsub.perm_of_length_le (by rw [List.length_append]; omega)
    have hnil : Json.remove content.elsewhere uuid = [] := by
      have heq := hperm.length_eq
      rw [List.length_append] at heq
      exact List.eq_nil_of_length_eq_zero (by omega)
    rw [hnil, List.nil_append] at hperm
    exact ⟨hnil, ((hperm.map Prod.fst).nodup_iff).2 nodup_remove_written⟩
  · rintro ⟨hnil, hnodup⟩
    rw [hnil, List.nil_append]
    refine List.Perm.subperm ((List.perm_ext_iff_of_nodup hnodup.of_map
      nodup_remove_written.of_map).2 ?_)
    rintro ⟨k, v⟩
    rw [hnew, field?_eq_some_iff hnodup]

end Rewrite

/-! ## Setting and reading back -/

section ReadBack

variable {w : World} {s : Stores} {target value user dir : Str} {k : ProjectedKey}
  {overrides overrides' : Overrides} {fields : Json.Fields} {uuid : Str} {row : MachineRecord}

@[simp] theorem of_put : k.of (k.put row value) = value := by
  cases k <;> rfl

@[simp] theorem uuid_put : (k.put row value).uuid = row.uuid := by
  cases k <;> rfl

@[simp] theorem name_put : (k.put row value).name = row.name := by
  cases k <;> rfl

/-- Put the value into the row with the uuid. -/
def putAt (k : ProjectedKey) (uuid value : Str) (row : MachineRecord) : MachineRecord :=
  if row.uuid = uuid then k.put row value else row

theorem isTarget_putAt : isTarget target (putAt k uuid value row) = isTarget target row := by
  rw [putAt]
  split
  · rw [isTarget, uuid_put, name_put, isTarget]
  · rfl

theorem bind_field?_of_entry
    (hfields : ((overrides.lookup uuid).getD (.obj [])).asObject = some fields) (key : Str) :
    ((overrides.lookup uuid).bind Json.asObject).bind (Json.field? · key) =
      Json.field? fields key := by
  cases hentry : overrides.lookup uuid with
  | none =>
    rw [hentry] at hfields
    obtain rfl := Option.some.inj hfields
    rfl
  | some v =>
    rw [hentry, Option.getD_some] at hfields
    rw [Option.bind_some, hfields, Option.bind_some]

theorem key_eq_key_iff {k k' : ProjectedKey} : k'.key = k.key ↔ k' = k := by
  constructor
  · intro h
    cases k <;> cases k' <;> first | rfl | exact absurd h (by decide)
  · rintro rfl
    rfl

theorem hasPassword_ne_key : "has_password".toList ≠ k.key := by
  cases k <;> decide

theorem overrideStr_insert {ov : Option Json.Fields}
    (hov : ∀ key, ov.bind (Json.field? · key) = Json.field? fields key) (k' : ProjectedKey) :
    overrideStr (some (Json.insert fields k.key (.str value))) k' =
      if k' = k then some value else overrideStr ov k' := by
  rw [overrideStr, Option.bind_some, Json.field?_insert, overrideStr, hov]
  by_cases hk : k' = k
  · rw [if_pos (key_eq_key_iff.2 hk), if_pos hk]
    rfl
  · rw [if_neg fun h => hk (key_eq_key_iff.1 h), if_neg hk]

/-- One more key in an override that was there, or that is made. -/
theorem override_insert (hvalue : value ≠ []) {ov : Option Json.Fields}
    (hov : ∀ key, ov.bind (Json.field? · key) = Json.field? fields key) :
    override row (some (Json.insert fields k.key (.str value))) = k.put (override row ov) value := by
  have hkept : (some value).filter (· ≠ []) = some value := by simp [Option.filter, hvalue]
  simp only [override, overrideStr_insert hov, Option.bind_some, Json.field?_insert, hov,
    if_neg hasPassword_ne_key]
  cases k with
  | sshUser => rfl
  | sshHost =>
    rw [if_pos rfl, hkept]
    rfl
  | guestDir =>
    rw [if_pos rfl, hkept]
    rfl
  | identityFile => rfl

theorem vmRow_set (hvalue : value ≠ [])
    (hfields : ((overrides.lookup uuid).getD (.obj [])).asObject = some fields) (machine : Json) :
    vmRow w (overrides.insert uuid (.obj (Json.insert fields k.key (.str value)))) user dir machine =
      (vmRow w overrides user dir machine).map (putAt k uuid value) := by
  rw [vmRow, vmRow, Option.map_map]
  congr 1
  funext row
  rw [Function.comp_apply, AList.lookup_insert_eq, putAt]
  have huuid : ∀ ov, (override row ov).uuid = row.uuid := fun _ => rfl
  rw [huuid]
  split
  · rename_i h
    rw [Option.bind_some, h]
    exact override_insert hvalue (bind_field?_of_entry hfields)
  · rfl

theorem vmRows_set (hvalue : value ≠ [])
    (hfields : ((overrides.lookup uuid).getD (.obj [])).asObject = some fields) :
    vmRows w (overrides.insert uuid (.obj (Json.insert fields k.key (.str value)))) user =
      (vmRows w overrides user).map (putAt k uuid value) := by
  rw [vmRows, vmRows, List.map_filterMap]
  exact List.filterMap_congr fun machine _ => vmRow_set hvalue hfields machine

theorem records_eq_ok {rows : List MachineRecord} (h : records w s = .ok rows) :
    ∃ user remotes, defaultUser w = .ok user ∧ Remote.records s = .ok remotes ∧
      rows = vmRows w (stored s) user ++ remotes.map remoteRow := by
  unfold records at h
  rcases loadOverrides_cases s with ⟨-, e, hload⟩ | ⟨-, hload⟩
  · rw [hload] at h
    cases h
  · simp only [hload] at h
    split at h
    · cases h
    · rename_i user huser
      split at h
      · cases h
      · rename_i remotes hremotes
        exact ⟨user, remotes, huser, hremotes, (Except.ok.inj h).symm⟩

theorem findOne_eq_ok (h : findOne w target s = .ok row) :
    ∃ rows, records w s = .ok rows ∧ rows.find? (isTarget target) = some row := by
  unfold findOne at h
  split at h
  · cases h
  · rename_i rows hrows
    split at h
    · cases h
    · rename_i row' hrow
      obtain rfl := Except.ok.inj h
      exact ⟨rows, hrows, hrow⟩

/-- A command that succeeds has put the value into the entry of the machine that it found. -/
theorem setCmd_eq_ok (h : (setCmd w target k.key value s).1 = .ok ()) :
    ∃ row fields, findOne w target s = .ok row ∧
      (((stored s).lookup row.uuid).getD (.obj [])).asObject = some fields ∧
      (setCmd w target k.key value s).2 = withOverrides s ((stored s).insert row.uuid
        (.obj (Json.insert fields k.key (.str value)))) := by
  have hpassword : k.key ≠ "password".toList := by cases k <;> decide
  unfold setCmd at h ⊢
  split at h
  · cases h
  · rename_i hkey
    split at h
    · cases h
    · rename_i row hrow
      simp only [hrow]
      rw [if_neg hpassword] at h ⊢
      rcases changeEntry_cases w row.uuid (fun fields => Json.insert fields k.key (.str value)) s with
        ⟨-, e, herror⟩ | ⟨-, fields, hfields, hok⟩
      · rw [herror] at h
        cases h
      · exact ⟨row, fields, rfl, hfields, by rw [hok]⟩

/-- One of the machines that `prlctl` lists answers to the target. -/
def ListsVm (w : World) (target : Str) : Prop :=
  ∃ machine ∈ machines w, vmUuid machine ≠ [] ∧
    (vmUuid machine = target ∨ vmName machine = target)

theorem vmRow_eq_some {machine : Json} (h : vmRow w overrides user dir machine = some row) :
    vmUuid machine ≠ [] ∧ row.uuid = vmUuid machine ∧ row.name = vmName machine := by
  obtain ⟨base, hbase, rfl⟩ := Option.map_eq_some_iff.1 h
  simp only [listed, Option.ite_none_left_eq_some] at hbase
  obtain ⟨hne, hbase⟩ := hbase
  obtain rfl := Option.some.inj hbase
  exact ⟨hne, rfl, rfl⟩

theorem exists_vmRow (w : World) (overrides : Overrides) (user dir : Str) {machine : Json}
    (h : vmUuid machine ≠ []) : ∃ row, vmRow w overrides user dir machine = some row := by
  simp only [vmRow, listed, if_neg h, Option.map_some]
  exact ⟨_, rfl⟩

theorem find?_vmRows_eq_none_iff :
    (vmRows w overrides user).find? (isTarget target) = none ↔ ¬ListsVm w target := by
  rw [List.find?_eq_none, ← not_iff_not, not_not]
  simp only [not_forall, not_not, ListsVm, exists_prop, vmRows, List.mem_filterMap]
  constructor
  · rintro ⟨row, ⟨machine, hmachine, hrow⟩, htarget⟩
    obtain ⟨hne, huuid, hname⟩ := vmRow_eq_some hrow
    refine ⟨machine, hmachine, hne, ?_⟩
    rw [← huuid, ← hname]
    simpa [isTarget] using htarget
  · rintro ⟨machine, hmachine, hne, htarget⟩
    obtain ⟨row, hrow⟩ := exists_vmRow w overrides user (defaultGuestDir w user) hne
    obtain ⟨-, huuid, hname⟩ := vmRow_eq_some hrow
    refine ⟨row, ⟨machine, hmachine, hrow⟩, ?_⟩
    rw [← huuid, ← hname] at htarget
    simpa [isTarget] using htarget

theorem vmRows_congr (h : ∀ u, overrides'.lookup u = overrides.lookup u) :
    vmRows w overrides' user = vmRows w overrides user := by
  have hrow : vmRow w overrides' user (defaultGuestDir w user) =
      vmRow w overrides user (defaultGuestDir w user) := by
    funext machine
    simp only [vmRow, h]
  rw [vmRows, vmRows, hrow]

theorem records_withOverrides (overrides : Overrides) {remotes : List Remote.RemoteRecord}
    (huser : defaultUser w = .ok user) (hremotes : Remote.records s = .ok remotes) :
    records w (withOverrides s overrides) =
      .ok (vmRows w overrides user ++ remotes.map remoteRow) := by
  have hsame : Remote.records (withOverrides s overrides) = .ok remotes := hremotes
  have hlookup : ∀ u, (stored (withOverrides s overrides)).lookup u = overrides.lookup u :=
    fun _ => lookup_stored_withOverrides
  rcases loadOverrides_cases (withOverrides s overrides) with
    ⟨⟨content, hcontent, h⟩, -⟩ | ⟨-, hload⟩
  · obtain rfl := Option.some.inj hcontent
    cases h
  · simp only [records, hload, huser, hsame, vmRows_congr hlookup]

theorem filter_map_putAt (rows : List MachineRecord) :
    (rows.map (putAt k uuid value)).filter (·.uuid ≠ uuid) = rows.filter (·.uuid ≠ uuid) := by
  induction rows with
  | nil => rfl
  | cons row rows ih =>
    rw [List.map_cons, List.filter_cons, List.filter_cons, ih, putAt]
    split
    · rename_i h
      rw [uuid_put, if_neg (by simp [h]), if_neg (by simp [h])]
    · rfl

theorem find?_map_putAt (rows : List MachineRecord) :
    (rows.map (putAt k uuid value)).find? (isTarget target) =
      (rows.find? (isTarget target)).map (putAt k uuid value) := by
  rw [List.find?_map]
  congr 2
  funext row
  exact isTarget_putAt

/-- The value is in the record that the target finds, and in what `ssh` is told; the records of the
other machines are as they were. -/
def ReadBack (w : World) (target : Str) (k : ProjectedKey) (value : Str) (s s' : Stores) : Prop :=
  ∃ row rows rows', findOne w target s' = .ok row ∧ k.of row = value ∧
    (k = .identityFile → ∃ creds, SshCreds.ofRecord w row = some creds ∧
      creds.identityFile = some (expandTilde w value)) ∧
    records w s = .ok rows ∧ records w s' = .ok rows' ∧
    rows'.filter (·.uuid ≠ row.uuid) = rows.filter (·.uuid ≠ row.uuid)

theorem identityFile_ofRecord (hvalue : value ≠ []) (h : row.identityFile = value) :
    ∃ creds, SshCreds.ofRecord w row = some creds ∧
      creds.identityFile = some (expandTilde w value) := by
  subst h
  rw [SshCreds.ofRecord, if_pos (.inl hvalue)]
  exact ⟨_, rfl, if_neg hvalue⟩

theorem findOne_of_find? {rows : List MachineRecord} (hrows : records w s = .ok rows)
    (h : rows.find? (isTarget target) = some row) : findOne w target s = .ok row := by
  rw [findOne, hrows]
  simp only [h]

/-- Whatever row is found afterwards, only its value is in question. -/
theorem readBack_iff {s' : Stores} {vms remotes : List MachineRecord} (hvalue : value ≠ [])
    (hrows : records w s = .ok (vms ++ remotes))
    (hrows' : records w s' = .ok (vms.map (putAt k uuid value) ++ remotes))
    (hrow : findOne w target s' = .ok row) (huuid : row.uuid = uuid) :
    ReadBack w target k value s s' ↔ k.of row = value := by
  subst huuid
  constructor
  · rintro ⟨row', -, -, hrow', hof, -⟩
    obtain rfl := Except.ok.inj (hrow.symm.trans hrow')
    exact hof
  · intro hof
    refine ⟨row, _, _, hrow, hof, ?_, hrows, hrows', ?_⟩
    · rintro rfl
      exact identityFile_ofRecord hvalue hof
    · rw [List.filter_append, List.filter_append, filter_map_putAt]

theorem set_read_back_iff (w : World) (target value : Str) (k : ProjectedKey) (s : Stores)
    (hvalue : value ≠ []) (hset : (setCmd w target k.key value s).1 = .ok ()) :
    ReadBack w target k value s (setCmd w target k.key value s).2 ↔
      ListsVm w target ∨ ∀ row, findOne w target s = .ok row → k.of row = value := by
  obtain ⟨found, fields, hfound, hfields, hstate⟩ := setCmd_eq_ok hset
  obtain ⟨rows, hrows, hfind⟩ := findOne_eq_ok hfound
  obtain ⟨user, remotes, huser, hremotes, rfl⟩ := records_eq_ok hrows
  have hrows' := records_withOverrides ((stored s).insert found.uuid
    (.obj (Json.insert fields k.key (.str value)))) huser hremotes
  rw [vmRows_set hvalue hfields] at hrows'
  rw [hstate]
  cases hvm : (vmRows w (stored s) user).find? (isTarget target) with
  | some vm =>
    -- The row of the machine is read from the override.
    have hlists : ListsVm w target := by
      by_contra hnot
      rw [find?_vmRows_eq_none_iff.2 hnot] at hvm
      cases hvm
    rw [List.find?_append, hvm, Option.some_or] at hfind
    obtain rfl := Option.some.inj hfind
    have hput : putAt k vm.uuid value vm = k.put vm value := if_pos rfl
    have hrow := findOne_of_find? hrows' <| by
      rw [List.find?_append, find?_map_putAt, hvm, Option.map_some, Option.some_or, hput]
    exact iff_of_true ((readBack_iff hvalue hrows hrows' hrow uuid_put).2 of_put) (.inl hlists)
  | none =>
    -- The row of a remote is not.
    have hlists : ¬ListsVm w target := find?_vmRows_eq_none_iff.1 hvm
    rw [List.find?_append, hvm, Option.none_or] at hfind
    have hrow := findOne_of_find? hrows' <| by
      rw [List.find?_append, find?_map_putAt, hvm, Option.map_none, Option.none_or, hfind]
    rw [readBack_iff hvalue hrows hrows' hrow rfl, or_iff_right hlists, hfound]
    simp

end ReadBack

/-- A world with one virtual machine. -/
def devWorld : World where
  guest := none
  guestDir := some "/srv".toList
  hostUser := some "alice".toList
  home := none
  now := "unix:1".toList
  stdin := none
  savesRemotes := true
  savesMachines := true
  keychainStores := true
  keychainDeletes := true
  prlctlList := .arr [.obj [("uuid".toList, .str "{1f}".toList), ("name".toList, .str "dev".toList)]]
  prlctlInfo _ := .arr []

/-- Stores with one remote. -/
def labStores : Stores where
  remoteHosts := some (Remote.written [⟨"lab".toList, "alice@host".toList, "/srv".toList,
    "linux".toList, [], "unix:1".toList, [], false⟩])
  machines := none
  keychain _ := none

theorem set_dev_read_back :
    ReadBack devWorld "dev".toList .sshUser "bob".toList labStores
      (setCmd devWorld "dev".toList ProjectedKey.sshUser.key "bob".toList labStores).2 :=
  (set_read_back_iff devWorld _ _ _ labStores (by decide) rfl).2
    (.inl ⟨_, List.mem_singleton_self _, by decide, .inr rfl⟩)

/-- The override of a remote is stored and never read. -/
theorem set_lab_not_read_back : ¬∀ (w : World) (target value : Str) (k : ProjectedKey) (s : Stores),
    value ≠ [] → (setCmd w target k.key value s).1 = .ok () →
      ReadBack w target k value s (setCmd w target k.key value s).2 := by
  intro h
  obtain ⟨row, -, -, hrow, hvalue, -⟩ := h devWorld "lab".toList "bob".toList .sshUser labStores
    (by decide) rfl
  have hsame : findOne devWorld "lab".toList
      (setCmd devWorld "lab".toList ProjectedKey.sshUser.key "bob".toList labStores).2 =
      .ok ⟨"remote:lab".toList, "lab".toList, "remote".toList, "host".toList, [], "linux".toList,
        "alice".toList, "host".toList, "/srv".toList, [], false⟩ := rfl
  rw [hsame] at hrow
  rw [← Except.ok.inj hrow] at hvalue
  exact absurd hvalue (by decide)

end Machines

end VBox.Cli
