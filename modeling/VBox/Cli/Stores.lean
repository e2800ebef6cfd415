import VBox.Cli.Machines

/-!
# Cli.Stores

What the commands that rewrite a store leave alone: the other records of the files, and the
passwords of the other remotes.

* `Op.cases`: an operation stops at an error and leaves both files, or it rewrites the file of its
  target with the other records that the program had found.
* `Op.keepsOthers_iff`: no record but the target's is lost if and only if the operation stops or
  every other record of the file was read, and read whole.
* `RemoteOp.passwords_isolated_iff`: no other remote's password is touched if and only if there is
  nothing to change at the account or no other remote has the same account.
-/

namespace VBox.Cli

/-! ## Targets -/

inductive Target where
  | host (name : Str)
  | machine (uuid : Str)

namespace Target

def ofKind : MachineKind → Target
  | .remote name => host name
  | .parallels uuid => machine uuid

def remoteRecords (s : Stores) : List Json := s.remoteHosts.elim [] Remote.recordsOf

def machineRecords (s : Stores) : List (Str × Json) := s.machines.elim [] Machines.recordsOf

/-- Every record that is not the target's is still there unchanged. -/
def Kept (s s' : Stores) : Target → Prop
  | host name => Remote.Kept name (remoteRecords s) (remoteRecords s') ∧ s'.machines = s.machines
  | machine uuid =>
    Machines.Kept uuid (machineRecords s) (machineRecords s') ∧ s'.remoteHosts = s.remoteHosts

/-- Every record that is not the target's is read whole. -/
def ReadWhole (s : Stores) : Target → Prop
  | host name => ∀ content, s.remoteHosts = some content → Remote.ReadWhole name content
  | machine uuid => ∀ content, s.machines = some content → Machines.ReadWhole uuid content

/-- The file is written anew, with what the program had found for the others. -/
def Rewrites (s s' : Stores) : Target → Prop
  | host name => s'.machines = s.machines ∧ ∃ hosts, s'.remoteHosts = some (Remote.written hosts) ∧
      hosts.filter (·.name ≠ name) = (Remote.stored s).filter (·.name ≠ name)
  | machine uuid => s'.remoteHosts = s.remoteHosts ∧
      ∃ overrides, s'.machines = some (Machines.written overrides) ∧
        ∀ k ≠ uuid, overrides.lookup k = (Machines.stored s).lookup k

def SameFiles (s s' : Stores) : Prop :=
  s'.remoteHosts = s.remoteHosts ∧ s'.machines = s.machines

variable {s s' : Stores} {t : Target}

theorem kept_of_sameFiles (h : SameFiles s s') : t.Kept s s' := by
  cases t with
  | host name =>
    refine ⟨?_, h.2⟩
    rw [remoteRecords, remoteRecords, h.1]
    exact List.Subperm.refl _
  | machine uuid =>
    refine ⟨?_, h.1⟩
    rw [machineRecords, machineRecords, h.2]
    exact List.Subperm.refl _

theorem kept_iff_of_rewrites (h : t.Rewrites s s') : t.Kept s s' ↔ t.ReadWhole s := by
  cases t with
  | host name =>
    obtain ⟨hmachines, hosts, hhosts, hfilter⟩ := h
    rw [Kept, and_iff_left hmachines, ReadWhole, remoteRecords, remoteRecords, hhosts,
      Option.elim_some]
    unfold Remote.stored at hfilter
    cases hcontent : s.remoteHosts with
    | none => exact iff_of_true List.nil_subperm nofun
    | some content =>
      rw [hcontent, Option.elim_some] at hfilter
      rw [Option.elim_some, Remote.kept_written_iff hfilter]
      simp
  | machine uuid =>
    obtain ⟨hremotes, overrides, hoverrides, hlookup⟩ := h
    rw [Kept, and_iff_left hremotes, ReadWhole, machineRecords, machineRecords, hoverrides,
      Option.elim_some]
    unfold Machines.stored at hlookup
    cases hcontent : s.machines with
    | none => exact iff_of_true List.nil_subperm nofun
    | some content =>
      rw [hcontent, Option.elim_some] at hlookup
      rw [Option.elim_some, Machines.kept_written_iff hlookup]
      simp

end Target

/-! ## Operations -/

/-- The operations that rewrite a store. -/
inductive Op where
  | remoteAdd (input : Remote.AddRemoteInput)
  | remoteRemove (name : Str)
  | setHasPassword (name : Str) (present : Bool)
  | machinesSet (target key value : Str)
  | machinesUnset (target key : Str)
  | passwordSet (record : MachineRecord) (password : Str)
  | passwordClear (record : MachineRecord)
  | dropOverride (uuid : Str)

namespace Op

def run (w : World) (s : Stores) : Op → Except String Unit × Stores
  | remoteAdd input => Remote.addCmd w input s
  | remoteRemove name => Remote.removeCmd w name s
  | setHasPassword name present => Remote.setHasPassword w name present s
  | machinesSet target key value => Machines.setCmd w target key value s
  | machinesUnset target key => Machines.unsetCmd w target key s
  | passwordSet record password => Machines.passwordSet w record password s
  | passwordClear record => Machines.passwordClear w record s
  | dropOverride uuid => Machines.dropOverride w uuid s

/-- The record that a command for the key of a machine changes. -/
def targetOf (record : MachineRecord) (key : Str) : Target :=
  if key = "password".toList then Target.ofKind (MachineKind.fromRecord record)
  else .machine record.uuid

def target (w : World) (s : Stores) : Op → Option Target
  | remoteAdd input => some (.host input.name)
  | remoteRemove name => some (.host name)
  | setHasPassword name _ => some (.host name)
  | machinesSet target key _ => (Machines.findOne w target s).toOption.map (targetOf · key)
  | machinesUnset target key => (Machines.findOne w target s).toOption.map (targetOf · key)
  | passwordSet record _ => some (Target.ofKind (MachineKind.fromRecord record))
  | passwordClear record => some (Target.ofKind (MachineKind.fromRecord record))
  | dropOverride uuid => some (.machine uuid)

/-- The mark that there is a password cannot be made. -/
def MarkStops (w : World) (s : Stores) : MachineKind → Prop
  | .remote name => Remote.CannotRewrite w s ∨ ∀ host ∈ Remote.stored s, host.name ≠ name
  | .parallels uuid => Machines.CannotRewrite w s ∨ Machines.NotObject s uuid

/-- The operation stops before it has rewritten a file. -/
def Stops (w : World) (s : Stores) : Op → Prop
  | remoteAdd input =>
    (Remote.Rejected w input ∨ KeychainRefuses w (Remote.givenPassword w input)) ∨
      Remote.CannotRewrite w s
  | remoteRemove _ => Remote.CannotRewrite w s
  | setHasPassword name _ =>
    Remote.CannotRewrite w s ∨ ∀ host ∈ Remote.stored s, host.name ≠ name
  | machinesSet target key value =>
    key ∉ Machines.configKeys ∨ (∃ e, Machines.findOne w target s = .error e) ∨
      ∃ record, Machines.findOne w target s = .ok record ∧
        if key = "password".toList then
          KeychainRefuses w value ∨ MarkStops w s (MachineKind.fromRecord record)
        else Machines.CannotRewrite w s ∨ Machines.NotObject s record.uuid
  | machinesUnset target key =>
    key ∉ Machines.configKeys ∨ (∃ e, Machines.findOne w target s = .error e) ∨
      ∃ record, Machines.findOne w target s = .ok record ∧
        if key = "password".toList then MarkStops w s (MachineKind.fromRecord record)
        else Machines.CannotRewrite w s
  | passwordSet record password =>
    KeychainRefuses w password ∨ MarkStops w s (MachineKind.fromRecord record)
  | passwordClear record => MarkStops w s (MachineKind.fromRecord record)
  | dropOverride _ => Machines.CannotRewrite w s

/-- What an operation with this target does to the files. -/
def Does (stops : Prop) (t : Target) (s : Stores) (result : Except String Unit × Stores) : Prop :=
  (stops ∧ (∃ e, result.1 = .error e) ∧ Target.SameFiles s result.2) ∨
    (¬stops ∧ t.Rewrites s result.2)

section Cases

variable {w : World} {s s' : Stores} {t : Target} {stops : Prop}
  {result : Except String Unit × Stores}

/-- What was done to the keychain before does not count. -/
theorem Does.of_sameFiles (hsame : Target.SameFiles s s') (h : Does stops t s' result) :
    Does stops t s result := by
  obtain ⟨hremotes, hmachines⟩ := hsame
  have hhosts : Remote.stored s' = Remote.stored s := by rw [Remote.stored, hremotes, Remote.stored]
  have hoverrides : Machines.stored s' = Machines.stored s := by
    rw [Machines.stored, hmachines, Machines.stored]
  rcases h with ⟨hstops, herror, hsame⟩ | ⟨hgoes, hrewrites⟩
  · exact .inl ⟨hstops, herror, hsame.1.trans hremotes, hsame.2.trans hmachines⟩
  · refine .inr ⟨hgoes, ?_⟩
    cases t with
    | host name =>
      obtain ⟨hother, hosts, hfile, hfilter⟩ := hrewrites
      exact ⟨hother.trans hmachines, hosts, hfile, hhosts ▸ hfilter⟩
    | machine uuid =>
      obtain ⟨hother, overrides, hfile, hlookup⟩ := hrewrites
      exact ⟨hother.trans hremotes, overrides, hfile, hoverrides ▸ hlookup⟩

theorem does_setHasPassword (w : World) (name : Str) (present : Bool) (s : Stores) :
    Does (MarkStops w s (.remote name)) (.host name) s
      (Remote.setHasPassword w name present s) := by
  rcases Remote.setHasPassword_cases w name present s with ⟨hstops, e, he⟩ | ⟨hgoes, hok⟩
  · rw [he]
    exact .inl ⟨hstops, ⟨e, rfl⟩, rfl, rfl⟩
  · rw [hok]
    exact .inr ⟨hgoes, rfl, _, rfl, Remote.filter_mark _ present⟩

theorem does_changeEntry (w : World) (uuid : Str) (change : Json.Fields → Json.Fields)
    (s : Stores) :
    Does (Machines.CannotRewrite w s ∨ Machines.NotObject s uuid) (.machine uuid) s
      (Machines.changeEntry w uuid change s) := by
  rcases Machines.changeEntry_cases w uuid change s with ⟨hstops, e, he⟩ | ⟨hgoes, fields, -, hok⟩
  · rw [he]
    exact .inl ⟨hstops, ⟨e, rfl⟩, rfl, rfl⟩
  · rw [hok]
    exact .inr ⟨hgoes, rfl, _, rfl, fun k hk => AList.lookup_insert_ne hk⟩

theorem does_rewrite {uuid : Str} {change : Machines.Overrides → Machines.Overrides}
    (hchange : ∀ overrides, ∀ k ≠ uuid, (change overrides).lookup k = overrides.lookup k)
    (w : World) (s : Stores) :
    Does (Machines.CannotRewrite w s) (.machine uuid) s (Machines.rewrite w change s) := by
  rcases Machines.rewrite_cases w change s with ⟨hstops, e, he⟩ | ⟨hgoes, hok⟩
  · rw [he]
    exact .inl ⟨hstops, ⟨e, rfl⟩, rfl, rfl⟩
  · rw [hok]
    exact .inr ⟨hgoes, rfl, _, rfl, hchange _⟩

theorem does_markHasPassword (w : World) (kind : MachineKind) (present : Bool) (s : Stores) :
    Does (MarkStops w s kind) (Target.ofKind kind) s
      (Machines.markHasPassword w kind present s) := by
  cases kind with
  | remote name => exact does_setHasPassword w name present s
  | parallels uuid => exact does_changeEntry w uuid _ s

theorem sameFiles_setEntry (account : Str) (entry : Option (Option Str)) (s : Stores) :
    Target.SameFiles s (setEntry account entry s) :=
  ⟨setEntry_remoteHosts, setEntry_machines⟩

theorem markStops_setEntry (account : Str) (entry : Option (Option Str)) (kind : MachineKind) :
    MarkStops w (setEntry account entry s) kind = MarkStops w s kind := by
  cases entry <;> cases kind <;> rfl

theorem does_passwordClear (w : World) (record : MachineRecord) (s : Stores) :
    Does (MarkStops w s (MachineKind.fromRecord record))
      (Target.ofKind (MachineKind.fromRecord record)) s (Machines.passwordClear w record s) := by
  rw [Machines.passwordClear, deletePassword_eq]
  have h := does_markHasPassword w (MachineKind.fromRecord record) false
    (setEntry (MachineKind.fromRecord record).keychainAccount (deleted w) s)
  rw [markStops_setEntry] at h
  exact h.of_sameFiles (sameFiles_setEntry _ _ s)

theorem does_passwordSet (w : World) (record : MachineRecord) (password : Str) (s : Stores) :
    Does (KeychainRefuses w password ∨ MarkStops w s (MachineKind.fromRecord record))
      (Target.ofKind (MachineKind.fromRecord record)) s
      (Machines.passwordSet w record password s) := by
  unfold Machines.passwordSet
  split
  · rename_i hempty
    rw [or_iff_right fun h : KeychainRefuses w password => h.1 hempty]
    exact does_passwordClear w record s
  · rename_i hne
    rcases setPassword_cases w (MachineKind.fromRecord record).keychainAccount s hne with
      ⟨hrefuses, e, he⟩ | ⟨haccepts, hok⟩
    · simp only [he]
      exact .inl ⟨.inl hrefuses, ⟨e, rfl⟩, rfl, rfl⟩
    · simp only [hok]
      rw [or_iff_right haccepts]
      have h := does_markHasPassword w (MachineKind.fromRecord record) true
        (setEntry (MachineKind.fromRecord record).keychainAccount (passwordEntry w password) s)
      rw [markStops_setEntry] at h
      exact h.of_sameFiles (sameFiles_setEntry _ _ s)

theorem does_addCmd (w : World) (input : Remote.AddRemoteInput) (s : Stores) :
    Does ((Remote.Rejected w input ∨ KeychainRefuses w (Remote.givenPassword w input)) ∨
      Remote.CannotRewrite w s) (.host input.name) s (Remote.addCmd w input s) := by
  rcases Remote.addCmd_cases w input s with ⟨e, he, hstops⟩ | ⟨hgoes, host, hname, heq⟩
  · rw [he]
    exact .inl ⟨.inl hstops, ⟨e, rfl⟩, rfl, rfl⟩
  · rw [heq, or_iff_right hgoes]
    have hcannot : ∀ entry, Remote.CannotRewrite w
        (setEntry (Remote.keychainAccount input.name) entry s) = Remote.CannotRewrite w s := by
      intro entry
      cases entry <;> rfl
    refine Does.of_sameFiles (sameFiles_setEntry (Remote.keychainAccount input.name)
      (passwordEntry w (Remote.givenPassword w input)) s) ?_
    rw [← hcannot (passwordEntry w (Remote.givenPassword w input))]
    rcases Remote.rewrite_cases w (fun hosts => hosts.filter (·.name ≠ input.name) ++ [host])
      (setEntry (Remote.keychainAccount input.name)
        (passwordEntry w (Remote.givenPassword w input)) s) with ⟨hstops, e, he⟩ | ⟨hgoes, hok⟩
    · rw [he]
      exact .inl ⟨hstops, ⟨e, rfl⟩, rfl, rfl⟩
    · rw [hok]
      refine .inr ⟨hgoes, rfl, _, rfl, ?_⟩
      simp [hname]

theorem does_removeCmd (w : World) (name : Str) (s : Stores) :
    Does (Remote.CannotRewrite w s) (.host name) s (Remote.removeCmd w name s) := by
  rcases Remote.removeName_cases w name s with ⟨hstops, e, he⟩ | ⟨hgoes, found, hok⟩
  · rw [Remote.removeCmd, he]
    exact .inl ⟨hstops, ⟨e, rfl⟩, rfl, rfl⟩
  · refine .inr ⟨hgoes, ?_⟩
    rw [Remote.removeCmd_snd, hok]
    refine ⟨setEntry_machines, _, setEntry_remoteHosts, ?_⟩
    simp

theorem does_setFound (w : World) (record : MachineRecord) (key value : Str) (s : Stores) :
    Does (if key = "password".toList then
        KeychainRefuses w value ∨ MarkStops w s (MachineKind.fromRecord record)
      else Machines.CannotRewrite w s ∨ Machines.NotObject s record.uuid) (targetOf record key) s
      (if key = "password".toList then Machines.passwordSet w record value s
      else Machines.changeEntry w record.uuid (fun fields => Json.insert fields key (.str value))
        s) := by
  rw [targetOf]
  split
  · exact does_passwordSet w record value s
  · exact does_changeEntry w record.uuid _ s

theorem lookup_unsetEntry (uuid key : Str) (overrides : Machines.Overrides) :
    ∀ k ≠ uuid, (Machines.unsetEntry uuid key overrides).lookup k = overrides.lookup k := by
  intro k hk
  rw [Machines.unsetEntry]
  split
  · rfl
  · exact AList.lookup_insert_ne hk

theorem does_unsetFound (w : World) (record : MachineRecord) (key : Str) (s : Stores) :
    Does (if key = "password".toList then MarkStops w s (MachineKind.fromRecord record)
      else Machines.CannotRewrite w s) (targetOf record key) s
      (if key = "password".toList then Machines.passwordClear w record s
      else Machines.rewrite w (Machines.unsetEntry record.uuid key) s) := by
  rw [targetOf]
  split
  · exact does_passwordClear w record s
  · exact does_rewrite (lookup_unsetEntry record.uuid key) w s

theorem Does.exists {target : Option Target} (h : Does stops t s result)
    (htarget : target = some t) :
    (stops ∧ (∃ e, result.1 = .error e) ∧ Target.SameFiles s result.2) ∨
      (¬stops ∧ ∃ t, target = some t ∧ t.Rewrites s result.2) := by
  rcases h with hstops | ⟨hgoes, hrewrites⟩
  · exact .inl hstops
  · exact .inr ⟨hgoes, t, htarget, hrewrites⟩

/-- A command for a key of a machine stops at the key or at the target, or it runs on the machine. -/
theorem found_cases {target key : Str} {run : MachineRecord → Except String Unit × Stores}
    (h : result = match Machines.validateConfigKey key with
      | .error e => (.error e, s)
      | .ok () =>
        match Machines.findOne w target s with
        | .error e => (.error e, s)
        | .ok record => run record) :
    (∃ e, result = (.error e, s) ∧
        (key ∉ Machines.configKeys ∨ ∃ e, Machines.findOne w target s = .error e)) ∨
      ∃ record, key ∈ Machines.configKeys ∧ Machines.findOne w target s = .ok record ∧
        result = run record := by
  rw [Machines.validateConfigKey] at h
  by_cases hkey : key ∈ Machines.configKeys
  · rw [if_pos hkey] at h
    cases hfind : Machines.findOne w target s with
    | error e => exact .inl ⟨e, by rw [h, hfind], .inr ⟨e, rfl⟩⟩
    | ok record => exact .inr ⟨record, hkey, rfl, by rw [h, hfind]⟩
  · rw [if_neg hkey] at h
    exact .inl ⟨_, h, .inl hkey⟩

/-- Where the machine is found, an operation stops as its command does. -/
theorem stops_found_iff {target key : Str} {record : MachineRecord} (hkey : key ∈ Machines.configKeys)
    (hfind : Machines.findOne w target s = .ok record) (P : MachineRecord → Prop) :
    (key ∉ Machines.configKeys ∨ (∃ e, Machines.findOne w target s = .error e) ∨
      ∃ record, Machines.findOne w target s = .ok record ∧ P record) ↔ P record := by
  rw [or_iff_right (not_not.2 hkey), hfind, or_iff_right (by simp)]
  simp

theorem cases (w : World) (s : Stores) (op : Op) :
    (op.Stops w s ∧ (∃ e, (op.run w s).1 = .error e) ∧ Target.SameFiles s (op.run w s).2) ∨
      (¬op.Stops w s ∧ ∃ t, op.target w s = some t ∧ t.Rewrites s (op.run w s).2) := by
  cases op with
  | remoteAdd input => exact (does_addCmd w input s).exists rfl
  | remoteRemove name => exact (does_removeCmd w name s).exists rfl
  | setHasPassword name present => exact (does_setHasPassword w name present s).exists rfl
  | passwordSet record password => exact (does_passwordSet w record password s).exists rfl
  | passwordClear record => exact (does_passwordClear w record s).exists rfl
  | dropOverride uuid =>
    exact (does_rewrite (fun _ _ hk => AList.lookup_erase_ne hk) w s).exists rfl
  | machinesSet target key value =>
    have hcmd : Machines.setCmd w target key value s = _ := rfl
    rcases found_cases hcmd with ⟨e, he, hstops⟩ | ⟨record, hkey, hfind, heq⟩
    · rw [run, he]
      exact .inl ⟨hstops.imp_right .inl, ⟨e, rfl⟩, rfl, rfl⟩
    · rw [run, heq, Stops, stops_found_iff hkey hfind]
      exact (does_setFound w record key value s).exists (by rw [Op.target, hfind]; rfl)
  | machinesUnset target key =>
    have hcmd : Machines.unsetCmd w target key s = _ := rfl
    rcases found_cases hcmd with ⟨e, he, hstops⟩ | ⟨record, hkey, hfind, heq⟩
    · rw [run, he]
      exact .inl ⟨hstops.imp_right .inl, ⟨e, rfl⟩, rfl, rfl⟩
    · rw [run, heq, Stops, stops_found_iff hkey hfind]
      exact (does_unsetFound w record key s).exists (by rw [Op.target, hfind]; rfl)

/-- The operation fails and both files are as they were, or every record that is not its target is
still there unchanged. -/
def KeepsOthers (w : World) (s : Stores) (op : Op) : Prop :=
  ((∃ e, (op.run w s).1 = .error e) ∧ Target.SameFiles s (op.run w s).2) ∨
    ∃ t, op.target w s = some t ∧ t.Kept s (op.run w s).2

end Cases

/-- A file of a version that writes `has_password` as a text. -/
def newerStores : Stores where
  remoteHosts := some ⟨true, some (.obj [("hosts".toList, .arr [.obj
    [("name".toList, .str "lab".toList), ("ssh".toList, .str "alice@host".toList),
      ("has_password".toList, .str "yes".toList)]])]), []⟩
  machines := none
  keychain _ := none

end Op

/-! ## Passwords -/

/-- A machine that is a remote. -/
def RemoteMachine : Type :=
  { record : MachineRecord // "remote:".toList.isPrefixOf record.uuid = true }

theorem fromRecord_remote (record : RemoteMachine) :
    MachineKind.fromRecord record.1 = .remote record.1.name :=
  if_pos record.2

/-- The operations on a remote that have to do with its password. -/
inductive RemoteOp where
  | add (input : Remote.AddRemoteInput)
  | remove (name : Str)
  | setPassword (record : RemoteMachine) (password : Str)
  | clearPassword (record : RemoteMachine)

namespace RemoteOp

def name : RemoteOp → Str
  | add input => input.name
  | remove name => name
  | setPassword record _ => record.1.name
  | clearPassword record => record.1.name

def run (w : World) (s : Stores) : RemoteOp → Except String Unit × Stores
  | add input => Remote.addCmd w input s
  | remove name => Remote.removeCmd w name s
  | setPassword record password => Machines.passwordSet w record.1 password s
  | clearPassword record => Machines.passwordClear w record.1 s

/-- What the operation leaves at the account of its remote, if it gets that far. -/
def Leaves (w : World) (s : Stores) (entry : Option Str) : RemoteOp → Prop
  | add input =>
    ¬Remote.Rejected w input ∧ passwordEntry w (Remote.givenPassword w input) = some entry
  | remove name => ¬Remote.CannotRewrite w s ∧ Remote.removeEntry w name s = some entry
  | setPassword _ password => passwordEntry w password = some entry
  | clearPassword _ => deleted w = some entry

section Keychain

variable {w : World} {s : Stores}

theorem keychain_rewrite (change : List Remote.RemoteHost → List Remote.RemoteHost) :
    (Remote.rewrite w change s).2.keychain = s.keychain := by
  rcases Remote.rewrite_cases w change s with ⟨-, e, he⟩ | ⟨-, hok⟩
  · rw [he]
  · rw [hok]
    rfl

theorem keychain_markHasPassword (kind : MachineKind) (present : Bool) :
    (Machines.markHasPassword w kind present s).2.keychain = s.keychain := by
  cases kind with
  | remote name =>
    rcases Remote.setHasPassword_cases w name present s with ⟨-, e, he⟩ | ⟨-, hok⟩
    · rw [Machines.markHasPassword, he]
    · rw [Machines.markHasPassword, hok]
      rfl
  | parallels uuid =>
    rw [Machines.markHasPassword, Machines.markOverridePassword]
    generalize (fun fields => if present then _ else _ : Json.Fields → Json.Fields) = change
    rcases Machines.changeEntry_cases w uuid change s with ⟨-, e, he⟩ | ⟨-, fields, -, hok⟩
    · rw [he]
    · rw [hok]
      rfl

theorem keychain_passwordClear (record : MachineRecord) :
    (Machines.passwordClear w record s).2.keychain =
      (setEntry (MachineKind.fromRecord record).keychainAccount (deleted w) s).keychain := by
  rw [Machines.passwordClear, keychain_markHasPassword, deletePassword_eq]

theorem keychain_passwordSet (record : MachineRecord) (password : Str) :
    (Machines.passwordSet w record password s).2.keychain =
      (setEntry (MachineKind.fromRecord record).keychainAccount (passwordEntry w password)
        s).keychain := by
  unfold Machines.passwordSet
  split
  · rename_i hempty
    rw [keychain_passwordClear, passwordEntry, if_pos hempty]
  · rename_i hne
    rcases setPassword_cases w (MachineKind.fromRecord record).keychainAccount s hne with
      ⟨hrefuses, e, he⟩ | ⟨haccepts, hok⟩
    · simp only [he, passwordEntry_of_refuses hrefuses]
      rfl
    · simp only [hok, keychain_markHasPassword]

/-- The keychain is as it was, or one entry of it is new. -/
def Changes (leaves : Option Str → Prop) (account : Str) (old new : Str → Option Str) : Prop :=
  ((∀ entry, ¬leaves entry) ∧ new = old) ∨
    ∃ entry, leaves entry ∧ new = Function.update old account entry

theorem changes_setEntry {leaves : Option Str → Prop} {account : Str} {e : Option (Option Str)}
    (h : ∀ entry, leaves entry ↔ e = some entry) :
    Changes leaves account s.keychain (setEntry account e s).keychain := by
  cases e with
  | none =>
    refine .inl ⟨fun entry hleaves => ?_, rfl⟩
    cases (h entry).1 hleaves
  | some entry => exact .inr ⟨entry, (h entry).2 rfl, rfl⟩

theorem changes_of_nothing {leaves : Option Str → Prop} {account : Str}
    (h : ∀ entry, ¬leaves entry) : Changes leaves account s.keychain s.keychain :=
  .inl ⟨h, rfl⟩

theorem changes_addCmd (w : World) (s : Stores) (input : Remote.AddRemoteInput) :
    Changes (fun entry => Leaves w s entry (add input)) (Remote.keychainAccount input.name)
      s.keychain (Remote.addCmd w input s).2.keychain := by
  rcases Remote.addCmd_cases w input s with ⟨e, he, hstops⟩ | ⟨hgoes, host, -, heq⟩
  · rw [he]
    refine changes_of_nothing fun entry hleaves => ?_
    rcases hstops with hrejected | hrefuses
    · exact hleaves.1 hrejected
    · rw [Leaves, passwordEntry_of_refuses hrefuses] at hleaves
      cases hleaves.2
  · rw [heq, keychain_rewrite]
    exact changes_setEntry fun entry => and_iff_right fun hrejected => hgoes (.inl hrejected)

theorem changes_removeCmd (w : World) (s : Stores) (name : Str) :
    Changes (fun entry => Leaves w s entry (remove name)) (Remote.keychainAccount name)
      s.keychain (Remote.removeCmd w name s).2.keychain := by
  rw [Remote.removeCmd_snd]
  rcases Remote.removeName_cases w name s with ⟨hstops, e, he⟩ | ⟨hgoes, found, hok⟩
  · rw [he]
    exact changes_of_nothing fun entry hleaves => hleaves.1 hstops
  · rw [hok]
    exact changes_setEntry (s := Remote.withHosts s _) fun entry => and_iff_right hgoes

/-- An operation changes the entry of its own account or nothing. -/
theorem changes_run (w : World) (s : Stores) (op : RemoteOp) :
    Changes (fun entry => op.Leaves w s entry) (Remote.keychainAccount op.name) s.keychain
      (op.run w s).2.keychain := by
  cases op with
  | add input => exact changes_addCmd w s input
  | remove name => exact changes_removeCmd w s name
  | setPassword record password =>
    rw [run, keychain_passwordSet, fromRecord_remote]
    exact changes_setEntry fun entry => Iff.rfl
  | clearPassword record =>
    rw [run, keychain_passwordClear, fromRecord_remote]
    exact changes_setEntry fun entry => Iff.rfl

theorem leaves_unique {op : RemoteOp} {entry entry' : Option Str} (h : op.Leaves w s entry)
    (h' : op.Leaves w s entry') : entry = entry' := by
  cases op with
  | add input => exact Option.some.inj (h.2.symm.trans h'.2)
  | remove name => exact Option.some.inj (h.2.symm.trans h'.2)
  | setPassword record password => exact Option.some.inj (Eq.trans (Eq.symm h) h')
  | clearPassword record => exact Option.some.inj (Eq.trans (Eq.symm h) h')

end Keychain

theorem keychainAccount_eq_iff {name name' : Str} :
    Remote.keychainAccount name' = Remote.keychainAccount name ↔
      Remote.sanitizeId name' = Remote.sanitizeId name :=
  List.append_right_inj _

/-- No entry of another remote changes, under the account of its name and under the account that
`ssh` is told. -/
def Isolated (w : World) (s : Stores) (op : RemoteOp) : Prop :=
  (∀ host ∈ Remote.stored s, host.name ≠ op.name →
    (op.run w s).2.keychain (Remote.keychainAccount host.name) =
      s.keychain (Remote.keychainAccount host.name)) ∧
    ∀ rows, Remote.records s = .ok rows → ∀ row ∈ rows, row.name ≠ op.name →
      (op.run w s).2.keychain row.id = s.keychain row.id

theorem id_of_mem_records {s : Stores} {rows : List Remote.RemoteRecord}
    (h : Remote.records s = .ok rows) {row : Remote.RemoteRecord} (hrow : row ∈ rows) :
    row.id = Remote.keychainAccount row.name ∧
      ∃ host ∈ Remote.stored s, host.name = row.name := by
  rcases Remote.load_cases s with ⟨-, e, hload⟩ | ⟨-, hload⟩
  · rw [Remote.records, hload] at h
    cases h
  · rw [Remote.records, hload] at h
    obtain rfl := Except.ok.inj h
    obtain ⟨host, hhost, hof⟩ := List.mem_filterMap.1 hrow
    obtain ⟨⟨user, sshHost⟩, -, rfl⟩ := Option.map_eq_some_iff.1 hof
    exact ⟨rfl, host, hhost, rfl⟩

theorem account_of_ofRemote {w : World} {row : Remote.RemoteRecord} {creds : SshCreds}
    {account : Str} (h : SshCreds.ofRemote w row = some creds)
    (haccount : creds.keychainAccount = some account) : account = row.id := by
  rw [SshCreds.ofRemote, Option.ite_none_right_eq_some] at h
  obtain rfl := Option.some.inj h.2
  rw [Option.ite_none_right_eq_some] at haccount
  exact (Option.some.inj haccount.2).symm

theorem account_of_ofRecord {w : World} {row : MachineRecord} {creds : SshCreds} {account : Str}
    (h : SshCreds.ofRecord w row = some creds) (haccount : creds.keychainAccount = some account) :
    account = (MachineKind.fromRecord row).keychainAccount := by
  rw [SshCreds.ofRecord, Option.ite_none_right_eq_some] at h
  obtain rfl := Option.some.inj h.2
  rw [Option.ite_none_right_eq_some] at haccount
  exact (Option.some.inj haccount.2).symm

theorem mem_of_toOption_find? {α : Type} {rows : Except String (List α)} {p : α → Bool} {row : α}
    (h : rows.toOption.bind (List.find? p) = some row) : ∃ l, rows = .ok l ∧ row ∈ l := by
  cases rows with
  | error e => cases h
  | ok l => exact ⟨l, rfl, List.mem_of_find?_eq_some h⟩

/-- The account that `ssh` is told is that of a saved remote or of a listed machine. -/
theorem account_of_fromContext {w : World} {s : Stores} {account : Str}
    (h : (SshCreds.fromContext w s).keychainAccount = some account) :
    (∃ host ∈ Remote.stored s, account = Remote.keychainAccount host.name) ∨
      ∃ rows, Machines.records w s = .ok rows ∧
        ∃ row ∈ rows, account = (MachineKind.fromRecord row).keychainAccount := by
  unfold SshCreds.fromContext at h
  split at h
  · cases h
  · rename_i guest _
    simp only at h
    generalize hremote : ((Remote.records s).toOption.bind (List.find? _)).bind
      (SshCreds.ofRemote w) = remote at h
    cases remote with
    | some creds =>
      obtain ⟨row, hrow, hcreds⟩ := Option.bind_eq_some_iff.1 hremote
      obtain ⟨rows, hrows, hmem⟩ := mem_of_toOption_find? hrow
      obtain ⟨hid, host, hhost, hname⟩ := id_of_mem_records hrows hmem
      refine .inl ⟨host, hhost, ?_⟩
      rw [hname, ← hid]
      exact account_of_ofRemote hcreds h
    | none =>
      generalize hmachine : ((Machines.records w s).toOption.bind (List.find? _)).bind
        (SshCreds.ofRecord w) = machine at h
      cases machine with
      | none => cases h
      | some creds =>
        obtain ⟨row, hrow, hcreds⟩ := Option.bind_eq_some_iff.1 hmachine
        obtain ⟨rows, hrows, hmem⟩ := mem_of_toOption_find? hrow
        exact .inr ⟨rows, hrows, row, hmem, account_of_ofRecord hcreds h⟩

theorem passwords_isolated_iff (w : World) (s : Stores) (op : RemoteOp) :
    op.Isolated w s ↔
      -- The entry at the account is left as it is,
      (∀ entry, op.Leaves w s entry → s.keychain (Remote.keychainAccount op.name) = entry) ∨
        -- or no other remote has the account.
        ∀ host ∈ Remote.stored s, host.name ≠ op.name →
          Remote.sanitizeId host.name ≠ Remote.sanitizeId op.name := by
  constructor
  · rintro ⟨hhosts, -⟩
    by_contra hnot
    simp only [not_or, not_forall, not_not] at hnot
    obtain ⟨⟨entry, hleaves, hne⟩, host, hhost, hname, hid⟩ := hnot
    have hkeep := hhosts host hhost hname
    rw [keychainAccount_eq_iff.2 hid] at hkeep
    rcases changes_run w s op with ⟨hnothing, -⟩ | ⟨entry', hleaves', hnew⟩
    · exact hnothing entry hleaves
    · rw [hnew, Function.update_self, leaves_unique hleaves' hleaves] at hkeep
      exact hne hkeep.symm
  · intro h
    have hhosts : ∀ host ∈ Remote.stored s, host.name ≠ op.name →
        (op.run w s).2.keychain (Remote.keychainAccount host.name) =
          s.keychain (Remote.keychainAccount host.name) := by
      intro host hhost hname
      rcases changes_run w s op with ⟨-, hsame⟩ | ⟨entry, hleaves, hnew⟩
      · rw [hsame]
      · rw [hnew]
        rcases h with hsame | hapart
        · rw [← hsame entry hleaves, Function.update_eq_self]
        · exact Function.update_of_ne
            (fun heq => hapart host hhost hname (keychainAccount_eq_iff.1 heq)) _ _
    refine ⟨hhosts, fun rows hrows row hrow hname => ?_⟩
    obtain ⟨hid, host, hhost, hsame⟩ := id_of_mem_records hrows hrow
    rw [hid, ← hsame]
    exact hhosts host hhost (hsame ▸ hname)

/-- A remote with a password. -/
def capitalStores : Stores where
  remoteHosts := some (Remote.written [⟨"Lab".toList, "alice@host".toList, "/srv".toList,
    "linux".toList, [], "unix:1".toList, [], true⟩])
  machines := none
  keychain := Function.update (fun _ => none) "remote:lab".toList (some "secret".toList)

/-- Adding a remote without a password deletes the password of another one. -/
theorem lab_deletes_password_of_Lab : ¬∀ (w : World) (s : Stores) (op : RemoteOp),
    ((Remote.stored s).map Remote.RemoteHost.name).Nodup → op.Isolated w s := by
  intro h
  have hLab := (h Machines.devWorld capitalStores
    (.add ⟨"lab".toList, "bob@host".toList, none, "linux".toList, [], none, false⟩)
    (by decide)).1 _ (List.mem_singleton_self _) (by decide)
  exact absurd hLab (by decide)

end RemoteOp

end VBox.Cli
