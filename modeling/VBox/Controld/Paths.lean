import VBox.Lib.Paths

/-!
# Controld.Paths

The directories that the daemon uses for an instance (`crates/controld/src/state.rs`). The name of
the instance comes from the client and can be any text.

* `logDir`: of `start_instance` and `launch_app`, which join the name as it is.
* `quicCertDir`: of `ensure_quic_cert_material` and `quic_cert_sha256`, which make the name one
  component.
* `paths_inside_iff`: when both are strictly inside the work directory's `logs` and `quic-certs`.
-/

namespace VBox.Controld

open Paths

/-- `logs` -/
def logsName : Text := ['l', 'o', 'g', 's']

/-- `quic-certs` -/
def quicCertsName : Text := ['q', 'u', 'i', 'c', '-', 'c', 'e', 'r', 't', 's']

def logsDir (workDir : Text) : Text := join workDir logsName

def quicCertsDir (workDir : Text) : Text := join workDir quicCertsName

def logDir (workDir name : Text) : Text := join (logsDir workDir) name

def safeInstanceComponent (name : Text) : Text :=
  name.map fun ch => if ch.isAlphanum ∨ ch = '-' ∨ ch = '_' ∨ ch = '.' then ch else '_'

def quicCertDir (workDir name : Text) : Text :=
  join (quicCertsDir workDir) (safeInstanceComponent name)

/-! ## The certificates -/

variable {name : Text}

theorem slash_not_mem_safeInstanceComponent : '/' ∉ safeInstanceComponent name := by
  intro hmem
  obtain ⟨ch, -, hch⟩ := List.mem_map.1 hmem
  split at hch
  · rename_i hsafe
    rw [hch] at hsafe
    exact absurd hsafe (by decide)
  · exact absurd hch (by decide)

/-- Only a dot is made a dot. -/
theorem safeInstanceComponent_eq_iff {dots : Text} (hdots : ∀ ch ∈ dots, ch = '.') :
    safeInstanceComponent name = dots ↔ name = dots := by
  have hdot : ∀ ch : Char,
      (if ch.isAlphanum ∨ ch = '-' ∨ ch = '_' ∨ ch = '.' then ch else '_') = '.' ↔ ch = '.' := by
    intro ch
    constructor
    · intro h
      split at h
      · exact h
      · cases h
    · rintro rfl
      rfl
  induction dots generalizing name with
  | nil => simp [safeInstanceComponent]
  | cons dot dots ih =>
    obtain ⟨rfl, hrest⟩ := List.forall_mem_cons.1 hdots
    cases name with
    | nil => simp [safeInstanceComponent]
    | cons ch name =>
      rw [safeInstanceComponent, List.map_cons, List.cons.injEq, List.cons.injEq]
      exact and_congr (hdot ch) (ih hrest)

theorem quicCertDir_below_iff {workDir : Text} :
    (normalize (quicCertDir workDir name)).Below (normalize (quicCertsDir workDir)) ↔
      name ≠ [] ∧ name ≠ ['.'] ∧ name ≠ ['.', '.'] := by
  have hname : ∀ dots, (∀ ch ∈ dots, ch = '.') → (safeInstanceComponent name ≠ dots ↔ name ≠ dots) :=
    fun dots hdots => (safeInstanceComponent_eq_iff hdots).not
  rw [quicCertDir, normalize_join, normalize_of_component slash_not_mem_safeInstanceComponent,
    Normal.below_resolve_iff, Normal.leadsInside_push_start_iff, hname [] (by simp),
    hname ['.'] (by simp), hname ['.', '.'] (by simp)]

/-! ## Both directories -/

theorem paths_inside_iff (workDir name : Text) :
    (normalize (logDir workDir name)).Below (normalize (logsDir workDir)) ∧
        (normalize (quicCertDir workDir name)).Below (normalize (quicCertsDir workDir)) ↔
      (normalize name).LeadsInside (normalize (logsDir workDir)) := by
  rw [quicCertDir_below_iff, logDir, normalize_join, Normal.below_resolve_iff]
  refine and_iff_left_of_imp fun hinside => ?_
  refine ⟨?_, ?_, ?_⟩
  all_goals
    rintro rfl
    exact Normal.not_leadsInside_of_names_eq_nil rfl rfl hinside

/-- A name that is absolute, or climbs, puts the logs anywhere; the empty one and `..` put the
certificates in the directory itself or above it. -/
theorem instance_escapes :
    ¬(∀ workDir name : Text,
      (normalize (logDir workDir name)).Below (normalize (logsDir workDir)) ∧
        (normalize (quicCertDir workDir name)).Below (normalize (quicCertsDir workDir))) ∧
      logDir "/var/vbox".toList "/etc".toList = "/etc".toList ∧
      (normalize (logDir "/var/vbox".toList "../../x".toList)).names =
        ["var".toList, "x".toList] ∧
      normalize (quicCertDir "/var/vbox".toList "..".toList) = normalize "/var/vbox".toList := by
  refine ⟨?_, rfl, rfl, rfl⟩
  intro hall
  have habove := (hall "/var/vbox".toList "..".toList).2
  exact (quicCertDir_below_iff.1 habove).2.2 rfl

end VBox.Controld
