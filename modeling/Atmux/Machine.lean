/-
Machine identity for federation: which ids name a machine, the composite
`machine~pane` identity, and the summary of one federated machine.

`validateMachineId` excludes the separator, so a composite identity splits
back into its machine and its pane (`splitOnce_compositeId`) whatever the
pane is.
-/
import Atmux.Lib.Text

namespace Atmux

open Lib

/-- Separator between a machine id and a tmux pane id inside a composite id. -/
def compositeSeparator : Char := '~'

def maxMachineIdLen : Nat := 32

/-- The check of `validateMachineId` an id failed. -/
inductive MachineIdError
  /-- "machine id must contain 1 to 32 characters" -/
  | length (id : String)
  /-- "machine id may contain only lowercase letters, digits, '-' and '_'" -/
  | characters (id : String)
  /-- "machine id must start with a lowercase letter or digit" -/
  | start (id : String)
deriving DecidableEq, Repr

/-- Validates a machine identifier. -/
def validateMachineId (id : String) : Except MachineIdError Unit :=
  if id.isEmpty || maxMachineIdLen < id.utf8ByteSize then
    .error (.length id)
  else if !id.toList.all fun c => c.isLower || c.isDigit || c == '-' || c == '_' then
    .error (.characters id)
  else if !id.toList.head?.any fun c => c.isLower || c.isDigit then
    .error (.start id)
  else
    .ok ()

/-- A machine id the configuration and discovery accept. -/
def ValidMachineId (id : String) : Prop := validateMachineId id = .ok ()

instance (id : String) : Decidable (ValidMachineId id) := by
  unfold ValidMachineId
  match validateMachineId id with
  | .ok () => exact isTrue rfl
  | .error _ => exact isFalse (by simp)

/-- Builds the stable composite identity for one pane on one machine. -/
def compositeId (machine paneId : String) : String :=
  machine ++ String.singleton compositeSeparator ++ paneId

/-- Whether one machine is the coordinator's own tmux server or a remote node. -/
inductive MachineKind
  | local
  | remote
deriving DecidableEq, Repr

/-- View of one federated machine. `μ` is the resource telemetry, of which
the control plane only asks whether two readings are equal. -/
structure MachineSummary (μ : Type) where
  id : String
  label : String
  kind : MachineKind
  online : Bool
  sessions : Nat
  /-- Human-readable reason a machine is degraded or offline. -/
  health : Option String
  /-- Epoch milliseconds of the last successful contact. -/
  lastSeenMs : Option Nat
  /-- Credential-free `host:port` of a remote node. -/
  address : Option String
  metrics : μ
deriving BEq, DecidableEq, Repr

/-! ## Facts about ids -/

theorem ValidMachineId.characters {id : String} (h : ValidMachineId id) :
    ∀ c ∈ id.toList, (c.isLower || c.isDigit || c == '-' || c == '_') = true := by
  unfold ValidMachineId validateMachineId at h
  split at h
  · cases h
  split at h
  · cases h
  next hall =>
  simp only [Bool.not_eq_true', Bool.not_eq_false, List.all_eq_true] at hall
  exact hall

theorem ValidMachineId.ne_empty {id : String} (h : ValidMachineId id) : id ≠ "" := by
  rintro rfl
  exact absurd h (by decide)

/-- A valid id holds no separator. -/
theorem ValidMachineId.separator {id : String} (h : ValidMachineId id) :
    compositeSeparator ∉ id.toList := by
  intro hmem
  exact absurd (h.characters _ hmem) (by decide)

theorem splitOnce_compositeId {machine : String} (h : ValidMachineId machine) (paneId : String) :
    Text.splitOnce compositeSeparator (compositeId machine paneId) = some (machine, paneId) :=
  Text.splitOnce_append h.separator paneId

/-- A composite identity names one machine and one pane. -/
theorem compositeId_inj {m n : String} (hm : ValidMachineId m) (hn : ValidMachineId n) {p q : String}
    (h : compositeId m p = compositeId n q) : m = n ∧ p = q := by
  have := (splitOnce_compositeId hm p).symm.trans (h ▸ splitOnce_compositeId hn q)
  simpa using this

theorem separator_mem_compositeId (machine paneId : String) :
    compositeSeparator ∈ (compositeId machine paneId).toList := by
  simp [compositeId, String.toList_append]

end Atmux
