/-
An edit of a file that others replace at any time.

The edit exchanges two names atomically and looks at what it displaced only
then. If that is not the file it was made for, the exchange is undone, round
after round while others replace the target in between: what a round displaces
is either what the round before it put there, and the undoing is done, or a
newer replacement, which the next round puts back (`file_edit`).
-/
import Atmux.Lib.Runs

namespace Atmux.Workspace

open Lib

/-! ## Files -/

/-- What there is to see of a file besides its name. -/
structure FileState where
  hash : String
  security : List (String × List UInt8)
  /-- User, group and mode. -/
  owner : Nat × Nat × Nat
deriving DecidableEq

/-- The files by their inodes, the edit's own, and the hash that the edit was
made for. -/
structure Project where
  files : Nat → FileState
  edited : Nat
  expectedHash : String

/-- Whether the file under a name is the original as it was. `readable` is
whether it can be opened and read at all. -/
def Project.namedFileMatches (project : Project) (readable : Bool) (named original : Nat) : Bool :=
  readable && named = original && (project.files named).owner = (project.files original).owner &&
    (project.files named).security = (project.files original).security &&
    (project.files named).hash = project.expectedHash

/-! ## The edit -/

def maxRecoveryExchanges : Nat := 64

inductive EditResult
  | ok
  | conflict
  /-- "project file conflict recovery could not complete safely" -/
  | busy
deriving DecidableEq, Repr

inductive Phase
  | opened
  | prepared
  | revalidated
  | exchanged
  /-- At the head of the recovery loop, with so many rounds left. -/
  | recovering (rounds expected : Nat)
  | inspected (rounds expected candidate : Nat)
  | swapped (rounds expected candidate : Nat)
  | committed
  | conflicted
  | finished (result : EditResult)
deriving DecidableEq, Repr

/-- The recovery loop is running. -/
def Phase.recovery : Phase → Bool
  | .recovering _ _ | .inspected _ _ _ | .swapped _ _ _ => true
  | _ => false

/-- The names were exchanged, and the edit has not ended. -/
def Phase.exchanging : Phase → Bool
  | .exchanged => true
  | phase => phase.recovery

structure Edit where
  target : Nat
  temporary : Option Nat
  phase : Phase
  /-- What the target was when the edit opened it. -/
  original : Nat
  /-- What the exchange displaced. -/
  displaced : Option Nat
  /-- What others last put there. -/
  newest : Option Nat
  /-- Every inode that there was. -/
  seen : List Nat
  /-- Replacements after the exchange, and while the recovery loop ran. -/
  since : Nat
  during : Nat
deriving DecidableEq

inductive Act
  /-- The edit's next step; `readable` is of the file that it looks at, if any. -/
  | edit (readable : Bool)
  | replace (inode : Nat)

namespace Edit

variable (project : Project)

/-- An edit of what the target is when it is opened. -/
def start (target : Nat) : Edit where
  target := target
  temporary := none
  phase := if (project.files target).hash ≠ project.expectedHash then .finished .conflict else .opened
  original := target
  displaced := none
  newest := none
  seen := [target, project.edited]
  since := 0
  during := 0

/-- One step of `write_file_blocking_with_hooks` and of the loop in
`restore_after_failed_exchange`. -/
def advance (readable : Bool) (edit : Edit) : Edit :=
  match edit.phase, edit.temporary with
  | .opened, _ => { edit with temporary := some project.edited, phase := .prepared }
  | .prepared, _ =>
    if project.namedFileMatches readable edit.target edit.original then { edit with phase := .revalidated }
    else { edit with phase := .conflicted }
  | .revalidated, some temporary =>
    { edit with
      target := temporary
      temporary := some edit.target
      displaced := some edit.target
      phase := .exchanged }
  | .exchanged, some temporary =>
    if project.namedFileMatches readable temporary edit.original then { edit with phase := .committed }
    else { edit with phase := .recovering maxRecoveryExchanges project.edited }
  | .recovering 0 _, _ => { edit with phase := .finished .busy }
  | .recovering (rounds + 1) expected, some temporary => { edit with phase := .inspected rounds expected temporary }
  | .inspected rounds expected candidate, some temporary =>
    { edit with
      target := temporary
      temporary := some edit.target
      phase := .swapped rounds expected candidate }
  | .swapped rounds expected candidate, some temporary =>
    if temporary = expected then { edit with phase := .conflicted }
    else { edit with phase := .recovering rounds candidate }
  | .committed, _ => { edit with temporary := none, phase := .finished .ok }
  | .conflicted, _ => { edit with temporary := none, phase := .finished .conflict }
  | _, _ => edit

/-- Another writer renames a file of its own over the target. -/
def replace (inode : Nat) (edit : Edit) : Edit :=
  { edit with
    target := inode
    newest := some inode
    seen := inode :: edit.seen
    since := if edit.phase.exchanging then edit.since + 1 else edit.since
    during := if edit.phase.recovery then edit.during + 1 else edit.during }

def step (edit : Edit) : Act → Edit
  | .edit readable => edit.advance project readable
  | .replace inode => edit.replace inode

/-- Others come with fresh files. -/
def Fresh (edit : Edit) : Act → Prop
  | .edit _ => True
  | .replace inode => inode ∉ edit.seen

abbrev EditRun : Edit → List Act → Edit → Prop :=
  Run fun edit act edit' => edit.Fresh act ∧ edit' = edit.step project act

/-- What the target would be without the edit. -/
def current (edit : Edit) : Nat := edit.newest.getD edit.original

/-- How many steps of its own an edit still takes at most. -/
def remaining (edit : Edit) : Nat :=
  match edit.phase with
  | .opened => 3 * maxRecoveryExchanges + 6
  | .prepared => 3 * maxRecoveryExchanges + 5
  | .revalidated => 3 * maxRecoveryExchanges + 4
  | .exchanged => 3 * maxRecoveryExchanges + 3
  | .recovering rounds _ => 3 * rounds + 2
  | .inspected rounds _ _ => 3 * rounds + 4
  | .swapped rounds _ _ => 3 * rounds + 3
  | .committed => 1
  | .conflicted => 1
  | .finished _ => 0

/-! ## What the names are bound to -/

variable {project} {edit edit' : Edit} {act : Act} {acts : List Act} {readable : Bool} {inode rounds expected held : Nat}

/-- With so many rounds left, the temporary name holds what the target was, and
the target what the last exchange put there; or others have replaced that since. -/
structure Pending (project : Project) (edit : Edit) (rounds expected held : Nat) : Prop where
  temporary : edit.temporary = some held
  held_ne : held ≠ project.edited
  expected_seen : expected ∈ edit.seen
  bounded : rounds ≤ maxRecoveryExchanges
  target : edit.target = expected ∧ held = edit.current ∧ maxRecoveryExchanges ≤ edit.since + rounds ∨
    edit.target = edit.current ∧ edit.target ≠ expected ∧ maxRecoveryExchanges + 1 ≤ edit.since + rounds

/-- What each phase has made of the names. -/
def AtPhase (project : Project) (edit : Edit) : Phase → Prop
  | .opened => edit.target = edit.current ∧ (project.files edit.original).hash = project.expectedHash
  | .prepared | .revalidated => edit.target = edit.current ∧ edit.temporary = some project.edited ∧
      (project.files edit.original).hash = project.expectedHash
  | .exchanged => ∃ held, edit.displaced = some held ∧
      edit.Pending project maxRecoveryExchanges project.edited held
  | .recovering rounds expected => ∃ held, edit.Pending project rounds expected held
  | .inspected rounds expected candidate => edit.Pending project (rounds + 1) expected candidate
  | .swapped rounds expected candidate =>
    edit.temporary = some expected ∧ edit.target = edit.current ∨
      ∃ held, held ≠ expected ∧ edit.Pending project rounds candidate held
  | .committed => edit.displaced = some edit.original ∧ (project.files edit.original).hash = project.expectedHash ∧
      ∀ newest, edit.newest = some newest → edit.target = newest
  | .conflicted => edit.target = edit.current
  | .finished .ok => edit.displaced = some edit.original ∧
      (project.files edit.original).hash = project.expectedHash ∧ ∀ newest, edit.newest = some newest → edit.target = newest
  | .finished .conflict => edit.target = edit.current ∧ edit.temporary = none
  | .finished .busy => maxRecoveryExchanges ≤ edit.since

/-- Replacements are other files than the original and the edit's. -/
structure Sound (project : Project) (edit : Edit) : Prop where
  original_ne : edit.original ≠ project.edited
  newest_ne : ∀ newest, edit.newest = some newest → newest ≠ edit.original ∧ newest ≠ project.edited
  original_seen : edit.original ∈ edit.seen
  edited_seen : project.edited ∈ edit.seen
  target_seen : edit.target ∈ edit.seen
  temporary_seen : ∀ held, edit.temporary = some held → held ∈ edit.seen
  phase : edit.AtPhase project edit.phase

theorem Sound.current_ne (h : edit.Sound project) : edit.current ≠ project.edited := by
  unfold current
  cases hnewest : edit.newest with
  | none => exact h.original_ne
  | some newest => exact (h.newest_ne newest hnewest).2

theorem sound_start {target : Nat} (h : target ≠ project.edited) : (start project target).Sound project where
  original_ne := h
  newest_ne _ hnewest := (by cases hnewest)
  original_seen := List.mem_cons_self
  edited_seen := List.mem_cons_of_mem _ List.mem_cons_self
  target_seen := List.mem_cons_self
  temporary_seen _ hheld := (by cases hheld)
  phase := by
    unfold AtPhase start
    by_cases hhash : (project.files target).hash = project.expectedHash
    · simp [hhash, current]
    · simp [hhash, current]

/-! ## Others' steps -/

/-- Another replacement is one more that the recovery has to put back. -/
theorem Pending.replace (h : edit.Pending project rounds expected held) (hfresh : inode ∉ edit.seen)
    (hphase : edit.phase.exchanging = true) : (edit.replace inode).Pending project rounds expected held := by
  have hne : inode ≠ expected := by
    rintro rfl
    exact hfresh h.expected_seen
  have hsince : (edit.replace inode).since = edit.since + 1 := if_pos hphase
  refine ⟨h.temporary, h.held_ne, List.mem_cons_of_mem _ h.expected_seen, h.bounded, .inr ⟨rfl, hne, ?_⟩⟩
  rw [hsince]
  rcases h.target with ⟨-, -, hle⟩ | ⟨-, -, hle⟩ <;> omega

theorem Sound.atPhase_replace (h : edit.Sound project) (hfresh : inode ∉ edit.seen) :
    (edit.replace inode).AtPhase project edit.phase := by
  have hphase := h.phase
  have hcurrent : (edit.replace inode).target = (edit.replace inode).current := rfl
  have hnewest : ∀ newest, (edit.replace inode).newest = some newest → (edit.replace inode).target = newest :=
    fun newest heq => Option.some.inj heq
  have hpending {rounds expected held : Nat} (h : edit.Pending project rounds expected held)
      (hexchanging : edit.phase.exchanging = true) := h.replace hfresh hexchanging
  cases heq : edit.phase with
  | opened =>
    rw [heq] at hphase
    exact ⟨hcurrent, hphase.2⟩
  | prepared =>
    rw [heq] at hphase
    exact ⟨hcurrent, hphase.2⟩
  | revalidated =>
    rw [heq] at hphase
    exact ⟨hcurrent, hphase.2⟩
  | exchanged =>
    rw [heq] at hphase hpending
    obtain ⟨held, hdisplaced, hheld⟩ := hphase
    exact ⟨held, hdisplaced, hpending hheld rfl⟩
  | recovering rounds expected =>
    rw [heq] at hphase hpending
    obtain ⟨held, hheld⟩ := hphase
    exact ⟨held, hpending hheld rfl⟩
  | inspected rounds expected candidate =>
    rw [heq] at hphase hpending
    exact hpending hphase rfl
  | swapped rounds expected candidate =>
    rw [heq] at hphase hpending
    rcases hphase with ⟨htemporary, -⟩ | ⟨held, hne, hheld⟩
    · exact .inl ⟨htemporary, hcurrent⟩
    · exact .inr ⟨held, hne, hpending hheld rfl⟩
  | committed =>
    rw [heq] at hphase
    exact ⟨hphase.1, hphase.2.1, hnewest⟩
  | conflicted => exact hcurrent
  | finished result =>
    rw [heq] at hphase
    cases result with
    | ok => exact ⟨hphase.1, hphase.2.1, hnewest⟩
    | conflict => exact ⟨hcurrent, hphase.2⟩
    | busy =>
      have hsince : (edit.replace inode).since = edit.since := if_neg (by rw [heq]; decide)
      exact Nat.le_trans hphase (Nat.le_of_eq hsince.symm)

theorem Sound.replace (h : edit.Sound project) (hfresh : inode ∉ edit.seen) : (edit.replace inode).Sound project where
  original_ne := h.original_ne
  newest_ne newest heq := by
    obtain rfl := Option.some.inj heq
    refine ⟨fun heq => ?_, fun heq => ?_⟩
    · exact hfresh (heq ▸ h.original_seen)
    · exact hfresh (heq ▸ h.edited_seen)
  original_seen := List.mem_cons_of_mem _ h.original_seen
  edited_seen := List.mem_cons_of_mem _ h.edited_seen
  target_seen := List.mem_cons_self
  temporary_seen held hheld := List.mem_cons_of_mem _ (h.temporary_seen held hheld)
  phase := h.atPhase_replace hfresh

/-! ## The edit's own steps -/

/-- A round puts back what is held. What it displaces is what was expected, or
what others put there, which the next round holds. -/
theorem Sound.swap (h : edit.Sound project) {candidate : Nat} (hpending : edit.Pending project (rounds + 1) expected candidate) :
    edit.target = expected ∧ candidate = edit.current ∨
      edit.target ≠ expected ∧ ({ edit with
        target := candidate
        temporary := some edit.target
        phase := .swapped rounds expected candidate } : Edit).Pending project rounds candidate edit.target := by
  rcases hpending.target with ⟨htarget, hheld, -⟩ | ⟨htarget, hne, hle⟩
  · exact .inl ⟨htarget, hheld⟩
  · have hbounded := hpending.bounded
    refine .inr ⟨hne, rfl, htarget ▸ h.current_ne, h.temporary_seen _ hpending.temporary, by omega, .inl ⟨rfl, htarget, ?_⟩⟩
    dsimp only
    omega

theorem matches_original {named : Nat} (h : project.namedFileMatches readable named edit.original = true) :
    named = edit.original := by
  simp only [Project.namedFileMatches, Bool.and_eq_true, decide_eq_true_eq] at h
  exact h.1.1.1.2

/-- A step that changes the phase alone. -/
theorem Sound.atPhase (h : edit.Sound project) (phase : Phase) (hphase : edit.AtPhase project phase) :
    ({ edit with phase } : Edit).Sound project := by
  refine { h with phase := ?_ }
  have hpending {rounds expected held : Nat} (h : edit.Pending project rounds expected held) :
      ({ edit with phase } : Edit).Pending project rounds expected held :=
    ⟨h.temporary, h.held_ne, h.expected_seen, h.bounded, h.target⟩
  cases phase with
  | exchanged => exact ⟨hphase.choose, hphase.choose_spec.1, hpending hphase.choose_spec.2⟩
  | recovering rounds expected => exact ⟨hphase.choose, hpending hphase.choose_spec⟩
  | inspected rounds expected candidate => exact hpending hphase
  | swapped rounds expected candidate => exact hphase.imp_right fun ⟨held, hne, hheld⟩ => ⟨held, hne, hpending hheld⟩
  | finished result => cases result <;> exact hphase
  | _ => exact hphase

theorem Sound.advance (h : edit.Sound project) : (edit.advance project readable).Sound project := by
  have hphase := h.phase
  unfold Edit.advance
  split
  next heq =>
    rw [heq] at hphase
    exact { h with
      temporary_seen := fun held hheld => Option.some.inj hheld ▸ h.edited_seen
      phase := ⟨hphase.1, rfl, hphase.2⟩ }
  next heq =>
    rw [heq] at hphase
    split
    · exact h.atPhase _ hphase
    · exact h.atPhase .conflicted hphase.1
  next temporary heq htemporary =>
    rw [heq] at hphase
    obtain ⟨htarget, hedited, -⟩ := hphase
    obtain rfl := Option.some.inj (htemporary.symm.trans hedited)
    exact { h with
      target_seen := h.edited_seen
      temporary_seen := fun held hheld => Option.some.inj hheld ▸ h.target_seen
      phase := ⟨edit.target, rfl, rfl, htarget ▸ h.current_ne, h.edited_seen, Nat.le_refl _,
        .inl ⟨rfl, htarget, Nat.le_add_left _ _⟩⟩ }
  next temporary heq htemporary =>
    rw [heq] at hphase
    obtain ⟨held, hdisplaced, hpending⟩ := hphase
    obtain rfl := Option.some.inj (htemporary.symm.trans hpending.temporary)
    split
    next hmatches =>
      obtain rfl := matches_original hmatches
      refine h.atPhase .committed ⟨hdisplaced, ?_, fun newest hnewest => ?_⟩
      · simp only [Project.namedFileMatches, Bool.and_eq_true, decide_eq_true_eq] at hmatches
        exact hmatches.2
      · have hcurrent : edit.current = newest := by rw [current, hnewest]; rfl
        rcases hpending.target with ⟨-, hheld, -⟩ | ⟨htarget, -, -⟩
        · exact absurd (hcurrent.symm.trans hheld.symm) (h.newest_ne newest hnewest).1
        · exact htarget.trans hcurrent
    · exact h.atPhase (.recovering maxRecoveryExchanges project.edited) ⟨_, hpending⟩
  next expected heq =>
    rw [heq] at hphase
    obtain ⟨held, hpending⟩ := hphase
    refine h.atPhase (.finished .busy) ?_
    rcases hpending.target with ⟨-, -, hle⟩ | ⟨-, -, hle⟩
    · exact hle
    · exact Nat.le_of_succ_le hle
  next rounds expected temporary heq htemporary =>
    rw [heq] at hphase
    obtain ⟨held, hpending⟩ := hphase
    obtain rfl := Option.some.inj (htemporary.symm.trans hpending.temporary)
    exact h.atPhase (.inspected rounds expected temporary) hpending
  next rounds expected candidate temporary heq htemporary =>
    rw [heq] at hphase
    obtain rfl := Option.some.inj (htemporary.symm.trans hphase.temporary)
    refine { h with
      target_seen := h.temporary_seen temporary htemporary
      temporary_seen := fun held hheld => Option.some.inj hheld ▸ h.target_seen
      phase := ?_ }
    rcases h.swap hphase with ⟨htarget, hcurrent⟩ | ⟨hne, hpending⟩
    · exact .inl ⟨congrArg some htarget, hcurrent⟩
    · exact .inr ⟨edit.target, hne, hpending⟩
  next rounds expected candidate temporary heq htemporary =>
    rw [heq] at hphase
    rcases hphase with ⟨hexpected, hcurrent⟩ | ⟨held, hne, hpending⟩
    · obtain rfl := Option.some.inj (htemporary.symm.trans hexpected)
      rw [if_pos rfl]
      exact h.atPhase .conflicted hcurrent
    · obtain rfl := Option.some.inj (htemporary.symm.trans hpending.temporary)
      rw [if_neg hne]
      exact h.atPhase (.recovering rounds candidate) ⟨_, hpending⟩
  next heq =>
    rw [heq] at hphase
    exact { h with
      temporary_seen := fun held hheld => (by cases hheld)
      phase := hphase }
  next heq =>
    rw [heq] at hphase
    exact { h with
      temporary_seen := fun held hheld => (by cases hheld)
      phase := ⟨hphase, rfl⟩ }
  · exact h

/-! ## Whole edits -/

def Act.isEdit : Act → Bool
  | .edit _ => true
  | .replace _ => false

/-- A step of its own brings an edit that goes on nearer to its end. -/
theorem Sound.remaining_advance (h : edit.Sound project) (hgoes : ∀ result, edit.phase ≠ .finished result) :
    (edit.advance project readable).remaining + 1 ≤ edit.remaining := by
  have hphase := h.phase
  cases heq : edit.phase with
  | opened => simp [Edit.advance, heq, remaining]
  | prepared =>
    simp only [Edit.advance, heq]
    split <;> simp [remaining, heq, maxRecoveryExchanges]
  | revalidated =>
    rw [heq] at hphase
    simp [Edit.advance, heq, hphase.2.1, remaining]
  | exchanged =>
    rw [heq] at hphase
    obtain ⟨held, -, hpending⟩ := hphase
    simp only [Edit.advance, heq, hpending.temporary]
    split <;> simp [remaining, heq, maxRecoveryExchanges]
  | recovering rounds expected =>
    rw [heq] at hphase
    obtain ⟨held, hpending⟩ := hphase
    cases rounds with
    | zero => simp [Edit.advance, heq, remaining]
    | succ rounds =>
      simp only [Edit.advance, heq, hpending.temporary, remaining]
      omega
  | inspected rounds expected candidate =>
    rw [heq] at hphase
    simp [Edit.advance, heq, hphase.temporary, remaining]
  | swapped rounds expected candidate =>
    rw [heq] at hphase
    have htemporary : ∃ held, edit.temporary = some held := by
      rcases hphase with ⟨htemporary, -⟩ | ⟨held, -, hpending⟩
      · exact ⟨_, htemporary⟩
      · exact ⟨_, hpending.temporary⟩
    obtain ⟨held, htemporary⟩ := htemporary
    simp only [Edit.advance, heq, htemporary]
    split <;> simp [remaining, heq]
  | committed => simp [Edit.advance, heq, remaining]
  | conflicted => simp [Edit.advance, heq, remaining]
  | finished result => exact absurd heq (hgoes result)

theorem original_advance : (edit.advance project readable).original = edit.original := by
  unfold Edit.advance
  split
  all_goals first | rfl | (split <;> rfl)

theorem Sound.step (h : edit.Sound project) (hfresh : edit.Fresh act) : (edit.step project act).Sound project := by
  cases act with
  | edit readable => exact h.advance
  | replace inode => exact h.replace hfresh

/-- What holds after any steps of the edit and of others. -/
theorem sound_run {target : Nat} (hfresh : target ≠ project.edited) (h : EditRun project (start project target) acts edit) :
    edit.Sound project ∧ edit.original = target := by
  refine h.invariant (I := fun edit => edit.Sound project ∧ edit.original = target) ?_ ⟨sound_start hfresh, rfl⟩
  rintro edit act edit' ⟨hsound, horiginal⟩ ⟨hact, rfl⟩
  refine ⟨hsound.step hact, ?_⟩
  cases act with
  | edit readable => exact original_advance.trans horiginal
  | replace inode => exact horiginal

/-- An edit ends after so many steps of its own. -/
theorem finished_run {edit edit' : Edit} (hsound : edit.Sound project) (h : EditRun project edit acts edit')
    (hsteps : edit.remaining ≤ (acts.filter Act.isEdit).length) : ∃ result, edit'.phase = .finished result := by
  induction h with
  | nil edit =>
    refine Classical.byContradiction fun hnone => ?_
    have hlt : (edit.advance project true).remaining < edit.remaining := hsound.remaining_advance (not_exists.mp hnone)
    simp only [List.filter_nil, List.length_nil] at hsteps
    omega
  | @cons edit _ _ act acts hstep hrest ih =>
    obtain ⟨hact, rfl⟩ := hstep
    refine ih (hsound.step hact) ?_
    cases act with
    | edit readable =>
      rw [List.filter_cons_of_pos (by rfl), List.length_cons] at hsteps
      change (edit.advance project readable).remaining ≤ _
      rcases Classical.em (∃ result, edit.phase = .finished result) with ⟨result, hresult⟩ | hgoes
      · simp [Edit.advance, hresult, remaining]
      · have hlt : (edit.advance project readable).remaining < edit.remaining :=
          hsound.remaining_advance (not_exists.mp hgoes)
        omega
    | replace inode =>
      rw [List.filter_cons_of_neg (by simp [Act.isEdit])] at hsteps
      exact hsteps

/-- **An edit never loses another writer's file.** Its success means that it
displaced what it was made for. After a conflict the target is what others last
put there, and the edit's own file and name are gone. It fails to recover only
after `maxRecoveryExchanges` replacements since its exchange, and it ends. -/
theorem file_edit (project : Project) (target : Nat) (hfresh : target ≠ project.edited) (acts : List Act) (edit : Edit)
    (h : EditRun project (start project target) acts edit) :
    (edit.phase = .finished .ok → edit.displaced = some target ∧ (project.files target).hash = project.expectedHash) ∧
      (edit.phase = .finished .conflict → edit.target ≠ project.edited ∧ edit.temporary = none ∧
        edit.target = edit.newest.getD target) ∧
      (edit.phase = .finished .ok ∨ edit.phase = .finished .conflict →
        ∀ newest, edit.newest = some newest → edit.target = newest) ∧
      (edit.since < maxRecoveryExchanges → edit.phase ≠ .finished .busy) ∧
      (3 * maxRecoveryExchanges + 6 ≤ (acts.filter Act.isEdit).length → ∃ result, edit.phase = .finished result) := by
  obtain ⟨hsound, rfl⟩ := sound_run hfresh h
  have hphase := hsound.phase
  refine ⟨fun heq => ?_, fun heq => ?_, fun heq => ?_, fun hfew heq => ?_, fun hsteps => ?_⟩
  · rw [heq] at hphase
    exact ⟨hphase.1, hphase.2.1⟩
  · rw [heq] at hphase
    exact ⟨hphase.1 ▸ hsound.current_ne, hphase.2, hphase.1⟩
  · intro newest hnewest
    rcases heq with heq | heq
    · rw [heq] at hphase
      exact hphase.2.2 newest hnewest
    · rw [heq] at hphase
      rw [hphase.1, current, hnewest]
      rfl
  · rw [heq] at hphase
    exact absurd hphase (Nat.not_le.mpr hfew)
  · refine finished_run (sound_start hfresh) h (Nat.le_trans ?_ hsteps)
    by_cases hhash : (project.files edit.original).hash = project.expectedHash
    · simp [remaining, start, hhash]
    · simp [remaining, start, hhash]

/-! Others that replace the target before each round. -/

private def plain : Project := ⟨fun _ => ⟨"h", [], (0, 0, 0)⟩, 1, "h"⟩

/-- The state after acts that are fresh where they stand. -/
private def play (project : Project) : Edit → List Act → Option Edit
  | edit, [] => some edit
  | edit, .edit readable :: acts => play project (edit.step project (.edit readable)) acts
  | edit, .replace inode :: acts =>
    if inode ∈ edit.seen then none else play project (edit.step project (.replace inode)) acts

private theorem run_of_play {acts : List Act} {edit edit' : Edit} (h : play project edit acts = some edit') :
    EditRun project edit acts edit' := by
  induction acts generalizing edit with
  | nil =>
    obtain rfl := Option.some.inj h
    exact .nil _
  | cons act acts ih =>
    cases act with
    | edit readable => exact .cons ⟨trivial, rfl⟩ (ih h)
    | replace inode =>
      rw [play] at h
      split at h
      · cases h
      next hnew => exact .cons ⟨hnew, rfl⟩ (ih h)

/-- An edit that nobody disturbs. -/
theorem edit_undisturbed : ∃ edit, play plain (start plain 0) (.replicate 5 (.edit true)) = some edit ∧
    edit.phase = .finished .ok ∧ edit.target = 1 ∧ edit.displaced = some 0 := by
  have hplay : play plain (start plain 0) (.replicate 5 (.edit true)) =
      some ⟨1, none, .finished .ok, 0, some 0, none, [0, 1], 0, 0⟩ := by decide
  have hok := (file_edit plain 0 (show (0 : Nat) ≠ 1 by decide) _ _ (run_of_play hplay)).1 rfl
  exact ⟨_, hplay, rfl, rfl, hok.1⟩

/-- One replacement before the exchange is looked at and one before each round
but the first: sixty-three while the loop runs. -/
private def disturbed : List Act :=
  [.edit true, .edit true, .replace 10, .edit true, .replace 11, .edit true, .edit true, .edit true, .edit true] ++
    (List.range 63).flatMap (fun k => [.replace (12 + k), .edit true, .edit true, .edit true]) ++ [.edit true]

/-- A replacement between the exchange and the loop counts as well. -/
theorem recovery_exhausted : ¬ ∀ project target acts edit, target ≠ project.edited →
    EditRun project (start project target) acts edit → edit.during < maxRecoveryExchanges →
      edit.phase ≠ .finished .busy := by
  intro hall
  have hplay : (play plain (start plain 0) disturbed).any
      (fun edit => edit.phase = .finished .busy ∧ edit.during < maxRecoveryExchanges) = true := by decide +kernel
  obtain ⟨edit, hedit, hbusy⟩ := (Option.any_eq_true _ _).mp hplay
  obtain ⟨hfinished, hfew⟩ := of_decide_eq_true hbusy
  exact hall plain 0 disturbed edit (show (0 : Nat) ≠ 1 by decide) (run_of_play hedit) hfew hfinished

end Edit

end Atmux.Workspace
