/-
A queued relaunch acts at most once.

A turn of a task that has the lock of its pane's gate touches that gate and
what is logged of that pane (`Touches`); any other turn leaves the generations
and the log of every pane alone (`Leaves`). `Sound` says what the world keeps
and `Kept` what each task relies on, in every order of turns: the gate of a
pane is the one that every handle to it is of, and the generation has moved as
often as the log says since a relaunch recorded it, up to one advance that is
not copied yet.

The generation wraps, so a relaunch is held back by any number of advances
short of going all the way round.
-/
import Mathlib.Algebra.Group.Nat.Defs
import Atmux.PaneGate.Gate

namespace Atmux.PaneGate

open Lib

/-- The phases that have the lock. -/
def Phase.locks : Phase → Bool
  | .entered | .rechecking | .advancing | .mirroring | .delivering => true
  | _ => false

/-- The phases of a relaunch that has not compared its generation. -/
def Phase.unchecked : Phase → Bool
  | .queued | .waiting | .entered => true
  | _ => false

inductive Resource
  | handle (gate : Nat)
  | lock (gate : Nat)

def Task.share : Resource → Task → Nat
  | _, .calling _ => 0
  | .handle g, .holding _ _ gate _ => if gate = g then 1 else 0
  | .lock g, .holding phase _ gate _ => if gate = g ∧ phase.locks = true then 1 else 0

def World.total : Resource → World → Nat
  | .handle g, w => (w.gates g).strong
  | .lock g, w => (w.gates g).locked.toNat

/-- What a turn logs of the pane it has the lock of. -/
def Event.critical (pane : String) : Event → Bool
  | .checked p _ _ | .advanced p | .delivered p _ => p == pane
  | .recorded .. => false

def World.trail (w : World) (pane : String) : List Event := w.log.filter (Event.critical pane)

/-- Advances since a relaunch recorded that let it act: none, or a whole round. -/
def Unmoved (pane : String) (between : List Event) : Prop :=
  between.count (.advanced pane) < 2 ^ 64 - 1 → between.count (.advanced pane) = 0

structure Sound (w : World) : Prop where
  fresh : ∀ gate, w.allocated ≤ gate → w.gates gate = {}
  known : ∀ {pane : String} {gate}, w.locks[pane]? = some gate → gate < w.allocated
  own : ∀ {pane other : String} {gate}, w.locks[pane]? = some gate → w.locks[other]? = some gate → pane = other
  bounded : ∀ gate, (w.gates gate).generation < 2 ^ 64
  behind : ∀ gate, ∃ stale ≤ 1, ((w.gates gate).mirror + stale) % 2 ^ 64 = (w.gates gate).generation
  settled : ∀ gate, (w.gates gate).locked = false → (w.gates gate).mirror = (w.gates gate).generation
  tickets : ∀ {pane ticket}, .recorded pane ticket ∈ w.log → ticket < w.tickets
  once : ∀ pane ticket, w.log.count (.recorded pane ticket) ≤ 1
  passed : ∀ {pane ticket newer older}, w.log = newer ++ .checked pane ticket true :: older →
    ∃ between before, older = between ++ .recorded pane ticket :: before ∧ Unmoved pane between
  acted : ∀ {pane ticket}, .delivered pane (some ticket) ∈ w.log → ∃ newer older,
    w.trail pane = newer ++ .delivered pane (some ticket) :: .advanced pane :: .checked pane ticket true :: older

/-- What a task with a handle relies on. -/
structure Kept (w : World) (phase : Phase) (pane : String) (gate : Nat) (token : Option Token) : Prop where
  entry : w.locks[pane]? = some gate
  mirror : phase.locks = true → phase ≠ .mirroring → (w.gates gate).mirror = (w.gates gate).generation
  recorded : ∀ t, token = some t → ∃ between before, w.log = between ++ .recorded pane t.ticket :: before ∧
    (phase.unchecked = true → ∃ stale ≤ 1,
      (t.expected + stale + between.count (.advanced pane)) % 2 ^ 64 = (w.gates gate).generation)
  passed : ∀ t, token = some t → phase = .rechecking ∨ phase = .advancing →
    ∃ older, w.trail pane = .checked pane t.ticket true :: older
  mutated : ∀ t, token = some t → phase = .mirroring ∨ phase = .delivering →
    ∃ older, w.trail pane = .advanced pane :: .checked pane t.ticket true :: older

def Task.Kept (w : World) : Task → Prop
  | .calling _ => True
  | .holding phase request gate token => PaneGate.Kept w phase request.pane gate token

/-! ## What a turn changes -/

/-- A turn under the lock of a pane's gate, and what it logs. -/
structure Touches (pane : String) (gate : Nat) (event : Option Event) (w w' : World) : Prop where
  locks : w'.locks = w.locks
  allocated : w'.allocated = w.allocated
  tickets : w'.tickets = w.tickets
  gates : ∀ g, g ≠ gate → w'.gates g = w.gates g
  log : w'.log = event.toList ++ w.log
  critical : ∀ e, event = some e → e.critical pane = true
  generation : (w'.gates gate).generation =
    ((w.gates gate).generation + event.toList.count (.advanced pane)) % 2 ^ 64

/-- A turn without the lock. -/
structure Leaves (w w' : World) : Prop where
  entry : ∀ {pane : String} {gate}, w.locks[pane]? = some gate → 0 < (w.gates gate).strong → w'.locks[pane]? = some gate
  gates : ∀ gate < w.allocated, (w'.gates gate).generation = (w.gates gate).generation ∧
    (w'.gates gate).mirror = (w.gates gate).mirror
  log : w'.log = w.log ∨ ∃ pane, w'.log = .recorded pane w.tickets :: w.log

section
variable {w w' : World} {pane other : String} {gate gate' : Nat} {event : Option Event} {phase : Phase}
  {token : Option Token}

theorem Event.critical_unique {e : Event} (h : e.critical pane = true) (other : String) : e.critical other = decide (pane = other) := by
  cases e with
  | recorded => cases h
  | checked p | advanced p | delivered p =>
    obtain rfl : p = pane := by simpa [Event.critical] using h
    rfl

theorem Touches.trail_of_ne (h : Touches pane gate event w w') (hne : pane ≠ other) : w'.trail other = w.trail other := by
  unfold World.trail
  rw [h.log, List.filter_append]
  cases event with
  | none => rfl
  | some e =>
    have hcritical := Event.critical_unique (h.critical e rfl) other
    simp [hcritical, hne]

theorem Touches.count_of_ne (h : Touches pane gate event w w') (hne : pane ≠ other) :
    event.toList.count (.advanced other) = 0 := by
  cases event with
  | none => rfl
  | some e =>
    have hcritical := Event.critical_unique (h.critical e rfl) other
    rw [List.count_eq_zero, Option.toList_some, List.mem_singleton]
    rintro rfl
    simp [Event.critical, hne] at hcritical

/-- A turn under another gate's lock, or under this one's while the task does
not have it. -/
theorem Kept.touched (h : Kept w phase other gate' token) (ht : Touches pane gate event w w') (hs : Sound w)
    (hentry : w.locks[pane]? = some gate) (hfree : gate = gate' → phase.locks = false) :
    Kept w' phase other gate' token := by
  by_cases hpane : pane = other
  · subst hpane
    obtain rfl : gate = gate' := Option.some.inj (hentry.symm.trans h.entry)
    have hfree := hfree rfl
    refine ⟨ht.locks ▸ h.entry, fun hlocks => ?_, fun t htoken => ?_, fun t _ hphase => ?_, fun t _ hphase => ?_⟩
    · rw [hfree] at hlocks
      cases hlocks
    · obtain ⟨between, before, hlog, hgeneration⟩ := h.recorded t htoken
      refine ⟨event.toList ++ between, before, by rw [ht.log, hlog, List.append_assoc], fun hunchecked => ?_⟩
      obtain ⟨stale, hstale, heq⟩ := hgeneration hunchecked
      refine ⟨stale, hstale, ?_⟩
      rw [ht.generation, ← heq, List.count_append]
      omega
    · rcases hphase with rfl | rfl <;> cases hfree
    · rcases hphase with rfl | rfl <;> cases hfree
  · have hgate : gate ≠ gate' := by
      rintro rfl
      exact hpane (hs.own hentry h.entry)
    have hsame := ht.gates gate' hgate.symm
    have htrail := ht.trail_of_ne hpane
    refine ⟨ht.locks ▸ h.entry, ?_, fun t htoken => ?_, ?_, ?_⟩
    · rw [hsame]
      exact h.mirror
    · obtain ⟨between, before, hlog, hgeneration⟩ := h.recorded t htoken
      refine ⟨event.toList ++ between, before, by rw [ht.log, hlog, List.append_assoc], ?_⟩
      rw [hsame, List.count_append, ht.count_of_ne hpane, Nat.zero_add]
      exact hgeneration
    · rw [htrail]
      exact h.passed
    · rw [htrail]
      exact h.mutated

theorem Leaves.trail (h : Leaves w w') (pane : String) : w'.trail pane = w.trail pane := by
  unfold World.trail
  rcases h.log with hlog | ⟨p, hlog⟩
  · rw [hlog]
  · rw [hlog, List.filter_cons_of_neg (by simp [Event.critical])]

/-- A turn without a lock keeps what a task with a handle relies on. -/
theorem Kept.left (h : Kept w phase pane gate token) (hl : Leaves w w') (hs : Sound w)
    (hlive : 0 < (w.gates gate).strong) : Kept w' phase pane gate token := by
  obtain ⟨hgeneration, hmirror⟩ := hl.gates gate (hs.known h.entry)
  have htrail := hl.trail pane
  refine ⟨hl.entry h.entry hlive, ?_, fun t htoken => ?_, ?_, ?_⟩
  · rw [hgeneration, hmirror]
    exact h.mirror
  · obtain ⟨between, before, hlog, hkept⟩ := h.recorded t htoken
    rw [hgeneration]
    rcases hl.log with hsame | ⟨p, hnew⟩
    · exact ⟨between, before, hsame.trans hlog, hkept⟩
    · refine ⟨.recorded p w.tickets :: between, before, by rw [hnew, hlog]; rfl, ?_⟩
      rw [List.count_cons_of_ne (by simp)]
      exact hkept
  · rw [htrail]
    exact h.passed
  · rw [htrail]
    exact h.mutated

/-! ## Getting a gate -/

theorem getElem?_retained : w.retained[pane]? = some gate ↔ w.locks[pane]? = some gate ∧ 0 < (w.gates gate).strong := by
  rw [World.retained, Std.ExtTreeMap.getElem?_filter', Option.filter_eq_some_iff]
  simp

theorem Leaves.promptLock (w : World) (pane : String) : Leaves w (w.promptLock pane).1 := by
  unfold World.promptLock
  cases hget : w.retained[pane]? with
  | some live =>
    refine ⟨fun hentry hlive => getElem?_retained.mpr ⟨hentry, hlive⟩, fun g _ => ?_, .inl rfl⟩
    by_cases hg : g = live
    · subst hg
      exact ⟨by rw [World.update_gates_self], by rw [World.update_gates_self]⟩
    · exact ⟨by rw [World.update_gates_of_ne hg], by rw [World.update_gates_of_ne hg]⟩
  | none =>
    refine ⟨fun {p g} hentry hlive => ?_, fun g hlt => ?_, .inl rfl⟩
    · have hkept := getElem?_retained.mpr ⟨hentry, hlive⟩
      have hne : pane ≠ p := by
        rintro rfl
        rw [hget] at hkept
        cases hkept
      rw [Std.ExtTreeMap.getElem?_insert, if_neg (by simpa using hne)]
      exact hkept
    · simp [Function.update_of_ne hlt.ne]

/-- The pane has the gate it was given, which has one handle more. -/
theorem promptLock_gate (hs : Sound w) (pane : String) :
    (w.promptLock pane).1.locks[pane]? = some (w.promptLock pane).2 ∧
      ∀ g, (w.promptLock pane).1.gates g =
        { w.gates g with strong := (w.gates g).strong + if (w.promptLock pane).2 = g then 1 else 0 } := by
  unfold World.promptLock
  cases hget : w.retained[pane]? with
  | some live =>
    refine ⟨hget, fun g => ?_⟩
    by_cases hg : live = g
    · subst hg
      rw [World.update_gates_self, if_pos rfl]
    · rw [World.update_gates_of_ne (Ne.symm hg), if_neg hg]
      rfl
  | none =>
    refine ⟨by simp, fun g => ?_⟩
    by_cases hg : w.allocated = g
    · subst hg
      simp [hs.fresh]
    · simp [Function.update_of_ne (Ne.symm hg), hg]

theorem Sound.promptLock (hs : Sound w) (pane : String) : Sound (w.promptLock pane).1 := by
  obtain ⟨hown, hgates⟩ := promptLock_gate hs pane
  have hlog : (w.promptLock pane).1.log = w.log ∧ (w.promptLock pane).1.tickets = w.tickets := by
    unfold World.promptLock
    split <;> exact ⟨rfl, rfl⟩
  have hallocated : w.allocated ≤ (w.promptLock pane).1.allocated := by
    unfold World.promptLock
    split
    · exact le_rfl
    · exact Nat.le_succ _
  have hentry : ∀ {p : String} {g}, (w.promptLock pane).1.locks[p]? = some g →
      w.locks[p]? = some g ∨ p = pane ∧ g = w.allocated ∧ g < (w.promptLock pane).1.allocated := by
    intro p g
    unfold World.promptLock
    cases hget : w.retained[pane]? with
    | some live => exact fun h => .inl (getElem?_retained.mp h).1
    | none =>
      intro h
      rw [Std.ExtTreeMap.getElem?_insert] at h
      split at h
      next heq =>
        obtain rfl := Option.some.inj h
        obtain rfl : pane = p := by simpa using heq
        exact .inr ⟨rfl, rfl, Nat.lt_succ_self _⟩
      next => exact .inl (getElem?_retained.mp h).1
  have hknown : ∀ {p : String} {g}, (w.promptLock pane).1.locks[p]? = some g → g < (w.promptLock pane).1.allocated := by
    intro p g h
    rcases hentry h with h | ⟨-, -, hlt⟩
    · exact (hs.known h).trans_le hallocated
    · exact hlt
  refine ⟨fun g hle => ?_, hknown, fun {p q g} hp hq => ?_, fun g => ?_, fun g => ?_, fun g => ?_, ?_, ?_, ?_, ?_⟩
  · have hne : (w.promptLock pane).2 ≠ g := ((hknown hown).trans_le hle).ne
    rw [hgates, hs.fresh g (hallocated.trans hle), if_neg hne]
  · rcases hentry hp with hold | ⟨rfl, heq, -⟩
    · rcases hentry hq with hold' | ⟨-, heq, -⟩
      · exact hs.own hold hold'
      · exact absurd heq (hs.known hold).ne
    · rcases hentry hq with hold | ⟨rfl, -, -⟩
      · exact absurd heq (hs.known hold).ne
      · rfl
  · rw [hgates]
    exact hs.bounded g
  · rw [hgates]
    exact hs.behind g
  · rw [hgates]
    exact hs.settled g
  · rw [hlog.1, hlog.2]
    exact hs.tickets
  · rw [hlog.1]
    exact hs.once
  · rw [hlog.1]
    exact hs.passed
  · unfold World.trail
    rw [hlog.1]
    exact hs.acted

/-! ## One turn -/

theorem Touches.refl (hs : Sound w) (pane : String) (gate : Nat) : Touches pane gate none w w :=
  ⟨rfl, rfl, rfl, fun _ _ => rfl, rfl, fun _ h => (by cases h), (Nat.mod_eq_of_lt (hs.bounded gate)).symm⟩

/-- A change of the gate that leaves its generation. -/
theorem Touches.update (h : Touches pane gate event w w') (change : Gate → Gate)
    (hsame : (change (w'.gates gate)).generation = (w'.gates gate).generation) :
    Touches pane gate event w (w'.update gate change) := by
  refine ⟨h.locks, h.allocated, h.tickets, fun g hg => ?_, h.log, h.critical, ?_⟩
  · rw [World.update_gates_of_ne hg]
    exact h.gates g hg
  · rw [World.update_gates_self, hsame, h.generation]

theorem Touches.leave (h : Touches pane gate event w w') (request : Request) (token : Option Token) :
    Touches pane gate event w (leave w' request gate token).1 :=
  h.update (fun g => { g with locked := false }) rfl

/-- What is logged without an advance. -/
theorem Touches.happened (hs : Sound w) (gate : Nat) {e : Event} (hcritical : e.critical pane = true)
    (hne : e ≠ .advanced pane) : Touches pane gate (some e) w (w.happened e) := by
  have hcount : [e].count (.advanced pane) = 0 := by
    rw [List.count_eq_zero, List.mem_singleton]
    exact hne.symm
  refine ⟨rfl, rfl, rfl, fun _ _ => rfl, rfl, fun e' he => Option.some.inj he ▸ hcritical, ?_⟩
  rw [Option.toList_some, hcount, Nat.add_zero, Nat.mod_eq_of_lt (hs.bounded gate)]
  rfl

theorem Touches.advance (w : World) (pane : String) (gate : Nat) :
    Touches pane gate (some (.advanced pane)) w ((w.advance gate).happened (.advanced pane)) := by
  refine ⟨rfl, rfl, rfl, fun g hg => Function.update_of_ne hg .., rfl, fun e he => ?_, ?_⟩
  · obtain rfl := Option.some.inj he
    simp [Event.critical]
  · simp [World.advance, World.happened, World.update]

/-- A turn of a task that has the lock. -/
theorem act_touches (hs : Sound w) (answer : Bool) (gate : Nat) (token : Option Token) (request : Request)
    (hlocks : phase.locks = true) :
    ∃ event, Touches request.pane gate event w (act answer w (.holding phase request gate token)).1 := by
  have hrefl := Touches.refl hs request.pane gate
  have hchecked : ∀ ticket passed, Touches request.pane gate (some (.checked request.pane ticket passed)) w
      (w.happened (.checked request.pane ticket passed)) :=
    fun ticket passed => .happened hs gate (by simp [Event.critical]) (by simp)
  cases phase with
  | recording | queued | waiting | releasing => cases hlocks
  | entered =>
    cases token with
    | none => exact ⟨none, hrefl⟩
    | some token =>
      simp only [act]
      split
      · exact ⟨_, hchecked token.ticket true⟩
      · exact ⟨_, (hchecked token.ticket false).leave request (some token)⟩
  | rechecking =>
    simp only [act]
    split
    · exact ⟨none, hrefl⟩
    · exact ⟨none, hrefl.leave request token⟩
  | advancing =>
    simp only [act]
    split
    · exact ⟨_, .advance w request.pane gate⟩
    · exact ⟨none, hrefl.leave request token⟩
  | mirroring => exact ⟨none, hrefl.update (fun g => { g with mirror := g.generation }) rfl⟩
  | delivering =>
    have hdelivered : Touches request.pane gate (some (.delivered request.pane (token.map Token.ticket))) w _ :=
      .happened hs gate (by simp [Event.critical]) (by simp)
    exact ⟨_, hdelivered.leave request token⟩

/-- A turn of a task that has a handle, but not the lock. -/
theorem act_leaves (w : World) (answer : Bool) {request : Request} (hlocks : phase.locks = false) :
    Leaves w (act answer w (.holding phase request gate token)).1 := by
  have hrefl : Leaves w w := ⟨fun h _ => h, fun _ _ => ⟨rfl, rfl⟩, .inl rfl⟩
  have hupdate : ∀ change : Gate → Gate, (change (w.gates gate)).generation = (w.gates gate).generation →
      (change (w.gates gate)).mirror = (w.gates gate).mirror → Leaves w (w.update gate change) := by
    intro change hgeneration hmirror
    refine ⟨fun h _ => h, fun g _ => ?_, .inl rfl⟩
    by_cases hg : g = gate
    · subst hg
      rw [World.update_gates_self]
      exact ⟨hgeneration, hmirror⟩
    · rw [World.update_gates_of_ne hg]
      exact ⟨rfl, rfl⟩
  cases phase with
  | entered | rechecking | advancing | mirroring | delivering => cases hlocks
  | recording => exact ⟨fun h _ => h, fun _ _ => ⟨rfl, rfl⟩, .inr ⟨request.pane, rfl⟩⟩
  | queued =>
    simp only [act]
    split <;> exact hrefl
  | waiting =>
    simp only [act]
    split
    · exact hrefl
    · exact hupdate (fun g => { g with locked := true }) rfl rfl
  | releasing => exact hupdate (fun g => { g with strong := g.strong - 1 }) rfl rfl

theorem total_update_handle (w : World) (gate g : Nat) (change : Gate → Gate) :
    (w.update gate change).total (.handle g) =
      if gate = g then (change (w.gates gate)).strong else (w.gates g).strong := by
  by_cases hg : gate = g
  · subst hg
    simp [World.total]
  · simp [World.total, hg, World.update_gates_of_ne (Ne.symm hg)]

theorem total_update_lock (w : World) (gate g : Nat) (change : Gate → Gate) :
    (w.update gate change).total (.lock g) =
      if gate = g then (change (w.gates gate)).locked.toNat else (w.gates g).locked.toNat := by
  by_cases hg : gate = g
  · subst hg
    simp [World.total]
  · simp [World.total, hg, World.update_gates_of_ne (Ne.symm hg)]

theorem total_update_of_same (w : World) {change : Gate → Gate}
    (hstrong : (change (w.gates gate)).strong = (w.gates gate).strong)
    (hlocked : (change (w.gates gate)).locked = (w.gates gate).locked) (k : Resource) :
    (w.update gate change).total k = w.total k := by
  cases k with
  | handle g =>
    rw [total_update_handle]
    split
    next heq => exact heq ▸ hstrong
    next => rfl
  | lock g =>
    rw [total_update_lock]
    split
    next heq => exact heq ▸ congrArg Bool.toNat hlocked
    next => rfl

theorem happened_total (w : World) (e : Event) (k : Resource) : (w.happened e).total k = w.total k := by
  cases k <;> rfl

/-- A task that gives up the lock keeps its handle. -/
theorem leave_balance (w : World) (phase : Phase) (request : Request) (token : Option Token) (hlocks : phase.locks = true)
    (hlocked : (w.gates gate).locked = true) (k : Resource) :
    (((leave w request gate token).2.map (Task.share k)).sum) + w.total k =
      Task.share k (.holding phase request gate token) + (leave w request gate token).1.total k := by
  cases k with
  | handle g =>
    rw [leave, total_update_handle]
    by_cases hg : gate = g
    · subst hg
      simp [Task.share, World.total]
    · simp [Task.share, World.total, hg]
  | lock g =>
    rw [leave, total_update_lock]
    by_cases hg : gate = g
    · subst hg
      simp [Task.share, World.total, hlocks, hlocked]
      rfl
    · simp [Task.share, World.total, hg]

/-- The gate of a task that has the lock is locked. -/
theorem locked_of_share {request : Request} (hshare : ∀ k, Task.share k (.holding phase request gate token) ≤ w.total k)
    (hlocks : phase.locks = true) : (w.gates gate).locked = true := by
  have hle := hshare (.lock gate)
  simp only [Task.share, World.total, hlocks, and_self, if_true] at hle
  cases hfree : (w.gates gate).locked with
  | true => rfl
  | false => simp [hfree] at hle

/-- The handles and the locks of the tasks are those that are out. -/
theorem act_balance (k : Resource) (answer : Bool) (hs : Sound w) (task : Task)
    (hshare : ∀ k, task.share k ≤ w.total k) :
    ((act answer w task).2.map (Task.share k)).sum + w.total k = task.share k + (act answer w task).1.total k := by
  cases task with
  | calling request =>
    obtain ⟨-, hgates⟩ := promptLock_gate hs request.pane
    have hlocks : request.mutation.next.locks = false := by
      cases request.mutation <;> rfl
    cases k with
    | handle g => simp [act, Task.share, World.total, hgates, Nat.add_comm]
    | lock g => simp [act, Task.share, World.total, hgates, hlocks]
  | holding phase request gate token =>
    have hlocked := locked_of_share hshare
    cases phase with
    | recording => cases k <;> simp [act, Task.share, World.total, World.happened, Phase.locks]
    | queued =>
      simp only [act]
      split <;> cases k <;> simp [Task.share, Phase.locks]
    | waiting =>
      simp only [act]
      split
      · simp
      next hfree =>
        cases k with
        | handle g =>
          rw [total_update_handle]
          by_cases hg : gate = g
          · subst hg
            simp [Task.share, World.total]
          · simp [Task.share, World.total, hg]
        | lock g =>
          rw [total_update_lock]
          by_cases hg : gate = g
          · subst hg
            simp [Task.share, World.total, Phase.locks, hfree]
          · simp [Task.share, World.total, hg]
    | entered =>
      cases token with
      | none => cases k <;> simp [act, Task.share, Phase.locks]
      | some token =>
        simp only [act]
        split
        · cases k <;> simp [Task.share, World.total, World.happened, Phase.locks]
        · have hleave := leave_balance (w.happened (.checked request.pane token.ticket false)) .entered request
            (some token) rfl (hlocked rfl) k
          rw [happened_total] at hleave
          exact hleave
    | rechecking =>
      simp only [act]
      split
      · cases k <;> simp [Task.share, Phase.locks]
      · exact leave_balance w _ request token rfl (hlocked rfl) k
    | advancing =>
      simp only [act]
      split
      · rw [happened_total, World.advance, total_update_of_same w rfl rfl]
        cases k <;> simp [Task.share, Phase.locks]
      · exact leave_balance w _ request token rfl (hlocked rfl) k
    | mirroring =>
      simp only [act]
      rw [total_update_of_same w rfl rfl]
      cases k <;> simp [Task.share, Phase.locks]
    | delivering =>
      have hleave := leave_balance (w.happened (.delivered request.pane (token.map Token.ticket)))
        .delivering request token rfl (hlocked rfl) k
      rw [happened_total] at hleave
      exact hleave
    | releasing =>
      have hle := hshare (.handle gate)
      simp only [Task.share, World.total, if_true] at hle
      simp only [act]
      cases k with
      | handle g =>
        rw [total_update_handle]
        by_cases hg : gate = g
        · subst hg
          simp [Task.share, World.total]
          omega
        · simp [Task.share, World.total, hg]
      | lock g =>
        rw [total_update_lock]
        by_cases hg : gate = g
        · subst hg
          simp [Task.share, World.total, Phase.locks]
        · simp [Task.share, World.total, hg, Phase.locks]

/-! ## What a turn keeps -/

/-- A turn under the lock, when what it logs is as it should be. -/
theorem Sound.touched (hs : Sound w) (ht : Touches pane gate event w w') (hgate : gate < w.allocated)
    (hbehind : ∃ stale ≤ 1, ((w'.gates gate).mirror + stale) % 2 ^ 64 = (w'.gates gate).generation)
    (hsettled : (w'.gates gate).locked = false → (w'.gates gate).mirror = (w'.gates gate).generation)
    (hpassed : ∀ t, event = some (.checked pane t true) →
      ∃ between before, w.log = between ++ .recorded pane t :: before ∧ Unmoved pane between)
    (hacted : ∀ t, event = some (.delivered pane (some t)) →
      ∃ older, w.trail pane = .advanced pane :: .checked pane t true :: older) : Sound w' := by
  have hrecorded : ∀ p t, .recorded p t ∉ event.toList := by
    intro p t hmem
    have hcritical := ht.critical _ (Option.mem_toList.mp hmem)
    cases hcritical
  refine ⟨fun g hle => ?_, ?_, ?_, fun g => ?_, fun g => ?_, fun g => ?_, fun {p t} hmem => ?_, fun p t => ?_,
    fun {p t newer older} hlog => ?_, fun {p t} hmem => ?_⟩
  · rw [ht.allocated] at hle
    rw [ht.gates g (by omega)]
    exact hs.fresh g hle
  · rw [ht.locks, ht.allocated]
    exact hs.known
  · rw [ht.locks]
    exact hs.own
  · by_cases hg : g = gate
    · rw [hg, ht.generation]
      exact Nat.mod_lt _ (by decide)
    · rw [ht.gates g hg]
      exact hs.bounded g
  · by_cases hg : g = gate
    · rwa [hg]
    · rw [ht.gates g hg]
      exact hs.behind g
  · by_cases hg : g = gate
    · rwa [hg]
    · rw [ht.gates g hg]
      exact hs.settled g
  · rw [ht.log, List.mem_append] at hmem
    rw [ht.tickets]
    exact hs.tickets (hmem.resolve_left (hrecorded p t))
  · rw [ht.log, List.count_append, List.count_eq_zero.mpr (hrecorded p t), Nat.zero_add]
    exact hs.once p t
  · rw [ht.log] at hlog
    cases event with
    | none => exact hs.passed hlog
    | some e =>
      cases newer with
      | nil =>
        obtain ⟨rfl, rfl⟩ := List.cons.inj hlog
        obtain rfl : p = pane := by simpa [Event.critical] using ht.critical _ rfl
        exact hpassed t rfl
      | cons e' newer => exact hs.passed (List.cons.inj hlog).2
  · rw [ht.log, List.mem_append] at hmem
    have htrail : w'.trail p = event.toList.filter (Event.critical p) ++ w.trail p := by
      unfold World.trail
      rw [ht.log, List.filter_append]
    rcases hmem with hmem | hmem
    · have hevent := Option.mem_toList.mp hmem
      obtain rfl : p = pane := by simpa [Event.critical] using ht.critical _ hevent
      obtain ⟨older, hold⟩ := hacted t hevent
      refine ⟨[], older, ?_⟩
      rw [htrail, hevent, hold]
      simp [Event.critical]
    · obtain ⟨newer, older, hold⟩ := hs.acted hmem
      exact ⟨event.toList.filter (Event.critical p) ++ newer, older, by rw [htrail, hold, List.append_assoc]⟩

/-- A change of a gate that leaves its generation and its copy, and does not
unlock it. -/
theorem Sound.update (hs : Sound w) (hgate : gate < w.allocated) (change : Gate → Gate)
    (hgeneration : (change (w.gates gate)).generation = (w.gates gate).generation)
    (hmirror : (change (w.gates gate)).mirror = (w.gates gate).mirror)
    (hlocked : (change (w.gates gate)).locked = false → (w.gates gate).locked = false) :
    Sound (w.update gate change) := by
  have hsame : ((w.update gate change).gates gate).generation = (w.gates gate).generation := by
    rw [World.update_gates_self, hgeneration]
  refine hs.touched ((Touches.refl hs "" gate).update change hgeneration) hgate ?_ ?_ (fun _ h => (by cases h))
    fun _ h => (by cases h)
  · rw [World.update_gates_self, hgeneration, hmirror]
    exact hs.behind gate
  · rw [World.update_gates_self, hgeneration, hmirror]
    exact fun h => hs.settled gate (hlocked h)

/-- A relaunch took a ticket. -/
theorem Sound.recorded (hs : Sound w) (pane : String) :
    Sound { w.happened (.recorded pane w.tickets) with tickets := w.tickets + 1 } := by
  refine ⟨hs.fresh, hs.known, hs.own, hs.bounded, hs.behind, hs.settled, fun {p t} hmem => ?_, fun p t => ?_,
    fun {p t newer older} hlog => ?_, fun {p t} hmem => ?_⟩
  · rcases List.mem_cons.mp hmem with heq | hmem
    · obtain ⟨-, rfl⟩ := Event.recorded.inj heq
      exact Nat.lt_succ_self _
    · exact (hs.tickets hmem).trans (Nat.lt_succ_self _)
  · by_cases heq : Event.recorded pane w.tickets = .recorded p t
    · obtain ⟨rfl, rfl⟩ := Event.recorded.inj heq
      have hfresh : w.log.count (.recorded pane w.tickets) = 0 := by
        rw [List.count_eq_zero]
        exact fun hmem => absurd (hs.tickets hmem) (lt_irrefl _)
      simp [World.happened, hfresh]
    · simp only [World.happened, List.count_cons_of_ne heq]
      exact hs.once p t
  · cases newer with
    | nil => cases hlog
    | cons e newer => exact hs.passed (List.cons.inj hlog).2
  · rcases List.mem_cons.mp hmem with heq | hmem
    · cases heq
    · exact hs.acted hmem

/-- Before the comparison and after the lock there is no more to rely on. -/
theorem Kept.plain (hphase : phase ∈ [Phase.recording, .queued, .waiting, .entered, .releasing])
    (hentry : w.locks[pane]? = some gate)
    (hmirror : phase = .entered → (w.gates gate).mirror = (w.gates gate).generation)
    (hrecorded : ∀ t, token = some t → ∃ between before, w.log = between ++ .recorded pane t.ticket :: before ∧
      (phase.unchecked = true → ∃ stale ≤ 1,
        (t.expected + stale + between.count (.advanced pane)) % 2 ^ 64 = (w.gates gate).generation)) :
    Kept w phase pane gate token := by
  refine ⟨hentry, fun hlocks _ => hmirror ?_, hrecorded, fun _ _ h => ?_, fun _ _ h => ?_⟩
  · cases phase <;> first | rfl | (cases hlocks; done) | exact absurd hphase (by decide)
  · rcases h with rfl | rfl <;> exact absurd hphase (by decide)
  · rcases h with rfl | rfl <;> exact absurd hphase (by decide)

/-- What is left of a task that gave up the lock. -/
theorem Kept.release (h : Kept w phase pane gate token) (ht : Touches pane gate event w w') :
    Kept w' .releasing pane gate token := by
  refine .plain (by decide) (ht.locks ▸ h.entry) (fun h => (by cases h)) fun t htoken => ?_
  obtain ⟨between, before, hlog, -⟩ := h.recorded t htoken
  exact ⟨event.toList ++ between, before, by rw [ht.log, hlog, List.append_assoc], fun hunchecked => (by cases hunchecked)⟩

/-- What is known of a relaunch's ticket, once it compared its generation. -/
theorem Kept.ticketed (h : Kept w phase pane gate token) (ht : Touches pane gate event w w') {phase' : Phase}
    (hphase : phase'.unchecked = false) (t : Token) (htoken : token = some t) :
    ∃ between before, w'.log = between ++ .recorded pane t.ticket :: before ∧
      (phase'.unchecked = true → ∃ stale ≤ 1,
        (t.expected + stale + between.count (.advanced pane)) % 2 ^ 64 = (w'.gates gate).generation) := by
  obtain ⟨between, before, hlog, -⟩ := h.recorded t htoken
  refine ⟨event.toList ++ between, before, by rw [ht.log, hlog, List.append_assoc], fun hunchecked => ?_⟩
  rw [hphase] at hunchecked
  cases hunchecked

/-- Giving up the lock where the copy is up to date. -/
theorem leave_keeps {request : Request} (h : Kept w phase request.pane gate token) (hs : Sound w)
    (ht : Touches request.pane gate event w w') (hs' : Sound w')
    (hsettled : (w'.gates gate).mirror = (w'.gates gate).generation) :
    Sound (leave w' request gate token).1 ∧ ∀ next ∈ (leave w' request gate token).2, next.Kept (leave w' request gate token).1 := by
  have hgate : gate < w'.allocated := ht.allocated ▸ hs.known h.entry
  refine ⟨?_, fun next hnext => ?_⟩
  · refine hs'.touched ((Touches.refl hs' request.pane gate).leave request token) hgate ?_ ?_ (fun _ h => (by cases h))
      fun _ h => (by cases h)
    · simp only [leave, World.update_gates_self]
      exact hs'.behind gate
    · simp only [leave, World.update_gates_self]
      exact fun _ => hsettled
  · obtain rfl := List.mem_singleton.mp hnext
    exact h.release (ht.leave request token)

/-- A relaunch that finds its generation has at most a whole round behind it. -/
theorem Kept.unmoved (h : Kept w phase pane gate token) {t : Token} (htoken : token = some t)
    (hunchecked : phase.unchecked = true) (hcurrent : (w.gates gate).generation = t.expected) :
    ∃ between before, w.log = between ++ .recorded pane t.ticket :: before ∧ Unmoved pane between := by
  obtain ⟨between, before, hlog, hgeneration⟩ := h.recorded t htoken
  obtain ⟨stale, hstale, heq⟩ := hgeneration hunchecked
  refine ⟨between, before, hlog, fun hlt => ?_⟩
  rw [hcurrent] at heq
  omega

/-- A turn keeps the world sound, and what goes on from it keeps what it relies on. -/
theorem act_keeps (answer : Bool) (hs : Sound w) (task : Task) (h : task.Kept w) (hshare : ∀ k, task.share k ≤ w.total k) :
    Sound (act answer w task).1 ∧ ∀ next ∈ (act answer w task).2, next.Kept (act answer w task).1 := by
  cases task with
  | calling request =>
    refine ⟨hs.promptLock request.pane, fun next hnext => ?_⟩
    obtain rfl := List.mem_singleton.mp hnext
    have hlocks : request.mutation.next.locks = false := by
      cases request.mutation <;> rfl
    refine .plain (by cases request.mutation <;> decide) (promptLock_gate hs request.pane).1 (fun h => ?_)
      fun _ h => (by cases h)
    rw [h] at hlocks
    cases hlocks
  | holding phase request gate token =>
    have hk : Kept w phase request.pane gate token := h
    have hgate := hs.known hk.entry
    have hrefl := Touches.refl hs request.pane gate
    have hlocked : phase.locks = true → (w.gates gate).locked = true := locked_of_share hshare
    cases phase with
    | recording =>
      refine ⟨hs.recorded request.pane, fun next hnext => ?_⟩
      obtain rfl := List.mem_singleton.mp hnext
      refine .plain (by decide) hk.entry (fun h => (by cases h)) fun t htoken => ?_
      obtain rfl := Option.some.inj htoken
      exact ⟨[], w.log, rfl, fun _ => hs.behind gate⟩
    | queued =>
      simp only [act]
      split
      · refine ⟨hs, fun next hnext => ?_⟩
        obtain rfl := List.mem_singleton.mp hnext
        exact .plain (by decide) hk.entry (fun h => (by cases h)) hk.recorded
      · refine ⟨hs, fun next hnext => ?_⟩
        obtain rfl := List.mem_singleton.mp hnext
        exact hk.release hrefl
    | waiting =>
      simp only [act]
      split
      · refine ⟨hs, fun next hnext => ?_⟩
        obtain rfl := List.mem_singleton.mp hnext
        exact hk
      next hfree =>
        refine ⟨hs.update hgate (fun g => { g with locked := true }) rfl rfl fun h => (by cases h), fun next hnext => ?_⟩
        obtain rfl := List.mem_singleton.mp hnext
        have hsettled := hs.settled gate (by simpa using hfree)
        refine .plain (by decide) hk.entry (fun _ => ?_) ?_
        · rw [World.update_gates_self]
          exact hsettled
        · rw [World.update_gates_self]
          exact hk.recorded
    | entered =>
      have hmirror := hk.mirror rfl (by decide)
      cases token with
      | none =>
        refine ⟨hs, fun next hnext => ?_⟩
        obtain rfl := List.mem_singleton.mp hnext
        exact ⟨hk.entry, fun _ _ => hmirror, fun _ h => (by cases h), fun _ h => (by cases h), fun _ h => (by cases h)⟩
      | some token =>
        have hcritical : ∀ passed, (Event.checked request.pane token.ticket passed).critical request.pane = true := by
          simp [Event.critical]
        simp only [act]
        split
        next hcurrent =>
          have ht := Touches.happened hs gate (hcritical true) (by simp)
          refine ⟨hs.touched ht hgate (hs.behind gate) (hs.settled gate) (fun t heq => ?_) fun _ h => (by cases h),
            fun next hnext => ?_⟩
          · obtain ⟨-, rfl, -⟩ := Event.checked.inj (Option.some.inj heq)
            exact hk.unmoved rfl rfl hcurrent
          · obtain rfl := List.mem_singleton.mp hnext
            refine ⟨hk.entry, fun _ _ => hmirror, hk.ticketed ht rfl, fun t htoken _ => ⟨w.trail request.pane, ?_⟩,
              fun _ _ h => ?_⟩
            · obtain rfl := Option.some.inj htoken
              exact List.filter_cons_of_pos (hcritical true)
            · rcases h with h | h <;> cases h
        · have ht := Touches.happened hs gate (hcritical false) (by simp)
          exact leave_keeps hk hs ht (hs.touched ht hgate (hs.behind gate) (hs.settled gate) (fun _ h => (by cases h))
            fun _ h => (by cases h)) hmirror
    | rechecking =>
      have hmirror := hk.mirror rfl (by decide)
      simp only [act]
      split
      · refine ⟨hs, fun next hnext => ?_⟩
        obtain rfl := List.mem_singleton.mp hnext
        exact ⟨hk.entry, fun _ _ => hmirror, hk.ticketed hrefl rfl, fun t htoken _ => hk.passed t htoken (.inl rfl),
          fun _ _ h => by rcases h with h | h <;> cases h⟩
      · exact leave_keeps hk hs hrefl hs hmirror
    | advancing =>
      have hmirror := hk.mirror rfl (by decide)
      simp only [act]
      split
      · have ht := Touches.advance w request.pane gate
        refine ⟨hs.touched ht hgate ⟨1, le_rfl, ?_⟩ ?_ (fun _ h => (by cases h)) fun _ h => (by cases h),
          fun next hnext => ?_⟩
        · simp only [World.happened, World.advance, World.update_gates_self, hmirror]
        · simp only [World.happened, World.advance, World.update_gates_self, hlocked rfl]
          exact fun h => (by cases h)
        · obtain rfl := List.mem_singleton.mp hnext
          refine ⟨hk.entry, fun _ h => absurd rfl h, hk.ticketed ht rfl, fun _ _ h => ?_, fun t htoken _ => ?_⟩
          · rcases h with h | h <;> cases h
          · obtain ⟨older, hold⟩ := hk.passed t htoken (.inr rfl)
            refine ⟨older, ?_⟩
            rw [← hold]
            exact List.filter_cons_of_pos (by simp [Event.critical])
      · exact leave_keeps hk hs hrefl hs hmirror
    | mirroring =>
      have ht := hrefl.update (fun g => { g with mirror := g.generation }) rfl
      refine ⟨hs.touched ht hgate ⟨0, by decide, ?_⟩ ?_ (fun _ h => (by cases h)) fun _ h => (by cases h),
        fun next hnext => ?_⟩
      · simp only [act, World.update_gates_self]
        exact Nat.mod_eq_of_lt (hs.bounded gate)
      · simp only [act, World.update_gates_self]
        exact fun _ => trivial
      · obtain rfl := List.mem_singleton.mp hnext
        refine ⟨hk.entry, fun _ _ => ?_, hk.ticketed ht rfl, fun _ _ h => ?_, fun t htoken _ => ?_⟩
        · simp only [act, World.update_gates_self]
        · rcases h with h | h <;> cases h
        · exact hk.mutated t htoken (.inl rfl)
    | delivering =>
      have hmirror := hk.mirror rfl (by decide)
      have ht : Touches request.pane gate (some (.delivered request.pane (token.map Token.ticket))) w _ :=
        .happened hs gate (by simp [Event.critical]) (by simp)
      refine leave_keeps hk hs ht (hs.touched ht hgate (hs.behind gate) (hs.settled gate) (fun _ h => (by cases h))
        fun t heq => ?_) hmirror
      obtain ⟨-, hticket⟩ := Event.delivered.inj (Option.some.inj heq)
      obtain ⟨token, rfl, rfl⟩ := Option.map_eq_some_iff.mp hticket
      exact hk.mutated token rfl (.inr rfl)
    | releasing =>
      exact ⟨hs.update hgate (fun g => { g with strong := g.strong - 1 }) rfl rfl id, fun _ h => (by cases h)⟩

/-- A turn keeps what every other task relies on. -/
theorem act_frame (answer : Bool) (hs : Sound w) (task other : Task) (htask : task.Kept w) (hother : other.Kept w)
    (hshare : ∀ k, task.share k + other.share k ≤ w.total k) : other.Kept (act answer w task).1 := by
  cases other with
  | calling => trivial
  | holding phase' request' gate' token' =>
    have hk : Kept w phase' request'.pane gate' token' := hother
    have hlive : 0 < (w.gates gate').strong := by
      have hle := hshare (.handle gate')
      simp only [Task.share, World.total, if_true] at hle
      omega
    cases task with
    | calling request => exact hk.left (.promptLock w request.pane) hs hlive
    | holding phase request gate token =>
      cases hlocks : phase.locks with
      | false => exact hk.left (act_leaves w answer hlocks) hs hlive
      | true =>
        obtain ⟨event, ht⟩ := act_touches hs answer gate token request hlocks
        refine hk.touched ht hs htask.entry fun hgate => ?_
        have hle := hshare (.lock gate')
        have hone := Bool.toNat_le (w.gates gate').locked
        simp only [Task.share, World.total, hgate, hlocks, and_self, if_true, true_and] at hle
        cases hlocks' : phase'.locks with
        | false => rfl
        | true =>
          rw [hlocks', if_pos rfl] at hle
          omega

end

theorem conserves : Pool.Conserves enter act Task.share World.total Sound fun w task => task.Kept w where
  enter_task _ _ := trivial
  enter_share k _ := by cases k <;> rfl
  step answer _ task hs htask hshare := act_keeps answer hs task htask hshare
  balance k answer _ task hs _ hshare := act_balance k answer hs task hshare
  frame answer _ task other hs htask hother hshare := act_frame answer hs task other htask hother hshare

theorem sound_start : Pool.Balanced Task.share World.total Sound (fun w task => task.Kept w) start where
  world := by
    refine ⟨fun _ _ => rfl, fun h => ?_, fun h => ?_, fun _ => Nat.two_pow_pos 64, fun _ => ⟨0, by decide, rfl⟩, fun _ _ => rfl,
      fun h => (by cases h), fun _ _ => Nat.zero_le _, fun {_ _ newer _} h => ?_, fun h => (by cases h)⟩
    · simp [start] at h
    · simp [start] at h
    · simp [start] at h
  tasks := fun _ h => (by cases h)
  shares k := by cases k <;> rfl

/-- What the world keeps holds after every order of turns. -/
theorem sound_run (turns : List (Turn Request Bool)) : Sound (start.run enter act turns).world :=
  (conserves.run turns sound_start).world

/-! ## Relaunches of one pane -/

/-- Two acts of one trail do not overlap: one is before the other. -/
theorem acts_ordered {pane : String} {s t : Nat} (hne : s ≠ t) {newer newer' older older' : List Event}
    (h : newer ++ .delivered pane (some s) :: .advanced pane :: .checked pane s true :: older =
      newer' ++ .delivered pane (some t) :: .advanced pane :: .checked pane t true :: older') :
    (∃ x, older = x ++ .delivered pane (some t) :: .advanced pane :: .checked pane t true :: older') ∨
      ∃ x, older' = x ++ .delivered pane (some s) :: .advanced pane :: .checked pane s true :: older := by
  have hlater : ∀ {s t : Nat} {x older older' : List Event}, s ≠ t →
      .delivered pane (some s) :: .advanced pane :: .checked pane s true :: older =
        x ++ .delivered pane (some t) :: .advanced pane :: .checked pane t true :: older' →
      ∃ y, older = y ++ .delivered pane (some t) :: .advanced pane :: .checked pane t true :: older' := by
    intro s t x older older' hne heq
    match x with
    | [] => simp [hne] at heq
    | [_] => simp at heq
    | [_, _] => simp at heq
    | _ :: _ :: _ :: y => exact ⟨y, (List.cons.inj (List.cons.inj (List.cons.inj heq).2).2).2⟩
  rcases List.append_eq_append_iff.mp h with ⟨x, -, heq⟩ | ⟨x, -, heq⟩
  · exact .inl (hlater hne heq)
  · exact .inr (hlater hne.symm heq)

/-- What a log holds before an event that it holds only once. -/
theorem suffix_of_once {e : Event} {l before after older : List Event} (honce : (after ++ before).count e ≤ 1)
    (hmem : e ∈ before) (h : after ++ before = l ++ e :: older) : ∃ q, before = q ++ e :: older := by
  rcases List.append_eq_append_iff.mp h with ⟨q, -, heq⟩ | ⟨q, hafter, heq⟩
  · exact ⟨q, heq⟩
  · cases q with
    | nil => exact ⟨[], heq.symm⟩
    | cons e' q =>
      -- the event would be in both parts
      obtain ⟨rfl, -⟩ := List.cons.inj heq
      have hearlier := List.one_le_count_iff.mpr hmem
      rw [hafter, List.count_append, List.count_append, List.count_cons_self] at honce
      omega

/-- A relaunch that was recorded before another one acted, and compares its
generation after that, passes only when the generation went all the way round. -/
theorem Sound.advanced_between {w : World} (hs : Sound w) {pane : String} {s t : Nat}
    {after before newer older x : List Event} (hlog : w.log = after ++ before)
    (hrecorded : .recorded pane s ∈ before) (hunchecked : .checked pane t true ∉ before)
    (htrail : w.trail pane = newer ++ .checked pane s true :: (x ++ .advanced pane :: .checked pane t true :: older)) :
    ∃ between before', w.log = between ++ .recorded pane s :: before' ∧
      2 ^ 64 - 1 ≤ between.count (.advanced pane) := by
  obtain ⟨l, l', hsplit, -, hrest⟩ := List.filter_eq_append_iff.mp htrail
  obtain ⟨l'', lower, rfl, -, -, hlower⟩ := List.filter_eq_cons_iff.mp hrest
  have hchecked : w.log = (l ++ l'') ++ .checked pane s true :: lower := by
    rw [hsplit, List.append_assoc]
  obtain ⟨between, before', rfl, hunmoved⟩ := hs.passed hchecked
  have hwhole : w.log = ((l ++ l'') ++ .checked pane s true :: between) ++ .recorded pane s :: before' := by
    rw [hchecked, List.append_assoc, List.append_assoc, List.cons_append, List.append_assoc]
  have honce := hs.once pane s
  rw [hlog] at honce
  obtain ⟨q, hq⟩ := suffix_of_once honce hrecorded (hlog.symm.trans hwhole)
  -- The advance is after the other's comparison, which is after the record.
  have hadvanced : .advanced pane ∈ between := by
    rw [List.filter_append, List.filter_cons_of_neg (by simp [Event.critical])] at hlower
    have hassoc : between.filter (Event.critical pane) ++ before'.filter (Event.critical pane) =
        (x ++ [.advanced pane]) ++ .checked pane t true :: older := by
      rw [hlower, List.append_assoc]
      rfl
    rcases List.append_eq_append_iff.mp hassoc with ⟨y, -, hbefore⟩ | ⟨y, hbetween, -⟩
    · have hmem : .checked pane t true ∈ before'.filter (Event.critical pane) := by
        rw [hbefore]
        simp
      refine absurd ?_ hunchecked
      rw [hq]
      simp [List.mem_of_mem_filter hmem]
    · have hmem : .advanced pane ∈ between.filter (Event.critical pane) := by
        rw [hbetween]
        simp
      exact List.mem_of_mem_filter hmem
  refine ⟨_, before', hwhole, ?_⟩
  have hpos := List.one_le_count_iff.mpr hadvanced
  have hle : between.count (.advanced pane) ≤
      ((l ++ l'') ++ .checked pane s true :: between).count (.advanced pane) := by
    rw [List.count_append, List.count_cons]
    omega
  by_contra hlt
  have hzero := hunmoved (by omega)
  omega

/-- An interrupt of the pane, start to end. -/
def interruption : List (Turn Request Bool) := .call ⟨"%1", .interrupt⟩ :: List.replicate 9 (.advance 0 true)

theorem run_interruption {w : World} {generation : Nat} (tasks : List Task) (hentry : w.locks["%1"]? = some 0)
    (hgate : w.gates 0 = ⟨generation, generation, false, 1⟩) :
    ∃ w', (⟨w, tasks⟩ : Pool World Task).run enter act interruption = ⟨w', tasks⟩ ∧ w'.locks["%1"]? = some 0 ∧
      w'.gates 0 = ⟨(generation + 1) % 2 ^ 64, (generation + 1) % 2 ^ 64, false, 1⟩ ∧
      w'.log = .delivered "%1" none :: .advanced "%1" :: w.log := by
  have hretained : w.retained["%1"]? = some 0 := getElem?_retained.mpr ⟨hentry, by simp [hgate]⟩
  have hprompt : w.promptLock "%1" =
      ({ w with locks := w.retained }.update 0 fun g => { g with strong := g.strong + 1 }, 0) := by
    simp [World.promptLock, hretained]
  simp only [interruption, List.replicate, Pool.run, List.foldl_cons, List.foldl_nil, Pool.turn, enter,
    List.getElem?_cons_zero, act, hprompt, List.eraseIdx_cons_zero, Mutation.next, Mutation.background,
    List.cons_append, List.nil_append, Mutation.advances, Mutation.rechecks, World.update_gates_self, hgate, if_true,
    Bool.false_eq_true, if_false, leave, Bool.true_and, World.happened, World.advance]
  refine ⟨_, rfl, hretained, ?_, rfl⟩
  simp [World.update, hgate]

/-- Any number of them advances the generation as often. -/
theorem run_interruptions (n : Nat) {w : World} (tasks : List Task) (hentry : w.locks["%1"]? = some 0)
    (hgate : w.gates 0 = ⟨0, 0, false, 1⟩) :
    ∃ w' between, (⟨w, tasks⟩ : Pool World Task).run enter act (List.replicate n interruption).flatten = ⟨w', tasks⟩ ∧
      w'.locks["%1"]? = some 0 ∧ w'.gates 0 = ⟨n % 2 ^ 64, n % 2 ^ 64, false, 1⟩ ∧ w'.log = between ++ w.log ∧
      between.count (.advanced "%1") = n := by
  induction n with
  | zero => exact ⟨w, [], rfl, hentry, hgate, rfl, rfl⟩
  | succ n ih =>
    obtain ⟨w₁, between, hrun, hentry₁, hgate₁, hlog, hcount⟩ := ih
    obtain ⟨w₂, hrun', hentry₂, hgate₂, hlog'⟩ := run_interruption tasks hentry₁ hgate₁
    refine ⟨w₂, .delivered "%1" none :: .advanced "%1" :: between, ?_, hentry₂, ?_, ?_, ?_⟩
    · rw [List.replicate_succ', List.flatten_append, Pool.run_append, hrun]
      simpa using hrun'
    · rw [hgate₂, Nat.mod_add_mod]
    · rw [hlog', hlog]
      rfl
    · rw [List.count_cons_of_ne (by simp), List.count_cons_self, hcount]

/-- A relaunch up to where it waits for the lock. -/
def queueing : List (Turn Request Bool) := .call ⟨"%1", .resumeCurrentClaude⟩ :: List.replicate 3 (.advance 0 true)

theorem run_queueing : ∃ w, start.run enter act queueing =
      ⟨w, [.holding .waiting ⟨"%1", .resumeCurrentClaude⟩ 0 (some ⟨0, 0⟩)]⟩ ∧
    w.locks["%1"]? = some 0 ∧ w.gates 0 = ⟨0, 0, false, 1⟩ ∧ w.log = [.recorded "%1" 0] := by
  have hretained : start.world.retained["%1"]? = none := by
    simp [World.retained, start]
  have hprompt : start.world.promptLock "%1" = ({ start.world with
      locks := start.world.retained.insert "%1" 0
      gates := Function.update start.world.gates 0 { strong := 1 }
      allocated := 1 }, 0) := by
    simp only [World.promptLock, hretained]
    rfl
  simp only [queueing, List.replicate, Pool.run, List.foldl_cons, List.foldl_nil, Pool.turn, enter,
    List.getElem?_cons_zero, act, hprompt, List.eraseIdx_cons_zero, Mutation.next, List.cons_append, List.nil_append,
    if_true, World.happened, Function.update_self]
  exact ⟨_, rfl, by simp, rfl, rfl⟩

/-- A relaunch that waits while the pane is interrupted `2 ^ 64` times. -/
def wholeRound : List (Turn Request Bool) :=
  queueing ++ ((List.replicate (2 ^ 64) interruption).flatten ++ List.replicate 2 (.advance 0 true))

end Atmux.PaneGate
