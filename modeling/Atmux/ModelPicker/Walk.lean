/-
The walk to a model in a picker.

A picker that is too long for its pane scrolls, so after every key the pane is
read again. `Pane` is what the walk meets: a cyclic list, and any window for
any keys. `Lands` says that the walk ends on the model asked for or reports its
absence, and `aim_lands` when it does, for windows that keep a row in view
while the cursor is moved towards it.
-/
import Atmux.ModelPicker.Reading
import Mathlib.Data.Finset.Interval
import Mathlib.Order.Interval.Finset.Nat

namespace Atmux.ModelPicker

open Lib

/-! ## The walk -/

inductive Key
  | up
  | down
deriving DecidableEq

inductive PickerError
  | notOffered
  | unsettled
  | notExposed
deriving DecidableEq

def PickerError.message (model : String) : PickerError → String
  | notOffered => model ++ " is not offered by this picker"
  | unsettled => "this picker would not settle on " ++ model
  | notExposed => "the running agent did not expose the expected model picker"

section Aim

variable (screen : List Key → List Char) (heading : List Char) (models : List KnownModel) (model : String)

/-- The page once the highlight has moved. -/
def waitForMove (keys : List Key) (movedFrom : Nat) : Option PickerPage :=
  (pickerPage (screen keys) heading).filter fun page => page.selected != movedFrom

/-- So many steps of the walk: what it returns and the keys it has sent. -/
def aimFrom : Nat → List Key → Nat → Finset Nat → PickerPage → Except PickerError Unit × List Key
  | 0, keys, _, _, _ => (.error .unsettled, keys)
  | steps + 1, keys, total, scanned, page =>
    let total := max total (page.rows.length + page.hidden)
    let scanned := scanned ∪ (page.rows.map Prod.fst).toFinset
    let target := pickerTargetRow page models model
    if target = some page.selected then (.ok (), keys)
    else if target.isNone ∧ total ≤ scanned.card then (.error .notOffered, keys)
    else
      let key := if target.any (· < page.selected) then Key.up else Key.down
      match waitForMove screen heading (keys ++ [key]) page.selected with
      | none => (.error .notExposed, keys ++ [key])
      | some page => aimFrom steps (keys ++ [key]) total scanned page

def aimRenderedPicker (page : PickerPage) : Except PickerError Unit × List Key :=
  let total := page.rows.length + page.hidden
  aimFrom screen heading models model (total * 3 + 12) [] total ∅ page

end Aim

/-! ## Panes -/

/-- One row of movement in a cyclic list. -/
def move (count cursor : Nat) : Key → Nat
  | .down => if cursor = count then 1 else cursor + 1
  | .up => if cursor = 1 then count else cursor - 1

/-- A picker in a pane: where its cursor starts, and the window that it draws
after any keys. -/
structure Pane (picker : Picker) where
  start : Nat
  window : List Key → Window
  shows : ∀ keys, (window keys).Shows picker.rows.length (keys.foldl (move picker.rows.length) start)

namespace Pane

variable {picker : Picker} (pane : Pane picker)

def cursor (keys : List Key) : Nat := keys.foldl (move picker.rows.length) pane.start

def screen (keys : List Key) : List Char := draw picker (pane.window keys) (pane.cursor keys)

def page (keys : List Key) : PickerPage := pageOf picker (pane.window keys) (pane.cursor keys)

/-- The rows that are drawn after some keys. -/
def drawn (keys : List Key) : Finset Nat := (numbersIn (pane.window keys)).toFinset

variable {pane} {keys : List Key}

theorem mem_drawn {row : Nat} : row ∈ pane.drawn keys ↔ (pane.window keys).Has row := by
  rw [drawn, List.mem_toFinset, numbersIn, List.mem_range'_1]
  rfl

theorem cursor_bounds (pane : Pane picker) (keys : List Key) : 1 ≤ pane.cursor keys ∧ pane.cursor keys ≤ picker.rows.length := by
  have hshows := pane.shows keys
  have hcursor := hshows.cursor
  have hfirst := hshows.first
  have hwithin := hshows.within
  unfold Window.Has at hcursor
  unfold cursor
  omega

theorem drawn_bounds {row : Nat} (h : row ∈ pane.drawn keys) : 1 ≤ row ∧ row ≤ picker.rows.length := by
  rw [mem_drawn, Window.Has] at h
  have hfirst := (pane.shows keys).first
  have hwithin := (pane.shows keys).within
  omega

theorem cursor_mem_drawn : pane.cursor keys ∈ pane.drawn keys := mem_drawn.mpr (pane.shows keys).cursor

theorem cursor_append (key : Key) : pane.cursor (keys ++ [key]) = move picker.rows.length (pane.cursor keys) key := by
  rw [cursor, List.foldl_append]
  rfl

theorem cursor_moves (key : Key) : pane.cursor (keys ++ [key]) ≠ pane.cursor keys := by
  have hbounds := cursor_bounds pane keys
  have htwo := picker.two
  rw [cursor_append]
  cases key with
  | up =>
    rw [move]
    split <;> omega
  | down =>
    rw [move]
    split <;> omega

theorem waitForMove_screen (key : Key) :
    waitForMove pane.screen codexHeading (keys ++ [key]) (pane.cursor keys) = some (pane.page (keys ++ [key])) := by
  have hpage : pickerPage (pane.screen (keys ++ [key])) codexHeading = some (pane.page (keys ++ [key])) :=
    pickerPage_draw (pane.shows (keys ++ [key]))
  rw [waitForMove, hpage, Option.filter_some, if_pos]
  rw [bne_iff_ne]
  exact cursor_moves key

theorem page_total : (pane.page keys).rows.length + (pane.page keys).hidden = picker.rows.length := by
  have hfirst := (pane.shows keys).first
  have hwithin := (pane.shows keys).within
  simp only [page, pageOf, List.length_map, numbersIn, List.length_range']
  omega

theorem page_rows : ((pane.page keys).rows.map Prod.fst).toFinset = pane.drawn keys := by
  rw [drawn, page, pageOf, List.map_map]
  simp [Function.comp_def]

end Pane

/-! ## Targets -/

/-- The first of consecutive numbers with a property. -/
theorem findSome?_range' {p : Nat → Bool} {first size row : Nat} :
    ((List.range' first size).findSome? fun r => if p r then some r else none) = some row ↔
      (first ≤ row ∧ row < first + size) ∧ p row = true ∧ ∀ r, first ≤ r → r < row → p r = false := by
  induction size generalizing first with
  | zero =>
    refine ⟨fun h => (by cases h), fun h => ?_⟩
    omega
  | succ size ih =>
    rw [List.range'_succ, List.findSome?_cons]
    cases hp : p first with
    | true =>
      simp only [if_true, Option.some.injEq]
      refine ⟨fun h => ?_, fun h => ?_⟩
      · subst h
        exact ⟨by omega, hp, fun r hr hlt => by omega⟩
      · by_contra hne
        rw [h.2.2 first (Nat.le_refl first) (by omega)] at hp
        cases hp
    | false =>
      simp only [Bool.false_eq_true, if_false]
      rw [ih]
      refine ⟨fun h => ⟨by omega, h.2.1, fun r hr hlt => ?_⟩, fun h => ⟨?_, h.2.1, fun r hr hlt => h.2.2 r (by omega) hlt⟩⟩
      · by_cases hfirst : r = first
        · rw [hfirst]
          exact hp
        · exact h.2.2 r (by omega) hlt
      · have hne : row ≠ first := by
          intro heq
          rw [heq, hp] at h
          cases h.2.1
        omega

section Targets

variable (picker : Picker) (models : List KnownModel) (model : String)

/-- A row is read as naming the model. -/
def Resolves (row : Nat) : Prop := (1 ≤ row ∧ row ≤ picker.rows.length) ∧ namesModel models model (picker.label row) = true

/-- A row that can be the first one drawn to name the model. -/
def FirstResolved (row : Nat) : Prop :=
  Resolves picker models model row ∧ (row < picker.rows.length ∨ ¬ Resolves picker models model (row - 1))

def Pane.target {picker : Picker} (pane : Pane picker) (keys : List Key) : Option Nat :=
  pickerTargetRow (pane.page keys) models model

variable {picker models model} {pane : Pane picker} {keys : List Key} {row : Nat}

theorem Pane.target_eq : pane.target models model keys = (numbersIn (pane.window keys)).findSome? fun row =>
    if namesModel models model (picker.label row) then some row else none := by
  rw [target, pickerTargetRow, page, pageOf, List.findSome?_map]
  rfl

theorem Pane.target_some : pane.target models model keys = some row ↔
    row ∈ pane.drawn keys ∧ Resolves picker models model row ∧
      ∀ r ∈ pane.drawn keys, Resolves picker models model r → row ≤ r := by
  rw [target_eq, numbersIn, findSome?_range']
  refine ⟨fun h => ?_, fun h => ?_⟩
  · have hrow : row ∈ pane.drawn keys := mem_drawn.mpr h.1
    refine ⟨hrow, ⟨drawn_bounds hrow, h.2.1⟩, fun r hr hresolves => ?_⟩
    by_contra hlt
    have hnot := h.2.2 r (mem_drawn.mp hr).1 (by omega)
    rw [hresolves.2] at hnot
    cases hnot
  · have hrow := mem_drawn.mp h.1
    refine ⟨hrow, h.2.1.2, fun r hr hlt => ?_⟩
    rw [Bool.eq_false_iff]
    intro hnames
    have hdrawn : r ∈ pane.drawn keys := mem_drawn.mpr ⟨hr, hlt.trans hrow.2⟩
    have hle := h.2.2 r hdrawn ⟨drawn_bounds hdrawn, hnames⟩
    omega

/-- Where a row that names the model is drawn there is a target, no later. -/
theorem Pane.target_of_drawn (hrow : row ∈ pane.drawn keys) (hresolves : Resolves picker models model row) :
    ∃ target, pane.target models model keys = some target ∧ target ≤ row := by
  classical
  have hsome : ∃ r, r ∈ pane.drawn keys ∧ Resolves picker models model r := ⟨row, hrow, hresolves⟩
  refine ⟨Nat.find hsome, target_some.mpr ⟨(Nat.find_spec hsome).1, (Nat.find_spec hsome).2, ?_⟩,
    Nat.find_le ⟨hrow, hresolves⟩⟩
  exact fun r hr hres => Nat.find_le ⟨hr, hres⟩

/-- The target, as the first row of its window that names the model, could be so
in some window of two rows. -/
theorem Pane.firstResolved_of_target (h : pane.target models model keys = some row) (hcursor : row = pane.cursor keys) :
    FirstResolved picker models model row := by
  obtain ⟨hdrawn, hresolves, hfirst⟩ := target_some.mp h
  refine ⟨hresolves, ?_⟩
  by_contra hlast
  simp only [not_or, not_not, not_lt] at hlast
  have hshows := pane.shows keys
  have htwo := hshows.two
  have hwithin := hshows.within
  have hhas := mem_drawn.mp hdrawn
  unfold Window.Has at hhas
  have hbefore : row - 1 ∈ pane.drawn keys := mem_drawn.mpr ⟨by omega, by omega⟩
  have hle := hfirst (row - 1) hbefore hlast.2
  have hpos := hresolves.1.1
  omega

end Targets

/-! ## Steps -/

section Steps

variable {picker : Picker} (pane : Pane picker) (models : List KnownModel) (model : String)

/-- The key that the walk presses after some keys. -/
def Pane.nextKey (keys : List Key) : Key := if (pane.target models model keys).any (· < pane.cursor keys) then .up else .down

/-- The walk on a pane, from some keys on. -/
def Pane.aim (steps : Nat) (keys : List Key) (scanned : Finset Nat) : Except PickerError Unit × List Key :=
  aimFrom pane.screen codexHeading models model steps keys picker.rows.length scanned (pane.page keys)

/-- What the walk returns on a pane, with the keys it has sent. -/
def Pane.outcome : Except PickerError Unit × List Key :=
  aimRenderedPicker pane.screen codexHeading models model (pane.page [])

variable {pane models model} {steps : Nat} {keys : List Key} {scanned : Finset Nat}

theorem Pane.outcome_eq : pane.outcome models model = pane.aim models model (picker.rows.length * 3 + 12) [] ∅ := by
  simp only [outcome, aimRenderedPicker, aim, page_total]

/-- One step of the walk. -/
theorem Pane.aim_succ : pane.aim models model (steps + 1) keys scanned =
    if pane.target models model keys = some (pane.cursor keys) then (.ok (), keys)
    else if (pane.target models model keys).isNone ∧ picker.rows.length ≤ (scanned ∪ pane.drawn keys).card then
      (.error .notOffered, keys)
    else pane.aim models model steps (keys ++ [pane.nextKey models model keys]) (scanned ∪ pane.drawn keys) := by
  rw [aim, aimFrom]
  simp only [page_total, page_rows, Nat.max_self]
  have hselected : (pane.page keys).selected = pane.cursor keys := rfl
  have htarget : pickerTargetRow (pane.page keys) models model = pane.target models model keys := rfl
  rw [hselected, htarget]
  split
  · rfl
  · split
    · rfl
    · have hkey : (if (pane.target models model keys).any (· < pane.cursor keys) then Key.up else Key.down) =
          pane.nextKey models model keys := rfl
      rw [hkey, waitForMove_screen]
      rfl

theorem Pane.aim_of_aimed (h : pane.target models model keys = some (pane.cursor keys)) :
    pane.aim models model (steps + 1) keys scanned = (.ok (), keys) := by
  rw [aim_succ, if_pos h]

theorem Pane.aim_of_target {row : Nat} (h : pane.target models model keys = some row) (hne : row ≠ pane.cursor keys) :
    pane.aim models model (steps + 1) keys scanned =
      pane.aim models model steps (keys ++ [pane.nextKey models model keys]) (scanned ∪ pane.drawn keys) := by
  rw [aim_succ, if_neg, if_neg]
  · rw [h]
    simp
  · rw [h]
    intro heq
    exact hne (Option.some.inj heq)

/-- What every walk ends with. -/
structure Pane.Ended (pane : Pane picker) (models : List KnownModel) (model : String)
    (ended : Except PickerError Unit × List Key) : Prop where
  aimed : ended.1 = .ok () → pane.target models model ended.2 = some (pane.cursor ended.2)
  scanned : ended.1 = .error .notOffered →
    ∀ row, 1 ≤ row → row ≤ picker.rows.length → ∃ before, before <+: ended.2 ∧ row ∈ pane.drawn before
  exposed : ended.1 ≠ .error .notExposed

/-- All rows that were scanned were drawn on the way. -/
def Pane.Scanned (pane : Pane picker) (keys : List Key) (scanned : Finset Nat) : Prop :=
  ∀ row ∈ scanned, ∃ before, before <+: keys ∧ row ∈ pane.drawn before

theorem Pane.Scanned.step (h : pane.Scanned keys scanned) : pane.Scanned keys (scanned ∪ pane.drawn keys) := by
  intro row hrow
  rcases Finset.mem_union.mp hrow with hold | hnew
  · exact h row hold
  · exact ⟨keys, List.prefix_rfl, hnew⟩

theorem Pane.Scanned.append (h : pane.Scanned keys scanned) (key : Key) : pane.Scanned (keys ++ [key]) scanned := by
  intro row hrow
  obtain ⟨before, hbefore, hdrawn⟩ := h row hrow
  exact ⟨before, hbefore.trans (List.prefix_append _ _), hdrawn⟩

theorem Pane.aim_ended (h : pane.Scanned keys scanned) : pane.Ended models model (pane.aim models model steps keys scanned) := by
  induction steps generalizing keys scanned with
  | zero => exact ⟨fun hok => (by cases hok), fun habsent => (by cases habsent), fun hexposed => (by cases hexposed)⟩
  | succ steps ih =>
    rw [aim_succ]
    split
    next haimed => exact ⟨fun _ => haimed, fun habsent => (by cases habsent), fun hexposed => (by cases hexposed)⟩
    · split
      next hall =>
        refine ⟨fun hok => (by cases hok), fun _ row hlow hhigh => ?_, fun hexposed => (by cases hexposed)⟩
        have hsubset : scanned ∪ pane.drawn keys ⊆ Finset.Icc 1 picker.rows.length := by
          intro r hr
          obtain ⟨before, _, hdrawn⟩ := h.step r hr
          exact Finset.mem_Icc.mpr (drawn_bounds hdrawn)
        have hcard : (Finset.Icc 1 picker.rows.length).card ≤ (scanned ∪ pane.drawn keys).card := by
          rw [Nat.card_Icc, Nat.add_sub_cancel]
          exact hall.2
        have hsame := Finset.eq_of_subset_of_card_le hsubset hcard
        exact h.step row (by rw [hsame]; exact Finset.mem_Icc.mpr ⟨hlow, hhigh⟩)
      next => exact ih (h.step.append _)

end Steps

/-! ## Towards a target -/

section Towards

variable {picker : Picker} {pane : Pane picker} {models : List KnownModel} {model : String} {steps : Nat}
  {keys : List Key} {scanned : Finset Nat} {row : Nat}

/-- Windows that keep a target in view while the cursor is moved towards it. -/
def Pane.Keeps (pane : Pane picker) (models : List KnownModel) (model : String) : Prop :=
  ∀ keys row, pane.target models model keys = some row → row ≠ pane.cursor keys →
    row ∈ pane.drawn (keys ++ [if row < pane.cursor keys then .up else .down])

theorem Pane.nextKey_eq (h : pane.target models model keys = some row) :
    pane.nextKey models model keys = if row < pane.cursor keys then .up else .down := by
  rw [nextKey, h]
  simp

/-- A row above is reached. -/
theorem Pane.aim_up (hkeeps : pane.Keeps models model) (h : pane.target models model keys = some row)
    (habove : row ≤ pane.cursor keys) (hsteps : pane.cursor keys ≤ steps) :
    (pane.aim models model steps keys scanned).1 = .ok () := by
  induction steps generalizing keys scanned row with
  | zero =>
    have hbounds := cursor_bounds pane keys
    omega
  | succ steps ih =>
    by_cases hhere : row = pane.cursor keys
    · rw [aim_of_aimed (hhere ▸ h)]
    · have hlt : row < pane.cursor keys := by omega
      have hdrawn := hkeeps keys row h hhere
      have hresolves := (target_some.mp h).2.1
      rw [aim_of_target h hhere, nextKey_eq h, if_pos hlt]
      rw [if_pos hlt] at hdrawn
      obtain ⟨next, hnext, hle⟩ := target_of_drawn hdrawn hresolves
      have hcursor : pane.cursor (keys ++ [.up]) = pane.cursor keys - 1 := by
        have hpos := hresolves.1.1
        rw [cursor_append, move, if_neg (by omega)]
      exact ih hnext (by omega) (by omega)

/-- A row that is drawn is reached. -/
theorem Pane.aim_drawn (hkeeps : pane.Keeps models model) (h : pane.target models model keys = some row)
    (hsteps : picker.rows.length - pane.cursor keys + picker.rows.length < steps) :
    (pane.aim models model steps keys scanned).1 = .ok () := by
  induction steps generalizing keys scanned row with
  | zero => omega
  | succ steps ih =>
    have hbounds := cursor_bounds pane keys
    by_cases habove : row ≤ pane.cursor keys
    · exact aim_up hkeeps h habove (by omega)
    · have hne : row ≠ pane.cursor keys := by omega
      have hbelow : ¬ row < pane.cursor keys := by omega
      have hdrawn := hkeeps keys row h hne
      have hresolves := (target_some.mp h).2.1
      have hhigh := hresolves.1.2
      rw [aim_of_target h hne, nextKey_eq h, if_neg hbelow]
      rw [if_neg hbelow] at hdrawn
      obtain ⟨next, hnext, hle⟩ := target_of_drawn hdrawn hresolves
      have hcursor : pane.cursor (keys ++ [.down]) = pane.cursor keys + 1 := by
        rw [cursor_append, move, if_neg (by omega)]
      exact ih hnext (by omega)

end Towards

/-! ## Through the list -/

section Through

variable {picker : Picker} {pane : Pane picker} {models : List KnownModel} {model : String} {steps : Nat}
  {keys : List Key} {scanned : Finset Nat} {row : Nat}

theorem Pane.cursor_downs (n : Nat) :
    pane.cursor (List.replicate n .down) = (pane.cursor [] - 1 + n) % picker.rows.length + 1 := by
  have htwo := picker.two
  induction n with
  | zero =>
    have hbounds := cursor_bounds pane []
    rw [List.replicate_zero, Nat.add_zero, Nat.mod_eq_of_lt (by omega)]
    omega
  | succ n ih =>
    have hmod : (pane.cursor [] - 1 + n) % picker.rows.length < picker.rows.length := Nat.mod_lt _ (by omega)
    rw [List.replicate_succ', cursor_append, ih, move, ← Nat.add_assoc, Nat.add_mod _ 1]
    generalize (pane.cursor [] - 1 + n) % picker.rows.length = place at hmod ⊢
    rw [Nat.mod_eq_of_lt (show 1 < picker.rows.length by omega)]
    by_cases hlast : place + 1 = picker.rows.length
    · rw [if_pos hlast, hlast, Nat.mod_self]
    · rw [if_neg hlast, Nat.mod_eq_of_lt (by omega)]

/-- Every row comes under the cursor. -/
theorem Pane.exists_downs (pane : Pane picker) (hlow : 1 ≤ row) (hhigh : row ≤ picker.rows.length) :
    ∃ n, n < picker.rows.length ∧ pane.cursor (List.replicate n .down) = row := by
  have hbounds := cursor_bounds pane []
  by_cases hafter : pane.cursor [] ≤ row
  · refine ⟨row - pane.cursor [], by omega, ?_⟩
    rw [cursor_downs, Nat.mod_eq_of_lt (by omega)]
    omega
  · refine ⟨row + picker.rows.length - pane.cursor [], by omega, ?_⟩
    have hround : pane.cursor [] - 1 + (row + picker.rows.length - pane.cursor []) = row - 1 + picker.rows.length := by omega
    rw [cursor_downs, hround, Nat.add_mod_right, Nat.mod_eq_of_lt (by omega)]
    omega

theorem Pane.nextKey_of_none (h : pane.target models model keys = none) : pane.nextKey models model keys = .down := by
  rw [nextKey, h]
  rfl

/-- Rows that were under the cursor were scanned. -/
def Pane.Passed (pane : Pane picker) (n : Nat) (scanned : Finset Nat) : Prop :=
  ∀ i < n, pane.cursor (List.replicate i .down) ∈ scanned

theorem Pane.Passed.step {n : Nat} (h : pane.Passed n scanned) :
    pane.Passed (n + 1) (scanned ∪ pane.drawn (List.replicate n .down)) := by
  intro i hi
  by_cases hlast : i = n
  · rw [hlast]
    exact Finset.mem_union_right _ cursor_mem_drawn
  · exact Finset.mem_union_left _ (h i (by omega))

theorem Pane.Passed.card {n : Nat} (h : pane.Passed n scanned) (hall : picker.rows.length ≤ n) :
    picker.rows.length ≤ scanned.card := by
  have hsubset : Finset.Icc 1 picker.rows.length ⊆ scanned := by
    intro r hr
    obtain ⟨hlow, hhigh⟩ := Finset.mem_Icc.mp hr
    obtain ⟨i, hi, hcursor⟩ := exists_downs pane hlow hhigh
    rw [← hcursor]
    exact h i (by omega)
  have hcard := Finset.card_le_card hsubset
  rwa [Nat.card_Icc, Nat.add_sub_cancel] at hcard

/-- Where no row names the model, the walk goes through the list and says so. -/
theorem Pane.aim_absent (hnone : ∀ row, ¬ Resolves picker models model row) {n : Nat} (hpassed : pane.Passed n scanned)
    (hsteps : picker.rows.length < n + steps) (hn : n < picker.rows.length) :
    (pane.aim models model steps (List.replicate n .down) scanned).1 = .error .notOffered := by
  induction steps generalizing n scanned with
  | zero => omega
  | succ steps ih =>
    have htarget : pane.target models model (List.replicate n .down) = none := by
      cases htarget : pane.target models model (List.replicate n .down) with
      | none => rfl
      | some row => exact absurd (target_some.mp htarget).2.1 (hnone row)
    rw [aim_succ, if_neg (by rw [htarget]; simp)]
    split
    · rfl
    next hmore =>
      have hnext : n + 1 < picker.rows.length := by
        by_contra hlast
        exact hmore ⟨by rw [htarget]; rfl, hpassed.step.card (by omega)⟩
      rw [nextKey_of_none htarget, ← List.replicate_succ']
      exact ih hpassed.step (by omega) hnext

/-- Before a row that names the model is drawn, the walk goes down the list. -/
theorem Pane.aim_downs {n d : Nat} (hnone : ∀ i < n + d, pane.target models model (List.replicate i .down) = none)
    (hresolves : Resolves picker models model row)
    (hscanned : ∀ r ∈ scanned, (1 ≤ r ∧ r ≤ picker.rows.length) ∧ ¬ Resolves picker models model r) :
    ∃ scanned', pane.aim models model (steps + d) (List.replicate n .down) scanned =
      pane.aim models model steps (List.replicate (n + d) .down) scanned' := by
  induction d generalizing n scanned with
  | zero => exact ⟨scanned, rfl⟩
  | succ d ih =>
    have htarget := hnone n (by omega)
    have hunresolved : ∀ r ∈ scanned ∪ pane.drawn (List.replicate n .down),
        (1 ≤ r ∧ r ≤ picker.rows.length) ∧ ¬ Resolves picker models model r := by
      intro r hr
      rcases Finset.mem_union.mp hr with hold | hnew
      · exact hscanned r hold
      · refine ⟨drawn_bounds hnew, fun hr => ?_⟩
        obtain ⟨found, hfound, _⟩ := target_of_drawn hnew hr
        rw [htarget] at hfound
        cases hfound
    have hroom : ¬ picker.rows.length ≤ (scanned ∪ pane.drawn (List.replicate n .down)).card := by
      have hsubset : scanned ∪ pane.drawn (List.replicate n .down) ⊆ (Finset.Icc 1 picker.rows.length).erase row := by
        intro r hr
        obtain ⟨hbounds, hnot⟩ := hunresolved r hr
        refine Finset.mem_erase.mpr ⟨fun heq => hnot (heq ▸ hresolves), Finset.mem_Icc.mpr hbounds⟩
      have hcard := Finset.card_le_card hsubset
      have hpos := hresolves.1
      rw [Finset.card_erase_of_mem (Finset.mem_Icc.mpr hpos), Nat.card_Icc] at hcard
      omega
    have hlater : ∀ i < n + 1 + d, pane.target models model (List.replicate i .down) = none := fun i hi => hnone i (by omega)
    obtain ⟨scanned', hrest⟩ := ih hlater hunresolved
    refine ⟨scanned', ?_⟩
    rw [← Nat.add_assoc, aim_succ, if_neg (by rw [htarget]; simp), if_neg fun hfull => hroom hfull.2, nextKey_of_none htarget,
      ← List.replicate_succ', hrest, Nat.add_right_comm, Nat.add_assoc]

/-- Where a row names the model, the walk aims at one. -/
theorem Pane.aim_offered (hkeeps : pane.Keeps models model) (hresolves : Resolves picker models model row) :
    (pane.outcome models model).1 = .ok () := by
  have hsome : ∃ n, n < picker.rows.length ∧ pane.target models model (List.replicate n .down) ≠ none := by
    obtain ⟨n, hn, hcursor⟩ := exists_downs pane hresolves.1.1 hresolves.1.2
    have hdrawn : row ∈ pane.drawn (List.replicate n .down) := by
      rw [← hcursor]
      exact cursor_mem_drawn
    obtain ⟨target, htarget, _⟩ := target_of_drawn hdrawn hresolves
    exact ⟨n, hn, by rw [htarget]; simp⟩
  classical
  obtain ⟨hbound, hfound⟩ := Nat.find_spec hsome
  have hnone : ∀ i < 0 + Nat.find hsome, pane.target models model (List.replicate i .down) = none := by
    intro i hi
    by_contra hne
    exact Nat.find_min hsome (by omega) ⟨by omega, hne⟩
  obtain ⟨target, htarget⟩ := Option.ne_none_iff_exists'.mp hfound
  have hdowns : ∃ scanned', pane.aim models model (picker.rows.length * 3 + 12 - Nat.find hsome + Nat.find hsome) _ ∅ =
      pane.aim models model (picker.rows.length * 3 + 12 - Nat.find hsome) (List.replicate (0 + Nat.find hsome) .down) scanned' :=
    aim_downs hnone hresolves fun r hr => absurd hr (Finset.notMem_empty r)
  obtain ⟨scanned', hdowns⟩ := hdowns
  have hsteps : picker.rows.length * 3 + 12 - Nat.find hsome + Nat.find hsome = picker.rows.length * 3 + 12 := by omega
  rw [hsteps, Nat.zero_add, List.replicate_zero] at hdowns
  rw [outcome_eq, hdowns]
  refine aim_drawn hkeeps htarget ?_
  omega

end Through

/-! ## Where the walk lands -/

section Lands

variable {picker : Picker}

/-- A row of the picker has the model's id. -/
def HasId (picker : Picker) (model : String) (row : Nat) : Prop :=
  (1 ≤ row ∧ row ≤ picker.rows.length) ∧ ∃ entry, picker.rows[row - 1]? = some entry ∧ entry.id = model.toList

/-- The walk stops within its bound, on the model that was asked for or with
its absence. -/
structure Lands (pane : Pane picker) (models : List KnownModel) (model : String) : Prop where
  settled : (pane.outcome models model).1 = .ok () ∨ (pane.outcome models model).1 = .error .notOffered
  aimed : (pane.outcome models model).1 = .ok () → HasId picker model (pane.cursor (pane.outcome models model).2)
  offered : (∃ row, HasId picker model row) → (pane.outcome models model).1 = .ok ()
  absent : (pane.outcome models model).1 = .error .notOffered → ∀ row, 1 ≤ row → row ≤ picker.rows.length →
    ∃ before, before <+: (pane.outcome models model).2 ∧ row ∈ pane.drawn before

/-- The rows that can be aimed at have the model's id, and one of the rows that
have it is read so. -/
structure Telling (picker : Picker) (models : List KnownModel) (model : String) : Prop where
  first : ∀ row, FirstResolved picker models model row → HasId picker model row
  offered : (∃ row, HasId picker model row) → ∃ row, Resolves picker models model row

theorem outcome_ended (pane : Pane picker) (models : List KnownModel) (model : String) :
    pane.Ended models model (pane.outcome models model) := by
  rw [Pane.outcome_eq]
  exact Pane.aim_ended fun row hrow => absurd hrow (Finset.notMem_empty row)

/-- All rows are drawn. -/
def wholeList (picker : Picker) : Window := ⟨1, picker.rows.length⟩

theorem wholeList_has {row : Nat} (h : 1 ≤ row ∧ row ≤ picker.rows.length) : (wholeList picker).Has row := by
  simp only [wholeList, Window.Has]
  omega

theorem wholeList_shows {cursor : Nat} (h : 1 ≤ cursor ∧ cursor ≤ picker.rows.length) :
    (wholeList picker).Shows picker.rows.length cursor :=
  ⟨Nat.le_refl 1, picker.two, by simp only [wholeList]; omega, wholeList_has h⟩

theorem move_bounds {cursor : Nat} (h : 1 ≤ cursor ∧ cursor ≤ picker.rows.length) (keys : List Key) :
    1 ≤ keys.foldl (move picker.rows.length) cursor ∧ keys.foldl (move picker.rows.length) cursor ≤ picker.rows.length := by
  induction keys generalizing cursor with
  | nil => exact h
  | cons key keys ih =>
    refine ih ?_
    cases key with
    | up =>
      rw [move]
      split <;> omega
    | down =>
      rw [move]
      split <;> omega

/-- A pane that draws some window first, and every row after any key. -/
def opening (picker : Picker) (window : Window) (start : Nat) (h : window.Shows picker.rows.length start) : Pane picker where
  start
  window keys := if keys.isEmpty then window else wholeList picker
  shows keys := by
    have hstart : 1 ≤ start ∧ start ≤ picker.rows.length := by
      have hcursor := h.cursor
      have hfirst := h.first
      have hwithin := h.within
      unfold Window.Has at hcursor
      omega
    cases keys with
    | nil => exact h
    | cons key keys => exact wholeList_shows (move_bounds hstart (key :: keys))

theorem opening_keeps {window : Window} {start : Nat} {h : window.Shows picker.rows.length start} (models : List KnownModel)
    (model : String) : (opening picker window start h).Keeps models model := by
  intro keys row htarget _
  refine Pane.mem_drawn.mpr ?_
  have hrow := (Pane.target_some.mp htarget).2.1.1
  have hsome : ∀ key : Key, (keys ++ [key]).isEmpty = false := by
    intro key
    cases keys <;> rfl
  simp only [opening, hsome, Bool.false_eq_true, if_false]
  exact wholeList_has hrow

/-- A row that can be the first one drawn to name the model is landed on. -/
theorem opening_aimed {models : List KnownModel} {model : String} {row : Nat} (h : FirstResolved picker models model row) :
    ∃ pane : Pane picker, pane.Keeps models model ∧ pane.cursor [] = row ∧ pane.outcome models model = (.ok (), []) := by
  obtain ⟨hresolves, hplace⟩ := h
  obtain ⟨hlow, hhigh⟩ := hresolves.1
  have htwo := picker.two
  obtain ⟨window, hshows, hfirst⟩ : ∃ window : Window, window.Shows picker.rows.length row ∧
      ∀ r, window.Has r → Resolves picker models model r → row ≤ r := by
    by_cases hlast : row < picker.rows.length
    · exact ⟨⟨row, 2⟩, ⟨hlow, Nat.le_refl 2, by simp only []; omega, ⟨Nat.le_refl row, by simp only []; omega⟩⟩, fun r hr _ => hr.1⟩
    · have hbefore := hplace.resolve_left hlast
      refine ⟨⟨row - 1, 2⟩, ⟨by simp only []; omega, Nat.le_refl 2, by simp only []; omega, ⟨by simp only []; omega, by simp only []; omega⟩⟩, ?_⟩
      intro r hr hres
      obtain ⟨hrlow, _⟩ := hr
      simp only [] at hrlow
      by_contra hlt
      obtain rfl : r = row - 1 := by omega
      exact hbefore hres
  refine ⟨opening picker window row hshows, opening_keeps models model, rfl, ?_⟩
  rw [Pane.outcome_eq]
  refine Pane.aim_of_aimed ?_
  refine Pane.target_some.mpr ⟨Pane.mem_drawn.mpr hshows.cursor, hresolves, ?_⟩
  intro r hr hres
  exact hfirst r (Pane.mem_drawn.mp hr) hres

/-- **The walk lands on the requested model or fails**, in every window that
keeps a row in view while the cursor is moved towards it, exactly where the
rows that it can aim at have the model's id. -/
theorem aim_lands (picker : Picker) (models : List KnownModel) (model : String) :
    (∀ pane : Pane picker, pane.Keeps models model → Lands pane models model) ↔ Telling picker models model := by
  constructor
  · intro hlands
    refine ⟨fun row hfirst => ?_, fun hoffered => ?_⟩
    · obtain ⟨pane, hkeeps, hcursor, houtcome⟩ := opening_aimed hfirst
      have haimed := (hlands pane hkeeps).aimed (by rw [houtcome])
      rwa [houtcome, hcursor] at haimed
    · have hstart : 1 ≤ 1 ∧ 1 ≤ picker.rows.length := ⟨Nat.le_refl 1, by have htwo := picker.two; omega⟩
      have hpane := hlands (opening picker _ 1 (wholeList_shows hstart)) (opening_keeps models model)
      have htarget := (outcome_ended _ models model).aimed (hpane.offered hoffered)
      exact ⟨_, (Pane.target_some.mp htarget).2.1⟩
  · intro htelling pane hkeeps
    have hended := outcome_ended pane models model
    have hsettled : (pane.outcome models model).1 = .ok () ∨ (pane.outcome models model).1 = .error .notOffered := by
      by_cases hsome : ∃ row, Resolves picker models model row
      · obtain ⟨row, hresolves⟩ := hsome
        exact .inl (Pane.aim_offered hkeeps hresolves)
      · have hpassed : pane.Passed 0 ∅ := fun i hi => absurd hi (Nat.not_lt_zero i)
        have htwo := picker.two
        rw [Pane.outcome_eq]
        exact .inr (Pane.aim_absent (fun row hrow => hsome ⟨row, hrow⟩) hpassed (by omega) (by omega))
    refine ⟨hsettled, fun hok => ?_, fun hoffered => ?_, hended.scanned⟩
    · exact htelling.first _ (Pane.firstResolved_of_target (hended.aimed hok) rfl)
    · obtain ⟨row, hresolves⟩ := htelling.offered hoffered
      exact Pane.aim_offered hkeeps hresolves

/-- A row that is drawn as its id. -/
def Row.bare (id : List Char) (id_ne : id ≠ []) (id_plain : ∀ c ∈ id, Text.isWhitespace c = false) : Row where
  id
  marker := none
  description := []
  id_ne
  id_plain
  marker_line _ hmarker := by cases hmarker
  marker_plain _ hmarker := by cases hmarker
  description_line := by decide

/-- The first row is a model that is missing from the table and whose id
continues the second one's. -/
def unlistedPicker : Picker where
  rows := [.bare "gpt-5.5-mini".toList (by decide) (by decide), .bare "gpt-5.5".toList (by decide) (by decide)]
  two := by decide
  small := by decide

def listedPicker : Picker where
  rows := [.bare "gpt-5.5".toList (by decide) (by decide), .bare "gpt-6-astra".toList (by decide) (by decide),
    .bare "gpt-5.6-sol".toList (by decide) (by decide)]
  two := by decide
  small := by decide

/-- All three rows first, and two of them after any key. -/
def narrowing : Pane listedPicker where
  start := 3
  window keys :=
    if keys.isEmpty then wholeList listedPicker else if keys.foldl (move 3) 3 = 1 then ⟨1, 2⟩ else ⟨2, 2⟩
  shows keys := by
    have hstart : 1 ≤ 3 ∧ 3 ≤ listedPicker.rows.length := by decide
    have hbounds := move_bounds hstart keys
    have hcount : listedPicker.rows.length = 3 := rfl
    rw [hcount] at hbounds ⊢
    cases keys with
    | nil => exact wholeList_shows (by decide)
    | cons key keys =>
      simp only [List.isEmpty_cons, Bool.false_eq_true, if_false]
      generalize (key :: keys).foldl (move 3) 3 = cursor at hbounds ⊢
      split
      · exact ⟨by decide, by decide, by decide, by simp only [Window.Has]; omega⟩
      · exact ⟨by decide, by decide, by decide, by simp only [Window.Has]; omega⟩

/-- A row whose id continues the requested one is taken for it, and a row that
was seen and then hidden is reported as absent. -/
theorem picker_walk_misses :
    (∃ pane : Pane unlistedPicker, pane.Keeps codexModels "gpt-5.5" ∧
      pane.outcome codexModels "gpt-5.5" = (.ok (), []) ∧ pane.cursor [] = 1 ∧
      ¬ HasId unlistedPicker "gpt-5.5" 1 ∧ HasId unlistedPicker "gpt-5.5" 2 ∧ ¬ Lands pane codexModels "gpt-5.5") ∧
    (narrowing.outcome codexModels "gpt-5.5" = (.error .notOffered, [.up]) ∧
      Telling listedPicker codexModels "gpt-5.5" ∧ HasId listedPicker "gpt-5.5" 1 ∧
      ¬ Lands narrowing codexModels "gpt-5.5") := by
  constructor
  · have hother : ¬ HasId unlistedPicker "gpt-5.5" 1 := by
      rintro ⟨_, entry, hentry, hid⟩
      obtain rfl := Option.some.inj hentry
      revert hid
      decide
    have hsecond : HasId unlistedPicker "gpt-5.5" 2 := ⟨by decide, _, rfl, rfl⟩
    have htarget : (opening unlistedPicker _ 1 (wholeList_shows (by decide))).target codexModels "gpt-5.5" [] = some 1 := by
      decide +kernel
    have houtcome : (opening unlistedPicker _ 1 (wholeList_shows (by decide))).outcome codexModels "gpt-5.5" = (.ok (), []) := by
      rw [Pane.outcome_eq]
      exact Pane.aim_of_aimed htarget
    refine ⟨_, opening_keeps _ _, houtcome, rfl, hother, hsecond, fun hlands => ?_⟩
    have haimed := hlands.aimed (by rw [houtcome])
    rw [houtcome] at haimed
    exact hother haimed
  · have hfirst : HasId listedPicker "gpt-5.5" 1 := ⟨by decide, _, rfl, rfl⟩
    have htarget : narrowing.target codexModels "gpt-5.5" [] = some 1 := by decide +kernel
    have hlost : narrowing.target codexModels "gpt-5.5" [.up] = none := by decide +kernel
    have hscanned : listedPicker.rows.length ≤ ((∅ ∪ narrowing.drawn []) ∪ narrowing.drawn [.up]).card := by decide +kernel
    have hkey : narrowing.nextKey codexModels "gpt-5.5" [] = .up := by
      rw [Pane.nextKey_eq htarget]
      rfl
    have houtcome : narrowing.outcome codexModels "gpt-5.5" = (.error .notOffered, [.up]) := by
      rw [Pane.outcome_eq, Pane.aim_of_target htarget (by decide), hkey, List.nil_append, Pane.aim_succ, hlost,
        if_neg (by simp), if_pos ⟨rfl, hscanned⟩]
    have htelling : Telling listedPicker codexModels "gpt-5.5" := by
      refine ⟨fun row hrow => ?_, fun _ => ⟨1, by decide, by decide +kernel⟩⟩
      obtain ⟨⟨hlow, hhigh⟩, hnames⟩ := hrow.1
      have hcount : listedPicker.rows.length = 3 := rfl
      have hothers : namesModel codexModels "gpt-5.5" (listedPicker.label 2) = false ∧
          namesModel codexModels "gpt-5.5" (listedPicker.label 3) = false := by decide +kernel
      obtain rfl | rfl | rfl : row = 1 ∨ row = 2 ∨ row = 3 := by omega
      · exact hfirst
      · rw [hothers.1] at hnames
        cases hnames
      · rw [hothers.2] at hnames
        cases hnames
    refine ⟨houtcome, htelling, hfirst, fun hlands => ?_⟩
    have hoffered := hlands.offered ⟨1, hfirst⟩
    rw [houtcome] at hoffered
    cases hoffered

end Lands

end Atmux.ModelPicker
