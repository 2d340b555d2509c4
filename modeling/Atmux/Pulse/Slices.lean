/-
A page of the export is a slice of one list.

`exportRows` has every row the node exports, in the order of the queries:
by phase, in the usage phase by id, elsewhere by the natural key
(`LocalRow.order`). A query from a cursor leaves out what is not beyond it
(`rowsAfter`), so the page is the first of those rows (`localFederationPage_eq`).
-/
import Atmux.Lib.Result
import Atmux.Pulse.Export

namespace Atmux.Pulse

open Lib

/-! ## The order of the queries -/

abbrev ExportOrder := ℕ ×ₗ ℤ ×ₗ List String

namespace LocalRow

/-- Where a row stands in its phase. -/
def sub : LocalRow → ℤ ×ₗ List String
  | machine _ => toLex (0, [])
  | usage row => toLex (row.id, [])
  | row => toLex (0, row.values)

def order (row : LocalRow) : ExportOrder := toLex (row.phase, row.sub)

end LocalRow

/-- Where a cursor stands in its phase. -/
def cursorSub (position : FederationExportPosition) : PulseResult (ℤ ×ₗ List String) :=
  let natural (arity : Nat) (name : String) : PulseResult (ℤ ×ₗ List String) := do
    let values ← cursorValues (some position) position.phase arity name
    pure (toLex (0, values.getD []))
  match position.phase with
  | 1 => natural 1 "profile"
  | 2 => do
    let values ← cursorValues (some position) 2 1 "usage"
    match Text.parseSigned (2 ^ 63) ((values.getD []).headD "").toList with
    | none => throw (.invalidInput "Pulse federation usage cursor is invalid")
    | some id => pure (toLex (id, []))
  | 3 => natural 2 "context"
  | 4 => natural 6 "token"
  | _ => .ok (toLex (0, []))

def cursorOrder : Option FederationExportPosition → PulseResult (Option ExportOrder)
  | none => .ok none
  | some position => (fun sub => some (toLex (position.phase, sub))) <$> cursorSub position

section
variable (tables : Tables) (localMachine : MachineName)

def machineRows : List LocalRow := (tables.machines.find? localMachine.value).toList.map .machine

def profileRows : List LocalRow :=
  (orderBy (fun profile => profile.name.value) (tables.profiles.rows.filter fun profile =>
    profile.origin = .local)).map .profile

def usageRows : List LocalRow :=
  (orderBy (fun stored => stored.id) (tables.usage.rows.filter fun stored =>
    stored.snapshot.machine = localMachine)).map .usage

def contextRows : List LocalRow :=
  (orderBy (fun session => [session.profile.value, session.sessionId.value]) (tables.contexts.rows.filter
    fun session => session.machine = localMachine)).map .context

def tokenRows : List LocalRow :=
  (orderBy (fun grain => (LocalRow.token grain).values) (tables.tokens.rows.filter fun grain =>
    grain.machine = localMachine)).map .token

/-- The rows of one phase. -/
def phaseRows : Nat → List LocalRow
  | 0 => machineRows tables localMachine
  | 1 => profileRows tables
  | 2 => usageRows tables localMachine
  | 3 => contextRows tables localMachine
  | 4 => tokenRows tables localMachine
  | _ => []

/-- Every row the node exports. -/
def exportRows : List LocalRow := [0, 1, 2, 3, 4].flatMap (phaseRows tables localMachine)

/-- The rows beyond a cursor. -/
def rowsAfter (bound : Option ExportOrder) : List LocalRow :=
  (exportRows tables localMachine).filter fun row => Entries.beyond bound row.order

end

/-! ## One order -/

variable {tables : Tables} {localMachine : MachineName}

theorem ValidatedString.value_injective {label : String} {maxBytes : Nat} :
    Function.Injective (ValidatedString.value : ValidatedString label maxBytes → String) := by
  rintro ⟨value, _⟩ ⟨value', _⟩ h
  exact (ValidatedString.mk.injEq ..).mpr h

theorem TokenSource.json_injective : Function.Injective TokenSource.json := by
  intro source source' h
  cases source <;> cases source' <;> first | rfl | exact absurd h (by decide)

/-- A column that tells a table's selected rows apart. -/
theorem nodup_column {R K C : Type} [LinearOrder K] {key : R → K} (table : Table key) (p : R → Bool) {column : R → C}
    (h : ∀ a b, p a = true → p b = true → column a = column b → key a = key b) :
    ((table.rows.filter p).map column).Nodup := by
  refine List.pairwise_map.mpr ?_
  have hpairwise := List.Pairwise.filter p table.rows_pairwise
  refine hpairwise.imp_of_mem fun {a b} ha hb hlt heq => ?_
  exact hlt.ne (h a b (List.mem_filter.mp ha).2 (List.mem_filter.mp hb).2 heq)

theorem profileRows_nodup (tables : Tables) :
    ((tables.profiles.rows.filter fun profile => profile.origin = .local).map fun profile => profile.name.value).Nodup :=
  nodup_column _ _ fun _ _ _ _ h => h

theorem usageRows_nodup (tables : Tables) (localMachine : MachineName) :
    ((tables.usage.rows.filter fun stored => stored.snapshot.machine = localMachine).map fun stored => stored.id).Nodup :=
  nodup_column _ _ fun _ _ _ _ h => h

theorem contextRows_nodup (tables : Tables) (localMachine : MachineName) :
    ((tables.contexts.rows.filter fun session => session.machine = localMachine).map
      fun session => [session.profile.value, session.sessionId.value]).Nodup := by
  refine nodup_column _ _ fun a b ha hb h => ?_
  have ha : a.machine = localMachine := of_decide_eq_true ha
  have hb : b.machine = localMachine := of_decide_eq_true hb
  simp only [List.cons.injEq, and_true] at h
  simp [ContextSession.primaryKey, ha, hb, h.1, h.2]

theorem tokenRows_nodup (tables : Tables) (localMachine : MachineName) :
    ((tables.tokens.rows.filter fun grain => grain.machine = localMachine).map
      fun grain => (LocalRow.token grain).values).Nodup := by
  refine nodup_column _ _ fun a b ha hb h => ?_
  have ha : a.machine = localMachine := of_decide_eq_true ha
  have hb : b.machine = localMachine := of_decide_eq_true hb
  simp only [LocalRow.values, List.cons.injEq, and_true] at h
  obtain ⟨hprofile, hsession, hmodel, hhash, hday, hsource⟩ := h
  simp [TokenGrain.primaryKey, ha, hb, hprofile, hsession, hmodel, hhash, hday, hsource]

theorem sub_lt_sub {values values' : List String} :
    (toLex ((0 : ℤ), values) : ℤ ×ₗ List String) < toLex (0, values') ↔ values < values' := by
  simp [Prod.Lex.toLex_lt_toLex]

/-- The rows of one phase, in the order of a column. -/
theorem phase_ascending {R C : Type} [LinearOrder C] {rows : List R} {column : R → C} {wrap : R → LocalRow} {phase : Nat}
    (hphase : ∀ row, (wrap row).phase = phase)
    (hsub : ∀ a b, column a < column b → (wrap a).sub < (wrap b).sub) (h : (rows.map column).Nodup) :
    ((orderBy column rows).map wrap).Pairwise fun a b => a.order < b.order := by
  refine List.pairwise_map.mpr ((orderBy_ascending h).imp fun {a b} hlt => ?_)
  rw [LocalRow.order, LocalRow.order, hphase, hphase]
  exact Prod.Lex.toLex_lt_toLex.mpr (.inr ⟨rfl, hsub a b hlt⟩)

theorem singleton_lt_singleton {a b : String} : [a] < [b] ↔ a < b := by
  rw [List.cons_lt_cons_iff]
  simp

theorem profileRows_ascending (tables : Tables) :
    (profileRows tables).Pairwise fun a b => a.order < b.order := by
  refine phase_ascending (fun _ => rfl) (fun a b hlt => ?_) (profileRows_nodup tables)
  exact sub_lt_sub.mpr (singleton_lt_singleton.mpr hlt)

theorem usageRows_ascending (tables : Tables) (localMachine : MachineName) :
    (usageRows tables localMachine).Pairwise fun a b => a.order < b.order := by
  refine phase_ascending (fun _ => rfl) (fun a b hlt => ?_) (usageRows_nodup tables localMachine)
  exact Prod.Lex.toLex_lt_toLex.mpr (.inl (Int.ofNat_lt.mpr hlt))

theorem contextRows_ascending (tables : Tables) (localMachine : MachineName) :
    (contextRows tables localMachine).Pairwise fun a b => a.order < b.order :=
  phase_ascending (fun _ => rfl) (fun _ _ hlt => sub_lt_sub.mpr hlt) (contextRows_nodup tables localMachine)

theorem tokenRows_ascending (tables : Tables) (localMachine : MachineName) :
    (tokenRows tables localMachine).Pairwise fun a b => a.order < b.order :=
  phase_ascending (fun _ => rfl) (fun _ _ hlt => sub_lt_sub.mpr hlt) (tokenRows_nodup tables localMachine)

theorem machineRows_ascending (tables : Tables) (localMachine : MachineName) :
    (machineRows tables localMachine).Pairwise fun a b => a.order < b.order := by
  unfold machineRows
  cases tables.machines.find? localMachine.value <;> simp

theorem phaseRows_ascending (tables : Tables) (localMachine : MachineName) (phase : Nat) :
    (phaseRows tables localMachine phase).Pairwise fun a b => a.order < b.order := by
  unfold phaseRows
  split
  · exact machineRows_ascending ..
  · exact profileRows_ascending ..
  · exact usageRows_ascending ..
  · exact contextRows_ascending ..
  · exact tokenRows_ascending ..
  · exact .nil

theorem phase_of_mem {row : LocalRow} {phase : Nat} (h : row ∈ phaseRows tables localMachine phase) :
    row.phase = phase := by
  unfold phaseRows at h
  split at h
  case h_6 => cases h
  all_goals
    obtain ⟨_, -, rfl⟩ := List.mem_map.mp h
    rfl

/-- The rows are in the order of the queries. -/
theorem exportRows_ascending (tables : Tables) (localMachine : MachineName) :
    (exportRows tables localMachine).Pairwise fun a b => a.order < b.order := by
  refine List.pairwise_flatMap.mpr ⟨fun phase _ => phaseRows_ascending tables localMachine phase, ?_⟩
  have hphases : [0, 1, 2, 3, 4].Pairwise (· < ·) := by decide
  refine hphases.imp fun hlt a ha b hb => Prod.Lex.toLex_lt_toLex.mpr (.inl ?_)
  rw [phase_of_mem ha, phase_of_mem hb]
  exact hlt

/-! ## Queries -/

theorem beyond_order {row : LocalRow} {phase : Nat} {sub : ℤ ×ₗ List String} :
    Entries.beyond (some (toLex (phase, sub))) row.order = decide (phase < row.phase ∨ phase = row.phase ∧ sub < row.sub) := by
  rw [Entries.beyond, Option.all_some]
  exact decide_eq_decide.mpr Prod.Lex.toLex_lt_toLex

/-- `WHERE` with the cursor, as a part of the phase's rows. -/
theorem select_eq {R C K : Type} [LinearOrder C] [LinearOrder K] {key : R → K} (table : Table key) (p : R → Prop)
    [DecidablePred p] {q : R → Prop} [DecidablePred q] {column : R → C} {wrap : R → LocalRow}
    {bound : Option ExportOrder} (hnodup : ((table.rows.filter fun row => p row).map column).Nodup)
    (h : ∀ row ∈ table.rows, q row ↔ Entries.beyond bound (wrap row).order = true) :
    (orderBy column (table.rows.filter fun row => p row ∧ q row)).map wrap =
      ((orderBy column (table.rows.filter fun row => p row)).map wrap).filter fun row =>
        Entries.beyond bound row.order := by
  have hwhere : (table.rows.filter fun row => p row ∧ q row) =
      (table.rows.filter fun row => p row).filter fun row => q row := by
    rw [List.filter_filter]
    refine List.filter_congr fun row _ => ?_
    rw [Bool.decide_and, Bool.and_comm]
  rw [hwhere, orderBy_filter hnodup, List.filter_map]
  congr 1
  refine List.filter_congr fun row hrow => ?_
  have hmem := List.mem_of_mem_filter (mem_orderBy.mp hrow)
  rw [Function.comp_apply]
  cases hbeyond : Entries.beyond bound (wrap row).order with
  | true => exact decide_eq_true ((h row hmem).mpr hbeyond)
  | false =>
    refine decide_eq_false fun hq => ?_
    rw [(h row hmem).mp hq] at hbeyond
    cases hbeyond

theorem empty_lt {label : String} {maxBytes : Nat} (id : ValidatedString label maxBytes) : "" < id.value := by
  have hne := (validateText_ok.mp id.valid).1
  rw [String.lt_iff_toList_lt]
  cases htext : id.value.toList with
  | nil => exact absurd (String.toList_eq_nil_iff.mp htext) hne
  | cons c text => exact List.nil_lt_cons c text

/-- A cursor before a phase, or in it. -/
theorem cursor_cases {after : Option FederationExportPosition} {bound : Option ExportOrder} {phase : Nat}
    (h : cursorOrder after = .ok bound) (hopen : after.elim 0 (·.phase) ≤ phase) :
    (∀ arity name, cursorValues after phase arity name = .ok none) ∧
        (∀ row : LocalRow, row.phase = phase → Entries.beyond bound row.order = true) ∨
      ∃ position sub, after = some position ∧ position.phase = phase ∧ cursorSub position = .ok sub ∧
        ∀ row : LocalRow, row.phase = phase → (sub < row.sub ↔ Entries.beyond bound row.order = true) := by
  cases after with
  | none =>
    obtain rfl := Except.ok.inj h
    exact .inl ⟨fun _ _ => rfl, fun _ _ => rfl⟩
  | some position =>
    rw [cursorOrder] at h
    cases hsub : cursorSub position with
    | error e =>
      rw [hsub] at h
      cases h
    | ok sub =>
      rw [hsub] at h
      obtain rfl := Except.ok.inj h
      by_cases hphase : position.phase = phase
      · refine .inr ⟨position, sub, rfl, hphase, hsub, fun row hrow => ?_⟩
        rw [beyond_order, decide_eq_true_eq, hphase, hrow]
        simp
      · refine .inl ⟨fun _ _ => if_pos hphase, fun row hrow => ?_⟩
        rw [beyond_order, decide_eq_true_eq, hrow]
        exact .inl (lt_of_le_of_ne hopen hphase)

/-- A cursor in a phase with a natural key. -/
theorem cursorSub_natural {position : FederationExportPosition} {sub : ℤ ×ₗ List String} {phase arity : Nat} {name : String}
    (hphase : position.phase = phase) (hsub : cursorSub position = .ok sub)
    (h : (phase, arity, name) ∈ [(1, 1, "profile"), (3, 2, "context"), (4, 6, "token")]) :
    cursorValues (some position) phase arity name = .ok (some position.values) ∧ position.values.length = arity ∧
      sub = toLex (0, position.values) := by
  have hnatural : cursorSub position = (do
      let values ← cursorValues (some position) phase arity name
      pure (toLex (0, values.getD []))) := by
    simp only [List.mem_cons, Prod.mk.injEq, List.not_mem_nil, or_false] at h
    rcases h with ⟨rfl, rfl, rfl⟩ | ⟨rfl, rfl, rfl⟩ | ⟨rfl, rfl, rfl⟩ <;> simp only [cursorSub, hphase]
  rw [hnatural] at hsub
  by_cases hlength : position.values.length = arity
  · have hvalues : cursorValues (some position) phase arity name = .ok (some position.values) := by
      simp [cursorValues, hphase, hlength]
    rw [hvalues] at hsub
    exact ⟨hvalues, hlength, (Except.ok.inj hsub).symm⟩
  · have hvalues : cursorValues (some position) phase arity name =
        .error (.invalidInput ("Pulse federation " ++ name ++ " cursor is invalid")) := by
      simp [cursorValues, hphase, hlength]
    rw [hvalues] at hsub
    cases hsub

/-- A cursor in the usage phase. -/
theorem cursorSub_usage {position : FederationExportPosition} {sub : ℤ ×ₗ List String} (hphase : position.phase = 2)
    (hsub : cursorSub position = .ok sub) :
    cursorValues (some position) 2 1 "usage" = .ok (some position.values) ∧
      ∃ id, Text.parseSigned (2 ^ 63) (position.values.headD "").toList = some id ∧ sub = toLex (id, []) := by
  by_cases hlength : position.values.length = 1
  · have hvalues : cursorValues (some position) 2 1 "usage" = .ok (some position.values) := by
      simp [cursorValues, hphase, hlength]
    refine ⟨hvalues, ?_⟩
    simp only [cursorSub, hphase, hvalues, bind, Except.bind, Option.getD_some] at hsub
    split at hsub
    · cases hsub
    next id hid => exact ⟨id, hid, (Except.ok.inj hsub).symm⟩
  · have hvalues : cursorValues (some position) 2 1 "usage" =
        .error (.invalidInput "Pulse federation usage cursor is invalid") := by
      simp [cursorValues, hphase, hlength]
    simp only [cursorSub, hphase, hvalues, bind, Except.bind] at hsub
    cases hsub

section
variable {after : Option FederationExportPosition} {bound : Option ExportOrder}

theorem profileQuery_eq (h : cursorOrder after = .ok bound) (hopen : after.elim 0 (·.phase) ≤ 1) :
    profileQuery tables after = .ok ((phaseRows tables localMachine 1).filter fun row =>
      Entries.beyond bound row.order) := by
  unfold profileQuery
  rcases cursor_cases h hopen with ⟨hvalues, hall⟩ | ⟨position, sub, rfl, hphase, hsub, hbeyond⟩
  · rw [hvalues]
    refine congrArg Except.ok (select_eq tables.profiles (·.origin = .local) (profileRows_nodup tables) fun row _ => ?_)
    exact ⟨fun _ => hall _ rfl, fun _ => empty_lt row.name⟩
  · obtain ⟨hvalues, hlength, rfl⟩ := cursorSub_natural hphase hsub (show (1, 1, "profile") ∈ _ by decide)
    obtain ⟨name, hname⟩ := List.length_eq_one_iff.mp hlength
    rw [hvalues, hname]
    refine congrArg Except.ok (select_eq tables.profiles (·.origin = .local) (profileRows_nodup tables) fun row _ => ?_)
    rw [← hbeyond _ rfl, hname]
    exact (sub_lt_sub.trans singleton_lt_singleton).symm

theorem usageQuery_eq (h : cursorOrder after = .ok bound) (hopen : after.elim 0 (·.phase) ≤ 2) :
    usageQuery tables localMachine after = .ok ((phaseRows tables localMachine 2).filter fun row =>
      Entries.beyond bound row.order) := by
  unfold usageQuery
  rcases cursor_cases h hopen with ⟨hvalues, hall⟩ | ⟨position, sub, rfl, hphase, hsub, hbeyond⟩
  · rw [hvalues]
    refine congrArg Except.ok (select_eq tables.usage (·.snapshot.machine = localMachine)
      (usageRows_nodup tables localMachine) fun row hrow => ?_)
    have hpos := (tables.usage_ids row hrow).1
    exact ⟨fun _ => hall _ rfl, fun _ => Int.natCast_pos.mpr hpos⟩
  · obtain ⟨hvalues, id, hparse, rfl⟩ := cursorSub_usage hphase hsub
    simp only [hvalues, hparse, bind, Except.bind]
    refine congrArg Except.ok (select_eq tables.usage (·.snapshot.machine = localMachine)
      (usageRows_nodup tables localMachine) fun row _ => ?_)
    rw [← hbeyond _ rfl]
    simp [LocalRow.sub, Prod.Lex.toLex_lt_toLex]

theorem contextQuery_eq (h : cursorOrder after = .ok bound) (hopen : after.elim 0 (·.phase) ≤ 3) :
    contextQuery tables localMachine after = .ok ((phaseRows tables localMachine 3).filter fun row =>
      Entries.beyond bound row.order) := by
  unfold contextQuery
  rcases cursor_cases h hopen with ⟨hvalues, hall⟩ | ⟨position, sub, rfl, hphase, hsub, hbeyond⟩
  · rw [hvalues]
    refine congrArg Except.ok (select_eq tables.contexts (·.machine = localMachine)
      (contextRows_nodup tables localMachine) fun row _ => ?_)
    exact ⟨fun _ => hall _ rfl, fun _ => List.cons_lt_cons_iff.mpr (.inl (empty_lt row.profile))⟩
  · obtain ⟨hvalues, -, rfl⟩ := cursorSub_natural hphase hsub (show (3, 2, "context") ∈ _ by decide)
    rw [hvalues]
    refine congrArg Except.ok (select_eq tables.contexts (·.machine = localMachine)
      (contextRows_nodup tables localMachine) fun row _ => ?_)
    exact sub_lt_sub.symm.trans (hbeyond (.context row) rfl)

theorem tokenQuery_eq (h : cursorOrder after = .ok bound) (hopen : after.elim 0 (·.phase) ≤ 4) :
    tokenQuery tables localMachine after = .ok ((phaseRows tables localMachine 4).filter fun row =>
      Entries.beyond bound row.order) := by
  unfold tokenQuery
  rcases cursor_cases h hopen with ⟨hvalues, hall⟩ | ⟨position, sub, rfl, hphase, hsub, hbeyond⟩
  · rw [hvalues]
    refine congrArg Except.ok (select_eq tables.tokens (·.machine = localMachine)
      (tokenRows_nodup tables localMachine) fun row _ => ?_)
    exact ⟨fun _ => hall _ rfl, fun _ => List.cons_lt_cons_iff.mpr (.inl (empty_lt row.profile))⟩
  · obtain ⟨hvalues, -, rfl⟩ := cursorSub_natural hphase hsub (show (4, 6, "token") ∈ _ by decide)
    rw [hvalues]
    refine congrArg Except.ok (select_eq tables.tokens (·.machine = localMachine)
      (tokenRows_nodup tables localMachine) fun row _ => ?_)
    exact sub_lt_sub.symm.trans (hbeyond (.token row) rfl)

/-- Nothing of an earlier phase is beyond a cursor. -/
theorem closed_phase {phase : Nat} (h : cursorOrder after = .ok bound) (hclosed : ¬ after.elim 0 (·.phase) ≤ phase) :
    ((phaseRows tables localMachine phase).filter fun row => Entries.beyond bound row.order) = [] := by
  cases after with
  | none => exact absurd (Nat.zero_le _) hclosed
  | some position =>
    rw [cursorOrder] at h
    cases hsub : cursorSub position with
    | error e =>
      rw [hsub] at h
      cases h
    | ok sub =>
      rw [hsub] at h
      obtain rfl := Except.ok.inj h
      refine List.filter_eq_nil_iff.mpr fun row hrow => ?_
      rw [beyond_order, phase_of_mem hrow, decide_eq_true_eq]
      rintro (hlt | ⟨heq, -⟩)
      · exact hclosed (Nat.le_of_lt hlt)
      · exact hclosed (Nat.le_of_eq heq)

/-- The machine's row comes first, and only without a cursor. -/
theorem machine_phase (h : cursorOrder after = .ok bound) :
    ((phaseRows tables localMachine 0).filter fun row => Entries.beyond bound row.order) =
      (if after.isNone then (tables.machines.find? localMachine.value).toList else []).map LocalRow.machine := by
  cases after with
  | none =>
    obtain rfl := Except.ok.inj h
    exact List.filter_eq_self.mpr fun _ _ => rfl
  | some position =>
    by_cases hphase : position.phase = 0
    · have hbound : cursorOrder (some position) = .ok (some (toLex (0, toLex (0, [])))) := by
        simp [cursorOrder, cursorSub, hphase]
      obtain rfl := Except.ok.inj (hbound.symm.trans h)
      refine List.filter_eq_nil_iff.mpr fun row hrow => ?_
      obtain ⟨machine, -, rfl⟩ := List.mem_map.mp hrow
      simp [beyond_order, LocalRow.phase, LocalRow.sub]
    · exact closed_phase h fun hle => hphase (Nat.le_zero.mp hle)

/-- A phase adds what room there is for its rows. -/
theorem exportPhase_take {crates : FederationCrates} {limit afterPhase phase : Nat} {before rows : List LocalRow}
    {query : PulseResult (List LocalRow)} (hopen : afterPhase ≤ phase → query = .ok rows)
    (hclosed : ¬ afterPhase ≤ phase → rows = []) :
    (do
      let records ← (before.take limit).mapM (LocalRow.record crates)
      exportPhase crates limit afterPhase phase records query) =
      ((before ++ rows).take limit).mapM (LocalRow.record crates) := by
  rw [List.take_append, List.mapM_append]
  cases hbefore : (before.take limit).mapM (LocalRow.record crates) with
  | error e => rfl
  | ok records =>
    have hlength : records.length = min limit before.length := by
      rw [← (mapM_ok hbefore).length_eq, List.length_take]
    simp only [bind, Except.bind]
    unfold exportPhase
    by_cases hphase : afterPhase ≤ phase
    · by_cases hroom : records.length < limit
      · have hlimit : limit - records.length = limit - before.length := by omega
        rw [if_pos ⟨hroom, hphase⟩, hopen hphase, hlimit]
        rfl
      · have hlimit : limit - before.length = 0 := by omega
        rw [if_neg fun h => hroom h.1, hlimit, List.take_zero]
        simp [pure, Except.pure]
    · rw [if_neg fun h => hphase h.2, hclosed hphase, List.take_nil]
      simp [pure, Except.pure]

theorem exportPhases_eq (crates : FederationCrates) {limit : Nat} (hlimit : 0 < limit)
    (h : cursorOrder after = .ok bound) : exportPhases tables localMachine after crates limit =
      ((rowsAfter tables localMachine bound).take limit).mapM (LocalRow.record crates) := by
  have hrows : rowsAfter tables localMachine bound = [0, 1, 2, 3, 4].flatMap fun phase =>
      (phaseRows tables localMachine phase).filter fun row => Entries.beyond bound row.order :=
    List.filter_flatMap
  have hmachine : ((if after.isNone then (tables.machines.find? localMachine.value).toList else []).map
      LocalRow.machine).mapM (LocalRow.record crates) = (((if after.isNone then
        (tables.machines.find? localMachine.value).toList else []).map LocalRow.machine).take limit).mapM
          (LocalRow.record crates) := by
    rw [List.take_of_length_le]
    rw [List.length_map]
    split
    · cases tables.machines.find? localMachine.value with
      | none => exact Nat.zero_le _
      | some machine => exact hlimit
    · exact Nat.zero_le _
  rw [hrows]
  simp only [List.flatMap_cons, List.flatMap_nil, List.append_nil, machine_phase h, ← List.append_assoc]
  unfold exportPhases
  simp only [← bind_assoc]
  rw [hmachine, exportPhase_take (profileQuery_eq h) (closed_phase h), exportPhase_take (usageQuery_eq h) (closed_phase h),
    exportPhase_take (contextQuery_eq h) (closed_phase h), exportPhase_take (tokenQuery_eq h) (closed_phase h)]

/-- A cursor that cannot be read stands in a phase with a natural key or an
id, and the query of the phase fails. -/
theorem query_error {position : FederationExportPosition} {e : PulseError} (h : cursorSub position = .error e) :
    position.phase = 1 ∧ profileQuery tables (some position) = .error e ∨
      position.phase = 2 ∧ usageQuery tables localMachine (some position) = .error e ∨
      position.phase = 3 ∧ contextQuery tables localMachine (some position) = .error e ∨
      position.phase = 4 ∧ tokenQuery tables localMachine (some position) = .error e := by
  have hnatural : ∀ {arity : Nat} {name : String}, (do
      let values ← cursorValues (some position) position.phase arity name
      pure (toLex ((0 : ℤ), values.getD []) : ℤ ×ₗ List String)) = .error e →
      cursorValues (some position) position.phase arity name = .error e := by
    intro arity name h
    cases hvalues : cursorValues (some position) position.phase arity name with
    | error e' =>
      rw [hvalues] at h
      exact congrArg _ (Except.error.inj h)
    | ok values =>
      rw [hvalues] at h
      cases h
  unfold cursorSub at h
  split at h
  next hphase =>
    have hvalues := hnatural h
    rw [hphase] at hvalues
    exact .inl ⟨hphase, by simp only [profileQuery, hvalues, bind, Except.bind]⟩
  next hphase =>
    refine .inr (.inl ⟨hphase, ?_⟩)
    by_cases hlength : position.values.length = 1
    · have hvalues : cursorValues (some position) 2 1 "usage" = .ok (some position.values) := by
        simp [cursorValues, hphase, hlength]
      simp only [usageQuery, hvalues, bind, Except.bind, Option.getD_some] at h ⊢
      cases hparse : Text.parseSigned (2 ^ 63) (position.values.headD "").toList with
      | none =>
        simp only [hparse] at h ⊢
        exact congrArg _ (Except.error.inj h)
      | some id =>
        simp only [hparse] at h
        cases h
    · have hvalues : cursorValues (some position) 2 1 "usage" =
          .error (.invalidInput "Pulse federation usage cursor is invalid") := by
        simp [cursorValues, hphase, hlength]
      rw [hvalues] at h
      obtain rfl := Except.error.inj h
      simp only [usageQuery, hvalues, bind, Except.bind]
  next hphase =>
    have hvalues := hnatural h
    rw [hphase] at hvalues
    exact .inr (.inr (.inl ⟨hphase, by simp only [contextQuery, hvalues, bind, Except.bind]⟩))
  next hphase =>
    have hvalues := hnatural h
    rw [hphase] at hvalues
    exact .inr (.inr (.inr ⟨hphase, by simp only [tokenQuery, hvalues, bind, Except.bind]⟩))
  · cases h

/-- The query of the cursor's phase is the first to run, and fails with it. -/
theorem exportPhases_error {crates : FederationCrates} {limit : Nat} {e : PulseError} (hlimit : 0 < limit)
    (h : cursorOrder after = .error e) : exportPhases tables localMachine after crates limit = .error e := by
  cases after with
  | none => cases h
  | some position =>
    have hsub : cursorSub position = .error e := by
      rw [cursorOrder] at h
      cases hsub : cursorSub position with
      | error e' =>
        rw [hsub] at h
        exact congrArg _ (Except.error.inj h)
      | ok sub =>
        rw [hsub] at h
        cases h
    have hclosed : ∀ {phase : Nat} {query : PulseResult (List LocalRow)}, ¬ position.phase ≤ phase →
        exportPhase crates limit position.phase phase [] query = .ok [] :=
      fun hphase => if_neg fun hc => hphase hc.2
    have hfails : ∀ {phase : Nat} {query : PulseResult (List LocalRow)}, position.phase = phase → query = .error e →
        exportPhase crates limit position.phase phase [] query = .error e := by
      intro phase query hphase hquery
      rw [exportPhase, if_pos ⟨hlimit, Nat.le_of_eq hphase⟩, hquery]
      rfl
    show (do
      let records ← exportPhase crates limit position.phase 1 [] (profileQuery tables (some position))
      let records ← exportPhase crates limit position.phase 2 records (usageQuery tables localMachine (some position))
      let records ← exportPhase crates limit position.phase 3 records (contextQuery tables localMachine (some position))
      exportPhase crates limit position.phase 4 records (tokenQuery tables localMachine (some position))) = _
    rcases query_error hsub with ⟨hphase, hquery⟩ | ⟨hphase, hquery⟩ | ⟨hphase, hquery⟩ | ⟨hphase, hquery⟩
    · rw [hfails hphase hquery]
      rfl
    · rw [hclosed (by omega)]
      show (exportPhase crates limit position.phase 2 [] _ >>= _) = _
      rw [hfails hphase hquery]
      rfl
    · rw [hclosed (by omega)]
      show (exportPhase crates limit position.phase 2 [] _ >>= _) = _
      rw [hclosed (by omega)]
      show (exportPhase crates limit position.phase 3 [] _ >>= _) = _
      rw [hfails hphase hquery]
      rfl
    · rw [hclosed (by omega)]
      show (exportPhase crates limit position.phase 2 [] _ >>= _) = _
      rw [hclosed (by omega)]
      show (exportPhase crates limit position.phase 3 [] _ >>= _) = _
      rw [hclosed (by omega)]
      exact hfails hphase hquery

/-- **A page is the first rows beyond its cursor.** -/
theorem localFederationPage_eq (crates : FederationCrates) (limit : Nat) :
    localFederationPage tables localMachine after crates limit = (do
      let limit ← federationQueryLimit limit
      let bound ← cursorOrder after
      ((rowsAfter tables localMachine bound).take limit).mapM (LocalRow.record crates)) := by
  unfold localFederationPage
  cases hlimit : federationQueryLimit limit with
  | error e => rfl
  | ok limit' =>
    have hpos : 0 < limit' := by
      unfold federationQueryLimit at hlimit
      split at hlimit
      · cases hlimit
      · obtain rfl := Except.ok.inj hlimit
        omega
    cases hbound : cursorOrder after with
    | error e => exact exportPhases_error hpos hbound
    | ok bound => exact exportPhases_eq crates hpos hbound

end

end Atmux.Pulse
