/-
What is shown of a profile as its machines poll it, one after another.

The shown percentage does not fall while the shown reset stays within the
tolerance, and a report of an earlier period changes nothing. A report whose
reset is a little earlier is accepted and not shown, and one of the shown
machine that is not shown leaves its card without a chosen contributor; where
neither comes up, the latest accepted report is shown, and one contributor of
each card is chosen (`current_usage_fresh`).
-/
import Atmux.Lib.Runs
import Atmux.Pulse.Cards

namespace Atmux.Pulse

open Lib

/-! ## Polls -/

/-- A snapshot is inserted or refused. -/
def UsageStore.append (store : UsageStore) (step : Bool × UsageSnapshot) : UsageStore :=
  match store.insertSnapshot step.1 step.2 with
  | .error _ => store
  | .ok store => store

def UsageSnapshot.isOf (snapshot : UsageSnapshot) (accountId : AccountId) (profile : ProfileName) : Prop :=
  snapshot.accountId = accountId ∧ snapshot.profile = profile

/-- A profile's polls are inserted in their order. -/
def UsageStore.Timely (store : UsageStore) (accountId : AccountId) (profile : ProfileName) (snapshot : UsageSnapshot) : Prop :=
  snapshot.isOf accountId profile → ∀ row ∈ store.usage.rows, row.snapshot.isOf accountId profile →
    row.snapshot.polledAt ≤ snapshot.polledAt

def Report.admits (shown : Report) (vendor : Vendor) (window : QuotaWindow) : Bool :=
  windowIsAccepted vendor window shown.2.window.resetsAt shown.2.window.usedPercent

/-- A window that is accepted does not reset before the shown one, and one of
the shown machine is accepted, or was polled at the same time. -/
def UsageStore.KeepsUp (store : UsageStore) (accountId : AccountId) (profile : ProfileName) (step : Bool × UsageSnapshot) : Prop :=
  ∀ store', store.insertSnapshot step.1 step.2 = .ok store' → step.2.isOf accountId profile →
    ∀ window ∈ step.2.windows, ∀ shown, Shown store.usage.rows accountId profile shown → kindOf shown = window.kind →
      (shown.admits step.2.vendor window = true → shown.2.window.resetsAt ≤ window.resetsAt) ∧
        (step.2.machine = machineOf shown →
          shown.admits step.2.vendor window = true ∨ step.2.polledAt ≤ shown.1.snapshot.polledAt)

/-- The polls of all machines, a profile's in their order. -/
abbrev PollRun (accountId : AccountId) (profile : ProfileName) :=
  Run fun (store : UsageStore) (step : Bool × UsageSnapshot) (store' : UsageStore) =>
    store.Timely accountId profile step.2 ∧ store' = store.append step

abbrev KeptUpRun (accountId : AccountId) (profile : ProfileName) :=
  Run fun (store : UsageStore) (step : Bool × UsageSnapshot) (store' : UsageStore) =>
    (store.Timely accountId profile step.2 ∧ store.KeepsUp accountId profile step) ∧ store' = store.append step

/-! ## One window -/

theorem windowIsAccepted_iff {vendor : Vendor} {window : QuotaWindow} {oldReset : Int} {oldPercent : Percent} :
    windowIsAccepted vendor window oldReset oldPercent = true ↔
      saturatingSubI64 oldReset resetJitterToleranceMs ≤ window.resetsAt ∧
        ((window.resetsAt - oldReset).natAbs ≤ resetJitterToleranceMs →
          vendor.rejectsSamePeriodDecrease window.kind = true → oldPercent.rank ≤ window.usedPercent.rank) := by
  unfold windowIsAccepted
  split
  next hearlier =>
    refine ⟨fun h => (by cases h), fun h => ?_⟩
    exact absurd h.1 (not_le.mpr hearlier)
  next hearlier =>
    simp only [Bool.not_eq_true', Bool.and_eq_false_imp, Bool.and_eq_true, decide_eq_true_eq, decide_eq_false_iff_not, not_lt,
      and_imp]
    exact ⟨fun h => ⟨not_lt.mp hearlier, h⟩, fun h => h.2⟩

/-- A reset that lies more than the tolerance before is of an earlier period. -/
theorem not_accepted_of_earlier {vendor : Vendor} {window : QuotaWindow} {oldReset : Int} {oldPercent : Percent}
    (hrange : oldReset < 2 ^ 63) (h : window.resetsAt + resetJitterToleranceMs < oldReset) :
    ¬ windowIsAccepted vendor window oldReset oldPercent = true := by
  rw [windowIsAccepted_iff, saturatingSubI64]
  rintro ⟨hle, -⟩
  have htolerance : resetJitterToleranceMs = 300000 := rfl
  omega

section
variable {rows : List UsageRow} {accountId : AccountId} {profile : ProfileName} {kind : QuotaWindowKind} {report : Report}

theorem previous_some (h : previous rows accountId profile kind = some report) :
    Shown rows accountId profile report ∧ kindOf report = kind := by
  obtain ⟨hmem, hnewest⟩ := head?_orderBy h
  obtain ⟨hreport, hselected⟩ := List.mem_filter.mp hmem
  obtain ⟨hkind, haccepted⟩ := of_decide_eq_true hselected
  refine ⟨⟨mem_acceptedReports.mpr ⟨hreport, haccepted⟩, by simp, fun other hother hsame => ?_⟩, hkind⟩
  obtain ⟨hother, haccepted'⟩ := mem_acceptedReports.mp hother
  refine OrderDual.toDual_le_toDual.mp (hnewest other (List.mem_filter.mpr ⟨hother, decide_eq_true ⟨?_, haccepted'⟩⟩))
  exact (of_decide_eq_true hsame).trans hkind

/-- A window is measured by the shown one of its kind. -/
theorem accepts_eq (h : rows.Pairwise fun a b => a.id < b.id) {snapshot : UsageSnapshot} {window : QuotaWindow} {shown : Report}
    (hshown : Shown rows snapshot.accountId snapshot.profile shown) (hkind : kindOf shown = window.kind) :
    accepts rows snapshot window = shown.admits snapshot.vendor window := by
  unfold accepts
  split
  next hnone =>
    have hmem : shown ∈ (reports rows snapshot.accountId snapshot.profile).filter fun report =>
        report.2.window.kind = window.kind ∧ report.2.accepted := by
      obtain ⟨hreport, haccepted⟩ := mem_acceptedReports.mp hshown.1
      exact List.mem_filter.mpr ⟨hreport, decide_eq_true ⟨hkind, haccepted⟩⟩
    rw [previous, List.head?_eq_none_iff] at hnone
    have hordered : shown ∈ orderBy (fun report => OrderDual.toDual (standing report)) _ := mem_orderBy.mpr hmem
    rw [hnone] at hordered
    cases hordered
  next old hold =>
    obtain ⟨hold, hkind'⟩ := previous_some hold
    obtain rfl := hshown.unique h hold (hkind.trans hkind'.symm)
    rfl

end

/-! ## One poll -/

section
variable {store store' : UsageStore} {accountId : AccountId} {profile : ProfileName} {row : UsageRow}
  {hid : row.id = store.sequence + 1} {hroom : store.sequence + 1 < 2 ^ 63} {report report' other : Report}
  {refers : Bool} {snapshot : UsageSnapshot} {step : Bool × UsageSnapshot}

theorem mem_reports_put : report ∈ reports (store.put row hid hroom).usage.rows accountId profile ↔
    report ∈ reports store.usage.rows accountId profile ∨
      report.1 = row ∧ row.snapshot.isOf accountId profile ∧ report.2 ∈ row.windows := by
  rw [mem_reports, mem_reports, UsageStore.mem_put]
  constructor
  · rintro ⟨rfl | hmem, haccount, hprofile, hwindow⟩
    · exact .inr ⟨rfl, ⟨haccount, hprofile⟩, hwindow⟩
    · exact .inl ⟨hmem, haccount, hprofile, hwindow⟩
  · rintro (⟨hmem, haccount, hprofile, hwindow⟩ | ⟨rfl, ⟨haccount, hprofile⟩, hwindow⟩)
    · exact ⟨.inr hmem, haccount, hprofile, hwindow⟩
    · exact ⟨.inl rfl, haccount, hprofile, hwindow⟩

/-- What the poll adds to a profile. -/
structure Polled (store : UsageStore) (accountId : AccountId) (profile : ProfileName) (snapshot : UsageSnapshot)
    (report : Report) : Prop where
  own : report.1.snapshot = snapshot
  isOf : snapshot.isOf accountId profile
  listed : report.2.window ∈ snapshot.windows
  newer : ∀ other ∈ reports store.usage.rows accountId profile, other.1.id < report.1.id
  accepted : report.2.accepted = accepts store.usage.rows snapshot report.2.window

/-- The reports after a poll, and how the new ones of a kind compare. -/
theorem append_cases (store : UsageStore) (accountId : AccountId) (profile : ProfileName) (step : Bool × UsageSnapshot) :
    store.append step = store ∨ store.insertSnapshot step.1 step.2 = .ok (store.append step) ∧
      (∀ report ∈ reports store.usage.rows accountId profile, report ∈ reports (store.append step).usage.rows accountId profile) ∧
      (∀ report ∈ reports (store.append step).usage.rows accountId profile,
        report ∈ reports store.usage.rows accountId profile ∨ Polled store accountId profile step.2 report) ∧
      ∀ a ∈ reports (store.append step).usage.rows accountId profile, ∀ b ∈ reports (store.append step).usage.rows accountId profile,
        Polled store accountId profile step.2 a → Polled store accountId profile step.2 b → kindOf a = kindOf b → a = b := by
  unfold UsageStore.append
  split
  · exact .inl rfl
  next store' hinsert =>
    obtain ⟨row, hid, hroom, rfl, hsnapshot, haccepted⟩ := UsageStore.insertSnapshot_ok hinsert
    have hnew (report : Report) (hrow : report.1 = row) (hof : row.snapshot.isOf accountId profile)
        (hwindow : report.2 ∈ row.windows) : Polled store accountId profile step.2 report := by
      refine ⟨hrow ▸ hsnapshot, hsnapshot ▸ hof, ?_, fun other hother => ?_, haccepted _ hwindow⟩
      · rw [← hsnapshot, ← row.same]
        exact List.mem_map_of_mem hwindow
      · have hle := (store.ids other.1 (mem_reports.mp hother).1).2
        rw [hrow, hid]
        omega
    refine .inr ⟨hinsert, fun report hreport => mem_reports_put.mpr (.inl hreport), fun report hreport => ?_,
      fun a ha b hb hpolled hpolled' hkind => ?_⟩
    · rcases mem_reports_put.mp hreport with hreport | ⟨hrow, hof, hwindow⟩
      · exact .inl hreport
      · exact .inr (hnew report hrow hof hwindow)
    · have hrow (report : Report) (hreport : report ∈ reports (store.put row hid hroom).usage.rows accountId profile)
          (hpolled : Polled store accountId profile step.2 report) : report.1 = row := by
        rcases mem_reports_put.mp hreport with hreport | ⟨hrow, -⟩
        · exact absurd (hpolled.newer report hreport) (lt_irrefl _)
        · exact hrow
      exact report_eq (store.put row hid hroom).usage.rows_pairwise ha hb
        (congrArg UsageRow.id ((hrow a ha hpolled).trans (hrow b hb hpolled').symm)) hkind

theorem mem_acceptedReports_append (h : report ∈ acceptedReports (store.append step).usage.rows accountId profile) :
    report ∈ acceptedReports store.usage.rows accountId profile ∨
      Polled store accountId profile step.2 report ∧ report.2.accepted = true := by
  obtain ⟨hreport, haccepted⟩ := mem_acceptedReports.mp h
  obtain hsame | ⟨-, -, hnew, -⟩ := append_cases store accountId profile step
  · exact .inl (hsame ▸ h)
  · rcases hnew report hreport with hreport | hpolled
    · exact .inl (mem_acceptedReports.mpr ⟨hreport, haccepted⟩)
    · exact .inr ⟨hpolled, haccepted⟩

theorem acceptedReports_subset_append (h : report ∈ acceptedReports store.usage.rows accountId profile) :
    report ∈ acceptedReports (store.append step).usage.rows accountId profile := by
  obtain hsame | ⟨-, hkept, -, -⟩ := append_cases store accountId profile step
  · exact hsame.symm ▸ h
  · exact mem_acceptedReports.mpr ((mem_acceptedReports.mp h).imp_left (hkept report))

/-- What is shown after a poll was shown before, or was polled. -/
theorem Shown.of_append (h : Shown (store.append step).usage.rows accountId profile report) :
    Shown store.usage.rows accountId profile report ∨
      Polled store accountId profile step.2 report ∧ report.2.accepted = true := by
  rcases mem_acceptedReports_append h.1 with hreport | hpolled
  · refine .inl ⟨hreport, by simp, fun other hother hkind => ?_⟩
    exact h.2.2 other (acceptedReports_subset_append hother) hkind
  · exact .inr hpolled

/-- A window that was polled and accepted was measured by the shown one. -/
theorem Polled.admitted (h : Polled store accountId profile snapshot report)
    (hshown : Shown store.usage.rows accountId profile other) (hkind : kindOf other = kindOf report) :
    report.2.accepted = other.admits snapshot.vendor report.2.window := by
  obtain ⟨haccount, hprofile⟩ := h.isOf
  rw [h.accepted]
  exact accepts_eq store.usage.rows_pairwise (haccount.symm ▸ hprofile.symm ▸ hshown) hkind

/-! ### The shown percentage -/

/-- Another report of the kind is shown when it was accepted. -/
theorem Shown.append (h : Shown store.usage.rows accountId profile report) :
    ∃ report', Shown (store.append step).usage.rows accountId profile report' ∧ kindOf report' = kindOf report ∧
      report.2.window.resetsAt ≤ report'.2.window.resetsAt ∧
        (report' = report ∨ step.2.isOf accountId profile ∧ report.admits step.2.vendor report'.2.window = true) := by
  have hmem : report ∈ acceptedReports (store.append step).usage.rows accountId profile := acceptedReports_subset_append h.1
  obtain ⟨report', hshown, hkind⟩ := exists_shown hmem
  have hle := hshown.2.2 report hmem (decide_eq_true hkind.symm)
  refine ⟨report', hshown, hkind, ?_, ?_⟩
  · rcases Prod.Lex.toLex_le_toLex.mp hle with hlt | ⟨heq, -⟩
    · exact hlt.le
    · exact heq.le
  · rcases hshown.of_append with hold | ⟨hpolled, haccepted⟩
    · exact .inl (hold.unique store.usage.rows_pairwise h hkind)
    · exact .inr ⟨hpolled.isOf, (hpolled.admitted h hkind.symm).symm.trans haccepted⟩

end

/-- The shown percentage does not fall while the resets stay within the
tolerance of the first. -/
theorem PollRun.rises {accountId : AccountId} {profile : ProfileName} {store store' : UsageStore}
    {steps : List (Bool × UsageSnapshot)} (hrun : PollRun accountId profile store steps store') {report report' : Report}
    (hreport : Shown store.usage.rows accountId profile report) (hreport' : Shown store'.usage.rows accountId profile report')
    (hkind : kindOf report' = kindOf report) :
    report.2.window.resetsAt ≤ report'.2.window.resetsAt ∧
      (report'.2.window.resetsAt ≤ report.2.window.resetsAt + resetJitterToleranceMs →
        (∀ step ∈ steps, step.2.isOf accountId profile → step.2.vendor.rejectsSamePeriodDecrease (kindOf report) = true) →
        report.2.window.usedPercent.rank ≤ report'.2.window.usedPercent.rank) := by
  induction hrun generalizing report with
  | nil store =>
    obtain rfl := hreport.unique store.usage.rows_pairwise hreport' hkind.symm
    exact ⟨le_refl _, fun _ _ => le_refl _⟩
  | @cons store _ _ step steps hstep _ ih =>
    obtain ⟨-, rfl⟩ := hstep
    obtain ⟨between, hbetween, hsame, hreset, hstays⟩ : ∃ between,
        Shown (store.append step).usage.rows accountId profile between ∧ _ := hreport.append
    obtain ⟨hreset', hpercent⟩ := ih hbetween hreport' (hkind.trans hsame.symm)
    refine ⟨hreset.trans hreset', fun htolerance hrejects => ?_⟩
    have hlater := hpercent (by omega) fun other hother hof =>
      hsame ▸ hrejects other (List.mem_cons_of_mem _ hother) hof
    rcases hstays with rfl | ⟨hof, hadmits⟩
    · exact hlater
    · obtain ⟨-, hrank⟩ := windowIsAccepted_iff.mp hadmits
      refine (hrank (by omega) ?_).trans hlater
      have hvendor := hrejects step List.mem_cons_self hof
      rwa [← hsame] at hvendor

/-- What is of an earlier period is not shown. -/
theorem Shown.append_of_earlier {store : UsageStore} {accountId : AccountId} {profile : ProfileName} {step : Bool × UsageSnapshot}
    {report : Report} (h : Shown store.usage.rows accountId profile report) (hrange : report.2.window.resetsAt < 2 ^ 63)
    (hearlier : ∀ window ∈ step.2.windows, window.kind = kindOf report →
      window.resetsAt + resetJitterToleranceMs < report.2.window.resetsAt) :
    Shown (store.append step).usage.rows accountId profile report := by
  refine ⟨acceptedReports_subset_append h.1, by simp, fun other hother hkind => ?_⟩
  rcases mem_acceptedReports_append hother with hold | ⟨hpolled, haccepted⟩
  · exact h.2.2 other hold hkind
  · have hkind := of_decide_eq_true hkind
    have hadmits := (hpolled.admitted h hkind.symm).symm.trans haccepted
    exact absurd hadmits (not_accepted_of_earlier hrange (hearlier _ hpolled.listed hkind))

/-! ## Runs that keep up -/

/-- What is shown is the latest that was accepted, and the latest of its
machine. -/
def UpToDate (rows : List UsageRow) (accountId : AccountId) (profile : ProfileName) : Prop :=
  ∀ shown, Shown rows accountId profile shown →
    (∀ other ∈ acceptedReports rows accountId profile, kindOf other = kindOf shown → polledOrder other ≤ polledOrder shown) ∧
      ∀ other ∈ reports rows accountId profile, kindOf other = kindOf shown → machineOf other = machineOf shown →
        other.1.snapshot.polledAt ≤ shown.1.snapshot.polledAt

section
variable {store : UsageStore} {accountId : AccountId} {profile : ProfileName} {step : Bool × UsageSnapshot} {report other : Report}

/-- A poll comes after all that were polled before. -/
theorem Polled.polledOrder_le (h : Polled store accountId profile step.2 report) (htimely : store.Timely accountId profile step.2)
    (hother : other ∈ reports store.usage.rows accountId profile) : polledOrder other ≤ polledOrder report := by
  obtain ⟨hmem, haccount, hprofile, -⟩ := mem_reports.mp hother
  have hle := htimely h.isOf other.1 hmem ⟨haccount, hprofile⟩
  rw [← h.own] at hle
  exact Prod.Lex.toLex_le_toLex.mpr ((lt_or_eq_of_le hle).imp_right fun heq => ⟨heq, (h.newer other hother).le⟩)

/-- An accepted poll that does not reset before the shown window takes its
place. -/
theorem Polled.not_shown (h : Polled store accountId profile step.2 report) (htimely : store.Timely accountId profile step.2)
    (hshown : Shown store.usage.rows accountId profile other) (hreset : other.2.window.resetsAt ≤ report.2.window.resetsAt)
    (hmem : report ∈ acceptedReports (store.append step).usage.rows accountId profile) (hkind : kindOf report = kindOf other) :
    ¬ Shown (store.append step).usage.rows accountId profile other := by
  intro hafter
  have hother := (mem_acceptedReports.mp hshown.1).1
  have hpolled := h.polledOrder_le htimely hother
  have hle : standing other ≤ standing report :=
    Prod.Lex.toLex_le_toLex.mpr ((lt_or_eq_of_le hreset).imp_right fun heq => ⟨heq, hpolled⟩)
  have heq := le_antisymm hle (hafter.2.2 report hmem (decide_eq_true hkind))
  have hid : other.1.id = report.1.id := (Prod.mk.inj (toLex.injective (Prod.mk.inj (toLex.injective heq)).2)).2
  exact absurd hid (h.newer other hother).ne

theorem UpToDate.append (h : UpToDate store.usage.rows accountId profile) (htimely : store.Timely accountId profile step.2)
    (hkeepsUp : store.KeepsUp accountId profile step) : UpToDate (store.append step).usage.rows accountId profile := by
  obtain hsame | ⟨hinsert, -, hnew, hone⟩ := append_cases store accountId profile step
  · exact hsame.symm ▸ h
  intro shown hshown
  have hreports (other : Report) (hother : other ∈ acceptedReports (store.append step).usage.rows accountId profile) :=
    (mem_acceptedReports.mp hother).1
  rcases hshown.of_append with hold | ⟨hpolled, -⟩
  · obtain ⟨hlatest, hmachine⟩ := h shown hold
    -- a poll of the kind is not accepted, or `shown` would not be shown
    have hrefused (other : Report) (hother : other ∈ reports (store.append step).usage.rows accountId profile)
        (hpolled : Polled store accountId profile step.2 other) (hkind : kindOf other = kindOf shown) :
        ¬ shown.admits step.2.vendor other.2.window = true := by
      intro hadmits
      have hreset := (hkeepsUp _ hinsert hpolled.isOf _ hpolled.listed shown hold hkind.symm).1 hadmits
      have haccepted : other.2.accepted = true := (hpolled.admitted hold hkind.symm).trans hadmits
      exact hpolled.not_shown htimely hold hreset (mem_acceptedReports.mpr ⟨hother, haccepted⟩) hkind hshown
    refine ⟨fun other hother hkind => ?_, fun other hother hkind hsame => ?_⟩
    · rcases mem_acceptedReports_append hother with hother' | ⟨hpolled, haccepted⟩
      · exact hlatest other hother' hkind
      · exact absurd ((hpolled.admitted hold hkind.symm).symm.trans haccepted)
          (hrefused other (hreports other hother) hpolled hkind)
    · rcases hnew other hother with hother' | hpolled
      · exact hmachine other hother' hkind hsame
      · have hfrom : step.2.machine = machineOf shown := by
          rw [← hpolled.own]
          exact hsame
        rcases (hkeepsUp _ hinsert hpolled.isOf _ hpolled.listed shown hold hkind.symm).2 hfrom with hadmits | hle
        · exact absurd hadmits (hrefused other hother hpolled hkind)
        · rwa [hpolled.own]
  · -- what was polled is shown, and comes after all others
    have hlatest (other : Report) (hother : other ∈ reports (store.append step).usage.rows accountId profile)
        (hkind : kindOf other = kindOf shown) : polledOrder other ≤ polledOrder shown := by
      rcases hnew other hother with hother' | hpolled'
      · exact hpolled.polledOrder_le htimely hother'
      · rw [hone other hother shown (hreports shown hshown.1) hpolled' hpolled hkind]
    exact ⟨fun other hother hkind => hlatest other (hreports other hother) hkind,
      fun other hother hkind _ => polledAt_le (hlatest other hother hkind)⟩

end

theorem KeptUpRun.upToDate {accountId : AccountId} {profile : ProfileName} {store store' : UsageStore}
    {steps : List (Bool × UsageSnapshot)} (hrun : KeptUpRun accountId profile store steps store')
    (h : UpToDate store.usage.rows accountId profile) : UpToDate store'.usage.rows accountId profile := by
  induction hrun with
  | nil => exact h
  | cons hstep _ ih =>
    obtain ⟨⟨htimely, hkeepsUp⟩, rfl⟩ := hstep
    exact ih (h.append htimely hkeepsUp)

/-- **What is shown of a profile is fresh** in a run that keeps up, and in any
run it does not fall within a period, nor change for an earlier one's report. -/
theorem current_usage_fresh {accountId : AccountId} {profile : ProfileName} {contexts : List ContextSession}
    {alerts : List AlertEvent} {steps all : List (Bool × UsageSnapshot)} {store store' : UsageStore}
    (hrun : PollRun accountId profile store steps store') :
    (∀ shown ∈ loadCurrentUsage store.usage.rows accountId profile,
      ∀ shown' ∈ loadCurrentUsage store'.usage.rows accountId profile, shown'.window.kind = shown.window.kind →
        shown'.window.resetsAt ≤ shown.window.resetsAt + resetJitterToleranceMs →
        (∀ step ∈ steps, step.2.isOf accountId profile → step.2.vendor.rejectsSamePeriodDecrease shown.window.kind = true) →
        shown.window.usedPercent.rank ≤ shown'.window.usedPercent.rank) ∧
      (∀ shown ∈ loadCurrentUsage store'.usage.rows accountId profile, shown.window.resetsAt < 2 ^ 63 →
        ∀ step : Bool × UsageSnapshot, (∀ window ∈ step.2.windows, window.kind = shown.window.kind →
            window.resetsAt + resetJitterToleranceMs < shown.window.resetsAt) →
          shown.shown ∈ (loadCurrentUsage (store'.append step).usage.rows accountId profile).map CurrentQuotaWindow.shown) ∧
      (KeptUpRun accountId profile (.empty contexts alerts) all store' →
        (∀ report ∈ acceptedReports store'.usage.rows accountId profile,
          ∃ shown ∈ loadCurrentUsage store'.usage.rows accountId profile, shown.window.kind = kindOf report) ∧
        ∀ shown ∈ loadCurrentUsage store'.usage.rows accountId profile,
          (∃ report ∈ acceptedReports store'.usage.rows accountId profile, shownOf report = shown.shown ∧
            ∀ other ∈ acceptedReports store'.usage.rows accountId profile, kindOf other = kindOf report →
              polledOrder other ≤ polledOrder report) ∧
          (shown.contributors.filter fun contributor => contributor.chosen).length = 1) := by
  have hcards (store : UsageStore) (shown : CurrentQuotaWindow) := @mem_cards store.usage.rows accountId profile
    store.usage.rows_pairwise shown
  refine ⟨fun shown hshown shown' hshown' hkind hreset hvendor => ?_, fun shown hshown hrange step hearlier => ?_,
    fun hkept => ⟨fun report hreport => ?_, fun shown hshown => ?_⟩⟩
  · obtain ⟨report, hreport, rfl⟩ := (hcards store shown).mp hshown
    obtain ⟨report', hreport', rfl⟩ := (hcards store' shown').mp hshown'
    exact (hrun.rises hreport hreport' hkind).2 hreset hvendor
  · obtain ⟨report, hreport, rfl⟩ := (hcards store' shown).mp hshown
    exact (mem_shown (store'.append step).usage.rows_pairwise).mpr ⟨report, hreport.append_of_earlier hrange hearlier, rfl⟩
  · obtain ⟨shown, hshown, hkind⟩ := exists_shown hreport
    exact ⟨_, (hcards store' _).mpr ⟨shown, hshown, rfl⟩, hkind⟩
  · have hempty : UpToDate (UsageStore.empty contexts alerts).usage.rows accountId profile := by
      rintro shown ⟨hmem, -⟩
      cases hmem
    have hcurrent := hkept.upToDate hempty
    obtain ⟨report, hreport, rfl⟩ := (hcards store' shown).mp hshown
    obtain ⟨hlatest, hmachine⟩ := hcurrent report hreport
    refine ⟨⟨report, hreport.1, rfl, hlatest⟩, ?_⟩
    exact (chosen_iff store'.usage.rows_pairwise (mem_acceptedReports.mp hreport.1).1).mpr hmachine

/-! ## A reset that comes a little earlier -/

/-- A poll of one machine's profile that has the window alone. -/
def pollOf (usedPercent : Percent) (resetsAt polledAt : Int) : UsageSnapshot where
  accountId := firstAccount
  profile := workProfile
  machine := laptop
  vendor := .anthropicOauth
  windows := [⟨.fiveHour, usedPercent, resetsAt⟩]
  outcome := .success
  polledAt := polledAt
  reporterVersion := none

def forty : Percent := ⟨0x4044000000000000, by decide⟩

def sixty : Percent := ⟨0x404e000000000000, by decide⟩

/-- Sixty percent, of a reset one second earlier, are accepted; forty are
shown, and no contributor is chosen. -/
theorem earlier_reset_hides : ∃ (steps : List (Bool × UsageSnapshot)) (store : UsageStore),
    PollRun firstAccount workProfile (.empty [] []) steps store ∧
      (∃ newer ∈ acceptedReports store.usage.rows firstAccount workProfile,
        ∀ shown ∈ loadCurrentUsage store.usage.rows firstAccount workProfile,
          shown.window.kind = kindOf newer ∧ (newer.2.window.resetsAt - shown.window.resetsAt).natAbs ≤ resetJitterToleranceMs ∧
            shown.polledAt < newer.1.snapshot.polledAt ∧ (shown.contributors.filter fun item => item.chosen) = []) ∧
      loadCurrentUsage store.usage.rows firstAccount workProfile ≠ [] := by
  have hfirst : (UsageStore.empty [] []).Timely firstAccount workProfile (pollOf forty 10000 1) :=
    fun _ row hrow => (by cases hrow)
  have hsecond : ((UsageStore.empty [] []).append (true, pollOf forty 10000 1)).Timely firstAccount workProfile
      (pollOf sixty 9000 2) := by
    have hpolled : ∀ row ∈ ((UsageStore.empty [] []).append (true, pollOf forty 10000 1)).usage.rows, row.snapshot.polledAt ≤ 2 := by
      decide +kernel
    exact fun _ row hrow _ => hpolled row hrow
  refine ⟨[(true, pollOf forty 10000 1), (true, pollOf sixty 9000 2)], _, .cons ⟨hfirst, rfl⟩ (.cons ⟨hsecond, rfl⟩ (.nil _)), ?_⟩
  decide +kernel

/-- One poll is shown, and its machine is chosen. -/
theorem first_poll_shown : ∃ store : UsageStore,
    PollRun firstAccount workProfile (.empty [] []) [(true, pollOf forty 10000 1)] store ∧
      ∀ shown ∈ loadCurrentUsage store.usage.rows firstAccount workProfile,
        (shown.contributors.filter fun contributor => contributor.chosen).length = 1 := by
  have htimely : (UsageStore.empty [] []).Timely firstAccount workProfile (pollOf forty 10000 1) :=
    fun _ row hrow => (by cases hrow)
  have hkeepsUp : (UsageStore.empty [] []).KeepsUp firstAccount workProfile (true, pollOf forty 10000 1) := by
    rintro _ _ _ _ _ shown ⟨hmem, -⟩
    cases hmem
  have hrun : PollRun firstAccount workProfile (.empty [] []) [(true, pollOf forty 10000 1)] _ :=
    .cons ⟨htimely, rfl⟩ (.nil _)
  have hcurrent := (current_usage_fresh hrun).2.2 (.cons ⟨⟨htimely, hkeepsUp⟩, rfl⟩ (.nil _))
  exact ⟨_, hrun, fun shown hshown => (hcurrent.2 shown hshown).2⟩

end Atmux.Pulse
