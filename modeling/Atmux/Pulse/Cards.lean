/-
What is shown of the usage tables.

The cards are made of the first accepted window of each kind, in the order of
their standings, and each lists the machines that have reported the kind, by
their first report in the order of the polls (`loadCurrentUsage_eq`). So the
accepted window that stands first is shown (`mem_cards`), and a machine is
marked as the chosen one when its latest report is of the time of the card's
(`chosen_iff`).
-/
import Atmux.Pulse.Usage

namespace Atmux.Pulse

open Lib

/-! ## What is shown -/

/-- What a card shows of a window. -/
def CurrentQuotaWindow.shown (window : CurrentQuotaWindow) : QuotaWindow × Int := (window.window, window.polledAt)

/-- What a card of the report would show. -/
def shownOf (report : Report) : QuotaWindow × Int := (report.2.window, report.1.snapshot.polledAt)

abbrev kindOf (report : Report) : QuotaWindowKind := report.2.window.kind

def acceptedReports (rows : List UsageRow) (accountId : AccountId) (profile : ProfileName) : List Report :=
  (reports rows accountId profile).filter fun report => report.2.accepted

/-- The accepted window that stands first of its kind. -/
def Shown (rows : List UsageRow) (accountId : AccountId) (profile : ProfileName) (report : Report) : Prop :=
  Newest standing (acceptedReports rows accountId profile) (fun other => kindOf other = kindOf report) report

section
variable {rows : List UsageRow} {accountId : AccountId} {profile : ProfileName} {report report' : Report}

theorem mem_reports : report ∈ reports rows accountId profile ↔ report.1 ∈ rows ∧
    report.1.snapshot.accountId = accountId ∧ report.1.snapshot.profile = profile ∧ report.2 ∈ report.1.windows := by
  obtain ⟨row, window⟩ := report
  simp only [reports, List.mem_flatMap, List.mem_filter, List.mem_map, decide_eq_true_eq, Prod.mk.injEq]
  constructor
  · rintro ⟨row', ⟨hmem, haccount, hprofile⟩, window', hwindow, rfl, rfl⟩
    exact ⟨hmem, haccount, hprofile, hwindow⟩
  · rintro ⟨hmem, haccount, hprofile, hwindow⟩
    exact ⟨row, ⟨hmem, haccount, hprofile⟩, window, hwindow, rfl, rfl⟩

theorem mem_acceptedReports : report ∈ acceptedReports rows accountId profile ↔
    report ∈ reports rows accountId profile ∧ report.2.accepted = true := List.mem_filter

theorem QuotaWindowKind.json_injective : Function.Injective QuotaWindowKind.json := by
  intro a b h
  cases a <;> cases b <;> first | rfl | exact absurd h (by decide)

/-- A snapshot has one window of a kind. -/
theorem UsageRow.windows_kinds (row : UsageRow) : (row.windows.map fun stored => stored.window.kind).Nodup := by
  have hkinds := row.kinds
  rwa [← row.same, List.map_map] at hkinds

/-- Windows are told apart by their snapshot and their kind. -/
theorem reports_apart (h : rows.Pairwise fun a b => a.id < b.id) : (reports rows accountId profile).Pairwise fun a b =>
    ¬ (a.1.id = b.1.id ∧ kindOf a = kindOf b) := by
  refine List.pairwise_flatMap.mpr ⟨fun row _ => ?_, (h.filter _).imp fun {a b} hlt x hx y hy heq => ?_⟩
  · exact List.pairwise_map.mpr ((List.pairwise_map.mp row.windows_kinds).imp fun hne heq => hne heq.2)
  · obtain ⟨_, -, rfl⟩ := List.mem_map.mp hx
    obtain ⟨_, -, rfl⟩ := List.mem_map.mp hy
    exact hlt.ne heq.1

theorem report_eq (h : rows.Pairwise fun a b => a.id < b.id) (ha : report ∈ reports rows accountId profile)
    (hb : report' ∈ reports rows accountId profile) (hid : report.1.id = report'.1.id) (hkind : kindOf report = kindOf report') :
    report = report' := by
  by_contra hne
  have hsymm : Std.Symm fun a b : Report => ¬ (a.1.id = b.1.id ∧ kindOf a = kindOf b) :=
    ⟨fun _ _ h heq => h ⟨heq.1.symm, heq.2.symm⟩⟩
  exact (reports_apart h).forall ha hb hne ⟨hid, hkind⟩

/-- The candidates for the cards, each kind's in the order of its standing. -/
theorem candidates_ascending (h : rows.Pairwise fun a b => a.id < b.id) :
    (orderBy winnerColumn (acceptedReports rows accountId profile)).Pairwise fun a b => winnerColumn a < winnerColumn b := by
  refine orderBy_ascending (List.pairwise_map.mpr (((reports_apart h).filter _).imp fun hne heq => hne ?_))
  obtain ⟨hjson, hstanding⟩ := Prod.mk.inj (toLex.injective heq)
  have hid := (Prod.mk.inj (toLex.injective (Prod.mk.inj (toLex.injective (OrderDual.toDual.injective hstanding))).2)).2
  exact ⟨hid, QuotaWindowKind.json_injective hjson⟩

abbrev machineOf (report : Report) : MachineName := report.1.snapshot.machine

/-- What a report is worth as a contribution to a card. -/
def contributor (owner : Option (MachineName × Int)) (report : Report) : UsageContributor where
  machine := machineOf report
  reporterVersion := report.1.snapshot.reporterVersion
  polledAt := report.1.snapshot.polledAt
  chosen := owner = some (machineOf report, report.1.snapshot.polledAt)

/-- Whose a card of the report is. -/
def ownerOf (report : Report) : Option (MachineName × Int) := some (machineOf report, report.1.snapshot.polledAt)

/-- A card that has yet to get its contributors. -/
def cleared (window : CurrentQuotaWindow) : Winner := ({ window with contributors := [] }, (winner window).2)

def clearedOf (profile : ProfileName) (report : Report) : Winner :=
  (⟨profile, report.1.snapshot.vendor, report.2.window, report.1.snapshot.polledAt, []⟩, ownerOf report)

/-- The report's card. -/
def card (rows : List UsageRow) (accountId : AccountId) (profile : ProfileName) (report : Report) : CurrentQuotaWindow where
  profile := profile
  vendor := report.1.snapshot.vendor
  window := report.2.window
  polledAt := report.1.snapshot.polledAt
  contributors := sortContributors ((firsts machineOf ((loadCurrentReports rows accountId profile).filter fun other =>
    kindOf other = kindOf report)).map (contributor (ownerOf report)))

theorem addWinner_cleared {windows : List CurrentQuotaWindow} (h : ∀ window ∈ windows, window.contributors ≠ []) (report : Report) :
    (∀ window ∈ addWinner profile windows report, window.contributors ≠ []) ∧
      (addWinner profile windows report).map cleared =
        if kindOf report ∈ (windows.map cleared).map (·.1.window.kind) then windows.map cleared
        else windows.map cleared ++ [clearedOf profile report] := by
  have hany : (windows.any fun shown => shown.window.kind = report.2.window.kind) =
      decide (kindOf report ∈ (windows.map cleared).map (·.1.window.kind)) := by
    rw [Bool.eq_iff_iff, decide_eq_true_eq, List.map_map, List.any_eq_true, List.mem_map]
    simp only [decide_eq_true_eq]
    rfl
  unfold addWinner
  rw [hany]
  by_cases hmem : kindOf report ∈ (windows.map cleared).map (·.1.window.kind)
  · rw [if_pos hmem, if_pos (decide_eq_true hmem), List.map_map]
    refine ⟨fun window hwindow => ?_, List.map_congr_left fun window hwindow => ?_⟩
    · obtain ⟨old, hold, rfl⟩ := List.mem_map.mp hwindow
      split
      · simp
      · exact h old hold
    · rw [Function.comp_apply]
      split
      · -- the first contributor stays the first
        obtain ⟨first, rest, hcontributors⟩ := List.exists_cons_of_ne_nil (h window hwindow)
        simp [cleared, winner, hcontributors]
      · rfl
  · rw [if_neg hmem, if_neg (by simpa using hmem), List.map_append]
    refine ⟨fun window hwindow => ?_, rfl⟩
    rcases List.mem_append.mp hwindow with hwindow | hwindow
    · exact h window hwindow
    · obtain rfl := List.mem_singleton.mp hwindow
      simp

theorem loadCurrentWinners_cleared (rows : List UsageRow) (accountId : AccountId) (profile : ProfileName) :
    (loadCurrentWinners rows accountId profile).map cleared =
      (firsts kindOf (orderBy winnerColumn (acceptedReports rows accountId profile))).map (clearedOf profile) := by
  have hnone : ∀ window ∈ ([] : List CurrentQuotaWindow), window.contributors ≠ [] := fun _ h => (by cases h)
  have hfold : ((orderBy winnerColumn (acceptedReports rows accountId profile)).foldl (addWinner profile) []).map cleared = _ :=
    foldl_firsts (List.map cleared) (fun shown : Winner => shown.1.window.kind)
      (fun report => show (clearedOf profile report).1.window.kind = kindOf report from rfl)
      (fun windows report (h : ∀ window ∈ windows, window.contributors ≠ []) => addWinner_cleared h report) hnone _
  simp only [List.map_nil, List.nil_append, List.not_mem_nil, not_false_eq_true, decide_true, List.filter_true] at hfold
  exact hfold

/-- A machine's first report of the kind makes it a contributor. -/
def addMachine (kind : QuotaWindowKind) (owner : Option (MachineName × Int)) (contributors : List UsageContributor)
    (report : Report) : List UsageContributor :=
  if kind = kindOf report ∧ ∀ item ∈ contributors, item.machine ≠ machineOf report then
    contributors ++ [contributor owner report]
  else contributors

theorem foldl_addContributor (windows : List Winner) (all : List Report) :
    all.foldl addContributor windows = windows.map fun shown =>
      ({ shown.1 with contributors := all.foldl (addMachine shown.1.window.kind shown.2) shown.1.contributors }, shown.2) := by
  induction all generalizing windows with
  | nil => exact (List.map_id windows).symm
  | cons report all ih =>
    rw [List.foldl_cons, ih, addContributor, List.map_map]
    refine List.map_congr_left fun shown _ => ?_
    rw [Function.comp_apply, List.foldl_cons, addMachine]
    split <;> rfl

theorem foldl_addMachine (kind : QuotaWindowKind) (owner : Option (MachineName × Int)) (all : List Report) :
    all.foldl (addMachine kind owner) [] =
      (firsts machineOf (all.filter fun report => kindOf report = kind)).map (contributor owner) := by
  have hstep (contributors : List UsageContributor) (report : Report) :
      (if ∀ item ∈ contributors, item.machine ≠ machineOf report then contributors ++ [contributor owner report]
        else contributors) =
      if machineOf report ∈ contributors.map UsageContributor.machine then contributors
        else contributors ++ [contributor owner report] := by
    by_cases hmem : machineOf report ∈ contributors.map UsageContributor.machine
    · obtain ⟨item, hitem, hmachine⟩ := List.mem_map.mp hmem
      rw [if_pos hmem, if_neg fun h => h item hitem hmachine]
    · rw [if_neg hmem, if_pos fun item hitem hmachine => hmem (List.mem_map.mpr ⟨item, hitem, hmachine⟩)]
  have hfold : (all.filter fun report => kindOf report = kind).foldl (fun contributors report =>
      if ∀ item ∈ contributors, item.machine ≠ machineOf report then contributors ++ [contributor owner report]
        else contributors) [] = _ :=
    foldl_firsts (fun contributors : List UsageContributor => contributors) UsageContributor.machine
      (fun report => show (contributor owner report).machine = machineOf report from rfl)
      (fun contributors report (_ : True) => ⟨trivial, hstep contributors report⟩) trivial _
  rw [List.foldl_filter] at hfold
  simp only [List.nil_append, List.map_nil, List.not_mem_nil, not_false_eq_true, decide_true, List.filter_true] at hfold
  rw [← hfold]
  congr 1
  funext contributors report
  rw [addMachine]
  by_cases hkind : kindOf report = kind
  · simp [hkind]
  · simp [hkind, Ne.symm hkind]

/-- **The cards are those of the first report of each kind.** -/
theorem loadCurrentUsage_eq (rows : List UsageRow) (accountId : AccountId) (profile : ProfileName) :
    loadCurrentUsage rows accountId profile =
      (firsts kindOf (orderBy winnerColumn (acceptedReports rows accountId profile))).map (card rows accountId profile) := by
  unfold loadCurrentUsage
  have hcleared := loadCurrentWinners_cleared rows accountId profile
  simp only [List.map_map] at hcleared ⊢
  rw [show ((fun shown : Winner => ({ shown.1 with contributors := [] }, shown.2)) ∘ winner) = cleared from rfl, hcleared,
    foldl_addContributor, List.map_map, List.map_map]
  refine List.map_congr_left fun report _ => ?_
  simp only [Function.comp_apply, clearedOf, foldl_addMachine]
  rfl

theorem loadCurrentUsage_shown (rows : List UsageRow) (accountId : AccountId) (profile : ProfileName) :
    (loadCurrentUsage rows accountId profile).map CurrentQuotaWindow.shown =
      (firsts kindOf (orderBy winnerColumn (acceptedReports rows accountId profile))).map shownOf := by
  rw [loadCurrentUsage_eq, List.map_map]
  rfl

/-- **Of each kind the accepted window that stands first has a card.** -/
theorem mem_cards (h : rows.Pairwise fun a b => a.id < b.id) {window : CurrentQuotaWindow} :
    window ∈ loadCurrentUsage rows accountId profile ↔
      ∃ report, Shown rows accountId profile report ∧ card rows accountId profile report = window := by
  have hordered : (orderBy winnerColumn (acceptedReports rows accountId profile)).Pairwise fun a b =>
      kindOf a = kindOf b → standing b < standing a := by
    refine (candidates_ascending h).imp fun {a b} hlt hkind => ?_
    rcases Prod.Lex.toLex_lt_toLex.mp hlt with hjson | ⟨-, hstanding⟩
    · rw [show a.2.window.kind = b.2.window.kind from hkind] at hjson
      exact absurd hjson (lt_irrefl _)
    · exact hstanding
  rw [loadCurrentUsage_eq, List.mem_map]
  refine exists_congr fun report => and_congr_left fun _ => ?_
  rw [mem_firsts hordered]
  simp only [Shown, Newest, mem_orderBy]

theorem mem_shown (h : rows.Pairwise fun a b => a.id < b.id) {shown : QuotaWindow × Int} :
    shown ∈ (loadCurrentUsage rows accountId profile).map CurrentQuotaWindow.shown ↔
      ∃ report, Shown rows accountId profile report ∧ shownOf report = shown := by
  rw [List.mem_map]
  constructor
  · rintro ⟨window, hwindow, rfl⟩
    obtain ⟨report, hreport, rfl⟩ := (mem_cards h).mp hwindow
    exact ⟨report, hreport, rfl⟩
  · rintro ⟨report, hreport, rfl⟩
    exact ⟨_, (mem_cards h).mpr ⟨report, hreport, rfl⟩, rfl⟩

/-- One window of a kind is shown. -/
theorem Shown.unique (h : rows.Pairwise fun a b => a.id < b.id) (hreport : Shown rows accountId profile report)
    (hreport' : Shown rows accountId profile report') (hkind : kindOf report = kindOf report') : report = report' := by
  have hstanding : standing report = standing report' := le_antisymm (hreport'.2.2 report hreport.1 (decide_eq_true hkind))
    (hreport.2.2 report' hreport'.1 (decide_eq_true hkind.symm))
  have hid : report.1.id = report'.1.id := (Prod.mk.inj (toLex.injective (Prod.mk.inj (toLex.injective hstanding)).2)).2
  exact report_eq h (mem_acceptedReports.mp hreport.1).1 (mem_acceptedReports.mp hreport'.1).1 hid hkind

theorem exists_shown (h : report ∈ acceptedReports rows accountId profile) :
    ∃ shown, Shown rows accountId profile shown ∧ kindOf shown = kindOf report := by
  obtain ⟨shown, ⟨hmem, hkind, hnewest⟩, -⟩ : ∃ shown, Newest standing (acceptedReports rows accountId profile)
      (fun other => kindOf other = kindOf report) shown ∧ standing report ≤ standing shown := exists_newest h (by simp)
  have hkind := of_decide_eq_true hkind
  exact ⟨shown, ⟨hmem, by simp, fun other hother hsame =>
    hnewest other hother (decide_eq_true ((of_decide_eq_true hsame).trans hkind))⟩, hkind⟩

/-- The cards are in the order of their kinds. -/
theorem shown_ascending (h : rows.Pairwise fun a b => a.id < b.id) :
    ((loadCurrentUsage rows accountId profile).map CurrentQuotaWindow.shown).Pairwise fun a b => a.1.kind.json < b.1.kind.json := by
  rw [loadCurrentUsage_shown]
  have hascending : (firsts kindOf (orderBy winnerColumn (acceptedReports rows accountId profile))).Pairwise fun a b =>
      winnerColumn a < winnerColumn b := (candidates_ascending h).sublist firsts_sublist
  refine List.pairwise_map.mpr ((hascending.and firsts_pairwise).imp fun {a b} ⟨hlt, hkind⟩ => ?_)
  rcases Prod.Lex.toLex_lt_toLex.mp hlt with hjson | ⟨hjson, -⟩
  · exact hjson
  · exact absurd (QuotaWindowKind.json_injective hjson) hkind

/-- Two stores show the same when what is shown of the one is shown of the
other. -/
theorem shown_eq_iff {rows' : List UsageRow} (h : rows.Pairwise fun a b => a.id < b.id)
    (h' : rows'.Pairwise fun a b => a.id < b.id) :
    (loadCurrentUsage rows' accountId profile).map CurrentQuotaWindow.shown =
        (loadCurrentUsage rows accountId profile).map CurrentQuotaWindow.shown ↔
      ∀ shown, shown ∈ (loadCurrentUsage rows' accountId profile).map CurrentQuotaWindow.shown ↔
        shown ∈ (loadCurrentUsage rows accountId profile).map CurrentQuotaWindow.shown := by
  refine ⟨fun heq shown => heq ▸ Iff.rfl, fun hmem => ?_⟩
  have hnodup : ∀ rows : List UsageRow, rows.Pairwise (fun a b => a.id < b.id) →
      ((loadCurrentUsage rows accountId profile).map CurrentQuotaWindow.shown).Nodup := by
    intro rows h
    refine (shown_ascending h).imp fun {a b} hlt heq => ?_
    rw [heq] at hlt
    exact absurd hlt (lt_irrefl _)
  refine List.Perm.eq_of_pairwise (fun a b _ _ hab hba => absurd hab (lt_asymm hba)) (shown_ascending h') (shown_ascending h) ?_
  exact (List.perm_ext_iff_of_nodup (hnodup rows' h') (hnodup rows h)).mpr hmem

end

/-! ## Contributors -/

/-- When a report was polled; the later of one time is that with the larger id. -/
def polledOrder (report : Report) : ℤ ×ₗ ℕ := toLex (report.1.snapshot.polledAt, report.1.id)

section
variable {rows : List UsageRow} {accountId : AccountId} {profile : ProfileName} {report : Report}

theorem loadCurrentReports_descending (h : rows.Pairwise fun a b => a.id < b.id) :
    (loadCurrentReports rows accountId profile).Pairwise fun a b => kindOf a = kindOf b → machineOf a = machineOf b →
      polledOrder b < polledOrder a := by
  have hcolumns : ((reports rows accountId profile).map fun report : Report => toLex (report.2.window.kind.json,
      toLex (report.1.snapshot.machine.value, OrderDual.toDual (toLex (report.1.snapshot.polledAt, report.1.id))))).Nodup := by
    refine List.pairwise_map.mpr ((reports_apart h).imp fun {a b} hne heq => hne ?_)
    obtain ⟨hjson, hrest⟩ := Prod.mk.inj (toLex.injective heq)
    obtain ⟨-, hpolled⟩ := Prod.mk.inj (toLex.injective hrest)
    exact ⟨(Prod.mk.inj (toLex.injective (OrderDual.toDual.injective hpolled))).2, QuotaWindowKind.json_injective hjson⟩
  refine (orderBy_ascending hcolumns).imp fun {a b} hlt hkind hmachine => ?_
  rcases Prod.Lex.toLex_lt_toLex.mp hlt with hjson | ⟨-, hlt⟩
  · rw [show a.2.window.kind = b.2.window.kind from hkind] at hjson
    exact absurd hjson (lt_irrefl _)
  rcases Prod.Lex.toLex_lt_toLex.mp hlt with hvalue | ⟨-, hlt⟩
  · rw [show a.1.snapshot.machine = b.1.snapshot.machine from hmachine] at hvalue
    exact absurd hvalue (lt_irrefl _)
  · exact hlt

theorem polledAt_le {report report' : Report} (h : polledOrder report ≤ polledOrder report') :
    report.1.snapshot.polledAt ≤ report'.1.snapshot.polledAt := by
  rcases Prod.Lex.toLex_le_toLex.mp h with hlt | ⟨heq, -⟩
  · exact hlt.le
  · exact heq.le

/-- Each machine's latest report of a kind. -/
def latest (rows : List UsageRow) (accountId : AccountId) (profile : ProfileName) (kind : QuotaWindowKind) : List Report :=
  firsts machineOf ((loadCurrentReports rows accountId profile).filter fun other => kindOf other = kind)

theorem mem_latest (h : rows.Pairwise fun a b => a.id < b.id) {kind : QuotaWindowKind} :
    report ∈ latest rows accountId profile kind ↔
      report ∈ reports rows accountId profile ∧ kindOf report = kind ∧
        ∀ other ∈ reports rows accountId profile, kindOf other = kind → machineOf other = machineOf report →
          polledOrder other ≤ polledOrder report := by
  have hordered : ((loadCurrentReports rows accountId profile).filter fun other => kindOf other = kind).Pairwise fun a b =>
      machineOf a = machineOf b → polledOrder b < polledOrder a := by
    refine ((loadCurrentReports_descending h).filter _).imp_of_mem fun {a b} ha hb hlt hmachine => ?_
    have hkind := (of_decide_eq_true (List.mem_filter.mp ha).2).trans (of_decide_eq_true (List.mem_filter.mp hb).2).symm
    exact hlt hkind hmachine
  rw [latest, mem_firsts hordered]
  simp only [Newest, List.mem_filter, loadCurrentReports, mem_orderBy, decide_eq_true_eq, true_and, and_assoc, and_imp]

/-- **A card has one chosen contributor exactly when the latest report of its
machine is of its time**, and none otherwise. -/
theorem chosen_iff (h : rows.Pairwise fun a b => a.id < b.id) (hreport : report ∈ reports rows accountId profile) :
    ((card rows accountId profile report).contributors.filter fun item => item.chosen).length = 1 ↔
      ∀ other ∈ reports rows accountId profile, kindOf other = kindOf report → machineOf other = machineOf report →
        other.1.snapshot.polledAt ≤ report.1.snapshot.polledAt := by
  have hperm : ((card rows accountId profile report).contributors.filter fun item => item.chosen).Perm
      (((latest rows accountId profile (kindOf report)).filter fun other => ownerOf report = ownerOf other).map
        (contributor (ownerOf report))) := by
    refine ((List.perm_insertionSort _ _).filter _).trans (.of_eq ?_)
    rw [List.filter_map]
    rfl
  have hle : ((latest rows accountId profile (kindOf report)).filter fun other => ownerOf report = ownerOf other).length ≤ 1 := by
    refine length_firsts_le_one fun a _ b _ ha hb => ?_
    have howner := (of_decide_eq_true ha).symm.trans (of_decide_eq_true hb)
    exact (Prod.mk.inj (Option.some.inj howner)).1
  rw [hperm.length_eq, List.length_map]
  constructor
  · intro hone other hother hkind hmachine
    obtain ⟨chosen, hchosen⟩ := List.length_eq_one_iff.mp hone
    have hmem : chosen ∈ (latest rows accountId profile (kindOf report)).filter fun other => ownerOf report = ownerOf other := by
      rw [hchosen]
      exact List.mem_singleton.mpr rfl
    obtain ⟨hmem, howner⟩ := List.mem_filter.mp hmem
    obtain ⟨hsame, hpolled⟩ := Prod.mk.inj (Option.some.inj (of_decide_eq_true howner))
    rw [hpolled]
    exact polledAt_le (((mem_latest h).mp hmem).2.2 other hother hkind (hmachine.trans hsame))
  · intro hlatest
    obtain ⟨newest, ⟨hmem, hselected, hnewest⟩, hle'⟩ : ∃ newest, Newest polledOrder (reports rows accountId profile)
        (fun other => kindOf other = kindOf report ∧ machineOf other = machineOf report) newest ∧
          polledOrder report ≤ polledOrder newest := exists_newest hreport (by simp)
    obtain ⟨hkind, hmachine⟩ := of_decide_eq_true hselected
    have hpolled : report.1.snapshot.polledAt = newest.1.snapshot.polledAt :=
      le_antisymm (polledAt_le hle') (hlatest newest hmem hkind hmachine)
    have hfirst : newest ∈ (latest rows accountId profile (kindOf report)).filter fun other => ownerOf report = ownerOf other := by
      refine List.mem_filter.mpr ⟨(mem_latest h).mpr ⟨hmem, hkind, fun other hother hkind' hmachine' => ?_⟩, decide_eq_true ?_⟩
      · exact hnewest other hother (decide_eq_true ⟨hkind', hmachine'.trans hmachine⟩)
      · rw [ownerOf, ownerOf, hmachine, hpolled]
    exact le_antisymm hle (List.length_pos_of_mem hfirst)

end

end Atmux.Pulse
