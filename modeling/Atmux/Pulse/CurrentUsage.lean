/-
What retention does to what is shown of the usage tables.

Retention ranks whole snapshots by the time they were polled, so a later poll
of the same bucket that has no window of the kind takes the shown one with it
(`winner_thinned`); what is shown stays the same exactly when no poll does
(`current_usage_kept_iff`).
-/
import Atmux.Pulse.Cards
import Atmux.Pulse.Retention

namespace Atmux.Pulse

open Lib

/-! ## Retention -/

/-- A snapshot is the newest of its bucket when it is old enough to have one. -/
def Survives (settings : PulseRetentionConfig) (now : Int) (rows : List UsageRow) (row : UsageRow) : Prop :=
  (RetentionState.dayRange settings now row = true → ∀ other ∈ rows, RetentionState.dayRange settings now other = true →
      bucket dayMs other = bucket dayMs row → polled other ≤ polled row) ∧
    (RetentionState.hourRange settings now row = true → ∀ other ∈ rows, RetentionState.hourRange settings now other = true →
      bucket hourMs other = bucket hourMs row → polled other ≤ polled row)

/-- The snapshot of each shown window is the newest of its bucket; else one is
that shows the same, and of those with its reset and poll time the last. -/
def WinnersSurvive (settings : PulseRetentionConfig) (now : Int) (rows : List UsageRow) : Prop :=
  ∀ accountId profile report, Shown rows accountId profile report → ∃ same ∈ acceptedReports rows accountId profile,
    Survives settings now rows same.1 ∧ shownOf same = shownOf report ∧
      ∀ other ∈ acceptedReports rows accountId profile, Survives settings now rows other.1 →
        kindOf other = kindOf report → other.2.window.resetsAt = report.2.window.resetsAt →
        other.1.snapshot.polledAt = report.1.snapshot.polledAt → other.1.id ≤ same.1.id

section
variable {settings : PulseRetentionConfig} {now : Int} {store store' : UsageStore} {result : RetentionResult}
  {accountId : AccountId} {profile : ProfileName} {report report' : Report}

theorem mem_applyRetention (h : store.applyRetention now settings = .ok (store', result)) {row : UsageRow} :
    row ∈ store'.usage.rows ↔ row ∈ store.usage.rows ∧ Survives settings now store.usage.rows row := by
  obtain ⟨hrows, -, -⟩ := RetentionState.applyRetention_ok h
  -- what is thinned by the hour was not thinned by the day
  have hapart : ∀ other, RetentionState.hourRange settings now other = true →
      (other ∈ thin (RetentionState.dayRange settings now) (bucket dayMs) polled store.usage.rows ↔ other ∈ store.usage.rows) := by
    intro other hhour
    refine mem_thin.trans ⟨fun h => h.1, fun h => ⟨h, fun hday => ?_⟩⟩
    exact absurd (of_decide_eq_true hday) (not_lt.mpr (of_decide_eq_true hhour).1)
  rw [hrows, mem_thin, mem_thin, and_assoc]
  refine and_congr_right fun _ => and_congr_right fun _ => forall_congr' fun _ => forall_congr' fun other => ?_
  exact ⟨fun h hmem hhour => h ((hapart other hhour).mpr hmem) hhour, fun h hmem hhour => h ((hapart other hhour).mp hmem) hhour⟩

theorem mem_acceptedReports_applied (h : store.applyRetention now settings = .ok (store', result)) :
    report ∈ acceptedReports store'.usage.rows accountId profile ↔
      report ∈ acceptedReports store.usage.rows accountId profile ∧ Survives settings now store.usage.rows report.1 := by
  rw [mem_acceptedReports, mem_acceptedReports, mem_reports, mem_reports, mem_applyRetention h]
  tauto

theorem standing_le (h : report.2.window.resetsAt ≤ report'.2.window.resetsAt)
    (hpolled : report.2.window.resetsAt = report'.2.window.resetsAt →
      report.1.snapshot.polledAt ≤ report'.1.snapshot.polledAt ∧
        (report.1.snapshot.polledAt = report'.1.snapshot.polledAt → report.1.id ≤ report'.1.id)) :
    standing report ≤ standing report' := by
  refine Prod.Lex.toLex_le_toLex.mpr ((lt_or_eq_of_le h).imp_right fun heq => ⟨heq, ?_⟩)
  obtain ⟨hle, hid⟩ := hpolled heq
  exact Prod.Lex.toLex_le_toLex.mpr ((lt_or_eq_of_le hle).imp_right fun heq => ⟨heq, hid heq⟩)

theorem of_standing_le (h : standing report ≤ standing report') :
    report.2.window.resetsAt ≤ report'.2.window.resetsAt ∧
      (report.2.window.resetsAt = report'.2.window.resetsAt →
        report.1.snapshot.polledAt ≤ report'.1.snapshot.polledAt ∧
          (report.1.snapshot.polledAt = report'.1.snapshot.polledAt → report.1.id ≤ report'.1.id)) := by
  rcases Prod.Lex.toLex_le_toLex.mp h with hlt | ⟨heq, h⟩
  · exact ⟨hlt.le, fun heq => absurd heq hlt.ne⟩
  · refine ⟨heq.le, fun _ => ?_⟩
    rcases Prod.Lex.toLex_le_toLex.mp h with hlt | ⟨heq, hid⟩
    · exact ⟨hlt.le, fun heq => absurd heq hlt.ne⟩
    · exact ⟨heq.le, fun _ => hid⟩

/-- What stands for the shown window stands first among what is left. -/
theorem shown_of_survives (h : store.applyRetention now settings = .ok (store', result))
    (hreport : Shown store.usage.rows accountId profile report) {same : Report}
    (hsame : same ∈ acceptedReports store.usage.rows accountId profile) (hsurvives : Survives settings now store.usage.rows same.1)
    (hshown : shownOf same = shownOf report)
    (hlast : ∀ other ∈ acceptedReports store.usage.rows accountId profile, Survives settings now store.usage.rows other.1 →
      kindOf other = kindOf report → other.2.window.resetsAt = report.2.window.resetsAt →
      other.1.snapshot.polledAt = report.1.snapshot.polledAt → other.1.id ≤ same.1.id) :
    Shown store'.usage.rows accountId profile same := by
  obtain ⟨hwindow, hpolled⟩ := Prod.mk.inj hshown
  refine ⟨(mem_acceptedReports_applied h).mpr ⟨hsame, hsurvives⟩, by simp, fun other hother hkind => ?_⟩
  obtain ⟨hmem, hother⟩ := (mem_acceptedReports_applied h).mp hother
  have hkind : kindOf other = kindOf report := (of_decide_eq_true hkind).trans (congrArg QuotaWindow.kind hwindow)
  obtain ⟨hreset, hrest⟩ := of_standing_le (hreport.2.2 other hmem (decide_eq_true hkind))
  have hsameReset : same.2.window.resetsAt = report.2.window.resetsAt := congrArg QuotaWindow.resetsAt hwindow
  have hsamePolled : same.1.snapshot.polledAt = report.1.snapshot.polledAt := hpolled
  refine standing_le (hsameReset ▸ hreset) fun heq => ?_
  have heq := heq.trans hsameReset
  refine ⟨hsamePolled ▸ (hrest heq).1, fun heq' => ?_⟩
  exact hlast other hmem hother hkind heq (heq'.trans hsamePolled)

/-- **Retention leaves what is shown exactly when no shown window's snapshot is
behind a later one of its bucket**, or another shows the same. -/
theorem current_usage_kept_iff (h : store.applyRetention now settings = .ok (store', result)) :
    (∀ accountId profile, (loadCurrentUsage store'.usage.rows accountId profile).map CurrentQuotaWindow.shown =
        (loadCurrentUsage store.usage.rows accountId profile).map CurrentQuotaWindow.shown) ↔
      WinnersSurvive settings now store.usage.rows := by
  have hrows := store.usage.rows_pairwise
  have hrows' := store'.usage.rows_pairwise
  constructor
  · intro hkept accountId profile report hreport
    have hmem := (mem_shown hrows).mpr ⟨report, hreport, rfl⟩
    rw [← hkept accountId profile] at hmem
    obtain ⟨same, ⟨hsame, -, hnewest⟩, hshown⟩ := (mem_shown hrows').mp hmem
    obtain ⟨hsame, hsurvives⟩ := (mem_acceptedReports_applied h).mp hsame
    refine ⟨same, hsame, hsurvives, hshown, fun other hother hothers hkind hreset hpolled => ?_⟩
    obtain ⟨hwindow, hsamePolled⟩ := Prod.mk.inj hshown
    have hle := hnewest other ((mem_acceptedReports_applied h).mpr ⟨hother, hothers⟩)
      (decide_eq_true (hkind.trans (congrArg QuotaWindow.kind hwindow).symm))
    have hsameReset : other.2.window.resetsAt = same.2.window.resetsAt :=
      hreset.trans (congrArg QuotaWindow.resetsAt hwindow).symm
    exact ((of_standing_le hle).2 hsameReset).2 (hpolled.trans (Eq.symm hsamePolled))
  · intro hsurvive accountId profile
    refine (shown_eq_iff hrows hrows').mpr fun shown => ?_
    rw [mem_shown hrows, mem_shown hrows']
    constructor
    · rintro ⟨left, hleft, rfl⟩
      have hmem := ((mem_acceptedReports_applied h).mp hleft.1).1
      obtain ⟨report, hshown, hkind⟩ := exists_shown hmem
      obtain ⟨same, hsame, hsurvives, hequal, hlast⟩ := hsurvive accountId profile report hshown
      have hfirst := shown_of_survives h hshown hsame hsurvives hequal hlast
      have hsamekind : kindOf same = kindOf left := (congrArg QuotaWindow.kind (Prod.mk.inj hequal).1).trans hkind
      obtain rfl := hfirst.unique hrows' hleft hsamekind
      exact ⟨report, hshown, hequal.symm⟩
    · rintro ⟨report, hreport, rfl⟩
      obtain ⟨same, hsame, hsurvives, hequal, hlast⟩ := hsurvive accountId profile report hreport
      exact ⟨same, shown_of_survives h hreport hsame hsurvives hequal hlast, hequal⟩

end

/-! ## A failed poll after the last good one -/

def halfUsed (resetsAt : Int) : QuotaWindow := ⟨.fiveHour, ⟨0x4049000000000000, by decide⟩, resetsAt⟩

/-- After one good poll. -/
def goodPoll : RetentionState :=
  (RetentionState.new [] []).step defaultRetention (.insert true (samplePoll .success [halfUsed 1000] 1))

/-- And one on the same day that failed. -/
def failedPoll : RetentionState :=
  goodPoll.step defaultRetention (.insert true (samplePoll (.rateLimited none) [] 2))

/-- The failed poll is left of the day, and nothing is shown. -/
theorem winner_thinned : ∃ store result, failedPoll.store.applyRetention (100 * dayMs) defaultRetention = .ok (store, result) ∧
    ¬ ∀ accountId profile, (loadCurrentUsage store.usage.rows accountId profile).map CurrentQuotaWindow.shown =
      (loadCurrentUsage failedPoll.store.usage.rows accountId profile).map CurrentQuotaWindow.shown := by
  have hbefore : (loadCurrentUsage failedPoll.store.usage.rows ⟨1, by decide⟩ ⟨"work", by decide⟩).map
      CurrentQuotaWindow.shown = [(halfUsed 1000, 1)] := by decide +kernel
  have hafter : (fun kept => (loadCurrentUsage kept.1.usage.rows ⟨1, by decide⟩ ⟨"work", by decide⟩).map
      CurrentQuotaWindow.shown) <$> failedPoll.store.applyRetention (100 * dayMs) defaultRetention = .ok [] := by
    decide +kernel
  obtain ⟨⟨store, result⟩, happly, hafter⟩ := map_ok hafter
  refine ⟨store, result, happly, fun hkept => ?_⟩
  have hsame := hkept ⟨1, by decide⟩ ⟨"work", by decide⟩
  rw [hbefore, hafter] at hsame
  cases hsame

/-- A poll that is alone is kept, and shown. -/
theorem good_poll_kept : ∃ store result, goodPoll.store.applyRetention (100 * dayMs) defaultRetention = .ok (store, result) ∧
    ∀ accountId profile, (loadCurrentUsage store.usage.rows accountId profile).map CurrentQuotaWindow.shown =
      (loadCurrentUsage goodPoll.store.usage.rows accountId profile).map CurrentQuotaWindow.shown := by
  have hone : goodPoll.store.usage.rows.length = 1 := by decide +kernel
  obtain ⟨row, hrows⟩ := List.length_eq_one_iff.mp hone
  have haccepted : (fun _ => ()) <$> goodPoll.store.applyRetention (100 * dayMs) defaultRetention = .ok () := by decide +kernel
  obtain ⟨⟨store, result⟩, happly, -⟩ := map_ok haccepted
  refine ⟨store, result, happly, (current_usage_kept_iff happly).mpr fun accountId profile report hreport => ?_⟩
  have hmem := (mem_reports.mp (mem_acceptedReports.mp hreport.1).1).1
  rw [hrows] at hmem ⊢
  have hrow := List.mem_singleton.mp hmem
  refine ⟨report, hrows ▸ hreport.1, ⟨fun _ other hother _ _ => ?_, fun _ other hother _ _ => ?_⟩, rfl,
    fun other hother _ _ _ _ => ?_⟩
  · rw [List.mem_singleton.mp hother, hrow]
  · rw [List.mem_singleton.mp hother, hrow]
  · rw [List.mem_singleton.mp (mem_reports.mp (mem_acceptedReports.mp hother).1).1, hrow]

end Atmux.Pulse
