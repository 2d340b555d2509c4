/-
Pages of a tally put together are the tally.

`Pages` says what a paged tally has of the unbounded tally of the same events:
a prefix of the rows above `after`, and whether that is all of them. One event
keeps it (`add_pages`): a key that was dropped lies above every row that
stays, so it cannot come back with part of its events lost. A page's last key
is then where the next prefix starts (`tallyPages_from`).
-/
import Atmux.Pulse.Tally

namespace Atmux.Pulse

open Lib

variable {crates : Crates}

namespace FineTally

/-! ## A page beside the whole -/

/-- Rows of a prefix above a key, of the same events. -/
structure Pages (n : Nat) (bound : Option FineKey) (full page : FineTally) : Prop where
  accountId : page.accountId = full.accountId
  profile : page.profile = full.profile
  machine : page.machine = full.machine
  seen : page.seen = full.seen
  maxRows : page.maxRows = n
  after : page.after = bound
  paged : page.paged = true
  unpaged : full.paged = false
  whole : full.after = none
  rows : page.rows.entries = (Entries.above bound full.rows.entries).take n
  truncated : page.truncated = decide (n < (Entries.above bound full.rows.entries).length)

variable {n : Nat} {bound : Option FineKey} {full full' page : FineTally} {first : TokenGrain} {delta : TokenDelta}

/-- Other rows, of the same keys in both. -/
theorem Pages.of_rows (h : Pages n bound full page) (rows : SortedMap FineKey TokenGrain)
    {rows' : SortedMap FineKey TokenGrain} {truncated : Bool}
    (hrows : rows'.entries = (Entries.above bound rows.entries).take n)
    (htruncated : truncated = decide (n < (Entries.above bound rows.entries).length)) :
    Pages n bound { full with rows } { page with rows := rows', truncated } :=
  ⟨h.accountId, h.profile, h.machine, h.seen, h.maxRows, h.after, h.paged, h.unpaged, h.whole, hrows, htruncated⟩

theorem addToRow_ok {tally tally' : FineTally} : tally.addToRow first delta = .ok tally' ↔
    ∃ row, ((tally.rows.find? first.key).getD first).addDelta delta = .ok row ∧
      tally' = { tally with rows := tally.rows.insert first.key row } := by
  unfold addToRow
  cases ((tally.rows.find? first.key).getD first).addDelta delta with
  | error e => simp [bind, Except.bind]
  | ok row => simp [bind, Except.bind, pure, Except.pure, eq_comm]

/-- An unbounded tally that goes on has added the event to its key's row. -/
theorem addRow_unpaged (hunpaged : full.paged = false) (hwhole : full.after = none)
    (h : full.addRow first delta = .ok full') : full.addToRow first delta = .ok full' := by
  unfold addRow at h
  simp only [hwhole, hunpaged, Option.any_none, Bool.false_eq_true, if_false, Bool.not_false, if_true] at h
  split at h
  · cases h
  · exact h

theorem any_le_eq (bound : Option FineKey) (key : FineKey) :
    (bound.any fun after => decide (key ≤ after)) = !Entries.beyond bound key := by
  cases bound with
  | none => rfl
  | some after =>
    rw [Entries.beyond, Option.any_some, Option.all_some, ← decide_not]
    exact decide_eq_decide.mpr not_lt.symm

/-- An event added to a row, in the whole and in a page of it. -/
theorem addRow_pages (hn : 0 < n) (h : Pages n bound full page) (hfull : full.addRow first delta = .ok full') :
    ∃ page', page.addRow first delta = .ok page' ∧ Pages n bound full' page' := by
  obtain ⟨row, hrow, rfl⟩ := addToRow_ok.mp (addRow_unpaged h.unpaged h.whole hfull)
  have hs := full.rows.ascending.above bound
  cases hbeyond : Entries.beyond bound first.key with
  | false =>
    -- the key is not of this page's range
    refine ⟨page, ?_, ?_⟩
    · simp only [addRow, h.after, any_le_eq, hbeyond, Bool.not_false, if_true]
    · have habove := Entries.above_insert_of_not (v := row) (l := full.rows.entries) hbeyond
      exact h.of_rows _ (h.rows.trans (by rw [SortedMap.entries_insert, habove]))
        (h.truncated.trans (by rw [SortedMap.entries_insert, habove]))
  | true =>
    have habove := Entries.above_insert (v := row) (l := full.rows.entries) hbeyond
    have hfind := Entries.find?_above (l := full.rows.entries) hbeyond
    have haddRow : page.addRow first delta =
        if !page.rows.contains first.key && decide (n ≤ page.rows.size) then
          if page.rows.last?.any fun last => decide (first.key < last.1) then
            { page with truncated := true, rows := page.rows.popLast }.addToRow first delta
          else .ok { page with truncated := true }
        else page.addToRow first delta := by
      simp only [addRow, h.after, any_le_eq, hbeyond, Bool.not_true, Bool.false_eq_true, if_false, h.maxRows, h.paged]
    rw [haddRow]
    by_cases hmem : first.key ∈ Entries.keys page.rows.entries
    · -- it has a row already
      rw [SortedMap.contains_iff.mpr hmem, Bool.not_true, Bool.false_and, if_neg Bool.false_ne_true]
      rw [h.rows] at hmem
      refine ⟨_, addToRow_ok.mpr ⟨row, ?_, rfl⟩, h.of_rows (full.rows.insert first.key row) ?_ ?_⟩
      · rw [SortedMap.find?, h.rows, Entries.find?_take hmem, hfind]
        exact hrow
      · rw [SortedMap.entries_insert, SortedMap.entries_insert, habove, Entries.take_insert_of_mem hs hmem, h.rows]
      · have hkey : first.key ∈ Entries.keys (Entries.above bound full.rows.entries) := by
          obtain ⟨v, hv⟩ := Entries.mem_keys.mp hmem
          exact Entries.mem_keys.mpr ⟨v, List.mem_of_mem_take hv⟩
        rw [SortedMap.entries_insert, habove, Entries.length_insert_of_mem hs hkey]
        exact h.truncated
    have hnew : page.rows.contains first.key = false := Bool.eq_false_iff.mpr fun hc => hmem (SortedMap.contains_iff.mp hc)
    rw [hnew, Bool.not_false, Bool.true_and]
    rw [h.rows] at hmem
    by_cases hroom : (Entries.above bound full.rows.entries).length < n
    · -- there is room, so the page has every row
      have htake := List.take_of_length_le hroom.le
      have hsize : ¬ n ≤ page.rows.size := by
        rw [SortedMap.size, h.rows, htake]
        omega
      rw [decide_eq_false hsize, if_neg Bool.false_ne_true]
      refine ⟨_, addToRow_ok.mpr ⟨row, ?_, rfl⟩, h.of_rows (full.rows.insert first.key row) ?_ ?_⟩
      · rw [SortedMap.find?, h.rows, htake, hfind]
        exact hrow
      · rw [SortedMap.entries_insert, SortedMap.entries_insert, habove, Entries.take_insert_of_room hroom, h.rows]
      · have hle := Entries.insert_length_le (l := Entries.above bound full.rows.entries) (k := first.key) (v := row)
        rw [SortedMap.entries_insert, habove, h.truncated, decide_eq_false hroom.not_gt, decide_eq_false (by omega)]
    have hfull : n ≤ (Entries.above bound full.rows.entries).length := Nat.le_of_not_lt hroom
    have hlength : page.rows.entries.length = n := by
      rw [h.rows, List.length_take, Nat.min_eq_left hfull]
    have hmore := Entries.lt_length_insert (v := row) hs hmem hfull
    rw [decide_eq_true (show n ≤ page.rows.size from hlength.ge), if_pos rfl]
    obtain ⟨last, hlast⟩ : ∃ last, ((Entries.above bound full.rows.entries).take n).getLast? = some last := by
      cases hlast : ((Entries.above bound full.rows.entries).take n).getLast? with
      | some last => exact ⟨last, rfl⟩
      | none =>
        have hnil := h.rows.trans (List.getLast?_eq_none_iff.mp hlast)
        rw [hnil, List.length_nil] at hlength
        omega
    rw [SortedMap.last?, h.rows, hlast, Option.any_some]
    by_cases hlt : first.key < last.1
    · -- it takes the place of the greatest
      have hout := Entries.not_mem_keys_of_lt_last hs hmem hlast hlt
      have hnone : full.rows.find? first.key = none := hfind.symm.trans (Entries.find?_eq_none hout)
      have hlost : page.rows.popLast.find? first.key = none := by
        refine Entries.find?_eq_none fun hc => hmem ?_
        obtain ⟨v, hv⟩ := Entries.mem_keys.mp hc
        rw [SortedMap.entries_popLast, h.rows] at hv
        exact Entries.mem_keys.mpr ⟨v, List.mem_of_mem_dropLast hv⟩
      rw [decide_eq_true hlt, if_pos rfl]
      refine ⟨_, addToRow_ok.mpr ⟨row, ?_, rfl⟩, h.of_rows (full.rows.insert first.key row) ?_ ?_⟩
      · rw [hnone] at hrow
        rw [hlost]
        exact hrow
      · rw [SortedMap.entries_insert, SortedMap.entries_insert, SortedMap.entries_popLast, habove,
          Entries.take_insert_of_evict hs hmem hfull hlast hlt, h.rows]
      · rw [SortedMap.entries_insert, habove, decide_eq_true hmore]
    · -- it lies above all of them
      have habove_all : ∀ a ∈ (Entries.above bound full.rows.entries).take n, a.1 < first.key := by
        intro a ha
        refine (Entries.le_getLast (hs.sublist (List.take_sublist n _)) hlast ha).trans_lt ?_
        refine lt_of_le_of_ne (not_lt.mp hlt) fun heq => hmem ?_
        rw [← heq]
        exact Entries.mem_keys.mpr ⟨last.2, List.mem_of_getLast? hlast⟩
      rw [decide_eq_false hlt, if_neg Bool.false_ne_true]
      refine ⟨_, rfl, h.of_rows (full.rows.insert first.key row) ?_ ?_⟩
      · rw [SortedMap.entries_insert, habove, Entries.take_insert_of_skip habove_all hfull, h.rows]
      · rw [SortedMap.entries_insert, habove, decide_eq_true hmore]

/-- One event, in the whole and in a page of it. -/
theorem add_pages {event : TokenEvent} (hn : 0 < n) (h : Pages n bound full page)
    (hfull : full.add crates event = .ok full') :
    ∃ page', page.add crates event = .ok page' ∧ Pages n bound full' page' := by
  unfold add at hfull ⊢
  rw [h.seen]
  split
  next hduplicate =>
    rw [if_pos hduplicate] at hfull
    obtain rfl := Except.ok.inj hfull
    exact ⟨_, rfl, h.accountId, h.profile, h.machine, rfl, h.maxRows, h.after, h.paged, h.unpaged, h.whole, h.rows,
      h.truncated⟩
  next hfresh =>
    rw [if_neg hfresh] at hfull
    simp only at hfull ⊢
    generalize event.dedupeKey.elim full.seen (fun key => insert key full.seen) = seen at hfull ⊢
    have hseen : Pages n bound { full with seen } { page with seen } :=
      ⟨h.accountId, h.profile, h.machine, rfl, h.maxRows, h.after, h.paged, h.unpaged, h.whole, h.rows, h.truncated⟩
    split
    next sessionId hsession hmodel =>
      rw [hsession, hmodel] at hfull
      have hfirst : ({ page with seen } : FineTally).firstRow crates sessionId event.dimensions =
          ({ full with seen } : FineTally).firstRow crates sessionId event.dimensions := by
        simp only [firstRow, h.accountId, h.profile, h.machine]
      rw [hfirst]
      exact addRow_pages hn hseen hfull
    next hmalformed =>
      split at hfull
      next sessionId hsession hmodel => exact absurd hmodel (hmalformed sessionId hsession)
      next =>
        obtain rfl := Except.ok.inj hfull
        exact ⟨_, rfl, hseen.accountId, hseen.profile, hseen.machine, rfl, hseen.maxRows, hseen.after, hseen.paged,
          hseen.unpaged, hseen.whole, hseen.rows, hseen.truncated⟩

/-- All events, in the whole and in a page of it. -/
theorem addAll_pages {events : List TokenEvent} (hn : 0 < n) (h : Pages n bound full page)
    (hfull : full.addAll crates events = .ok full') :
    ∃ page', page.addAll crates events = .ok page' ∧ Pages n bound full' page' := by
  induction events generalizing full page with
  | nil =>
    obtain rfl := Except.ok.inj hfull
    exact ⟨page, rfl, h⟩
  | cons event events ih =>
    simp only [addAll, List.foldlM_cons, bind, Except.bind] at hfull ih ⊢
    split at hfull
    · cases hfull
    next mid hmid =>
      obtain ⟨mid', hmid', hpages⟩ := add_pages hn h hmid
      rw [hmid']
      exact ih hpages hfull

/-! ## Rows and their keys -/

/-- An unbounded tally: each row stands under its own key, counted here, with
its settings' hash. -/
structure Whole (crates : Crates) (full : FineTally) : Prop where
  unpaged : full.paged = false
  whole : full.after = none
  rows : ∀ row ∈ full.rows.entries,
    row.1 = row.2.key ∧ row.2.source = .local ∧ row.2.settingsHash = row.2.settings.sha256 crates

theorem addDelta_frame {row row' : TokenGrain} (h : row.addDelta delta = .ok row') :
    row'.key = row.key ∧ row'.source = row.source ∧ row'.settings = row.settings ∧
      row'.settingsHash = row.settingsHash := by
  simp only [TokenGrain.addDelta, bind, Except.bind, pure, Except.pure] at h
  repeat' split at h
  all_goals first | cases h; done | skip
  obtain rfl := Except.ok.inj h
  exact ⟨rfl, rfl, rfl, rfl⟩

theorem addRow_whole (h : Whole crates full) (hsource : first.source = .local)
    (hhash : first.settingsHash = first.settings.sha256 crates) (hadd : full.addRow first delta = .ok full') :
    Whole crates full' := by
  obtain ⟨row, hrow, rfl⟩ := addToRow_ok.mp (addRow_unpaged h.unpaged h.whole hadd)
  refine ⟨h.unpaged, h.whole, fun a ha => ?_⟩
  rcases Entries.mem_insert ha with rfl | ha
  · obtain ⟨hkey, hsource', hsettings, hhash'⟩ := addDelta_frame hrow
    rw [hkey, hsource', hsettings, hhash']
    cases hfind : full.rows.find? first.key with
    | none => exact ⟨rfl, hsource, hhash⟩
    | some found => exact h.rows _ (Entries.mem_of_find? hfind)
  · exact h.rows a ha

theorem add_whole {event : TokenEvent} (h : Whole crates full) (hadd : full.add crates event = .ok full') :
    Whole crates full' := by
  unfold add at hadd
  split at hadd
  · obtain rfl := Except.ok.inj hadd
    exact ⟨h.unpaged, h.whole, h.rows⟩
  · simp only at hadd
    generalize event.dedupeKey.elim full.seen (fun key => insert key full.seen) = seen at hadd
    have hseen : Whole crates { full with seen } := ⟨h.unpaged, h.whole, h.rows⟩
    split at hadd
    · exact addRow_whole hseen rfl rfl hadd
    · obtain rfl := Except.ok.inj hadd
      exact ⟨hseen.unpaged, hseen.whole, hseen.rows⟩

theorem addAll_whole {events : List TokenEvent} (h : Whole crates full) (hadd : full.addAll crates events = .ok full') :
    Whole crates full' := by
  induction events generalizing full with
  | nil =>
    obtain rfl := Except.ok.inj hadd
    exact h
  | cons event events ih =>
    simp only [addAll, List.foldlM_cons, bind, Except.bind] at hadd ih
    split at hadd
    · cases hadd
    next mid hmid => exact ih (add_whole h hmid) hadd

/-! ## Rows of an unbounded tally -/

theorem checkedAdd_error {left right : Nat} {e : PulseError} (h : checkedAdd left right = .error e) :
    e = tallyOverflowed := by
  unfold checkedAdd at h
  split at h
  · cases h
  · exact (Except.error.inj h).symm

theorem addDelta_error {row : TokenGrain} {e : PulseError} (h : row.addDelta delta = .error e) :
    e = tallyOverflowed := by
  simp only [TokenGrain.addDelta, bind, Except.bind, pure, Except.pure] at h
  repeat' split at h
  all_goals first | cases h; done | skip
  all_goals
    next hsum =>
      obtain rfl := Except.error.inj h
      exact checkedAdd_error hsum

theorem add_size {event : TokenEvent} (h : Whole crates full) (hadd : full.add crates event = .ok full') :
    full'.rows.size ≤ full.rows.size + 1 ∧ full'.maxRows = full.maxRows := by
  unfold add at hadd
  split at hadd
  · obtain rfl := Except.ok.inj hadd
    exact ⟨Nat.le_succ _, rfl⟩
  · simp only at hadd
    generalize event.dedupeKey.elim full.seen (fun key => insert key full.seen) = seen at hadd
    split at hadd
    · have hseen : Whole crates { full with seen } := ⟨h.unpaged, h.whole, h.rows⟩
      obtain ⟨row, -, rfl⟩ := addToRow_ok.mp (addRow_unpaged hseen.unpaged hseen.whole hadd)
      exact ⟨Entries.insert_length_le, rfl⟩
    · obtain rfl := Except.ok.inj hadd
      exact ⟨Nat.le_succ _, rfl⟩

/-- With room for a row, an unbounded tally fails only when a sum overflows. -/
theorem add_error {event : TokenEvent} {e : PulseError} (h : Whole crates full) (hroom : full.rows.size < full.maxRows)
    (hadd : full.add crates event = .error e) : e = tallyOverflowed := by
  unfold add at hadd
  split at hadd
  · cases hadd
  · simp only at hadd
    split at hadd
    · simp only [addRow, h.whole, Option.any_none, Bool.false_eq_true, if_false,
        decide_eq_false (Nat.not_le.mpr hroom), Bool.and_false] at hadd
      unfold addToRow at hadd
      simp only [bind, Except.bind, pure, Except.pure] at hadd
      split at hadd
      next hrow =>
        obtain rfl := Except.error.inj hadd
        exact addDelta_error hrow
      · cases hadd
    · cases hadd

theorem addAll_size {events : List TokenEvent} (h : Whole crates full) (hadd : full.addAll crates events = .ok full') :
    full'.rows.size ≤ full.rows.size + events.length := by
  induction events generalizing full with
  | nil =>
    obtain rfl := Except.ok.inj hadd
    exact Nat.le_refl _
  | cons event events ih =>
    simp only [addAll, List.foldlM_cons, bind, Except.bind] at hadd ih
    split at hadd
    · cases hadd
    next mid hmid =>
      have hsize := (add_size h hmid).1
      have hrest := ih (add_whole h hmid) hadd
      rw [List.length_cons]
      omega

theorem addAll_error {events : List TokenEvent} {e : PulseError} (h : Whole crates full)
    (hroom : full.rows.size + events.length ≤ full.maxRows) (hadd : full.addAll crates events = .error e) :
    e = tallyOverflowed := by
  induction events generalizing full with
  | nil => cases hadd
  | cons event events ih =>
    rw [List.length_cons] at hroom
    simp only [addAll, List.foldlM_cons, bind, Except.bind] at hadd ih
    split at hadd
    next hevent =>
      obtain rfl := Except.error.inj hadd
      exact add_error h (by omega) hevent
    next mid hmid =>
      obtain ⟨hsize, hmax⟩ := add_size h hmid
      exact ih (add_whole h hmid) (by omega) hadd

theorem new_whole (scope : TallyScope) (maxRows : Nat) : Whole crates (new scope maxRows none false) :=
  ⟨rfl, rfl, fun _ hmem => (by cases hmem)⟩

theorem new_pages (scope : TallyScope) (maxRows n : Nat) (bound : Option FineKey) :
    Pages n bound (new scope maxRows none false) (new scope n bound true) :=
  ⟨rfl, rfl, rfl, rfl, rfl, rfl, rfl, rfl, rfl, List.take_nil.symm, (decide_eq_false (Nat.not_lt_zero n)).symm⟩

end FineTally

/-! ## Validated rows -/

def validated (crates : Crates) (rows : List TokenGrain) : PulseResult (List TokenGrain) :=
  rows.mapM fun grain => do
    grain.validate crates
    pure grain

theorem validated_ok {rows rows' : List TokenGrain} (h : validated crates rows = .ok rows') :
    rows' = rows ∧ ∀ grain ∈ rows, grain.validate crates = .ok () := by
  induction rows generalizing rows' with
  | nil => exact ⟨(Except.ok.inj h).symm, fun _ hmem => (by cases hmem)⟩
  | cons grain rows ih =>
    simp only [validated, List.mapM_cons, bind, Except.bind, pure, Except.pure] at h ih
    cases hgrain : grain.validate crates with
    | error e =>
      rw [hgrain] at h
      cases h
    | ok =>
      rw [hgrain] at h
      simp only at h
      split at h
      · cases h
      next rest hrest =>
        obtain rfl := Except.ok.inj h
        obtain ⟨rfl, hall⟩ := ih hrest
        refine ⟨rfl, fun g hg => ?_⟩
        rcases List.mem_cons.mp hg with rfl | hg
        · exact hgrain
        · exact hall g hg

theorem validated_append (rows rows' : List TokenGrain) : validated crates (rows ++ rows') = (do
    let a ← validated crates rows
    let b ← validated crates rows'
    pure (a ++ b)) := List.mapM_append

theorem FineTally.finish_eq (tally : FineTally) :
    tally.finish crates = (validated crates tally.rows.values).map fun grains => (grains, tally.truncated) := by
  unfold FineTally.finish validated
  cases tally.rows.values.mapM fun grain => do grain.validate crates; pure grain <;> rfl

/-- A row that passed is a place to go on from. -/
theorem fineKey_fromGrain {grain : TokenGrain} (hvalid : grain.validate crates = .ok ()) (hsource : grain.source = .local)
    (hhash : grain.settingsHash = grain.settings.sha256 crates) :
    (TokenTallyCursor.fromGrain grain).fineKey crates = .ok grain.key := by
  have hhex : isSha256Hex grain.settingsHash = true := by
    rw [hhash]
    exact AgentSettings.isSha256Hex_sha256 crates grain.settings
  obtain ⟨hmodel, hday, -⟩ := TokenGrain.validate_ok.mp hvalid
  obtain ⟨hne, hlen, -, hcontrol⟩ := validateText_ok.mp hmodel
  have hcursor : (TokenTallyCursor.fromGrain grain).validate crates = .ok () := by
    simp [TokenTallyCursor.validate, TokenTallyCursor.fromGrain, hday, ValidatedString.new_value, hne, hlen, hcontrol,
      hhex, hsource, bind, Except.bind, pure, Except.pure]
  simp only [TokenTallyCursor.fineKey, hcursor, bind, Except.bind, pure, Except.pure]
  rfl

/-! ## Page after page -/

section
variable {scope : TallyScope} {events : List TokenEvent} {maxRows : Nat} {full : FineTally}

theorem pos_of_validateOptions (h : validateOptions maxRows = .ok ()) : 0 < maxRows := by
  unfold validateOptions at h
  split at h
  · cases h
  · omega

/-- A page is a prefix of the rows above its cursor. -/
theorem tallyProfilePage_eq {limit : Nat} {after : Option TokenTallyCursor} {bound : Option FineKey}
    (hlimit : validateOptions maxRows = .ok ())
    (hfull : (FineTally.new scope limit none false).addAll crates events = .ok full)
    (hafter : after.mapM (TokenTallyCursor.fineKey crates) = .ok bound) :
    tallyProfilePage crates scope events after maxRows =
      (validated crates (((Entries.above bound full.rows.entries).take maxRows).map Prod.snd)).map fun grains =>
        ⟨grains, grains.getLast?.map .fromGrain,
          !decide (maxRows < (Entries.above bound full.rows.entries).length)⟩ := by
  have hn := pos_of_validateOptions hlimit
  obtain ⟨page, hpage, hpages⟩ := FineTally.addAll_pages hn (FineTally.new_pages scope limit maxRows bound) hfull
  simp only [tallyProfilePage, hlimit, hafter, hpage, FineTally.finish_eq, bind, Except.bind]
  rw [SortedMap.values, hpages.rows, hpages.truncated]
  cases validated crates (((Entries.above bound full.rows.entries).take maxRows).map Prod.snd) <;> rfl

/-- Above the last key of a page lies what it left. -/
theorem above_last {bound : Option FineKey} {last : FineKey × TokenGrain}
    (hlast : ((Entries.above bound full.rows.entries).take maxRows).getLast? = some last) :
    Entries.above (some last.1) full.rows.entries = (Entries.above bound full.rows.entries).drop maxRows := by
  have hmem := List.mem_of_mem_take (List.mem_of_getLast? hlast)
  have hbeyond : Entries.beyond bound last.1 = true := (List.mem_filter.mp hmem).2
  rw [← Entries.above_above hbeyond]
  exact Entries.above_eq_drop (full.rows.ascending.above bound) hlast

theorem exists_last {bound : Option FineKey} (hn : 0 < maxRows)
    (hmore : maxRows < (Entries.above bound full.rows.entries).length) :
    ∃ last, ((Entries.above bound full.rows.entries).take maxRows).getLast? = some last := by
  cases hlast : ((Entries.above bound full.rows.entries).take maxRows).getLast? with
  | some last => exact ⟨last, rfl⟩
  | none =>
    have hnil := congrArg List.length (List.getLast?_eq_none_iff.mp hlast)
    simp only [List.length_take, List.length_nil] at hnil
    omega

/-- The cursor after an incomplete page is its last key. -/
theorem cursor_of_last {bound : Option FineKey} {last : FineKey × TokenGrain} {grains : List TokenGrain}
    (hwhole : full.Whole crates)
    (hlast : ((Entries.above bound full.rows.entries).take maxRows).getLast? = some last)
    (hgrains : validated crates (((Entries.above bound full.rows.entries).take maxRows).map Prod.snd) = .ok grains) :
    grains.getLast?.map TokenTallyCursor.fromGrain = some (TokenTallyCursor.fromGrain last.2) ∧
      (some (TokenTallyCursor.fromGrain last.2)).mapM (TokenTallyCursor.fineKey crates) = .ok (some last.1) := by
  obtain ⟨rfl, hvalid⟩ := validated_ok hgrains
  have hmem := List.mem_of_getLast? hlast
  obtain ⟨hkey, hsource, hhash⟩ := hwhole.rows last (List.mem_of_mem_filter (List.mem_of_mem_take hmem))
  refine ⟨by rw [List.getLast?_map, hlast]; rfl, ?_⟩
  rw [Option.mapM_some, hkey, fineKey_fromGrain (hvalid _ (List.mem_map.mpr ⟨last, hmem, rfl⟩)) hsource hhash]
  rfl

/-- The pages from a cursor on hold the rows above it. -/
theorem tallyPages_from {limit : Nat} (hlimit : validateOptions maxRows = .ok ())
    (hfull : (FineTally.new scope limit none false).addAll crates events = .ok full) (fuel : Nat)
    {after : Option TokenTallyCursor} {bound : Option FineKey}
    (hafter : after.mapM (TokenTallyCursor.fineKey crates) = .ok bound)
    (hfuel : (Entries.above bound full.rows.entries).length < fuel) :
    (tallyPages crates scope events maxRows fuel after).map (·.flatMap (·.grains)) =
      validated crates ((Entries.above bound full.rows.entries).map Prod.snd) := by
  have hn := pos_of_validateOptions hlimit
  have hwhole := FineTally.addAll_whole (FineTally.new_whole scope limit) hfull
  induction fuel generalizing after bound with
  | zero => omega
  | succ fuel ih =>
    rw [tallyPages, tallyProfilePage_eq hlimit hfull hafter]
    by_cases hmore : maxRows < (Entries.above bound full.rows.entries).length
    · obtain ⟨last, hlast⟩ := exists_last hn hmore
      have hrest : ((Entries.above bound full.rows.entries).map Prod.snd) =
          ((Entries.above bound full.rows.entries).take maxRows).map Prod.snd ++
            (Entries.above (some last.1) full.rows.entries).map Prod.snd := by
        rw [above_last hlast, ← List.map_append, List.take_append_drop]
      rw [hrest, validated_append]
      cases hgrains : validated crates (((Entries.above bound full.rows.entries).take maxRows).map Prod.snd) with
      | error e => rfl
      | ok grains =>
        obtain ⟨hnext, hkey⟩ := cursor_of_last hwhole hlast hgrains
        have hlength : (Entries.above (some last.1) full.rows.entries).length < fuel := by
          rw [above_last hlast, List.length_drop]
          omega
        have hpages := ih hkey hlength
        simp only [bind, Except.bind, Except.map, hmore, decide_true, Bool.not_true, Bool.false_eq_true, if_false,
          hnext, ← hpages]
        cases tallyPages crates scope events maxRows fuel (some (TokenTallyCursor.fromGrain last.2)) <;> rfl
    · rw [List.take_of_length_le (Nat.le_of_not_lt hmore)]
      cases validated crates ((Entries.above bound full.rows.entries).map Prod.snd) with
      | error e => rfl
      | ok grains => simp [bind, Except.bind, Except.map, hmore, pure, Except.pure]

/-- A page lacks rows when there is a key above its last. -/
theorem lacks_iff {bound : Option FineKey} {grains : List TokenGrain} (hn : 0 < maxRows) (hwhole : full.Whole crates)
    (hgrains : validated crates (((Entries.above bound full.rows.entries).take maxRows).map Prod.snd) = .ok grains) :
    maxRows < (Entries.above bound full.rows.entries).length ↔
      ∃ last, grains.getLast? = some last ∧ ∃ row ∈ full.rows.values, last.key < row.key := by
  obtain ⟨rfl, -⟩ := validated_ok hgrains
  have hkey : ∀ a ∈ full.rows.entries, a.1 = a.2.key := fun a ha => (hwhole.rows a ha).1
  constructor
  · intro hmore
    obtain ⟨last, hlast⟩ := exists_last hn hmore
    refine ⟨last.2, by rw [List.getLast?_map, hlast]; rfl, ?_⟩
    obtain ⟨a, ha⟩ := List.exists_mem_of_length_pos
      (l := (Entries.above bound full.rows.entries).drop maxRows) (by rw [List.length_drop]; omega)
    have hmem := List.mem_of_mem_filter (List.mem_of_mem_drop ha)
    have hmem' := List.mem_of_mem_filter (List.mem_of_mem_take (List.mem_of_getLast? hlast))
    refine ⟨a.2, List.mem_map.mpr ⟨a, hmem, rfl⟩, ?_⟩
    rw [← hkey a hmem, ← hkey last hmem']
    exact Entries.last_lt_of_mem_drop (full.rows.ascending.above bound) hlast ha
  · rintro ⟨grain, hgrain, row, hrow, hlt⟩
    rw [List.getLast?_map] at hgrain
    obtain ⟨last, hlast, rfl⟩ := Option.map_eq_some_iff.mp hgrain
    obtain ⟨a, ha, rfl⟩ := List.mem_map.mp hrow
    have hmem := List.mem_of_mem_filter (List.mem_of_mem_take (List.mem_of_getLast? hlast))
    rw [← hkey a ha, ← hkey last hmem] at hlt
    have hrest : a ∈ (Entries.above bound full.rows.entries).drop maxRows := by
      rw [← above_last hlast]
      exact List.mem_filter.mpr ⟨ha, by simpa [Entries.beyond] using hlt⟩
    have hpos := List.length_pos_of_mem hrest
    rw [List.length_drop] at hpos
    omega

theorem tallyPages_lacks {limit : Nat} (hlimit : validateOptions maxRows = .ok ())
    (hfull : (FineTally.new scope limit none false).addAll crates events = .ok full) (fuel : Nat)
    {after : Option TokenTallyCursor} {bound : Option FineKey}
    (hafter : after.mapM (TokenTallyCursor.fineKey crates) = .ok bound) {pages : List TokenTallyPage}
    (hpages : tallyPages crates scope events maxRows fuel after = .ok pages) :
    ∀ page ∈ pages, page.complete = false ↔
      ∃ last, page.grains.getLast? = some last ∧ ∃ row ∈ full.rows.values, last.key < row.key := by
  have hn := pos_of_validateOptions hlimit
  have hwhole := FineTally.addAll_whole (FineTally.new_whole scope limit) hfull
  induction fuel generalizing after bound pages with
  | zero =>
    obtain rfl := Except.ok.inj hpages
    exact fun _ hmem => (by cases hmem)
  | succ fuel ih =>
    rw [tallyPages, tallyProfilePage_eq hlimit hfull hafter] at hpages
    cases hgrains : validated crates (((Entries.above bound full.rows.entries).take maxRows).map Prod.snd) with
    | error e =>
      rw [hgrains] at hpages
      cases hpages
    | ok grains =>
      have hlacks := lacks_iff hn hwhole hgrains
      rw [hgrains] at hpages
      simp only [Except.map, bind, Except.bind] at hpages
      by_cases hmore : maxRows < (Entries.above bound full.rows.entries).length
      · obtain ⟨last, hlast⟩ := exists_last hn hmore
        obtain ⟨hnext, hkey⟩ := cursor_of_last hwhole hlast hgrains
        simp only [hmore, decide_true, Bool.not_true, Bool.false_eq_true, if_false, hnext] at hpages
        split at hpages
        · cases hpages
        next rest hrest =>
          obtain rfl := Except.ok.inj hpages
          intro page hpage
          rcases List.mem_cons.mp hpage with rfl | hpage
          · simpa only [true_iff] using hlacks.mp hmore
          · exact ih hkey hrest page hpage
      · simp only [hmore, decide_false, Bool.not_false, if_true] at hpages
        obtain rfl := Except.ok.inj hpages
        intro page hpage
        obtain rfl := List.mem_singleton.mp hpage
        simpa only [Bool.true_eq_false, false_iff] using fun h => hmore (hlacks.mpr h)

end

/-- **Pages put together are the tally.** Unless a sum overflows, the pages
hold the rows of one unbounded tally of the events, in order and each once, or
fail as it does; and a page is incomplete when there is a key above its last. -/
theorem paging_is_tally (crates : Crates) (scope : TallyScope) (events : List TokenEvent) {limit : Nat}
    (hlimit : events.length ≤ limit)
    (hsums : (FineTally.new scope limit none false).addAll crates events ≠ .error tallyOverflowed) {maxRows : Nat}
    (hpositive : 0 < maxRows) (hmax : maxRows ≤ defaultMaxRows) {fuel : Nat} (hfuel : events.length < fuel) :
    ∃ full, (FineTally.new scope limit none false).addAll crates events = .ok full ∧
      (tallyPages crates scope events maxRows fuel none).map (·.flatMap (·.grains)) =
        (full.finish crates).map Prod.fst ∧
      (full.rows.values.map TokenGrain.key).Pairwise (· < ·) ∧
      ∀ pages, tallyPages crates scope events maxRows fuel none = .ok pages → ∀ page ∈ pages,
        page.complete = false ↔
          ∃ last, page.grains.getLast? = some last ∧ ∃ row ∈ full.rows.values, last.key < row.key := by
  have hnew : (FineTally.new scope limit none false).Whole crates := FineTally.new_whole scope limit
  have hoptions : validateOptions maxRows = .ok () := if_neg (by omega)
  cases hfull : (FineTally.new scope limit none false).addAll crates events with
  | error e =>
    have hroom : (FineTally.new scope limit none false).rows.size + events.length ≤ limit := by
      simpa [FineTally.new, SortedMap.size, SortedMap.empty] using hlimit
    exact absurd (hfull.trans (congrArg _ (FineTally.addAll_error hnew hroom hfull))) hsums
  | ok full =>
    have hwhole := FineTally.addAll_whole hnew hfull
    refine ⟨full, rfl, ?_, ?_, fun pages hpages => tallyPages_lacks hoptions hfull fuel rfl hpages⟩
    · have hsize := FineTally.addAll_size hnew hfull
      have hlength : (Entries.above none full.rows.entries).length < fuel := by
        rw [Entries.above_none]
        simp only [FineTally.new, SortedMap.size, SortedMap.empty, List.length_nil] at hsize
        omega
      rw [tallyPages_from hoptions hfull fuel rfl hlength, Entries.above_none, FineTally.finish_eq, SortedMap.values]
      cases validated crates (full.rows.entries.map Prod.snd) <;> rfl
    · have hkeys : full.rows.values.map TokenGrain.key = full.rows.entries.map Prod.fst := by
        rw [SortedMap.values, List.map_map]
        exact List.map_congr_left fun a ha => (hwhole.rows a ha).1.symm
      rw [hkeys]
      exact List.pairwise_map.mpr full.rows.ascending

/-- Every text is a date, and settings are told apart by nothing. -/
def plainCrates : Crates := ⟨fun _ => Vector.replicate 32 0, fun _ => none⟩

def plainEvent (day session : String) (input : Nat) : TokenEvent :=
  ⟨⟨day, session, "gpt-5", ⟨none, none, .empty⟩⟩, { input }, some (day ++ session)⟩

def plainScope : TallyScope := ⟨firstAccount, ⟨"p", by decide⟩, ⟨"m", by decide⟩⟩

/-- Two keys, the later first, and an event twice. -/
def plainEvents : List TokenEvent :=
  [plainEvent "2026-08-02" "s" 5, plainEvent "2026-08-01" "s" 7, plainEvent "2026-08-02" "s" 5]

/-- Two pages of one row. -/
theorem two_pages : ∃ full,
    (FineTally.new plainScope 3 none false).addAll plainCrates plainEvents = .ok full ∧
      (tallyPages plainCrates plainScope plainEvents 1 4 none).map (·.flatMap (·.grains)) =
        (full.finish plainCrates).map Prod.fst := by
  obtain ⟨full, hfull, hpages, -⟩ := paging_is_tally plainCrates plainScope plainEvents (show _ ≤ 3 by decide)
    (by decide +kernel) (show 0 < 1 by decide) (by decide) (show _ < 4 by decide)
  exact ⟨full, hfull, hpages⟩

end Atmux.Pulse
