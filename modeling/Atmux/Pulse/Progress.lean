/-
Whether a coordinator accepts the pages of an honest peer.

The peer's pages go on in the order of its queries, the coordinator compares
the cursors as they are written. The two agree on every pair of rows except
two usage rows, whose ids are compared as numbers by the one and as text by
the other (`position_le_iff`). So the page that ends at id 12, after one that
ended at 9, is refused (`twelve_after_nine`), and asked for again.
-/
import Mathlib.Logic.Equiv.List
import Atmux.Pulse.Slices

namespace Atmux.Pulse

open Lib

/-! ## The coordinator's check -/

/-- Machine that originally produced a row and the machines through which it
has passed. -/
structure PulseOrigin where
  machine : MachineName
  path : List MachineName
deriving DecidableEq

def PulseOrigin.direct (machine : MachineName) : PulseOrigin := ⟨machine, [machine]⟩

/-- One idempotently applicable row. -/
structure FederatedRecord where
  key : String
  origin : PulseOrigin
  row : FederatedPulseRow
deriving DecidableEq

/-- What the exporter sends of a record. -/
def LocalFederationRecord.send (machine : MachineName) (record : LocalFederationRecord) : FederatedRecord :=
  ⟨record.key, .direct machine, record.row⟩

def validateCursorProgress (crates : FederationCrates) (prior next : Option OpaqueCursor)
    (records : List FederatedRecord) : PulseResult Unit := do
  let priorKey ← parseExportCursor crates prior
  let nextKey ← parseExportCursor crates next
  if nextKey.any fun next => priorKey.any fun prior => decide (next ≤ prior) then
    throw ⟨.upstream, "Pulse federation cursor did not strictly advance"⟩
  if records.isEmpty ∧ nextKey.isSome then
    throw ⟨.upstream, "Pulse federation empty page returned an advancing cursor"⟩

/-! ## Two orders -/

/-- The position of a row. -/
def IsPosition (position : FederationExportPosition) (row : LocalRow) : Prop :=
  position.phase = row.phase ∧ position.values = row.values

theorem position_lt {a b : LocalRow} {position position' : FederationExportPosition} (ha : IsPosition position a)
    (hb : IsPosition position' b) :
    position < position' ↔ a.phase < b.phase ∨ a.phase = b.phase ∧ a.values < b.values := by
  rw [← ha.1, ← hb.1, ← ha.2, ← hb.2]
  exact Prod.Lex.toLex_lt_toLex

/-- The derived order on the rows that follow each other: it fails to go up
only between usage rows, as their ids' texts do. -/
theorem position_le_iff {a b : LocalRow} {position position' : FederationExportPosition} (ha : IsPosition position a)
    (hb : IsPosition position' b) (hlt : a.order < b.order) :
    position' ≤ position ↔ ∃ stored stored', a = .usage stored ∧ b = .usage stored' ∧
      toString stored'.id ≤ toString stored.id := by
  rw [← not_lt, position_lt ha hb]
  rcases Prod.Lex.toLex_lt_toLex.mp hlt with hphase | ⟨hphase, hsub⟩
  · refine ⟨fun h => absurd (.inl hphase) h, ?_⟩
    rintro ⟨stored, stored', rfl, rfl, -⟩
    exact absurd hphase (lt_irrefl _)
  · -- the same query gave both
    have hnatural : a.values < b.values → (∀ stored, a ≠ .usage stored) →
        (¬ (a.phase < b.phase ∨ a.phase = b.phase ∧ a.values < b.values) ↔ ∃ stored stored', a = .usage stored ∧
          b = .usage stored' ∧ toString stored'.id ≤ toString stored.id) := by
      intro hvalues hother
      refine ⟨fun h => absurd (.inr ⟨hphase, hvalues⟩) h, ?_⟩
      rintro ⟨stored, -, rfl, -⟩
      exact absurd rfl (hother stored)
    cases a with
    | machine row =>
      cases b with
      | machine row' => exact absurd hsub (lt_irrefl _)
      | _ => cases hphase
    | profile row =>
      cases b with
      | profile row' => exact hnatural (sub_lt_sub.mp hsub) (by simp)
      | _ => cases hphase
    | usage row =>
      cases b with
      | usage row' =>
        have hvalues : (LocalRow.usage row).values < (LocalRow.usage row').values ↔ toString row.id < toString row'.id :=
          singleton_lt_singleton
        rw [hvalues]
        refine ⟨fun h => ⟨row, row', rfl, rfl, not_lt.mp fun hid => h (.inr ⟨rfl, hid⟩)⟩, ?_⟩
        rintro ⟨stored, stored', heq, heq', hle⟩ (hphase | ⟨-, hid⟩)
        · exact absurd hphase (lt_irrefl _)
        · obtain rfl := LocalRow.usage.inj heq
          obtain rfl := LocalRow.usage.inj heq'
          exact absurd hid (not_lt.mpr hle)
      | _ => cases hphase
    | context row =>
      cases b with
      | context row' => exact hnatural (sub_lt_sub.mp hsub) (by simp)
      | _ => cases hphase
    | token row =>
      cases b with
      | token row' => exact hnatural (sub_lt_sub.mp hsub) (by simp)
      | _ => cases hphase

/-! ## Consecutive pages -/

section
variable {crates : FederationCrates} {source : StoreFederationSource} {request : FederationRequest}

/-- The rows beyond a request's cursor. -/
def StoreFederationSource.rest (crates : FederationCrates) (source : StoreFederationSource)
    (request : FederationRequest) : PulseResult (List LocalRow) := do
  let after ← parseExportCursor crates request.cursor
  let bound ← cursorOrder after
  pure (rowsAfter (source.store request.accountId) source.localMachine bound)

theorem record_ok {row : LocalRow} {record : LocalFederationRecord} (h : row.record crates = .ok record) :
    IsPosition record.position row ∧ record.row = row.exported := by
  unfold LocalRow.record at h
  cases hposition : FederationExportPosition.new row.phase row.values with
  | error e =>
    rw [hposition] at h
    cases h
  | ok position =>
    rw [hposition] at h
    obtain rfl := Except.ok.inj h
    unfold FederationExportPosition.new at hposition
    split at hposition
    · cases hposition
    · obtain rfl := Except.ok.inj hposition
      exact ⟨⟨rfl, rfl⟩, rfl⟩

/-- What a page has of the rows beyond its cursor. -/
theorem localPage_ok {page : LocalFederationPage} (h : source.localPage crates request = .ok page) :
    ∃ rest, source.rest crates request = .ok rest ∧
      List.Forall₂ (fun row record => LocalRow.record crates row = .ok record) (rest.take request.limit) page.records ∧
      ((rest.length ≤ request.limit ∨ request.limit = 0) ∧ page.nextCursor = none ∨
        request.limit < rest.length ∧ ∃ record cursor, page.records.getLast? = some record ∧
          page.nextCursor = some cursor ∧ exportCursor crates record.position = .ok cursor) := by
  simp only [StoreFederationSource.localPage, StoreFederationSource.rest, bind, Except.bind, pure, Except.pure] at h ⊢
  split at h
  · cases h
  split at h
  · cases h
  next after hafter =>
    rw [localFederationPage_eq] at h
    cases hlimit : federationQueryLimit (request.limit + 1) with
    | error e =>
      rw [hlimit] at h
      cases h
    | ok limit =>
      obtain rfl : limit = request.limit + 1 := by
        unfold federationQueryLimit at hlimit
        split at hlimit
        · cases hlimit
        · exact (Except.ok.inj hlimit).symm
      simp only [hlimit, bind, Except.bind] at h
      cases hbound : cursorOrder after with
      | error e =>
        rw [hbound] at h
        cases h
      | ok bound =>
        simp only [hbound] at h
        split at h
        · cases h
        next all hall =>
          have hmap := mapM_ok hall
          have hlength : all.length = min (request.limit + 1)
              (rowsAfter (source.store request.accountId) source.localMachine bound).length := by
            rw [← hmap.length_eq, List.length_take]
          have hrecords := List.forall₂_take request.limit hmap
          rw [List.take_take, Nat.min_eq_left (Nat.le_succ _)] at hrecords
          refine ⟨_, rfl, ?_⟩
          by_cases hmore : request.limit < all.length
          · rw [if_pos hmore] at h
            split at h
            · cases h
            next next hnext =>
              obtain rfl := Except.ok.inj h
              refine ⟨hrecords, ?_⟩
              cases hlast : (all.take request.limit).getLast? with
              | none =>
                rw [hlast] at hnext
                have hzero : request.limit = 0 := by
                  have hnil := List.getLast?_eq_none_iff.mp hlast
                  rw [List.take_eq_nil_iff] at hnil
                  rcases hnil with hzero | hnil
                  · exact hzero
                  · simp [hnil] at hmore
                exact .inl ⟨.inr hzero, (Except.ok.inj hnext).symm⟩
              | some record =>
                rw [hlast] at hnext
                obtain ⟨cursor, hexport, hcursor⟩ := map_ok hnext
                exact .inr ⟨by omega, record, cursor, rfl, hcursor.symm, hexport⟩
          · rw [if_neg hmore] at h
            obtain rfl := Except.ok.inj h
            exact ⟨hrecords, .inl ⟨.inl (by omega), rfl⟩⟩

/-- A usage row of the export is one of the table. -/
theorem usage_of_mem {tables : Tables} {localMachine : MachineName} {stored : StoredUsageSnapshot}
    (h : .usage stored ∈ exportRows tables localMachine) : stored ∈ tables.usage.rows := by
  obtain ⟨phase, hphase, hmem⟩ := List.mem_flatMap.mp h
  have husage : LocalRow.usage stored ∈ usageRows tables localMachine := by
    have heq : 2 = phase := phase_of_mem hmem
    rwa [← heq] at hmem
  obtain ⟨stored', hmem', heq⟩ := List.mem_map.mp husage
  obtain rfl := LocalRow.usage.inj heq
  exact List.mem_of_mem_filter (mem_orderBy.mp hmem')

/-- The position of an exported row reads back as where the row stands. -/
theorem cursorOrder_row {tables : Tables} {localMachine : MachineName} {row : LocalRow}
    {position : FederationExportPosition} (h : row ∈ exportRows tables localMachine) (hposition : IsPosition position row) :
    cursorOrder (some position) = .ok (some row.order) := by
  have hphase := hposition.1
  have hvalues := hposition.2
  cases row with
  | usage stored =>
    have hid := (tables.usage_ids stored (usage_of_mem h)).2.trans_lt tables.sequence_bounded
    have hparse := Text.parseSigned_toString hid
    simp only [LocalRow.phase, LocalRow.values] at hphase hvalues
    simp only [cursorOrder, cursorSub, cursorValues, hphase, hvalues, bind, Except.bind, Option.getD_some,
      List.headD_cons, List.length_singleton, ne_eq, not_true_eq_false, if_false, hparse]
    rfl
  | machine _ | profile _ | context _ | token _ =>
    simp only [LocalRow.phase, LocalRow.values] at hphase hvalues
    simp only [cursorOrder, cursorSub, cursorValues, hphase, hvalues]
    rfl

/-- A row that is beyond a request's cursor. -/
theorem mem_rest {rest : List LocalRow} {row : LocalRow} (h : source.rest crates request = .ok rest) (hmem : row ∈ rest) :
    row ∈ exportRows (source.store request.accountId) source.localMachine ∧
      ∃ after bound, parseExportCursor crates request.cursor = .ok after ∧ cursorOrder after = .ok bound ∧
        Entries.beyond bound row.order = true := by
  simp only [StoreFederationSource.rest, bind, Except.bind, pure, Except.pure] at h
  split at h
  · cases h
  next after hafter =>
    split at h
    · cases h
    next bound hbound =>
      obtain rfl := Except.ok.inj h
      obtain ⟨hmem, hbeyond⟩ := List.mem_filter.mp hmem
      exact ⟨hmem, after, bound, hafter, hbound, hbeyond⟩

/-- The next request goes on behind the page. -/
theorem rest_next {rest : List LocalRow} {row : LocalRow} {position : FederationExportPosition} {cursor : OpaqueCursor}
    (hrest : source.rest crates request = .ok rest) (hrow : (rest.take request.limit).getLast? = some row)
    (hposition : IsPosition position row) (hcursor : parseExportCursor crates (some cursor) = .ok (some position)) :
    source.rest crates { request with cursor := some cursor } = .ok (rest.drop request.limit) := by
  simp only [StoreFederationSource.rest, bind, Except.bind, pure, Except.pure, hcursor] at hrest ⊢
  split at hrest
  · cases hrest
  split at hrest
  · cases hrest
  next bound _ =>
    obtain rfl := Except.ok.inj hrest
    obtain ⟨hmem, hbeyond⟩ := List.mem_filter.mp (List.mem_of_mem_take (List.mem_of_getLast? hrow))
    have hascending := exportRows_ascending (source.store request.accountId) source.localMachine
    rw [rowsAfter] at hrow
    rw [cursorOrder_row hmem hposition, rowsAfter, ← filter_beyond_last (hascending.filter _) hrow, List.filter_filter]
    refine congrArg Except.ok ?_
    rw [rowsAfter]
    refine List.filter_congr fun row' _ => ?_
    cases hrow' : Entries.beyond (some row.order) row'.order with
    | false => rfl
    | true =>
      have hlt : row.order < row'.order := by simpa [Entries.beyond] using hrow'
      rw [Entries.beyond_trans hbeyond hlt, Bool.and_self]

/-- The row that a page's cursor stands at. -/
theorem page_end (hcrates : crates.RoundTrips) {page : LocalFederationPage} {cursor : OpaqueCursor}
    {rest : List LocalRow} (h : source.localPage crates request = .ok page) (hcursor : page.nextCursor = some cursor)
    (hrest : source.rest crates request = .ok rest) :
    0 < request.limit ∧ request.limit < rest.length ∧ page.records ≠ [] ∧ ∃ row position,
      rest[request.limit - 1]? = some row ∧ IsPosition position row ∧
      parseExportCursor crates (some cursor) = .ok (some position) := by
  obtain ⟨rest', hrest', hrecords, hend⟩ := localPage_ok h
  obtain rfl : rest' = rest := Except.ok.inj (hrest'.symm.trans hrest)
  rcases hend with ⟨-, hnone⟩ | ⟨hmore, record, cursor', hlast, hnext, hexport⟩
  · rw [hnone] at hcursor
    cases hcursor
  · obtain rfl : cursor' = cursor := Option.some.inj (hnext.symm.trans hcursor)
    obtain ⟨row, hrow, hrecord⟩ := getLast?_of_forall₂ hrecords hlast
    have hpos : 0 < request.limit := by
      refine Nat.pos_of_ne_zero fun hzero => ?_
      rw [hzero, List.take_zero] at hrow
      cases hrow
    refine ⟨hpos, hmore, ?_, row, record.position, ?_, (record_ok hrecord).1, parseExportCursor_exportCursor (hcrates _) hexport⟩
    · intro hnil
      rw [hnil] at hlast
      cases hlast
    · rw [List.getLast?_take, if_neg hpos.ne', List.getElem?_eq_getElem (by omega)] at hrow
      rw [List.getElem?_eq_getElem (by omega), ← hrow]
      rfl

/-- **Progress is refused between two usage rows, and nowhere else**: when a
page ends at one, and the next page, with more to come, at one whose id is no
later a text. The tables may have changed between the pages. -/
theorem progress_accepted_iff {source' : StoreFederationSource} {first second : LocalFederationPage}
    {cursor : OpaqueCursor} {rest rest' : List LocalRow} (hcrates : crates.RoundTrips)
    (hfirst : source.localPage crates request = .ok first) (hcursor : first.nextCursor = some cursor)
    (hsecond : source'.localPage crates { request with cursor := some cursor } = .ok second)
    (hrest : source.rest crates request = .ok rest)
    (hrest' : source'.rest crates { request with cursor := some cursor } = .ok rest') :
    validateCursorProgress crates (some cursor) second.nextCursor
        (second.records.map (·.send source'.localMachine)) = .ok () ↔
      ¬ ∃ stored stored', rest[request.limit - 1]? = some (.usage stored) ∧
        rest'[request.limit - 1]? = some (.usage stored') ∧ request.limit < rest'.length ∧
        toString stored'.id ≤ toString stored.id := by
  obtain ⟨hpos, -, -, row, position, hrow, hposition, hprior⟩ := page_end hcrates hfirst hcursor hrest
  simp only [validateCursorProgress, hprior, bind, Except.bind, pure, Except.pure]
  cases hnext : second.nextCursor with
  | none =>
    -- the second page ends the scan
    have hlength : rest'.length ≤ request.limit := by
      obtain ⟨rest'', hrest'', -, ⟨hlength, -⟩ | ⟨-, _, _, -, hsome, -⟩⟩ := localPage_ok hsecond
      · obtain rfl : rest'' = rest' := Except.ok.inj (hrest''.symm.trans hrest')
        exact hlength.resolve_right hpos.ne'
      · rw [hnext] at hsome
        cases hsome
    simp only [parseExportCursor]
    refine ⟨fun _ => ?_, fun _ => by simp⟩
    rintro ⟨-, -, -, -, hmore, -⟩
    exact absurd hlength (not_le.mpr hmore)
  | some next =>
    obtain ⟨-, hmore, hnonempty, row', position', hrow', hposition', hparse⟩ := page_end hcrates hsecond hnext hrest'
    simp only [hparse]
    have hlt : row.order < row'.order := by
      obtain ⟨hmem, -⟩ := mem_rest hrest (List.mem_of_getElem? hrow)
      obtain ⟨-, after, bound, hafter, hbound, hbeyond⟩ := mem_rest hrest' (List.mem_of_getElem? hrow')
      obtain rfl := Except.ok.inj (hprior.symm.trans hafter)
      obtain rfl := Except.ok.inj ((cursorOrder_row hmem hposition).symm.trans hbound)
      simpa [Entries.beyond] using hbeyond
    have hcondition : position' ≤ position ↔ ∃ stored stored', rest[request.limit - 1]? = some (.usage stored) ∧
        rest'[request.limit - 1]? = some (.usage stored') ∧ request.limit < rest'.length ∧
        toString stored'.id ≤ toString stored.id := by
      rw [position_le_iff hposition hposition' hlt, hrow, hrow']
      simp [hmore]
    rw [← hcondition]
    by_cases hle : position' ≤ position
    · simp [hle, throw, throwThe, MonadExceptOf.throw]
    · simp [hle, hnonempty]

end

/-! ## Five usage rows -/

/-- A position as one number. -/
def positionCode (phase : Nat) (values : List String) : Nat :=
  Encodable.encode (phase, values.map fun value => value.toList.map Char.toNat)

/-- Codes the known positions by their texts, any other in unary. -/
def knownCrates (known : List ((Nat × List String) × String)) : FederationCrates where
  encodePosition position :=
    match known.find? fun entry => entry.1 = (position.phase, position.values) with
    | some entry => entry.2
    | none => String.ofList ('~' :: List.replicate (positionCode position.phase position.values) 'a')
  decodePosition text :=
    match known.find? fun entry => entry.2 = text with
    | some entry => some entry.1
    | none =>
      (Encodable.decode (α := ℕ × List (List ℕ)) (text.toList.length - 1)).map fun position =>
        (position.1, position.2.map fun value => String.ofList (value.map Char.ofNat))
  recordDigest position _ := toString (positionCode position.phase position.values)
  rowDigest _ := ""

theorem knownCrates_roundTrips {known : List ((Nat × List String) × String)} (hnodup : (known.map Prod.snd).Nodup)
    (hmark : ∀ entry ∈ known, entry.2.toList.head? ≠ some '~') : (knownCrates known).RoundTrips := by
  intro position
  simp only [knownCrates]
  cases hknown : known.find? fun entry => entry.1 = (position.phase, position.values) with
  | some entry =>
    have hposition : entry.1 = (position.phase, position.values) := by simpa using List.find?_some hknown
    have hmem := List.mem_of_find?_eq_some hknown
    cases hfind : known.find? fun entry' => entry'.2 = entry.2 with
    | none =>
      have hother := List.find?_eq_none.mp hfind entry hmem
      simp at hother
    | some entry' =>
      have htext : entry'.2 = entry.2 := by simpa using List.find?_some hfind
      obtain rfl := List.inj_on_of_nodup_map hnodup (List.mem_of_find?_eq_some hfind) hmem htext
      simp only [hposition]
  | none =>
    simp only
    split
    next entry hfind =>
      have htext := List.find?_some hfind
      refine absurd ?_ (hmark entry (List.mem_of_find?_eq_some hfind))
      rw [of_decide_eq_true htext, String.toList_ofList]
      rfl
    · rw [String.toList_ofList, List.length_cons, List.length_replicate, Nat.add_sub_cancel, positionCode,
        Encodable.encodek]
      simp [Function.comp_def]

def sampleMachine : Machine := ⟨firstAccount, laptop, 0, 0⟩

def sampleProfile : Profile where
  accountId := firstAccount
  name := workProfile
  vendor := .anthropicOauth
  configDir := none
  pollIntervalMinutes := 30
  monthlyBudgetUsd := none
  apiKeyEnv := none
  apiKeyFile := none
  refresh := .never
  hidden := false
  origin := .local

def sampleSnapshot (polledAt : Int) : UsageSnapshot :=
  ⟨firstAccount, sampleProfile.name, sampleMachine.name, .anthropicOauth, [], .rateLimited none, polledAt, none⟩

/-- A machine, a profile, and usage rows with the ids from 9 to 13. -/
def sampleTables : Tables where
  machines := Table.empty.upsert sampleMachine
  profiles := Table.empty.upsert sampleProfile
  usage := [9, 10, 11, 12, 13].foldl (fun table id => table.upsert ⟨id, sampleSnapshot id⟩) Table.empty
  contexts := Table.empty
  tokens := Table.empty
  usageSequence := 13
  usage_ids := by decide
  sequence_bounded := by decide
  usage_refers := by decide
  context_refers _ hmem := (by cases hmem)
  token_refers _ hmem := (by cases hmem)

def sampleSource : StoreFederationSource := ⟨fun _ => sampleTables, [firstAccount], sampleMachine.name⟩

def sampleCrates : FederationCrates :=
  knownCrates [((2, ["9"]), "eyJwaGFzZSI6MiwidmFsdWVzIjpbIjkiXX0"), ((2, ["12"]), "eyJwaGFzZSI6MiwidmFsdWVzIjpbIjEyIl19")]

def sampleRequest (cursor : Option OpaqueCursor) : FederationRequest := ⟨firstAccount, sampleMachine.name, cursor, 3⟩

/-- The cursor after id 9. -/
def afterNine : OpaqueCursor := ⟨"v2.eyJwaGFzZSI6MiwidmFsdWVzIjpbIjkiXX0", by decide⟩

/-- The cursor after id 12. -/
def afterTwelve : OpaqueCursor := ⟨"v2.eyJwaGFzZSI6MiwidmFsdWVzIjpbIjEyIl19", by decide⟩

/-- Three ids on, the cursor is refused. -/
theorem twelve_after_nine : ∃ first second cursor, sampleSource.localPage sampleCrates (sampleRequest none) = .ok first ∧
    first.nextCursor = some cursor ∧ sampleSource.localPage sampleCrates (sampleRequest (some cursor)) = .ok second ∧
    validateCursorProgress sampleCrates (some cursor) second.nextCursor
        (second.records.map (·.send sampleSource.localMachine)) =
      .error ⟨.upstream, "Pulse federation cursor did not strictly advance"⟩ := by
  have hfirst : (fun page => page.nextCursor) <$> sampleSource.localPage sampleCrates (sampleRequest none) =
      .ok (some afterNine) := by decide +kernel
  have hsecond : (fun page => page.nextCursor) <$> sampleSource.localPage sampleCrates (sampleRequest (some afterNine)) =
      .ok (some afterTwelve) := by decide +kernel
  obtain ⟨first, hfirst, hnine⟩ := map_ok hfirst
  obtain ⟨second, hsecond, htwelve⟩ := map_ok hsecond
  refine ⟨first, second, afterNine, hfirst, hnine, hsecond, ?_⟩
  have hprior : parseExportCursor sampleCrates (some afterNine) = .ok (some ⟨2, ["9"], by decide⟩) := by decide +kernel
  have hnext : parseExportCursor sampleCrates (some afterTwelve) = .ok (some ⟨2, ["12"], by decide⟩) := by
    decide +kernel
  have hle : (⟨2, ["12"], by decide⟩ : FederationExportPosition) ≤ ⟨2, ["9"], by decide⟩ := by decide
  simp only [validateCursorProgress, htwelve, hprior, hnext, bind, Except.bind, Option.any_some, hle, decide_true, if_true]
  rfl

/-- The page after that is the last, so it would be accepted. -/
theorem thirteen_after_twelve : ∃ first second, sampleSource.localPage sampleCrates (sampleRequest (some afterNine)) =
      .ok first ∧ first.nextCursor = some afterTwelve ∧
    sampleSource.localPage sampleCrates (sampleRequest (some afterTwelve)) = .ok second ∧
    validateCursorProgress sampleCrates (some afterTwelve) second.nextCursor
      (second.records.map (·.send sampleSource.localMachine)) = .ok () := by
  have hfirst : (fun page => page.nextCursor) <$> sampleSource.localPage sampleCrates (sampleRequest (some afterNine)) =
      .ok (some afterTwelve) := by decide +kernel
  have hsecond : (fun page => page.nextCursor) <$>
      sampleSource.localPage sampleCrates (sampleRequest (some afterTwelve)) = .ok none := by decide +kernel
  have hlength : (fun rest => rest.length) <$> sampleSource.rest sampleCrates (sampleRequest (some afterTwelve)) =
      .ok 1 := by decide +kernel
  obtain ⟨first, hfirst, htwelve⟩ := map_ok hfirst
  obtain ⟨second, hsecond, -⟩ := map_ok hsecond
  obtain ⟨rest', hrest', hlength⟩ := map_ok hlength
  obtain ⟨rest, hrest, -⟩ := localPage_ok hfirst
  refine ⟨first, second, hfirst, htwelve, hsecond, ?_⟩
  refine (progress_accepted_iff (knownCrates_roundTrips (by decide) (by decide)) hfirst htwelve hsecond hrest
    hrest').mpr ?_
  rintro ⟨-, -, -, -, hmore, -⟩
  rw [hlength] at hmore
  exact absurd hmore (by decide)

end Atmux.Pulse
