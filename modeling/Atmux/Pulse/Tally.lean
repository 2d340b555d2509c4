/-
Token events added up per key, whole or page by page.

A paged tally keeps the least keys above `after`, and drops the greatest when
a new key finds no room. `tallyPages` asks for page after page, each from the
last key of the one before, over the same events.
-/
import Mathlib.Data.Finset.Insert
import Mathlib.Data.Prod.Lex
import Atmux.Pulse.Model

namespace Atmux.Pulse

open Lib

/-! ## Keys -/

structure FineKey where
  day : String
  session : String
  model : String
  settingsHash : String
deriving DecidableEq, Repr

/-- The derived order: the fields in turn. -/
def FineKey.fields (key : FineKey) : String ×ₗ String ×ₗ String ×ₗ String :=
  toLex (key.day, toLex (key.session, toLex (key.model, key.settingsHash)))

theorem FineKey.fields_injective : Function.Injective FineKey.fields := by
  rintro ⟨day, session, model, hash⟩ ⟨day', session', model', hash'⟩ h
  obtain ⟨hday, hrest⟩ := Prod.mk.inj (toLex.injective h)
  obtain ⟨hsession, hrest⟩ := Prod.mk.inj (toLex.injective hrest)
  obtain ⟨hmodel, hhash⟩ := Prod.mk.inj (toLex.injective hrest)
  exact (FineKey.mk.injEq ..).mpr ⟨hday, hsession, hmodel, hhash⟩

instance : LinearOrder FineKey := LinearOrder.lift' FineKey.fields FineKey.fields_injective

def TokenGrain.key (grain : TokenGrain) : FineKey := ⟨grain.day, grain.sessionId.value, grain.model, grain.settingsHash⟩

/-- Stable keyset position for a full-history local token page. -/
structure TokenTallyCursor where
  day : String
  sessionId : String
  model : String
  settingsHash : String
  source : TokenSource
deriving DecidableEq, Repr

namespace TokenTallyCursor

variable (crates : Crates)

def fromGrain (grain : TokenGrain) : TokenTallyCursor where
  day := grain.day
  sessionId := grain.sessionId.value
  model := grain.model
  settingsHash := grain.settingsHash
  source := grain.source

def validate (cursor : TokenTallyCursor) : PulseResult Unit := do
  if let some error := crates.dateError cursor.day then
    throw (.invalidInput ("invalid tally day: " ++ error))
  let _ ← ValidatedString.new "session id" 512 cursor.sessionId
  if cursor.model = "" ∨ maxModelNameBytes < cursor.model.utf8ByteSize ∨ cursor.model.toList.any isControl ∨
      ¬ isSha256Hex cursor.settingsHash ∨ cursor.source ≠ .local then
    throw (.invalidInput "Pulse token tally cursor is invalid")

def fineKey (cursor : TokenTallyCursor) : PulseResult FineKey := do
  cursor.validate crates
  pure ⟨cursor.day, cursor.sessionId, cursor.model, cursor.settingsHash⟩

end TokenTallyCursor

/-! ## Adding up -/

structure EventDimensions where
  day : String
  session : String
  model : String
  settings : AgentSettings

structure TokenDelta where
  input : Nat := 0
  output : Nat := 0
  cacheWrite5m : Nat := 0
  cacheWrite1h : Nat := 0
  cacheRead : Nat := 0

/-- The arguments of one `add`. -/
structure TokenEvent where
  dimensions : EventDimensions
  delta : TokenDelta
  dedupeKey : Option String

def tallyOverflowed : PulseError := .invalidInput "token tally overflowed"

def checkedAdd (left right : Nat) : PulseResult Nat :=
  if left + right < 2 ^ 64 then .ok (left + right) else .error tallyOverflowed

/-- A row with one more event's tokens. -/
def TokenGrain.addDelta (row : TokenGrain) (delta : TokenDelta) : PulseResult TokenGrain := do
  let tokensIn ← checkedAdd row.tokensIn delta.input
  let tokensOut ← checkedAdd row.tokensOut delta.output
  let cacheWrite5m ← checkedAdd row.cacheWrite5m delta.cacheWrite5m
  let cacheWrite1h ← checkedAdd row.cacheWrite1h delta.cacheWrite1h
  let cacheRead ← checkedAdd row.cacheRead delta.cacheRead
  pure { row with tokensIn, tokensOut, cacheWrite5m, cacheWrite1h, cacheRead }

/-- `saturating_add(1)` on a count. -/
def countOne (count : Nat) : Nat := min (count + 1) (2 ^ 64 - 1)

structure FineTally where
  accountId : AccountId
  profile : ProfileName
  machine : MachineName
  rows : SortedMap FineKey TokenGrain
  seen : Finset String
  maxRows : Nat
  after : Option FineKey
  paged : Bool
  truncated : Bool
  duplicateEvents : Nat
  malformedEvents : Nat
deriving DecidableEq

/-- What a tally takes from its profile. -/
structure TallyScope where
  accountId : AccountId
  profile : ProfileName
  machine : MachineName

namespace FineTally

variable (crates : Crates)

def new (scope : TallyScope) (maxRows : Nat) (after : Option FineKey) (paged : Bool) : FineTally where
  accountId := scope.accountId
  profile := scope.profile
  machine := scope.machine
  rows := .empty
  seen := ∅
  maxRows := maxRows
  after := after
  paged := paged
  truncated := false
  duplicateEvents := 0
  malformedEvents := 0

/-- The row a key gets with its first event. -/
def firstRow (tally : FineTally) (sessionId : SessionId) (dimensions : EventDimensions) : TokenGrain where
  accountId := tally.accountId
  profile := tally.profile
  machine := tally.machine
  sessionId := sessionId
  model := dimensions.model
  settings := dimensions.settings
  settingsHash := dimensions.settings.sha256 crates
  day := dimensions.day
  tokensIn := 0
  tokensOut := 0
  cacheWrite5m := 0
  cacheWrite1h := 0
  cacheRead := 0
  source := .local

/-- `entry(key).or_insert_with(first)`, and the delta added. -/
def addToRow (tally : FineTally) (first : TokenGrain) (delta : TokenDelta) : PulseResult FineTally := do
  let row ← ((tally.rows.find? first.key).getD first).addDelta delta
  pure { tally with rows := tally.rows.insert first.key row }

/-- An event whose dimensions are well formed. -/
def addRow (tally : FineTally) (first : TokenGrain) (delta : TokenDelta) : PulseResult FineTally :=
  if tally.after.any fun after => decide (first.key ≤ after) then .ok tally
  else if !tally.rows.contains first.key && decide (tally.maxRows ≤ tally.rows.size) then
    if !tally.paged then .error ⟨.storage, "token tally exceeded its output row bound"⟩
    else if tally.rows.last?.any fun last => decide (first.key < last.1) then
      { tally with truncated := true, rows := tally.rows.popLast }.addToRow first delta
    else .ok { tally with truncated := true }
  else tally.addToRow first delta

def add (tally : FineTally) (event : TokenEvent) : PulseResult FineTally :=
  if event.dedupeKey.any fun key => decide (key ∈ tally.seen) then
    .ok { tally with duplicateEvents := countOne tally.duplicateEvents }
  else
    let tally := { tally with seen := event.dedupeKey.elim tally.seen fun key => insert key tally.seen }
    match ValidatedString.new "session id" 512 event.dimensions.session,
        validateText "model" event.dimensions.model maxModelNameBytes with
    | .ok sessionId, .ok () => tally.addRow (tally.firstRow crates sessionId event.dimensions) event.delta
    | _, _ => .ok { tally with malformedEvents := countOne tally.malformedEvents }

def addAll (tally : FineTally) (events : List TokenEvent) : PulseResult FineTally := events.foldlM (add crates) tally

/-- The rows in order, each validated. -/
def finish (tally : FineTally) : PulseResult (List TokenGrain × Bool) := do
  let rows ← tally.rows.values.mapM fun grain => do
    grain.validate crates
    pure grain
  pure (rows, tally.truncated)

end FineTally

/-! ## Pages -/

/-- Largest row bound one tally may request. -/
def defaultMaxRows : Nat := 5000

def validateOptions (maxRows : Nat) : PulseResult Unit :=
  if maxRows = 0 ∨ defaultMaxRows < maxRows then
    .error (.invalidInput ("token tally max_rows must be between 1 and " ++ toString defaultMaxRows))
  else .ok ()

structure TokenTallyPage where
  grains : List TokenGrain
  nextCursor : Option TokenTallyCursor
  complete : Bool

/-- One page over the events of an unchanged source. -/
def tallyProfilePage (crates : Crates) (scope : TallyScope) (events : List TokenEvent) (after : Option TokenTallyCursor)
    (maxRows : Nat) : PulseResult TokenTallyPage := do
  validateOptions maxRows
  let afterKey ← after.mapM (TokenTallyCursor.fineKey crates)
  let tally ← (FineTally.new scope maxRows afterKey true).addAll crates events
  let (grains, truncated) ← tally.finish crates
  pure { grains, nextCursor := grains.getLast?.map .fromGrain, complete := !truncated }

/-- Pages up to the first complete one, `fuel` at most. -/
def tallyPages (crates : Crates) (scope : TallyScope) (events : List TokenEvent) (maxRows : Nat) :
    Nat → Option TokenTallyCursor → PulseResult (List TokenTallyPage)
  | 0, _ => .ok []
  | fuel + 1, after => do
    let page ← tallyProfilePage crates scope events after maxRows
    if page.complete then pure [page]
    else
      let pages ← tallyPages crates scope events maxRows fuel page.nextCursor
      pure (page :: pages)

end Atmux.Pulse
