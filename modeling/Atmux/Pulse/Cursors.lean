/-
How long the cursor of a row is.

A cursor is a position's JSON in base64, so its length is that of the key's
text with what JSON escapes in it. `cursor_usable`: every row has a cursor that
reads back, but a token row whose key is longer in JSON than a cursor holds.
-/
import Atmux.Lib.Base64
import Atmux.Pulse.Progress

namespace Atmux.Pulse

open Lib

/-! ## The text of a position -/

/-- A character in a JSON string, as `serde_json` writes it. -/
def jsonChar (c : Char) : List Char :=
  if c = '"' then ['\\', '"']
  else if c = '\\' then ['\\', '\\']
  else if c.toNat = 0x08 then ['\\', 'b']
  else if c.toNat = 0x09 then ['\\', 't']
  else if c.toNat = 0x0a then ['\\', 'n']
  else if c.toNat = 0x0c then ['\\', 'f']
  else if c.toNat = 0x0d then ['\\', 'r']
  else if c.toNat < 0x20 then ['\\', 'u', '0', '0', Nat.digitChar (c.toNat / 16), Nat.digitChar (c.toNat % 16)]
  else [c]

def jsonEscaped (value : String) : List Char := value.toList.flatMap jsonChar

def jsonString (value : String) : List Char := '"' :: jsonEscaped value ++ ['"']

/-- The items of an array after the first. -/
def jsonItems (values : List String) : List Char := values.flatMap fun value => ',' :: jsonString value

def jsonArray : List String → List Char
  | [] => "[]".toList
  | value :: values => '[' :: jsonString value ++ jsonItems values ++ [']']

def phaseName : List Char := "\x7b\"phase\":".toList

def valuesName : List Char := ",\"values\":".toList

/-- `serde_json::to_vec` of a position. -/
def positionJson (position : FederationExportPosition) : String :=
  String.ofList (phaseName ++ (toString position.phase).toList ++ valuesName ++ jsonArray position.values ++ ['}'])

def encodedPosition (position : FederationExportPosition) : String :=
  String.ofList (Base64.encode (positionJson position).toByteArray.data.toList)

/-- What the encoders make of a position, and that it reads back. -/
structure FederationCrates.Encodes (crates : FederationCrates) (position : FederationExportPosition) : Prop where
  encodes : crates.encodePosition position = encodedPosition position
  decodes : crates.decodePosition (crates.encodePosition position) = some (position.phase, position.values)

/-! ## Lengths -/

/-- The bytes of a text with each escape. -/
def escapedBytes (value : String) : Nat := Text.utf8Size (jsonEscaped value)

theorem utf8Size_append (a b : List Char) : Text.utf8Size (a ++ b) = Text.utf8Size a + Text.utf8Size b := by
  induction a with
  | nil => simp [Text.utf8Size]
  | cons c a ih =>
    rw [List.cons_append, Text.utf8Size, Text.utf8Size, ih]
    omega

theorem utf8Size_toList (value : String) : Text.utf8Size value.toList = value.utf8ByteSize := by
  rw [← Text.utf8ByteSize_eq, String.ofList_toList]

theorem utf8Size_jsonString (value : String) : Text.utf8Size (jsonString value) = escapedBytes value + 2 := by
  have hquote : Char.utf8Size '"' = 1 := rfl
  simp only [jsonString, List.cons_append, Text.utf8Size, utf8Size_append, escapedBytes, hquote]
  omega

/-- The bytes of a key's values, each with its quotes and comma. -/
def valuesBytes (values : List String) : Nat := values.foldr (fun value bytes => escapedBytes value + 3 + bytes) 0

theorem utf8Size_jsonItems (values : List String) :
    Text.utf8Size (jsonItems values) = valuesBytes values := by
  have hcomma : Char.utf8Size ',' = 1 := rfl
  induction values with
  | nil => rfl
  | cons value values ih =>
    rw [jsonItems] at ih ⊢
    rw [List.flatMap_cons, List.cons_append, Text.utf8Size, utf8Size_append, utf8Size_jsonString, ih, hcomma, valuesBytes,
      valuesBytes, List.foldr_cons]
    omega

/-- The bytes of a key's JSON: the names, the phase and the values. -/
theorem positionJson_size (position : FederationExportPosition) :
    (positionJson position).utf8ByteSize = 22 + valuesBytes position.values := by
  have hbounded := position.bounded
  simp only [not_or] at hbounded
  have hdigits : ∀ phase < 5, Text.utf8Size (toString phase).toList = 1 := by decide
  have hdigit := hdigits position.phase (by omega)
  have hopen : Text.utf8Size phaseName = 9 := by decide
  have hnames : Text.utf8Size valuesName = 10 := by decide
  have hbracket : Char.utf8Size '[' = 1 := rfl
  have hclose : Text.utf8Size [']'] = 1 := rfl
  have hbrace : Text.utf8Size ['}'] = 1 := rfl
  rw [positionJson, Text.utf8ByteSize_eq, utf8Size_append, utf8Size_append, utf8Size_append, utf8Size_append, hopen, hdigit,
    hnames, hbrace]
  cases hvalues : position.values with
  | nil => exact absurd hvalues hbounded.2.1
  | cons value values =>
    rw [jsonArray, List.cons_append, List.cons_append, Text.utf8Size, utf8Size_append, utf8Size_append,
      utf8Size_jsonString, utf8Size_jsonItems, hbracket, hclose]
    simp only [valuesBytes, List.foldr_cons]
    omega

/-! ## Cursors -/

section
variable {crates : FederationCrates} {position : FederationExportPosition}

theorem encodedPosition_size (position : FederationExportPosition) :
    (encodedPosition position).utf8ByteSize = (4 * (positionJson position).utf8ByteSize + 2) / 3 := by
  have hone : ∀ c ∈ Base64.alphabet, c.utf8Size = 1 := by decide
  have hbytes : ∀ text : String, text.toByteArray.data.toList.length = text.utf8ByteSize := fun _ => rfl
  rw [encodedPosition, Text.utf8ByteSize_ofList fun c hc => hone c (Base64.mem_encode hc), Base64.length_encode, hbytes]

theorem encodedPosition_urlSafe (position : FederationExportPosition) :
    (encodedPosition position).toList.all isUrlSafe = true := by
  have hall : ∀ c ∈ Base64.alphabet, isUrlSafe c = true := by decide
  rw [encodedPosition, String.toList_ofList, List.all_eq_true]
  exact fun c hc => hall c (Base64.mem_encode hc)

/-- A cursor holds 1533 bytes of JSON. -/
theorem exportCursor_ok (h : crates.Encodes position) :
    (∃ cursor, exportCursor crates position = .ok cursor) ↔ 22 + valuesBytes position.values ≤ 1533 := by
  have hsize : ("v2." ++ crates.encodePosition position).utf8ByteSize =
      3 + (4 * (22 + valuesBytes position.values) + 2) / 3 := by
    rw [String.utf8ByteSize_append, h.encodes, encodedPosition_size, positionJson_size]
    rfl
  have hsafe : ("v2." ++ crates.encodePosition position).toList.all isUrlSafe = true := by
    rw [String.toList_append, List.all_append, h.encodes, encodedPosition_urlSafe]
    rfl
  have hne : "v2." ++ crates.encodePosition position ≠ "" := by
    intro heq
    rw [heq] at hsize
    have hzero : ("" : String).utf8ByteSize = 0 := rfl
    omega
  constructor
  · intro ⟨cursor, hcursor⟩
    rw [exportCursor, OpaqueCursor.new] at hcursor
    split at hcursor
    · cases hcursor
    next hvalid =>
      simp only [maxCursorBytes, not_or] at hvalid
      omega
  · intro hfits
    rw [exportCursor, OpaqueCursor.new, dif_neg]
    · exact ⟨_, rfl⟩
    · simp only [maxCursorBytes, not_or, not_not]
      exact ⟨hne, by omega, hsafe⟩

end

/-! ## Rows -/

/-- What the store's validation admits. A snapshot's id is an `i64`. -/
def LocalRow.Admitted (crates : Crates) : LocalRow → Prop
  | .machine _ => True
  | .profile row => row.validate = .ok ()
  | .usage row => row.id < 2 ^ 63
  | .context row => row.validate = .ok ()
  | .token row => row.validate crates = .ok ()

/-- A token row whose key a cursor holds: its texts, with one byte more for
each quote and backslash in them, are at most 1429 bytes. -/
def LocalRow.Fits : LocalRow → Prop
  | .token row =>
    row.day.utf8ByteSize ≤ 512 ∧
      escapedBytes row.profile.value + escapedBytes row.sessionId.value + escapedBytes row.model + escapedBytes row.day +
        escapedBytes row.source.json ≤ 1429
  | _ => True

theorem utf8Size_jsonChar {c : Char} (h : isControl c = false) : Text.utf8Size (jsonChar c) ≤ 2 * c.utf8Size := by
  have hpos := c.utf8Size_pos
  simp only [isControl, Bool.or_eq_false_iff, decide_eq_false_iff_not] at h
  have hquote : Text.utf8Size ['\\', '"'] = 2 := rfl
  have hslash : Text.utf8Size ['\\', '\\'] = 2 := rfl
  have hself : Text.utf8Size [c] = c.utf8Size := rfl
  unfold jsonChar
  repeat' split
  all_goals omega

theorem escapedBytes_le {value : String} (h : value.toList.any isControl = false) :
    escapedBytes value ≤ 2 * value.utf8ByteSize := by
  rw [escapedBytes, jsonEscaped, ← utf8Size_toList]
  generalize value.toList = text at h ⊢
  induction text with
  | nil => rfl
  | cons c text ih =>
    rw [List.any_cons, Bool.or_eq_false_iff] at h
    have hc := utf8Size_jsonChar h.1
    have htext := ih h.2
    rw [List.flatMap_cons, utf8Size_append, Text.utf8Size]
    omega

theorem ValidatedString.escapedBytes_le {label : String} {maxBytes : Nat} (id : ValidatedString label maxBytes) :
    escapedBytes id.value ≤ 2 * maxBytes ∧ id.value.utf8ByteSize ≤ maxBytes := by
  obtain ⟨-, hsize, -, hcontrol⟩ := validateText_ok.mp id.valid
  have hescaped := Pulse.escapedBytes_le hcontrol
  exact ⟨by omega, hsize⟩

def isLowerHex (c : Char) : Bool := c.isDigit || ('a' ≤ c && c ≤ 'f')

theorem jsonChar_hex {c : Char} (h : isLowerHex c = true) : jsonChar c = [c] := by
  have hlow : ∀ n < 32, isLowerHex (Char.ofNat n) = false := by decide
  have hvisible : 32 ≤ c.toNat := by
    by_contra hlt
    have hno := hlow c.toNat (by omega)
    rw [Char.ofNat_toNat, h] at hno
    cases hno
  have hquote : c ≠ '"' := fun heq => absurd (heq ▸ h) (by decide)
  have hslash : c ≠ '\\' := fun heq => absurd (heq ▸ h) (by decide)
  rw [jsonChar, if_neg hquote, if_neg hslash, if_neg (by omega), if_neg (by omega), if_neg (by omega), if_neg (by omega),
    if_neg (by omega), if_neg (by omega)]

/-- Digits are written as they are. -/
theorem escapedBytes_hex {value : String} (h : ∀ c ∈ value.toList, isLowerHex c = true) :
    escapedBytes value = value.utf8ByteSize := by
  have hself : value.toList.flatMap jsonChar = value.toList := by
    rw [List.flatMap_congr fun c hc => jsonChar_hex (h c hc), List.flatMap_singleton']
  rw [escapedBytes, jsonEscaped, hself, utf8Size_toList]

theorem escapedBytes_id {id : Nat} (h : id < 2 ^ 63) : escapedBytes (toString id) ≤ 19 ∧ (toString id).utf8ByteSize ≤ 19 := by
  have hdigits : ∀ c ∈ (toString id).toList, c.isDigit = true := fun c hc => Text.isDigit_toString hc
  have hlength : (toString id).toList.length ≤ 19 := (Nat.length_repr_le_iff (by omega)).mpr (by omega)
  have hone : ∀ c ∈ (toString id).toList, c.utf8Size = 1 := by
    have hall : ∀ n < 58, (Char.ofNat n).utf8Size = 1 := by decide
    intro c hc
    have hsize := hall c.toNat (Nat.lt_succ_of_le (Char.isDigit_iff_toNat.mp (hdigits c hc)).2)
    rwa [Char.ofNat_toNat] at hsize
  have hsize : (toString id).utf8ByteSize = (toString id).toList.length := by
    rw [← Text.utf8ByteSize_ofList hone, String.ofList_toList]
  rw [escapedBytes_hex fun c hc => by rw [isLowerHex, hdigits c hc, Bool.true_or]]
  omega

theorem new_ok {phase : Nat} {values : List String} :
    (∃ position, FederationExportPosition.new phase values = .ok position) ↔
      phase ≤ 4 ∧ values ≠ [] ∧ values.length ≤ 8 ∧ ∀ value ∈ values, value.utf8ByteSize ≤ 512 := by
  rw [FederationExportPosition.new]
  split
  next hbad =>
    refine ⟨fun h => (by obtain ⟨_, h⟩ := h; cases h), fun h => ?_⟩
    obtain ⟨hphase, hne, hlength, hvalues⟩ := h
    rcases hbad with hbad | hbad | hbad | hbad
    · omega
    · exact absurd hbad hne
    · omega
    · obtain ⟨value, hmem, hlong⟩ := List.any_eq_true.mp hbad
      have hshort := hvalues value hmem
      simp only [decide_eq_true_eq] at hlong
      omega
  next hgood =>
    refine ⟨fun _ => ?_, fun _ => ⟨_, rfl⟩⟩
    simp only [not_or, List.any_eq_true, decide_eq_true_eq, not_exists, not_and] at hgood
    exact ⟨by omega, hgood.2.1, by omega, fun value hmem => Nat.le_of_not_lt (hgood.2.2.2 value hmem)⟩

theorem TokenGrain.sizes {crates : Crates} {grain : TokenGrain} (h : grain.validate crates = .ok ()) :
    grain.model.utf8ByteSize ≤ 512 ∧ grain.settingsHash.utf8ByteSize = 64 ∧ escapedBytes grain.settingsHash = 64 ∧
      grain.source.json.utf8ByteSize ≤ 512 := by
  obtain ⟨hmodel, -, hhash⟩ := TokenGrain.validate_ok.mp h
  have hhex := AgentSettings.isSha256Hex_sha256 crates grain.settings
  rw [← hhash, isSha256Hex, Bool.and_eq_true, beq_iff_eq, List.all_eq_true] at hhex
  have hmodelSize := (validateText_ok.mp hmodel).2.1
  have hsource : grain.source.json.utf8ByteSize ≤ 512 := by cases grain.source <;> decide
  refine ⟨?_, hhex.1, ?_, hsource⟩
  · simp only [maxModelNameBytes] at hmodelSize
    omega
  · rw [escapedBytes_hex hhex.2, hhex.1]

/-- The values of an admitted row are of a position's length, but a token's
day may be longer. -/
theorem LocalRow.Admitted.new {crates : Crates} {row : LocalRow} (h : row.Admitted crates) :
    (∃ position, FederationExportPosition.new row.phase row.values = .ok position) ↔
      ∀ grain, row = .token grain → grain.day.utf8ByteSize ≤ 512 := by
  rw [new_ok]
  cases row with
  | machine row =>
    have hname := row.name.escapedBytes_le.2
    simp [LocalRow.phase, LocalRow.values]
    omega
  | profile row =>
    have hname := row.name.escapedBytes_le.2
    simp [LocalRow.phase, LocalRow.values]
    omega
  | usage row =>
    have hid := (escapedBytes_id h).2
    refine ⟨fun _ grain hgrain => (by cases hgrain), fun _ => ⟨by simp [LocalRow.phase], by simp [LocalRow.values],
      by simp [LocalRow.values], ?_⟩⟩
    intro value hvalue
    obtain rfl := List.mem_singleton.mp hvalue
    omega
  | context row =>
    have hprofile := row.profile.escapedBytes_le.2
    have hsession := row.sessionId.escapedBytes_le.2
    simp [LocalRow.phase, LocalRow.values]
    omega
  | token row =>
    have hprofile := row.profile.escapedBytes_le.2
    have hsession := row.sessionId.escapedBytes_le.2
    obtain ⟨hmodel, hhash, -, hsource⟩ := TokenGrain.sizes h
    simp [LocalRow.phase, LocalRow.values]
    omega

/-- What the cursor of an admitted row takes. -/
theorem LocalRow.Admitted.valuesBytes {crates : Crates} {row : LocalRow} (h : row.Admitted crates)
    (hday : ∀ grain, row = .token grain → grain.day.utf8ByteSize ≤ 512) :
    22 + Pulse.valuesBytes row.values ≤ 1533 ↔ row.Fits := by
  cases row with
  | machine row =>
    have hname := row.name.escapedBytes_le.1
    simp only [LocalRow.values, Pulse.valuesBytes, List.foldr_cons, List.foldr_nil, LocalRow.Fits, iff_true]
    omega
  | profile row =>
    have hname := row.name.escapedBytes_le.1
    simp only [LocalRow.values, Pulse.valuesBytes, List.foldr_cons, List.foldr_nil, LocalRow.Fits, iff_true]
    omega
  | usage row =>
    have hid := (escapedBytes_id h).1
    simp only [LocalRow.values, Pulse.valuesBytes, List.foldr_cons, List.foldr_nil, LocalRow.Fits, iff_true]
    omega
  | context row =>
    have hprofile := row.profile.escapedBytes_le.1
    have hsession := row.sessionId.escapedBytes_le.1
    simp only [LocalRow.values, Pulse.valuesBytes, List.foldr_cons, List.foldr_nil, LocalRow.Fits, iff_true]
    omega
  | token row =>
    have hhash := (TokenGrain.sizes h).2.2.1
    simp only [LocalRow.values, Pulse.valuesBytes, List.foldr_cons, List.foldr_nil, LocalRow.Fits, hhash,
      hday row rfl, true_and]
    omega

/-- The row's cursor is made, and reads back. -/
def LocalRow.Usable (federation : FederationCrates) (row : LocalRow) : Prop :=
  ∃ position cursor, FederationExportPosition.new row.phase row.values = .ok position ∧
    exportCursor federation position = .ok cursor ∧ parseExportCursor federation (some cursor) = .ok (some position)

def LocalRow.Encodes (federation : FederationCrates) (row : LocalRow) : Prop :=
  ∀ position, FederationExportPosition.new row.phase row.values = .ok position → federation.Encodes position

theorem new_position {phase : Nat} {values : List String} {position : FederationExportPosition}
    (h : FederationExportPosition.new phase values = .ok position) : position.phase = phase ∧ position.values = values := by
  rw [FederationExportPosition.new] at h
  split at h
  · cases h
  · obtain rfl := Except.ok.inj h
    exact ⟨rfl, rfl⟩

theorem usable_iff {crates : Crates} {federation : FederationCrates} {row : LocalRow} (hadmitted : row.Admitted crates)
    (hencodes : row.Encodes federation) : row.Usable federation ↔ row.Fits := by
  constructor
  · intro ⟨position, cursor, hposition, hcursor, _⟩
    have hday := hadmitted.new.mp ⟨position, hposition⟩
    have hsize := (exportCursor_ok (hencodes position hposition)).mp ⟨cursor, hcursor⟩
    rw [(new_position hposition).2] at hsize
    exact (hadmitted.valuesBytes hday).mp hsize
  · intro hfits
    have hday : ∀ grain, row = .token grain → grain.day.utf8ByteSize ≤ 512 := by
      rintro grain rfl
      exact hfits.1
    obtain ⟨position, hposition⟩ := hadmitted.new.mpr hday
    have hsize := (hadmitted.valuesBytes hday).mpr hfits
    rw [← (new_position hposition).2] at hsize
    obtain ⟨cursor, hcursor⟩ := (exportCursor_ok (hencodes position hposition)).mpr hsize
    exact ⟨position, cursor, hposition, hcursor,
      parseExportCursor_exportCursor (hencodes position hposition).decodes hcursor⟩

/-! ## A page -/

theorem mapM_exists {α β ε : Type} {f : α → Except ε β} {l : List α} (h : ∀ a ∈ l, ∃ b, f a = .ok b) :
    ∃ l', l.mapM f = .ok l' := by
  induction l with
  | nil => exact ⟨[], rfl⟩
  | cons a l ih =>
    obtain ⟨b, hb⟩ := h a List.mem_cons_self
    obtain ⟨l', hl'⟩ := ih fun a ha => h a (List.mem_cons_of_mem _ ha)
    refine ⟨b :: l', ?_⟩
    rw [List.mapM_cons, hb, hl']
    rfl

theorem LocalRow.Usable.record {federation : FederationCrates} {row : LocalRow} (h : row.Usable federation) :
    ∃ record, row.record federation = .ok record := by
  obtain ⟨position, _, hposition, _⟩ := h
  refine ⟨.new federation position row.exported, ?_⟩
  rw [LocalRow.record, hposition]
  rfl

theorem LocalRow.Usable.cursor {federation : FederationCrates} {row : LocalRow} {record : LocalFederationRecord}
    (h : row.Usable federation) (hrecord : row.record federation = .ok record) :
    ∃ cursor, exportCursor federation record.position = .ok cursor := by
  obtain ⟨position, cursor, hposition, hcursor, _⟩ := h
  rw [LocalRow.record, hposition] at hrecord
  obtain rfl := Except.ok.inj hrecord
  exact ⟨cursor, hcursor⟩

/-- A page of rows that have cursors is served. -/
theorem localPage_served {federation : FederationCrates} {source : StoreFederationSource} {request : FederationRequest}
    {rest : List LocalRow} (haccount : request.accountId ∈ source.accounts) (hmachine : request.machine = source.localMachine)
    (hlimit : request.limit ≤ maxPageRows) (hrest : source.rest federation request = .ok rest)
    (husable : ∀ row ∈ rest, row.Usable federation) : ∃ page, source.localPage federation request = .ok page := by
  simp only [StoreFederationSource.rest, StoreFederationSource.localPage, bind, Except.bind, pure, Except.pure] at hrest ⊢
  rw [if_neg (by simp [haccount, hmachine])]
  cases hafter : parseExportCursor federation request.cursor with
  | error e =>
    rw [hafter] at hrest
    cases hrest
  | ok after =>
    rw [hafter] at hrest
    simp only at hrest ⊢
    cases hbound : cursorOrder after with
    | error e =>
      rw [hbound] at hrest
      cases hrest
    | ok bound =>
      rw [hbound] at hrest
      obtain rfl := Except.ok.inj hrest
      have hrows := fun row (hrow : row ∈ (rowsAfter (source.store request.accountId) source.localMachine bound).take
        (request.limit + 1)) => husable row (List.mem_of_mem_take hrow)
      obtain ⟨page, hpage⟩ := mapM_exists fun row hrow => (hrows row hrow).record
      have hquery : federationQueryLimit (request.limit + 1) = .ok (request.limit + 1) := by
        rw [federationQueryLimit, if_neg (by omega)]
      have hlocal : localFederationPage (source.store request.accountId) source.localMachine after federation
          (request.limit + 1) = .ok page := by
        rw [localFederationPage_eq, hquery]
        show (cursorOrder after >>= _) = _
        rw [hbound]
        exact hpage
      have hlast : ∃ next, (page.take request.limit).getLast?.mapM
          (fun record => exportCursor federation record.position) = .ok next := by
        cases hgetLast : (page.take request.limit).getLast? with
        | none => exact ⟨none, rfl⟩
        | some record =>
          have hmem := List.mem_of_mem_take (List.mem_of_getLast? hgetLast)
          obtain ⟨row, hrow, hrecord⟩ := exists_of_forall₂ (List.Forall₂.flip (mapM_ok hpage)) hmem
          obtain ⟨cursor, hcursor⟩ := (hrows row hrow).cursor hrecord
          exact ⟨some cursor, by rw [Option.mapM_some, hcursor]; rfl⟩
      obtain ⟨next, hnext⟩ := hlast
      rw [hlocal]
      simp only
      split
      · rw [hnext]
        exact ⟨_, rfl⟩
      · exact ⟨_, rfl⟩

/-- **Every row has a cursor that reads back**, but a token row whose key takes
more than a cursor holds; and a page of rows that have one is served. -/
theorem cursor_usable (crates : Crates) (federation : FederationCrates) :
    (∀ row : LocalRow, row.Admitted crates → row.Encodes federation → (row.Usable federation ↔ row.Fits)) ∧
      ∀ (source : StoreFederationSource) (request : FederationRequest) (rest : List LocalRow),
        request.accountId ∈ source.accounts → request.machine = source.localMachine → request.limit ≤ maxPageRows →
        source.rest federation request = .ok rest →
        (∀ row ∈ rest, row.Admitted crates ∧ row.Encodes federation ∧ row.Fits) →
        ∃ page, source.localPage federation request = .ok page := by
  refine ⟨fun row hadmitted hencodes => usable_iff hadmitted hencodes, ?_⟩
  intro source request rest haccount hmachine hlimit hrest hfits
  refine localPage_served haccount hmachine hlimit hrest fun row hrow => ?_
  obtain ⟨hadmitted, hencodes, hfit⟩ := hfits row hrow
  exact (usable_iff hadmitted hencodes).mpr hfit

/-! ## A key of quotes -/

def quotes (n : Nat) : String := String.ofList (List.replicate n '"')

theorem utf8ByteSize_quotes (n : Nat) : (quotes n).utf8ByteSize = n := by
  have hone : ∀ c ∈ List.replicate n '"', c.utf8Size = 1 := by
    intro c hc
    obtain rfl := List.eq_of_mem_replicate hc
    rfl
  rw [quotes, Text.utf8ByteSize_ofList hone, List.length_replicate]

theorem escapedBytes_quotes (n : Nat) : escapedBytes (quotes n) = 2 * n := by
  have hquote : Text.utf8Size (jsonChar '"') = 2 := by decide
  rw [escapedBytes, jsonEscaped, quotes, String.toList_ofList]
  induction n with
  | zero => rfl
  | succ n ih =>
    rw [List.replicate_succ, List.flatMap_cons, utf8Size_append, ih, hquote]
    omega

/-- A text of quotes is as good as any. -/
theorem validateText_quotes (label : String) {n maxBytes : Nat} (hpos : 0 < n) (hmax : n ≤ maxBytes) :
    validateText label (quotes n) maxBytes = .ok () := by
  have hchars : ∀ c ∈ List.replicate n '"', Text.isWhitespace c = false ∧ isControl c = false := by
    intro c hc
    obtain rfl := List.eq_of_mem_replicate hc
    decide
  refine validateText_ok.mpr ⟨?_, ?_, ?_, ?_⟩
  · intro heq
    have hsize := utf8ByteSize_quotes n
    rw [heq] at hsize
    have hzero : ("" : String).utf8ByteSize = 0 := rfl
    omega
  · rwa [utf8ByteSize_quotes]
  · rw [quotes, String.toList_ofList, Text.trim]
    have hdrop : (List.replicate n '"').dropWhile Text.isWhitespace = List.replicate n '"' := by
      cases n with
      | zero => rfl
      | succ n => rfl
    rw [hdrop, Text.trimEnd_eq_self]
    exact fun c hc => (hchars c (List.mem_of_getLast? hc)).1
  · rw [quotes, String.toList_ofList, List.any_eq_false]
    intro c hc
    simp [(hchars c hc).2]

def dayCrates : Crates := ⟨fun _ => Vector.replicate 32 0, fun _ => none⟩

def noSettings : AgentSettings := { serviceTier := none, effort := none, additional := .empty }

/-- A session's tokens on a day, filed under these names. -/
def keyedGrain (profile : ProfileName) (sessionId : SessionId) (model : String) : TokenGrain where
  accountId := firstAccount
  profile := profile
  machine := laptop
  sessionId := sessionId
  model := model
  settings := noSettings
  settingsHash := noSettings.sha256 dayCrates
  day := "2026-08-04"
  tokensIn := 1
  tokensOut := 0
  cacheWrite5m := 0
  cacheWrite1h := 0
  cacheRead := 0
  source := .local

def quotedGrain : TokenGrain :=
  keyedGrain ⟨quotes 128, validateText_quotes _ (by omega) (by omega)⟩ ⟨quotes 512, validateText_quotes _ (by omega) (by omega)⟩
    (quotes 256)

/-- Encoders that read one row's position back. -/
def rowCrates (row : LocalRow) : FederationCrates where
  encodePosition := encodedPosition
  decodePosition _ := some (row.phase, row.values)
  recordDigest _ _ := ""
  rowDigest _ := ""

theorem rowCrates_encodes (row : LocalRow) : row.Encodes (rowCrates row) := by
  intro position hposition
  obtain ⟨hphase, hvalues⟩ := new_position hposition
  refine ⟨rfl, ?_⟩
  rw [hphase, hvalues]
  rfl

theorem keyedGrain_admitted {profile : ProfileName} {sessionId : SessionId} {model : String}
    (hmodel : validateText "model" model maxModelNameBytes = .ok ()) :
    (LocalRow.token (keyedGrain profile sessionId model)).Admitted dayCrates :=
  TokenGrain.validate_ok.mpr ⟨hmodel, rfl, rfl⟩

/-- The row of a short key has a cursor. -/
theorem cursor_usable_example :
    let row := LocalRow.token (keyedGrain workProfile ⟨"s-1", by decide⟩ "opus")
    row.Usable (rowCrates row) ↔ row.Fits :=
  (cursor_usable dayCrates _).1 _ (keyedGrain_admitted (by decide)) (rowCrates_encodes _)

/-- Names of quotes, each of its greatest length, make a position that has no
cursor. -/
theorem quoted_key_unusable :
    (LocalRow.token quotedGrain).Admitted dayCrates ∧
      (∃ position, FederationExportPosition.new 4 (LocalRow.token quotedGrain).values = .ok position) ∧
      ¬ (LocalRow.token quotedGrain).Usable (rowCrates (.token quotedGrain)) := by
  have hadmitted : (LocalRow.token quotedGrain).Admitted dayCrates :=
    keyedGrain_admitted (validateText_quotes _ (by omega) (by decide))
  have hday : ∀ grain, LocalRow.token quotedGrain = .token grain → grain.day.utf8ByteSize ≤ 512 := by
    rintro grain ⟨rfl⟩
    decide
  refine ⟨hadmitted, hadmitted.new.mpr hday, fun husable => ?_⟩
  have hfits : escapedBytes quotedGrain.profile.value + escapedBytes quotedGrain.sessionId.value +
      escapedBytes quotedGrain.model + escapedBytes quotedGrain.day + escapedBytes quotedGrain.source.json ≤ 1429 :=
    ((usable_iff hadmitted (rowCrates_encodes _)).mp husable).2
  have hprofile : quotedGrain.profile.value = quotes 128 := rfl
  have hsession : quotedGrain.sessionId.value = quotes 512 := rfl
  have hmodel : quotedGrain.model = quotes 256 := rfl
  rw [hprofile, hsession, hmodel, escapedBytes_quotes, escapedBytes_quotes, escapedBytes_quotes] at hfits
  omega

end Atmux.Pulse
