/-
The event stream as the node at the other end writes it.

An event of `event` is four lines of UTF-8 text, its name, its id, its data and
a blank one, and between events the server writes comments to keep the
connection open. `decodeStream_sent` says that the decoder reads back the events
and nothing else, and `decoded_prefix` that what has arrived of the stream,
wherever it is cut, says the first of them.
-/
import Mathlib.Data.List.Basic
import Atmux.Sse

namespace Atmux.Sse

open Lib

/-! ## Text as bytes -/

/-- `str::as_bytes`. -/
def utf8 (text : String) : List UInt8 := text.toList.flatMap String.utf8EncodeChar

theorem utf8_append (left right : String) : utf8 (left ++ right) = utf8 left ++ utf8 right := by
  simp [utf8, String.toList_append]

theorem toNat_byte {n : Nat} (h : n < 256) : (UInt8.ofNat n).toNat = n := by
  rw [UInt8.toNat_ofNat']
  omega

theorem isContinuation_byte (n : Nat) : isContinuation (UInt8.ofNat (n % 64 + 0x80)) = true := by
  have hbyte : (UInt8.ofNat (n % 64 + 0x80)).toNat = n % 64 + 0x80 := toNat_byte (by omega)
  simp only [isContinuation, Bool.and_eq_true, decide_eq_true_eq, UInt8.le_iff_toNat_le, hbyte]
  exact ⟨by show 128 ≤ _; omega, by show _ ≤ 191; omega⟩

/-- The second byte of an encoded character is one that may follow its first. -/
theorem isSecond_byte {first : UInt8} {n : Nat} (hlow : first.toNat = 0xe0 → 32 ≤ n % 64)
    (hsurrogate : first.toNat = 0xed → n % 64 < 32) (hfour : first.toNat = 0xf0 → 16 ≤ n % 64)
    (hlast : first.toNat = 0xf4 → n % 64 < 16) : isSecond first (UInt8.ofNat (n % 64 + 0x80)) = true := by
  have hbyte : (UInt8.ofNat (n % 64 + 0x80)).toNat = n % 64 + 0x80 := toNat_byte (by omega)
  have heq : ∀ m : UInt8, first = m ↔ first.toNat = m.toNat := fun m => UInt8.toNat_inj.symm
  simp only [isSecond, secondBytes, heq, Bool.and_eq_true, decide_eq_true_eq, UInt8.le_iff_toNat_le, hbyte]
  split
  next h => exact ⟨by have := hlow h; show 160 ≤ _; omega, by show _ ≤ 191; omega⟩
  split
  next h => exact ⟨by show 128 ≤ _; omega, by have := hsurrogate h; show _ ≤ 159; omega⟩
  split
  next h => exact ⟨by have := hfour h; show 144 ≤ _; omega, by show _ ≤ 191; omega⟩
  split
  next h => exact ⟨by show 128 ≤ _; omega, by have := hlast h; show _ ≤ 143; omega⟩
  next => exact ⟨by show 128 ≤ _; omega, by show _ ≤ 191; omega⟩

theorem byte_mod (n : Nat) : (UInt8.ofNat (n % 64 + 0x80)).toNat % 64 = n % 64 := by
  rw [toNat_byte (by omega)]
  omega

theorem scalarOf_one (payload n : Nat) :
    scalarOf payload [UInt8.ofNat (n % 64 + 0x80)] = Char.ofNat (payload * 64 + n % 64) := by
  simp only [scalarOf, List.foldl_cons, List.foldl_nil, byte_mod]

theorem scalarOf_two (payload m n : Nat) :
    scalarOf payload [UInt8.ofNat (m % 64 + 0x80), UInt8.ofNat (n % 64 + 0x80)] =
      Char.ofNat ((payload * 64 + m % 64) * 64 + n % 64) := by
  simp only [scalarOf, List.foldl_cons, List.foldl_nil, byte_mod]

theorem scalarOf_three (payload l m n : Nat) :
    scalarOf payload [UInt8.ofNat (l % 64 + 0x80), UInt8.ofNat (m % 64 + 0x80), UInt8.ofNat (n % 64 + 0x80)] =
      Char.ofNat (((payload * 64 + l % 64) * 64 + m % 64) * 64 + n % 64) := by
  simp only [scalarOf, List.foldl_cons, List.foldl_nil, byte_mod]

/-- A character's number is not a surrogate's. -/
theorem toNat_valid (c : Char) : c.toNat < 0xd800 ∨ 0xdfff < c.toNat ∧ c.toNat < 0x110000 := c.valid

theorem ofNat_eq {c : Char} {n : Nat} (h : n = c.toNat) : Char.ofNat n = c := by
  rw [h, Char.ofNat_toNat]

/-- The bytes of a character are read as that character, whatever follows. -/
theorem readChar_encode (c : Char) (rest : List UInt8) :
    ∃ first more, String.utf8EncodeChar c = first :: more ∧ readChar first (more ++ rest) = (c, more.length) := by
  have hvalid := toNat_valid c
  have hval : c.val.toNat = c.toNat := rfl
  by_cases hone : c.toNat ≤ 0x7f
  · refine ⟨UInt8.ofNat c.toNat, [], by simp [String.utf8EncodeChar, hval, hone], ?_⟩
    have hbyte : (UInt8.ofNat c.toNat).toNat = c.toNat := toNat_byte (by omega)
    have hascii : UInt8.ofNat c.toNat < 0x80 := by
      rw [UInt8.lt_iff_toNat_lt, hbyte]
      show _ < 128
      omega
    rw [readChar.eq_def, if_pos hascii, hbyte, Char.ofNat_toNat]
    rfl
  by_cases htwo : c.toNat ≤ 0x7ff
  · refine ⟨UInt8.ofNat (c.toNat / 64 % 0x20 + 0xc0), [UInt8.ofNat (c.toNat % 64 + 0x80)],
      by simp [String.utf8EncodeChar, hval, hone, htwo], ?_⟩
    have hbyte : (UInt8.ofNat (c.toNat / 64 % 0x20 + 0xc0)).toNat = c.toNat / 64 + 0xc0 := by
      rw [toNat_byte (by omega)]
      omega
    generalize UInt8.ofNat (c.toNat / 64 % 0x20 + 0xc0) = first at hbyte
    have hhigh : ¬ first < 0x80 := by
      rw [UInt8.lt_iff_toNat_lt, hbyte]
      show ¬ _ < 128
      omega
    have hfirst : (0xc2 ≤ first && first ≤ 0xdf) = true := by
      simp only [Bool.and_eq_true, decide_eq_true_eq, UInt8.le_iff_toNat_le, hbyte]
      exact ⟨by show 194 ≤ _; omega, by show _ ≤ 223; omega⟩
    rw [readChar.eq_def, if_neg hhigh, if_pos hfirst]
    simp only [List.cons_append, isContinuation_byte, if_true, scalarOf_one, hbyte]
    rw [ofNat_eq (c := c) (by omega)]
    rfl
  by_cases hthree : c.toNat ≤ 0xffff
  · refine ⟨UInt8.ofNat (c.toNat / 4096 % 0x10 + 0xe0),
      [UInt8.ofNat (c.toNat / 64 % 64 + 0x80), UInt8.ofNat (c.toNat % 64 + 0x80)],
      by simp [String.utf8EncodeChar, hval, hone, htwo, hthree], ?_⟩
    have hbyte : (UInt8.ofNat (c.toNat / 4096 % 0x10 + 0xe0)).toNat = c.toNat / 4096 + 0xe0 := by
      rw [toNat_byte (by omega)]
      omega
    generalize UInt8.ofNat (c.toNat / 4096 % 0x10 + 0xe0) = first at hbyte
    have hhigh : ¬ first < 0x80 := by
      rw [UInt8.lt_iff_toNat_lt, hbyte]
      show ¬ _ < 128
      omega
    have hnot : ¬ (0xc2 ≤ first && first ≤ 0xdf) = true := by
      simp only [Bool.and_eq_true, decide_eq_true_eq, UInt8.le_iff_toNat_le, hbyte, not_and]
      intro _ h
      have h : c.toNat / 4096 + 0xe0 ≤ 223 := h
      omega
    have hfirst : (0xe0 ≤ first && first ≤ 0xef) = true := by
      simp only [Bool.and_eq_true, decide_eq_true_eq, UInt8.le_iff_toNat_le, hbyte]
      exact ⟨by show 224 ≤ _; omega, by show _ ≤ 239; omega⟩
    have hsecond : isSecond first (UInt8.ofNat (c.toNat / 64 % 64 + 0x80)) = true :=
      isSecond_byte (by omega) (by omega) (by omega) (by omega)
    rw [readChar.eq_def, if_neg hhigh, if_neg hnot, if_pos hfirst]
    simp only [List.cons_append, List.nil_append, isContinuation_byte, hsecond, Bool.not_true,
      Bool.false_eq_true, if_false,
      scalarOf_two, hbyte]
    rw [ofNat_eq (c := c) (by omega)]
    rfl
  · refine ⟨UInt8.ofNat (c.toNat / 262144 % 0x08 + 0xf0),
      [UInt8.ofNat (c.toNat / 4096 % 64 + 0x80), UInt8.ofNat (c.toNat / 64 % 64 + 0x80),
        UInt8.ofNat (c.toNat % 64 + 0x80)],
      by simp [String.utf8EncodeChar, hval, hone, htwo, hthree], ?_⟩
    have hbyte : (UInt8.ofNat (c.toNat / 262144 % 0x08 + 0xf0)).toNat = c.toNat / 262144 + 0xf0 := by
      rw [toNat_byte (by omega)]
      omega
    generalize UInt8.ofNat (c.toNat / 262144 % 0x08 + 0xf0) = first at hbyte
    have hhigh : ¬ first < 0x80 := by
      rw [UInt8.lt_iff_toNat_lt, hbyte]
      show ¬ _ < 128
      omega
    have hnot : ∀ high : UInt8, high.toNat < 0xf0 → ∀ low : UInt8, ¬ (low ≤ first && first ≤ high) = true := by
      intro high hlt low
      simp only [Bool.and_eq_true, decide_eq_true_eq, UInt8.le_iff_toNat_le, hbyte, not_and]
      intro _ h
      omega
    have hfirst : (0xf0 ≤ first && first ≤ 0xf4) = true := by
      simp only [Bool.and_eq_true, decide_eq_true_eq, UInt8.le_iff_toNat_le, hbyte]
      exact ⟨by show 240 ≤ _; omega, by show _ ≤ 244; omega⟩
    have hsecond : isSecond first (UInt8.ofNat (c.toNat / 4096 % 64 + 0x80)) = true :=
      isSecond_byte (by omega) (by omega) (by omega) (by omega)
    rw [readChar.eq_def, if_neg hhigh, if_neg (hnot 0xdf (by decide) _), if_neg (hnot 0xef (by decide) _),
      if_pos hfirst]
    simp only [List.cons_append, List.nil_append, isContinuation_byte, hsecond, Bool.not_true,
      Bool.false_eq_true, if_false,
      scalarOf_three, hbyte]
    rw [ofNat_eq (c := c) (by omega)]
    rfl

theorem charsFrom_skip (read rest : List UInt8) : charsFrom read.length (read ++ rest) = charsFrom 0 rest := by
  induction read with
  | nil => rfl
  | cons byte read ih => exact ih

theorem charsFrom_encode (chars : List Char) (rest : List UInt8) :
    charsFrom 0 (chars.flatMap String.utf8EncodeChar ++ rest) = chars ++ charsFrom 0 rest := by
  induction chars with
  | nil => rfl
  | cons c chars ih =>
    obtain ⟨first, more, hencode, hread⟩ := readChar_encode c (chars.flatMap String.utf8EncodeChar ++ rest)
    rw [List.flatMap_cons, hencode, List.cons_append, List.cons_append, List.append_assoc, charsFrom, hread,
      charsFrom_skip, ih,
      List.cons_append]

/-- Text that was written is read back as it was. -/
theorem fromUtf8Lossy_utf8 (text : String) : fromUtf8Lossy (utf8 text) = text := by
  have hchars := charsFrom_encode text.toList []
  rw [List.append_nil] at hchars
  rw [fromUtf8Lossy, utf8, hchars]
  simp [charsFrom]

/-- Only a line feed is written with the byte of a line feed. -/
theorem eq_newline_of_mem {c : Char} (h : (10 : UInt8) ∈ String.utf8EncodeChar c) : c = '\n' := by
  have hval : c.val.toNat = c.toNat := rfl
  obtain ⟨b, hmem, hb⟩ : ∃ b ∈ String.utf8EncodeChar c, b.toNat = 10 := ⟨_, h, rfl⟩
  have hlarge : ∀ n, 0x80 ≤ n → n < 256 → b = UInt8.ofNat n → False := by
    intro n hlow hhigh heq
    rw [heq, toNat_byte hhigh] at hb
    omega
  unfold String.utf8EncodeChar at hmem
  simp only [hval] at hmem
  split at hmem
  next hone =>
    obtain rfl := List.mem_singleton.mp hmem
    rw [toNat_byte (by omega)] at hb
    rw [← Char.ofNat_toNat c, hb]
  exfalso
  split at hmem
  · simp only [List.mem_cons, List.not_mem_nil, or_false] at hmem
    rcases hmem with h | h <;> exact hlarge _ (by omega) (by omega) h
  split at hmem
  · simp only [List.mem_cons, List.not_mem_nil, or_false] at hmem
    rcases hmem with h | h | h <;> exact hlarge _ (by omega) (by omega) h
  · simp only [List.mem_cons, List.not_mem_nil, or_false] at hmem
    rcases hmem with h | h | h | h <;> exact hlarge _ (by omega) (by omega) h

/-! ## Lines -/

/-- Text that is no end of a line anywhere. -/
def SingleLine (text : String) : Prop := '\n' ∉ text.toList ∧ '\r' ∉ text.toList

instance (text : String) : Decidable (SingleLine text) := inferInstanceAs (Decidable (_ ∧ _))

theorem SingleLine.append {left right : String} (hl : SingleLine left) (hr : SingleLine right) :
    SingleLine (left ++ right) := by
  simp only [SingleLine, String.toList_append, List.mem_append, not_or]
  exact ⟨⟨hl.1, hr.1⟩, hl.2, hr.2⟩

theorem utf8_newline : utf8 "\n" = [10] := by decide +kernel

theorem SingleLine.isRecord {line : String} (h : SingleLine line) :
    Framing.IsRecord (10 : UInt8) (utf8 (line ++ "\n")) := by
  refine ⟨utf8 line, fun hmem => ?_, by rw [utf8_append, utf8_newline]⟩
  obtain ⟨c, hc, hbyte⟩ := List.mem_flatMap.mp hmem
  exact h.1 (eq_newline_of_mem hbyte ▸ hc)

theorem SingleLine.trimLineEnd {line : String} (h : SingleLine line) : trimLineEnd (line ++ "\n") = line := by
  have hkeep : line.toList.reverse.dropWhile (fun c => c = '\r' || c = '\n') = line.toList.reverse := by
    cases hline : line.toList.reverse with
    | nil => rfl
    | cons c rest =>
      have hc : c ∈ line.toList := by
        rw [← List.mem_reverse, hline]
        exact List.mem_cons_self
      have hfeed : c ≠ '\n' := fun heq => h.1 (heq ▸ hc)
      have hreturn : c ≠ '\r' := fun heq => h.2 (heq ▸ hc)
      rw [List.dropWhile_cons_of_neg (by simp [hfeed, hreturn])]
  rw [Sse.trimLineEnd, String.toList_append, List.reverse_append]
  show String.ofList (line.toList.reverse.dropWhile fun c => c = '\r' || c = '\n').reverse = line
  rw [hkeep, List.reverse_reverse, String.ofList_toList]

/-- The lines of a text, each with its end. -/
def unlines (lines : List String) : List UInt8 := lines.flatMap fun line => utf8 (line ++ "\n")

theorem linesOf_unlines {lines : List String} (h : ∀ line ∈ lines, SingleLine line) (rest : List UInt8) :
    linesOf (unlines lines ++ rest) = lines ++ linesOf rest := by
  induction lines with
  | nil => rfl
  | cons line lines ih =>
    obtain ⟨hline, hlines⟩ := List.forall_mem_cons.mp h
    rw [unlines, List.flatMap_cons, List.append_assoc, linesOf, Framing.terminated_record hline.isRecord, List.map_cons,
      fromUtf8Lossy_utf8, hline.trimLineEnd, ← linesOf, ← unlines, ih hlines, List.cons_append]

theorem linesOf_unlines_self {lines : List String} (h : ∀ line ∈ lines, SingleLine line) :
    linesOf (unlines lines) = lines := by
  have hlines := linesOf_unlines h []
  rwa [List.append_nil, show linesOf [] = [] from rfl, List.append_nil] at hlines

theorem openLine_unlines {lines : List String} (h : ∀ line ∈ lines, SingleLine line) :
    openLine (unlines lines) = [] := by
  induction lines with
  | nil => rfl
  | cons line lines ih =>
    obtain ⟨hline, hlines⟩ := List.forall_mem_cons.mp h
    rw [unlines, List.flatMap_cons, openLine, Framing.remainder_record hline.isRecord]
    exact ih hlines

/-- Lines up to a blank one leave nothing open. -/
theorem closed_unlines {lines : List String} (h : ∀ line ∈ lines, SingleLine line)
    (hrecord : Framing.IsRecord "" lines) :
    Closed (unlines lines) := by
  have hremainder := Framing.remainder_record hrecord []
  rw [List.append_nil, Framing.remainder_nil] at hremainder
  exact ⟨openLine_unlines h, (congrArg _ (linesOf_unlines_self h)).trans hremainder⟩

theorem Closed.append_lines {block rest : List UInt8} (h : Closed block) :
    linesOf (block ++ rest) = linesOf block ++ linesOf rest := by
  rw [linesOf_append, h.1, List.nil_append]

theorem Closed.decodeStream_append {block : List UInt8} (h : Closed block) (rest : List UInt8) :
    decodeStream (block ++ rest) = decodeStream block ++ decodeStream rest := by
  rw [decodeStream, h.append_lines, Framing.terminated_append, h.2, List.nil_append, List.filterMap_append]
  rfl

theorem Closed.append_closed {block other : List UInt8} (h : Closed block) (hother : Closed other) :
    Closed (block ++ other) := by
  refine ⟨(h.append other).1.trans hother.1, ?_⟩
  rw [h.append_lines, Framing.remainder_append, h.2, List.nil_append]
  exact hother.2

/-- More of a stream says more events and takes none back. -/
theorem decodeStream_more (stream more : List UInt8) :
    ∃ events, decodeStream (stream ++ more) = decodeStream stream ++ events := by
  rw [decodeStream, linesOf_append, Framing.terminated_append, List.filterMap_append]
  exact ⟨_, rfl⟩

/-! ## Events -/

/-- The lines of `event(kind, revision, value)` where `json` is the value. -/
def eventLines (kind : String) (revision : Nat) (json : String) : List String :=
  ["event: " ++ kind, "id: " ++ toString revision, "data: " ++ json, ""]

/-- What the server writes the stream with. -/
structure SseWriter where
  /-- An event of a kind, with an id and its data. -/
  event : String → Nat → String → List UInt8
  /-- An event without an id. -/
  plain : String → String → List UInt8
  keepAlive : List UInt8

/-- The bytes of an event stream. -/
structure SseWriter.Standard (writer : SseWriter) : Prop where
  event : ∀ {kind revision json}, SingleLine kind → SingleLine json →
    writer.event kind revision json = unlines (eventLines kind revision json)
  keepAlive : ∃ comment, SingleLine comment ∧ writer.keepAlive = unlines [":" ++ comment, ""]

theorem splitField_field {field : String} (h : ':' ∉ field.toList) (value : String) :
    SseDecoder.splitField (field ++ ": " ++ value) = (field, value) := by
  have hsplit : Text.splitOnce ':' (field ++ ": " ++ value) = some (field, " " ++ value) := by
    have htext : field ++ ": " ++ value = field ++ String.singleton ':' ++ (" " ++ value) := by
      simp only [String.append_assoc]
      congr 1
    rw [htext, Text.splitOnce_append h]
  have hstrip : Text.strip [' '] (" " ++ value).toList = some value.toList := by
    rw [String.toList_append]
    exact Text.strip_append [' '] value.toList
  rw [SseDecoder.splitField, hsplit]
  show (field, ((Text.strip [' '] (" " ++ value).toList).map String.ofList).getD (" " ++ value)) = (field, value)
  rw [hstrip, Option.map_some, Option.getD_some, String.ofList_toList]

/-- The value a line of one field gives. -/
theorem values_line {field : String} (hempty : field ≠ "") (hcolon : ':' ∉ field.toList) (wanted value : String) :
    values wanted [field ++ ": " ++ value] = if field = wanted then [value] else [] := by
  obtain ⟨c, chars, hchars⟩ : ∃ c chars, field.toList = c :: chars := by
    cases hfield : field.toList with
    | nil => exact absurd (String.toList_eq_nil_iff.mp hfield) hempty
    | cons c chars => exact ⟨c, chars, rfl⟩
  have hhead : (field ++ ": " ++ value).toList.head? = some c := by
    simp [String.toList_append, hchars]
  have hcomment : (field ++ ": " ++ value).toList.head? ≠ some ':' := by
    rw [hhead]
    intro heq
    exact hcolon (hchars ▸ Option.some.inj heq ▸ List.mem_cons_self)
  have hblank : (field ++ ": " ++ value).isEmpty = false := by
    rw [Bool.eq_false_iff]
    intro hline
    rw [String.isEmpty_iff.mp hline] at hhead
    cases hhead
  rw [values_field wanted hblank hcomment, splitField_field hcolon]

theorem values_eventLines (wanted kind : String) (revision : Nat) (json : String) :
    values wanted (eventLines kind revision json) =
      (if "event" = wanted then [kind] else []) ++ (if "id" = wanted then [toString revision] else []) ++
        (if "data" = wanted then [json] else []) := by
  have hlines : eventLines kind revision json =
      ["event" ++ ": " ++ kind] ++ ["id" ++ ": " ++ toString revision] ++ ["data" ++ ": " ++ json] ++ [""] := rfl
  rw [hlines, values_append, values_append, values_append, values_blank, List.append_nil,
    values_line (by decide) (by decide),
    values_line (by decide) (by decide), values_line (by decide) (by decide)]

theorem eventOf_eventLines (kind : String) (revision : Nat) (json : String) :
    eventOf (eventLines kind revision json) = some ⟨kind, json⟩ := by
  have hname : nameOf (eventLines kind revision json) = kind := by
    rw [nameOf, values_eventLines]
    rfl
  have hdata : values "data" (eventLines kind revision json) = [json] := values_eventLines "data" kind revision json
  rw [eventOf, hname, hdata, if_neg (by simp)]
  simp

theorem singleLine_toString (n : Nat) : SingleLine (toString n) :=
  ⟨fun h => absurd (Text.isDigit_toString h) (by decide), fun h => absurd (Text.isDigit_toString h) (by decide)⟩

/-- The lines up to a blank one say one event at most, and leave nothing open. -/
theorem decodeStream_unlines {lines : List String} (h : ∀ line ∈ lines, SingleLine line)
    (hrecord : Framing.IsRecord "" lines) :
    decodeStream (unlines lines) = (eventOf lines).toList := by
  have hterminated := Framing.terminated_record hrecord []
  rw [List.append_nil, Framing.terminated_nil] at hterminated
  rw [decodeStream, linesOf_unlines_self h, hterminated, List.filterMap_cons, List.filterMap_nil]
  cases eventOf lines <;> rfl

namespace SseWriter.Standard

variable {writer : SseWriter} {kind json : String}

/-- **An event that was written is read back**, and nothing of it is left open. -/
theorem read_event (h : writer.Standard) (hkind : SingleLine kind) (hjson : SingleLine json) (revision : Nat) :
    Closed (writer.event kind revision json) ∧ decodeStream (writer.event kind revision json) = [⟨kind, json⟩] := by
  have hblank : ∀ field text : String, field ≠ "" → "" ≠ field ++ text := by
    intro field text hfield hempty
    exact hfield (String.append_eq_empty_iff.mp hempty.symm).1
  have hlines : ∀ line ∈ eventLines kind revision json, SingleLine line := by
    simp only [eventLines, List.forall_mem_cons, List.not_mem_nil, false_implies, implies_true, and_true]
    exact ⟨.append (by decide) hkind, .append (by decide) (singleLine_toString _), .append (by decide) hjson, by decide⟩
  have hrecord : Framing.IsRecord "" (eventLines kind revision json) := by
    refine ⟨["event: " ++ kind, "id: " ++ toString revision, "data: " ++ json], ?_, rfl⟩
    simp only [List.mem_cons, List.not_mem_nil, or_false, not_or]
    exact ⟨hblank _ _ (by decide), hblank _ _ (by decide), hblank _ _ (by decide)⟩
  rw [h.event hkind hjson, decodeStream_unlines hlines hrecord, eventOf_eventLines]
  exact ⟨closed_unlines hlines hrecord, rfl⟩

/-- A comment that keeps the connection open is no event. -/
theorem read_keepAlive (h : writer.Standard) : Closed writer.keepAlive ∧ decodeStream writer.keepAlive = [] := by
  obtain ⟨comment, hcomment, hbytes⟩ := h.keepAlive
  have hhead : (":" ++ comment).toList.head? = some ':' := by
    simp [String.toList_append]
  have hnone : ∀ field, values field [":" ++ comment, ""] = [] := by
    intro field
    have hlines : [":" ++ comment, ""] = [":" ++ comment] ++ [""] := rfl
    rw [hlines, values_append, values_comment hhead, values_blank, List.append_nil]
  have hevent : eventOf [":" ++ comment, ""] = none := by
    rw [eventOf, if_pos ⟨by rw [nameOf, hnone]; rfl, hnone _⟩]
  have hlines : ∀ line ∈ [":" ++ comment, ""], SingleLine line := by
    simp only [List.forall_mem_cons, List.not_mem_nil, false_implies, implies_true, and_true]
    exact ⟨.append (by decide) hcomment, by decide⟩
  have hrecord : Framing.IsRecord "" [":" ++ comment, ""] := by
    refine ⟨[":" ++ comment], fun hmem => ?_, rfl⟩
    rw [← List.mem_singleton.mp hmem] at hhead
    cases hhead
  rw [hbytes, decodeStream_unlines hlines hrecord, hevent]
  exact ⟨closed_unlines hlines hrecord, rfl⟩

end SseWriter.Standard

/-! ## Chunk by chunk -/

theorem line_into (decoder : SseDecoder) (line : String) (into : List SseEvent) :
    decoder.line line into = ((decoder.line line []).1, into ++ (decoder.line line []).2) := by
  unfold SseDecoder.line
  split
  · split <;> simp
  split
  · simp
  · dsimp only
    split <;> simp

theorem readLines_into (decoder : SseDecoder) (into : List SseEvent) (lines : List String) :
    decoder.readLines into lines = ((decoder.readLines [] lines).1, into ++ (decoder.readLines [] lines).2) := by
  induction lines generalizing decoder into with
  | nil => simp [SseDecoder.readLines]
  | cons line lines ih =>
    rw [SseDecoder.readLines, SseDecoder.readLines, line_into, ih _ (decoder.line line []).2, ih _ (into ++ _)]
    simp

theorem push_into (decoder : SseDecoder) (chunk : List UInt8) (into : List SseEvent) :
    decoder.push chunk into = (decoder.push chunk []).map fun (decoder, events) => (decoder, into ++ events) := by
  unfold SseDecoder.push
  split
  · rfl
  dsimp only
  rw [readLines_into]
  split <;> rfl

/-- **One frame of the transport**: it is refused for its size, or it gives the
events that the stream has more with it. -/
theorem ReadsTo.frame {decoder : SseDecoder} {stream : List UInt8} (h : ReadsTo decoder stream) (chunk : List UInt8) :
    decoder.push chunk [] = .error SseDecoder.oversized ∨
      ∃ decoder' events, decoder.push chunk [] = .ok (decoder', events) ∧ ReadsTo decoder' (stream ++ chunk) ∧
        decodeStream (stream ++ chunk) = decodeStream stream ++ events := by
  have hpush := h.push chunk
  rw [push_into] at hpush
  cases hframe : decoder.push chunk [] with
  | error error =>
    rw [hframe] at hpush
    rcases hpush with ⟨-, herror⟩ | ⟨-, -, herror⟩ | ⟨-, -, _, -, hok⟩
    · exact .inl herror
    · exact .inl herror
    · cases hok
  | ok state =>
    rw [hframe] at hpush
    rcases hpush with ⟨-, herror⟩ | ⟨-, -, herror⟩ | ⟨-, -, decoder', hreads, hok⟩
    · cases herror
    · cases herror
    · obtain ⟨rfl, hevents⟩ := Prod.ext_iff.mp (Except.ok.inj hok)
      exact .inr ⟨_, _, rfl, hreads, hevents.symm⟩

end Atmux.Sse
