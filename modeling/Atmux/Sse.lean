/-
The decoder of another machine's event stream.

The stream comes in chunks that end anywhere: inside a character, between the
two bytes of a line end, in the name of a field. `SseDecoder.push` keeps what a
chunk leaves unfinished, the bytes of the last line and the fields of the last
event. `decodeStream` is what the stream as a whole says; `push_independent`
says that chunks make no difference to it. Where a chunk is refused for its size
is another matter: the bound is on the whole chunk with the line before it
(`size_bound_iff`).
-/
import Mathlib.Data.List.Infix
import Atmux.Lib.Framing
import Atmux.Lib.Text
import Atmux.Lib.Result

namespace Atmux.Sse

open Lib

def maxEventBytes : Nat := 1024 * 1024

/-! ## Text of a line -/

def isContinuation (byte : UInt8) : Bool := 0x80 ≤ byte && byte ≤ 0xbf

/-- The second bytes that may follow a first byte of three or four. -/
def secondBytes (first : UInt8) : UInt8 × UInt8 :=
  if first = 0xe0 then (0xa0, 0xbf)
  else if first = 0xed then (0x80, 0x9f)
  else if first = 0xf0 then (0x90, 0xbf)
  else if first = 0xf4 then (0x80, 0x8f)
  else (0x80, 0xbf)

def isSecond (first : UInt8) (byte : UInt8) : Bool :=
  (secondBytes first).1 ≤ byte && byte ≤ (secondBytes first).2

/-- The value of a first byte's payload followed by continuation bytes. -/
def scalarOf (payload : Nat) (continuations : List UInt8) : Char :=
  Char.ofNat (continuations.foldl (fun value byte => value * 64 + byte.toNat % 64) payload)

/-- The character that starts with a byte, and how many of the bytes after it
are read with it: a replacement character for the longest start of a character
that is not completed. -/
def readChar (first : UInt8) (rest : List UInt8) : Char × Nat :=
  if first < 0x80 then (Char.ofNat first.toNat, 0)
  else if 0xc2 ≤ first && first ≤ 0xdf then
    match rest with
    | second :: _ =>
      if isContinuation second then (scalarOf (first.toNat % 32) [second], 1) else ('\uFFFD', 0)
    | [] => ('\uFFFD', 0)
  else if 0xe0 ≤ first && first ≤ 0xef then
    match rest with
    | second :: third :: _ =>
      if !isSecond first second then ('\uFFFD', 0)
      else if !isContinuation third then ('\uFFFD', 1)
      else (scalarOf (first.toNat % 16) [second, third], 2)
    | [second] => ('\uFFFD', if isSecond first second then 1 else 0)
    | [] => ('\uFFFD', 0)
  else if 0xf0 ≤ first && first ≤ 0xf4 then
    match rest with
    | second :: third :: fourth :: _ =>
      if !isSecond first second then ('\uFFFD', 0)
      else if !isContinuation third then ('\uFFFD', 1)
      else if !isContinuation fourth then ('\uFFFD', 2)
      else (scalarOf (first.toNat % 8) [second, third, fourth], 3)
    | [second, third] =>
      ('\uFFFD', if !isSecond first second then 0 else if isContinuation third then 2 else 1)
    | [second] => ('\uFFFD', if isSecond first second then 1 else 0)
    | [] => ('\uFFFD', 0)
  else ('\uFFFD', 0)

/-- The characters of bytes of which the first few are read already. -/
def charsFrom : Nat → List UInt8 → List Char
  | _, [] => []
  | read + 1, _ :: rest => charsFrom read rest
  | 0, first :: rest => (readChar first rest).1 :: charsFrom (readChar first rest).2 rest

/-- `String::from_utf8_lossy`. -/
def fromUtf8Lossy (bytes : List UInt8) : String := String.ofList (charsFrom 0 bytes)

example : fromUtf8Lossy [0xf0, 0x9f, 0x8d, 0xb0, 0xf0, 0x9f, 0x41, 0xff] = "🍰\uFFFDA\uFFFD" := by decide +kernel

/-- `str::trim_end_matches(['\r', '\n'])`. -/
def trimLineEnd (line : String) : String :=
  String.ofList (line.toList.reverse.dropWhile fun c => c = '\r' || c = '\n').reverse

/-! ## The decoder -/

structure SseEvent where
  name : String
  data : String
deriving DecidableEq, Repr

structure SseDecoder where
  buffer : List UInt8
  name : String
  data : String
deriving DecidableEq, Repr

namespace SseDecoder

/-- `SseDecoder::default`. -/
def new : SseDecoder := ⟨[], "", ""⟩

/-- `data.strip_suffix('\n')`, or nothing where there is no such end. -/
def stripNewline (data : String) : String :=
  match data.toList.reverse with
  | '\n' :: rest => String.ofList rest.reverse
  | _ => ""

/-- A line's field and value. -/
def splitField (line : String) : String × String :=
  let (field, value) := (Text.splitOnce ':' line).getD (line, "")
  (field, ((Text.strip [' '] value.toList).map String.ofList).getD value)

def line (decoder : SseDecoder) (line : String) (into : List SseEvent) : SseDecoder × List SseEvent :=
  if line.isEmpty then
    let into :=
      if !decoder.data.isEmpty || !decoder.name.isEmpty then into ++ [⟨decoder.name, stripNewline decoder.data⟩]
      else into
    ({ decoder with name := "", data := "" }, into)
  else if line.toList.head? = some ':' then (decoder, into)
  else
    let (field, value) := splitField line
    match field with
    | "event" => ({ decoder with name := value }, into)
    | "data" => ({ decoder with data := decoder.data ++ value ++ "\n" }, into)
    | _ => (decoder, into)

/-- The lines of a buffer in their order. -/
def readLines : SseDecoder → List SseEvent → List String → SseDecoder × List SseEvent
  | decoder, into, [] => (decoder, into)
  | decoder, into, line :: lines => readLines (decoder.line line into).1 (decoder.line line into).2 lines

def oversized : String := "a federated event exceeded 1048576 bytes"

/-- Feeds one transport chunk and appends every event it completed. -/
def push (decoder : SseDecoder) (chunk : List UInt8) (into : List SseEvent) :
    Except String (SseDecoder × List SseEvent) :=
  if maxEventBytes < decoder.buffer.length + chunk.length then .error oversized
  else
    let buffer := decoder.buffer ++ chunk
    let lines := Framing.terminated (10 : UInt8) buffer
    let (decoder, into) := ({ decoder with buffer := [] } : SseDecoder).readLines into
      (lines.map fun line => trimLineEnd (fromUtf8Lossy line))
    let decoder := { decoder with buffer := buffer.drop lines.flatten.length }
    if maxEventBytes < decoder.data.utf8ByteSize then .error oversized else .ok (decoder, into)

/-- The chunks of a stream, up to the first that is refused. -/
def pushAll (chunks : List (List UInt8)) : Except String (SseDecoder × List SseEvent) :=
  chunks.foldlM (fun state chunk => state.1.push chunk state.2) (new, [])

end SseDecoder

/-! ## What a stream says -/

/-- The values of a field in the lines of an event, comments left out. -/
def values (field : String) (lines : List String) : List String :=
  (((lines.filter fun line => !line.isEmpty && line.toList.head? ≠ some ':').map SseDecoder.splitField).filter
    fun entry => entry.1 = field).map Prod.snd

/-- The last name of an event. -/
def nameOf (lines : List String) : String := (values "event" lines).getLast?.getD ""

/-- The event that ends with a blank line, where it has a name or data. -/
def eventOf (lines : List String) : Option SseEvent :=
  if nameOf lines = "" ∧ values "data" lines = [] then none
  else some ⟨nameOf lines, "\n".intercalate (values "data" lines)⟩

/-- The complete lines of a stream, without their ends. -/
def linesOf (stream : List UInt8) : List String :=
  (Framing.terminated 10 stream).map fun line => trimLineEnd (fromUtf8Lossy line)

/-- The events of a stream: the lines up to a blank one each. -/
def decodeStream (stream : List UInt8) : List SseEvent := (Framing.terminated "" (linesOf stream)).filterMap eventOf

/-- The bytes of the line that has not ended. -/
def openLine (stream : List UInt8) : List UInt8 := Framing.remainder 10 stream

/-- The data of the event that has not ended, each line of it with a line feed. -/
def openData (stream : List UInt8) : String :=
  String.join ((values "data" (Framing.remainder "" (linesOf stream))).map fun value => value ++ "\n")

/-! ## One line -/

@[simp] theorem values_nil (field : String) : values field [] = [] := rfl

theorem values_append (field : String) (lines other : List String) :
    values field (lines ++ other) = values field lines ++ values field other := by
  simp [values]

theorem values_blank (field : String) : values field [""] = [] := rfl

theorem values_comment {field line : String} (h : line.toList.head? = some ':') : values field [line] = [] := by
  simp [values, h]

theorem values_field (field : String) {line : String} (hblank : line.isEmpty = false) (hcomment : line.toList.head? ≠ some ':') :
    values field [line] = if (SseDecoder.splitField line).1 = field then [(SseDecoder.splitField line).2] else [] := by
  have hkept : [line].filter (fun line => !line.isEmpty && line.toList.head? ≠ some ':') = [line] := by
    simp [hblank, hcomment]
  rw [values, hkept, List.map_singleton]
  by_cases hfield : (SseDecoder.splitField line).1 = field
  · simp [hfield]
  · simp [hfield]

/-- The name and data a decoder has pending are those of the lines since the last blank one. -/
structure Holds (decoder : SseDecoder) (lines : List String) : Prop where
  name : decoder.name = nameOf lines
  data : decoder.data = String.join ((values "data" lines).map fun value => value ++ "\n")

theorem Holds.new : Holds SseDecoder.new [] := ⟨rfl, rfl⟩

theorem join_lines {written : List String} (h : written ≠ []) :
    String.join (written.map fun value => value ++ "\n") = "\n".intercalate written ++ "\n" := by
  induction written with
  | nil => exact absurd rfl h
  | cons value written ih =>
    rw [List.map_cons, String.join_cons]
    cases hwritten : written with
    | nil => simp
    | cons other rest =>
      rw [← hwritten, ih (by simp [hwritten]), String.intercalate_cons_of_ne_nil (by simp [hwritten])]
      simp only [String.append_assoc]

theorem stripNewline_append (text : String) : SseDecoder.stripNewline (text ++ "\n") = text := by
  simp [SseDecoder.stripNewline]

theorem stripNewline_lines (written : List String) :
    SseDecoder.stripNewline (String.join (written.map fun value => value ++ "\n")) = "\n".intercalate written := by
  by_cases h : written = []
  · subst h
    simp [SseDecoder.stripNewline]
  · rw [join_lines h, stripNewline_append]

variable {decoder : SseDecoder} {lines : List String}

/-- A blank line dispatches the event of the lines before it. -/
theorem Holds.line_blank (h : Holds decoder lines) (into : List SseEvent) :
    decoder.line "" into = ({ decoder with name := "", data := "" }, into ++ (eventOf (lines ++ [""])).toList) := by
  have hblank : ("" : String).isEmpty = true := rfl
  have hname : nameOf (lines ++ [""]) = nameOf lines := by rw [nameOf, values_append, values_blank, List.append_nil, nameOf]
  have hdata : values "data" (lines ++ [""]) = values "data" lines := by rw [values_append, values_blank, List.append_nil]
  have hempty : decoder.data.isEmpty = true ↔ values "data" lines = [] := by
    rw [h.data, String.isEmpty_iff]
    by_cases hlines : values "data" lines = []
    · simp [hlines]
    · simp [join_lines hlines, hlines]
  rw [SseDecoder.line, if_pos hblank, eventOf, hname, hdata]
  refine Prod.ext rfl ?_
  have hpending : (!decoder.data.isEmpty || !decoder.name.isEmpty) = true ↔
      ¬ (nameOf lines = "" ∧ values "data" lines = []) := by
    rw [← hempty, ← h.name, ← String.isEmpty_iff, and_comm, Bool.or_eq_true, Bool.not_eq_true', Bool.not_eq_true',
      not_and_or, Bool.not_eq_true, Bool.not_eq_true]
  by_cases hnone : nameOf lines = "" ∧ values "data" lines = []
  · simp only [if_neg (fun hsome => hpending.1 hsome hnone), if_pos hnone, Option.toList_none, List.append_nil]
  · rw [if_neg hnone, Option.toList_some, ← stripNewline_lines, ← h.data, ← h.name]
    exact if_pos (hpending.2 hnone)

/-- Any other line is one more of the event. -/
theorem Holds.line (h : Holds decoder lines) {line : String} (hline : line ≠ "") (into : List SseEvent) :
    Holds (decoder.line line into).1 (lines ++ [line]) ∧ (decoder.line line into).2 = into := by
  have hblank : line.isEmpty = false := by simpa using hline
  rw [SseDecoder.line, hblank, if_neg Bool.false_ne_true]
  split
  next hcomment =>
    refine ⟨⟨?_, ?_⟩, rfl⟩
    · rw [nameOf, values_append, values_comment hcomment, List.append_nil, h.name, nameOf]
    · rw [values_append, values_comment hcomment, List.append_nil, h.data]
  next hcomment =>
    have hfields := fun field => values_field field hblank hcomment
    obtain ⟨field, value, hsplit⟩ : ∃ field value, SseDecoder.splitField line = (field, value) := ⟨_, _, rfl⟩
    rw [hsplit] at hfields ⊢
    dsimp only at hfields ⊢
    split
    next =>
      refine ⟨⟨?_, ?_⟩, rfl⟩
      · simp [nameOf, values_append, hfields]
      · simp [values_append, hfields, h.data]
    next =>
      refine ⟨⟨?_, ?_⟩, rfl⟩
      · simp [nameOf, values_append, hfields, h.name]
      · simp [values_append, hfields, h.data, String.append_assoc]
    next hevent hdata =>
      refine ⟨⟨?_, ?_⟩, rfl⟩
      · have hevent : field ≠ "event" := hevent
        simp [nameOf, values_append, hfields, h.name, hevent]
      · have hdata : field ≠ "data" := hdata
        simp [values_append, hfields, h.data, hdata]

/-! ## Lines, chunks and streams -/

/-- Lines read after those of an unfinished event give the events of all of
them, and leave the event that they leave unfinished. -/
theorem Holds.readLines (h : Holds decoder lines) (hlines : "" ∉ lines) (into : List SseEvent) (more : List String) :
    Holds (decoder.readLines into more).1 (Framing.remainder "" (lines ++ more)) ∧
      (decoder.readLines into more).2 = into ++ (Framing.terminated "" (lines ++ more)).filterMap eventOf := by
  induction more generalizing decoder lines into with
  | nil =>
    rw [List.append_nil, Framing.terminated_of_not_mem hlines, Framing.remainder_of_not_mem hlines]
    exact ⟨h, by simp [SseDecoder.readLines]⟩
  | cons line more ih =>
    rw [SseDecoder.readLines]
    by_cases hline : line = ""
    · subst hline
      have hrecord : Framing.IsRecord "" (lines ++ [""]) := ⟨lines, hlines, rfl⟩
      have hsplit : lines ++ "" :: more = lines ++ [""] ++ more := by simp
      have hblank : Holds { decoder with name := "", data := "" } [] := ⟨rfl, rfl⟩
      obtain ⟨hholds, hevents⟩ := ih hblank (by simp) (into ++ (eventOf (lines ++ [""])).toList)
      rw [h.line_blank, hsplit, Framing.terminated_record hrecord, Framing.remainder_record hrecord]
      refine ⟨hholds, ?_⟩
      rw [hevents, List.filterMap_cons]
      cases eventOf (lines ++ [""]) <;> simp
    · obtain ⟨hholds, hinto⟩ := h.line hline into
      rw [hinto, List.append_cons]
      exact ih hholds (by simpa [hlines] using Ne.symm hline) into

/-- What a decoder keeps of the stream it has read. -/
structure ReadsTo (decoder : SseDecoder) (stream : List UInt8) : Prop where
  buffer : decoder.buffer = openLine stream
  holds : Holds decoder (Framing.remainder "" (linesOf stream))

theorem ReadsTo.new : ReadsTo SseDecoder.new [] := ⟨rfl, Holds.new⟩

theorem ReadsTo.data {stream : List UInt8} (h : ReadsTo decoder stream) : decoder.data = openData stream := h.holds.data

/-- The lines of a stream with a chunk more are those of the bytes kept with the chunk. -/
theorem linesOf_append (stream chunk : List UInt8) :
    linesOf (stream ++ chunk) = linesOf stream ++ linesOf (openLine stream ++ chunk) := by
  rw [linesOf, Framing.terminated_append, List.map_append, linesOf, linesOf, openLine]

/-- **What a chunk does**: it is refused for its size, or for what it leaves
pending, or it completes the events that the stream has more with it. -/
theorem ReadsTo.push {stream : List UInt8} (h : ReadsTo decoder stream) (chunk : List UInt8) :
    (maxEventBytes < (openLine stream).length + chunk.length ∧
      decoder.push chunk (decodeStream stream) = .error SseDecoder.oversized) ∨
    ((openLine stream).length + chunk.length ≤ maxEventBytes ∧
      maxEventBytes < (openData (stream ++ chunk)).utf8ByteSize ∧
      decoder.push chunk (decodeStream stream) = .error SseDecoder.oversized) ∨
    ((openLine stream).length + chunk.length ≤ maxEventBytes ∧
      (openData (stream ++ chunk)).utf8ByteSize ≤ maxEventBytes ∧
      ∃ decoder', ReadsTo decoder' (stream ++ chunk) ∧
        decoder.push chunk (decodeStream stream) = .ok (decoder', decodeStream (stream ++ chunk))) := by
  rw [SseDecoder.push, h.buffer]
  by_cases hlarge : maxEventBytes < (openLine stream).length + chunk.length
  · exact .inl ⟨hlarge, if_pos hlarge⟩
  rw [if_neg hlarge]
  have hpending : Holds { decoder with buffer := [] } (Framing.remainder "" (linesOf stream)) :=
    ⟨h.holds.name, h.holds.data⟩
  obtain ⟨hholds, hevents⟩ := hpending.readLines (Framing.not_mem_remainder "" _) (decodeStream stream)
    (linesOf (openLine stream ++ chunk))
  rw [← Framing.remainder_append, ← linesOf_append] at hholds
  have hdecoded : decodeStream stream ++ (Framing.terminated ""
      (Framing.remainder "" (linesOf stream) ++ linesOf (openLine stream ++ chunk))).filterMap eventOf =
        decodeStream (stream ++ chunk) := by
    rw [decodeStream, ← List.filterMap_append, ← Framing.terminated_append, ← linesOf_append, decodeStream]
  rw [hdecoded] at hevents
  have hreads : ∀ buffer, buffer = openLine (stream ++ chunk) → ReadsTo
      { (({ decoder with buffer := [] } : SseDecoder).readLines (decodeStream stream)
          (linesOf (openLine stream ++ chunk))).1 with buffer := buffer } (stream ++ chunk) := fun buffer hbuffer =>
    ⟨hbuffer, hholds.name, hholds.data⟩
  have hreads := hreads _ (Framing.remainder_append stream chunk).symm
  rw [← hreads.data]
  refine .inr ?_
  by_cases hover : maxEventBytes < (({ decoder with buffer := [] } : SseDecoder).readLines (decodeStream stream)
      (linesOf (openLine stream ++ chunk))).1.data.utf8ByteSize
  · exact .inl ⟨not_lt.1 hlarge, hover, if_pos hover⟩
  · refine .inr ⟨not_lt.1 hlarge, not_lt.1 hover, _, hreads, (if_neg hover).trans ?_⟩
    rw [← hevents]
    rfl

/-- Both parts of what a decoder keeps are within the bound. -/
def Bounded (decoder : SseDecoder) : Prop :=
  decoder.buffer.length ≤ maxEventBytes ∧ decoder.data.utf8ByteSize ≤ maxEventBytes

/-- No chunk is over the bound together with the bytes of the line it continues. -/
def ChunksFit : List UInt8 → List (List UInt8) → Prop
  | _, [] => True
  | stream, chunk :: chunks =>
    (openLine stream).length + chunk.length ≤ maxEventBytes ∧ ChunksFit (stream ++ chunk) chunks

theorem ReadsTo.foldlM_ok {stream : List UInt8} (h : ReadsTo decoder stream) (hbounded : Bounded decoder)
    {chunks : List (List UInt8)} {decoder' : SseDecoder} {into : List SseEvent}
    (hpush : chunks.foldlM (fun state chunk => SseDecoder.push state.1 chunk state.2) (decoder, decodeStream stream) =
      .ok (decoder', into)) :
    ReadsTo decoder' (stream ++ chunks.flatten) ∧ into = decodeStream (stream ++ chunks.flatten) ∧
      Bounded decoder' ∧ ChunksFit stream chunks := by
  induction chunks generalizing decoder stream with
  | nil =>
    cases hpush
    rw [List.flatten_nil, List.append_nil]
    exact ⟨h, rfl, hbounded, trivial⟩
  | cons chunk chunks ih =>
    rw [List.foldlM_cons] at hpush
    obtain ⟨state, hchunk, hrest⟩ := Lib.bind_ok hpush
    rcases h.push chunk with ⟨-, hfails⟩ | ⟨-, -, hfails⟩ | ⟨hfits, hdata, next, hnext, hok⟩
    · rw [hfails] at hchunk
      cases hchunk
    · rw [hfails] at hchunk
      cases hchunk
    · rw [hok] at hchunk
      cases hchunk
      have hline : (openLine (stream ++ chunk)).length ≤ maxEventBytes := by
        have hle := Framing.remainder_length_le (10 : UInt8) (openLine stream ++ chunk)
        rw [openLine, Framing.remainder_append]
        rw [List.length_append] at hle
        exact le_trans hle hfits
      have hnextBounded : Bounded next := ⟨by rw [hnext.buffer]; exact hline, by rw [hnext.data]; exact hdata⟩
      obtain ⟨hreads, hevents, hbounded, hfit⟩ := ih hnext hnextBounded hrest
      rw [List.flatten_cons, ← List.append_assoc]
      exact ⟨hreads, hevents, hbounded, hfits, hfit⟩

/-- Chunks that fit are refused only for data that is over the bound. -/
theorem ReadsTo.foldlM_error {stream : List UInt8} (h : ReadsTo decoder stream) {chunks : List (List UInt8)}
    {error : String} (hpush : chunks.foldlM (fun state chunk => SseDecoder.push state.1 chunk state.2)
      (decoder, decodeStream stream) = .error error) (hfit : ChunksFit stream chunks) :
    ∃ start, start <+: stream ++ chunks.flatten ∧ maxEventBytes < (openData start).utf8ByteSize := by
  induction chunks generalizing decoder stream with
  | nil => cases hpush
  | cons chunk chunks ih =>
    rw [List.foldlM_cons] at hpush
    rcases h.push chunk with ⟨hlarge, -⟩ | ⟨-, hdata, -⟩ | ⟨-, -, next, hnext, hok⟩
    · exact absurd hfit.1 (not_le.2 hlarge)
    · refine ⟨stream ++ chunk, ?_, hdata⟩
      rw [List.flatten_cons, ← List.append_assoc]
      exact List.prefix_append _ _
    · rw [hok] at hpush
      rw [List.flatten_cons, ← List.append_assoc]
      exact ih hnext hpush hfit.2

/-- **Chunks make no difference to the events**: where every chunk is accepted,
the events are those of the stream as a whole. -/
theorem push_independent (chunks : List (List UInt8)) (decoder : SseDecoder) (events : List SseEvent)
    (h : SseDecoder.pushAll chunks = .ok (decoder, events)) : events = decodeStream chunks.flatten := by
  have hbounded : Bounded SseDecoder.new := ⟨Nat.zero_le _, Nat.zero_le _⟩
  have hread := ReadsTo.new.foldlM_ok hbounded h
  rw [List.nil_append] at hread
  exact hread.2.1

/-- The first chunk ends inside a character, the second between the bytes of a line end. -/
def cakeChunks : List (List UInt8) :=
  [("event: sessions.snapshot\ndata: ".toUTF8.data.toList ++ [0xf0, 0x9f]),
    [0x8d, 0xb0] ++ "\r".toUTF8.data.toList, "\n: keep-alive\ndata: two\n\ndata: thr".toUTF8.data.toList]

theorem cake_decoded : decodeStream cakeChunks.flatten = [⟨"sessions.snapshot", "🍰\ntwo"⟩] := by
  have hpush : (SseDecoder.pushAll cakeChunks).toOption =
      some (⟨"data: thr".toUTF8.data.toList, "", ""⟩, [⟨"sessions.snapshot", "🍰\ntwo"⟩]) := by decide +kernel
  cases hall : SseDecoder.pushAll cakeChunks with
  | error error =>
    rw [hall] at hpush
    cases hpush
  | ok state =>
    rw [hall] at hpush
    obtain rfl := Option.some.inj hpush
    exact (push_independent cakeChunks _ _ hall).symm

/-! ## The size of an event -/

/-- Some point of the stream has an unfinished line, or the data of an unfinished
event, that is over the bound. -/
def Oversized (stream : List UInt8) : Prop :=
  ∃ start, start <+: stream ∧
    (maxEventBytes < (openLine start).length ∨ maxEventBytes < (openData start).utf8ByteSize)

/-- The size error is for oversized events alone, whatever the chunks. -/
structure SizeBound (chunks : List (List UInt8)) : Prop where
  refused : ∀ error, SseDecoder.pushAll chunks = .error error → Oversized chunks.flatten
  accepted : ¬ Oversized chunks.flatten → ∃ state, SseDecoder.pushAll chunks = .ok state
  retained : ∀ earlier, earlier <+: chunks → ∀ decoder events, SseDecoder.pushAll earlier = .ok (decoder, events) →
    Bounded decoder

/-- **The bound is on an event exactly where no event is over it and every chunk
fits with the line it continues**, or some event is over it. -/
theorem size_bound_iff (chunks : List (List UInt8)) :
    SizeBound chunks ↔ (Oversized chunks.flatten ∨ ChunksFit [] chunks) := by
  have hbounded : Bounded SseDecoder.new := ⟨Nat.zero_le _, Nat.zero_le _⟩
  constructor
  · intro h
    by_cases hover : Oversized chunks.flatten
    · exact .inl hover
    · obtain ⟨state, hok⟩ := h.accepted hover
      exact .inr (ReadsTo.new.foldlM_ok hbounded hok).2.2.2
  · intro h
    have hrefused : ∀ error, SseDecoder.pushAll chunks = .error error → Oversized chunks.flatten := by
      intro error herror
      rcases h with hover | hfit
      · exact hover
      · obtain ⟨start, hstart, hdata⟩ := ReadsTo.new.foldlM_error herror hfit
        exact ⟨start, hstart, .inr hdata⟩
    refine ⟨hrefused, fun hwithin => ?_, fun earlier _ decoder events hok => ?_⟩
    · cases hpush : SseDecoder.pushAll chunks with
      | error error => exact absurd (hrefused error hpush) hwithin
      | ok state => exact ⟨state, rfl⟩
    · exact (ReadsTo.new.foldlM_ok hbounded hok).2.2.1

/-! ### A chunk of many small events -/

section SmallEvents

variable {block start : List UInt8}

/-- Bytes that end an event: no line of theirs is unfinished and no data pending. -/
def Closed (block : List UInt8) : Prop := openLine block = [] ∧ Framing.remainder "" (linesOf block) = []

theorem Closed.append (h : Closed block) (rest : List UInt8) :
    openLine (block ++ rest) = openLine rest ∧ openData (block ++ rest) = openData rest := by
  have hline : openLine (block ++ rest) = openLine rest := by
    have hblock : Framing.remainder 10 block = [] := h.1
    rw [openLine, Framing.remainder_append, hblock, List.nil_append, openLine]
  refine ⟨hline, ?_⟩
  rw [openData, linesOf_append, h.1, List.nil_append, Framing.remainder_append, h.2, List.nil_append, openData]

/-- A start of repeated blocks is some of them and a start of one more. -/
theorem exists_blocks {n : Nat} (h : start <+: (List.replicate n block).flatten) :
    ∃ k rest, rest <+: block ∧ start = (List.replicate k block).flatten ++ rest := by
  induction n generalizing start with
  | zero =>
    rw [List.replicate_zero, List.flatten_nil, List.prefix_nil] at h
    exact ⟨0, [], List.nil_prefix, by simp [h]⟩
  | succ n ih =>
    rw [List.replicate_succ, List.flatten_cons] at h
    rcases List.prefix_or_prefix_of_prefix h (List.prefix_append block _) with hshort | ⟨more, rfl⟩
    · exact ⟨0, start, hshort, by simp⟩
    · obtain ⟨k, rest, hrest, hmore⟩ := ih ((List.prefix_append_right_inj block).1 h)
      exact ⟨k + 1, rest, hrest, by rw [hmore, List.replicate_succ, List.flatten_cons, List.append_assoc]⟩

theorem Closed.not_oversized (h : Closed block) (hlength : block.length ≤ maxEventBytes)
    (hdata : ∀ start ∈ block.inits, (openData start).utf8ByteSize ≤ maxEventBytes) (n : Nat) :
    ¬ Oversized (List.replicate n block).flatten := by
  rintro ⟨start, hstart, hover⟩
  obtain ⟨k, rest, hrest, rfl⟩ := exists_blocks hstart
  have hopen : ∀ k, openLine ((List.replicate k block).flatten ++ rest) = openLine rest ∧
      openData ((List.replicate k block).flatten ++ rest) = openData rest := by
    intro k
    induction k with
    | zero => exact ⟨rfl, rfl⟩
    | succ k ih =>
      rw [List.replicate_succ, List.flatten_cons, List.append_assoc, (h.append _).1, (h.append _).2]
      exact ih
  rw [(hopen k).1, (hopen k).2] at hover
  rcases hover with hover | hover
  · have hline := Framing.remainder_length_le (10 : UInt8) rest
    have hshort := hrest.length_le
    rw [← openLine] at hline
    omega
  · exact absurd (hdata rest ((List.mem_inits rest block).2 hrest)) (not_le.2 hover)

end SmallEvents

def patchEvent : List UInt8 := "event: sessions.patch\ndata: 1\n\n".toUTF8.data.toList

/-- Events of 31 bytes each, 40000 of them in one chunk. -/
def burst : List UInt8 := (List.replicate 40000 patchEvent).flatten

/-- A chunk of more than a mebibyte is refused though each of its events is small. -/
theorem burst_refused : ¬ SizeBound [burst] := by
  intro h
  have hclosed : Closed patchEvent := ⟨by decide +kernel, by decide +kernel⟩
  have hlength : patchEvent.length = 31 := by decide +kernel
  have hwithin : ¬ Oversized burst :=
    hclosed.not_oversized (by rw [hlength]; decide) (by decide +kernel) 40000
  refine hwithin ?_
  have hlarge : maxEventBytes < (openLine []).length + burst.length := by
    rw [burst, List.length_flatten, List.map_replicate, List.sum_replicate_nat, hlength]
    decide
  have hover := h.refused SseDecoder.oversized ?_
  · rwa [List.flatten_singleton] at hover
  · rcases ReadsTo.new.push burst with ⟨-, herror⟩ | ⟨hfits, -⟩ | ⟨hfits, -⟩
    · rw [SseDecoder.pushAll, List.foldlM_cons]
      exact congrArg (· >>= _) herror
    · exact absurd hfits (not_le.2 hlarge)
    · exact absurd hfits (not_le.2 hlarge)

end Atmux.Sse
