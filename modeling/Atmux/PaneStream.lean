/-
The stream of one pane to one browser: `pane_events`, and the client that
follows it.

The loop remembers the last output it sent. A wake whose advertised hash is
still that output's is skipped without a read; a read that changed is sent as a
patch against the remembered output where that is shorter, else as a snapshot.
`client_follows`: whatever the wakes find, the client holds the content of the
last read that changed, and refuses no patch.
-/
import Atmux.Lib.Result
import Atmux.Lib.Splice
import Atmux.Lib.Text

namespace Atmux.PaneStream

open Lib

structure PaneOutput where
  revision : Nat
  paneId : String
  session : String
  contentHash : String
  content : Option String
  changed : Bool
deriving DecidableEq, Repr

structure PanePatch where
  baseRevision : Nat
  revision : Nat
  paneId : String
  contentHash : String
  startLine : Nat
  deleteLines : Nat
  lines : List String
deriving DecidableEq, Repr

/-! ## Patches -/

def contentLines (content : String) : List String :=
  if content.isEmpty then [] else (Text.split '\n' content.toList).map String.ofList

/-- `&items[start..stop]`, which is out of range in no other case. -/
def slice {α : Type} (items : List α) (start stop : Nat) : Option (List α) :=
  if start ≤ stop ∧ stop ≤ items.length then some ((items.take stop).drop start) else none

/-- The patch between two outputs, if no index is out of range. -/
def panePatch (previous current : PaneOutput) (oldContent newContent : String) : Option PanePatch := do
  let old := contentLines oldContent
  let new := contentLines newContent
  let start := Splice.agreeing old new
  let oldRest ← slice old start old.length
  let newRest ← slice new start new.length
  let finish := Splice.agreeing oldRest.reverse newRest.reverse
  let lines ← slice new start (new.length - finish)
  some {
    baseRevision := previous.revision, revision := current.revision, paneId := current.paneId
    contentHash := current.contentHash, startLine := start, deleteLines := old.length - (start + finish), lines }

theorem slice_append {α : Type} (before items after : List α) :
    slice (before ++ items ++ after) before.length (before.length + items.length) = some items := by
  have hrange : before.length ≤ before.length + items.length ∧
      before.length + items.length ≤ (before ++ items ++ after).length := by
    simp only [List.length_append]
    omega
  rw [slice, if_pos hrange, ← List.length_append, List.take_left, List.drop_left]

/-- **A patch turns the old lines into the new**, by an edit within the old lines. -/
theorem panePatch_splices (previous current : PaneOutput) (oldContent newContent : String) :
    ∃ patch, panePatch previous current oldContent newContent = some patch ∧
      patch.baseRevision = previous.revision ∧ patch.revision = current.revision ∧
      patch.startLine + patch.deleteLines ≤ (contentLines oldContent).length ∧
      Splice.splice (contentLines oldContent) patch.startLine patch.deleteLines patch.lines = contentLines newContent := by
  obtain ⟨start, middle, middle', finish, hold, hnew, hstart, hfinish⟩ :=
    Splice.exists_middle (contentLines oldContent) (contentLines newContent)
  have holdRest : slice (contentLines oldContent) start.length (contentLines oldContent).length = some (middle ++ finish) := by
    have hslice := slice_append start (middle ++ finish) []
    rw [List.append_nil, ← List.append_assoc, ← hold, ← List.length_append, ← List.append_assoc, ← hold] at hslice
    exact hslice
  have hnewRest : slice (contentLines newContent) start.length (contentLines newContent).length = some (middle' ++ finish) := by
    have hslice := slice_append start (middle' ++ finish) []
    rw [List.append_nil, ← List.append_assoc, ← hnew, ← List.length_append, ← List.append_assoc, ← hnew] at hslice
    exact hslice
  have hcount : finish.length = Splice.agreeing (middle ++ finish).reverse (middle' ++ finish).reverse := by
    rw [hold, hnew, List.append_assoc, List.append_assoc, List.drop_left, List.drop_left] at hfinish
    exact hfinish
  have hlines : slice (contentLines newContent) start.length ((contentLines newContent).length - finish.length) = some middle' := by
    have hslice := slice_append start middle' finish
    have hstop : (contentLines newContent).length - finish.length = start.length + middle'.length := by
      rw [hnew]
      simp only [List.length_append]
      omega
    rw [hstop, hnew]
    exact hslice
  have hdelete : (contentLines oldContent).length - (start.length + finish.length) = middle.length := by
    rw [hold]
    simp only [List.length_append]
    omega
  refine ⟨{
    baseRevision := previous.revision, revision := current.revision, paneId := current.paneId
    contentHash := current.contentHash, startLine := start.length, deleteLines := middle.length, lines := middle' },
    ?_, rfl, rfl, ?_, ?_⟩
  · simp only [panePatch, ← hstart, holdRest, hnewRest, Option.bind_eq_bind, Option.bind_some, ← hcount, hlines, hdelete]
  · rw [hold]
    simp only [List.length_append]
    omega
  · rw [Splice.splice, hold, hnew, ← List.length_append, List.drop_left, List.append_assoc start, List.take_left]

theorem intercalate_split (text : List Char) : ['\n'].intercalate (Text.split '\n' text) = text := by
  induction text with
  | nil => rfl
  | cons c text ih =>
    rw [Text.split]
    cases hsplit : Text.split '\n' text with
    | nil => exact absurd hsplit Text.split_ne_nil
    | cons field fields =>
      rw [hsplit] at ih
      by_cases hc : c = '\n'
      · rw [if_pos hc, List.intercalate_cons_cons, ih, hc]
        rfl
      · rw [if_neg hc]
        cases fields with
        | nil => simpa using ih
        | cons other fields =>
          simp only [List.intercalate_cons_cons, List.cons_append] at ih ⊢
          rw [ih]

/-- Lines joined again are the text. -/
theorem intercalate_contentLines (content : String) : "\n".intercalate (contentLines content) = content := by
  rw [contentLines]
  split
  next hempty => simpa using (String.isEmpty_iff.1 hempty).symm
  next =>
    rw [← String.toList_inj, String.toList_intercalate, List.map_map]
    have hlists : (Text.split '\n' content.toList).map (String.toList ∘ String.ofList) = Text.split '\n' content.toList := by
      simp [Function.comp_def]
    rw [hlists]
    exact intercalate_split content.toList

/-! ## The loop -/

inductive ErrorKind where
  | badRequest
  | notFound
  | conflict
  | offline
  | upstream
  | internal
deriving DecidableEq, Repr

structure PaneError where
  message : String
  kind : ErrorKind
deriving DecidableEq, Repr

inductive PaneEvent where
  /-- `pane.snapshot` -/
  | snapshot (output : PaneOutput)
  /-- `pane.patch` -/
  | patch (patch : PanePatch)
  /-- `pane.error` -/
  | error (message kind : String)
  /-- `pane.removed` -/
  | removed
deriving DecidableEq, Repr

/-- The `kind` a `pane.error` event names. -/
def ErrorKind.label : ErrorKind → String
  | .offline => "offline"
  | .upstream => "upstream"
  | .badRequest | .notFound | .conflict => "request"
  | .internal => "internal"

/-- The event of a failed read, unless the same reason was reported, and the reason reported then. -/
def paneErrorEvent (error : PaneError) (reported : Option String) : Option PaneEvent × Option String :=
  if reported = some error.message then (none, reported)
  else (some (.error error.message error.kind.label), some error.message)

/-- What a read finds of the pane: its hash, and its text as it would be sent. -/
structure Reading where
  revision : Nat
  paneId : String
  session : String
  contentHash : String
  text : String
deriving DecidableEq, Repr

/-- The output of a read by a client that has the content with a known hash. -/
def Reading.output (reading : Reading) (knownHash : Option String) : PaneOutput :=
  let changed := decide (knownHash ≠ some reading.contentHash)
  { revision := reading.revision, paneId := reading.paneId, session := reading.session
    contentHash := reading.contentHash, content := if changed then some reading.text else none, changed }

/-- One turn of the loop: the hash that is advertised for the pane then, and
what a read finds then. -/
structure Wake where
  advertised : Option String
  read : Except PaneError (Option Reading)

/-- `true` when the answer is unknown. -/
def Wake.paneMayHaveChanged (wake : Wake) (knownHash : String) : Bool :=
  match wake.advertised with
  | none => true
  | some advertised => advertised != knownHash

def Wake.paneOutput (wake : Wake) (knownHash : Option String) : Except PaneError (Option PaneOutput) :=
  wake.read.map fun reading => reading.map fun reading => reading.output knownHash

inductive Stage where
  | opening
  | following (previous : PaneOutput)
  | closed
  /-- A slice was out of range. -/
  | panicked
deriving DecidableEq, Repr

/-- The loop between two turns. -/
structure PaneEvents where
  stage : Stage
  reported : Option String
deriving DecidableEq, Repr

/-- What a turn has done. -/
structure Turn where
  next : PaneEvents
  read : Option PaneOutput
  sent : List PaneEvent

section Loop

-- The texts that events are encoded as decide how a change is sent.
variable (patchJson : PanePatch → String) (snapshotJson : PaneOutput → String)

def failed (stream : PaneEvents) (error : PaneError) : Turn :=
  let event := paneErrorEvent error stream.reported
  ⟨{ stream with reported := event.2 }, none, event.1.toList⟩

/-- A change is sent in the shorter of its two forms. -/
def sendChange (previous current : PaneOutput) : Turn :=
  match panePatch previous current (previous.content.getD "") (current.content.getD "") with
  | none => ⟨⟨.panicked, none⟩, some current, []⟩
  | some patch =>
    if (patchJson patch).utf8ByteSize < (snapshotJson current).utf8ByteSize then
      ⟨⟨.following current, none⟩, some current, [.patch patch]⟩
    else ⟨⟨.following current, none⟩, some current, [.snapshot current]⟩

def PaneEvents.turn (stream : PaneEvents) (wake : Wake) : Turn :=
  match stream.stage with
  | .opening =>
    match wake.paneOutput none with
    | .ok (some output) => ⟨⟨.following output, none⟩, some output, [.snapshot output]⟩
    | .ok none => ⟨{ stream with stage := .closed }, none, [.removed]⟩
    | .error error => failed stream error
  | .following previous =>
    if !wake.paneMayHaveChanged previous.contentHash then ⟨stream, none, []⟩
    else
      match wake.paneOutput (some previous.contentHash) with
      | .ok none => ⟨{ stream with stage := .closed }, none, [.removed]⟩
      | .error error => failed stream error
      | .ok (some current) =>
        if current.changed then sendChange patchJson snapshotJson previous current
        else ⟨⟨stream.stage, none⟩, some current, []⟩
  | .closed => ⟨stream, none, []⟩
  | .panicked => ⟨stream, none, []⟩

/-- The turns of the loop over what it wakes to. -/
def PaneEvents.turns : PaneEvents → List Wake → List Turn
  | _, [] => []
  | stream, wake :: wakes =>
    let turn := stream.turn patchJson snapshotJson wake
    turn :: turn.next.turns wakes

end Loop

/-- `pane_events` before its first read. -/
def start : PaneEvents := ⟨.opening, none⟩

def sent (turns : List Turn) : List PaneEvent := turns.flatMap Turn.sent

/-- The last read of a run that changed. -/
def lastChange (turns : List Turn) : Option PaneOutput :=
  ((turns.filterMap Turn.read).filter PaneOutput.changed).getLast?

/-! ## The client -/

/-- What a client shows of the pane. -/
@[ext] structure Shown where
  text : String
  revision : Nat
deriving DecidableEq, Repr

/-- A client follows one event; `none` when it refuses a patch that is not of
what it shows, or outside of it. -/
def receive : Option Shown → PaneEvent → Option (Option Shown)
  | _, .snapshot output => some (some ⟨output.content.getD "", output.revision⟩)
  | some shown, .patch patch =>
    let lines := contentLines shown.text
    if patch.baseRevision = shown.revision ∧ patch.startLine + patch.deleteLines ≤ lines.length then
      some (some ⟨"\n".intercalate (Splice.splice lines patch.startLine patch.deleteLines patch.lines), patch.revision⟩)
    else none
  | none, PaneEvent.patch _ => none
  | shown, .error _ _ => some shown
  | shown, .removed => some shown

def receiveAll (events : List PaneEvent) : Option (Option Shown) := events.foldlM receive none

def PaneOutput.shown (output : PaneOutput) : Shown := ⟨output.content.getD "", output.revision⟩

def PaneEvent.revision : PaneEvent → Option Nat
  | .snapshot output => some output.revision
  | .patch edit => some edit.revision
  | .error _ _ => none
  | .removed => none

/-- The revision of the last event that has one. -/
def lastRevision (events : List PaneEvent) : Option Nat := (events.filterMap PaneEvent.revision).getLast?

/-! ## One turn -/

section Turns

variable {patchJson : PanePatch → String} {snapshotJson : PaneOutput → String} {stream : PaneEvents}
  {last : Option PaneOutput} {shown : Option Shown}

/-- The loop remembers the last change, which the client shows. -/
structure Follows (stream : PaneEvents) (last : Option PaneOutput) : Prop where
  following : ∀ previous, stream.stage = .following previous → last = some previous
  opening : stream.stage = .opening → last = none
  in_range : stream.stage ≠ .panicked

/-- The last change after one more read. -/
def change (last read : Option PaneOutput) : Option PaneOutput := (read.filter PaneOutput.changed).or last

variable (shown) in
theorem Follows.failed (h : Follows stream last) (error : PaneError) :
    Follows (failed stream error).next last ∧ (failed stream error).read = none ∧
      (failed stream error).sent.foldlM receive shown = some shown := by
  have hsent : ∀ event ∈ (paneErrorEvent error stream.reported).1, receive shown event = some shown := by
    intro event hevent
    rw [paneErrorEvent] at hevent
    split at hevent
    · cases hevent
    · obtain rfl := Option.some.inj hevent
      cases shown <;> rfl
  refine ⟨⟨h.following, h.opening, h.in_range⟩, rfl, ?_⟩
  rw [PaneStream.failed]
  cases hevent : (paneErrorEvent error stream.reported).1 with
  | none => rfl
  | some event =>
    rw [Option.toList_some, List.foldlM_cons, hsent event hevent]
    rfl

variable (patchJson snapshotJson) in
/-- A change is sent as a patch that the client applies, or as a snapshot. -/
theorem sendChange_follows (previous current : PaneOutput) :
    Follows (sendChange patchJson snapshotJson previous current).next (some current) ∧
      (sendChange patchJson snapshotJson previous current).read = some current ∧
      (sendChange patchJson snapshotJson previous current).sent.foldlM receive (some previous.shown) =
        some (some current.shown) := by
  obtain ⟨patch, hpatch, hbase, hrevision, hrange, hsplice⟩ :=
    panePatch_splices previous current (previous.content.getD "") (current.content.getD "")
  have hfollows : Follows ⟨.following current, none⟩ (some current) := by
    refine ⟨fun previous h => ?_, fun h => ?_, fun h => ?_⟩
    · rw [Stage.following.inj h]
    · cases h
    · cases h
  rw [sendChange, hpatch]
  dsimp only
  split
  · refine ⟨hfollows, rfl, ?_⟩
    have happlied : receive (some previous.shown) (.patch patch) = some (some current.shown) := by
      rw [receive, if_pos ⟨hbase, hrange⟩]
      exact congrArg (fun shown => some (some shown)) (Shown.ext
        ((congrArg "\n".intercalate hsplice).trans (intercalate_contentLines _)) hrevision)
    rw [List.foldlM_cons, happlied]
    rfl
  · exact ⟨hfollows, rfl, rfl⟩

/-- A client that has nothing is sent all there is. -/
theorem changed_of_first {wake : Wake} {output : PaneOutput} (h : wake.paneOutput none = .ok (some output)) :
    output.changed = true := by
  rw [Wake.paneOutput] at h
  obtain ⟨reading, -, hreading⟩ := Lib.map_ok h
  obtain ⟨reading, -, rfl⟩ := Option.map_eq_some_iff.1 hreading
  simp [Reading.output]

theorem change_changed {output : PaneOutput} (h : output.changed = true) : change last (some output) = some output := by
  simp [change, Option.filter, h]

theorem change_unchanged {output : PaneOutput} (h : output.changed = false) : change last (some output) = last := by
  simp [change, Option.filter, h]

variable (patchJson snapshotJson) in
/-- **One turn**: the client follows what it sends, and shows the last change again. -/
theorem Follows.turn (h : Follows stream last) (wake : Wake) :
    Follows (stream.turn patchJson snapshotJson wake).next (change last (stream.turn patchJson snapshotJson wake).read) ∧
      (stream.turn patchJson snapshotJson wake).sent.foldlM receive (last.map PaneOutput.shown) =
        some ((change last (stream.turn patchJson snapshotJson wake).read).map PaneOutput.shown) := by
  rw [PaneEvents.turn]
  cases hstage : stream.stage with
  | opening =>
    obtain rfl := h.opening hstage
    cases hread : wake.paneOutput none with
    | error error =>
      obtain ⟨hnext, hnone, hsent⟩ := h.failed none error
      dsimp only
      rw [hnone]
      exact ⟨hnext, hsent⟩
    | ok output =>
      cases output with
      | none => exact ⟨⟨fun _ h => (by cases h), fun h => (by cases h), fun h => (by cases h)⟩, rfl⟩
      | some output =>
        dsimp only
        rw [change_changed (changed_of_first hread)]
        refine ⟨⟨fun previous h => ?_, fun h => (by cases h), fun h => (by cases h)⟩, rfl⟩
        rw [Stage.following.inj h]
  | following previous =>
    obtain rfl := h.following previous hstage
    dsimp only
    split
    · exact ⟨h, rfl⟩
    cases hread : wake.paneOutput (some previous.contentHash) with
    | error error =>
      obtain ⟨hnext, hnone, hsent⟩ := h.failed (some previous.shown) error
      dsimp only
      rw [hnone]
      exact ⟨hnext, hsent⟩
    | ok output =>
      cases output with
      | none => exact ⟨⟨fun _ h => (by cases h), fun h => (by cases h), fun h => (by cases h)⟩, rfl⟩
      | some current =>
        dsimp only
        cases hchanged : current.changed with
        | true =>
          obtain ⟨hnext, hreads, hsent⟩ := sendChange_follows patchJson snapshotJson previous current
          rw [if_pos rfl, hreads, change_changed hchanged]
          exact ⟨hnext, hsent⟩
        | false =>
          rw [if_neg Bool.false_ne_true, change_unchanged hchanged]
          exact ⟨⟨fun _ h => (by rw [Stage.following.inj h]), fun h => (by cases h), fun h => (by cases h)⟩, rfl⟩
  | closed => exact ⟨h, by cases last <;> rfl⟩
  | panicked => exact absurd hstage h.in_range

/-- The last change of a run that starts after one. -/
def changeFrom (last : Option PaneOutput) (turns : List Turn) : Option PaneOutput :=
  turns.foldl (fun last turn => change last turn.read) last

variable (patchJson snapshotJson) in
/-- **Any run**: the client follows all that is sent. -/
theorem Follows.turns (h : Follows stream last) (wakes : List Wake) :
    (sent (stream.turns patchJson snapshotJson wakes)).foldlM receive (last.map PaneOutput.shown) =
        some ((changeFrom last (stream.turns patchJson snapshotJson wakes)).map PaneOutput.shown) ∧
      ∀ turn ∈ stream.turns patchJson snapshotJson wakes, turn.next.stage ≠ .panicked := by
  induction wakes generalizing stream last with
  | nil => exact ⟨rfl, by simp [PaneEvents.turns]⟩
  | cons wake wakes ih =>
    obtain ⟨hnext, hsent⟩ := h.turn patchJson snapshotJson wake
    obtain ⟨hrest, hrange⟩ := ih hnext
    rw [PaneEvents.turns]
    refine ⟨?_, fun turn hturn => ?_⟩
    · rw [sent, List.flatMap_cons, List.foldlM_append, hsent]
      exact hrest
    · rcases List.mem_cons.1 hturn with rfl | hturn
      · exact hnext.in_range
      · exact hrange turn hturn

theorem changeFrom_eq (turns : List Turn) : changeFrom last turns = (lastChange turns).or last := by
  induction turns generalizing last with
  | nil => rfl
  | cons turn turns ih =>
    rw [changeFrom, List.foldl_cons, ← changeFrom, ih, lastChange, lastChange, List.filterMap_cons]
    cases hread : turn.read with
    | none => rfl
    | some output =>
      cases hchanged : output.changed with
      | true =>
        rw [change_changed hchanged]
        dsimp only
        rw [List.filter_cons_of_pos hchanged, List.getLast?_cons]
        cases ((turns.filterMap Turn.read).filter PaneOutput.changed).getLast? <;> rfl
      | false =>
        rw [change_unchanged hchanged]
        dsimp only
        rw [List.filter_cons_of_neg (by simp [hchanged])]

end Turns

/-- A patch that is followed is based on what is shown. -/
theorem receive_patch {patch : PanePatch} {shown next : Option Shown} (h : receive shown (.patch patch) = some next) :
    shown.map Shown.revision = some patch.baseRevision ∧ next.map Shown.revision = some patch.revision := by
  cases shown with
  | none => cases h
  | some shown =>
    rw [receive] at h
    split at h
    next hbase =>
      obtain rfl := Option.some.inj h
      exact ⟨congrArg some hbase.1.symm, rfl⟩
    · cases h

theorem receive_revision {event : PaneEvent} {shown next : Option Shown} (h : receive shown event = some next) :
    next.map Shown.revision = event.revision.or (shown.map Shown.revision) := by
  cases event with
  | patch patch => exact (receive_patch h).2
  | snapshot output => cases shown <;> cases h <;> rfl
  | error message kind => cases shown <;> cases h <;> rfl
  | removed => cases shown <;> cases h <;> rfl

/-- The revision a client shows is that of the last event that has one. -/
theorem revision_of_receive {events : List PaneEvent} {shown shown' : Option Shown}
    (h : events.foldlM receive shown = some shown') :
    shown'.map Shown.revision = (lastRevision events).or (shown.map Shown.revision) := by
  induction events generalizing shown with
  | nil =>
    obtain rfl := Option.some.inj h
    rfl
  | cons event events ih =>
    rw [List.foldlM_cons] at h
    obtain ⟨next, hevent, hrest⟩ := Option.bind_eq_some_iff.1 h
    rw [ih hrest, lastRevision, lastRevision, List.filterMap_cons]
    rw [receive_revision hevent]
    cases event.revision with
    | none => rfl
    | some revision =>
      rw [List.getLast?_cons]
      cases (events.filterMap PaneEvent.revision).getLast? <;> rfl

/-- A patch that is followed is based on the event before it. -/
theorem base_of_receive {before after : List PaneEvent} {patch : PanePatch} {shown : Option Shown}
    (h : receiveAll (before ++ .patch patch :: after) = some shown) : lastRevision before = some patch.baseRevision := by
  rw [receiveAll, List.foldlM_append] at h
  obtain ⟨held, hbefore, hrest⟩ := Option.bind_eq_some_iff.1 h
  rw [List.foldlM_cons] at hrest
  obtain ⟨next, hpatch, -⟩ := Option.bind_eq_some_iff.1 hrest
  have hrevision := revision_of_receive hbefore
  rw [Option.map_none, Option.or_none] at hrevision
  rw [← hrevision, (receive_patch hpatch).1]

/-- **A pane is rebuilt from its patches.** Between any two texts the patch is
within the old lines and turns them into the new ones; along any run the client
applies every patch, each based on the revision sent before it, and holds the
content of the last read that changed. -/
theorem pane_patches :
    (∀ (previous current : PaneOutput) (old new : String), ∃ patch,
      panePatch previous current old new = some patch ∧
      patch.startLine + patch.deleteLines ≤ (contentLines old).length ∧
      Splice.splice (contentLines old) patch.startLine patch.deleteLines patch.lines = contentLines new ∧
      "\n".intercalate (Splice.splice (contentLines old) patch.startLine patch.deleteLines patch.lines) = new) ∧
    ∀ (patchJson : PanePatch → String) (snapshotJson : PaneOutput → String) (wakes : List Wake),
      let turns := start.turns patchJson snapshotJson wakes
      receiveAll (sent turns) = some ((lastChange turns).map PaneOutput.shown) ∧
      (∀ before patch after, sent turns = before ++ .patch patch :: after →
        lastRevision before = some patch.baseRevision) ∧
      ∀ turn ∈ turns, turn.next.stage ≠ .panicked := by
  refine ⟨fun previous current old new => ?_, fun patchJson snapshotJson wakes => ?_⟩
  · obtain ⟨patch, hpatch, -, -, hrange, hsplice⟩ := panePatch_splices previous current old new
    refine ⟨patch, hpatch, hrange, hsplice, ?_⟩
    rw [hsplice, intercalate_contentLines]
  · have hstart : Follows start none := ⟨fun _ h => (by cases h), fun _ => rfl, fun h => (by cases h)⟩
    obtain ⟨hfollows, hrange⟩ := hstart.turns patchJson snapshotJson wakes
    rw [changeFrom_eq, Option.or_none] at hfollows
    refine ⟨hfollows, fun before patch after hsplit => ?_, hrange⟩
    rw [hsplit] at hfollows
    exact base_of_receive hfollows

end Atmux.PaneStream
