/-
That the ids of a conversation's entries identify them.

`OwnIds` says of a log that the harness's ids are its own: what two records
supply, or two blocks of one record, is not the same id, but for a tool's
output that names its call. The ids of a view are then distinct, and an entry
that is still in view when records were appended has the id it had, except for
an event that response records were put before (`transcript_ids_right`).
-/
import Atmux.Transcript.Parse

namespace Atmux.Transcript

open Lib Pulse

/-! ## The harness's ids -/

/-- What the harness supplied of an id. -/
def Id.supplied : Id → String
  | given id => id
  | derived base _ _ => base

def derivedKinds : List String := ["text", "tool", "tool-result"]

/-- Ids of the form that is derived from a record's id. -/
def IsDerived (id : String) : Prop := ∃ base, ∃ kind ∈ derivedKinds, ∃ index, id = base ++ suffix kind index

/-- A call's output, which names the call. -/
def Call.AnswersTo (earlier later : Call) (id : Id) : Prop := later.answers = some id.text ∧ earlier.isTool = true

/-- Ids that are the harness's own, in the calls of one record after another. -/
structure OwnIds (records : List (List Call)) : Prop where
  others : records.Pairwise fun calls calls' => ∀ x ∈ calls, ∀ y ∈ calls', ∀ i j, x.id? = some i → y.id? = some j →
    i.supplied = j.supplied → x.AnswersTo y j
  within : ∀ calls ∈ records, calls.Pairwise fun x y => ∀ id, x.id? = some (.given id) → y.id? = some (.given id) →
    x.AnswersTo y (.given id)
  genuine : ∀ calls ∈ records, ∀ x ∈ calls, ∀ id, x.id? = some (.given id) → ¬ IsFallback id ∧ ¬ IsDerived id

/-- The derived ids of a record's calls have its blocks' places in order. -/
def Placed (calls : List Call) : Prop :=
  (∀ x ∈ calls, ∀ base kind index, x.id? = some (.derived base kind index) → kind ∈ derivedKinds) ∧
    calls.Pairwise fun x y => ∀ base kind index base' kind' index', x.id? = some (.derived base kind index) →
      y.id? = some (.derived base' kind' index') → index < index'

theorem toList_suffix (base kind : String) (index : Nat) :
    (base ++ suffix kind index).toList = (base.toList ++ ':' :: kind.toList) ++ ':' :: (toString index).toList := by
  simp [suffix, String.toList_append]

theorem derived_inj {base base' kind kind' : String} {index index' : Nat} (hkind : kind ∈ derivedKinds)
    (hkind' : kind' ∈ derivedKinds) (h : base ++ suffix kind index = base' ++ suffix kind' index') :
    base = base' ∧ index = index' := by
  have hplain : ∀ kind ∈ derivedKinds, ':' ∉ kind.toList := by decide
  have hlists := congrArg String.toList h
  rw [toList_suffix, toList_suffix] at hlists
  obtain ⟨hfront, hindex⟩ := append_number_inj (by decide) hlists
  obtain ⟨hbase, _⟩ := Capped.append_sep_inj (hplain kind hkind) (hplain kind' hkind') hfront
  exact ⟨String.toList_injective hbase, hindex⟩

/-- A derived id is not of the form of a numbered one. -/
theorem not_isFallback_derived (base kind : String) (index : Nat) : ¬ IsFallback (base ++ suffix kind index) := by
  intro hfallback
  obtain ⟨prefixKind, hmem, n, hid⟩ := hfallback
  have hplain : ∀ kind ∈ fallbackKinds, ':' ∉ kind.toList := by decide
  have hcolon : ':' ∈ (numbered prefixKind n).toList := by
    rw [← hid, toList_suffix]
    simp
  rw [toList_numbered] at hcolon
  rcases List.mem_append.mp hcolon with hkind | hrest
  · exact hplain prefixKind hmem hkind
  · rcases List.mem_cons.mp hrest with hdash | hnumber
    · exact absurd hdash (by decide)
    · exact not_mem_toString (by decide) n hnumber

theorem usable_eq {id : Option Id} {text : String} (h : usable id = some text) : ∃ i, id = some i ∧ i.text = text := by
  unfold usable at h
  obtain ⟨hmap, _⟩ := Option.filter_eq_some_iff.mp h
  obtain ⟨i, hi, htext⟩ := Option.map_eq_some_iff.mp hmap
  exact ⟨i, hi, htext⟩

section Distinct

variable {records : List (List Call)}

theorem OwnIds.distinct (h : OwnIds records) (hplaced : ∀ calls ∈ records, Placed calls) : Distinct records.flatten := by
  refine ⟨List.pairwise_flatten.mpr ⟨?_, ?_⟩, ?_⟩
  · intro calls hcalls
    obtain ⟨hkinds, hindices⟩ := hplaced calls hcalls
    refine ((h.within calls hcalls).and hindices).imp_of_mem ?_
    intro x y hx hy hboth id hxid hyid
    obtain ⟨i, hi, rfl⟩ := usable_eq hxid
    obtain ⟨j, hj, htext⟩ := usable_eq hyid
    cases i with
    | given a =>
      cases j with
      | given b =>
        obtain rfl : b = a := htext
        exact hboth.1 b hi hj
      | derived base kind index =>
        exact absurd ⟨base, kind, hkinds y hy _ _ _ hj, index, htext.symm⟩ (h.genuine calls hcalls x hx a hi).2
    | derived base kind index =>
      cases j with
      | given b => exact absurd ⟨base, kind, hkinds x hx _ _ _ hi, index, htext⟩ (h.genuine calls hcalls y hy b hj).2
      | derived base' kind' index' =>
        have hsame := (derived_inj (hkinds y hy _ _ _ hj) (hkinds x hx _ _ _ hi) htext).2
        have hlt := hboth.2 _ _ _ _ _ _ hi hj
        omega
  · refine h.others.imp_of_mem ?_
    intro calls calls' hcalls hcalls' hothers x hx y hy id hxid hyid
    obtain ⟨i, hi, rfl⟩ := usable_eq hxid
    obtain ⟨j, hj, htext⟩ := usable_eq hyid
    rw [← htext]
    refine hothers x hx y hy i j hi hj ?_
    cases i with
    | given a =>
      cases j with
      | given b => exact htext.symm
      | derived base kind index =>
        exact absurd ⟨base, kind, (hplaced calls' hcalls').1 y hy _ _ _ hj, index, htext.symm⟩
          (h.genuine calls hcalls x hx a hi).2
    | derived base kind index =>
      cases j with
      | given b =>
        exact absurd ⟨base, kind, (hplaced calls hcalls).1 x hx _ _ _ hi, index, htext⟩
          (h.genuine calls' hcalls' y hy b hj).2
      | derived base' kind' index' =>
        exact (derived_inj ((hplaced calls' hcalls').1 y hy _ _ _ hj) ((hplaced calls hcalls).1 x hx _ _ _ hi) htext).1.symm
  · intro call hcall id hid
    obtain ⟨calls, hcalls, hmem⟩ := List.mem_flatten.mp hcall
    obtain ⟨i, hi, rfl⟩ := usable_eq hid
    cases i with
    | given a => exact (h.genuine calls hcalls call hmem a hi).1
    | derived base kind index => exact not_isFallback_derived base kind index

end Distinct

/-! ## The places of a record's blocks -/

theorem derivedId_eq {base : Option String} {kind kind' base' : String} {index index' : Nat}
    (h : derivedId base kind index = some (.derived base' kind' index')) : kind' = kind ∧ index' = index := by
  unfold derivedId at h
  obtain ⟨value, _, h⟩ := Option.bind_eq_some_iff.mp h
  split at h
  · cases h
  · simp only [Option.some.injEq, Id.derived.injEq] at h
    exact ⟨h.2.1.symm, h.2.2.symm⟩

theorem given_ne_derived {id : Option String} {base kind : String} {index : Nat} :
    id.map Id.given ≠ some (.derived base kind index) := by
  cases id <;> simp

/-- The derived ids from a place on, in order. -/
def PlacedFrom (first : Nat) (calls : List Call) : Prop :=
  Placed calls ∧ ∀ x ∈ calls, ∀ base kind index, x.id? = some (.derived base kind index) → first ≤ index

theorem PlacedFrom.nil (first : Nat) : PlacedFrom first [] :=
  ⟨⟨fun _ h => absurd h List.not_mem_nil, List.Pairwise.nil⟩, fun _ h => absurd h List.not_mem_nil⟩

theorem PlacedFrom.mono {first first' : Nat} {calls : List Call} (h : PlacedFrom first calls) (hle : first' ≤ first) :
    PlacedFrom first' calls :=
  ⟨h.1, fun x hx base kind index hid => hle.trans (h.2 x hx base kind index hid)⟩

/-- A call for the block at the first of the places. -/
theorem PlacedFrom.cons {first : Nat} {call : Call} {calls : List Call} (h : PlacedFrom (first + 1) calls)
    (hcall : ∀ base kind index, call.id? = some (.derived base kind index) → kind ∈ derivedKinds ∧ index = first) :
    PlacedFrom first (call :: calls) := by
  obtain ⟨⟨hkinds, hindices⟩, hfirst⟩ := h
  refine ⟨⟨?_, List.pairwise_cons.mpr ⟨?_, hindices⟩⟩, ?_⟩
  · intro x hx base kind index hid
    rcases List.mem_cons.mp hx with rfl | hx
    · exact (hcall base kind index hid).1
    · exact hkinds x hx base kind index hid
  · intro y hy base kind index base' kind' index' hid hid'
    obtain rfl := (hcall base kind index hid).2
    exact hfirst y hy base' kind' index' hid'
  · intro x hx base kind index hid
    rcases List.mem_cons.mp hx with rfl | hx
    · exact (hcall base kind index hid).2.ge
    · exact Nat.le_of_succ_le (hfirst x hx base kind index hid)

theorem PlacedFrom.plain {first : Nat} {call : Call} {calls : List Call} (h : PlacedFrom first calls)
    (hcall : ∀ base kind index, call.id? ≠ some (.derived base kind index)) : PlacedFrom first (call :: calls) := by
  obtain ⟨⟨hkinds, hindices⟩, hfirst⟩ := h
  refine ⟨⟨?_, List.pairwise_cons.mpr ⟨?_, hindices⟩⟩, ?_⟩
  · intro x hx base kind index hid
    rcases List.mem_cons.mp hx with rfl | hx
    · exact absurd hid (hcall base kind index)
    · exact hkinds x hx base kind index hid
  · intro y hy base kind index base' kind' index' hid
    exact absurd hid (hcall base kind index)
  · intro x hx base kind index hid
    rcases List.mem_cons.mp hx with rfl | hx
    · exact absurd hid (hcall base kind index)
    · exact hfirst x hx base kind index hid

section Placed

variable (serde : Serde)

theorem resultCalls_placed (id timestamp : Option String) (first : Nat) (blocks : List Json) :
    PlacedFrom first (resultCalls serde id timestamp first blocks) := by
  induction blocks generalizing first with
  | nil => exact PlacedFrom.nil first
  | cons block blocks ih =>
    rw [resultCalls]
    split
    · refine (ih (first + 1)).cons ?_
      intro base kind index hid
      rcases Option.or_eq_some_iff.mp hid with hderived | ⟨_, hgiven⟩
      · obtain ⟨rfl, hindex⟩ := derivedId_eq hderived
        exact ⟨by simp [derivedKinds], hindex⟩
      · exact absurd hgiven given_ne_derived
    · exact (ih (first + 1)).mono (Nat.le_succ first)

theorem assistantCalls_placed (id timestamp : Option String) (first : Nat) (usage : Option (Nat × Nat))
    (blocks : List Json) : PlacedFrom first (assistantCalls serde id timestamp first usage blocks) := by
  induction blocks generalizing first usage with
  | nil => exact PlacedFrom.nil first
  | cons block blocks ih =>
    rw [assistantCalls]
    split
    · split
      · refine (ih (first + 1) none).cons ?_
        intro base kind index hid
        obtain ⟨rfl, hindex⟩ := derivedId_eq hid
        exact ⟨by simp [derivedKinds], hindex⟩
      · exact (ih (first + 1) usage).mono (Nat.le_succ first)
    · refine (ih (first + 1) none).cons ?_
      intro base kind index hid
      rcases Option.or_eq_some_iff.mp hid with hgiven | ⟨_, hderived⟩
      · exact absurd hgiven given_ne_derived
      · obtain ⟨rfl, hindex⟩ := derivedId_eq hderived
        exact ⟨by simp [derivedKinds], hindex⟩
    · exact (ih (first + 1) usage).mono (Nat.le_succ first)

theorem placed_single {call : Call} (hcall : ∀ base kind index, call.id? ≠ some (.derived base kind index)) :
    Placed [call] := ((PlacedFrom.nil 0).plain hcall).1

theorem placed_nil : Placed [] := (PlacedFrom.nil 0).1

/-- A user record's text is at most one message, with the record's own id. -/
theorem userMessage_cases (value : Json) (id timestamp : Option String) (usage : Option (Nat × Nat)) :
    userMessage value id timestamp usage = [] ∨
      ∃ call, userMessage value id timestamp usage = [call] ∧ call.id? = id.map .given := by
  unfold userMessage
  split
  · exact .inl rfl
  · dsimp only
    split
    · exact .inr ⟨_, rfl, rfl⟩
    · exact .inr ⟨_, rfl, rfl⟩

theorem pushClaudeUser_placed (value content : Json) (id timestamp : Option String) (usage : Option (Nat × Nat)) :
    Placed (pushClaudeUser serde value content id timestamp usage) := by
  have hplaced : ∀ results, PlacedFrom 0 results → Placed (userMessage value id timestamp usage ++ results) := by
    intro results hresults
    rcases userMessage_cases value id timestamp usage with hnone | ⟨call, hone, hid⟩
    · rw [hnone, List.nil_append]
      exact hresults.1
    · rw [hone, List.singleton_append]
      refine (hresults.plain ?_).1
      intro base kind index
      rw [hid]
      exact given_ne_derived
  unfold pushClaudeUser
  split
  · exact hplaced _ (resultCalls_placed serde id timestamp 0 _)
  · exact hplaced _ (PlacedFrom.nil 0)

theorem claudeCalls_placed (value : Json) : Placed (claudeCalls serde value) := by
  unfold claudeCalls
  split
  · exact placed_nil
  · dsimp only
    split
    · exact placed_nil
    · split
      · exact pushClaudeUser_placed serde value _ _ _ _
      · split
        · exact placed_single fun base kind index => given_ne_derived
        · exact (assistantCalls_placed serde _ _ 0 _ _).1
        · exact placed_nil
      · exact placed_nil

theorem responseMessage_placed (value payload : Json) (role blockType : String) :
    Placed (responseMessage value payload role blockType) := by
  unfold responseMessage
  split
  · exact placed_nil
  · split
    · exact placed_nil
    · exact placed_single fun base kind index => given_ne_derived

theorem responseCalls_placed (value : Json) : Placed (responseCalls serde value) := by
  unfold responseCalls
  split
  · dsimp only
    split
    · split
      · exact responseMessage_placed _ _ _ _
      · exact responseMessage_placed _ _ _ _
      · exact placed_nil
    · exact placed_single fun base kind index => given_ne_derived
    · exact placed_single fun base kind index => given_ne_derived
    · refine placed_single fun base kind index hid => ?_
      rcases Option.or_eq_some_iff.mp hid with hgiven | ⟨_, hgiven⟩
      · exact given_ne_derived hgiven
      · exact given_ne_derived hgiven
    · refine placed_single fun base kind index hid => ?_
      rcases Option.or_eq_some_iff.mp hid with hgiven | ⟨_, hgiven⟩
      · exact given_ne_derived hgiven
      · exact given_ne_derived hgiven
    · exact placed_nil
  · exact placed_nil

theorem readCalls_placed (agent : AgentKind) (value : Json) : Placed (readCalls serde agent value) := by
  cases agent with
  | claude => exact claudeCalls_placed serde value
  | codex => exact responseCalls_placed serde value
  | other => exact placed_nil

end Placed

/-! ## Two readings -/

theorem eventMessage_id? {value payload : Json} {role : String} {call : Call} (h : call ∈ eventMessage value payload role) :
    call.id? = none ∧ call.prefixOf = "message" ∧ call.isTool = false := by
  unfold eventMessage at h
  split at h
  · cases h
  · split at h
    · cases h
    · obtain rfl := List.mem_singleton.mp h
      exact ⟨rfl, rfl, rfl⟩

/-- Events bring no id. -/
theorem eventCalls_id? {value : Json} {call : Call} (h : call ∈ eventCalls value) :
    call.id? = none ∧ call.prefixOf = "message" ∧ call.isTool = false := by
  unfold eventCalls at h
  split at h
  · split at h
    · exact eventMessage_id? h
    · exact eventMessage_id? h
    · cases h
  · cases h

def IsEvent (call : Call) : Prop := call.id? = none ∧ call.prefixOf = "message" ∧ call.isTool = false

theorem Distinct.append_events {calls events : List Call} (h : Distinct calls) (hevents : ∀ call ∈ events, IsEvent call) :
    Distinct (calls ++ events) := by
  have hnone : ∀ call ∈ events, ∀ id, usable call.id? ≠ some id := by
    intro call hcall id hid
    rw [(hevents call hcall).1] at hid
    cases hid
  refine ⟨List.pairwise_append.mpr ⟨h.apart, ?_, ?_⟩, ?_⟩
  · exact List.pairwise_of_forall_mem_list fun x hx y hy id hid => absurd hid (hnone x hx id)
  · intro x hx y hy id hid hid'
    exact absurd hid' (hnone y hy id)
  · intro call hcall id hid
    rcases List.mem_append.mp hcall with hold | hevent
    · exact h.genuine call hold id hid
    · exact absurd hid (hnone call hevent id)

namespace Tracking

variable {calls : List Call} {s : Tracking}

theorem event_name {call : Call} (hevent : IsEvent call) (n : Nat) : call.name n = numbered "message" n := by
  rw [Call.name, hevent.1, hevent.2.1]
  rfl

/-- The last entry has the number before the next. -/
theorem Sound.last_number (h : Sound calls s) {label : Label} (hlast : s.labels.getLast? = some label) :
    label.number + 1 = s.added := by
  have hnumber := congrArg (Option.map Label.number) hlast
  have hle := h.length_le
  have hsome : s.labels ≠ [] := by
    intro hnil
    rw [hnil] at hlast
    cases hlast
  have hpos := List.length_pos_of_ne_nil hsome
  rw [← List.getLast?_map, h.numbers, List.getLast?_range', if_neg (by omega)] at hnumber
  have hvalue : s.added - s.labels.length + s.labels.length - 1 = label.number := Option.some.inj hnumber
  omega

/-- An event's id is not the last entry's. -/
theorem Sound.event_adds (h : Sound calls s) (hdistinct : Distinct calls) {call : Call} (hevent : IsEvent call) :
    call.adds s.messages = true := by
  have hnew : ∀ label, s.labels.getLast? = some label → label.id ≠ numbered "message" s.labels.length := by
    intro label hlast hid
    have hnumber := h.last_number hlast
    rcases h.named label (List.mem_of_getLast? hlast) with ⟨kind, hkind, hlabel⟩ | ⟨earlier, hearlier, hname, _⟩
    · rw [hlabel, h.length] at hid
      exact place_ne (by omega) (by rw [← hnumber]; simp [maxMessages]) (numbered_inj hid)
    · rw [hid] at hname
      exact hdistinct.genuine earlier hearlier _ hname ⟨"message", by simp [fallbackKinds], _, rfl⟩
  have hlast : s.messages.getLast?.any (fun message => message.id == numbered "message" s.messages.length) = false := by
    rw [length_messages, ← length_labels]
    cases hlabels : s.entries.getLast? with
    | none => rw [messages, List.getLast?_map, hlabels]; rfl
    | some entry =>
      have hentry : s.labels.getLast? = some entry.label := by rw [labels, List.getLast?_map, hlabels]; rfl
      rw [messages, List.getLast?_map, hlabels]
      have hne : entry.message.id ≠ numbered "message" s.labels.length := hnew entry.label hentry
      simp [hne]
  have hname := event_name hevent s.messages.length
  cases call with
  | message => simp only [Call.adds, hname, hlast]; rfl
  | tool => exact absurd hevent.2.2 (by simp [Call.isTool])
  | output => exact absurd hevent.2.2 (by simp [Call.isTool])

/-- An event is numbered by what came before it. -/
theorem Sound.event_label {events : List Call} (h : Sound calls s) (hdistinct : Distinct calls)
    (hevents : ∀ call ∈ events, IsEvent call) {first base : Nat} (hadded : s.added = base + first)
    (hold : ∀ label ∈ s.labels, label.source.pass = 1 → label.id = numbered "message" (place (base + label.source.call)))
    {label : Label} (hlabel : label ∈ (s.run 1 first events).labels) (hpass : label.source.pass = 1) :
    label.id = numbered "message" (place (base + label.source.call)) := by
  induction events generalizing calls s first with
  | nil => exact hold label hlabel hpass
  | cons call events ih =>
    obtain ⟨hcall, hrest⟩ := List.forall_mem_cons.mp hevents
    have hdistinct' : Distinct (calls ++ [call]) :=
      hdistinct.append_events fun c hc => by rw [List.mem_singleton.mp hc]; exact hcall
    have hadds := h.event_adds hdistinct hcall
    refine ih (h.step hdistinct' ⟨1, first⟩) hdistinct' hrest ?_ ?_ hlabel
    · rw [Tracking.step, if_pos hadds]
      show s.added + 1 = base + (first + 1)
      omega
    · intro label hlabel hpass
      rcases mem_step_labels hlabel with hbefore | ⟨hsource, _, hid⟩
      · exact hold label hbefore hpass
      · rw [hid, event_name hcall, h.length, hadded, hsource]

end Tracking

/-! ## Views -/

section Views

variable (serde : Serde) (agent : AgentKind)

/-- How many entries a log's first reading makes. -/
def firstEntries (records : List Json) : Nat := (firstReading serde agent records).added

/-- An event of a log is in view. -/
def Shows (records : List Json) (event : Nat) : Prop := ∃ label ∈ (reading serde agent records).shown, label.source = ⟨1, event⟩

/-- An event that both views show has more entries of the first reading before
it in the one than in the other, and not by a whole number of cuts. -/
def Renumbered (records appended : List Json) : Prop :=
  ∃ event, Shows serde agent records event ∧ Shows serde agent (records ++ appended) event ∧
    place (firstEntries serde agent records + event) ≠ place (firstEntries serde agent (records ++ appended) + event)

/-- The ids of the view of a grown log are distinct, and what was in view
before has the id it had. -/
def IdsIdentify (records appended : List Json) : Prop :=
  ((boundMessages (parse serde agent (records ++ appended))).1.map TranscriptMessage.id).Nodup ∧
    ∀ label ∈ (reading serde agent records).shown, ∀ label' ∈ (reading serde agent (records ++ appended)).shown,
      label.source = label'.source → label.id = label'.id

variable {serde agent} {records appended : List Json}

theorem OwnIds.append_left {calls calls' : List (List Call)} (h : OwnIds (calls ++ calls')) : OwnIds calls :=
  ⟨(List.pairwise_append.mp h.others).1, fun c hc => h.within c (List.mem_append_left _ hc),
    fun c hc => h.genuine c (List.mem_append_left _ hc)⟩

theorem firstReading_distinct (h : OwnIds (records.map (readCalls serde agent))) :
    Distinct (records.flatMap (readCalls serde agent)) := by
  refine h.distinct ?_
  intro calls hcalls
  obtain ⟨value, _, rfl⟩ := List.mem_map.mp hcalls
  exact readCalls_placed serde agent value

theorem firstReading_sound (h : OwnIds (records.map (readCalls serde agent))) :
    Tracking.Sound (records.flatMap (readCalls serde agent)) (firstReading serde agent records) :=
  Tracking.Sound.empty.run (firstReading_distinct h) 0 0

theorem reading_cases (serde : Serde) (agent : AgentKind) (records : List Json) :
    reading serde agent records = firstReading serde agent records ∨
      reading serde agent records = (firstReading serde agent records).run 1 0 (records.flatMap eventCalls) := by
  by_cases hsecond : agent = .codex ∧ hasMessage (firstReading serde agent records).messages = false
  · exact .inr (if_pos hsecond)
  · exact .inl (if_neg hsecond)

theorem isEvent_of_mem {call : Call} (h : call ∈ records.flatMap eventCalls) : IsEvent call := by
  obtain ⟨value, _, hcall⟩ := List.mem_flatMap.mp h
  exact eventCalls_id? hcall

/-- The ids of a view are distinct. -/
theorem view_nodup (h : OwnIds (records.map (readCalls serde agent))) :
    ((boundMessages (parse serde agent records)).1.map TranscriptMessage.id).Nodup := by
  have hfirst := firstReading_sound h
  have hdistinct : Distinct (records.flatMap (readCalls serde agent) ++ records.flatMap eventCalls) :=
    (firstReading_distinct h).append_events fun _ => isEvent_of_mem
  rw [← reading_messages, ← Tracking.shown_ids]
  rcases reading_cases serde agent records with hone | htwo
  · rw [hone]
    exact hfirst.shown_nodup
  · rw [htwo]
    exact (hfirst.run hdistinct 1 0).shown_nodup

/-- An entry is of the first reading, or an event with its number. -/
theorem reading_label (h : OwnIds (records.map (readCalls serde agent))) {label : Label}
    (hlabel : label ∈ (reading serde agent records).labels) :
    (label.source.pass = 0 ∧ label ∈ (firstReading serde agent records).labels) ∨
      (label.source.pass = 1 ∧ label.id = numbered "message" (place (firstEntries serde agent records + label.source.call))) := by
  have hpassFirst : ∀ label ∈ (firstReading serde agent records).labels, label.source.pass = 0 :=
    fun _ hfirst => Tracking.run_empty_pass hfirst
  rcases reading_cases serde agent records with hone | htwo
  · rw [hone] at hlabel
    exact .inl ⟨hpassFirst label hlabel, hlabel⟩
  · rw [htwo] at hlabel
    rcases Tracking.run_labels_old hlabel with hfirst | ⟨hpass, _⟩
    · exact .inl ⟨hpassFirst label hfirst, hfirst⟩
    · refine .inr ⟨hpass, ?_⟩
      refine (firstReading_sound h).event_label (firstReading_distinct h) (fun _ => isEvent_of_mem)
        (Nat.add_zero _).symm ?_ hlabel hpass
      intro label hold hone
      rw [hpassFirst label hold] at hone
      cases hone

/-- An entry of the first reading keeps its id when records are appended. -/
theorem firstReading_id_eq {label label' : Label} (hlabel : label ∈ (firstReading serde agent records).labels)
    (hlabel' : label' ∈ (firstReading serde agent (records ++ appended)).labels) (hsource : label.source = label'.source) :
    label.id = label'.id := by
  unfold firstReading at hlabel hlabel'
  rw [List.flatMap_append, Tracking.run_append] at hlabel'
  exact ((Tracking.Fresh.empty 0).run _).id_eq hlabel (Tracking.run_empty_pass hlabel) hlabel' hsource

/-- **Transcript entry ids identify entries** in every log whose ids are the
harness's own, exactly where no event that stays in view is renumbered. -/
theorem transcript_ids_identify (hids : OwnIds ((records ++ appended).map (readCalls serde agent))) :
    IdsIdentify serde agent records appended ↔ ¬ Renumbered serde agent records appended := by
  have hidsOld : OwnIds (records.map (readCalls serde agent)) := by
    rw [List.map_append] at hids
    exact hids.append_left
  constructor
  · intro hidentify hrenumbered
    obtain ⟨event, ⟨label, hlabel, hsource⟩, ⟨label', hlabel', hsource'⟩, hne⟩ := hrenumbered
    have hsame := hidentify.2 label hlabel label' hlabel' (hsource.trans hsource'.symm)
    rcases reading_label hidsOld (Tracking.mem_labels_of_mem_shown hlabel) with ⟨hpass, _⟩ | ⟨_, hid⟩
    · rw [hsource] at hpass
      cases hpass
    rcases reading_label hids (Tracking.mem_labels_of_mem_shown hlabel') with ⟨hpass, _⟩ | ⟨_, hid'⟩
    · rw [hsource'] at hpass
      cases hpass
    rw [hid, hid', hsource, hsource'] at hsame
    exact hne (numbered_inj hsame)
  · intro hkept
    refine ⟨view_nodup hids, ?_⟩
    intro label hlabel label' hlabel' hsource
    rcases reading_label hidsOld (Tracking.mem_labels_of_mem_shown hlabel) with ⟨hpass, hfirst⟩ | ⟨hpass, hid⟩
    · rcases reading_label hids (Tracking.mem_labels_of_mem_shown hlabel') with ⟨_, hfirst'⟩ | ⟨hpass', _⟩
      · exact firstReading_id_eq hfirst hfirst' hsource
      · rw [← hsource, hpass] at hpass'
        cases hpass'
    · rcases reading_label hids (Tracking.mem_labels_of_mem_shown hlabel') with ⟨hpass', _⟩ | ⟨hpass', hid'⟩
      · rw [← hsource, hpass] at hpass'
        cases hpass'
      · by_contra hne
        refine hkept ⟨label.source.call, ⟨label, hlabel, ?_⟩, ⟨label', hlabel', ?_⟩, ?_⟩
        · rw [← hpass]
        · rw [hsource, ← hpass']
        · intro hplace
          rw [hid, hid', ← hsource, hplace] at hne
          exact hne rfl

end Views

/-! ## A tool call after an event -/

section Example

private theorem none_looks_like (text : String) (value : Json) (h : (none : Option Json) = some value) :
    isContainer value = true → looksLikeJson text = true := by cases h

/-- No text is read as JSON. -/
private def noJson : Serde where
  parse := fun _ => none
  render := fun _ _ => none
  looksLikeJson := none_looks_like

private def hello : Json :=
  .object [("payload", .object [("message", .string "hi"), ("type", .string "user_message")]), ("type", .string "event_msg")]

private def listing : Json :=
  .object [("payload", .object [("call_id", .string "call_1"), ("name", .string "shell"), ("type", .string "function_call")]),
    ("type", .string "response_item")]

private def listed : Json :=
  .object [("payload", .object [("call_id", .string "call_1"), ("output", .string "src"),
    ("type", .string "function_call_output")]), ("type", .string "response_item")]

/-- An id without a dash and a colon has no form of the reader's. -/
private theorem plain_id {id : String} (hdash : '-' ∉ id.toList) (hcolon : ':' ∉ id.toList) :
    ¬ IsFallback id ∧ ¬ IsDerived id := by
  refine ⟨?_, ?_⟩
  · intro h
    obtain ⟨kind, _, n, rfl⟩ := h
    rw [toList_numbered] at hdash
    simp at hdash
  · intro h
    obtain ⟨base, kind, _, index, rfl⟩ := h
    rw [toList_suffix] at hcolon
    simp at hcolon

private theorem listing_own : OwnIds (([listing] ++ [listed, hello]).map (readCalls noJson .codex)) := by
  have hcalls : ([listing] ++ [listed, hello]).map (readCalls noJson .codex) =
      [[.tool "shell" none (some (.given "call_1")) none .default],
        [.output (some (.given "call_1")) (toolOutputText noJson (some (.string "src"))) none none], []] := rfl
  rw [hcalls]
  refine ⟨?_, ?_, ?_⟩
  · simp only [List.pairwise_cons, List.mem_cons, List.not_mem_nil, or_false, forall_eq_or_imp, forall_eq, false_implies,
      implies_true, and_true, List.Pairwise.nil]
    intro i j hi hj _
    obtain rfl := Option.some.inj hj
    exact ⟨by decide +kernel, rfl⟩
  · simp
  · simp only [List.mem_cons, List.not_mem_nil, or_false, forall_eq_or_imp, forall_eq, false_implies, implies_true, and_true]
    refine ⟨?_, ?_⟩
    · intro id hid
      obtain rfl : "call_1" = id := by simpa [Call.id?] using hid
      exact plain_id (by decide) (by decide)
    · intro id hid
      obtain rfl : "call_1" = id := by simpa [Call.id?] using hid
      exact plain_id (by decide) (by decide)

private theorem hello_own : OwnIds (([hello] ++ [listing]).map (readCalls noJson .codex)) := by
  have hcalls : ([hello] ++ [listing]).map (readCalls noJson .codex) =
      [[], [.tool "shell" none (some (.given "call_1")) none .default]] := rfl
  rw [hcalls]
  refine ⟨?_, ?_, ?_⟩
  · simp
  · simp
  · simp only [List.mem_cons, List.not_mem_nil, or_false, forall_eq_or_imp, forall_eq, false_implies, implies_true, true_and]
    intro id hid
    obtain rfl : "call_1" = id := by simpa [Call.id?] using hid
    exact plain_id (by decide) (by decide)

theorem transcript_ids_identify_example :
    IdsIdentify noJson .codex [listing] [listed, hello] ↔ ¬ Renumbered noJson .codex [listing] [listed, hello] :=
  transcript_ids_identify listing_own

/-- An event gets another id when a tool's call is appended. -/
theorem event_renumbered :
    OwnIds (([hello] ++ [listing]).map (readCalls noJson .codex)) ∧ ¬ IdsIdentify noJson .codex [hello] [listing] := by
  have hold : (reading noJson .codex [hello]).shown = [⟨⟨1, 0⟩, 0, "message-0", false⟩] := by decide +kernel
  have hnew : (reading noJson .codex ([hello] ++ [listing])).shown =
      [⟨⟨0, 0⟩, 0, "call_1", true⟩, ⟨⟨1, 0⟩, 1, "message-1", false⟩] := by decide +kernel
  refine ⟨hello_own, ?_⟩
  intro hidentify
  have hsame := hidentify.2 ⟨⟨1, 0⟩, 0, "message-0", false⟩ (by rw [hold]; simp) ⟨⟨1, 0⟩, 1, "message-1", false⟩
    (by rw [hnew]; simp) rfl
  exact absurd hsame (by decide)

end Example

end Atmux.Transcript
