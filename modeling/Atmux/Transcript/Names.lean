/-
What the entries of a conversation are called.

`Sound` is what holds of the entries after any number of calls: an entry has
the id that its call brought, or the place it had in the list when it came.
With ids of the harness that are its own (`Distinct`), no two entries that are
shown have one id (`shown_nodup`), and an entry's id stays while calls are
appended (`run_labels_old`).
-/
import Atmux.Transcript.Entries
import Mathlib.Data.List.Nodup

namespace Atmux.Transcript

open Lib Pulse

/-! ## Numbered ids -/

def place (n : Nat) : Nat := Capped.place maxParseMessages maxMessages n

theorem place_ne {n m : Nat} (hlt : n < m) (hnear : m - n ≤ maxMessages) : place n ≠ place m :=
  Capped.place_ne (by decide) hlt (hnear.trans (by decide))

theorem place_le_self (n : Nat) : place n ≤ n := by
  induction n with
  | zero => exact Nat.le_refl 0
  | succ n ih =>
    unfold place at ih ⊢
    rw [Capped.place]
    split
    next hcut =>
      have hkept : maxMessages ≤ maxParseMessages := by decide
      omega
    · omega

theorem not_mem_toString {c : Char} (hc : c.isDigit = false) (n : Nat) : c ∉ (toString n).toList := by
  intro hmem
  rw [Text.isDigit_toString hmem] at hc
  cases hc

theorem toString_inj {n m : Nat} (h : toString n = toString m) : n = m := by
  have hn : Text.parseUnsigned (n + m + 1) (toString n).toList = some n := Text.parseUnsigned_toString (by omega)
  have hm : Text.parseUnsigned (n + m + 1) (toString m).toList = some m := Text.parseUnsigned_toString (by omega)
  rw [h, hm] at hn
  exact (Option.some.inj hn).symm

/-- A number after the last of its separators is read back. -/
theorem append_number_inj {sep : Char} (hsep : sep.isDigit = false) {front front' : List Char} {n m : Nat}
    (h : front ++ sep :: (toString n).toList = front' ++ sep :: (toString m).toList) : front = front' ∧ n = m := by
  obtain ⟨hfront, hnumber⟩ := Capped.append_sep_inj (not_mem_toString hsep n) (not_mem_toString hsep m) h
  exact ⟨hfront, toString_inj (String.toList_injective hnumber)⟩

theorem toList_numbered (kind : String) (n : Nat) : (numbered kind n).toList = kind.toList ++ '-' :: (toString n).toList := by
  simp [numbered, String.toList_append]

theorem numbered_inj {kind kind' : String} {n m : Nat} (h : numbered kind n = numbered kind' m) : n = m := by
  have hlists := congrArg String.toList h
  rw [toList_numbered, toList_numbered] at hlists
  exact (append_number_inj (by decide) hlists).2

def fallbackKinds : List String := ["message", "tool", "tool-result"]

/-- Ids of the form that is given to an entry without one. -/
def IsFallback (id : String) : Prop := ∃ kind ∈ fallbackKinds, ∃ n, id = numbered kind n

theorem Call.prefixOf_mem (call : Call) : call.prefixOf ∈ fallbackKinds := by
  cases call <;> simp [prefixOf, fallbackKinds]

/-! ## Ids that are the harness's own -/

/-- Two calls that bring one id are a tool's call and its output. -/
def Call.Apart (earlier later : Call) : Prop :=
  ∀ id, usable earlier.id? = some id → usable later.id? = some id → later.answers = some id ∧ earlier.isTool = true

structure Distinct (calls : List Call) : Prop where
  apart : calls.Pairwise Call.Apart
  genuine : ∀ call ∈ calls, ∀ id, usable call.id? = some id → ¬ IsFallback id

def Label.Numbered (label : Label) : Prop := ∃ kind ∈ fallbackKinds, label.id = numbered kind (place label.number)

def Label.Named (calls : List Call) (label : Label) : Prop :=
  ∃ call ∈ calls, usable call.id? = some label.id ∧ label.tool = call.isTool

namespace Tracking

/-- The entries after some calls. -/
structure Sound (calls : List Call) (s : Tracking) : Prop where
  length : s.labels.length = place s.added
  numbers : s.labels.map Label.number = List.range' (s.added - s.labels.length) s.labels.length
  named : ∀ label ∈ s.labels, label.Numbered ∨ label.Named calls
  apart : s.labels.Pairwise fun label label' => label.id = label'.id → label.Numbered ∧ label'.Numbered

theorem Sound.empty : Sound [] empty := ⟨rfl, rfl, fun _ h => absurd h List.not_mem_nil, List.Pairwise.nil⟩

theorem any_isCallOf {s : Tracking} {label : Label} (hlabel : label ∈ s.labels) (htool : label.tool = true) :
    s.messages.any (isCallOf label.id) = true := by
  obtain ⟨entry, hentry, rfl⟩ := List.mem_map.mp hlabel
  rw [List.any_eq_true]
  refine ⟨entry.message, List.mem_map_of_mem hentry, ?_⟩
  have hkind : (entry.message.kind == "tool") = true := htool
  simp [isCallOf, hkind, Tracked.label]

theorem Label.Named.mono {calls : List Call} {label : Label} (call : Call) (h : label.Named calls) :
    label.Named (calls ++ [call]) := by
  obtain ⟨c, hc, hname⟩ := h
  exact ⟨c, List.mem_append_left _ hc, hname⟩

/-- A call's id is its own or the place of the entry it makes. -/
theorem name_cases (call : Call) (source : Source) (added n : Nat) (hplace : n = place added) :
    (usable call.id? = some (call.name n)) ∨ (Label.mk source added (call.name n) call.isTool).Numbered := by
  unfold Call.name boundedId
  cases hid : usable call.id? with
  | some id => exact .inl rfl
  | none =>
    right
    refine ⟨call.prefixOf, call.prefixOf_mem, ?_⟩
    rw [Option.getD_none, hplace]

section Step

variable {calls : List Call} {call : Call} {s : Tracking}

/-- What is added does not share its id with an entry of the list, unless both are numbered. -/
theorem Sound.name_apart (h : Sound calls s) (hdistinct : Distinct (calls ++ [call])) (source : Source)
    (hadds : call.adds s.messages = true) {label : Label} (hlabel : label ∈ s.labels)
    (hid : label.id = call.name s.labels.length) :
    label.Numbered ∧ (Label.mk source s.added (call.name s.labels.length) call.isTool).Numbered := by
  have hnew : call ∈ calls ++ [call] := List.mem_append_right _ (List.mem_singleton.mpr rfl)
  rcases name_cases call source s.added s.labels.length h.length with hown | hnumbered
  · rw [← hid] at hown
    rcases h.named label hlabel with ⟨kind, hkind, hfallback⟩ | ⟨earlier, hearlier, hname, htool⟩
    · exact absurd ⟨kind, hkind, _, hfallback⟩ (hdistinct.genuine call hnew _ hown)
    · have hpair := (List.pairwise_append.mp hdistinct.apart).2.2 earlier hearlier call (List.mem_singleton.mpr rfl)
      obtain ⟨hanswers, hearlierTool⟩ := hpair label.id hname hown
      have hnone := Call.adds_answers hadds hanswers
      rw [any_isCallOf hlabel (htool.trans hearlierTool)] at hnone
      cases hnone
  · refine ⟨?_, hnumbered⟩
    rcases h.named label hlabel with hlabelNumbered | ⟨earlier, hearlier, hname, _⟩
    · exact hlabelNumbered
    · obtain ⟨kind, hkind, hfallback⟩ := hnumbered
      exact absurd ⟨kind, hkind, _, hid.trans hfallback⟩
        (hdistinct.genuine earlier (List.mem_append_left _ hearlier) _ hname)

theorem Sound.length_le (h : Sound calls s) : s.labels.length ≤ s.added := h.length ▸ place_le_self s.added

theorem Sound.step_adds (h : Sound calls s) (hdistinct : Distinct (calls ++ [call])) (source : Source)
    (hadds : call.adds s.messages = true) : Sound (calls ++ [call]) (s.step source call) := by
  have hlabels := step_labels_adds source hadds
  have hadded : (s.step source call).added = s.added + 1 := by rw [step, if_pos hadds]
  have hle := h.length_le
  generalize hnew : Label.mk source s.added (call.name s.labels.length) call.isTool = new at hlabels
  have hlength : (s.labels ++ [new]).length = s.labels.length + 1 := by simp
  have hcapped : (s.step source call).labels.length = place (s.added + 1) := by
    rw [hlabels]
    unfold capParseMessages
    rw [Capped.length_cap (by decide), hlength, h.length]
    rfl
  obtain ⟨n, hn⟩ := Capped.cap_suffix maxParseMessages maxMessages (s.labels ++ [new])
  have hdrop : (s.step source call).labels = (s.labels ++ [new]).drop n := hlabels.trans hn
  have hnamed : ∀ label ∈ s.labels ++ [new], label.Numbered ∨ label.Named (calls ++ [call]) := by
    intro label hlabel
    rcases List.mem_append.mp hlabel with hold | hold
    · exact (h.named label hold).imp_right (Label.Named.mono call)
    · obtain rfl := List.mem_singleton.mp hold
      subst hnew
      rcases name_cases call source s.added s.labels.length h.length with hown | hnumbered
      · exact .inr ⟨call, List.mem_append_right _ (List.mem_singleton.mpr rfl), hown, rfl⟩
      · exact .inl hnumbered
  have hapart : (s.labels ++ [new]).Pairwise fun label label' => label.id = label'.id → label.Numbered ∧ label'.Numbered := by
    refine List.pairwise_append.mpr ⟨h.apart, List.pairwise_singleton _ _, ?_⟩
    intro label hlabel label' hlabel' hid
    obtain rfl := List.mem_singleton.mp hlabel'
    subst hnew
    exact h.name_apart hdistinct source hadds hlabel hid
  have hnumbers : (s.labels ++ [new]).map Label.number = List.range' (s.added - s.labels.length) (s.labels.length + 1) := by
    rw [List.map_append, h.numbers, List.range'_1_concat, List.map_singleton, ← hnew]
    have hlast : s.added - s.labels.length + s.labels.length = s.added := Nat.sub_add_cancel hle
    rw [hlast]
  refine ⟨hadded ▸ hcapped, ?_, ?_, ?_⟩
  · have hrest : (s.step source call).labels.length = s.labels.length + 1 - n := by rw [hdrop, List.length_drop, hlength]
    have hsome : 0 < (s.step source call).labels.length := by
      rw [hcapped]
      unfold place
      rw [Capped.place]
      split
      · decide
      · omega
    rw [hrest, hadded, hdrop, List.map_drop, hnumbers, List.drop_range']
    congr 1
    omega
  · intro label hlabel
    rw [hdrop] at hlabel
    exact hnamed label (List.mem_of_mem_drop hlabel)
  · rw [hdrop]
    exact hapart.sublist (List.drop_sublist _ _)

theorem Sound.step (h : Sound calls s) (hdistinct : Distinct (calls ++ [call])) (source : Source) :
    Sound (calls ++ [call]) (s.step source call) := by
  cases hadds : call.adds s.messages with
  | true => exact h.step_adds hdistinct source hadds
  | false =>
    have hlabels := step_labels_keeps source hadds
    have hadded : (s.step source call).added = s.added := by
      rw [Tracking.step, if_neg (by rw [hadds]; simp)]
    refine ⟨by rw [hlabels, hadded, h.length], by rw [hlabels, hadded, h.numbers], ?_, by rw [hlabels]; exact h.apart⟩
    intro label hlabel
    rw [hlabels] at hlabel
    exact (h.named label hlabel).imp_right (Label.Named.mono call)

theorem Distinct.append_left {calls calls' : List Call} (h : Distinct (calls ++ calls')) : Distinct calls :=
  ⟨(List.pairwise_append.mp h.apart).1, fun call hcall => h.genuine call (List.mem_append_left _ hcall)⟩

theorem Sound.run {calls' : List Call} (h : Sound calls s) (hdistinct : Distinct (calls ++ calls')) (pass first : Nat) :
    Sound (calls ++ calls') (s.run pass first calls') := by
  induction calls' generalizing calls s first with
  | nil => rwa [List.append_nil]
  | cons call calls' ih =>
    have hsplit : calls ++ call :: calls' = (calls ++ [call]) ++ calls' := by simp
    rw [hsplit] at hdistinct ⊢
    exact ih (h.step (Distinct.append_left hdistinct) ⟨pass, first⟩) hdistinct (first + 1)

end Step

/-! ## What is shown -/

/-- The labels of the entries that are kept. -/
def shown (s : Tracking) : List Label := s.labels.drop (s.labels.length - keptMessages 0 2 s.messages.reverse)

theorem shown_ids (s : Tracking) : s.shown.map Label.id = (boundMessages s.messages).1.map TranscriptMessage.id := by
  simp only [shown, boundMessages, List.map_drop, map_id_labels, length_labels, length_messages]

theorem mem_labels_of_mem_shown {s : Tracking} {label : Label} (h : label ∈ s.shown) : label ∈ s.labels :=
  List.mem_of_mem_drop h

/-- No two entries that are shown have one id. -/
theorem Sound.shown_nodup {calls : List Call} {s : Tracking} (h : Sound calls s) :
    (s.shown.map Label.id).Nodup := by
  have hkept : keptMessages 0 2 s.messages.reverse ≤ maxMessages := keptMessages_le (Nat.zero_le _)
  have hnumbers : s.shown.map Label.number =
      List.range' (s.added - s.labels.length + (s.labels.length - keptMessages 0 2 s.messages.reverse))
        (s.labels.length - (s.labels.length - keptMessages 0 2 s.messages.reverse)) := by
    rw [shown, List.map_drop, h.numbers, List.drop_range', Nat.mul_one]
  have hnear : ∀ label ∈ s.shown, ∀ label' ∈ s.shown, label'.number - label.number ≤ maxMessages := by
    intro label hlabel label' hlabel'
    have hmem := List.mem_map_of_mem (f := Label.number) hlabel
    have hmem' := List.mem_map_of_mem (f := Label.number) hlabel'
    rw [hnumbers, List.mem_range'_1] at hmem hmem'
    omega
  have hlt : s.shown.Pairwise fun label label' => label.number < label'.number := by
    rw [← List.pairwise_map, hnumbers]
    exact List.pairwise_lt_range'
  have hapart : s.shown.Pairwise fun label label' => label.id = label'.id → label.Numbered ∧ label'.Numbered :=
    h.apart.sublist (List.drop_sublist _ _)
  rw [List.Nodup, List.pairwise_map]
  refine (hlt.and hapart).imp_of_mem ?_
  intro label label' hlabel hlabel' hboth hid
  obtain ⟨⟨kind, _, hnumber⟩, ⟨kind', _, hnumber'⟩⟩ := hboth.2 hid
  rw [hnumber, hnumber'] at hid
  exact place_ne hboth.1 (hnear label hlabel label' hlabel') (numbered_inj hid)

/-! ## What stays -/

theorem mem_step_labels {s : Tracking} {source : Source} {call : Call} {label : Label}
    (h : label ∈ (s.step source call).labels) :
    label ∈ s.labels ∨ (label.source = source ∧ label.number = s.added ∧ label.id = call.name s.labels.length) := by
  cases hadds : call.adds s.messages with
  | true =>
    rw [step_labels_adds source hadds] at h
    obtain ⟨n, hn⟩ := Capped.cap_suffix maxParseMessages maxMessages
      (s.labels ++ [⟨source, s.added, call.name s.labels.length, call.isTool⟩])
    unfold capParseMessages at h
    rw [hn] at h
    rcases List.mem_append.mp (List.mem_of_mem_drop h) with hold | hnew
    · exact .inl hold
    · obtain rfl := List.mem_singleton.mp hnew
      exact .inr ⟨rfl, rfl, rfl⟩
  | false =>
    rw [step_labels_keeps source hadds] at h
    exact .inl h

/-- An entry was there before some calls, or is of one of them. -/
theorem run_labels_old {s : Tracking} {pass first : Nat} {calls : List Call} {label : Label}
    (h : label ∈ (s.run pass first calls).labels) :
    label ∈ s.labels ∨ (label.source.pass = pass ∧ first ≤ label.source.call) := by
  induction calls generalizing s first with
  | nil => exact .inl h
  | cons call calls ih =>
    rcases ih h with hstep | ⟨hpass, hfirst⟩
    · rcases mem_step_labels hstep with hold | ⟨hsource, _⟩
      · exact .inl hold
      · rw [hsource]
        exact .inr ⟨rfl, Nat.le_refl first⟩
    · exact .inr ⟨hpass, by omega⟩

/-- Entries of one source are one entry. -/
structure Fresh (s : Tracking) (pass first : Nat) : Prop where
  nodup : (s.labels.map Label.source).Nodup
  before : ∀ label ∈ s.labels, label.source.pass = pass → label.source.call < first

theorem Fresh.step {s : Tracking} {pass first : Nat} (h : Fresh s pass first) (call : Call) :
    Fresh (s.step ⟨pass, first⟩ call) pass (first + 1) := by
  refine ⟨?_, ?_⟩
  · cases hadds : call.adds s.messages with
    | false =>
      rw [step_labels_keeps _ hadds]
      exact h.nodup
    | true =>
      rw [step_labels_adds _ hadds, map_cap]
      obtain ⟨n, hn⟩ := Capped.cap_suffix maxParseMessages maxMessages
        ((s.labels ++ [Label.mk ⟨pass, first⟩ s.added (call.name s.labels.length) call.isTool]).map Label.source)
      unfold capParseMessages
      rw [hn]
      refine List.Nodup.sublist (List.drop_sublist _ _) ?_
      rw [List.map_append]
      refine List.nodup_append.mpr ⟨h.nodup, List.nodup_singleton _, ?_⟩
      intro source hsource source' hsource' heq
      obtain ⟨label, hlabel, rfl⟩ := List.mem_map.mp hsource
      obtain rfl := List.mem_singleton.mp hsource'
      have hbefore := h.before label hlabel (by rw [heq])
      rw [heq] at hbefore
      exact absurd hbefore (Nat.lt_irrefl first)
  · intro label hlabel hpass
    rcases mem_step_labels hlabel with hold | ⟨hsource, _⟩
    · exact Nat.lt_succ_of_lt (h.before label hold hpass)
    · rw [hsource]
      exact Nat.lt_succ_self first

/-- Entries after some calls are of those calls, from an empty list on. -/
theorem run_empty_pass {pass first : Nat} {calls : List Call} {label : Label} (h : label ∈ (empty.run pass first calls).labels) :
    label.source.pass = pass := by
  rcases run_labels_old h with hold | ⟨hpass, _⟩
  · cases hold
  · exact hpass

theorem Fresh.run {s : Tracking} {pass first : Nat} (h : Fresh s pass first) (calls : List Call) :
    Fresh (s.run pass first calls) pass (first + calls.length) := by
  induction calls generalizing s first with
  | nil => exact h
  | cons call calls ih =>
    have hrest := ih (h.step call)
    rwa [Nat.add_assoc, Nat.add_comm 1] at hrest

theorem Fresh.empty (pass : Nat) : Fresh empty pass 0 := ⟨List.Pairwise.nil, fun _ h => absurd h List.not_mem_nil⟩

/-- An entry of the calls read before keeps its id. -/
theorem Fresh.id_eq {s : Tracking} {pass first : Nat} (h : Fresh s pass first) {calls : List Call} {label label' : Label}
    (hlabel : label ∈ s.labels) (hpass : label.source.pass = pass) (hlabel' : label' ∈ (s.run pass first calls).labels)
    (hsource : label.source = label'.source) : label.id = label'.id := by
  rcases run_labels_old hlabel' with hold | ⟨_, hlater⟩
  · rw [List.inj_on_of_nodup_map h.nodup hlabel hold hsource]
  · have hbefore := h.before label hlabel hpass
    rw [hsource] at hbefore
    exact absurd hbefore (Nat.not_lt.mpr hlater)

end Tracking

end Atmux.Transcript
