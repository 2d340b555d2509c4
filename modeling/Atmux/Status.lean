/-
When an automation may submit at an agent's composer.

A pane is text: the composer is its last row that starts with the harness's
glyph, and whatever is below it is to look like a footer. `automation_idle_iff`
says when the two pass for an empty composer, whether they are one or a draft.
-/
import Mathlib.Data.List.Infix
import Mathlib.Data.List.TakeWhile
import Atmux.Lib.Text
import Atmux.Session

namespace Atmux.Status

open Lib Text

abbrev Line := List Char

/-! ## Markers -/

def waitingMarkers : List String :=
  ["do you want to proceed?", "would you like to proceed?", "waiting for your input", "press enter to continue",
    "select an option", "yes, allow", "allow this command", "[y/n]", "(y/n)"]

def automationDialogMarkers : List String := ["enter to confirm"]

def workingMarkers : List String :=
  ["esc to interrupt", "ctrl+c to interrupt", "working (", "running…", "running..."]

/-- The markers that a machine's own configuration adds. -/
structure StatusConfig where
  workingMarkers : List String
  waitingMarkers : List String

/-! ## Rows -/

def composerRuleChars : List Char := "─━┄┅┈┉│┃┌┐└┘├┤┬┴┼╭╮╯╰═║╔╗╚╝╠╣╦╩╬▁▔".toList

def trimStart (text : Line) : Line := text.dropWhile isWhitespace

def isBlank (line : Line) : Bool := trim line = []

/-- The rows without the blank ones that a harness pads the pane with. -/
def visibleTail (rows : List Line) : List Line := (rows.reverse.dropWhile isBlank).reverse

/-- A `1.`/`2)` menu enumerator. -/
def optionEnumerator (text : Line) : Bool :=
  let trimmed := trimStart text
  let rest := trimmed.dropWhile Char.isDigit
  trimmed.head?.any Char.isDigit && (rest.head? = some '.' || rest.head? = some ')')

/-- The chrome a harness draws under its composer. -/
def footerRow (line : Line) : Bool :=
  let trimmed := trim line
  if trimmed.all composerRuleChars.contains then true
  else if optionEnumerator trimmed then false
  else !trimmed.getLast?.any ['.', '?', '!', ':'].contains

/-- The agents affordance in one segment of a status strip. -/
def hasAffordance (line : Line) : Bool := (split '·' line).any fun segment => (trim segment).head? = some '←'

def isSuggestion (body : Line) : Bool := "Try \"".toList.isPrefixOf body && body.getLast? = some '"'

def placeholder : Line := "Ask Codex to do anything".toList

def emptyComposer (kind : AgentKind) (body : Line) (footer : List Line) : Bool :=
  let body := trim body
  if body = [] then true
  else if optionEnumerator body then false
  else
    match kind with
    | .claude => isSuggestion body || footer.any hasAffordance
    | .codex => body = placeholder
    | .other => false

/-! ## The check -/

def glyph : AgentKind → Option Char
  | .claude => some '❯'
  | .codex => some '›'
  | .other => none

def startsWith (glyph : Char) (line : Line) : Bool := (trimStart line).head? = some glyph

/-- `Iterator::rposition`. -/
def rposition (p : Line → Bool) (lines : List Line) : Option Nat :=
  (lines.reverse.findIdx? p).map fun i => lines.length - 1 - i

/-- A braille spinner in the title. -/
def spinning (title : Line) : Bool := title.head?.any fun c => 0x2801 ≤ c.toNat && c.toNat ≤ 0x28ff

def joinLines : List Line → Line
  | [] => []
  | [line] => line
  | line :: lines => line ++ '\n' :: joinLines lines

/-- A marker beside the composer, from eight rows above it down. -/
def marked (toLowercase : Line → Line) (config : StatusConfig) (lines : List Line) (prompt : Nat) : Bool :=
  let window := toLowercase (joinLines (lines.drop (prompt - 8)))
  (workingMarkers ++ waitingMarkers ++ automationDialogMarkers).any (fun marker => decide (marker.toList <:+: window)) ||
    config.workingMarkers.any fun marker => decide (toLowercase marker.toList <:+: window)

/-- The text behind the glyph. -/
def composerBody (row : Line) : Line := (trimStart row).drop 1

def automationIdle (toLowercase : Line → Line) (kind : AgentKind) (content title : Line) (config : StatusConfig) : Bool :=
  match glyph kind with
  | none => false
  | some glyph =>
    if spinning title then false
    else
      let lines := visibleTail (Text.lines content)
      match rposition (startsWith glyph) lines with
      | none => false
      | some prompt =>
        let footer := lines.drop (prompt + 1)
        if marked toLowercase config lines prompt then false
        else if !footer.all footerRow then false
        else emptyComposer kind (composerBody (lines.getD prompt [])) footer

/-! ## Blank rows -/

theorem dropWhile_eq_nil {α : Type} {p : α → Bool} {l : List α} : l.dropWhile p = [] ↔ ∀ a ∈ l, p a = true := by
  induction l with
  | nil => simp
  | cons a l ih =>
    rw [List.dropWhile_cons]
    split
    next h => simp [h, ih]
    next h => simp [h]

theorem isBlank_iff {line : Line} : isBlank line = true ↔ ∀ c ∈ line, isWhitespace c = true := by
  rw [isBlank, decide_eq_true_eq, trim, trimEnd, List.reverse_eq_nil_iff, dropWhile_eq_nil]
  constructor
  · intro h
    have hdrop : line.dropWhile isWhitespace = [] := by
      cases hrest : line.dropWhile isWhitespace with
      | nil => rfl
      | cons c rest =>
        have hhead := List.head?_dropWhile_not isWhitespace line
        rw [hrest] at hhead
        have hspace := h c (by rw [hrest]; simp)
        simp [hspace] at hhead
    exact dropWhile_eq_nil.mp hdrop
  · intro h
    rw [dropWhile_eq_nil.mpr h]
    simp

theorem mem_of_mem_split {sep c : Char} {text field : List Char} (hfield : field ∈ split sep text) (hc : c ∈ field) :
    c ∈ text := by
  induction text generalizing field with
  | nil =>
    obtain rfl := List.mem_singleton.mp hfield
    cases hc
  | cons first text ih =>
    rw [split] at hfield
    split at hfield
    · rcases List.mem_cons.mp hfield with rfl | hfield
      · cases hc
      · exact List.mem_cons_of_mem _ (ih hfield hc)
    · cases hfields : split sep text with
      | nil => exact absurd hfields split_ne_nil
      | cons head fields =>
        rw [hfields] at hfield ih
        rcases List.mem_cons.mp hfield with rfl | hfield
        · rcases List.mem_cons.mp hc with rfl | hc
          · exact List.mem_cons_self
          · exact List.mem_cons_of_mem _ (ih List.mem_cons_self hc)
        · exact List.mem_cons_of_mem _ (ih (List.mem_cons_of_mem _ hfield) hc)

theorem footerRow_blank {line : Line} (h : isBlank line = true) : footerRow line = true := by
  rw [isBlank, decide_eq_true_eq] at h
  simp [footerRow, h]

theorem hasAffordance_blank {line : Line} (h : isBlank line = true) : hasAffordance line = false := by
  rw [hasAffordance, List.any_eq_false]
  intro segment hsegment
  have hblank : isBlank segment = true := isBlank_iff.mpr fun c hc => isBlank_iff.mp h c (mem_of_mem_split hsegment hc)
  rw [isBlank, decide_eq_true_eq] at hblank
  simp [hblank]

theorem startsWith_not_blank {glyph : Char} {line : Line} (h : startsWith glyph line = true) : isBlank line = false := by
  rw [Bool.eq_false_iff]
  intro hblank
  rw [startsWith, trimStart, dropWhile_eq_nil.mpr (isBlank_iff.mp hblank)] at h
  cases h

theorem visibleTail_append (rows : List Line) : ∃ blanks, rows = visibleTail rows ++ blanks ∧ ∀ row ∈ blanks, isBlank row = true := by
  refine ⟨(rows.reverse.takeWhile isBlank).reverse, ?_, ?_⟩
  · rw [visibleTail, ← List.reverse_append, List.takeWhile_append_dropWhile, List.reverse_reverse]
  · intro row hrow
    exact List.mem_takeWhile_imp (List.mem_reverse.mp hrow)

/-! ## What the check reads -/

theorem rposition_append {p : Line → Bool} {above below : List Line} {row : Line} (hrow : p row = true)
    (hbelow : ∀ line ∈ below, p line = false) : rposition p (above ++ row :: below) = some above.length := by
  have hnone : below.reverse.findIdx? p = none := List.findIdx?_eq_none_iff.mpr fun line hline =>
    hbelow line (List.mem_reverse.mp hline)
  have hfind : (above ++ row :: below).reverse.findIdx? p = some below.length := by
    rw [List.reverse_append, List.reverse_cons, List.append_assoc, List.findIdx?_append, hnone]
    simp [List.findIdx?_cons, hrow]
  rw [rposition, hfind]
  simp only [Option.map_some, List.length_append, List.length_cons, Option.some.injEq]
  omega

/-- The last row that a test accepts. -/
theorem exists_last {p : Line → Bool} {lines : List Line} (h : ∃ line ∈ lines, p line = true) :
    ∃ above row below, lines = above ++ row :: below ∧ p row = true ∧ ∀ line ∈ below, p line = false := by
  induction lines with
  | nil =>
    obtain ⟨line, hline, -⟩ := h
    cases hline
  | cons first lines ih =>
    by_cases hlater : ∃ line ∈ lines, p line = true
    · obtain ⟨above, row, below, rfl, hrow, hbelow⟩ := ih hlater
      exact ⟨first :: above, row, below, rfl, hrow, hbelow⟩
    · obtain ⟨line, hline, hp⟩ := h
      rcases List.mem_cons.mp hline with rfl | hline
      · exact ⟨[], line, lines, rfl, hp, fun later hmem => Bool.eq_false_iff.mpr fun hlaterp => hlater ⟨later, hmem, hlaterp⟩⟩
      · exact absurd ⟨line, hline, hp⟩ hlater

/-- The rows pass for an empty composer and its footer: the last row with the
glyph has nothing that is taken for text, and what is below it looks like
chrome. -/
def ReadsAsEmpty (kind : AgentKind) (glyph : Char) (rows : List Line) : Prop :=
  ∃ above row below, rows = above ++ row :: below ∧ startsWith glyph row = true ∧
    (∀ line ∈ below, startsWith glyph line = false ∧ footerRow line = true) ∧
    emptyComposer kind (composerBody row) below = true

/-- A spinner in the title or a marker beside the composer. -/
def stopped (toLowercase : Line → Line) (glyph : Char) (content title : Line) (config : StatusConfig) : Bool :=
  spinning title ||
    (rposition (startsWith glyph) (visibleTail (Text.lines content))).any
      (marked toLowercase config (visibleTail (Text.lines content)))

/-- The last row with the glyph is the only one that can be read as the composer. -/
theorem readsAsEmpty_last {kind : AgentKind} {glyph : Char} {above below : List Line} {row : Line}
    (hrow : startsWith glyph row = true) (hbelow : ∀ line ∈ below, startsWith glyph line = false) :
    ReadsAsEmpty kind glyph (above ++ row :: below) ↔
      below.all footerRow = true ∧ emptyComposer kind (composerBody row) below = true := by
  constructor
  · intro ⟨above', row', below', heq, hrow', hbelow', hempty⟩
    have hlength : rposition (startsWith glyph) (above ++ row :: below) = some above.length := rposition_append hrow hbelow
    rw [heq, rposition_append hrow' fun line hline => (hbelow' line hline).1] at hlength
    obtain ⟨rfl, htail⟩ := List.append_inj heq.symm (Option.some.inj hlength)
    obtain ⟨rfl, rfl⟩ := List.cons.inj htail
    exact ⟨List.all_eq_true.mpr fun line hline => (hbelow' line hline).2, hempty⟩
  · intro ⟨hfooter, hempty⟩
    exact ⟨above, row, below, rfl, hrow, fun line hline => ⟨hbelow line hline, List.all_eq_true.mp hfooter line hline⟩,
      hempty⟩

theorem automationIdle_rows {toLowercase : Line → Line} {kind : AgentKind} {glyph : Char} {content title : Line}
    {config : StatusConfig} (hkind : Status.glyph kind = some glyph) :
    automationIdle toLowercase kind content title config = true ↔
      stopped toLowercase glyph content title config = false ∧
        ReadsAsEmpty kind glyph (visibleTail (Text.lines content)) := by
  simp only [automationIdle, hkind, stopped]
  generalize visibleTail (Text.lines content) = lines
  cases hspinning : spinning title with
  | true => simp
  | false =>
    by_cases hsome : ∃ line ∈ lines, startsWith glyph line = true
    · obtain ⟨above, row, below, rfl, hrow, hbelow⟩ := exists_last hsome
      rw [readsAsEmpty_last hrow hbelow, rposition_append hrow hbelow]
      have hdrop : (above ++ row :: below).drop (above.length + 1) = below := by
        rw [List.drop_append]
        simp
      have hget : (above ++ row :: below).getD above.length [] = row := by simp [List.getD]
      simp only [hdrop, hget, Option.any_some, Bool.false_or, Bool.false_eq_true, if_false]
      cases marked toLowercase config (above ++ row :: below) above.length with
      | true => simp
      | false => cases below.all footerRow <;> simp
    · have hnone : rposition (startsWith glyph) lines = none := by
        rw [rposition, List.findIdx?_eq_none_iff.mpr]
        · rfl
        · intro line hline
          rw [Bool.eq_false_iff]
          exact fun hline' => hsome ⟨line, List.mem_reverse.mp hline, hline'⟩
      rw [hnone]
      simp only [Bool.false_eq_true, if_false, false_iff, not_and]
      intro _ ⟨above, row, below, heq, hrow, _⟩
      exact hsome ⟨row, by rw [heq]; simp, hrow⟩

/-- Rows that are read as chrome: not the composer's, of a footer's shape, and
without the affordance. -/
def Chrome (glyph : Char) (line : Line) : Prop :=
  startsWith glyph line = false ∧ footerRow line = true ∧ hasAffordance line = false

theorem chrome_blank {glyph : Char} {line : Line} (h : isBlank line = true) : Chrome glyph line := by
  refine ⟨?_, footerRow_blank h, hasAffordance_blank h⟩
  rw [Bool.eq_false_iff]
  intro hglyph
  rw [startsWith_not_blank hglyph] at h
  cases h

theorem not_readsAsEmpty {kind : AgentKind} {glyph : Char} {lines : List Line}
    (h : ∀ line ∈ lines, startsWith glyph line = false) : ¬ ReadsAsEmpty kind glyph lines := by
  intro ⟨above, row, below, heq, hrow, _⟩
  rw [h row (by rw [heq]; simp)] at hrow
  cases hrow

/-- Chrome at the end makes no difference. -/
theorem readsAsEmpty_chrome {kind : AgentKind} {glyph : Char} {rows chrome : List Line}
    (h : ∀ line ∈ chrome, Chrome glyph line) : ReadsAsEmpty kind glyph (rows ++ chrome) ↔ ReadsAsEmpty kind glyph rows := by
  by_cases hsome : ∃ line ∈ rows, startsWith glyph line = true
  · obtain ⟨above, row, below, rfl, hrow, hbelow⟩ := exists_last hsome
    have hall : ∀ line ∈ below ++ chrome, startsWith glyph line = false := by
      intro line hline
      rcases List.mem_append.mp hline with hline | hline
      · exact hbelow line hline
      · exact (h line hline).1
    have hfooter : (below ++ chrome).all footerRow = below.all footerRow := by
      rw [List.all_append, List.all_eq_true.mpr fun line hline => (h line hline).2.1, Bool.and_true]
    have hchrome : chrome.any hasAffordance = false := by
      rw [List.any_eq_false]
      intro line hline
      simp [(h line hline).2.2]
    have hempty : emptyComposer kind (composerBody row) (below ++ chrome) =
        emptyComposer kind (composerBody row) below := by
      cases kind <;> simp [emptyComposer, List.any_append, hchrome]
    rw [List.append_assoc, List.cons_append, readsAsEmpty_last hrow hall, readsAsEmpty_last hrow hbelow, hempty, hfooter]
  · have hrows : ∀ line ∈ rows, startsWith glyph line = false := fun line hline =>
      Bool.eq_false_iff.mpr fun hglyph => hsome ⟨line, hline, hglyph⟩
    refine iff_of_false (not_readsAsEmpty fun line hline => ?_) (not_readsAsEmpty hrows)
    rcases List.mem_append.mp hline with hline | hline
    · exact hrows line hline
    · exact (h line hline).1

theorem readsAsEmpty_visible {kind : AgentKind} {glyph : Char} {rows : List Line} :
    ReadsAsEmpty kind glyph (visibleTail rows) ↔ ReadsAsEmpty kind glyph rows := by
  obtain ⟨blanks, heq, hblanks⟩ := visibleTail_append rows
  have hiff : ReadsAsEmpty kind glyph (visibleTail rows ++ blanks) ↔ ReadsAsEmpty kind glyph (visibleTail rows) :=
    readsAsEmpty_chrome fun line hline => chrome_blank (hblanks line hline)
  rw [← heq] at hiff
  exact hiff.symm

/-- Nothing above a row with the glyph counts. -/
theorem readsAsEmpty_history {kind : AgentKind} {glyph : Char} {history rows : List Line}
    (h : ∃ line ∈ rows, startsWith glyph line = true) :
    ReadsAsEmpty kind glyph (history ++ rows) ↔ ReadsAsEmpty kind glyph rows := by
  obtain ⟨above, row, below, rfl, hrow, hbelow⟩ := exists_last h
  rw [← List.append_assoc, readsAsEmpty_last hrow hbelow, readsAsEmpty_last hrow hbelow]

/-! ## A pane with a draft -/

/-- How a draft's further lines are drawn. -/
def indent (line : Line) : Line := ' ' :: ' ' :: line

/-- The composer's first row and those of further lines. -/
def composerRows (glyph : Char) (first : Line) (rest : List Line) : List Line :=
  (glyph :: ' ' :: first) :: rest.map indent

/-- A pane as it is drawn: what scrolled by, a draft of one or more lines, the
rule below the composer, and a footer. -/
structure Pane where
  history : List Line
  first : Line
  rest : List Line
  rule : Line
  footer : List Line

namespace Pane

/-- The rows from the composer down. -/
def drawn (pane : Pane) (glyph : Char) : List Line := composerRows glyph pane.first pane.rest ++ pane.rule :: pane.footer

def rows (pane : Pane) (glyph : Char) : List Line := pane.history ++ pane.drawn glyph

def content (pane : Pane) (glyph : Char) : Line := (pane.rows glyph).flatMap fun row => row ++ ['\n']

/-- The footer is one, without the agents affordance, and rows have no line
breaks in them. -/
structure Formed (pane : Pane) (glyph : Char) : Prop where
  rule : pane.rule ≠ [] ∧ ∀ c ∈ pane.rule, c ∈ composerRuleChars
  footer : ∀ row ∈ pane.footer, footerRow row = true ∧ hasAffordance row = false
  rows : ∀ row ∈ pane.rows glyph, '\n' ∉ row ∧ row.getLast? ≠ some '\r'

/-- The harness's own hint in the composer, which is no draft. -/
def Hint (pane : Pane) : AgentKind → Prop
  | .claude => pane.rest = [] ∧ ∃ text, pane.first = "Try \"".toList ++ text ++ ['"']
  | .codex => pane.rest = [] ∧ pane.first = placeholder
  | .other => False

end Pane

theorem glyph_drawn {kind : AgentKind} {glyph : Char} (h : Status.glyph kind = some glyph) :
    isWhitespace glyph = false ∧ glyph ∉ composerRuleChars := by
  cases kind with
  | claude =>
    obtain rfl := Option.some.inj h
    decide
  | codex =>
    obtain rfl := Option.some.inj h
    decide
  | other => cases h

theorem startsWith_composer {glyph : Char} (h : isWhitespace glyph = false) (line : Line) :
    startsWith glyph (glyph :: line) = true := by
  simp [startsWith, trimStart, h]

theorem composerBody_composer {glyph : Char} (h : isWhitespace glyph = false) (line : Line) :
    composerBody (glyph :: line) = line := by
  simp [composerBody, trimStart, h]

theorem mem_trim {c : Char} {text : Line} (h : c ∈ trim text) : c ∈ text := by
  rw [trim, trimEnd, List.mem_reverse] at h
  have hreverse := List.mem_reverse.mp ((List.dropWhile_suffix _).subset h)
  exact (List.dropWhile_suffix _).subset hreverse

/-- The rule below a composer is chrome. -/
theorem chrome_rule {glyph : Char} (hglyph : glyph ∉ composerRuleChars) {rule : Line} (hne : rule ≠ [])
    (hrule : ∀ c ∈ rule, c ∈ composerRuleChars) : Chrome glyph rule := by
  have hspace : ∀ c ∈ composerRuleChars, isWhitespace c = false := by decide
  have hstart : trimStart rule = rule := by
    cases rule with
    | nil => rfl
    | cons c rule => rw [trimStart, List.dropWhile_cons, hspace c (hrule c List.mem_cons_self)]; rfl
  refine ⟨?_, ?_, ?_⟩
  · rw [Bool.eq_false_iff]
    intro hhead
    rw [startsWith, hstart, decide_eq_true_eq] at hhead
    exact hglyph (hrule glyph (List.mem_of_mem_head? hhead))
  · have hall : (trim rule).all composerRuleChars.contains = true := by
      rw [List.all_eq_true]
      intro c hc
      exact List.contains_iff_mem.mpr (hrule c (mem_trim hc))
    simp only [footerRow, hall, if_true]
  · rw [hasAffordance, List.any_eq_false]
    intro segment hsegment hhead
    rw [decide_eq_true_eq] at hhead
    have harrow := hrule _ (mem_of_mem_split hsegment (mem_trim (List.mem_of_mem_head? hhead)))
    exact absurd harrow (by decide)

/-! ## Indented lines -/

theorem trim_space (line : Line) : trim (' ' :: line) = trim line := by
  have hspace : isWhitespace ' ' = true := by decide
  rw [trim, List.dropWhile_cons, if_pos hspace, trim]

theorem trimStart_indent (line : Line) : trimStart (indent line) = trimStart line := by
  have hspace : isWhitespace ' ' = true := by decide
  simp [trimStart, indent, hspace]

theorem hasAffordance_space (line : Line) : hasAffordance (' ' :: line) = hasAffordance line := by
  rw [hasAffordance, hasAffordance, split, if_neg (by decide)]
  cases hfields : split '·' line with
  | nil => exact absurd hfields split_ne_nil
  | cons field fields => simp only [List.any_cons, trim_space]

theorem footerRow_indent (line : Line) : footerRow (indent line) = footerRow line := by
  simp only [footerRow, indent, trim_space]

theorem hasAffordance_indent (line : Line) : hasAffordance (indent line) = hasAffordance line := by
  rw [indent, hasAffordance_space, hasAffordance_space]

theorem startsWith_indent (glyph : Char) (line : Line) : startsWith glyph (indent line) = startsWith glyph line := by
  rw [startsWith, trimStart_indent, startsWith]

theorem emptyComposer_indent (kind : AgentKind) (body : Line) (below : List Line) :
    emptyComposer kind body (below.map indent) = emptyComposer kind body below := by
  have hany : (below.map indent).any hasAffordance = below.any hasAffordance := by
    rw [List.any_map, show hasAffordance ∘ indent = hasAffordance from funext hasAffordance_indent]
  cases kind <;> simp only [emptyComposer, hany]

theorem all_footerRow_indent (below : List Line) : (below.map indent).all footerRow = below.all footerRow := by
  rw [List.all_map, show footerRow ∘ indent = footerRow from funext footerRow_indent]

theorem readsAsEmpty_indent {kind : AgentKind} {glyph : Char} {lines : List Line} :
    ReadsAsEmpty kind glyph (lines.map indent) ↔ ReadsAsEmpty kind glyph lines := by
  have hindented : ∀ below : List Line, (∀ line ∈ below, startsWith glyph line = false) →
      ∀ line ∈ below.map indent, startsWith glyph line = false := by
    intro below hbelow line hline
    obtain ⟨line, hmem, rfl⟩ := List.mem_map.mp hline
    rw [startsWith_indent]
    exact hbelow line hmem
  by_cases hsome : ∃ line ∈ lines, startsWith glyph line = true
  · obtain ⟨above, row, below, rfl, hrow, hbelow⟩ := exists_last hsome
    have hbody : composerBody (indent row) = composerBody row := by rw [composerBody, trimStart_indent, composerBody]
    rw [List.map_append, List.map_cons, readsAsEmpty_last (by rwa [startsWith_indent]) (hindented below hbelow),
      readsAsEmpty_last hrow hbelow, hbody, emptyComposer_indent, all_footerRow_indent]
  · have hlines : ∀ line ∈ lines, startsWith glyph line = false := fun line hline =>
      Bool.eq_false_iff.mpr fun hglyph => hsome ⟨line, hline, hglyph⟩
    exact iff_of_false (not_readsAsEmpty (hindented lines hlines)) (not_readsAsEmpty hlines)

/-! ## When an automation submits -/

section
variable {kind : AgentKind} {glyph : Char} {pane : Pane}

theorem automationIdle_pane {toLowercase : Line → Line} {title : Line} {config : StatusConfig}
    (hkind : Status.glyph kind = some glyph) (hformed : pane.Formed glyph) :
    automationIdle toLowercase kind (pane.content glyph) title config = true ↔
      stopped toLowercase glyph (pane.content glyph) title config = false ∧ ReadsAsEmpty kind glyph (pane.drawn glyph) := by
  have hlines : Text.lines (pane.content glyph) = pane.rows glyph :=
    lines_terminated (fun row hrow => (hformed.rows row hrow).1) fun row hrow => (hformed.rows row hrow).2
  have hcomposer : ∃ line ∈ pane.drawn glyph, startsWith glyph line = true :=
    ⟨glyph :: ' ' :: pane.first, by simp [Pane.drawn, composerRows], startsWith_composer (glyph_drawn hkind).1 _⟩
  rw [automationIdle_rows hkind, hlines, readsAsEmpty_visible, Pane.rows, readsAsEmpty_history hcomposer]

/-- What a draft has to be to pass for an empty composer, where no row of the
footer starts with the glyph. -/
theorem readsAsEmpty_drawn (hkind : Status.glyph kind = some glyph) (hformed : pane.Formed glyph)
    (hfooter : ∀ row ∈ pane.footer, startsWith glyph row = false) :
    ReadsAsEmpty kind glyph (pane.drawn glyph) ↔
      (∀ line ∈ pane.rest, startsWith glyph line = false ∧ footerRow line = true) ∧
          emptyComposer kind pane.first pane.rest = true ∨
        ReadsAsEmpty kind glyph pane.rest := by
  have hchrome : ∀ line ∈ pane.rule :: pane.footer, Chrome glyph line := by
    intro line hline
    rcases List.mem_cons.mp hline with rfl | hline
    · exact chrome_rule (glyph_drawn hkind).2 hformed.rule.1 hformed.rule.2
    · exact ⟨hfooter line hline, hformed.footer line hline⟩
  rw [Pane.drawn, readsAsEmpty_chrome hchrome, composerRows]
  by_cases hsome : ∃ line ∈ pane.rest, startsWith glyph line = true
  · obtain ⟨line, hline, hglyph⟩ := hsome
    have hrows : ∃ line ∈ pane.rest.map indent, startsWith glyph line = true :=
      ⟨indent line, List.mem_map_of_mem hline, by rwa [startsWith_indent]⟩
    have hfirst : ¬ ((∀ line ∈ pane.rest, startsWith glyph line = false ∧ footerRow line = true) ∧
        emptyComposer kind pane.first pane.rest = true) := by
      intro ⟨hrest, _⟩
      rw [(hrest line hline).1] at hglyph
      cases hglyph
    rw [← List.singleton_append, readsAsEmpty_history hrows, readsAsEmpty_indent]
    exact (or_iff_right hfirst).symm
  · have hrest : ∀ line ∈ pane.rest, startsWith glyph line = false := fun line hline =>
      Bool.eq_false_iff.mpr fun hglyph => hsome ⟨line, hline, hglyph⟩
    have hrows : ∀ line ∈ pane.rest.map indent, startsWith glyph line = false := by
      intro line hline
      obtain ⟨line, hmem, rfl⟩ := List.mem_map.mp hline
      rw [startsWith_indent]
      exact hrest line hmem
    have hbody : emptyComposer kind (composerBody (glyph :: ' ' :: pane.first)) (pane.rest.map indent) =
        emptyComposer kind pane.first pane.rest := by
      rw [composerBody_composer (glyph_drawn hkind).1, emptyComposer_indent]
      simp only [emptyComposer, trim_space]
    rw [← List.nil_append (_ :: _), readsAsEmpty_last (startsWith_composer (glyph_drawn hkind).1 _) hrows,
      all_footerRow_indent, hbody, or_iff_left (not_readsAsEmpty hrest), List.all_eq_true]
    refine and_congr_left fun _ => ⟨fun hall line hline => ⟨hrest line hline, hall line hline⟩,
      fun hall line hline => (hall line hline).2⟩

/-- **When an automation leaves a draft alone**: unless a row of it passes for
an empty composer. -/
theorem automation_idle_iff (toLowercase : Line → Line) (title : Line) (config : StatusConfig)
    (hkind : Status.glyph kind = some glyph) (hformed : pane.Formed glyph) :
    ((automationIdle toLowercase kind (pane.content glyph) title config = true → pane.Hint kind) ↔
        pane.Hint kind ∨ stopped toLowercase glyph (pane.content glyph) title config = true ∨
          ¬ ReadsAsEmpty kind glyph (pane.drawn glyph)) ∧
      ((∀ row ∈ pane.footer, startsWith glyph row = false) →
        (ReadsAsEmpty kind glyph (pane.drawn glyph) ↔
          (∀ line ∈ pane.rest, startsWith glyph line = false ∧ footerRow line = true) ∧
              emptyComposer kind pane.first pane.rest = true ∨
            ReadsAsEmpty kind glyph pane.rest)) := by
  refine ⟨?_, readsAsEmpty_drawn hkind hformed⟩
  rw [automationIdle_pane hkind hformed, ← Bool.not_eq_true]
  by_cases hhint : pane.Hint kind
  · simp [hhint]
  · simp only [hhint, imp_false, false_or, not_and_or, not_not]

end

/-- A draft whose first line is empty. -/
def indentedDraft (first second : String) : Pane where
  history := ["● Done.".toList]
  first := first.toList
  rest := [second.toList]
  rule := "────".toList
  footer := ["bypass permissions on".toList]

theorem indentedDraft_formed : (indentedDraft "" "delete everything").Formed '❯' := by
  refine ⟨by decide +kernel, by decide +kernel, by decide +kernel⟩

theorem automation_idle_iff_example :
    (automationIdle id .claude ((indentedDraft "" "delete everything").content '❯') [] ⟨[], []⟩ = true →
        (indentedDraft "" "delete everything").Hint .claude) ↔
      (indentedDraft "" "delete everything").Hint .claude ∨
        stopped id '❯' ((indentedDraft "" "delete everything").content '❯') [] ⟨[], []⟩ = true ∨
          ¬ ReadsAsEmpty .claude '❯' ((indentedDraft "" "delete everything").drawn '❯') :=
  (automation_idle_iff id [] ⟨[], []⟩ rfl indentedDraft_formed).1

/-- A draft with a blank first line is submitted over. -/
theorem draft_submitted_over :
    automationIdle id .claude ((indentedDraft "" "delete everything").content '❯') [] ⟨[], []⟩ = true ∧
      isBlank "delete everything".toList = false ∧ ¬ (indentedDraft "" "delete everything").Hint .claude := by
  refine ⟨by decide +kernel, by decide +kernel, fun hhint => ?_⟩
  cases hhint.1

end Atmux.Status
