/-
How a model picker is read from a pane.

A picker draws a window of its numbered rows, marks the row under its cursor
and says how many rows it is not drawing. `pickerPage_draw` says that what it
draws is read back: the rows of the window with their labels, the cursor and
the number of hidden rows.
-/
import Atmux.Lib.Largest
import Atmux.Lib.Text
import Mathlib.Data.Finset.Card

namespace Atmux.ModelPicker

open Lib

/-! ## Rows and pages -/

/-- One model that a harness offers in its own picker. -/
structure KnownModel where
  id : String
  label : String
deriving DecidableEq

def codexModels : List KnownModel :=
  [⟨"gpt-6-astra", "GPT-6 Astra"⟩, ⟨"gpt-5.6-sol", "GPT-5.6 Sol"⟩, ⟨"gpt-5.6-terra", "GPT-5.6 Terra"⟩,
    ⟨"gpt-5.6-luna", "GPT-5.6 Luna"⟩, ⟨"gpt-5.5", "GPT-5.5"⟩, ⟨"gpt-5.4-mini", "GPT-5.4 Mini"⟩,
    ⟨"gpt-5.3-codex-spark", "GPT-5.3 Codex Spark"⟩]

/-- The rows that are drawn, the number of the highlighted one, and how many
are not drawn. -/
structure PickerPage where
  rows : List (Nat × List Char)
  selected : Nat
  hidden : Nat
deriving DecidableEq

def decorations : List Char := [' ', '│', '┃', '|', '╭', '╰', '\t', '↑', '↓']

def markers : List Char := ['❯', '›', '>', '•', '*']

/-- What stands before the first run of two spaces. -/
def labelColumn (tail : List Char) : List Char :=
  match Text.cutText [' ', ' '] tail with
  | some (label, _) => label
  | none => tail

/-- A row's number, whether it is highlighted, and its label. -/
def pickerRow (line : List Char) : Option (Nat × Bool × List Char) := do
  let trimmed := (line.dropWhile decorations.contains).dropWhile Text.isWhitespace
  let marked := trimmed.head?.any markers.contains
  let rest := (trimmed.dropWhile markers.contains).dropWhile Text.isWhitespace
  let (number, tail) ← Text.cutText ['.', ' '] rest
  let number ← Text.parseUnsigned 18446744073709551616 number
  let label := Text.trim (labelColumn tail)
  if label.isEmpty then none else some (number, marked, label)

/-- The run of rows read so far. -/
structure RowRun where
  rows : List (Nat × List Char)
  selected : Option Nat

def RowRun.empty : RowRun := ⟨[], none⟩

def RowRun.read (run : RowRun) (line : List Char) : RowRun :=
  match pickerRow line with
  | none => run
  | some (number, marked, label) =>
    let run := if run.rows.getLast?.any (fun last => number != last.1 + 1) then .empty else run
    ⟨run.rows ++ [(number, label)], if marked then some number else run.selected⟩

def footerDecorations : List Char := [' ', '│', '┃', '|', '\t', '…', '.']

/-- The number of a `… +2 models` footer. -/
def footerRows (line : List Char) : Option Nat := do
  let rest ← Text.strip ['+'] (Text.trim (line.dropWhile footerDecorations.contains))
  let (count, tail) ← Text.cut ' ' rest
  if (Text.trim tail).map Text.asciiLower = "models".toList then Text.parseUnsigned 18446744073709551616 count else none

def pickerHiddenRows (content : List Char) : Nat := ((Text.lines content).reverse.findSome? footerRows).getD 0

def pickerPage (content heading : List Char) : Option PickerPage :=
  if (Text.cutText heading content).isNone then none
  else
    let run := (Text.lines content).foldl RowRun.read .empty
    run.selected.bind fun selected =>
      if 1 < run.rows.length then some ⟨run.rows, selected, pickerHiddenRows content⟩ else none

def normalizedModelName (value : List Char) : List Char := (value.filter Char.isAlphanum).map Text.asciiLower

/-- The length of the longest of a model's names that a row starts with. -/
def matchedLength (row : List Char) (model : KnownModel) : Option Nat :=
  ((([model.id, model.label].map fun name => normalizedModelName name.toList).filter
    fun name => !name.isEmpty && name.isPrefixOf row).map List.length).max?

/-- The known model that a row names. -/
def pickerRowModel (row : List Char) (models : List KnownModel) : Option KnownModel :=
  let row := normalizedModelName row
  let named := models.filterMap fun model => (matchedLength row model).map fun length => (length, model)
  (maxBy (fun a b => compare a.1 b.1) named).map Prod.snd

def namesModel (models : List KnownModel) (model : String) (label : List Char) : Bool :=
  (pickerRowModel label models).any fun candidate => candidate.id == model

/-- The number of the drawn row that names a model. -/
def pickerTargetRow (page : PickerPage) (models : List KnownModel) (model : String) : Option Nat :=
  page.rows.findSome? fun (number, label) => if namesModel models model label then some number else none

/-! ## What a picker draws -/

/-- A row of a picker: a model's id, maybe with a marker, and a description. -/
structure Row where
  id : List Char
  marker : Option (List Char)
  description : List Char
  id_ne : id ≠ []
  id_plain : ∀ c ∈ id, Text.isWhitespace c = false
  marker_line : ∀ marker' ∈ marker, '\n' ∉ marker' ∧ '\r' ∉ marker'
  marker_plain : ∀ marker' ∈ marker, ¬ [' ', ' '] <:+: marker'
  description_line : '\n' ∉ description ∧ '\r' ∉ description

def Row.label (row : Row) : List Char :=
  match row.marker with
  | none => row.id
  | some marker => row.id ++ ' ' :: '(' :: (marker ++ [')'])

structure Picker where
  rows : List Row
  two : 2 ≤ rows.length
  small : rows.length < 18446744073709551616

/-- Consecutive rows from a first one on. -/
structure Window where
  first : Nat
  size : Nat

def Window.Has (window : Window) (row : Nat) : Prop := window.first ≤ row ∧ row < window.first + window.size

/-- At least two of so many rows, the cursor's among them. -/
structure Window.Shows (window : Window) (count cursor : Nat) : Prop where
  first : 1 ≤ window.first
  two : 2 ≤ window.size
  within : window.first + window.size ≤ count + 1
  cursor : window.Has cursor

/-- The label of a row by its number. -/
def Picker.label (picker : Picker) (number : Nat) : List Char :=
  match picker.rows[number - 1]? with
  | some row => row.label
  | none => []

def Picker.description (picker : Picker) (number : Nat) : List Char :=
  match picker.rows[number - 1]? with
  | some row => if row.description.isEmpty then [] else ' ' :: ' ' :: row.description
  | none => []

def codexHeading : List Char := "Select Model and Effort".toList

def rowMark (marked : Bool) : List Char := if marked then ['›', ' '] else [' ', ' ']

def rowLine (picker : Picker) (cursor number : Nat) : List Char :=
  rowMark (number == cursor) ++ (toString number).toList ++ '.' :: ' ' :: (picker.label number ++ picker.description number)

def linesAbove : List (List Char) :=
  [' ' :: ' ' :: codexHeading, "  Access legacy models by running codex -m <model_name> or in your config.toml".toList, []]

def linesBelow : List (List Char) := [[], "  Press enter to confirm or esc to go back".toList]

def footerLine (hidden : Nat) : List Char := "      … ".toList ++ '+' :: ((toString hidden).toList ++ " models".toList)

def footerLines (hidden : Nat) : List (List Char) := if hidden = 0 then [] else [footerLine hidden]

def numbersIn (window : Window) : List Nat := List.range' window.first window.size

def screenLines (picker : Picker) (window : Window) (cursor : Nat) : List (List Char) :=
  linesAbove ++ ((numbersIn window).map (rowLine picker cursor) ++
    (footerLines (picker.rows.length - window.size) ++ linesBelow))

/-- What a pane shows of a picker. -/
def draw (picker : Picker) (window : Window) (cursor : Nat) : List Char :=
  (screenLines picker window cursor).flatMap fun line => line ++ ['\n']

/-- The page that a picker draws. -/
def pageOf (picker : Picker) (window : Window) (cursor : Nat) : PickerPage :=
  ⟨(numbersIn window).map fun number => (number, picker.label number), cursor, picker.rows.length - window.size⟩

/-! ## Labels are read back -/

theorem not_mem_of_plain {text : List Char} {c : Char} (h : ∀ c ∈ text, Text.isWhitespace c = false)
    (hc : Text.isWhitespace c = true) : c ∉ text := by
  intro hmem
  rw [h c hmem] at hc
  cases hc

/-- A character that is no space makes no run of spaces. -/
theorem not_infix_concat {text : List Char} {c : Char} (h : ¬ [' ', ' '] <:+: text) (hc : c ≠ ' ') :
    ¬ [' ', ' '] <:+: text ++ [c] := by
  induction text with
  | nil => simp [List.infix_cons_iff]
  | cons a text ih =>
    rw [List.infix_cons_iff, not_or] at h
    rw [List.cons_append, List.infix_cons_iff]
    rintro (hfront | hinfix)
    · cases text with
      | nil =>
        simp only [List.nil_append, List.cons_prefix_cons, List.nil_prefix, and_true] at hfront
        exact hc hfront.2.symm
      | cons b text =>
        simp only [List.cons_append, List.cons_prefix_cons, List.nil_prefix, and_true] at hfront
        refine h.1 ?_
        simp only [List.cons_prefix_cons, List.nil_prefix, and_true]
        exact hfront
    · exact ih h.2 hinfix

/-- A text without a run of spaces ends before the first one that follows it. -/
theorem cutText_plain {text : List Char} (h : ¬ [' ', ' '] <:+: text) (hlast : text.getLast? ≠ some ' ')
    (rest : List Char) : Text.cutText [' ', ' '] (text ++ ' ' :: ' ' :: rest) = some (text, rest) := by
  induction text with
  | nil => exact Text.cutText_self [' '] rest
  | cons a text ih =>
    rw [List.infix_cons_iff, not_or] at h
    have hstart : [' ', ' '].isPrefixOf (a :: (text ++ ' ' :: ' ' :: rest)) = false := by
      rw [Bool.eq_false_iff]
      intro hfront
      rw [List.isPrefixOf_iff_prefix] at hfront
      cases text with
      | nil =>
        simp only [List.nil_append, List.cons_prefix_cons, List.nil_prefix, and_true] at hfront
        exact hlast (by rw [hfront]; rfl)
      | cons b text =>
        simp only [List.cons_append, List.cons_prefix_cons, List.nil_prefix, and_true] at hfront
        refine h.1 ?_
        simp only [List.cons_prefix_cons, List.nil_prefix, and_true]
        exact hfront
    have htail : text.getLast? ≠ some ' ' := by
      cases text with
      | nil => simp
      | cons b text => simpa [List.getLast?_cons_cons] using hlast
    rw [List.cons_append, Text.cutText, hstart, if_neg Bool.false_ne_true, ih h.2 htail]
    rfl

theorem Row.label_ne (row : Row) : row.label ≠ [] := by
  unfold label
  split
  · exact row.id_ne
  · simp

theorem Row.label_spaces (row : Row) : ¬ [' ', ' '] <:+: row.label := by
  have hid : ' ' ∉ row.id := not_mem_of_plain row.id_plain (by decide)
  rw [← Text.cutText_eq_none_iff]
  unfold label
  split
  · rw [← List.append_nil row.id, Text.cutText_append hid]
    rfl
  next marker hmarker =>
    have hplain := not_infix_concat (row.marker_plain marker hmarker) (c := ')') (by decide)
    have hrest : Text.cutText [' ', ' '] (' ' :: '(' :: (marker ++ [')'])) = none := by
      rw [Text.cutText_eq_none_iff, List.infix_cons_iff, List.infix_cons_iff]
      rintro (hfront | hfront | hinfix)
      · exact absurd (List.cons_prefix_cons.mp (List.cons_prefix_cons.mp hfront).2).1 (by decide)
      · exact absurd (List.cons_prefix_cons.mp hfront).1 (by decide)
      · exact hplain hinfix
    rw [Text.cutText_append hid, hrest]
    rfl

theorem Row.label_last (row : Row) : ∀ c ∈ row.label.getLast?, Text.isWhitespace c = false := by
  intro c hc
  unfold label at hc
  split at hc
  · exact row.id_plain c (List.mem_of_getLast? hc)
  next marker _ =>
    have hlast : (row.id ++ ' ' :: '(' :: (marker ++ [')'])).getLast? = some ')' := by
      simp [List.getLast?_append, List.getLast?_cons]
    rw [hlast] at hc
    obtain rfl := Option.some.inj hc
    decide

theorem Row.label_head (row : Row) : row.label.dropWhile Text.isWhitespace = row.label := by
  obtain ⟨c, rest, hid⟩ := List.exists_cons_of_ne_nil row.id_ne
  have hc := row.id_plain c (by rw [hid]; simp)
  have hlabel : ∃ rest, row.label = c :: rest := by
    unfold label
    split
    · exact ⟨rest, hid⟩
    · rw [hid]
      exact ⟨_, rfl⟩
  obtain ⟨rest', hlabel⟩ := hlabel
  rw [hlabel, List.dropWhile_cons, hc, if_neg Bool.false_ne_true]

theorem Row.trim_label (row : Row) : Text.trim row.label = row.label := by
  rw [Text.trim, row.label_head]
  exact Text.trimEnd_eq_self row.label_last

theorem Row.labelColumn_eq (row : Row) :
    labelColumn (row.label ++ if row.description.isEmpty then [] else ' ' :: ' ' :: row.description) = row.label := by
  have hlast : row.label.getLast? ≠ some ' ' := by
    intro hlast
    have hspace := row.label_last ' ' hlast
    revert hspace
    decide
  unfold labelColumn
  split
  next label rest hcut =>
    split at hcut
    · rw [List.append_nil, Text.cutText_eq_none_iff.mpr row.label_spaces] at hcut
      cases hcut
    · rw [cutText_plain row.label_spaces hlast] at hcut
      exact (Prod.mk.inj (Option.some.inj hcut)).1.symm
  next hcut =>
    split at hcut
    · split
      · exact List.append_nil _
      next hsome => contradiction
    · rw [cutText_plain row.label_spaces hlast] at hcut
      cases hcut

/-! ## Rows are read back -/

theorem digit_plain {c : Char} (h : c.isDigit = true) :
    decorations.contains c = false ∧ markers.contains c = false ∧ footerDecorations.contains c = false ∧
      Text.isWhitespace c = false ∧ c ≠ '+' ∧ c ≠ '.' ∧ c ≠ '\n' := by
  have hmarks : ∀ c ∈ decorations ++ markers ++ footerDecorations ++ ['+', '.', '\n'], c.isDigit = false := by decide
  have hnone : ∀ list : List Char, (∀ c ∈ list, c.isDigit = false) → list.contains c = false := by
    intro list hlist
    rw [Bool.eq_false_iff]
    intro hmem
    rw [List.contains_iff_mem] at hmem
    rw [hlist c hmem] at h
    cases h
  have hother : ∀ other ∈ ['+', '.', '\n'], c ≠ other := by
    intro other hmem heq
    subst heq
    rw [hmarks c (by simp only [List.mem_append]; exact .inr hmem)] at h
    cases h
  have hspace : Text.isWhitespace c = false := by
    obtain ⟨hlow, hhigh⟩ := Char.isDigit_iff_toNat.mp h
    simp only [Text.isWhitespace, Bool.or_eq_false_iff, Bool.and_eq_false_iff, decide_eq_false_iff_not, beq_eq_false_iff_ne]
    have hzero : '0'.toNat = 48 := rfl
    have hnine : '9'.toNat = 57 := rfl
    omega
  refine ⟨hnone _ ?_, hnone _ ?_, hnone _ ?_, hspace, hother '+' (by simp), hother '.' (by simp), hother '\n' (by simp)⟩
  · exact fun c hc => hmarks c (by simp [hc])
  · exact fun c hc => hmarks c (by simp [hc])
  · exact fun c hc => hmarks c (by simp [hc])

theorem toString_cons (n : Nat) : ∃ d digits, (toString n).toList = d :: digits ∧ d.isDigit = true := by
  cases hdigits : (toString n).toList with
  | nil =>
    have hparse : Text.parseUnsigned (n + 1) (toString n).toList = some n := Text.parseUnsigned_toString (by omega)
    rw [hdigits] at hparse
    cases hparse
  | cons d digits => exact ⟨d, digits, rfl, Text.isDigit_toString (by rw [hdigits]; exact List.mem_cons_self)⟩

/-- A number and what follows it are reached whether the row is marked or not. -/
theorem trimmed_rowMark (marked : Bool) {d : Char} (rest : List Char) (hd : d.isDigit = true) :
    ((rowMark marked ++ d :: rest).dropWhile decorations.contains).dropWhile Text.isWhitespace =
        (if marked then '›' :: ' ' :: d :: rest else d :: rest) ∧
      (((if marked then '›' :: ' ' :: d :: rest else d :: rest).dropWhile markers.contains).dropWhile Text.isWhitespace) =
        d :: rest ∧
      (if marked then '›' :: ' ' :: d :: rest else d :: rest).head?.any markers.contains = marked := by
  obtain ⟨hdecoration, hmarker, _, hspace, _⟩ := digit_plain hd
  have hpoint : decorations.contains '›' = false ∧ Text.isWhitespace '›' = false ∧ markers.contains '›' = true ∧
      markers.contains ' ' = false ∧ Text.isWhitespace ' ' = true ∧ decorations.contains ' ' = true := by decide
  obtain ⟨h₁, h₂, h₃, h₄, h₅, h₆⟩ := hpoint
  cases marked with
  | true =>
    simp only [rowMark, if_true, List.cons_append, List.nil_append, List.dropWhile_cons, List.head?_cons, Option.any_some,
      h₁, h₂, h₃, h₄, h₅, hspace, Bool.false_eq_true, if_false, and_self]
  | false =>
    simp only [rowMark, List.cons_append, List.nil_append, List.dropWhile_cons, List.head?_cons, Option.any_some, if_true,
      h₆, hdecoration, hmarker, hspace, Bool.false_eq_true, if_false, and_self]

theorem pickerRow_rowLine {picker : Picker} {number : Nat} (cursor : Nat) (hlow : 1 ≤ number)
    (hhigh : number ≤ picker.rows.length) :
    pickerRow (rowLine picker cursor number) = some (number, number == cursor, picker.label number) := by
  obtain ⟨row, hrow⟩ : ∃ row, picker.rows[number - 1]? = some row := ⟨_, List.getElem?_eq_getElem (by omega)⟩
  have hlabel : picker.label number = row.label := by rw [Picker.label, hrow]
  have hdescription : picker.description number = if row.description.isEmpty then [] else ' ' :: ' ' :: row.description := by
    rw [Picker.description, hrow]
  obtain ⟨d, digits, hdigits, hd⟩ := toString_cons number
  have hparse : Text.parseUnsigned 18446744073709551616 (d :: digits) = some number := by
    rw [← hdigits]
    exact Text.parseUnsigned_toString (by have := picker.small; omega)
  have hdot : '.' ∉ d :: digits := by
    intro hmem
    rw [← hdigits] at hmem
    exact (digit_plain (Text.isDigit_toString hmem)).2.2.2.2.2.1 rfl
  generalize htail : row.label ++ (if row.description.isEmpty then [] else ' ' :: ' ' :: row.description) = tail
  have hcut : Text.cutText ['.', ' '] (d :: (digits ++ '.' :: ' ' :: tail)) = some (d :: digits, tail) := by
    have hself : Text.cutText ['.', ' '] ('.' :: ' ' :: tail) = some ([], tail) := Text.cutText_self [' '] tail
    rw [← List.cons_append, Text.cutText_append hdot, hself]
    simp
  have hline : rowLine picker cursor number = rowMark (number == cursor) ++ d :: (digits ++ '.' :: ' ' :: tail) := by
    rw [rowLine, hdigits, hlabel, hdescription, htail]
    simp
  obtain ⟨htrim, hrest, hmarked⟩ := trimmed_rowMark (number == cursor) (digits ++ '.' :: ' ' :: tail) hd
  have hcolumn : Text.trim (labelColumn tail) = row.label := by
    rw [← htail, row.labelColumn_eq, row.trim_label]
  have hsome : row.label.isEmpty = false := by
    rw [Bool.eq_false_iff]
    intro hempty
    exact row.label_ne (List.isEmpty_iff.mp hempty)
  simp only [pickerRow, hline, htrim, hrest, hmarked, hcut, Option.bind_some, hparse, Option.bind_eq_bind, hcolumn, hsome,
    hlabel]
  rfl

/-- A line without a dot is no row. -/
theorem pickerRow_eq_none {line : List Char} (h : '.' ∉ line) : pickerRow line = none := by
  have hrest : ∀ p q r t : Char → Bool, '.' ∉ ((((line.dropWhile p).dropWhile q).dropWhile r).dropWhile t) := by
    intro p q r t hmem
    exact h ((((List.dropWhile_sublist p).subset ((List.dropWhile_sublist q).subset ((List.dropWhile_sublist r).subset
      ((List.dropWhile_sublist t).subset hmem))))))
  have hcut : Text.cutText ['.', ' '] ((((line.dropWhile decorations.contains).dropWhile Text.isWhitespace).dropWhile
      markers.contains).dropWhile Text.isWhitespace) = none := by
    rw [← List.append_nil (((line.dropWhile _).dropWhile _).dropWhile _ |>.dropWhile _),
      Text.cutText_append (hrest _ _ _ _)]
    rfl
  simp only [pickerRow, hcut]
  rfl

theorem pickerRow_above : ∀ line ∈ linesAbove, pickerRow line = none := by decide +kernel

theorem pickerRow_below : ∀ line ∈ linesBelow, pickerRow line = none := by decide +kernel

theorem pickerRow_footer (hidden : Nat) : ∀ line ∈ footerLines hidden, pickerRow line = none := by
  intro line hline
  unfold footerLines at hline
  split at hline
  · cases hline
  · obtain rfl := List.mem_singleton.mp hline
    refine pickerRow_eq_none fun hmem => ?_
    rcases List.mem_append.mp hmem with hfront | hrest
    · revert hfront
      decide
    rcases List.mem_cons.mp hrest with hplus | hrest
    · exact absurd hplus (by decide)
    rcases List.mem_append.mp hrest with hnumber | hmodels
    · exact (digit_plain (Text.isDigit_toString hnumber)).2.2.2.2.2.1 rfl
    · revert hmodels
      decide

/-! ## Screens are read back -/

theorem foldl_read_of_none {lines : List (List Char)} (h : ∀ line ∈ lines, pickerRow line = none) (run : RowRun) :
    lines.foldl RowRun.read run = run := by
  induction lines generalizing run with
  | nil => rfl
  | cons line lines ih =>
    obtain ⟨hline, hlines⟩ := List.forall_mem_cons.mp h
    rw [List.foldl_cons, RowRun.read, hline]
    exact ih hlines run

/-- Rows from the one that continues a run are added to it. -/
theorem foldl_read_rows {picker : Picker} (cursor : Nat) {first size : Nat} (hlow : 1 ≤ first)
    (hhigh : first + size ≤ picker.rows.length + 1) {run : RowRun} (hrun : ∀ last ∈ run.rows.getLast?, last.1 + 1 = first) :
    ((List.range' first size).map (rowLine picker cursor)).foldl RowRun.read run =
      ⟨run.rows ++ (List.range' first size).map fun number => (number, picker.label number),
        if first ≤ cursor ∧ cursor < first + size then some cursor else run.selected⟩ := by
  induction size generalizing first run with
  | zero =>
    have hnone : ¬ (first ≤ cursor ∧ cursor < first + 0) := by omega
    rw [if_neg hnone, List.range'_zero, List.map_nil, List.map_nil, List.append_nil]
    rfl
  | succ size ih =>
    have hcontinues : run.rows.getLast?.any (fun last => first != last.1 + 1) = false := by
      cases hlast : run.rows.getLast? with
      | none => rfl
      | some last => simp [hrun last hlast]
    rw [List.range'_succ, List.map_cons, List.foldl_cons, RowRun.read, pickerRow_rowLine cursor hlow (by omega)]
    simp only [hcontinues, Bool.false_eq_true, if_false]
    rw [ih (by omega) (by omega) (by simp)]
    simp only [List.append_assoc, List.singleton_append, List.map_cons, RowRun.mk.injEq, true_and]
    by_cases hcursor : first = cursor
    · subst hcursor
      have hpast : ¬ (first + 1 ≤ first ∧ first < first + 1 + size) := by omega
      have hhere : first ≤ first ∧ first < first + (size + 1) := by omega
      rw [if_neg hpast, if_pos hhere]
      simp
    · have hother : ¬ (first == cursor) = true := by simpa using hcursor
      have hlater : (first + 1 ≤ cursor ∧ cursor < first + 1 + size) ↔ (first ≤ cursor ∧ cursor < first + (size + 1)) := by
        omega
      rw [if_neg hother]
      simp only [hlater]

theorem foldl_read_screen {picker : Picker} {window : Window} {cursor : Nat}
    (h : window.Shows picker.rows.length cursor) :
    (screenLines picker window cursor).foldl RowRun.read .empty =
      ⟨(numbersIn window).map fun number => (number, picker.label number), some cursor⟩ := by
  have hcursor := h.cursor
  unfold Window.Has at hcursor
  rw [screenLines, List.foldl_append, List.foldl_append, List.foldl_append, foldl_read_of_none pickerRow_above, numbersIn,
    foldl_read_rows cursor h.first h.within (fun last hlast => by cases hlast), foldl_read_of_none (pickerRow_footer _),
    foldl_read_of_none pickerRow_below, if_pos hcursor]
  rfl

/-- A trimmed text begins with its first character that is no blank. -/
theorem strip_trim {c : Char} (hspace : Text.isWhitespace c = false) (hplus : c ≠ '+') (rest : List Char) :
    Text.strip ['+'] (Text.trim (c :: rest)) = none := by
  have htrim : ∃ rest', Text.trim (c :: rest) = c :: rest' := by
    rw [Text.trim, List.dropWhile_cons, hspace, if_neg Bool.false_ne_true, Text.trimEnd, List.reverse_cons,
      List.dropWhile_append]
    split
    · rw [List.dropWhile_cons, hspace, if_neg Bool.false_ne_true]
      exact ⟨[], rfl⟩
    · rw [List.reverse_append]
      exact ⟨_, rfl⟩
  obtain ⟨rest', hrest⟩ := htrim
  rw [hrest, Text.strip, if_neg]
  rw [List.isPrefixOf_iff_prefix]
  intro hfront
  exact hplus (List.cons_prefix_cons.mp hfront).1.symm

theorem footerRows_rowLine (picker : Picker) (cursor number : Nat) : footerRows (rowLine picker cursor number) = none := by
  obtain ⟨d, digits, hdigits, hd⟩ := toString_cons number
  obtain ⟨_, _, hfooter, hspace, hplus, _⟩ := digit_plain hd
  have hpoint : footerDecorations.contains ' ' = true ∧ footerDecorations.contains '›' = false := by decide
  have hstrip : Text.strip ['+'] (Text.trim ((rowLine picker cursor number).dropWhile footerDecorations.contains)) = none := by
    rw [rowLine, hdigits]
    cases number == cursor with
    | true =>
      simp only [rowMark, if_true, List.cons_append, List.dropWhile_cons, hpoint.2, Bool.false_eq_true, if_false]
      exact strip_trim (by decide) (by decide) _
    | false =>
      simp only [rowMark, Bool.false_eq_true, if_false, List.cons_append, List.nil_append, List.dropWhile_cons, hpoint.1, if_true,
        hfooter]
      exact strip_trim hspace hplus _
  rw [footerRows, hstrip]
  rfl

/-- A text between two characters that are no blanks is not trimmed. -/
theorem trim_between {first last : Char} (hfirst : Text.isWhitespace first = false) (hlast : Text.isWhitespace last = false)
    (text : List Char) : Text.trim (first :: (text ++ [last])) = first :: (text ++ [last]) := by
  rw [Text.trim, List.dropWhile_cons, hfirst, if_neg Bool.false_ne_true]
  refine Text.trimEnd_eq_self ?_
  intro c hc
  rw [← List.cons_append, List.getLast?_concat] at hc
  obtain rfl := Option.some.inj hc
  exact hlast

theorem footerRows_footerLine {hidden : Nat} (h : hidden < 18446744073709551616) : footerRows (footerLine hidden) = some hidden := by
  have hparse := Text.parseUnsigned_toString h
  have hspace : ' ' ∉ (toString hidden).toList := by
    intro hmem
    have hplain := (digit_plain (Text.isDigit_toString hmem)).2.2.2.1
    revert hplain
    decide
  have hblank : ∀ c ∈ "      … ".toList, footerDecorations.contains c = true := by decide
  have hplus : footerDecorations.contains '+' = false := by decide
  have hmodels : " models".toList = ' ' :: "models".toList ∧ " models".toList = " model".toList ++ ['s'] := by decide
  have hname : (Text.trim "models".toList).map Text.asciiLower = "models".toList := by decide
  unfold footerLine
  generalize (toString hidden).toList = number at hparse hspace ⊢
  have hdrop : ("      … ".toList ++ '+' :: (number ++ " models".toList)).dropWhile footerDecorations.contains =
      '+' :: (number ++ " models".toList) := by
    rw [List.dropWhile_append_of_pos hblank, List.dropWhile_cons, hplus, if_neg Bool.false_ne_true]
  have htrim : Text.trim ('+' :: (number ++ " models".toList)) = '+' :: (number ++ " models".toList) := by
    rw [hmodels.2, ← List.append_assoc]
    exact trim_between (by decide) (by decide) _
  have hstrip : Text.strip ['+'] ('+' :: (number ++ " models".toList)) = some (number ++ " models".toList) :=
    Text.strip_append ['+'] _
  have hcut : Text.cut ' ' (number ++ " models".toList) = some (number, "models".toList) := by
    rw [hmodels.1]
    exact Text.cut_append hspace _
  simp only [footerRows, hdrop, htrim, hstrip, hcut, Option.bind_eq_bind, Option.bind_some, if_pos hname]
  exact hparse

/-- A line without a plus sign is no footer. -/
theorem footerRows_eq_none {line : List Char} (h : '+' ∉ line) : footerRows line = none := by
  have hstrip : Text.strip ['+'] (Text.trim (line.dropWhile footerDecorations.contains)) = none := by
    rw [Text.strip, if_neg]
    intro hprefix
    have hmem : '+' ∈ Text.trim (line.dropWhile footerDecorations.contains) :=
      (List.isPrefixOf_iff_prefix.mp hprefix).subset List.mem_cons_self
    rw [Text.trim, Text.trimEnd, List.mem_reverse] at hmem
    have hrest := List.mem_reverse.mp ((List.dropWhile_sublist _).subset hmem)
    exact h ((List.dropWhile_sublist _).subset ((List.dropWhile_sublist _).subset hrest))
  rw [footerRows, hstrip]
  rfl

theorem footerRows_below : ∀ line ∈ linesBelow, footerRows line = none := by
  have hplain : ∀ line ∈ linesBelow, '+' ∉ line := by decide
  exact fun line hline => footerRows_eq_none (hplain line hline)

theorem footerRows_above : ∀ line ∈ linesAbove, footerRows line = none := by
  have hplain : ∀ line ∈ linesAbove, '+' ∉ line := by decide
  exact fun line hline => footerRows_eq_none (hplain line hline)

theorem findSome?_footer {hidden : Nat} (h : hidden < 18446744073709551616) :
    ((footerLines hidden).reverse.findSome? footerRows).getD 0 = hidden := by
  unfold footerLines
  split
  next hzero => exact hzero.symm
  next => simp [footerRows_footerLine h]

theorem pickerHiddenRows_draw {picker : Picker} {window : Window} {cursor : Nat}
    (hlines : Text.lines (draw picker window cursor) = screenLines picker window cursor) :
    pickerHiddenRows (draw picker window cursor) = picker.rows.length - window.size := by
  have hbelow : linesBelow.reverse.findSome? footerRows = none := by
    rw [List.findSome?_eq_none_iff]
    exact fun line hline => footerRows_below line (List.mem_reverse.mp hline)
  have hrest : (linesAbove ++ (numbersIn window).map (rowLine picker cursor)).reverse.findSome? footerRows = none := by
    rw [List.findSome?_eq_none_iff]
    intro line hline
    rcases List.mem_append.mp (List.mem_reverse.mp hline) with habove | hrow
    · exact footerRows_above line habove
    · obtain ⟨number, _, rfl⟩ := List.mem_map.mp hrow
      exact footerRows_rowLine picker cursor number
  have hsmall := picker.small
  have hbound : picker.rows.length - window.size < 18446744073709551616 := by omega
  have hfooter := findSome?_footer hbound
  rw [pickerHiddenRows, hlines, screenLines, ← List.append_assoc, List.reverse_append, List.reverse_append,
    List.append_assoc, List.findSome?_append, hbelow, Option.none_or, List.findSome?_append, hrest, Option.or_none]
  exact hfooter

/-- Characters of a line: no line feed and no carriage return. -/
def OneLine (line : List Char) : Prop := '\n' ∉ line ∧ '\r' ∉ line

instance (line : List Char) : Decidable (OneLine line) := inferInstanceAs (Decidable ('\n' ∉ line ∧ '\r' ∉ line))

theorem OneLine.append {line line' : List Char} (h : OneLine line) (h' : OneLine line') : OneLine (line ++ line') := by
  unfold OneLine at *
  simp only [List.mem_append, not_or]
  exact ⟨⟨h.1, h'.1⟩, ⟨h.2, h'.2⟩⟩

theorem oneLine_toString (n : Nat) : OneLine (toString n).toList := by
  refine ⟨fun hmem => ?_, fun hmem => ?_⟩
  · exact (digit_plain (Text.isDigit_toString hmem)).2.2.2.2.2.2 rfl
  · have hspace := (digit_plain (Text.isDigit_toString hmem)).2.2.2.1
    revert hspace
    decide

theorem Row.label_oneLine (row : Row) : OneLine row.label := by
  have hid : OneLine row.id := ⟨not_mem_of_plain row.id_plain (by decide), not_mem_of_plain row.id_plain (by decide)⟩
  unfold label
  split
  · exact hid
  next marker hmarker =>
    have hopen : OneLine [' ', '('] := by decide
    have hclose : OneLine [')'] := by decide
    exact hid.append (hopen.append (OneLine.append (row.marker_line marker hmarker) hclose))

theorem label_oneLine (picker : Picker) (number : Nat) : OneLine (picker.label number) := by
  unfold Picker.label
  split
  · exact Row.label_oneLine _
  · decide

theorem description_oneLine (picker : Picker) (number : Nat) : OneLine (picker.description number) := by
  have hnone : OneLine [] := by decide
  unfold Picker.description
  split
  next row _ =>
    split
    · exact hnone
    · have hspaces : OneLine [' ', ' '] := by decide
      exact hspaces.append row.description_line
  · exact hnone

theorem rowLine_oneLine (picker : Picker) (cursor number : Nat) : OneLine (rowLine picker cursor number) := by
  have hmark : OneLine (rowMark (number == cursor)) := by cases number == cursor <;> decide
  have hdot : OneLine ['.', ' '] := by decide
  unfold rowLine
  exact (hmark.append (oneLine_toString number)).append
    (hdot.append ((label_oneLine picker number).append (description_oneLine picker number)))

theorem screenLines_oneLine (picker : Picker) (window : Window) (cursor : Nat) :
    ∀ line ∈ screenLines picker window cursor, OneLine line := by
  have habove : ∀ line ∈ linesAbove, OneLine line := by decide +kernel
  have hbelow : ∀ line ∈ linesBelow, OneLine line := by decide +kernel
  intro line hline
  simp only [screenLines, List.mem_append] at hline
  rcases hline with hline | hline | hline | hline
  · exact habove line hline
  · obtain ⟨number, _, rfl⟩ := List.mem_map.mp hline
    exact rowLine_oneLine picker cursor number
  · unfold footerLines at hline
    split at hline
    · cases hline
    · obtain rfl := List.mem_singleton.mp hline
      have hfront : OneLine "      … ".toList := by decide
      have hplus : OneLine ['+'] := by decide
      have hmodels : OneLine " models".toList := by decide
      exact hfront.append (hplus.append ((oneLine_toString _).append hmodels))
  · exact hbelow line hline

theorem lines_draw (picker : Picker) (window : Window) (cursor : Nat) :
    Text.lines (draw picker window cursor) = screenLines picker window cursor := by
  have hplain := screenLines_oneLine picker window cursor
  refine Text.lines_terminated (fun line hline => (hplain line hline).1) ?_
  intro line hline hlast
  exact (hplain line hline).2 (List.mem_of_getLast? hlast)

theorem heading_drawn (picker : Picker) (window : Window) (cursor : Nat) :
    (Text.cutText codexHeading (draw picker window cursor)).isNone = false := by
  have hinfix : codexHeading <:+: draw picker window cursor := by
    refine ⟨[' ', ' '], ?_⟩
    exact ⟨_, rfl⟩
  have hheading : ∃ c rest, codexHeading = c :: rest := ⟨_, _, rfl⟩
  obtain ⟨c, rest, hheading⟩ := hheading
  rw [Bool.eq_false_iff]
  intro hnone
  rw [Option.isNone_iff_eq_none, hheading, Text.cutText_eq_none_iff, ← hheading] at hnone
  exact hnone hinfix

/-- **What a picker draws is read back**: its page. -/
theorem pickerPage_draw {picker : Picker} {window : Window} {cursor : Nat}
    (h : window.Shows picker.rows.length cursor) :
    pickerPage (draw picker window cursor) codexHeading = some (pageOf picker window cursor) := by
  have hlines := lines_draw picker window cursor
  have htwo := h.two
  have hlength : 1 < ((numbersIn window).map fun number => (number, picker.label number)).length := by
    rw [List.length_map, numbersIn, List.length_range']
    omega
  unfold pickerPage
  rw [heading_drawn, if_neg Bool.false_ne_true, hlines, foldl_read_screen h]
  simp only [Option.bind_some, if_pos hlength, pickerHiddenRows_draw hlines]
  rfl

end Atmux.ModelPicker
