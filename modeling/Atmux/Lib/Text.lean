/-
Text as Rust's `str` cuts it up. A `String` is read as its list of
characters, so each function is a list function with `String` at both ends,
and its lemmas are the ones callers cite instead of unfolding it.

* `splitOnce`: `str::split_once` on a character. `splitOnce_append` is the
  round trip with concatenation, `splitOnce_eq_none` the text without the
  separator.
* `cutText`: `str::find` of a pattern, as what stands before and after it.
* `splitInclusive`, `lines`: the lines of a text, with and without terminators.
* `trim` and `strip`: white space at the ends, and a fixed text at the start.
* `double`: a character written twice to stand for itself. `undouble_double`
  and `undouble_isSome` say what is read back, `collapse_double` what an
  expansion from left to right leaves.
* `split` and `parseUnsigned`: the fields of a record and the numbers in
  them. `split_append` and `parseUnsigned_toString` read a printed one back.
-/
import Mathlib.Data.List.Basic

namespace Lib.Text

/-- A property of a text's characters is decided on the text, not on all
characters. -/
instance (priority := 2000) decidableForallMem (p : Char → Prop) [DecidablePred p] (text : List Char) :
    Decidable (∀ c ∈ text, p c) := List.decidableBAll p text

/-! ## Splitting at the first separator -/

/-- The items before and after the first `sep`. -/
def cut {α : Type*} [DecidableEq α] (sep : α) : List α → Option (List α × List α)
  | [] => none
  | a :: l => if a = sep then some ([], l) else (cut sep l).map fun (before, after) => (a :: before, after)

theorem cut_append {α : Type*} [DecidableEq α] {sep : α} {before : List α} (h : sep ∉ before) (after : List α) :
    cut sep (before ++ sep :: after) = some (before, after) := by
  induction before with
  | nil => simp [cut]
  | cons a before ih =>
    simp only [List.mem_cons, not_or] at h
    simp [cut, Ne.symm h.1, ih h.2]

theorem cut_eq_none {α : Type*} [DecidableEq α] {sep : α} {l : List α} (h : sep ∉ l) : cut sep l = none := by
  induction l with
  | nil => rfl
  | cons a l ih =>
    simp only [List.mem_cons, not_or] at h
    simp [cut, Ne.symm h.1, ih h.2]

/-- `str::split_once` on a character. -/
def splitOnce (sep : Char) (text : String) : Option (String × String) :=
  (cut sep text.toList).map fun (before, after) => (String.ofList before, String.ofList after)

theorem splitOnce_append {sep : Char} {before : String} (h : sep ∉ before.toList) (after : String) :
    splitOnce sep (before ++ String.singleton sep ++ after) = some (before, after) := by
  simp [splitOnce, cut_append h]

theorem splitOnce_eq_none {sep : Char} {text : String} (h : sep ∉ text.toList) :
    splitOnce sep text = none := by
  simp [splitOnce, cut_eq_none h]

/-! ## Patterns, whitespace and lines -/

/-- What stands before and after the first occurrence of `pat`. -/
def cutText (pat : List Char) : List Char → Option (List Char × List Char)
  | [] => if pat.isEmpty then some ([], []) else none
  | c :: text =>
    if pat.isPrefixOf (c :: text) then some ([], (c :: text).drop pat.length)
    else (cutText pat text).map fun (before, after) => (c :: before, after)

theorem cutText_eq_none_iff {p : Char} {pat text : List Char} :
    cutText (p :: pat) text = none ↔ ¬ p :: pat <:+: text := by
  induction text with
  | nil => simp [cutText]
  | cons c text ih =>
    rw [cutText, List.infix_cons_iff]
    split
    next h => simp [List.isPrefixOf_iff_prefix.1 h]
    next h =>
      rw [Option.map_eq_none_iff, ih]
      have hstart : ¬ p :: pat <+: c :: text := fun hstart => h (List.isPrefixOf_iff_prefix.2 hstart)
      simp [hstart]

/-- A pattern does not begin among characters other than its first. -/
theorem cutText_append {p : Char} {pat before : List Char} (h : p ∉ before) (text : List Char) :
    cutText (p :: pat) (before ++ text) = (cutText (p :: pat) text).map fun (head, tail) => (before ++ head, tail) := by
  induction before with
  | nil => simp
  | cons c before ih =>
    have hc : c ≠ p := fun hc => h (by simp [hc])
    have hstart : (p :: pat).isPrefixOf (c :: (before ++ text)) = false := by
      simp [List.isPrefixOf, hc.symm]
    rw [List.cons_append, cutText, hstart, if_neg Bool.false_ne_true, ih fun hp => h (by simp [hp]), Option.map_map]
    rfl

theorem cutText_self {p : Char} (pat text : List Char) : cutText (p :: pat) (p :: pat ++ text) = some ([], text) := by
  have hstart : (p :: pat).isPrefixOf (p :: (pat ++ text)) = true :=
    List.isPrefixOf_iff_prefix.2 (List.prefix_append (p :: pat) text)
  rw [List.cons_append, cutText, if_pos hstart]
  simp

/-- `char::is_control`: Unicode's `Cc`. -/
def isControl (c : Char) : Bool := c.toNat < 0x20 || (0x7f ≤ c.toNat && c.toNat ≤ 0x9f)

/-- `char::is_whitespace`: Unicode's `White_Space`. -/
def isWhitespace (c : Char) : Bool :=
  let n := c.toNat
  (0x09 ≤ n && n ≤ 0x0d) || n == 0x20 || n == 0x85 || n == 0xa0 || n == 0x1680 ||
    (0x2000 ≤ n && n ≤ 0x200a) || n == 0x2028 || n == 0x2029 || n == 0x202f || n == 0x205f || n == 0x3000

/-- `str::split_inclusive`: the pieces of a text, each ending with its `sep`,
the last possibly without one. -/
def splitInclusive (sep : Char) : List Char → List (List Char)
  | [] => []
  | c :: text =>
    if c = sep then [c] :: splitInclusive sep text
    else
      match splitInclusive sep text with
      | [] => [[c]]
      | line :: lines => (c :: line) :: lines

/-- `str::lines`: the lines of a text without their terminators. -/
def lines (text : List Char) : List (List Char) :=
  (splitInclusive '\n' text).map fun line =>
    match line.reverse with
    | '\n' :: '\r' :: rest => rest.reverse
    | '\n' :: rest => rest.reverse
    | _ => line

theorem splitInclusive_append {sep : Char} {line : List Char} (h : sep ∉ line) (text : List Char) :
    splitInclusive sep (line ++ sep :: text) = (line ++ [sep]) :: splitInclusive sep text := by
  induction line with
  | nil => simp [splitInclusive]
  | cons c line ih =>
    have hc : c ≠ sep := fun hc => h (by simp [hc])
    rw [List.cons_append, splitInclusive, if_neg hc, ih fun hsep => h (by simp [hsep])]
    rfl

/-- Lines written with a line feed after each are read back. -/
theorem lines_terminated {written : List (List Char)} (hfeed : ∀ line ∈ written, '\n' ∉ line)
    (hreturn : ∀ line ∈ written, line.getLast? ≠ some '\r') :
    lines (written.flatMap fun line => line ++ ['\n']) = written := by
  induction written with
  | nil => rfl
  | cons line written ih =>
    have hrest := ih (fun line hline => hfeed line (by simp [hline])) fun line hline => hreturn line (by simp [hline])
    have hlast := hreturn line (by simp)
    rw [lines, List.flatMap_cons, List.append_assoc, List.singleton_append,
      splitInclusive_append (hfeed line (by simp)), List.map_cons]
    rw [lines] at hrest
    rw [hrest]
    congr 1
    rw [List.reverse_append, List.reverse_singleton, List.singleton_append]
    split
    next rest heq =>
      have hreverse : line.reverse = '\r' :: rest := (List.cons.inj heq).2
      rw [← List.head?_reverse, hreverse] at hlast
      exact absurd rfl hlast
    next rest _ heq =>
      obtain ⟨_, rfl⟩ := List.cons.inj heq
      exact List.reverse_reverse line
    next hnone => exact absurd rfl (hnone _)

def trimEnd (text : List Char) : List Char := (text.reverse.dropWhile isWhitespace).reverse

theorem trimEnd_eq_self {text : List Char} (h : ∀ c ∈ text.getLast?, isWhitespace c = false) : trimEnd text = text := by
  rw [trimEnd, List.reverse_eq_iff]
  rw [← List.head?_reverse] at h
  cases hreverse : text.reverse with
  | nil => rfl
  | cons c rest =>
    rw [hreverse] at h
    rw [List.dropWhile_cons, h c rfl, if_neg Bool.false_ne_true]

def trim (text : List Char) : List Char := trimEnd (text.dropWhile isWhitespace)

/-- What follows `start` at the start of a text. -/
def strip (start text : List Char) : Option (List Char) :=
  if start.isPrefixOf text then some (text.drop start.length) else none

theorem strip_append (start text : List Char) : strip start (start ++ text) = some text := by
  rw [strip, if_pos (List.isPrefixOf_iff_prefix.2 (List.prefix_append start text)), List.drop_left]

/-! ## A character doubled -/

section Double

variable {α : Type*} [DecidableEq α] {mark : α}

/-- Each `mark` written twice. -/
def double (mark : α) (l : List α) : List α := l.flatMap fun a => if a = mark then [mark, mark] else [a]

/-- What was doubled, where every `mark` is followed by another. -/
def undouble (mark : α) : List α → Option (List α)
  | [] => some []
  | a :: l =>
    if a ≠ mark then (undouble mark l).map (a :: ·)
    else
      match l with
      | [] => none
      | b :: rest => if b ≠ mark then none else (undouble mark rest).map (mark :: ·)

/-- Each pair of marks replaced by one, from left to right. -/
def collapse (mark : α) : List α → List α
  | [] => []
  | [a] => [a]
  | a :: b :: l => if a = mark ∧ b = mark then mark :: collapse mark l else a :: collapse mark (b :: l)

theorem double_mark (l : List α) : double mark (mark :: l) = mark :: mark :: double mark l := by
  simp [double]

theorem double_other {a : α} (h : a ≠ mark) (l : List α) : double mark (a :: l) = a :: double mark l := by
  simp [double, h]

theorem undouble_other {a : α} (h : a ≠ mark) (l : List α) :
    undouble mark (a :: l) = (undouble mark l).map (a :: ·) := by
  cases l <;> simp [undouble, h]

theorem undouble_double (l : List α) : undouble mark (double mark l) = some l := by
  induction l with
  | nil => rfl
  | cons a l ih =>
    by_cases h : a = mark
    · subst h
      simp [double_mark, undouble, ih]
    · rw [double_other h, undouble_other h, ih]
      rfl

/-- Only what doubling writes is read back. -/
theorem double_of_undouble {l plain : List α} (h : undouble mark l = some plain) : double mark plain = l := by
  fun_induction undouble mark l generalizing plain with
  | case1 =>
    cases h
    rfl
  | case2 a l hne ih =>
    obtain ⟨rest, hrest, rfl⟩ := Option.map_eq_some_iff.mp h
    rw [double_other hne, ih hrest]
  | case3 a => cases h
  | case4 a => cases h
  | case5 a heq b rest heq' ih =>
    obtain ⟨tail, htail, rfl⟩ := Option.map_eq_some_iff.mp h
    rw [double_mark, ih htail, not_not.mp heq, not_not.mp heq']

theorem undouble_isSome {l : List α} : (undouble mark l).isSome ↔ ∃ plain, double mark plain = l := by
  constructor
  · intro h
    obtain ⟨plain, hplain⟩ := Option.isSome_iff_exists.mp h
    exact ⟨plain, double_of_undouble hplain⟩
  · intro ⟨plain, hplain⟩
    rw [← hplain, undouble_double]
    rfl

theorem collapse_other {a : α} (h : a ≠ mark) (l : List α) : collapse mark (a :: l) = a :: collapse mark l := by
  cases l with
  | nil => rfl
  | cons b l => simp [collapse, h]

theorem collapse_double (l : List α) : collapse mark (double mark l) = l := by
  induction l with
  | nil => rfl
  | cons a l ih =>
    by_cases h : a = mark
    · subst h
      simp [double_mark, collapse, ih]
    · rw [double_other h, collapse_other h, ih]

end Double

/-! ## Hexadecimal digits -/

def hexDigits : List Char := "0123456789abcdefABCDEF".toList

def isHexDigit (c : Char) : Bool := hexDigits.contains c

def asciiLower (c : Char) : Char := if 'A' ≤ c ∧ c ≤ 'Z' then Char.ofNat (c.toNat + 32) else c

theorem isHexDigit_asciiLower {c : Char} (h : isHexDigit c = true) : isHexDigit (asciiLower c) = true := by
  have hall : (hexDigits.all fun c => isHexDigit (asciiLower c)) = true := by decide +kernel
  exact List.all_eq_true.1 hall c (by simpa [isHexDigit] using h)

/-- Small letters are those of the capitals, of one byte each, and no capitals. -/
theorem asciiLower_capital {c : Char} (h : 'A' ≤ c ∧ c ≤ 'Z') :
    (asciiLower c).utf8Size = c.utf8Size ∧ asciiLower (asciiLower c) = asciiLower c := by
  have hall : ∀ n < 91, 65 ≤ n → (asciiLower (Char.ofNat n)).utf8Size = (Char.ofNat n).utf8Size ∧
      asciiLower (asciiLower (Char.ofNat n)) = asciiLower (Char.ofNat n) := by decide
  have hcode := hall c.toNat (Nat.lt_succ_of_le h.2) h.1
  rwa [Char.ofNat_toNat] at hcode

theorem asciiLower_other {c : Char} (h : ¬ ('A' ≤ c ∧ c ≤ 'Z')) : asciiLower c = c := if_neg h

theorem utf8Size_asciiLower (c : Char) : (asciiLower c).utf8Size = c.utf8Size := by
  by_cases h : 'A' ≤ c ∧ c ≤ 'Z'
  · exact (asciiLower_capital h).1
  · rw [asciiLower_other h]

theorem asciiLower_asciiLower (c : Char) : asciiLower (asciiLower c) = asciiLower c := by
  by_cases h : 'A' ≤ c ∧ c ≤ 'Z'
  · exact (asciiLower_capital h).2
  · rw [asciiLower_other h, asciiLower_other h]

/-! ## Fields and numbers -/

/-- `str::split` on a character. -/
def split (sep : Char) : List Char → List (List Char)
  | [] => [[]]
  | c :: text =>
    if c = sep then [] :: split sep text
    else
      match split sep text with
      | [] => [[c]]
      | field :: fields => (c :: field) :: fields

theorem split_ne_nil {sep : Char} {text : List Char} : split sep text ≠ [] := by
  cases text with
  | nil => simp [split]
  | cons c text =>
    rw [split]
    split
    · simp
    · split <;> simp

theorem split_eq_singleton {sep : Char} {text : List Char} (h : sep ∉ text) : split sep text = [text] := by
  induction text with
  | nil => rfl
  | cons c text ih =>
    simp only [List.mem_cons, not_or] at h
    rw [split, if_neg (Ne.symm h.1), ih h.2]

/-- The only field of a text is the text. -/
theorem eq_of_split_eq_singleton {sep : Char} {text field : List Char} (h : split sep text = [field]) :
    text = field := by
  induction text generalizing field with
  | nil => simpa [split] using h
  | cons c text ih =>
    rw [split] at h
    split at h
    · simp [split_ne_nil] at h
    · split at h
      next heq => exact absurd heq split_ne_nil
      next first fields heq =>
        obtain ⟨rfl, rfl⟩ := List.cons.inj h
        rw [ih heq]

/-- A separator parts the fields before it from those after it. -/
theorem split_append (sep : Char) (before after : List Char) :
    split sep (before ++ sep :: after) = split sep before ++ split sep after := by
  induction before with
  | nil => simp [split]
  | cons c before ih =>
    rw [List.cons_append, split, split, ih]
    split
    · rfl
    · cases hs : split sep before with
      | nil => exact absurd hs split_ne_nil
      | cons field fields => rfl

/-- No piece of a list that is split has the separator in it. -/
theorem not_mem_of_mem_splitOn {α : Type} [DecidableEq α] {sep : α} {items piece : List α} (h : piece ∈ items.splitOn sep) :
    sep ∉ piece := by
  induction items generalizing piece with
  | nil =>
    obtain rfl := List.mem_singleton.mp h
    exact List.not_mem_nil
  | cons item items ih =>
    rw [List.splitOn_cons_eq_if_modifyHead] at h
    split at h
    · rcases List.mem_cons.mp h with rfl | h
      · exact List.not_mem_nil
      · exact ih h
    next hne =>
      cases hpieces : items.splitOn sep with
      | nil => exact absurd hpieces (List.splitOn_ne_nil _ _)
      | cons first pieces =>
        rw [hpieces, List.modifyHead_cons] at h
        rw [hpieces] at ih
        rcases List.mem_cons.mp h with rfl | h
        · have hfirst := ih List.mem_cons_self
          simp only [List.mem_cons, not_or]
          exact ⟨fun heq => hne (by simp [heq]), hfirst⟩
        · exact ih (List.mem_cons_of_mem _ h)

/-- `str::parse` of an unsigned integer below `bound`. -/
def parseUnsigned (bound : Nat) (text : List Char) : Option Nat :=
  let digits := match text with
    | '+' :: digits => digits
    | _ => text
  if digits.isEmpty || !digits.all Char.isDigit then none
  else
    let n := Nat.ofDigitChars 10 digits 0
    if n < bound then some n else none

/-- `str::parse` of a signed integer from `-bound` up to below `bound`. -/
def parseSigned (bound : Nat) (text : List Char) : Option Int :=
  match text with
  | '-' :: digits =>
    if digits.head? = some '+' then none else (parseUnsigned (bound + 1) digits).map fun n => -(n : Int)
  | _ => (parseUnsigned bound text).map Int.ofNat

theorem isDigit_toString {n : Nat} {c : Char} (h : c ∈ (toString n).toList) : c.isDigit = true := by
  rw [Nat.toString_eq_repr, Nat.toList_repr] at h
  exact Nat.isDigit_of_mem_toDigits (by decide) (by decide) h

/-- A printed number parses back. -/
theorem parseUnsigned_toString {bound n : Nat} (h : n < bound) :
    parseUnsigned bound (toString n).toList = some n := by
  have hdigits := fun c (hc : c ∈ (toString n).toList) => isDigit_toString hc
  rw [Nat.toString_eq_repr, Nat.toList_repr] at hdigits ⊢
  have hsign : (match Nat.toDigits 10 n with
      | '+' :: digits => digits
      | _ => Nat.toDigits 10 n) = Nat.toDigits 10 n := by
    split
    next digits heq => exact absurd (hdigits '+' (by simp [heq])) (by decide)
    next => rfl
  simp only [parseUnsigned, hsign]
  rw [if_neg, if_pos]
  · rw [Nat.ofDigitChars_ten_toDigits]
  · rwa [Nat.ofDigitChars_ten_toDigits]
  · simp only [Bool.or_eq_true, List.isEmpty_iff, Bool.not_eq_true', List.all_eq_false, not_or, not_exists, not_and]
    exact ⟨Nat.toDigits_ne_nil, fun c hc => by simp [hdigits c hc]⟩

theorem parseSigned_toString {bound n : Nat} (h : n < bound) :
    parseSigned bound (toString n).toList = some (n : Int) := by
  unfold parseSigned
  split
  next digits heq =>
    have hdash : '-' ∈ (toString n).toList := by
      rw [heq]
      exact List.mem_cons_self
    exact absurd (isDigit_toString hdash) (by decide)
  · rw [parseUnsigned_toString h]
    rfl

/-- A printed signed number parses back. -/
theorem parseSigned_toString_int {bound : Nat} {n : Int} (hlow : -(bound : Int) ≤ n) (hhigh : n < bound) :
    parseSigned bound (toString n).toList = some n := by
  match n with
  | .ofNat m => exact parseSigned_toString (Int.ofNat_lt.mp hhigh)
  | .negSucc m =>
    have htext : (toString (Int.negSucc m)).toList = '-' :: (toString (m + 1)).toList := by
      change ("-" ++ toString (m + 1)).toList = _
      rw [String.toList_append]
      rfl
    have hhead : (toString (m + 1)).toList.head? ≠ some '+' := fun heq =>
      absurd (isDigit_toString (List.mem_of_mem_head? heq)) (by decide)
    rw [htext, parseSigned, if_neg hhead, parseUnsigned_toString (by omega)]
    rfl

/-- The bytes of a text. -/
def utf8Size : List Char → Nat
  | [] => 0
  | c :: text => c.utf8Size + utf8Size text

theorem utf8ByteSize_eq (text : List Char) : (String.ofList text).utf8ByteSize = utf8Size text := by
  induction text with
  | nil => rfl
  | cons c text ih =>
    have hsplit : String.ofList (c :: text) = String.singleton c ++ String.ofList text := by
      rw [String.singleton_eq_ofList, ← String.ofList_append]
      rfl
    rw [hsplit, String.utf8ByteSize_append, String.utf8ByteSize_singleton, ih, utf8Size]

/-- Characters of one byte each make a text of as many bytes. -/
theorem utf8ByteSize_ofList {text : List Char} (h : ∀ c ∈ text, c.utf8Size = 1) :
    (String.ofList text).utf8ByteSize = text.length := by
  rw [utf8ByteSize_eq]
  induction text with
  | nil => rfl
  | cons c text ih =>
    obtain ⟨hc, htext⟩ := List.forall_mem_cons.1 h
    rw [utf8Size, ih htext, hc, List.length_cons, Nat.add_comm]

/-- `{:x}` zero-padded to sixteen digits. -/
def hex16 (n : Nat) : String :=
  let digits := Nat.toDigits 16 n
  String.ofList (List.replicate (16 - digits.length) '0' ++ digits)

end Lib.Text
