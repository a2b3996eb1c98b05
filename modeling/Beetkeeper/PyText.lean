/-
Python's `str` methods on lists of characters: splitting into lines, stripping
blanks, partitioning at a separator and quoting; and texts that begin another,
such as the joined lines of a list that grows at its end.
-/
import Mathlib.Data.List.Basic
import Mathlib.Data.List.DropRight

namespace PyText

/-- The characters `str.splitlines` ends a line at; a carriage return and a
line feed after it end one line together. -/
def lineBreaks : List Nat :=
  [0x0a, 0x0b, 0x0c, 0x0d, 0x1c, 0x1d, 0x1e, 0x85, 0x2028, 0x2029]

def isLineBreak (c : Char) : Bool := decide (c.toNat ∈ lineBreaks)

/-- The characters `str.isspace` holds of. -/
def blanks : List Nat :=
  [0x09, 0x0a, 0x0b, 0x0c, 0x0d, 0x1c, 0x1d, 0x1e, 0x1f, 0x20, 0x85, 0xa0,
    0x1680, 0x2000, 0x2001, 0x2002, 0x2003, 0x2004, 0x2005, 0x2006, 0x2007,
    0x2008, 0x2009, 0x200a, 0x2028, 0x2029, 0x202f, 0x205f, 0x3000]

def isBlank (c : Char) : Bool := decide (c.toNat ∈ blanks)

/-- `str.splitlines`, with what has been read of the current line. -/
def splitLinesFrom (line : List Char) : List Char → List (List Char)
  | [] => if line.isEmpty then [] else [line]
  | '\r' :: '\n' :: rest => line :: splitLinesFrom [] rest
  | c :: rest =>
      if isLineBreak c then line :: splitLinesFrom [] rest
      else splitLinesFrom (line ++ [c]) rest

def splitLines (text : List Char) : List (List Char) := splitLinesFrom [] text

/-- `str.strip`. -/
def strip (text : List Char) : List Char :=
  ((text.dropWhile isBlank).reverse.dropWhile isBlank).reverse

/-- `str.split()`, with what has been read of the current word. -/
def splitBlanksFrom (word : List Char) : List Char → List (List Char)
  | [] => if word.isEmpty then [] else [word]
  | c :: rest =>
      if isBlank c then
        if word.isEmpty then splitBlanksFrom [] rest
        else word :: splitBlanksFrom [] rest
      else splitBlanksFrom (word ++ [c]) rest

def splitBlanks (text : List Char) : List (List Char) := splitBlanksFrom [] text

/-- `str.partition`: what is before the first separator, whether there is
one, and what is after it. -/
def partition (separator : Char) : List Char →
    List Char × Bool × List Char
  | [] => ([], false, [])
  | c :: rest =>
      if c = separator then ([], true, rest)
      else
        match partition separator rest with
        | (before, found, after) => (c :: before, found, after)

/-- The ranges of characters that `str.isprintable` does not hold of, apart
from those Unicode has not assigned: controls, formats, private use and all
blanks but the space. -/
def unprintable : List (Nat × Nat) :=
  [(0x00, 0x1f), (0x7f, 0xa0), (0xad, 0xad), (0x600, 0x605), (0x61c, 0x61c),
    (0x6dd, 0x6dd), (0x70f, 0x70f), (0x890, 0x891), (0x8e2, 0x8e2),
    (0x1680, 0x1680), (0x180e, 0x180e), (0x2000, 0x200f), (0x2028, 0x202f),
    (0x205f, 0x206f), (0x3000, 0x3000), (0xe000, 0xf8ff), (0xfeff, 0xfeff),
    (0xfff9, 0xfffb), (0x110bd, 0x110bd), (0x110cd, 0x110cd),
    (0x13430, 0x1343f), (0x1bca0, 0x1bca3), (0x1d173, 0x1d17a),
    (0xe0001, 0xe0001), (0xe0020, 0xe007f), (0xf0000, 0x10ffff)]

def isPrintable (c : Char) : Bool :=
  !unprintable.any fun range =>
    decide (range.1 ≤ c.toNat) && decide (c.toNat ≤ range.2)

def hexEscape (kind : Char) (width : Nat) (c : Char) : List Char :=
  '\\' :: kind :: (Nat.toDigits 16 c.toNat).leftpad width '0'

def singleQuote : Char := Char.ofNat 0x27

def doubleQuote : Char := Char.ofNat 0x22

def reprChar (quote c : Char) : List Char :=
  if c = quote ∨ c = '\\' then ['\\', c]
  else if c = '\n' then ['\\', 'n']
  else if c = '\r' then ['\\', 'r']
  else if c = '\t' then ['\\', 't']
  else if isPrintable c then [c]
  else if c.toNat < 0x100 then hexEscape 'x' 2 c
  else if c.toNat < 0x10000 then hexEscape 'u' 4 c
  else hexEscape 'U' 8 c

/-- `repr`: in single quotes, or in double ones where that saves escapes. -/
def repr (text : List Char) : List Char :=
  let quote := if singleQuote ∈ text ∧ doubleQuote ∉ text then doubleQuote
    else singleQuote
  quote :: text.flatMap (reprChar quote) ++ [quote]

/-- A form's text with its newlines as they are sent. -/
def sendNewlines : List Char → List Char
  | [] => []
  | '\r' :: '\n' :: rest => '\r' :: '\n' :: sendNewlines rest
  | '\r' :: rest => '\r' :: '\n' :: sendNewlines rest
  | '\n' :: rest => '\r' :: '\n' :: sendNewlines rest
  | c :: rest => c :: sendNewlines rest

example : splitLines "a\r\nb\n\nc".toList =
    ["a".toList, "b".toList, [], "c".toList] := by decide

example : repr "it's\t\\ \u00a0".toList =
    doubleQuote :: "it's\\t\\\\ \\xa0".toList ++ [doubleQuote] := by decide

/-- No line ends within the text. -/
def OneLine (text : List Char) : Prop := ∀ c ∈ text, isLineBreak c = false

instance (text : List Char) : Decidable (OneLine text) :=
  List.decidableBAll (fun c => isLineBreak c = false) text

section Lines

theorem oneLine_nil : OneLine [] := List.forall_mem_nil _

theorem oneLine_append {first second : List Char} :
    OneLine (first ++ second) ↔ OneLine first ∧ OneLine second :=
  List.forall_mem_append

theorem splitLinesFrom_cons {c : Char} (hc : isLineBreak c = false)
    (line rest : List Char) :
    splitLinesFrom line (c :: rest) = splitLinesFrom (line ++ [c]) rest := by
  rw [splitLinesFrom]
  · rw [if_neg (by simp [hc])]
  · rintro _ rfl _
    exact absurd hc (by decide)

theorem splitLinesFrom_append {text : List Char} (htext : OneLine text)
    (line rest : List Char) :
    splitLinesFrom line (text ++ rest) =
      splitLinesFrom (line ++ text) rest := by
  induction text generalizing line with
  | nil => rw [List.nil_append, List.append_nil]
  | cons c text ih =>
      obtain ⟨hc, hrest⟩ := List.forall_mem_cons.mp htext
      rw [List.cons_append, splitLinesFrom_cons hc, ih hrest,
        List.append_assoc]
      rfl

/-- Lines that are sent one after another are read as they are. -/
theorem splitLines_intercalate {lines : List (List Char)}
    (hlines : ∀ line ∈ lines, line ≠ [] ∧ OneLine line) :
    splitLines (['\r', '\n'].intercalate lines) = lines := by
  induction lines with
  | nil => rfl
  | cons line rest ih =>
      obtain ⟨⟨hne, hline⟩, hrest⟩ := List.forall_mem_cons.mp hlines
      cases rest with
      | nil =>
          have hread := splitLinesFrom_append hline [] []
          rw [List.append_nil, List.nil_append, splitLinesFrom,
            if_neg (by simpa using hne)] at hread
          rw [List.intercalate_singleton]
          exact hread
      | cons next rest =>
          have hread := splitLinesFrom_append hline []
            ('\r' :: '\n' :: ['\r', '\n'].intercalate (next :: rest))
          rw [List.nil_append, splitLinesFrom] at hread
          rw [List.intercalate_cons_cons, List.append_assoc]
          exact hread.trans (congrArg (line :: ·) (ih hrest))

/-- A line that was read holds no line break. -/
theorem oneLine_of_mem_splitLinesFrom {line text : List Char}
    (hline : OneLine line) :
    ∀ read ∈ splitLinesFrom line text, OneLine read := by
  fun_induction splitLinesFrom line text with
  | case1 line hempty => simp
  | case2 line hsome => simpa using hline
  | case3 line rest ih =>
      rw [List.forall_mem_cons]
      exact ⟨hline, ih oneLine_nil⟩
  | case4 line c rest _ hbreak ih =>
      rw [List.forall_mem_cons]
      exact ⟨hline, ih oneLine_nil⟩
  | case5 line c rest _ hbreak ih =>
      apply ih
      rw [oneLine_append]
      exact ⟨hline, by simpa [OneLine] using hbreak⟩

theorem oneLine_of_mem_splitLines {text read : List Char}
    (hread : read ∈ splitLines text) : OneLine read :=
  oneLine_of_mem_splitLinesFrom oneLine_nil read hread

theorem sendNewlines_append {text : List Char} (htext : OneLine text)
    (rest : List Char) :
    sendNewlines (text ++ rest) = text ++ sendNewlines rest := by
  induction text with
  | nil => rfl
  | cons c text ih =>
      obtain ⟨hc, hrest⟩ := List.forall_mem_cons.mp htext
      rw [List.cons_append, sendNewlines, ih hrest, List.cons_append]
      · rintro _ rfl _
        exact absurd hc (by decide)
      · rintro rfl
        exact absurd hc (by decide)
      · rintro rfl
        exact absurd hc (by decide)

/-- The newlines between lines are sent as two characters each. -/
theorem sendNewlines_intercalate {lines : List (List Char)}
    (hlines : ∀ line ∈ lines, OneLine line) :
    sendNewlines (['\n'].intercalate lines) =
      ['\r', '\n'].intercalate lines := by
  induction lines with
  | nil => rfl
  | cons line rest ih =>
      obtain ⟨hline, hrest⟩ := List.forall_mem_cons.mp hlines
      cases rest with
      | nil =>
          have hsent := sendNewlines_append hline []
          rw [List.append_nil] at hsent
          rw [List.intercalate_singleton, List.intercalate_singleton, hsent]
          exact List.append_nil line
      | cons next rest =>
          rw [List.intercalate_cons_cons, List.intercalate_cons_cons,
            List.append_assoc, List.append_assoc, sendNewlines_append hline,
            ← ih hrest]
          rfl

end Lines

section Blanks

theorem strip_eq (text : List Char) :
    strip text = (text.dropWhile isBlank).rdropWhile isBlank := rfl

theorem mem_of_mem_strip {c : Char} {text : List Char}
    (hc : c ∈ strip text) : c ∈ text :=
  (List.dropWhile_sublist isBlank).subset
    ((List.rdropWhile_prefix isBlank _).subset hc)

/-- The text neither begins nor ends with a blank. -/
def Trimmed (text : List Char) : Prop :=
  ∀ hne : text ≠ [], isBlank (text.head hne) = false ∧
    isBlank (text.getLast hne) = false

instance (text : List Char) : Decidable (Trimmed text) :=
  inferInstanceAs (Decidable (∀ hne : text ≠ [],
    isBlank (text.head hne) = false ∧ isBlank (text.getLast hne) = false))

theorem strip_of_trimmed {text : List Char} (htext : Trimmed text) :
    strip text = text := by
  have hleft : text.dropWhile isBlank = text := by
    rw [List.dropWhile_eq_self_iff]
    intro hpos
    have hhead := (htext (List.length_pos_iff.mp hpos)).1
    rw [List.head_eq_getElem] at hhead
    simp [hhead]
  have hright : text.rdropWhile isBlank = text := by
    rw [List.rdropWhile_eq_self_iff]
    intro hne
    simp [(htext hne).2]
  rw [strip_eq, hleft, hright]

theorem trimmed_strip (text : List Char) : Trimmed (strip text) := by
  intro hne
  have hstart : strip text <+: text.dropWhile isBlank :=
    List.rdropWhile_prefix isBlank _
  constructor
  · rw [hstart.head hne]
    exact List.head_dropWhile_not isBlank _
  · exact Bool.eq_false_iff.mpr (List.rdropWhile_last_not isBlank _ hne)

theorem strip_strip (text : List Char) : strip (strip text) = strip text :=
  strip_of_trimmed (trimmed_strip text)

end Blanks

section Partition

variable {separator : Char}

theorem partition_append {before : List Char} (hbefore : separator ∉ before)
    (after : List Char) :
    partition separator (before ++ separator :: after) =
      (before, true, after) := by
  induction before with
  | nil => rw [List.nil_append, partition, if_pos rfl]
  | cons c rest ih =>
      rw [List.mem_cons, not_or] at hbefore
      rw [List.cons_append, partition, if_neg (Ne.symm hbefore.1),
        ih hbefore.2]

/-- What is before the first separator and what is after it. -/
theorem partition_spec (separator : Char) (text : List Char) :
    separator ∉ (partition separator text).1 ∧
      ((partition separator text).2.1 = true →
        text = (partition separator text).1 ++
          separator :: (partition separator text).2.2) := by
  induction text with
  | nil => simp [partition]
  | cons c rest ih =>
      rw [partition]
      split
      · rename_i hsame
        simp [hsame]
      · rename_i hother
        obtain ⟨hbefore, hjoined⟩ := ih
        refine ⟨?_, fun hfound => ?_⟩
        · rw [List.mem_cons, not_or]
          exact ⟨Ne.symm hother, hbefore⟩
        · rw [List.cons_append, ← hjoined hfound]

end Partition

/-- The later text begins with the earlier one. -/
def IsPrefix (earlier later : String) : Prop := ∃ rest, earlier ++ rest = later

theorem isPrefix_refl (text : String) : IsPrefix text text :=
  ⟨"", String.append_empty⟩

theorem IsPrefix.trans {first second third : String}
    (hfirst : IsPrefix first second) (hsecond : IsPrefix second third) :
    IsPrefix first third := by
  obtain ⟨rest, rfl⟩ := hfirst
  obtain ⟨more, rfl⟩ := hsecond
  exact ⟨rest ++ more, (String.append_assoc).symm⟩

/-- Joined lines begin with what was joined before the last of them came. -/
theorem isPrefix_intercalate (separator : String)
    (lines more : List String) :
    IsPrefix (separator.intercalate lines)
      (separator.intercalate (lines ++ more)) := by
  by_cases hlines : lines = []
  · rw [hlines, String.intercalate_nil]
    exact ⟨_, String.empty_append⟩
  · by_cases hmore : more = []
    · rw [hmore, List.append_nil]
      exact isPrefix_refl _
    · rw [String.intercalate_append_of_ne_nil hlines hmore,
        String.append_assoc]
      exact ⟨_, rfl⟩

end PyText
