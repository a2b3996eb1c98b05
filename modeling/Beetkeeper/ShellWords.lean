/-
The words of a line as a POSIX shell splits it, `shlex.split`: a word ends at
a blank outside quotation, single quotes keep everything, double quotes keep
everything but what is escaped, and a quoted word may be empty.
-/
import Mathlib.Data.List.Basic

namespace ShellWords

def singleQuote : Char := '\x27'

def doubleQuote : Char := '\x22'

def backslash : Char := '\x5c'

def isWhitespace (c : Char) : Bool := decide (c ∈ [' ', '\t', '\r', '\n'])

def isQuote (c : Char) : Bool := decide (c = singleQuote ∨ c = doubleQuote)

inductive SplitError where
  | noClosingQuotation
  | noEscapedCharacter
  deriving DecidableEq

/-- What the reader is in: after an escape it goes back into the quotation
the escape stands in, if there is one. -/
inductive Reading where
  | blank
  | word
  | quotation (quote : Char)
  | escape (within : Option Char)

abbrev Words := List (List Char)

/-- What an escaped character adds: inside a quotation the backslash stays,
unless it escapes a backslash or the quote itself. -/
def escaped (within : Option Char) (c : Char) : List Char :=
  match within with
  | some quote =>
      if c ≠ backslash ∧ c ≠ quote then [backslash, c] else [c]
  | none => [c]

/-- The words from here on, with what has been read of the current one and
whether any of that was quoted. -/
def splitFrom : Reading → List Char → Bool → List Char →
    Except SplitError Words
  | .blank, _, _, [] => .ok []
  | .word, token, quoted, [] =>
      .ok (if token.isEmpty && !quoted then [] else [token])
  | .quotation _, _, _, [] => .error .noClosingQuotation
  | .escape _, _, _, [] => .error .noEscapedCharacter
  | .blank, _, _, c :: rest =>
      if isWhitespace c then splitFrom .blank [] false rest
      else if c = backslash then splitFrom (.escape none) [] false rest
      else if isQuote c then splitFrom (.quotation c) [] true rest
      else splitFrom .word [c] false rest
  | .word, token, quoted, c :: rest =>
      if isWhitespace c then
        if token.isEmpty && !quoted then splitFrom .blank [] false rest
        else (splitFrom .blank [] false rest).map (token :: ·)
      else if isQuote c then splitFrom (.quotation c) token true rest
      else if c = backslash then splitFrom (.escape none) token quoted rest
      else splitFrom .word (token ++ [c]) quoted rest
  | .quotation quote, token, quoted, c :: rest =>
      if c = quote then splitFrom .word token quoted rest
      else if c = backslash ∧ quote = doubleQuote then
        splitFrom (.escape (some quote)) token quoted rest
      else splitFrom (.quotation quote) (token ++ [c]) quoted rest
  | .escape within, token, quoted, c :: rest =>
      splitFrom (within.elim .word .quotation) (token ++ escaped within c)
        quoted rest

/-- `shlex.split`. -/
def split (text : List Char) : Except SplitError Words :=
  splitFrom .blank [] false text

example : split "album:\x22Abbey Road\x22 year+".toList =
    .ok ["album:Abbey Road".toList, "year+".toList] := rfl

/-- A single quote leaves the quotation to be quoted itself. -/
def quoteChar (c : Char) : List Char :=
  if c = singleQuote then
    [singleQuote, doubleQuote, singleQuote, doubleQuote, singleQuote]
  else [c]

def quote (word : List Char) : List Char :=
  singleQuote :: (word.flatMap quoteChar ++ [singleQuote])

def join (words : Words) : List Char :=
  [' '].intercalate (words.map quote)

/-- The induction is on what is still to be read of the word. -/
theorem splitFrom_quoted (word token rest : List Char) :
    splitFrom (.quotation singleQuote) token true
        (word.flatMap quoteChar ++ singleQuote :: rest) =
      splitFrom .word (token ++ word) true rest := by
  induction word generalizing token with
  | nil => simp [splitFrom]
  | cons c word ih =>
      by_cases hquote : c = singleQuote
      · subst hquote
        have hnext := ih (token ++ [singleQuote])
        rw [List.append_assoc, List.singleton_append] at hnext
        rw [← hnext]
        rfl
      · have hkept : quoteChar c = [c] := if_neg hquote
        have hplain : ¬(c = backslash ∧ singleQuote = doubleQuote) := by
          rintro ⟨_, hsame⟩
          exact absurd hsame (by decide)
        have hnext := ih (token ++ [c])
        rw [List.append_assoc, List.singleton_append] at hnext
        rw [List.flatMap_cons, hkept, List.singleton_append, List.cons_append,
          splitFrom, if_neg hquote, if_neg hplain, hnext]

theorem splitFrom_quote (word rest : List Char) :
    splitFrom .blank [] false (quote word ++ rest) =
      splitFrom .word word true rest := by
  have hread := splitFrom_quoted word [] rest
  rw [List.nil_append] at hread
  rw [quote, List.cons_append, List.append_assoc, List.singleton_append,
    ← hread]
  rfl

/-- Words that are quoted and joined are read back, empty ones too. -/
theorem split_join (words : Words) : split (join words) = .ok words := by
  induction words with
  | nil => rfl
  | cons word words ih =>
      cases words with
      | nil =>
          have hlast := splitFrom_quote word []
          rw [List.append_nil] at hlast
          rw [split, join, List.map_singleton, List.intercalate_singleton,
            hlast]
          simp [splitFrom]
      | cons next words =>
          rw [split, join, List.map_cons, List.map_cons,
            List.intercalate_cons_cons, List.append_assoc, splitFrom_quote]
          have hblank : isWhitespace ' ' = true := by decide
          rw [List.singleton_append, splitFrom, if_pos hblank]
          rw [split, join, List.map_cons] at ih
          simp [ih, Except.map]

end ShellWords
