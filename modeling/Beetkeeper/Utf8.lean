/-
UTF-8 as Python decodes it: a text is a list of code points, lone surrogates
included, and what bytes that are no character become is up to the error
handler.  The character at the start of the bytes is read by Lean's own decoder.
-/
import Mathlib.Data.List.Basic

universe u

namespace Utf8

/-- A code point; surrogates are counted from U+D800. -/
inductive CodePoint where
  | scalar (c : Char)
  | surrogate (code : Fin 0x800)
deriving Repr, DecidableEq

abbrev Text := List CodePoint

def ofString (text : String) : Text := text.toList.map CodePoint.scalar

/-- The characters of a text, unless it has a lone surrogate. -/
def scalars? : Text → Option (List Char)
  | [] => some []
  | .scalar c :: rest => (scalars? rest).map (c :: ·)
  | .surrogate _ :: _ => none

def encode (chars : List Char) : List UInt8 :=
  chars.flatMap String.utf8EncodeChar

/-- The bytes are the encoding of some characters. -/
def Valid (bytes : List UInt8) : Prop := ∃ chars, encode chars = bytes

/-- The character at the start of the bytes. -/
def nextChar? (bytes : List UInt8) : Option Char :=
  bytes.toByteArray.utf8DecodeChar? 0

def isTail (byte : UInt8) : Bool := decide (0x80 ≤ byte ∧ byte ≤ 0xbf)

/-- The second byte may follow the first one in a character of three or four
bytes. -/
def leads (first second : UInt8) : Bool :=
  decide (0xe0 ≤ first ∧ first ≤ 0xf4) && isTail second &&
    decide ((first = 0xe0 → 0xa0 ≤ second) ∧
      (first = 0xed → second < 0xa0) ∧
      (first = 0xf0 → 0x90 ≤ second) ∧ (first = 0xf4 → second < 0x90))

/-- How many bytes one decoding error covers: the longest beginning of a
character, and one byte at least. -/
def errorLength : List UInt8 → Nat
  | first :: second :: third :: _ =>
      if leads first second then
        if 0xf0 ≤ first ∧ isTail third then 3 else 2
      else 1
  | [first, second] => if leads first second then 2 else 1
  | _ => 1

section

variable {P : Type u} (char : Char → P) (handler : List UInt8 → List P)

/-- Decoding after the bytes that are already covered. -/
def decodeFrom : Nat → List UInt8 → List P
  | _, [] => []
  | covered + 1, _ :: rest => decodeFrom covered rest
  | 0, first :: rest =>
      match nextChar? (first :: rest) with
      | some c => char c :: decodeFrom (c.utf8Size - 1) rest
      | none =>
          handler ((first :: rest).take (errorLength (first :: rest))) ++
            decodeFrom (errorLength (first :: rest) - 1) rest

/-- `bytes.decode("utf-8", errors=handler)`. -/
def decode (bytes : List UInt8) : List P := decodeFrom char handler 0 bytes

end

/-- `bytes.decode("utf-8", errors="replace")`. -/
def decodeReplace : List UInt8 → List Char :=
  decode id fun _ => [Char.ofNat 0xfffd]

/-- The lone surrogate that stands for a byte. -/
def escapeByte (byte : UInt8) : CodePoint :=
  .surrogate ⟨0x400 + byte.toNat, by have := byte.toNat_lt; omega⟩

/-- `os.fsdecode`, with the `surrogateescape` handler. -/
def fsdecode : List UInt8 → Text :=
  decode CodePoint.scalar (List.map escapeByte)

example : decodeReplace [0x66, 0xff, 0xe2, 0x82, 0x6f] =
    ['f', Char.ofNat 0xfffd, Char.ofNat 0xfffd, 'o'] := by decide

@[simp] theorem encode_cons (c : Char) (chars : List Char) :
    encode (c :: chars) = String.utf8EncodeChar c ++ encode chars :=
  List.flatMap_cons

theorem nextChar?_eq_some {bytes : List UInt8} {c : Char} :
    nextChar? bytes = some c ↔
      ∃ rest, bytes = String.utf8EncodeChar c ++ rest := by
  constructor
  · intro hnext
    obtain ⟨after, hafter⟩ := ByteArray.exists_of_utf8DecodeChar?_eq_some hnext
    have hrest : after = after.data.toList.toByteArray :=
      ByteArray.ext List.data_toByteArray.symm
    rw [hrest, ← List.toByteArray_append, List.toByteArray_inj] at hafter
    exact ⟨after.data.toList, hafter⟩
  · rintro ⟨rest, rfl⟩
    rw [nextChar?, List.toByteArray_append]
    exact ByteArray.utf8DecodeChar?_utf8EncodeChar_append

theorem errorLength_pos (bytes : List UInt8) : 0 < errorLength bytes := by
  unfold errorLength
  split
  · split
    · split <;> omega
    · omega
  · split <;> omega
  · omega

/-- Bytes are empty, or begin with a character, or with an error. -/
theorem bytes_induction {motive : List UInt8 → Prop} (nil : motive [])
    (char : ∀ c rest, motive rest → motive (String.utf8EncodeChar c ++ rest))
    (error : ∀ bytes, bytes ≠ [] → nextChar? bytes = none →
      motive (bytes.drop (errorLength bytes)) → motive bytes)
    (bytes : List UInt8) : motive bytes := by
  induction hlength : bytes.length using Nat.strongRecOn
    generalizing bytes with
  | ind n ih =>
      subst hlength
      by_cases hempty : bytes = []
      · rw [hempty]
        exact nil
      · cases hnext : nextChar? bytes with
        | some c =>
            obtain ⟨rest, rfl⟩ := nextChar?_eq_some.mp hnext
            apply char
            refine ih _ ?_ rest rfl
            have hsize := c.utf8Size_pos
            rw [List.length_append, String.length_utf8EncodeChar]
            omega
        | none =>
            apply error bytes hempty hnext
            refine ih _ ?_ _ rfl
            have hbytes := List.length_pos_of_ne_nil hempty
            have herror := errorLength_pos bytes
            rw [List.length_drop]
            omega

section

variable {P : Type u} {char : Char → P} {handler : List UInt8 → List P}

/-- Covered bytes are skipped. -/
theorem decodeFrom_eq (covered : Nat) (bytes : List UInt8) :
    decodeFrom char handler covered bytes =
      decode char handler (bytes.drop covered) := by
  induction covered generalizing bytes with
  | zero => rfl
  | succ covered ih =>
      cases bytes with
      | nil => rfl
      | cons first rest => exact ih rest

theorem decode_char (c : Char) (rest : List UInt8) :
    decode char handler (String.utf8EncodeChar c ++ rest) =
      char c :: decode char handler rest := by
  have hnext : nextChar? (String.utf8EncodeChar c ++ rest) = some c :=
    nextChar?_eq_some.mpr ⟨rest, rfl⟩
  have hlength := String.length_utf8EncodeChar c
  have hsize := c.utf8Size_pos
  cases hbytes : String.utf8EncodeChar c with
  | nil =>
      rw [hbytes, List.length_nil] at hlength
      omega
  | cons first tail =>
      rw [hbytes, List.length_cons] at hlength
      rw [hbytes, List.cons_append] at hnext
      rw [List.cons_append, decode, decodeFrom, hnext]
      simp only [decodeFrom_eq]
      rw [← hlength, Nat.add_sub_cancel, List.drop_left]

theorem decode_error {bytes : List UInt8} (hbytes : bytes ≠ [])
    (hnext : nextChar? bytes = none) :
    decode char handler bytes =
      handler (bytes.take (errorLength bytes)) ++
        decode char handler (bytes.drop (errorLength bytes)) := by
  cases bytes with
  | nil => exact absurd rfl hbytes
  | cons first rest =>
      have herror := errorLength_pos (first :: rest)
      rw [decode, decodeFrom, hnext]
      simp only [decodeFrom_eq]
      congr 2
      obtain ⟨covered, hcovered⟩ := Nat.exists_eq_add_of_lt herror
      rw [hcovered, Nat.zero_add, Nat.add_sub_cancel, List.drop_succ_cons]

/-- No error handler touches what is valid. -/
theorem decode_encode (chars : List Char) :
    decode char handler (encode chars) = chars.map char := by
  induction chars with
  | nil => rfl
  | cons c rest ih => rw [encode_cons, decode_char, ih, List.map_cons]

end

@[simp] theorem scalars?_map_scalar (chars : List Char) :
    scalars? (chars.map CodePoint.scalar) = some chars := by
  induction chars with
  | nil => rfl
  | cons c rest ih => rw [List.map_cons, scalars?, ih, Option.map_some]

theorem scalars?_escape {bytes : List UInt8} (hbytes : bytes ≠ [])
    (rest : Text) :
    scalars? (bytes.map escapeByte ++ rest) = none := by
  cases bytes with
  | nil => exact absurd rfl hbytes
  | cons first tail => rfl

/-- `os.fsdecode` leaves no lone surrogate exactly in what is valid, which it
reads as it is. -/
theorem scalars?_fsdecode {bytes : List UInt8} {chars : List Char} :
    scalars? (fsdecode bytes) = some chars ↔ encode chars = bytes := by
  constructor
  · intro hscalars
    induction bytes using bytes_induction generalizing chars with
    | nil =>
        cases hscalars
        rfl
    | char c rest ih =>
        rw [fsdecode, decode_char, scalars?, Option.map_eq_some_iff]
          at hscalars
        obtain ⟨tail, htail, rfl⟩ := hscalars
        rw [encode_cons, ih htail]
    | error bytes hbytes hnext _ =>
        have hcovered : bytes.take (errorLength bytes) ≠ [] := by
          have herror := errorLength_pos bytes
          simp only [ne_eq, List.take_eq_nil_iff, hbytes, or_false]
          omega
        rw [fsdecode, decode_error hbytes hnext, scalars?_escape hcovered]
          at hscalars
        cases hscalars
  · rintro rfl
    rw [fsdecode, decode_encode, scalars?_map_scalar]

/-- What `os.fsdecode` makes of bytes is a proper text exactly if they are
valid. -/
theorem valid_iff_scalars? {bytes : List UInt8} :
    Valid bytes ↔ (scalars? (fsdecode bytes)).isSome := by
  rw [Option.isSome_iff_exists]
  exact exists_congr fun _ => scalars?_fsdecode.symm

instance (bytes : List UInt8) : Decidable (Valid bytes) :=
  decidable_of_iff _ valid_iff_scalars?.symm

/-- Encoding gives the bytes back. -/
theorem encode_scalars?_fsdecode (bytes : List UInt8) :
    (scalars? (fsdecode bytes)).map encode =
      if Valid bytes then some bytes else none := by
  cases hscalars : scalars? (fsdecode bytes) with
  | none =>
      rw [if_neg]
      · rfl
      · rw [valid_iff_scalars?, hscalars]
        exact Bool.false_ne_true
  | some chars =>
      have hencode := scalars?_fsdecode.mp hscalars
      rw [if_pos ⟨chars, hencode⟩, Option.map_some, hencode]

end Utf8
