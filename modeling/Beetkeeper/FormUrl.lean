/-
Texts in the query of a URL and in the body of a form: `urlencode` writes
key-value pairs as `application/x-www-form-urlencoded`, and `parse_qsl` reads
them back.  And URLs as a redirect sends them and a browser reads them.
-/
import Beetkeeper.PyText
import Beetkeeper.Utf8

namespace FormUrl

/-- The characters `quote` always leaves alone. -/
def isSafe (c : Char) : Bool :=
  c.isAlphanum || decide (c ∈ ['_', '.', '-', '~'])

def hexDigits : List Char :=
  ['0', '1', '2', '3', '4', '5', '6', '7', '8', '9', 'A', 'B', 'C', 'D', 'E',
    'F']

/-- A digit of either case. -/
def hexValue? (c : Char) : Option Nat :=
  let value := hexDigits.idxOf c.toUpper
  if value < 16 then some value else none

def quoteByte (byte : UInt8) : List Char :=
  let c := Char.ofNat byte.toNat
  if byte < 0x80 ∧ isSafe c then [c]
  else if byte = 0x20 then ['+']
  else
    ['%', hexDigits[byte.toNat / 16]!, hexDigits[byte.toNat % 16]!]

/-- `quote_plus`. -/
def quotePlus (text : List Char) : List Char :=
  (Utf8.encode text).flatMap quoteByte

def quoteSlashByte (byte : UInt8) : List Char :=
  if byte = 0x2f then ['/']
  else if byte = 0x20 then ['%', '2', '0']
  else quoteByte byte

/-- `quote`: a slash stays and a blank is escaped. -/
def quote (text : List Char) : List Char :=
  (Utf8.encode text).flatMap quoteSlashByte

/-- The bytes `unquote` decodes.  A character outside ASCII starts a character
of its own, so decoding all of them together is decoding each run of ASCII
apart. -/
def unquoteBytes : List Char → List UInt8
  | [] => []
  | '%' :: high :: low :: rest =>
      match hexValue? high, hexValue? low with
      | some first, some second =>
          UInt8.ofNat (first * 16 + second) :: unquoteBytes rest
      | _, _ => 0x25 :: unquoteBytes (high :: low :: rest)
  | c :: rest => String.utf8EncodeChar c ++ unquoteBytes rest

def plusToSpace (c : Char) : Char := if c = '+' then ' ' else c

/-- `unquote_plus`. -/
def unquotePlus (text : List Char) : List Char :=
  Utf8.decodeReplace (unquoteBytes (text.map plusToSpace))

/-- What a `RedirectResponse` leaves alone in its URL beside what `quote`
always does. -/
def urlMarks : List Char :=
  [':', '/', '%', '#', '?', '=', '@', '[', ']', '!', '$', '&', Char.ofNat 0x27,
    '(', ')', '*', '+', ',', ';']

def quoteUrlByte (byte : UInt8) : List Char :=
  let c := Char.ofNat byte.toNat
  if byte < 0x80 ∧ (isSafe c ∨ c ∈ urlMarks) then [c]
  else
    ['%', hexDigits[byte.toNat / 16]!, hexDigits[byte.toNat % 16]!]

/-- The `Location` header of a `RedirectResponse` to a URL. -/
def quoteUrl (text : List Char) : List Char :=
  (Utf8.encode text).flatMap quoteUrlByte

/-- What a browser takes off both ends of a URL. -/
def isControlOrSpace (c : Char) : Bool := decide (c.toNat ≤ 0x20)

/-- What a browser reads of a URL: nothing of the kind at its ends, and no
tab and no line break within. -/
def readUrl (text : List Char) : List Char :=
  ((text.dropWhile isControlOrSpace).reverse.dropWhile
    isControlOrSpace).reverse.filter fun c =>
      decide (c ∉ ['\t', '\n', '\r'])

/-- The rest of a scheme, up to its colon. -/
def endsScheme : List Char → Bool
  | [] => false
  | c :: rest =>
      decide (c = ':') ||
        ((c.isAlphanum || decide (c ∈ ['+', '-', '.'])) && endsScheme rest)

def namesScheme : List Char → Bool
  | [] => false
  | c :: rest => c.isAlpha && endsScheme rest

/-- On the web a backslash separates like a slash. -/
def isSlash (c : Char) : Bool := decide (c = '/') || decide (c = '\\')

def namesHost : List Char → Bool
  | first :: second :: _ => isSlash first && isSlash second
  | _ => false

/-- A browser that is sent to the URL from a page of a site stays on the
site: what it reads names neither a scheme nor a host. -/
def SameSite (text : List Char) : Prop :=
  namesScheme (readUrl text) = false ∧ namesHost (readUrl text) = false

instance (text : List Char) : Decidable (SameSite text) :=
  inferInstanceAs (Decidable (_ ∧ _))

abbrev Pairs := List (List Char × List Char)

def quotePair (pair : List Char × List Char) : List Char :=
  quotePlus pair.1 ++ '=' :: quotePlus pair.2

def urlencode (pairs : Pairs) : List Char :=
  ['&'].intercalate (pairs.map quotePair)

def parsePair (text : List Char) : List Char × List Char :=
  match PyText.partition '=' text with
  | (name, _, value) => (unquotePlus name, unquotePlus value)

/-- `parse_qsl`, blank values kept. -/
def parseQsl (text : List Char) : Pairs :=
  ((text.splitOn '&').filter fun pair => !pair.isEmpty).map parsePair

/-- A query parameter, or a field of a form; of several the last counts. -/
def field? (name : String) (pairs : Pairs) : Option (List Char) :=
  pairs.reverse.lookup name.toList

example : urlencode [("q".toList, "a b/é".toList)] =
    "q=a+b%2F%C3%A9".toList := by decide

example : ¬ SameSite "/\t/elsewhere".toList ∧
    SameSite (quoteUrl "/\t/elsewhere".toList) := by decide

section Bytes

theorem hexValue?_digit {n : Nat} (hn : n < 16) :
    hexValue? hexDigits[n]! = some n := by
  have hall : ∀ m : Fin 16, hexValue? hexDigits[m.val]! = some m.val := by
    decide
  exact hall ⟨n, hn⟩

theorem isSafe_digit {n : Nat} (hn : n < 16) :
    isSafe hexDigits[n]! = true := by
  have hall : ∀ m : Fin 16, isSafe hexDigits[m.val]! = true := by
    decide
  exact hall ⟨n, hn⟩

/-- A byte that stands for itself, a blank, or an escape. -/
theorem quoteByte_cases (byte : UInt8) :
    (∃ c, quoteByte byte = [c] ∧ isSafe c = true ∧
      String.utf8EncodeChar c = [byte]) ∨
    (byte = 0x20 ∧ quoteByte byte = ['+']) ∨
    quoteByte byte =
      ['%', hexDigits[byte.toNat / 16]!, hexDigits[byte.toNat % 16]!] := by
  by_cases hsafe : byte < 0x80 ∧ isSafe (Char.ofNat byte.toNat) = true
  · refine .inl ⟨_, if_pos hsafe, hsafe.2, ?_⟩
    have hall : ∀ n : Fin 128,
        String.utf8EncodeChar (Char.ofNat n.val) = [UInt8.ofNat n.val] := by
      decide
    have hbyte : byte.toNat < 128 := hsafe.1
    have hencode := hall ⟨byte.toNat, hbyte⟩
    rwa [UInt8.ofNat_toNat] at hencode
  · right
    by_cases hblank : byte = 0x20
    · subst hblank
      exact .inl ⟨rfl, by decide⟩
    · right
      rw [quoteByte, if_neg hsafe, if_neg hblank]

/-- What `quote` leaves alone is no blank, no escape and no delimiter. -/
theorem isSafe_ne {c other : Char} (hsafe : isSafe c = true)
    (hother : isSafe other = false) : c ≠ other := by
  rintro rfl
  rw [hsafe] at hother
  cases hother

theorem quoteByte_chars {byte : UInt8} {c : Char} (hc : c ∈ quoteByte byte) :
    isSafe c = true ∨ c = '+' ∨ c = '%' := by
  have hbyte := byte.toNat_lt
  rcases quoteByte_cases byte with ⟨d, hquote, hsafe, _⟩ | ⟨_, hquote⟩ | hquote
  · rw [hquote, List.mem_singleton] at hc
    rw [hc]
    exact .inl hsafe
  · rw [hquote, List.mem_singleton] at hc
    exact .inr (.inl hc)
  · rw [hquote, List.mem_cons, List.mem_pair] at hc
    rcases hc with rfl | rfl | rfl
    · exact .inr (.inr rfl)
    · exact .inl (isSafe_digit (by omega))
    · exact .inl (isSafe_digit (by omega))

theorem unquoteBytes_cons {c : Char} (hc : c ≠ '%') (rest : List Char) :
    unquoteBytes (c :: rest) =
      String.utf8EncodeChar c ++ unquoteBytes rest := by
  rw [unquoteBytes]
  rintro _ _ _ rfl
  exact absurd rfl hc

/-- What is written for a byte is read as that byte. -/
theorem unquoteBytes_quoteByte (byte : UInt8) (rest : List Char) :
    unquoteBytes ((quoteByte byte).map plusToSpace ++ rest) =
      byte :: unquoteBytes rest := by
  have hbyte := byte.toNat_lt
  rcases quoteByte_cases byte with ⟨c, hquote, hsafe, hencode⟩ |
    ⟨rfl, hquote⟩ | hquote
  · have hplus : plusToSpace c = c :=
      if_neg (isSafe_ne hsafe (by decide))
    rw [hquote, List.map_singleton, hplus, List.singleton_append,
      unquoteBytes_cons (isSafe_ne hsafe (by decide)), hencode]
    rfl
  · rw [hquote]
    exact unquoteBytes_cons (by decide) rest
  · have hhigh : byte.toNat / 16 < 16 := by omega
    have hlow : byte.toNat % 16 < 16 := by omega
    have hkept : ∀ n, n < 16 → plusToSpace hexDigits[n]! = hexDigits[n]! :=
      fun n hn => if_neg (isSafe_ne (isSafe_digit hn) (by decide))
    rw [hquote, List.map_cons, List.map_cons, List.map_singleton,
      hkept _ hhigh, hkept _ hlow]
    show unquoteBytes ('%' :: hexDigits[byte.toNat / 16]! ::
      hexDigits[byte.toNat % 16]! :: rest) = _
    rw [unquoteBytes, hexValue?_digit hhigh, hexValue?_digit hlow]
    have hvalue : byte.toNat / 16 * 16 + byte.toNat % 16 = byte.toNat := by
      omega
    simp only [hvalue, UInt8.ofNat_toNat]

theorem toNat_lt_of_isSafe {c : Char} (hsafe : isSafe c = true) :
    c.toNat < 128 := by
  rw [isSafe, Bool.or_eq_true, decide_eq_true_eq] at hsafe
  rcases hsafe with halphanum | hmark
  · have hkinds : ((c.isUpper || c.isLower) || c.isDigit) = true := halphanum
    rw [Bool.or_eq_true, Bool.or_eq_true] at hkinds
    have hlast : ∃ last : Char, c.val ≤ last.val ∧ last.toNat < 128 := by
      rcases hkinds with (hupper | hlower) | hdigit
      · exact ⟨'Z', (of_decide_eq_true hupper).2, by decide⟩
      · exact ⟨'z', of_decide_eq_true (Bool.and_eq_true_iff.mp hlower).2,
          by decide⟩
      · exact ⟨'9', of_decide_eq_true (Bool.and_eq_true_iff.mp hdigit).2,
          by decide⟩
    obtain ⟨last, hle, hlt⟩ := hlast
    exact Nat.lt_of_le_of_lt (UInt32.le_iff_toNat_le.mp hle) hlt
  · revert hmark
    simp only [List.mem_cons, List.not_mem_nil, or_false]
    rintro (rfl | rfl | rfl | rfl) <;> decide

end Bytes

section Texts

theorem unquoteBytes_flatMap (bytes : List UInt8) :
    unquoteBytes ((bytes.flatMap quoteByte).map plusToSpace) = bytes := by
  induction bytes with
  | nil => rfl
  | cons byte rest ih =>
      rw [List.flatMap_cons, List.map_append, unquoteBytes_quoteByte, ih]

/-- Quoting loses nothing. -/
@[simp] theorem unquotePlus_quotePlus (text : List Char) :
    unquotePlus (quotePlus text) = text := by
  rw [unquotePlus, quotePlus, unquoteBytes_flatMap, Utf8.decodeReplace,
    Utf8.decode_encode, List.map_id]

/-- What is safe stays as it is. -/
theorem quotePlus_of_safe {text : List Char}
    (hsafe : ∀ c ∈ text, isSafe c = true) : quotePlus text = text := by
  induction text with
  | nil => rfl
  | cons c text ih =>
      have hall : ∀ n : Fin 128, isSafe (Char.ofNat n.val) = true →
          (String.utf8EncodeChar (Char.ofNat n.val)).flatMap quoteByte =
            [Char.ofNat n.val] := by decide
      have hc := hsafe c List.mem_cons_self
      have hhere := hall ⟨c.toNat, toNat_lt_of_isSafe hc⟩
      rw [Char.ofNat_toNat] at hhere
      rw [quotePlus, Utf8.encode, List.flatMap_cons, List.flatMap_append,
        hhere hc]
      exact congrArg (c :: ·) (ih (List.forall_mem_cons.mp hsafe).2)

theorem quotePlus_chars {text : List Char} {c : Char}
    (hc : c ∈ quotePlus text) : isSafe c = true ∨ c = '+' ∨ c = '%' := by
  obtain ⟨byte, _, hquote⟩ := List.mem_flatMap.mp hc
  exact quoteByte_chars hquote

/-- A delimiter is never left in what is quoted. -/
theorem not_mem_quotePlus {delimiter : Char}
    (hdelimiter : isSafe delimiter = false) (hplus : delimiter ≠ '+')
    (hescape : delimiter ≠ '%') (text : List Char) :
    delimiter ∉ quotePlus text := by
  intro hmem
  rcases quotePlus_chars hmem with hsafe | rfl | rfl
  · exact isSafe_ne hsafe hdelimiter rfl
  · exact hplus rfl
  · exact hescape rfl

theorem unquotePlus_of_safe {text : List Char}
    (hsafe : ∀ c ∈ text, isSafe c = true) : unquotePlus text = text := by
  have hread := unquotePlus_quotePlus text
  rwa [quotePlus_of_safe hsafe] at hread

theorem unquoteBytes_quoteSlashByte (byte : UInt8) (rest : List Char) :
    unquoteBytes ((quoteSlashByte byte).map plusToSpace ++ rest) =
      byte :: unquoteBytes rest := by
  by_cases hslash : byte = 0x2f
  · subst hslash
    exact unquoteBytes_cons (by decide) rest
  · by_cases hblank : byte = 0x20
    · subst hblank
      rfl
    · rw [quoteSlashByte, if_neg hslash, if_neg hblank]
      exact unquoteBytes_quoteByte byte rest

@[simp] theorem unquotePlus_quote (text : List Char) :
    unquotePlus (quote text) = text := by
  have hread : ∀ bytes : List UInt8,
      unquoteBytes ((bytes.flatMap quoteSlashByte).map plusToSpace) =
        bytes := by
    intro bytes
    induction bytes with
    | nil => rfl
    | cons byte rest ih =>
        rw [List.flatMap_cons, List.map_append, unquoteBytes_quoteSlashByte,
          ih]
  rw [unquotePlus, quote, hread, Utf8.decodeReplace, Utf8.decode_encode,
    List.map_id]

theorem not_mem_quote {delimiter : Char} (hdelimiter : isSafe delimiter = false)
    (hplus : delimiter ≠ '+') (hescape : delimiter ≠ '%')
    (hslash : delimiter ≠ '/') (text : List Char) : delimiter ∉ quote text := by
  intro hmem
  obtain ⟨byte, _, hquote⟩ := List.mem_flatMap.mp hmem
  unfold quoteSlashByte at hquote
  split at hquote
  · exact hslash (List.mem_singleton.mp hquote)
  · split at hquote
    · simp only [List.mem_cons, List.not_mem_nil, or_false] at hquote
      rcases hquote with rfl | rfl | rfl
      · exact hescape rfl
      · exact absurd hdelimiter (by decide)
      · exact absurd hdelimiter (by decide)
    · rcases quoteByte_chars hquote with hsafe | rfl | rfl
      · exact isSafe_ne hsafe hdelimiter rfl
      · exact hplus rfl
      · exact hescape rfl

end Texts

section Sites

/-- A URL without blanks and controls is read as it stands. -/
theorem readUrl_of_visible {text : List Char}
    (hvisible : ∀ c ∈ text, 0x20 < c.toNat) : readUrl text = text := by
  have hkept : ∀ kept : List Char, (∀ c ∈ kept, 0x20 < c.toNat) →
      kept.dropWhile isControlOrSpace = kept := by
    intro kept hkept
    refine List.dropWhile_eq_self_iff.mpr fun hlength => ?_
    have hfirst := hkept _ (List.getElem_mem hlength)
    simpa [isControlOrSpace] using hfirst
  rw [readUrl, hkept text hvisible,
    hkept text.reverse (by simpa using hvisible), List.reverse_reverse,
    List.filter_eq_self]
  intro c hc
  have hc := hvisible c hc
  rw [decide_eq_true_eq]
  rintro hmem
  rcases List.mem_cons.mp hmem with rfl | hmem
  · exact absurd hc (by decide)
  · rcases List.mem_pair.mp hmem with rfl | rfl <;> exact absurd hc (by decide)

/-- A visible URL that starts with one slash stays on the site. -/
theorem sameSite_of_path {rest : List Char}
    (hvisible : ∀ c ∈ '/' :: rest, 0x20 < c.toNat)
    (hhead : ∀ c ∈ rest.head?, isSlash c = false) : SameSite ('/' :: rest) := by
  rw [SameSite, readUrl_of_visible hvisible]
  refine ⟨rfl, ?_⟩
  cases rest with
  | nil => rfl
  | cons c rest => rw [namesHost, hhead c rfl, Bool.and_false]

theorem isSafe_visible {c : Char} (hsafe : isSafe c = true) :
    0x20 < c.toNat := by
  by_contra hlow
  have hall : ∀ n : Fin 33, isSafe (Char.ofNat n.val) = false := by decide
  have hnot := hall ⟨c.toNat, by omega⟩
  rw [Char.ofNat_toNat, hsafe] at hnot
  cases hnot

theorem urlMarks_visible {c : Char} (hmark : c ∈ urlMarks) :
    0x20 < c.toNat ∧ c ≠ '\\' := by
  have hall : urlMarks.all
      (fun c => decide (0x20 < c.toNat ∧ c ≠ '\\')) = true := by decide
  exact of_decide_eq_true (List.all_eq_true.mp hall c hmark)

/-- A byte that stands for itself, or an escape. -/
theorem quoteUrlByte_cases (byte : UInt8) :
    (∃ c, quoteUrlByte byte = [c] ∧ (isSafe c = true ∨ c ∈ urlMarks) ∧
      c.toNat = byte.toNat) ∨
    quoteUrlByte byte =
      ['%', hexDigits[byte.toNat / 16]!, hexDigits[byte.toNat % 16]!] := by
  by_cases hkept : byte < 0x80 ∧ (isSafe (Char.ofNat byte.toNat) = true ∨
      Char.ofNat byte.toNat ∈ urlMarks)
  · refine .inl ⟨_, if_pos hkept, hkept.2, ?_⟩
    have hbyte : byte.toNat < 128 := hkept.1
    have hvalid : byte.toNat.isValidChar := Or.inl (by omega)
    rw [Char.ofNat, dif_pos hvalid]
    rfl
  · exact .inr (if_neg hkept)

/-- What a redirect sends is visible, holds no backslash, and a slash only for
a slash. -/
theorem quoteUrlByte_chars {byte : UInt8} {c : Char}
    (hc : c ∈ quoteUrlByte byte) :
    0x20 < c.toNat ∧ c ≠ '\\' ∧ (c = '/' → byte = 0x2f) := by
  have hbyte := byte.toNat_lt
  rcases quoteUrlByte_cases byte with ⟨d, hquote, hkept, hsame⟩ | hquote
  · rw [hquote, List.mem_singleton] at hc
    subst hc
    have hslash : c = '/' → byte = 0x2f := by
      rintro rfl
      exact UInt8.toNat_inj.mp hsame.symm
    rcases hkept with hsafe | hmark
    · exact ⟨isSafe_visible hsafe, isSafe_ne hsafe (by decide), hslash⟩
    · exact ⟨(urlMarks_visible hmark).1, (urlMarks_visible hmark).2, hslash⟩
  · have hdigit : ∀ n, n < 16 → 0x20 < hexDigits[n]!.toNat ∧
        hexDigits[n]! ≠ '\\' ∧ (hexDigits[n]! = '/' → byte = 0x2f) := by
      intro n hn
      have hsafe := isSafe_digit hn
      exact ⟨isSafe_visible hsafe, isSafe_ne hsafe (by decide), fun hslash =>
        absurd hslash (isSafe_ne hsafe (by decide))⟩
    rw [hquote, List.mem_cons, List.mem_pair] at hc
    rcases hc with rfl | rfl | rfl
    · exact ⟨by decide, by decide, by rintro ⟨⟩⟩
    · exact hdigit _ (by omega)
    · exact hdigit _ (by omega)

theorem quoteUrlByte_ne_nil (byte : UInt8) : quoteUrlByte byte ≠ [] := by
  simp only [quoteUrlByte]
  split <;> exact List.cons_ne_nil _ _

theorem quoteUrl_visible {text : List Char} {c : Char}
    (hc : c ∈ quoteUrl text) : 0x20 < c.toNat := by
  obtain ⟨byte, _, hquote⟩ := List.mem_flatMap.mp hc
  exact (quoteUrlByte_chars hquote).1

/-- A redirect sends a slash first only for a slash, and never a backslash. -/
theorem head?_quoteUrl {text : List Char} {c : Char}
    (hc : (quoteUrl text).head? = some c) (hslash : isSlash c = true) :
    text.head? = some '/' := by
  cases text with
  | nil => cases hc
  | cons first rest =>
      have hnext : Utf8.nextChar? (Utf8.encode (first :: rest)) =
          some first :=
        Utf8.nextChar?_eq_some.mpr ⟨_, Utf8.encode_cons first rest⟩
      rw [quoteUrl] at hc
      cases hbytes : Utf8.encode (first :: rest) with
      | nil =>
          rw [hbytes] at hc
          cases hc
      | cons byte more =>
          rw [hbytes, List.flatMap_cons] at hc
          have hmem : c ∈ quoteUrlByte byte := by
            rw [List.head?_append_of_ne_nil _ (quoteUrlByte_ne_nil byte)] at hc
            exact List.mem_of_mem_head? hc
          obtain ⟨_, hback, hbyte⟩ := quoteUrlByte_chars hmem
          have hforward : c = '/' := by
            simpa [isSlash, hback] using hslash
          have hslashed : Utf8.nextChar? (byte :: more) = some '/' := by
            rw [hbyte hforward]
            exact Utf8.nextChar?_eq_some.mpr ⟨more, rfl⟩
          rw [hbytes, hslashed] at hnext
          rw [← Option.some.inj hnext]
          rfl

/-- A redirect to a path that starts with one slash, and no backslash after
it, stays on the site. -/
theorem sameSite_quoteUrl {rest : List Char} (hslash : rest.head? ≠ some '/') :
    SameSite (quoteUrl ('/' :: rest)) := by
  have hquote : quoteUrl ('/' :: rest) = '/' :: quoteUrl rest := rfl
  rw [hquote]
  refine sameSite_of_path (fun c hc => ?_) fun c hc => ?_
  · rw [← hquote] at hc
    exact quoteUrl_visible hc
  · by_contra hother
    exact hslash (head?_quoteUrl hc (Bool.not_eq_false _ ▸ hother))

theorem quotePlus_visible {text : List Char} {c : Char}
    (hc : c ∈ quotePlus text) : 0x20 < c.toNat := by
  rcases quotePlus_chars hc with hsafe | rfl | rfl
  · exact isSafe_visible hsafe
  · decide
  · decide

theorem quotePair_visible {pair : List Char × List Char} {c : Char}
    (hc : c ∈ quotePair pair) : 0x20 < c.toNat := by
  rw [quotePair, List.mem_append, List.mem_cons] at hc
  rcases hc with hname | rfl | hvalue
  · exact quotePlus_visible hname
  · decide
  · exact quotePlus_visible hvalue

theorem urlencode_visible {pairs : Pairs} {c : Char}
    (hc : c ∈ urlencode pairs) : 0x20 < c.toNat := by
  induction pairs with
  | nil => cases hc
  | cons pair rest ih =>
      cases rest with
      | nil =>
          rw [urlencode, List.map_singleton, List.intercalate_singleton] at hc
          exact quotePair_visible hc
      | cons next rest =>
          rw [urlencode, List.map_cons, List.map_cons,
            List.intercalate_cons_cons, List.mem_append, List.mem_append,
            List.mem_singleton] at hc
          rcases hc with (hhere | rfl) | hlater
          · exact quotePair_visible hhere
          · decide
          · exact ih hlater

end Sites

section Pairs

/-- Pairs that are encoded one way or another, as long as no delimiter is left
in them. -/
theorem parseQsl_intercalate {encoded : Pairs}
    (hfree : ∀ pair ∈ encoded,
      '&' ∉ pair.1 ∧ '=' ∉ pair.1 ∧ '&' ∉ pair.2) :
    parseQsl (['&'].intercalate
        (encoded.map fun pair => pair.1 ++ '=' :: pair.2)) =
      encoded.map fun pair => (unquotePlus pair.1, unquotePlus pair.2) := by
  cases encoded with
  | nil => rfl
  | cons pair rest =>
      have hsplit : (['&'].intercalate
          ((pair :: rest).map fun pair => pair.1 ++ '=' :: pair.2)).splitOn
            '&' = (pair :: rest).map fun pair => pair.1 ++ '=' :: pair.2 := by
        apply List.splitOn_intercalate
        · intro text htext
          obtain ⟨other, hother, rfl⟩ := List.mem_map.mp htext
          obtain ⟨hname, _, hvalue⟩ := hfree other hother
          rw [List.mem_append, List.mem_cons]
          rintro (hleft | hequals | hright)
          · exact hname hleft
          · exact absurd hequals (by decide)
          · exact hvalue hright
        · exact List.cons_ne_nil _ _
      have hfull : ∀ text ∈ (pair :: rest).map fun pair =>
          pair.1 ++ '=' :: pair.2, (!text.isEmpty) = true := by
        intro text htext
        obtain ⟨other, _, rfl⟩ := List.mem_map.mp htext
        simp
      rw [parseQsl, hsplit, List.filter_eq_self.mpr hfull, List.map_map]
      apply List.map_congr_left
      intro other hother
      have hname := (hfree other hother).2.1
      rw [Function.comp_apply, parsePair, PyText.partition_append hname]

/-- What is encoded is read back, pair by pair. -/
theorem parseQsl_urlencode (pairs : Pairs) :
    parseQsl (urlencode pairs) = pairs := by
  have hfree : ∀ pair ∈ pairs.map fun pair : List Char × List Char =>
      (quotePlus pair.1, quotePlus pair.2),
      '&' ∉ pair.1 ∧ '=' ∉ pair.1 ∧ '&' ∉ pair.2 := by
    intro pair hpair
    obtain ⟨other, _, rfl⟩ := List.mem_map.mp hpair
    exact ⟨not_mem_quotePlus (by decide) (by decide) (by decide) _,
      not_mem_quotePlus (by decide) (by decide) (by decide) _,
      not_mem_quotePlus (by decide) (by decide) (by decide) _⟩
  have hread := parseQsl_intercalate hfree
  simp only [List.map_map, Function.comp_def, unquotePlus_quotePlus,
    List.map_id'] at hread
  exact hread

/-- One pair more at the end. -/
theorem urlencode_concat {pairs : Pairs} (hpairs : pairs ≠ [])
    (pair : List Char × List Char) :
    urlencode (pairs ++ [pair]) = urlencode pairs ++ '&' :: quotePair pair := by
  induction pairs with
  | nil => exact absurd rfl hpairs
  | cons first pairs ih =>
      cases pairs with
      | nil => simp [urlencode]
      | cons second pairs =>
          have hrest := ih (List.cons_ne_nil _ _)
          simp only [urlencode, List.cons_append, List.map_cons,
            List.intercalate_cons_cons] at hrest ⊢
          rw [hrest]
          simp

end Pairs

end FormUrl
