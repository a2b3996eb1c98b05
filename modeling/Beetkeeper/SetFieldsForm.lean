/-
The fields of the beets configuration through the import page's textarea: one
`key=value` line each, sent as they stand and read back.
-/
import Beetkeeper.ImportSubmission

namespace Beetkeeper

open PyText

/-- The line of an entry. -/
def setFieldsLine (entry : String × String) : List Char :=
  entry.1.toList ++ '=' :: entry.2.toList

/-- The entry can be told from its line: its key is not empty and holds no
`=`, and neither its key nor its value begins or ends with a blank or holds a
line break. -/
structure FitsLine (entry : String × String) : Prop where
  named : entry.1.toList ≠ []
  plain : '=' ∉ entry.1.toList
  keyTrimmed : Trimmed entry.1.toList
  keyOneLine : OneLine entry.1.toList
  valueTrimmed : Trimmed entry.2.toList
  valueOneLine : OneLine entry.2.toList

theorem renderSetFields_eq (fields : StrDict) :
    renderSetFields fields = ['\n'].intercalate (fields.map setFieldsLine) :=
  rfl

/-- A line is blank, or it sets the key before its first `=`. -/
theorem readSetFieldsLine_eq_ok_iff {fields next : StrDict}
    {line : List Char} :
    readSetFieldsLine fields line = .ok next ↔
      strip line = [] ∧ fields = next ∨
      ∃ key value, strip line = key ++ '=' :: value ∧ '=' ∉ key ∧
        strip key ≠ [] ∧ StrDict.set fields (String.ofList (strip key))
          (String.ofList (strip value)) = next := by
  unfold readSetFieldsLine
  generalize strip line = text
  by_cases hempty : text = []
  · simp [hempty]
  · simp only [List.isEmpty_iff, hempty, if_false, false_and, false_or]
    obtain ⟨hbefore, hjoined⟩ := partition_spec '=' text
    cases hparts : partition '=' text with
    | mk key rest =>
        obtain ⟨found, value⟩ := rest
        rw [hparts] at hbefore hjoined
        simp only at hbefore hjoined ⊢
        constructor
        · intro hread
          split at hread
          · cases hread
          · rename_i hgood
            rw [Bool.or_eq_true, not_or, Bool.not_eq_true', Bool.not_eq_false,
              List.isEmpty_iff] at hgood
            exact ⟨key, value, hjoined hgood.1, hbefore, hgood.2,
              Except.ok.inj hread⟩
        · rintro ⟨key', value', rfl, hplain, hnamed, hset⟩
          rw [partition_append hplain] at hparts
          obtain ⟨rfl, hrest⟩ := Prod.mk.inj hparts
          obtain ⟨rfl, rfl⟩ := Prod.mk.inj hrest
          rw [if_neg (by simp [hnamed]), hset]

section

variable {entry : String × String}

theorem setFieldsLine_ne_nil : setFieldsLine entry ≠ [] := by
  simp [setFieldsLine]

theorem FitsLine.oneLine (hfits : FitsLine entry) :
    OneLine (setFieldsLine entry) := by
  rw [setFieldsLine, oneLine_append]
  refine ⟨hfits.keyOneLine, List.forall_mem_cons.mpr ⟨by decide, ?_⟩⟩
  exact hfits.valueOneLine

theorem FitsLine.trimmed (hfits : FitsLine entry) :
    Trimmed (setFieldsLine entry) := by
  intro hne
  simp only [setFieldsLine]
  constructor
  · rw [List.head_append_of_ne_nil hfits.named]
    exact (hfits.keyTrimmed hfits.named).1
  · rw [List.getLast_append_of_ne_nil _ (List.cons_ne_nil _ _)]
    by_cases hvalue : entry.2.toList = []
    · simp only [hvalue, List.getLast_singleton]
      decide
    · rw [List.getLast_cons hvalue]
      exact (hfits.valueTrimmed hvalue).2

/-- The line of an entry that fits is read as the entry. -/
theorem readSetFieldsLine_of_fits (hfits : FitsLine entry)
    (fields : StrDict) :
    readSetFieldsLine fields (setFieldsLine entry) =
      .ok (StrDict.set fields entry.1 entry.2) := by
  rw [readSetFieldsLine_eq_ok_iff]
  refine Or.inr ⟨entry.1.toList, entry.2.toList,
    strip_of_trimmed hfits.trimmed, hfits.plain, ?_, ?_⟩
  · rw [strip_of_trimmed hfits.keyTrimmed]
    exact hfits.named
  · rw [strip_of_trimmed hfits.keyTrimmed,
      strip_of_trimmed hfits.valueTrimmed, String.ofList_toList,
      String.ofList_toList]

end

/-- Lines of entries that fit, under keys of their own, are read as the
entries in their order. -/
theorem foldlM_readSetFieldsLine {entries : StrDict}
    (hfits : ∀ entry ∈ entries, FitsLine entry) (fields : StrDict)
    (hkeys : (StrDict.keys (fields ++ entries)).Nodup) :
    (entries.map setFieldsLine).foldlM readSetFieldsLine fields =
      .ok (fields ++ entries) := by
  induction entries generalizing fields with
  | nil => rw [List.append_nil]; rfl
  | cons entry rest ih =>
      obtain ⟨hentry, hrest⟩ := List.forall_mem_cons.mp hfits
      have hfresh : entry.1 ∉ StrDict.keys fields := by
        intro hmem
        rw [StrDict.keys, List.map_append, List.nodup_append] at hkeys
        exact hkeys.2.2 _ hmem _ List.mem_cons_self rfl
      have hset : StrDict.set fields entry.1 entry.2 = fields ++ [entry] := by
        rw [StrDict.set, if_neg hfresh]
      have hjoined : fields ++ entry :: rest = fields ++ [entry] ++ rest := by
        rw [List.append_assoc, List.singleton_append]
      rw [List.map_cons, List.foldlM_cons, readSetFieldsLine_of_fits hentry,
        hset, hjoined]
      rw [hjoined] at hkeys
      exact ih hrest (fields ++ [entry]) hkeys

/-- The untouched textarea of entries that fit is read as the entries. -/
theorem parseSetFields_of_fits {fields : StrDict}
    (hkeys : (StrDict.keys fields).Nodup)
    (hfits : ∀ entry ∈ fields, FitsLine entry) :
    parseSetFields (sendNewlines (renderSetFields fields)) = .ok fields := by
  have hlines : ∀ line ∈ fields.map setFieldsLine,
      line ≠ [] ∧ OneLine line := by
    intro line hline
    obtain ⟨entry, hentry, rfl⟩ := List.mem_map.mp hline
    exact ⟨setFieldsLine_ne_nil, (hfits entry hentry).oneLine⟩
  rw [renderSetFields_eq,
    sendNewlines_intercalate fun line hline => (hlines line hline).2,
    parseSetFields, splitLines_intercalate hlines,
    foldlM_readSetFieldsLine hfits [] hkeys]
  rfl

/-- Whatever a line reads as fits a line. -/
theorem fits_of_readSetFieldsLine {fields next : StrDict} {line : List Char}
    (hline : OneLine line) (hfields : ∀ entry ∈ fields, FitsLine entry)
    (hread : readSetFieldsLine fields line = .ok next) :
    ∀ entry ∈ next, FitsLine entry := by
  rcases readSetFieldsLine_eq_ok_iff.mp hread with
    ⟨_, rfl⟩ | ⟨key, value, hparts, hplain, hnamed, rfl⟩
  · exact hfields
  · intro entry hentry
    rcases StrDict.mem_set hentry with hold | rfl
    · exact hfields entry hold
    · have htext : OneLine (key ++ '=' :: value) := by
        rw [← hparts]
        exact fun c hc => hline c (mem_of_mem_strip hc)
      obtain ⟨hkey, hrest⟩ := oneLine_append.mp htext
      have hvalue : OneLine value := fun c hc =>
        hrest c (List.mem_cons_of_mem _ hc)
      constructor <;> simp only [String.toList_ofList]
      · exact hnamed
      · exact fun hmem => hplain (mem_of_mem_strip hmem)
      · exact trimmed_strip key
      · exact fun c hc => hkey c (mem_of_mem_strip hc)
      · exact trimmed_strip value
      · exact fun c hc => hvalue c (mem_of_mem_strip hc)

/-- Whatever a text reads as fits its lines. -/
theorem fits_of_parseSetFields {raw : List Char} {fields : StrDict}
    (hread : parseSetFields raw = .ok fields) :
    ∀ entry ∈ fields, FitsLine entry := by
  have hlines : ∀ (lines : List (List Char)) (before : StrDict),
      (∀ line ∈ lines, OneLine line) →
      (∀ entry ∈ before, FitsLine entry) →
      lines.foldlM readSetFieldsLine before = .ok fields →
      ∀ entry ∈ fields, FitsLine entry := by
    intro lines
    induction lines with
    | nil =>
        intro before _ hbefore hfold
        obtain rfl := Except.ok.inj hfold
        exact hbefore
    | cons line rest ih =>
        intro before hall hbefore hfold
        obtain ⟨hline, hrest⟩ := List.forall_mem_cons.mp hall
        rw [List.foldlM_cons] at hfold
        cases hnext : readSetFieldsLine before line with
        | error refusal =>
            rw [hnext] at hfold
            cases hfold
        | ok next =>
            rw [hnext] at hfold
            exact ih next hrest
              (fits_of_readSetFieldsLine hline hbefore hnext) hfold
  exact hlines _ [] (fun line hline => oneLine_of_mem_splitLines hline)
    (List.forall_mem_nil _) hread

/-- Fields are read back as they are exactly when every entry fits a line. -/
theorem read_back_iff {fields : StrDict}
    (hkeys : (StrDict.keys fields).Nodup) :
    (∃ read,
      parseSetFields (sendNewlines (renderSetFields fields)) = .ok read ∧
      ∀ key, StrDict.get? read key = StrDict.get? fields key) ↔
    ∀ entry ∈ fields, FitsLine entry := by
  constructor
  · rintro ⟨read, hread, hsame⟩ entry hentry
    apply fits_of_parseSetFields hread
    apply StrDict.mem_of_get?_eq_some
    rw [hsame]
    exact StrDict.get?_eq_some_of_mem hkeys hentry
  · intro hfits
    exact ⟨_, parseSetFields_of_fits hkeys hfits, fun _ => rfl⟩

/-- The untouched form submits the configured fields as they are exactly when
every entry fits a line. -/
theorem untouched_form_keeps_fields_iff (config : ImportConfig)
    (hkeys : (StrDict.keys config.importConfigSetFields).Nodup) :
    (∃ fields,
      parseSetFields (importPage config).untouched.setFields = .ok fields ∧
      ∀ key, StrDict.get? fields key =
        StrDict.get? config.importConfigSetFields key) ↔
    ∀ entry ∈ config.importConfigSetFields, FitsLine entry :=
  read_back_iff hkeys

/-- A field of one line. -/
theorem untouched_form_keeps_fields_jazz :
    let config : ImportConfig :=
      { shippedConfig with setFields := [[("genre", "Jazz = $x")], []] }
    (StrDict.keys config.importConfigSetFields).Nodup ∧
      ∃ fields,
        parseSetFields (importPage config).untouched.setFields = .ok fields ∧
        ∀ key, StrDict.get? fields key =
          StrDict.get? config.importConfigSetFields key := by
  have hkeys : (StrDict.keys ({ shippedConfig with
      setFields := [[("genre", "Jazz = $x")], []] } :
        ImportConfig).importConfigSetFields).Nodup := by decide
  refine ⟨hkeys, (untouched_form_keeps_fields_iff _ hkeys).mpr ?_⟩
  intro entry hentry
  rw [List.mem_singleton.mp hentry]
  constructor <;> decide

/-- A comment of two lines makes the untouched form unacceptable. -/
theorem untouched_form_loses_comment :
    let config : ImportConfig :=
      { shippedConfig with setFields := [[("comments", "late\nnight")], []] }
    parseSetFields (importPage config).untouched.setFields =
        .error ⟨422,
          "Set-fields line 'night' is not of the form field=value."⟩ ∧
      ¬ ∃ fields,
        parseSetFields (importPage config).untouched.setFields = .ok fields ∧
        ∀ key, StrDict.get? fields key =
          StrDict.get? config.importConfigSetFields key := by
  have hrefused : parseSetFields (importPage { shippedConfig with
      setFields := [[("comments", "late\nnight")], []] }).untouched.setFields =
        .error ⟨422,
          "Set-fields line 'night' is not of the form field=value."⟩ := by
    decide
  refine ⟨hrefused, ?_⟩
  rintro ⟨fields, hread, _⟩
  rw [hrefused] at hread
  cases hread

end Beetkeeper
