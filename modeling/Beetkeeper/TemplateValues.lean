/-
Values that a clean slate preserves on their way to the fresh import: escaped,
merged into the fields the importer sets, and read there as templates.
-/
import Beetkeeper.CleanSlateContract

namespace Beetkeeper

open LayeredMap LexicalPath

universe u v

/-- What a template is made of. -/
inductive TemplatePart (Symbol : Type u) (Call : Type v) where
  | literal (c : Char)
  | symbol (name : Symbol)
  | call (name : Call)
deriving Repr, DecidableEq

/-- How beets reads a symbol after its `$` and a function call after its `%`:
what it is, and how many characters it takes. -/
structure TemplateGrammar (Symbol : Type u) (Call : Type v) where
  symbolAt : List Char → Symbol × Nat
  callAt : List Char → Call × Nat

/-- What symbols and function calls evaluate to. -/
structure TemplateEnvironment (Symbol : Type u) (Call : Type v) where
  symbol : Symbol → List Char
  call : Call → List Char

section

variable {Symbol : Type u} {Call : Type v}

/-- beets' template reader at top level, after the characters that an earlier
part covers already. -/
def readTemplateFrom (grammar : TemplateGrammar Symbol Call) :
    Nat → List Char → List (TemplatePart Symbol Call)
  | _, [] => []
  | covered + 1, _ :: rest => readTemplateFrom grammar covered rest
  | 0, '$' :: next :: rest =>
      if next ∈ templateSpecials then
        .literal next :: readTemplateFrom grammar 1 (next :: rest)
      else
        .symbol (grammar.symbolAt (next :: rest)).1 ::
          readTemplateFrom grammar (grammar.symbolAt (next :: rest)).2
            (next :: rest)
  | 0, '%' :: next :: rest =>
      .call (grammar.callAt (next :: rest)).1 ::
        readTemplateFrom grammar (grammar.callAt (next :: rest)).2
          (next :: rest)
  | 0, '}' :: _ => []
  | 0, c :: rest => .literal c :: readTemplateFrom grammar 0 rest

def readTemplate (grammar : TemplateGrammar Symbol Call)
    (template : List Char) : List (TemplatePart Symbol Call) :=
  readTemplateFrom grammar 0 template

example : readTemplate (⟨fun _ => ((), 1), fun _ => ((), 1)⟩ :
    TemplateGrammar Unit Unit) "x$$%f,$".toList =
      [.literal 'x', .literal '$', .call (), .literal ',', .literal '$'] := by
  decide

def TemplatePart.evaluate (environment : TemplateEnvironment Symbol Call) :
    TemplatePart Symbol Call → List Char
  | literal c => [c]
  | symbol name => environment.symbol name
  | call name => environment.call name

/-- A template read and evaluated. -/
def evaluateTemplate (grammar : TemplateGrammar Symbol Call)
    (environment : TemplateEnvironment Symbol Call) (template : String) :
    String :=
  String.ofList ((readTemplate grammar template.toList).flatMap
    (TemplatePart.evaluate environment))

/-- A character as `_escape_template_literal` leaves it. -/
def escapeChar (c : Char) : List Char :=
  if c ∈ templateSpecials then ['$', c] else [c]

variable (grammar : TemplateGrammar Symbol Call)

/-- An escaped character is read as itself, with what follows it unread. -/
theorem readTemplate_escapeChar (c : Char) (rest : List Char) :
    readTemplate grammar (escapeChar c ++ rest) =
      .literal c :: readTemplate grammar rest := by
  by_cases hspecial : c ∈ templateSpecials
  · rw [escapeChar, if_pos hspecial, readTemplate]
    simp only [List.cons_append, List.nil_append]
    rw [readTemplateFrom, if_pos hspecial, readTemplateFrom]
    rfl
  · have hdollar : c ≠ '$' := by
      rintro rfl
      exact hspecial (by decide)
    have hpercent : c ≠ '%' := by
      rintro rfl
      exact hspecial (by decide)
    have hclose : c ≠ '}' := by
      rintro rfl
      exact hspecial (by decide)
    rw [escapeChar, if_neg hspecial, List.singleton_append, readTemplate,
      readTemplateFrom]
    · rfl
    · exact fun _ _ hsame _ => hdollar hsame
    · exact fun _ _ hsame _ => hpercent hsame
    · exact hclose

theorem readTemplate_escape (value : List Char) :
    readTemplate grammar (value.flatMap escapeChar) =
      value.map .literal := by
  induction value with
  | nil => rfl
  | cons c rest ih =>
      rw [List.flatMap_cons, readTemplate_escapeChar, ih, List.map_cons]

theorem flatMap_evaluate_literal
    (environment : TemplateEnvironment Symbol Call) (text : List Char) :
    (text.map TemplatePart.literal).flatMap
      (TemplatePart.evaluate environment) = text := by
  induction text with
  | nil => rfl
  | cons c rest ih =>
      rw [List.map_cons, List.flatMap_cons, ih]
      rfl

/-- An escaped text evaluates to itself. -/
theorem evaluateTemplate_escape
    (environment : TemplateEnvironment Symbol Call) (value : String) :
    evaluateTemplate grammar environment (escapeTemplateLiteral value) =
      value := by
  have hescaped : (escapeTemplateLiteral value).toList =
      value.toList.flatMap escapeChar := String.toList_ofList
  rw [evaluateTemplate, hescaped, readTemplate_escape,
    flatMap_evaluate_literal, String.ofList_toList]

end

theorem nodup_keys_preservedFields (entry : Entry) (names : List String) :
    (StrDict.keys (preservedFields entry names)).Nodup := by
  unfold preservedFields
  apply List.foldlRecOn (motive := fun preserved : StrDict =>
    (StrDict.keys preserved).Nodup)
  · exact List.nodup_nil
  · intro preserved hkeys name _
    split
    · exact StrDict.nodup_keys_set hkeys _ _
    · exact hkeys

/-- While a job runs, the importer sets every preserved field, to its escaped
value. -/
theorem fieldsSet_of_preserved (config : ImportConfig) (job : ImportJob)
    {preserved : StrDict} (hkeys : (StrDict.keys preserved).Nodup)
    {name value : String} (hmem : (name, value) ∈ preserved) :
    StrDict.get? (config.applyJobImportConfig job preserved).fieldsSet name =
      some (escapeTemplateLiteral value) := by
  have hmerged : StrDict.get? (mergedSetFields job preserved) name =
      some (escapeTemplateLiteral value) := by
    apply StrDict.get?_union_of_mem
    · rw [StrDict.keys, List.map_map]
      exact hkeys
    · exact List.mem_map.mpr ⟨_, hmem, rfl⟩
  have hlayers : StrDict.get?
      (config.applyJobImportConfig job preserved).fieldsSet name =
      merged ((mergedSetFields job preserved :: config.setFields).map
        ofEntries) name := congrFun (ofEntries_items _) name
  rw [hlayers, List.map_cons, merged_cons]
  rw [StrDict.get?] at hmerged
  rw [hmerged, Option.some_or]

/-- However beets reads symbols and calls and whatever they evaluate to, an
escaped text evaluates to itself, and so does every field that a completed
clean slate preserved when the import that follows sets it. -/
theorem preserved_values_reach_the_import {Symbol : Type u} {Call : Type v}
    (grammar : TemplateGrammar Symbol Call)
    (environment : TemplateEnvironment Symbol Call) :
    (∀ value, evaluateTemplate grammar environment
      (escapeTemplateLiteral value) = value) ∧
    ∀ beets settings job world removed preserved (config : ImportConfig),
      (cleanSlateBlocking beets settings job world).2 =
        .ok (removed, preserved) →
      ∀ name value, (name, value) ∈ preserved →
        ∃ template, StrDict.get?
            (config.applyJobImportConfig job preserved).fieldsSet name =
              some template ∧
          evaluateTemplate grammar environment template = value := by
  refine ⟨evaluateTemplate_escape grammar environment, ?_⟩
  intro beets settings job world removed preserved config hdone name value
    hmem
  have hkeys : (StrDict.keys preserved).Nodup := by
    rcases cleared_or_refused beets settings job world with
      ⟨target, path, plan, hcleared⟩ | ⟨failure, hrefused⟩
    · rw [(cleanSlateBlocking_of_cleared hcleared).2] at hdone
      obtain ⟨entry, _, _, rfl⟩ := hcleared.entry
      cases hremoved : (removeEntry beets world target path).2 with
      | error failure =>
          rw [hremoved] at hdone
          cases hdone
      | ok removal =>
          rw [hremoved] at hdone
          obtain ⟨_, rfl⟩ := Prod.mk.inj (Except.ok.inj hdone)
          exact nodup_keys_preservedFields entry settings.preserveFields
    · rw [hrefused] at hdone
      cases hdone
  exact ⟨_, fieldsSet_of_preserved config job hkeys hmem,
    evaluateTemplate_escape grammar environment value⟩

/-- An album that keeps the name its download was searched by, which would
mean something else in a template. -/
def searchedWorld : BeetsWorld :=
  { albumWorld with
    library :=
      { albumWorld.library with
        albums := ⟨[{ albumRow with flex := [("release", "$title 100%")] }],
          List.nodup_singleton _⟩ } }

def releaseSettings : CleanSlateSettings :=
  ⟨some (spell ["downloads"]), ["release"]⟩

/-- Symbols and calls of one letter, which evaluate to nothing. -/
def letterGrammar : TemplateGrammar Unit Unit :=
  ⟨fun _ => ((), 1), fun _ => ((), 1)⟩

theorem preserved_values_reach_the_import_searched :
    ∃ removed preserved,
      (cleanSlateBlocking plainBeets releaseSettings albumJob
        searchedWorld).2 = .ok (removed, preserved) ∧
      ∃ template, StrDict.get? (shippedConfig.applyJobImportConfig albumJob
          preserved).fieldsSet "release" = some template ∧
        evaluateTemplate letterGrammar ⟨fun _ => [], fun _ => []⟩ template =
          "$title 100%" := by
  have hdone : ∃ removed, (cleanSlateBlocking plainBeets releaseSettings
      albumJob searchedWorld).2 =
        .ok (removed, [("release", "$title 100%")]) := ⟨_, rfl⟩
  obtain ⟨removed, hdone⟩ := hdone
  exact ⟨removed, _, hdone, (preserved_values_reach_the_import letterGrammar
    ⟨fun _ => [], fun _ => []⟩).2 plainBeets releaseSettings albumJob
    searchedWorld removed _ shippedConfig hdone "release" "$title 100%"
    List.mem_cons_self⟩

end Beetkeeper
