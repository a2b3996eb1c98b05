/-
Path texts as Python's `posixpath` and `pathlib` read them.  A path is its
leading slashes and its components: the empty ones and `.` say nothing, and
`..` is one of them until the text is normalised.
-/
import Mathlib.Data.List.DropRight
import Beetkeeper.LexicalPath
import Beetkeeper.Utf8

universe u

/-- The letters that paths are written in. -/
class PathAlphabet (C : Type u) where
  slash : C
  dot : C
  dot_ne_slash : dot ≠ slash

namespace PosixPath

open LexicalPath PathAlphabet

variable {C : Type u} [PathAlphabet C]

/-- A component that says something. -/
def IsPart (text : List C) : Prop :=
  text ≠ [] ∧ text ≠ [dot] ∧ slash ∉ text

abbrev Component (C : Type u) [PathAlphabet C] := {text : List C // IsPart text}

/-- A component that can name a directory entry. -/
abbrev Name (C : Type u) [PathAlphabet C] :=
  {part : Component C // part.val ≠ [dot, dot]}

/-- `"/".join(parts)`. -/
def join (parts : List (Component C)) : List C :=
  [slash].intercalate (parts.map Subtype.val)

/-- The slashes that begin a path: POSIX leaves open what two of them mean,
three and more are one. -/
inductive Root where
  | relative
  | single
  | double
deriving Repr, DecidableEq

def Root.text : Root → List C
  | .relative => []
  | .single => [slash]
  | .double => [slash, slash]

/-- What pathlib keeps of a path. -/
@[ext] structure PurePath (C : Type u) [PathAlphabet C] where
  root : Root
  parts : List (Component C)
deriving DecidableEq

namespace PurePath

/-- Some more components below a path. -/
def extend (path : PurePath C) (parts : List (Component C)) : PurePath C :=
  { path with parts := path.parts ++ parts }

def parent (path : PurePath C) : PurePath C :=
  { path with parts := path.parts.dropLast }

def name (path : PurePath C) : List C :=
  match path.parts.getLast? with
  | none => []
  | some part => part.val

/-- `is_relative_to`. -/
def IsRelativeTo (path base : PurePath C) : Prop :=
  base.root = path.root ∧ base.parts <+: path.parts

@[simp] theorem extend_root (path : PurePath C) (parts : List (Component C)) :
    (path.extend parts).root = path.root := rfl

@[simp] theorem extend_parts (path : PurePath C) (parts : List (Component C)) :
    (path.extend parts).parts = path.parts ++ parts := rfl

@[simp] theorem extend_nil (path : PurePath C) : path.extend [] = path := by
  simp [extend]

theorem extend_append (path : PurePath C) (parts more : List (Component C)) :
    path.extend (parts ++ more) = (path.extend parts).extend more := by
  simp [extend]

theorem extend_left_inj {path other : PurePath C} {parts : List (Component C)} :
    path.extend parts = other.extend parts ↔ path = other := by
  simp [extend, PurePath.ext_iff]

theorem extend_right_inj {path : PurePath C} {parts more : List (Component C)} :
    path.extend parts = path.extend more ↔ parts = more := by
  simp [extend]

theorem isRelativeTo_iff {path base : PurePath C} :
    path.IsRelativeTo base ↔ ∃ parts, path = base.extend parts := by
  constructor
  · rintro ⟨hroot, parts, hparts⟩
    exact ⟨parts, PurePath.ext hroot.symm hparts.symm⟩
  · rintro ⟨parts, rfl⟩
    exact ⟨rfl, List.prefix_append _ _⟩

end PurePath

variable [DecidableEq C]

instance (text : List C) : Decidable (IsPart text) :=
  inferInstanceAs (Decidable (text ≠ [] ∧ text ≠ [dot] ∧ slash ∉ text))

instance (path base : PurePath C) : Decidable (path.IsRelativeTo base) :=
  inferInstanceAs
    (Decidable (base.root = path.root ∧ base.parts <+: path.parts))

def part? (text : List C) : Option (Component C) :=
  if hpart : IsPart text then some ⟨text, hpart⟩ else none

/-- The components of a text, wherever it begins. -/
def components (text : List C) : List (Component C) :=
  (text.splitOn slash).filterMap part?

/-- `posixpath.splitroot`, without the drive. -/
def splitroot (text : List C) : Root × List C :=
  if text[0]? ≠ some slash then (.relative, text)
  else if text[1]? ≠ some slash ∨ text[2]? = some slash then
    (.single, text.drop 1)
  else (.double, text.drop 2)

def segment (part : Component C) : Segment (Name C) :=
  if hup : part.val = [dot, dot] then .up else .name ⟨part, hup⟩

/-- One turn of `posixpath.normpath`'s loop. -/
def normStep (root : Root) (done : List (Component C)) (comp : Component C) :
    List (Component C) :=
  if comp.val ≠ [dot, dot] ∨ (root = .relative ∧ done = []) ∨
      done.getLast?.map Subtype.val = some [dot, dot] then
    done ++ [comp]
  else done.dropLast

namespace PurePath

/-- `PurePath(text)`. -/
def ofText (text : List C) : PurePath C where
  root := (splitroot text).1
  parts := components (splitroot text).2

/-- `str(path)`. -/
def text (path : PurePath C) : List C :=
  let shown := path.root.text ++ join path.parts
  if shown = [] then [dot] else shown

/-- `path / text`: an absolute text replaces the path. -/
def joinpath (path : PurePath C) (text : List C) : PurePath C :=
  if (splitroot text).1 = .relative then path.extend (components text)
  else ofText text

def normalized (path : PurePath C) : PurePath C :=
  { path with parts := path.parts.foldl (normStep path.root) [] }

def segments (path : PurePath C) : RawPath (Name C) :=
  path.parts.map segment

/-- Where an absolute path leads lexically. -/
def location (path : PurePath C) : Location (Name C) :=
  LexicalPath.normpath path.segments

end PurePath

/-- `posixpath.normpath`, which splits a text as pathlib does. -/
def normpath (text : List C) : List C :=
  (PurePath.ofText text).normalized.text

section Components

theorem part?_val (part : Component C) : part? part.val = some part :=
  dif_pos part.property

@[simp] theorem components_nil : components ([] : List C) = [] := by
  simp [components, part?, IsPart]

/-- Components on either side of a slash do not meet. -/
theorem components_append_slash (before after : List C) :
    components (before ++ slash :: after) =
      components before ++ components after := by
  rw [components, List.splitOn_append_cons_self, List.filterMap_append]
  rfl

@[simp] theorem components_slash (after : List C) :
    components (slash :: after) = components after := by
  have happend := components_append_slash [] after
  rwa [components_nil] at happend

theorem components_of_notMem {text : List C} (htext : slash ∉ text) :
    components text = (part? text).toList := by
  rw [components, List.splitOn_eq_singleton htext]
  cases hpart : part? text <;> simp [hpart]

theorem components_val (part : Component C) : components part.val = [part] := by
  rw [components_of_notMem part.property.2.2, part?_val]
  rfl

@[simp] theorem components_join (parts : List (Component C)) :
    components (join parts) = parts := by
  cases parts with
  | nil => exact components_nil
  | cons part rest =>
      have hpieces : ∀ piece ∈ (part :: rest).map Subtype.val,
          slash ∉ piece := by
        intro piece hpiece
        obtain ⟨one, _, rfl⟩ := List.mem_map.mp hpiece
        exact one.property.2.2
      rw [components, join, List.splitOn_intercalate slash hpieces (by simp),
        List.filterMap_map]
      have hback : part? ∘ Subtype.val = @some (Component C) :=
        funext part?_val
      rw [hback, List.filterMap_some]

theorem val_of_mem_components {text : List C} (htext : slash ∉ text)
    {part : Component C} (hpart : part ∈ components text) :
    part.val = text := by
  rw [components_of_notMem htext, Option.mem_toList, part?] at hpart
  obtain ⟨_, hsome⟩ := Option.dite_none_right_eq_some.mp hpart
  exact congrArg Subtype.val (Option.some.inj hsome).symm

@[simp] theorem components_dot : components [(dot : C)] = [] := by
  rw [components_of_notMem (by simpa using dot_ne_slash.symm)]
  simp [part?, IsPart]

omit [DecidableEq C] in
/-- Two pieces make a component that says something. -/
theorem isPart_append {first second : List C} (hfirst : first ≠ [])
    (hsecond : second ≠ []) (hslash : slash ∉ first)
    (hslash' : slash ∉ second) : IsPart (first ++ second) := by
  refine ⟨by simp [hfirst], fun hdot => ?_, by simp [hslash, hslash']⟩
  rcases List.append_eq_singleton_iff.mp hdot with ⟨hnil, _⟩ | ⟨_, hnil⟩
  · exact hfirst hnil
  · exact hsecond hnil

/-- The text goes on at the end of a component. -/
def Boundary (rest : List C) : Prop := ∀ first ∈ rest.head?, first = slash

theorem components_append_of_boundary {rest : List C} (hrest : Boundary rest)
    (before : List C) :
    components (before ++ rest) = components before ++ components rest := by
  cases rest with
  | nil => simp
  | cons first after =>
      obtain rfl : first = slash := hrest first rfl
      rw [components_append_slash, components_slash]

/-- One text is another, or goes on after it with a slash. -/
def Continues (text base : List C) : Prop :=
  text = base ∨ base ++ [slash] <+: text

instance (text base : List C) : Decidable (Continues text base) :=
  inferInstanceAs (Decidable (text = base ∨ base ++ [slash] <+: text))

omit [DecidableEq C] in
theorem continues_iff {text base : List C} :
    Continues text base ↔ ∃ rest, Boundary rest ∧ text = base ++ rest := by
  constructor
  · rintro (rfl | ⟨after, rfl⟩)
    · exact ⟨[], by simp [Boundary], by simp⟩
    · exact ⟨slash :: after, by simp [Boundary], by simp⟩
  · rintro ⟨rest, hrest, rfl⟩
    cases rest with
    | nil => exact Or.inl (List.append_nil base)
    | cons first after =>
        obtain rfl : first = slash := hrest first rfl
        exact Or.inr ⟨after, by simp⟩

omit [DecidableEq C] in
/-- A text that goes on inside a component does not continue another. -/
theorem not_continues {base piece rest : List C} (hpiece : slash ∉ piece)
    (hne : piece ≠ []) : ¬ Continues (base ++ (piece ++ rest)) base := by
  intro htext
  obtain ⟨after, hafter, heq⟩ := continues_iff.mp htext
  obtain ⟨first, more, rfl⟩ := List.exists_cons_of_ne_nil hne
  rw [← List.append_cancel_left heq] at hafter
  have hfirst : first = slash := hafter first rfl
  exact hpiece (by simp [hfirst])

omit [DecidableEq C] in
theorem continues_concat_iff {base piece rest : List C} {c : C}
    (hpiece : slash ∉ piece) (hne : piece ≠ []) (hrest : Boundary rest) :
    Continues (base ++ (piece ++ rest)) (base ++ [c]) ↔ piece = [c] := by
  constructor
  · intro htext
    obtain ⟨first, more, rfl⟩ := List.exists_cons_of_ne_nil hne
    obtain ⟨after, hafter, heq⟩ := continues_iff.mp htext
    rw [List.append_assoc] at heq
    obtain ⟨rfl, rfl⟩ := List.cons.inj (List.append_cancel_left heq)
    cases more with
    | nil => rfl
    | cons second tail =>
        have hsecond : second = slash := hafter second rfl
        exact absurd (by simp [hsecond]) hpiece
  · rintro rfl
    exact continues_iff.mpr ⟨rest, hrest, by simp⟩

theorem components_prefix_of_continues {text base : List C}
    (htext : Continues text base) : components base <+: components text := by
  obtain ⟨rest, hrest, rfl⟩ := continues_iff.mp htext
  rw [components_append_of_boundary hrest]
  exact List.prefix_append _ _

omit [DecidableEq C] in
theorem head?_of_continues {text base : List C} (htext : Continues text base)
    (hbase : base.head? = some slash) : text.head? = some slash := by
  obtain ⟨rest, _, rfl⟩ := continues_iff.mp htext
  rw [List.head?_append, hbase]
  rfl

/-- Up to its next slash a text continues the component it stands in. -/
theorem exists_boundary (text : List C) :
    ∃ piece rest, text = piece ++ rest ∧ slash ∉ piece ∧ Boundary rest := by
  refine ⟨text.takeWhile (fun c => decide (c ≠ slash)),
    text.dropWhile (fun c => decide (c ≠ slash)),
    List.takeWhile_append_dropWhile.symm, ?_, ?_⟩
  · intro hmem
    simpa using List.mem_takeWhile_imp hmem
  · intro first hfirst
    have hhead := List.head?_dropWhile_not (fun c => decide (c ≠ slash)) text
    rw [Option.mem_def] at hfirst
    rw [hfirst] at hhead
    simpa using hhead

/-- After a text its last piece goes on. -/
theorem exists_lastPiece (text : List C) :
    ∃ before last, slash ∉ last ∧
      (last = [] → text = [] ∨ text.getLast? = some slash) ∧
      ∀ rest, components (text ++ rest) =
        before ++ components (last ++ rest) := by
  let inPiece : C → Bool := fun c => decide (c ≠ slash)
  rcases List.eq_nil_or_concat (text.rdropWhile inPiece) with
    hnone | ⟨start, final, hstart⟩
  · refine ⟨[], text, ?_, Or.inl, fun rest => rfl⟩
    intro hmem
    have hpiece := List.rdropWhile_eq_nil_iff.mp hnone slash hmem
    simp [inPiece] at hpiece
  · rw [List.concat_eq_append] at hstart
    have hfinal : final = slash := by
      have hne : text.rdropWhile inPiece ≠ [] := by simp [hstart]
      have hlast := List.rdropWhile_last_not inPiece text hne
      simp only [hstart, List.getLast_concat] at hlast
      simpa [inPiece] using hlast
    have htext : text = start ++ slash :: text.rtakeWhile inPiece := by
      conv_lhs => rw [← @List.rdropWhile_append_rtakeWhile _ inPiece text]
      rw [hstart, hfinal, List.append_assoc]
      rfl
    refine ⟨components start, text.rtakeWhile inPiece, ?_, ?_, ?_⟩
    · intro hmem
      have hpiece := List.mem_rtakeWhile_imp hmem
      simp [inPiece] at hpiece
    · intro hempty
      right
      rw [htext, hempty, List.getLast?_concat]
    · intro rest
      conv_lhs => rw [htext]
      rw [List.append_assoc, List.cons_append, components_append_slash]

/-- A text ends inside a component: `last` is what it has of it, and `piece`
completes it to `whole`. -/
structure EndsInside (text piece rest : List C)
    (before : List (Component C)) (last : List C) (whole : Component C) :
    Prop where
  last_ne : last ≠ []
  slash_notMem : slash ∉ last
  whole_val : whole.val = last ++ piece
  components_start : components text = before ++ components last
  components_piece : components (text ++ piece) = before ++ [whole]
  components_rest : components (text ++ (piece ++ rest)) =
    before ++ whole :: components rest

theorem exists_endsInside {text piece rest : List C} (hne : text ≠ [])
    (hslash : text.getLast? ≠ some slash) (hpiece : slash ∉ piece)
    (hpieceNe : piece ≠ []) (hrest : Boundary rest) :
    ∃ before last whole, EndsInside text piece rest before last whole := by
  obtain ⟨before, last, hlast, hempty, hsplit⟩ := exists_lastPiece text
  have hlastNe : last ≠ [] := by
    intro hnone
    rcases hempty hnone with hnil | hend
    · exact hne hnil
    · exact hslash hend
  let whole : Component C :=
    ⟨last ++ piece, isPart_append hlastNe hpieceNe hlast hpiece⟩
  have hwhole : components (last ++ piece) = [whole] := components_val whole
  refine ⟨before, last, whole, hlastNe, hlast, rfl, ?_, ?_, ?_⟩
  · simpa using hsplit []
  · rw [hsplit, hwhole]
  · rw [hsplit, ← List.append_assoc last, components_append_of_boundary hrest,
      hwhole]
    rfl

/-- The piece alone is another component, or none. -/
theorem EndsInside.whole_notMem {text piece rest : List C}
    {before : List (Component C)} {last : List C} {whole : Component C}
    (hinside : EndsInside text piece rest before last whole)
    (hpiece : slash ∉ piece) : whole ∉ components piece := by
  intro hmem
  have hval := val_of_mem_components hpiece hmem
  rw [hinside.whole_val, List.append_left_eq_self] at hval
  exact hinside.last_ne hval

end Components

section Roots

theorem splitroot_eq_relative_iff {text : List C} :
    (splitroot text).1 = .relative ↔ text.head? ≠ some slash := by
  rw [splitroot, List.head?_eq_getElem?]
  split
  · simpa
  · rename_i hfirst
    split <;> simpa using hfirst

/-- The slashes that begin a text hold no component. -/
theorem components_splitroot (text : List C) :
    components (splitroot text).2 = components text := by
  rw [splitroot]
  split
  · rfl
  · rename_i hfirst
    rw [not_not] at hfirst
    obtain ⟨after, rfl⟩ : ∃ after, text = slash :: after := by
      cases text with
      | nil => simp at hfirst
      | cons first after => exact ⟨after, by simpa using hfirst⟩
    split
    · simp
    · rename_i hsecond
      obtain ⟨more, rfl⟩ : ∃ more, after = slash :: more := by
        cases after with
        | nil => simp at hsecond
        | cons second more =>
            simp only [not_or, not_not] at hsecond
            exact ⟨more, by simpa using hsecond.1⟩
      simp

/-- Whatever follows a letter that is no slash, the root stays. -/
theorem splitroot_append_fst {text : List C} (hother : ∃ c ∈ text, c ≠ slash)
    (rest : List C) :
    (splitroot (text ++ rest)).1 = (splitroot text).1 := by
  cases text with
  | nil => simp at hother
  | cons first after =>
      by_cases hfirst : first = slash
      · subst hfirst
        cases after with
        | nil => simp at hother
        | cons second more =>
            by_cases hsecond : second = slash
            · subst hsecond
              cases more with
              | nil => simp at hother
              | cons third tail =>
                  simp only [splitroot, List.cons_append,
                    List.getElem?_cons_zero, List.getElem?_cons_succ]
                  split
                  · rfl
                  · split <;> rfl
            · simp [splitroot, hsecond]
      · simp [splitroot, hfirst]

/-- A root and what does not begin with a slash. -/
theorem splitroot_text_append {body : List C} (hbody : body.head? ≠ some slash)
    (root : Root) : splitroot (root.text ++ body) = (root, body) := by
  rw [List.head?_eq_getElem?] at hbody
  cases root with
  | relative => simp [splitroot, Root.text, hbody]
  | single => simp [splitroot, Root.text, hbody]
  | double => simp [splitroot, Root.text, hbody]

end Roots

section Texts

omit [DecidableEq C] in
theorem head?_join_ne_slash (parts : List (Component C)) :
    (join parts).head? ≠ some slash := by
  cases parts with
  | nil => simp [join]
  | cons part rest =>
      obtain ⟨first, after, hval⟩ :=
        List.exists_cons_of_ne_nil part.property.1
      have hfirst : first ≠ slash := by
        rintro rfl
        exact part.property.2.2 (by simp [hval])
      cases rest with
      | nil => simp [join, hval, hfirst]
      | cons second more => simp [join, hval, hfirst]

namespace PurePath

theorem parts_ofText (text : List C) :
    (ofText text).parts = components text :=
  components_splitroot text

/-- Where a text goes on with a new component, its path does. -/
theorem ofText_append_of_boundary {start rest : List C}
    (hother : ∃ c ∈ start, c ≠ slash) (hrest : Boundary rest) :
    ofText (start ++ rest) = (ofText start).extend (components rest) := by
  ext1
  · exact splitroot_append_fst hother rest
  · rw [extend_parts, parts_ofText, parts_ofText,
      components_append_of_boundary hrest]

/-- A path is read back from its text. -/
theorem ofText_text (path : PurePath C) : ofText path.text = path := by
  rw [text]
  by_cases hshown : path.root.text ++ join path.parts = []
  · obtain ⟨hroot, hjoin⟩ := List.append_eq_nil_iff.mp hshown
    have hrelative : path.root = .relative := by
      cases hpath : path.root with
      | relative => rfl
      | single => simp [hpath, Root.text] at hroot
      | double => simp [hpath, Root.text] at hroot
    have hparts : path.parts = [] := by
      rw [← components_join path.parts, hjoin, components_nil]
    rw [if_pos hshown]
    ext1
    · rw [hrelative]
      apply splitroot_eq_relative_iff.mpr
      simpa using dot_ne_slash
    · rw [parts_ofText, hparts, components_dot]
  · rw [if_neg hshown, ofText,
      splitroot_text_append (head?_join_ne_slash path.parts)]
    ext1
    · rfl
    · exact components_join path.parts

theorem components_text (path : PurePath C) :
    components path.text = path.parts := by
  rw [← parts_ofText, ofText_text]

theorem root_eq_relative_iff {path : PurePath C} :
    path.root = .relative ↔ path.text.head? ≠ some slash := by
  rw [← splitroot_eq_relative_iff]
  conv_lhs => rw [← ofText_text path]
  rfl

end PurePath

end Texts

section Slashes

/-- `text.rstrip("/")`. -/
def rstripSlash (text : List C) : List C :=
  text.rdropWhile fun c => decide (c = slash)

/-- `text.lstrip("/")`. -/
def lstripSlash (text : List C) : List C :=
  text.dropWhile fun c => decide (c = slash)

theorem components_of_slashes {text : List C} (htext : ∀ c ∈ text, c = slash) :
    components text = [] := by
  induction text with
  | nil => exact components_nil
  | cons c rest ih =>
      rw [htext c List.mem_cons_self, components_slash]
      exact ih fun other hother => htext other (List.mem_cons_of_mem c hother)

theorem exists_slashes (text : List C) :
    ∃ slashes, text = rstripSlash text ++ slashes ∧
      ∀ c ∈ slashes, c = slash := by
  refine ⟨_, List.rdropWhile_append_rtakeWhile.symm, ?_⟩
  intro c hc
  simpa using List.mem_rtakeWhile_imp hc

theorem exists_ne_slash {text : List C} (hne : rstripSlash text ≠ []) :
    ∃ c ∈ rstripSlash text, c ≠ slash := by
  refine ⟨_, List.getLast_mem hne, fun hslash => ?_⟩
  exact List.rdropWhile_last_not _ text hne (decide_eq_true hslash)

theorem getLast?_rstripSlash (text : List C) :
    (rstripSlash text).getLast? ≠ some slash := by
  intro hlast
  obtain ⟨hne, hslash⟩ := List.mem_getLast?_eq_getLast hlast
  exact List.rdropWhile_last_not _ text hne (decide_eq_true hslash.symm)

/-- Slashes at the end of a path say nothing, if they are not all of it. -/
theorem ofText_rstripSlash {text : List C} (hne : rstripSlash text ≠ []) :
    PurePath.ofText (rstripSlash text) = PurePath.ofText text := by
  obtain ⟨slashes, htext, hslashes⟩ := exists_slashes text
  have hboundary : Boundary slashes := by
    intro first hfirst
    exact hslashes first (List.mem_of_mem_head? hfirst)
  conv_rhs => rw [htext]
  rw [PurePath.ofText_append_of_boundary (exists_ne_slash hne) hboundary,
    components_of_slashes hslashes, PurePath.extend_nil]

theorem components_lstripSlash (text : List C) :
    components (lstripSlash text) = components text := by
  induction text with
  | nil => rfl
  | cons c rest ih =>
      by_cases hc : c = slash
      · rw [hc, components_slash, ← ih]
        simp [lstripSlash]
      · simp [lstripSlash, hc]

/-- Without slashes at its beginning a text is joined on. -/
theorem joinpath_lstripSlash (path : PurePath C) (text : List C) :
    path.joinpath (lstripSlash text) = path.extend (components text) := by
  have hrelative : (splitroot (lstripSlash text)).1 = .relative := by
    rw [splitroot_eq_relative_iff]
    intro hhead
    have hother := List.head?_dropWhile_not
      (fun c => decide (c = slash)) text
    rw [lstripSlash] at hhead
    rw [hhead] at hother
    simp at hother
  rw [PurePath.joinpath, if_pos hrelative, components_lstripSlash]

end Slashes

section Locations

theorem segment_of_eq {part : Component C} (hup : part.val = [dot, dot]) :
    segment part = .up := dif_pos hup

theorem segment_val (n : Name C) : segment n.val = .name n :=
  dif_neg n.property

/-- The names so far never end in `..`, so the loop of `normpath` walks as a
lexical normalisation does. -/
theorem normStep_map_val {root : Root} (hroot : root ≠ .relative)
    (done : Location (Name C)) (part : Component C) :
    normStep root (done.map Subtype.val) part =
      (push done (segment part)).map Subtype.val := by
  have hlast : (done.map Subtype.val).getLast?.map Subtype.val ≠
      some [dot, dot] := by
    rw [List.getLast?_map, Option.map_map]
    intro hup
    obtain ⟨n, _, hn⟩ := Option.map_eq_some_iff.mp hup
    exact n.property hn
  by_cases hup : part.val = [dot, dot]
  · rw [normStep, if_neg, segment_of_eq hup, push, List.map_dropLast]
    rintro (hname | ⟨hrelative, _⟩ | hdots)
    · exact hname hup
    · exact hroot hrelative
    · exact hlast hdots
  · rw [normStep, if_pos (Or.inl hup)]
    simp [segment, hup, push]

namespace PurePath

theorem parts_normalized {path : PurePath C} (hroot : path.root ≠ .relative) :
    path.normalized.parts = path.location.map Subtype.val := by
  have hwalk : ∀ (parts : List (Component C)) (done : Location (Name C)),
      parts.foldl (normStep path.root) (done.map Subtype.val) =
        ((parts.map segment).foldl push done).map Subtype.val := by
    intro parts
    induction parts with
    | nil => intro done; rfl
    | cons part rest ih =>
        intro done
        rw [List.foldl_cons, normStep_map_val hroot, ih]
        rfl
  exact hwalk path.parts []

/-- Normalised texts that continue each other are paths that do. -/
theorem location_prefix_of_continues {base path : PurePath C}
    (hbase : base.root ≠ .relative)
    (htext : Continues path.normalized.text base.normalized.text) :
    path.root ≠ .relative ∧ base.location <+: path.location := by
  have hpath : path.root ≠ .relative := by
    intro hrelative
    have hhead : path.normalized.text.head? ≠ some slash :=
      root_eq_relative_iff.mp hrelative
    apply hhead
    apply head?_of_continues htext
    by_contra hother
    have hnormal : base.normalized.root = .relative :=
      root_eq_relative_iff.mpr hother
    exact hbase hnormal
  refine ⟨hpath, ?_⟩
  have hparts := components_prefix_of_continues htext
  rw [components_text, components_text, parts_normalized hpath,
    parts_normalized hbase] at hparts
  exact (List.prefix_map_iff_of_injective Subtype.val_injective).mp hparts

theorem segments_extend (path : PurePath C) (parts : List (Component C)) :
    (path.extend parts).segments = path.segments ++ parts.map segment :=
  List.map_append

theorem location_extend_name (path : PurePath C) (n : Name C) :
    (path.extend [n.val]).location = path.location ++ [n] := by
  rw [location, segments_extend, List.map_singleton, segment_val]
  simp [LexicalPath.normpath, location, push]

/-- What is strictly below a folder has its parent in it. -/
theorem prefix_location_parent {base : Location (Name C)} {path : PurePath C}
    (hbelow : base <+: path.location) (hstrict : path.location ≠ base) :
    base <+: path.parent.location := by
  rcases List.eq_nil_or_concat path.parts with hnone | ⟨init, last, hparts⟩
  · have hroot : path.location = [] := by
      simp [location, segments, hnone, LexicalPath.normpath]
    rw [hroot] at hbelow hstrict
    exact absurd (List.prefix_nil.mp hbelow).symm hstrict
  · rw [List.concat_eq_append] at hparts
    have hstep : path.location = push path.parent.location (segment last) := by
      simp [location, segments, parent, hparts, LexicalPath.normpath]
    by_cases hup : last.val = [dot, dot]
    · rw [hstep, segment_of_eq hup, push] at hbelow
      exact hbelow.trans (List.dropLast_prefix _)
    · rw [hstep, segment, dif_neg hup, push] at hbelow hstrict
      rcases List.prefix_concat_iff.mp hbelow with heq | hparent
      · exact absurd heq.symm hstrict
      · exact hparent

theorem location_normalized {path : PurePath C}
    (hroot : path.root ≠ .relative) :
    path.normalized.location = path.location := by
  have hsegments : path.normalized.segments = spell path.location := by
    rw [segments, parts_normalized hroot, List.map_map, spell]
    exact List.map_congr_left fun n _ => segment_val n
  rw [location, hsegments, normpath_spell]

/-- Beside the root directory itself a path has one normalised text. -/
theorem normalized_text_eq_of_location_eq {base path : PurePath C}
    (hbase : base.root ≠ .relative) (hinner : base.location ≠ [])
    (htext : Continues path.normalized.text base.normalized.text)
    (hsame : path.location = base.location) :
    path.normalized.text = base.normalized.text := by
  obtain ⟨hpath, _⟩ := location_prefix_of_continues hbase htext
  obtain ⟨rest, hrest, hcontinued⟩ := continues_iff.mp htext
  have hother : ∃ c ∈ base.normalized.text, c ≠ slash := by
    by_contra hslashes
    have hall : ∀ c ∈ base.normalized.text, c = slash := by
      intro c hc
      by_contra hc'
      exact hslashes ⟨c, hc, hc'⟩
    have hparts := components_of_slashes hall
    rw [components_text, parts_normalized hbase, List.map_eq_nil_iff] at hparts
    exact hinner hparts
  have hextends : path.normalized =
      base.normalized.extend (components rest) := by
    rw [← ofText_text path.normalized, hcontinued,
      ofText_append_of_boundary hother hrest, ofText_text]
  have hparts := congrArg parts hextends
  rw [extend_parts, parts_normalized hpath, parts_normalized hbase, hsame,
    List.self_eq_append_right] at hparts
  rw [hextends, hparts, extend_nil]

/-- The parent of a path whose normalised text goes on after another's. -/
theorem location_prefix_parent_of_continues {base path : PurePath C}
    (hbase : base.root ≠ .relative)
    (htext : Continues path.normalized.text base.normalized.text)
    (hother : path.normalized.text ≠ base.normalized.text) :
    base.location <+: path.parent.location := by
  by_cases hinner : base.location = []
  · rw [hinner]
    exact List.nil_prefix
  · apply prefix_location_parent
      (location_prefix_of_continues hbase htext).2
    intro hsame
    exact hother
      (normalized_text_eq_of_location_eq hbase hinner htext hsame)

end PurePath

end Locations

instance : PathAlphabet Utf8.CodePoint where
  slash := .scalar '/'
  dot := .scalar '.'
  dot_ne_slash := by decide

end PosixPath
