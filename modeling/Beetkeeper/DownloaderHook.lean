/-
The paths a downloader reports, mapped onto the directory this program sees
them in.  The mapping compares texts; what it is for concerns components.
-/
import Beetkeeper.PosixPath
import Beetkeeper.PyValue
import Beetkeeper.UserConfig

namespace Beetkeeper

open PosixPath PathAlphabet Utf8

/-- `DownloaderSearchResult`. -/
structure DownloaderSearchResult where
  found : Bool
  statusCode : Option Int := none
  sourcePath : Option Text := none
  detail : String := ""
deriving Repr, DecidableEq

structure DownloaderHook where
  config : DownloaderHookConfSection
  downloadsPath : PurePath CodePoint

namespace DownloaderHook

/-- The `replace_downloader_paths_prefix` setting. -/
def configured (hook : DownloaderHook) : Text :=
  Utf8.ofString hook.config.replaceDownloaderPathsPrefix

/-- The setting without the slashes at its end. -/
def stem (hook : DownloaderHook) : Text := rstripSlash hook.configured

def toLocalPath (hook : DownloaderHook) (downloaderPath : Text) :
    PurePath CodePoint :=
  if hook.stem = [] ∨ ¬ hook.stem <+: downloaderPath then
    .ofText downloaderPath
  else
    hook.downloadsPath.joinpath
      (lstripSlash (downloaderPath.drop hook.stem.length))

/-- A hook that is not enabled. -/
def disabled (configured downloadsPath : String) : DownloaderHook where
  config := ⟨none, none, [], none, configured, none⟩
  downloadsPath := .ofText (Utf8.ofString downloadsPath)

example : ((disabled "/data/done/" "/downloads").toLocalPath
    (Utf8.ofString "/data/done//Album")).text =
      Utf8.ofString "/downloads/Album" := by decide

/-- `_parse`, of the document the API answered. -/
def parse (hook : DownloaderHook) (rawJson : PyValue) (statusCode : Int) :
    DownloaderSearchResult :=
  let results := match rawJson with
    | .sequence values => values
    | other => [other]
  let key := hook.config.filepathJsonKey.getD ""
  let notFound (detail : String) : DownloaderSearchResult :=
    { found := false, statusCode := some statusCode, detail := detail }
  match results with
  | [] => notFound "No search results."
  | topResult :: _ =>
      let field? := match topResult with
        | .mapping entries => entries.lookup key
        | _ => none
      match field? with
      | none => notFound ("Search results carry no `" ++ key ++ "` field.")
      | some (.str (first :: rest)) =>
          { found := true
            statusCode := some statusCode
            sourcePath := some (hook.toLocalPath (first :: rest)).text }
      | some _ => notFound ("Search result `" ++ key ++ "` is not a path.")

/-- The path a result carries reads back as the local one, of a path that was
reported. -/
theorem ofText_of_parse {hook : DownloaderHook} {rawJson : PyValue}
    {statusCode : Int} {source : Text}
    (hfound : (hook.parse rawJson statusCode).sourcePath = some source) :
    ∃ downloaderPath, downloaderPath ≠ [] ∧
      PurePath.ofText source = hook.toLocalPath downloaderPath := by
  simp only [parse] at hfound
  split at hfound
  · cases hfound
  · split at hfound
    · cases hfound
    · rename_i first rest _
      refine ⟨first :: rest, List.cons_ne_nil first rest, ?_⟩
      rw [← Option.some.inj hfound, PurePath.ofText_text]
    · cases hfound

/-- What the mapping is for: below the configured prefix, component by
component, a path is the same path below `downloads_path`; any other path
stays as it is. -/
def intended (hook : DownloaderHook) (downloaderPath : Text) :
    PurePath CodePoint :=
  let base := PurePath.ofText hook.configured
  let reported := PurePath.ofText downloaderPath
  if hook.configured ≠ [] ∧ reported.IsRelativeTo base then
    hook.downloadsPath.extend (reported.parts.drop base.parts.length)
  else reported

/-- The texts show what the components say: a path that begins with the
prefix's text goes on after it with a new component, and one that does not is
not below a configured prefix.  The result is the same without that if the
prefix is `downloads_path`, or becomes it by the dot the path goes on with. -/
def TextsAgree (hook : DownloaderHook) (downloaderPath : Text) : Prop :=
  let base := PurePath.ofText hook.configured
  let below := (PurePath.ofText downloaderPath).IsRelativeTo base
  if hook.stem ≠ [] ∧ hook.stem <+: downloaderPath then
    Continues downloaderPath hook.stem ∨
      (¬ below ∧ Continues downloaderPath (hook.stem ++ [dot]) ∧
        hook.downloadsPath = .ofText (hook.stem ++ [dot]))
  else hook.configured = [] ∨ ¬ below ∨ hook.downloadsPath = base

section Branches

variable {hook : DownloaderHook}

theorem toLocalPath_append (hstem : hook.stem ≠ []) (rest : Text) :
    hook.toLocalPath (hook.stem ++ rest) =
      hook.downloadsPath.extend (components rest) := by
  rw [toLocalPath, if_neg (by simp [hstem]), List.drop_left,
    joinpath_lstripSlash]

theorem configured_ne_nil (hstem : hook.stem ≠ []) : hook.configured ≠ [] := by
  intro hnone
  rw [stem, hnone] at hstem
  exact hstem rfl

theorem ofText_stem (hstem : hook.stem ≠ []) :
    PurePath.ofText hook.configured = PurePath.ofText hook.stem :=
  (ofText_rstripSlash hstem).symm

theorem intended_of_extend {path : Text} {parts : List (Component CodePoint)}
    (hconfigured : hook.configured ≠ [])
    (hpath : PurePath.ofText path =
      (PurePath.ofText hook.configured).extend parts) :
    hook.intended path = hook.downloadsPath.extend parts := by
  have hbelow := PurePath.isRelativeTo_iff.mpr ⟨parts, hpath⟩
  rw [intended, if_pos ⟨hconfigured, hbelow⟩, hpath, PurePath.extend_parts,
    List.drop_left]

/-- A new component begins after the prefix. -/
theorem toLocalPath_of_boundary (hstem : hook.stem ≠ []) {rest : Text}
    (hrest : Boundary rest) :
    hook.toLocalPath (hook.stem ++ rest) =
      hook.intended (hook.stem ++ rest) := by
  have hpath := PurePath.ofText_append_of_boundary
    (exists_ne_slash hstem) hrest
  rw [← stem, ← ofText_stem hstem] at hpath
  rw [toLocalPath_append hstem,
    intended_of_extend (configured_ne_nil hstem) hpath]

section Inside

variable {piece rest : Text} {before : List (Component CodePoint)}
  {last : Text} {whole : Component CodePoint}

/-- The prefix ends in a dot that says nothing, and the path below it in a
hidden name. -/
theorem toLocalPath_ne_of_dot (hstem : hook.stem ≠ [])
    (hinside : EndsInside hook.stem piece rest before last whole)
    (hpiece : slash ∉ piece) (hrest : Boundary rest) (hdot : last = [dot]) :
    let path := hook.stem ++ (piece ++ rest)
    hook.toLocalPath path ≠ hook.intended path ∧
      (PurePath.ofText path).IsRelativeTo (.ofText hook.configured) := by
  have hbelow : PurePath.ofText (hook.stem ++ (piece ++ rest)) =
      (PurePath.ofText hook.configured).extend
        (whole :: components rest) := by
    rw [ofText_stem hstem]
    ext1
    · exact splitroot_append_fst (exists_ne_slash hstem) _
    · rw [PurePath.extend_parts, PurePath.parts_ofText,
        PurePath.parts_ofText, hinside.components_rest,
        hinside.components_start, hdot, components_dot, List.append_nil]
  refine ⟨?_, PurePath.isRelativeTo_iff.mpr ⟨_, hbelow⟩⟩
  rw [toLocalPath_append hstem, components_append_of_boundary hrest,
    intended_of_extend (configured_ne_nil hstem) hbelow, ne_eq,
    PurePath.extend_right_inj]
  intro hsame
  have hwhole : components piece = [whole] := List.append_cancel_right hsame
  exact hinside.whole_notMem hpiece (by simp [hwhole])

/-- The prefix ends in a name, and the path goes on with a longer one. -/
theorem not_below_of_name (hstem : hook.stem ≠ [])
    (hinside : EndsInside hook.stem piece rest before last whole)
    (hne : piece ≠ []) (hname : last ≠ [dot]) :
    ¬ (PurePath.ofText (hook.stem ++ (piece ++ rest))).IsRelativeTo
      (.ofText hook.configured) := by
  rintro ⟨_, hbelow⟩
  let lastPart : Component CodePoint :=
    ⟨last, hinside.last_ne, hname, hinside.slash_notMem⟩
  have hlast : components last = [lastPart] := components_val lastPart
  rw [ofText_stem hstem, PurePath.parts_ofText, PurePath.parts_ofText,
    hinside.components_start, hinside.components_rest, hlast,
    List.prefix_append_right_inj, List.cons_prefix_cons] at hbelow
  have hlonger : last = last ++ piece :=
    (congrArg Subtype.val hbelow.1).trans hinside.whole_val
  exact hne (List.append_right_eq_self.mp hlonger.symm)

theorem toLocalPath_eq_iff_of_not_below (hstem : hook.stem ≠ [])
    (hinside : EndsInside hook.stem piece rest before last whole)
    (hpiece : slash ∉ piece) (hne : piece ≠ []) (hrest : Boundary rest)
    (hnot : ¬ (PurePath.ofText (hook.stem ++ (piece ++ rest))).IsRelativeTo
      (.ofText hook.configured)) :
    hook.toLocalPath (hook.stem ++ (piece ++ rest)) =
        hook.intended (hook.stem ++ (piece ++ rest)) ↔
      piece = [dot] ∧
        hook.downloadsPath = .ofText (hook.stem ++ [dot]) := by
  have hstays : hook.intended (hook.stem ++ (piece ++ rest)) =
      (PurePath.ofText (hook.stem ++ piece)).extend (components rest) := by
    rw [intended, if_neg (fun hbelow => hnot hbelow.2), ← List.append_assoc]
    refine PurePath.ofText_append_of_boundary ?_ hrest
    obtain ⟨c, hc, hother⟩ := exists_ne_slash hstem
    exact ⟨c, List.mem_append_left piece hc, hother⟩
  rw [toLocalPath_append hstem, components_append_of_boundary hrest, hstays,
    PurePath.extend_append, PurePath.extend_left_inj]
  by_cases hdot : piece = [dot]
  · simp [hdot]
  · let part : Component CodePoint := ⟨piece, hne, hdot, hpiece⟩
    have hpart : components piece = [part] := components_val part
    simp only [hdot, false_and, iff_false]
    intro hsame
    have hends := congrArg PurePath.parts hsame
    rw [PurePath.extend_parts, PurePath.parts_ofText,
      hinside.components_piece, hpart] at hends
    have hwhole : [part] = [whole] := (List.append_inj' hends rfl).2
    exact hinside.whole_notMem hpiece (by simp [hpart, hwhole])

/-- The prefix ends inside a component. -/
theorem toLocalPath_of_inside (hstem : hook.stem ≠ [])
    {path : Text} (hpath : path = hook.stem ++ (piece ++ rest))
    (hpiece : slash ∉ piece) (hne : piece ≠ []) (hrest : Boundary rest) :
    hook.toLocalPath path = hook.intended path ↔
      ¬ (PurePath.ofText path).IsRelativeTo (.ofText hook.configured) ∧
        piece = [dot] ∧
        hook.downloadsPath = .ofText (hook.stem ++ [dot]) := by
  subst hpath
  obtain ⟨before, last, whole, hinside⟩ :=
    exists_endsInside hstem (getLast?_rstripSlash _) hpiece hne hrest
  by_cases hdot : last = [dot]
  · obtain ⟨hother, hbelow⟩ :=
      toLocalPath_ne_of_dot hstem hinside hpiece hrest hdot
    exact iff_of_false hother fun hagree => hagree.1 hbelow
  · have hnot := not_below_of_name hstem hinside hne hdot
    rw [and_iff_right hnot]
    exact toLocalPath_eq_iff_of_not_below hstem hinside hpiece hne hrest hnot

end Inside

/-- The prefix's text is not found. -/
theorem toLocalPath_of_other {path : Text}
    (hother : ¬ (hook.stem ≠ [] ∧ hook.stem <+: path)) :
    hook.toLocalPath path = hook.intended path ↔
      hook.configured = [] ∨
        ¬ (PurePath.ofText path).IsRelativeTo (.ofText hook.configured) ∨
        hook.downloadsPath = .ofText hook.configured := by
  have hstays : hook.toLocalPath path = .ofText path := by
    rw [toLocalPath, if_pos]
    rwa [not_and_or, not_not] at hother
  rw [hstays]
  by_cases hconfigured : hook.configured = []
  · simp [intended, hconfigured]
  · by_cases hbelow : (PurePath.ofText path).IsRelativeTo
        (.ofText hook.configured)
    · obtain ⟨parts, hpath⟩ := PurePath.isRelativeTo_iff.mp hbelow
      rw [intended_of_extend hconfigured hpath, hpath,
        PurePath.extend_left_inj]
      rw [← hpath]
      simp [hconfigured, hbelow, eq_comm]
    · simp [intended, hbelow]

end Branches

/-- The mapping does what it is for exactly when the texts show what the
components say. -/
theorem toLocalPath_eq_intended_iff (hook : DownloaderHook)
    (downloaderPath : Text) :
    hook.toLocalPath downloaderPath = hook.intended downloaderPath ↔
      hook.TextsAgree downloaderPath := by
  by_cases hfound : hook.stem ≠ [] ∧ hook.stem <+: downloaderPath
  · obtain ⟨hstem, after, rfl⟩ := hfound
    obtain ⟨piece, rest, rfl, hpiece, hrest⟩ := exists_boundary after
    simp only [TextsAgree, if_pos (And.intro hstem (List.prefix_append _ _))]
    by_cases hne : piece = []
    · subst hne
      rw [List.nil_append]
      have hcontinues : Continues (hook.stem ++ rest) hook.stem :=
        continues_iff.mpr ⟨rest, hrest, rfl⟩
      simp only [toLocalPath_of_boundary hstem hrest, hcontinues, true_or]
    · rw [toLocalPath_of_inside hstem rfl hpiece hne hrest,
        continues_concat_iff hpiece hne hrest]
      simp only [not_continues hpiece hne, false_or]
  · rw [toLocalPath_of_other hfound]
    simp only [TextsAgree, if_neg hfound]

/-- A folder beside the prefix, whose name only begins like it. -/
theorem sibling_is_remapped :
    let hook := disabled "/data/torrents/complete" "/downloads"
    let sibling := Utf8.ofString "/data/torrents/complete-old/X"
    (hook.toLocalPath sibling).text = Utf8.ofString "/downloads/-old/X" ∧
      (hook.intended sibling).text = sibling ∧
      hook.toLocalPath sibling ≠ hook.intended sibling := by
  decide

end DownloaderHook

end Beetkeeper
