/-
Whether a removal spares the source it is about to import from.  The source is
resolved through links while the library's paths are compared as written, so a
link inside the beets directory can lead a planned deletion into the source.
-/
import Beetkeeper.CleanSlateContract

namespace Beetkeeper

open LexicalPath FileTree

/-- No file that is really under the source is doomed by the plan: none is
named by a planned path, and none is clutter of a folder that planned paths
go through and that holds nothing else when what they name is gone. -/
def PlanAvoidsSource (beets : Beets) (world : BeetsWorld)
    (target : CleanSlateTarget) (sourcePath : OsPath) : Prop :=
  ∀ location ∈ world.tree.files,
    world.tree.realpath sourcePath <+: location →
    ¬ Doomed (planOf beets world target sourcePath).paths
      ((planOf beets world target sourcePath).paths.map List.dropLast)
      world.library.directory beets.isClutter world.tree location

namespace OrdinaryPlan

variable {beets : Beets} {world : BeetsWorld} {target : CleanSlateTarget}
  {sourcePath : OsPath}

end OrdinaryPlan

/-- Without links an `ok` preview is enough for the plan to avoid the
source. -/
theorem plan_avoids_source_without_links {beets : Beets} {world : BeetsWorld}
    {target : CleanSlateTarget} {sourcePath downloadsPath : OsPath}
    {allowFewerFiles : Bool} {preserveFields : List String}
    {plan : CleanSlatePreview}
    (hpreview : preview beets world target sourcePath downloadsPath
      allowFewerFiles preserveFields = .ok plan) (hok : plan.ok = true)
    (hlinks : world.tree.links = []) :
    PlanAvoidsSource beets world target sourcePath := by
  intro location _ hsource hreason
  obtain ⟨entry, hentry, rfl⟩ := preview_eq_ok_iff.mp hpreview
  have houtside := outside_of_scan (scan_of_previewEntry hok).1
  obtain ⟨hlibrary, hnot⟩ := inside_of_wipeReason hlinks hreason.wipeReason
  rcases List.prefix_or_prefix_of_prefix hlibrary hsource with habove | habove
  · exact houtside habove
  · exact hnot habove

end Beetkeeper
