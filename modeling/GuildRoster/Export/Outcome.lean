import GuildRoster.World

/-!
# Outcomes of exports

An export is cancelled, or it writes files, or it fails at one of them. Failures are logged and
reported to the user.
-/

set_option autoImplicit false

namespace GuildRoster

inductive ExportFault where
  | table (path : Path) (cause : FileFault)
  | picture (path : Path) (cause : FileFault)
  /-- The name of the file does not tell in which format to write a picture. -/
  | unknownFormat (path : Path)

def ExportFault.message : ExportFault → String
  | table path cause => "failed to write " ++ path.text ++ ": " ++ cause.message
  | picture path cause => "failed to encode image " ++ path.text ++ ": " ++ cause.message
  | unknownFormat path =>
    "failed to encode image " ++ path.text ++ ": The image format could not be determined"

inductive ExportOutcome where
  | cancelled
  | written (paths : List Path)
  | failed (message : String)
  deriving DecidableEq, Repr

namespace ExportOutcome

def summary : ExportOutcome → String
  | cancelled => "Export cancelled"
  | written [] => "Nothing to export"
  | written paths => "Saved " ++ ", ".intercalate (paths.map Path.text)
  | failed message => "Export failed: " ++ message

def ofFault (fault : ExportFault) : Run ExportOutcome := do
  Run.record ⟨.error, "sfroster::export", "Export failed: " ++ fault.message⟩
  return failed fault.message

end ExportOutcome

end GuildRoster
