import Lineage.Files
import Lineage.Settings.Environment
import Lineage.Settings.Tree
import Lineage.Toml.Printer

/-!
# Workspaces

A workspace is where a run happens: a tree of files, the working folder in it, and the variables of
the environment. Settings are loaded from a workspace and saved into it.
-/

namespace Lineage

/-- Files, a working folder, and variables. -/
structure Workspace where
  files : Files := {}
  folder : Place := []
  environment : Environment := []

/-- Why settings cannot be loaded. -/
inductive SettingsError
  /-- The file is not TOML. -/
  | unreadable
  /-- Something in it has the wrong kind or value. -/
  | misfit (m : ConfigTree.Misfit)
  deriving DecidableEq, Repr

/-- Why settings cannot be saved. -/
inductive SavingError
  | alreadyExists (path : Path)
  | unwritable (path : Path) (error : FileError)
  deriving DecidableEq, Repr

def SavingError.message : SavingError → String
  | alreadyExists path =>
    "Configuration file already exists at " ++ path ++ ". Use --force to overwrite"
  | unwritable path error => "Failed to write " ++ path ++ ": " ++ error.message

/-- A folder and all folders around it, the inner ones first. -/
def Place.outward (place : Place) : List Place :=
  (List.range (place.length + 1)).reverse.map place.take

namespace Workspace

/-- The folder that holds the settings of a workspace. -/
def settingsFolder : Path := ".classgraph"

/-- The file that holds the settings, in a folder of its own. -/
def settingsFile : Path := Path.join settingsFolder "settings.toml"

/-- The absolute path of the file that a path means: for a relative path the first that is found
from the working folder outward. -/
def findFile? (w : Workspace) (path : Path) : Option Path :=
  (w.folder.outward.map fun folder => Path.join folder.path path).find? (w.files.isFile [])

/-- The tree in a file of settings, which is empty if there is no such file. -/
def fileTree (w : Workspace) (path : Path) : Except SettingsError ConfigTree :=
  match w.findFile? path with
  | none => .ok (.table [])
  | some found =>
    match (w.files.readText [] found).toOption.bind Toml.read with
    | none => .error .unreadable
    | some tree => .ok tree

/-- The settings from a file: the environment is laid over the file, and the file over the
defaults. -/
def loadFrom (w : Workspace) (path : Path) : Except SettingsError Settings := do
  let tree ← w.fileTree path
  (Settings.ofLayers [tree, w.environment.toTree]).mapError .misfit

/-- The file of settings that counts in the working folder: the one in the nearest folder outward
that has a place for it. -/
def settingsPath (w : Workspace) : Path :=
  match w.folder.outward.find? fun folder => w.files.isFolder folder settingsFolder with
  | some folder => Path.join folder.path settingsFile
  | none => settingsFile

/-- The settings that count in the working folder. -/
def load (w : Workspace) : Except SettingsError Settings :=
  w.loadFrom w.settingsPath

/-- Saves settings to a file. Folders around it are made, and stay even if it cannot be written. -/
def save (w : Workspace) (path : Path) (settings : Settings) :
    Except SavingError Unit × Workspace :=
  let attempt := w.files.writeWithin w.folder path (Toml.print settings.toTree).toUTF8
  (attempt.result.mapError (.unwritable path), { w with files := attempt.files })

/-- Saves the default settings in a folder, and tells the file with them. An old file is replaced
only if that is forced. -/
def init (w : Workspace) (folder : Path) (force : Bool) : Except SavingError Path × Workspace :=
  let path := Path.join folder settingsFile
  if !force && w.files.exists? w.folder path then (.error (.alreadyExists path), w)
  else
    let (saved, after) := w.save path {}
    (saved.map fun _ => path, after)

end Workspace

end Lineage
