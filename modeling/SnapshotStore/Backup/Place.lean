import SnapshotStore.Disk
import SnapshotStore.Manifest

/-!
Where things lie in a backup directory: the manifest, the manifest before it takes its place, a
directory for each backup under its identifier, and in it a file for each entity.
-/

namespace SnapshotStore.Place

def manifest (directory : Path) : Path := directory ++ [Manifest.fileName]

/-- The path under which a new manifest is written. -/
def temporary (directory : Path) : Path := directory ++ [Manifest.temporaryName]

def backup (directory : Path) (id : Id) : Path := directory ++ [id.render]

def snapshot (directory : Path) (id : Id) (entity : String) : Path :=
  backup directory id ++ [FileName.snapshot entity]

end SnapshotStore.Place
