import CodeAtlas.Error
import CodeAtlas.Source.FileTree

/-! Where the texts of source files come from. -/
namespace CodeAtlas

/-- A path under a base. An absolute path stands for itself; otherwise a slash separates the two
unless the base is empty or ends in one. -/
def joinPath (base path : String) : String :=
  if path.toList.head? = some '/' then path
  else if base.isEmpty || base.toList.getLast? = some '/' then base ++ path
  else base ++ "/" ++ path

def resolvePath (base : Option String) (path : String) : String :=
  match base with
  | some base => joinPath base path
  | none => path

inductive SourceStore where
  /-- Texts under the exact paths by which they are asked for. -/
  | memory (files : List (String × String))
  /-- The files of a directory. -/
  | directory (tree : FileTree)
  deriving Repr

namespace SourceStore

/-- The text under a path. What is no file of a directory cannot be read. -/
def read (store : SourceStore) (path : String) : Except Error String :=
  match store with
  | .memory files => orError (.notFound (.file path)) (files.lookup path)
  | .directory tree => orError .unreadable (tree.read? path)

end SourceStore
end CodeAtlas
