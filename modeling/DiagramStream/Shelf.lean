/-!
A directory of texts as a command sees it: names of files, with slashes where they lie deeper.
-/

namespace DiagramStream

structure Shelf where
  files : List (String × String)

namespace Shelf

def noSuchFile : String := "No such file or directory"
def isDirectory : String := "Is a directory"
def notDirectory : String := "Not a directory"

def steps (path : String) : List String := (path.splitOn "/").filter fun step => step ≠ "" && step ≠ "."

-- What opening a path for reading yields.
def read (shelf : Shelf) (path : String) : Except String String :=
  let wanted := steps path
  if path = "" then .error noSuchFile
  else if path.startsWith "/" then .error (if wanted.isEmpty then isDirectory else noSuchFile)
  else if wanted.isEmpty || wanted.all (· = "..") then .error isDirectory
  else match shelf.files.find? fun file => steps file.1 = wanted with
    | some (_, text) => if path.endsWith "/" then .error notDirectory else .ok text
    | none =>
      if shelf.files.any fun file => wanted.isPrefixOf (steps file.1) then .error isDirectory
      else if shelf.files.any fun file => (steps file.1).isPrefixOf wanted then .error notDirectory
      else .error noSuchFile

end Shelf
end DiagramStream
