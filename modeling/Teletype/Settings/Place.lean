/-!
# Places

A place is where a file or a directory is, said by the parts of its path. An empty part and a part
`.` stay where they are, and a part `..` takes back the part before it, if there is one. So a place
has one canonical path, in however many ways it can be written.
-/

namespace Teletype.Settings

/-- Follow one part of a path, from a place whose parts are listed from the last to the first. -/
def followPart (back : List String) (part : String) : List String :=
  if part = "" ∨ part = "." then back
  else if part = ".." then back.tail
  else part :: back

/-- The parts of a path that are left when all of them have been followed. -/
def placeParts (path : String) : List String :=
  (((path.toList.splitOn '/').map String.ofList).foldl followPart []).reverse

/-- The canonical path of the place that a path leads to. -/
def canonicalPath (path : String) : String :=
  (if path.toList.head? = some '/' then "/" else "") ++ "/".intercalate (placeParts path)

end Teletype.Settings
