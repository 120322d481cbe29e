import HardSector.Text.Split

/-!
# Paths

A path is text whose names are separated by slashes. A leading slash makes it absolute; a relative
path is taken from a base.
-/

namespace HardSector.Path

/-- Whether a path starts at the root. -/
def isAbsolute (path : String) : Bool := path.startsWith "/"

/-- A path taken from a base: one slash between the two unless the base is empty or ends in one. -/
def join (base path : String) : String :=
  if base.isEmpty || base.endsWith "/" then base ++ path else base ++ "/" ++ path

/-- A path as configured: an absolute one is kept, a relative one is taken from the base. -/
def resolve (base path : String) : String :=
  if isAbsolute path then path else join base path

/-- The names of a path in order, without the empty ones that doubled slashes leave. -/
def names (path : String) : List String :=
  ((Text.splitAll '/' path.toList).filter fun name => !name.isEmpty).map String.ofList

end HardSector.Path
