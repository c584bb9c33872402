import Bitext.Text.Basic

/-!
# Paths

Paths are texts with slashes between their components.  Joining does not simplify: a second path
that starts with a slash replaces the first one, and joining the empty path only adds a slash.
-/
namespace Bitext.Path

/-- The path starts at the root. -/
def isAbsolute (path : Text) : Bool := path.head? == some '/'

/-- A path as seen from another one. -/
def join (base path : Text) : Text :=
  if isAbsolute path then path
  else if base.isEmpty || base.getLast? == some '/' then base ++ path
  else base ++ '/' :: path

/-- The components of a path in order, without empty ones and without dots. -/
def components (path : Text) : List Text :=
  (path.splitOnP (· == '/')).filter fun c => !c.isEmpty && c ≠ ['.']

/-- What a path has to be followed through: its components, and a dot at the end if the path ends
with a slash or a dot and so can only mean a directory. -/
def steps (path : Text) : List Text :=
  let last := (path.splitOnP (· == '/')).getLast?
  components path ++ if last == some [] || last == some ['.'] then [['.']] else []

/-- The last component, unless it leads upwards. -/
def fileName? (path : Text) : Option Text := (components path).getLast?.filter (· ≠ "..".toList)

/-- The path that consists of the given components. -/
def ofComponents (isAbsolute : Bool) (cs : List Text) : Text :=
  (if isAbsolute then ['/'] else []) ++ Text.join ['/'] cs

end Bitext.Path
