/-
Paths below the home directory.

A path that begins with a tilde and a slash is taken below the home directory, if
there is one; every other path stands for itself.
-/

set_option autoImplicit false

namespace CompilerSession.HomePath

/-- **Joining two paths.** An absolute right side stands alone; otherwise exactly one
slash separates the two, and an empty left side adds none. -/
def join (base rest : String) : String :=
  if rest.toList.head? = some '/' then rest
  else if base = "" ∨ base.toList.getLast? = some '/' then base ++ rest
  else base ++ "/" ++ rest

/-- **The path that is meant.** -/
def expand (home : Option String) (path : String) : String :=
  match path.toList, home with
  | '~' :: '/' :: rest, some home => join home (String.ofList rest)
  | _, _ => path

end CompilerSession.HomePath
