import TargetQuery.Path

/-!
# The frontend

The compiler frontend is the only tool that is run: what it is called, and how a search for it can
fail.
-/

namespace TargetQuery

namespace Frontend

/-- What the tool is called in messages. -/
def name : String := "frontend"

/-- The environment variable that names the executable. -/
def override : String := "MOORING_FRONTEND"

/-- The names under which the executable is searched for, the most specific first. -/
def executables : List String := ["swift-frontend", "swiftc"]

end Frontend

/-- Why there is no frontend to run. -/
inductive LookupError where
  /-- Nothing was found in the places searched. -/
  | notFound (searched : List String)
  /-- The settings name a file that does not exist. -/
  | configuredMissing (path : Path)
  /-- A path was found from which the frontend cannot be run everywhere. -/
  | notAbsolute (path : Path)

def LookupError.message : LookupError → String
  | .notFound searched =>
    "no " ++ Frontend.name ++ " executable found (searched: " ++ ", ".intercalate searched ++ ")"
  | .configuredMissing path =>
    "configured " ++ Frontend.name ++ " executable does not exist: " ++ path.display
  | .notAbsolute path =>
    Frontend.name ++ " executable path is not absolute: " ++ path.display

end TargetQuery
