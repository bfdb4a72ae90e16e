import BicepForge.Document.Input

/-!
# Reports

The outcome of a check: errors, warnings and notes in the order in which they were made. Errors make
a document invalid; warnings and notes never do.
-/

namespace BicepForge

/-- The outcome of a check. -/
structure Report where
  valid : Bool
  dialect? : Option Dialect
  errors : List String
  warnings : List String
  info : List String
deriving DecidableEq, Inhabited

namespace Report

def empty : Report where
  valid := true
  dialect? := none
  errors := []
  warnings := []
  info := []

def forDialect (dialect : Dialect) : Report :=
  { empty with dialect? := some dialect }

def error (r : Report) (text : String) : Report :=
  { r with valid := false, errors := r.errors ++ [text] }

def warning (r : Report) (text : String) : Report :=
  { r with warnings := r.warnings ++ [text] }

def note (r : Report) (text : String) : Report :=
  { r with info := r.info ++ [text] }

def merge (r other : Report) : Report :=
  { r with
    valid := r.valid && other.valid
    errors := r.errors ++ other.errors
    warnings := r.warnings ++ other.warnings
    info := r.info ++ other.info }

def withErrors (r : Report) (texts : List String) : Report :=
  texts.foldl error r

def withWarnings (r : Report) (texts : List String) : Report :=
  texts.foldl warning r

def withNotes (r : Report) (texts : List String) : Report :=
  texts.foldl note r

def listJson (texts : List String) : Json :=
  .arr (texts.map Json.str)

/-- A report as a JSON object; one on no kind of document does not name any. -/
def toJson (r : Report) : Json :=
  .obj
    ([("isValid", Json.bool r.valid)] ++
      (r.dialect?.map fun d => ("dialect", Json.str d.name)).toList ++
      [("errors", listJson r.errors), ("warnings", listJson r.warnings),
       ("info", listJson r.info)])

end Report

end BicepForge
