/-
# ImportAtlas.Log -- what is reported on the way

Records are put out and never read again, so a log is only ever appended to.
-/

namespace ImportAtlas

/-- How much a record matters. -/
inductive Level where
  | debug
  | info
  | warning
  | error
  deriving DecidableEq, Repr, Inhabited

/-- The name of a level. -/
def Level.label : Level → String
  | debug => "DEBUG"
  | info => "INFO"
  | warning => "WARNING"
  | error => "ERROR"

/-- One line of a log. -/
structure Record where
  level : Level
  text : String
  deriving DecidableEq, Repr, Inhabited

/-- Records in the order in which they were made. -/
abbrev Log := List Record

namespace Record

def debug (text : String) : Record := ⟨.debug, text⟩

def info (text : String) : Record := ⟨.info, text⟩

def warning (text : String) : Record := ⟨.warning, text⟩

def error (text : String) : Record := ⟨.error, text⟩

end Record

end ImportAtlas
