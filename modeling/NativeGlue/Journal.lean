import NativeGlue.Model

/-!
# The journal of a run

What a run reports while it works, as entries of four levels. What was found wrong without stopping
the run comes grouped by category.
-/

namespace NativeGlue

/-- How much an entry matters. -/
inductive Level where
  | debug
  | info
  | warning
  | error
  deriving DecidableEq, Repr, Inhabited

/-- The word of a level. -/
def Level.word : Level → String
  | .debug => "DEBUG"
  | .info => "INFO"
  | .warning => "WARNING"
  | .error => "ERROR"

/-- An entry of the journal. -/
structure JournalEntry where
  level : Level
  message : String
  deriving DecidableEq, Repr, Inhabited

namespace Journal

/-- An entry for those who look for trouble. -/
def debug (message : String) : JournalEntry := ⟨.debug, message⟩

/-- An entry about the course of a run. -/
def info (message : String) : JournalEntry := ⟨.info, message⟩

/-- An entry about something that does not stop a run. -/
def warning (message : String) : JournalEntry := ⟨.warning, message⟩

/-- An entry about what stopped a run. -/
def error (message : String) : JournalEntry := ⟨.error, message⟩

/-- The categories of warnings, each once and in order. -/
def categories (ws : List Warning) : List String :=
  ((ws.map (·.category)).mergeSort fun a b => decide (a ≤ b)).eraseReps

/-- The entries for warnings of a target: for each category their number and then each of them. -/
def ofWarnings (target : String) (ws : List Warning) : List JournalEntry :=
  (categories ws).flatMap fun c =>
    let items := ws.filter (·.category == c)
    warning s!"{target}: {items.length} {c} warning(s)" ::
      items.map fun w => warning ("  " ++ w.message ++ w.place)

end Journal

/-- The line of an entry on the console. -/
def JournalEntry.line (e : JournalEntry) : String := s!"[jnigen] {e.level.word} {e.message}"

end NativeGlue
