/-!
# Usage

The texts that tell how the program is called.
-/

namespace NativeGlue.CommandLine

/-- The name of the program in its messages. -/
def programName : String := "jnigen"

/-- The line that tells how the program is called. -/
def usageLine : String :=
  s!"usage: {programName} [options] [target [output_dir [source_root]]]"

/-- The lines of the help. -/
def helpLines : List String := [
  usageLine,
  "",
  "Generate JNI glue code from annotated Java native declarations.",
  "",
  "positional arguments:",
  "  target                Configured target id, or 'all' for every target",
  "                        (defaults to default_target).",
  "  output_dir            Override the target's output directory.",
  "  source_root           Override where Java sources are discovered.",
  "",
  "options:",
  "  -h, --help            show this help message and exit",
  "  -c CONFIG, --config CONFIG",
  "                        Path to .jnigen.yml or the directory holding it",
  "                        (defaults to the current directory).",
  "  -v, --verbose         Increase log verbosity for troubleshooting.",
  "  --check               Print a unified diff of pending changes and exit 1 if",
  "                        any; write nothing.",
  "  --dry-run             Report which files would change without writing them.",
  "  -j JOBS, --jobs JOBS  Number of targets to generate in parallel.",
  "  --log-file LOG_FILE   Also write debug logs to this file."]

/-- Lines as a text, each with its end. -/
def textOfLines (lines : List String) : String := String.join (lines.map (· ++ "\n"))

end NativeGlue.CommandLine
