import NativeGlue.Text.Letters
import NativeGlue.Text.Quoted
import NativeGlue.Text.Substring

/-!
# Options of the command line

The options, how each may be written, and what a single argument is, judged by itself: a value, an
option that is known, or something that looks like an option. A long option may be cut short as long as
one name is left that it can mean. Short options may be glued together, and the last of them may carry
its value.
-/

namespace NativeGlue.CommandLine

/-! ## 1. The options -/

/-- The options. -/
inductive OptionName where
  | help
  | config
  | verbose
  | check
  | dryRun
  | jobs
  | logFile
  deriving DecidableEq, Repr, Inhabited

namespace OptionName

/-- All options, in the order in which the help lists them. -/
def all : List OptionName := [.help, .config, .verbose, .check, .dryRun, .jobs, .logFile]

/-- The ways to write an option. -/
def spellings : OptionName → List String
  | .help => ["-h", "--help"]
  | .config => ["-c", "--config"]
  | .verbose => ["-v", "--verbose"]
  | .check => ["--check"]
  | .dryRun => ["--dry-run"]
  | .jobs => ["-j", "--jobs"]
  | .logFile => ["--log-file"]

/-- Whether an option comes with a value. -/
def takesValue : OptionName → Bool
  | .config => true
  | .jobs => true
  | .logFile => true
  | _ => false

/-- An option in messages. -/
def label (o : OptionName) : String := "/".intercalate o.spellings

/-- All spellings with the option that each means. -/
def allSpellings : List (String × OptionName) := all.flatMap fun o => o.spellings.map (·, o)

/-- The option of a spelling. -/
def ofSpelling? (s : String) : Option OptionName := allSpellings.lookup s

end OptionName

/-! ## 2. Faults -/

/-- What is wrong with the arguments by themselves. -/
inductive ArgumentFault where
  | ambiguous (argument : String) (candidates : List String)
  | valueNotTaken (o : OptionName) (value : String)
  | valueMissing (o : OptionName)
  | notInteger (value : String)
  | unrecognized (arguments : List String)
  | jobsNotPositive
  deriving DecidableEq, Repr

/-- The text of a fault. -/
def ArgumentFault.message : ArgumentFault → String
  | .ambiguous a cs => s!"ambiguous option: {a} could match " ++ ", ".intercalate cs
  | .valueNotTaken o v => s!"argument {o.label}: ignored explicit argument {Text.quoted v}"
  | .valueMissing o => s!"argument {o.label}: expected one argument"
  | .notInteger v => s!"argument {OptionName.jobs.label}: invalid int value: {Text.quoted v}"
  | .unrecognized vs => "unrecognized arguments: " ++ " ".intercalate vs
  | .jobsNotPositive => "--jobs must be a positive integer"

/-! ## 3. What an argument is -/

/-- An argument, judged by itself. -/
inductive Shape where
  /-- A value. -/
  | value
  /-- The mark behind which everything is a value. -/
  | mark
  /-- An option, written with a long or a short name, and what is glued to the name. -/
  | option (name : OptionName) (long : Bool) (glued : Option (List Char))
  /-- Something that looks like an option. -/
  | unknown
  deriving DecidableEq, Repr, Inhabited

/-- The part before the first equals sign and, if there is one, the part behind it. -/
def cutAtEquals (s : List Char) : List Char × Option (List Char) :=
  let before := s.takeWhile (· != '=')
  (before, if before.length < s.length then some (s.drop (before.length + 1)) else none)

/-- Whether a text is a negative number. A line feed at its end does not matter. -/
def isNegativeNumber (s : List Char) : Bool :=
  let isDigit := fun c => (Text.decimalDigit? c).isSome
  let s := if s.getLast? = some '\n' then s.dropLast else s
  match s with
  | '-' :: r =>
    let fraction := r.dropWhile isDigit
    match fraction with
    | [] => !r.isEmpty
    | '.' :: ds => !ds.isEmpty && ds.all isDigit
    | _ => false
  | _ => false

/-- The options that an argument with two dashes can mean: those whose long names begin with what
stands before the equals sign. -/
def longCandidates (s : List Char) : List (String × Shape) :=
  let (before, behind) := cutAtEquals s
  OptionName.allSpellings.filterMap fun (spelling, name) =>
    if before.isPrefixOf spelling.toList then
      some (spelling, .option name true behind)
    else none

/-- The options that an argument with one dash can mean: the one that its first letter names. -/
def shortCandidates (s : List Char) : List (String × Shape) :=
  OptionName.allSpellings.filterMap fun (spelling, name) =>
    if spelling.toList = s.take 2 then some (spelling, .option name false (some (s.drop 2)))
    else none

/-- The shape of an argument that begins with a dash and is no spelling of an option. -/
def shapeOfDashed (argument : String) : Except ArgumentFault Shape :=
  let s := argument.toList
  match s with
  | '-' :: [] => .ok .value
  | '-' :: second :: _ =>
    let long := second == '-'
    match cutAtEquals s with
    | (before, behind) =>
      match behind, OptionName.ofSpelling? (String.ofList before) with
      | some t, some name => .ok (.option name long (some t))
      | _, _ =>
        match if long then longCandidates s else shortCandidates s with
        | [] => .ok (if isNegativeNumber s || s.contains ' ' then .value else .unknown)
        | [(_, shape)] => .ok shape
        | several => .error (.ambiguous argument (several.map (·.1)))
  | _ => .ok .value

/-- The shape of an argument. -/
def shapeOf (argument : String) : Except ArgumentFault Shape :=
  if argument = "--" then .ok .mark
  else match OptionName.ofSpelling? argument with
    | some name => .ok (.option name (Text.startsWith argument "--") none)
    | none => shapeOfDashed argument

/-- All arguments with their shapes. Behind the mark everything is a value. -/
def shapesOf : List String → Except ArgumentFault (List (String × Shape))
  | [] => .ok []
  | a :: r => do
    match ← shapeOf a with
    | .mark => pure ((a, .mark) :: r.map (·, .value))
    | shape => pure ((a, shape) :: (← shapesOf r))

/-! ## 4. Options glued together -/

/-- What an argument that begins with an option asks for: options without values, then perhaps one
that takes a value, which may be there already. -/
structure Cluster where
  switches : List OptionName := []
  last : Option (OptionName × Option String) := none
  deriving DecidableEq, Repr, Inhabited

/-- A cluster with a further switch in front. -/
def Cluster.push (o : OptionName) (c : Cluster) : Cluster := { c with switches := o :: c.switches }

/-- An option by itself. -/
def Cluster.single (o : OptionName) : Cluster :=
  if o.takesValue then { last := some (o, none) } else { switches := [o] }

/-- The options behind a switch with a short name: each letter has to name one, until one takes what
is left as its value. -/
def clusterBehind (o : OptionName) : List Char → Except ArgumentFault Cluster
  | [] => .ok { switches := [o] }
  | c :: r =>
    match OptionName.ofSpelling? (String.ofList ['-', c]) with
    | none => .error (.valueNotTaken o (String.ofList (c :: r)))
    | some next =>
      if next.takesValue then
        .ok { switches := [o], last := some (next, if r.isEmpty then none else some (String.ofList r)) }
      else (clusterBehind next r).map (Cluster.push o)

/-- What an option with something glued to it asks for. -/
def clusterOf (o : OptionName) (long : Bool) : Option (List Char) → Except ArgumentFault Cluster
  | none => .ok (.single o)
  | some glued =>
    if o.takesValue then .ok { last := some (o, some (String.ofList glued)) }
    else if long || glued.isEmpty then .error (.valueNotTaken o (String.ofList glued))
    else clusterBehind o glued

end NativeGlue.CommandLine
