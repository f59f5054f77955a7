import NativeGlue.CommandLine.Option
import NativeGlue.Path
import NativeGlue.Text.Number

/-!
# The arguments of the command line

The arguments are read from left to right. The first values that stand together fill all three places;
once an option has followed them the places are closed, and values further to the right belong to
nothing. Whatever belongs to nothing is told at the end, after all options have been obeyed.
-/

namespace NativeGlue.CommandLine

/-- What the arguments ask for. -/
structure Arguments where
  target : Option String := none
  outputDir : Option Path := none
  sourceRoot : Option Path := none
  config : Path := ⟨.here, []⟩
  verbose : Bool := false
  check : Bool := false
  dryRun : Bool := false
  jobs : Option Int := none
  logFile : Option Path := none
  /-- Options whose value is only the mark behind which everything is a value. -/
  unusable : List OptionName := []
  deriving DecidableEq, Repr, Inhabited

/-- Why reading ends early: help is asked for, or there is a fault. -/
inductive Stop where
  | help
  | fault (f : ArgumentFault)
  deriving DecidableEq, Repr

/-! ## 1. Places -/

/-- The places for values: untouched, filled up to some number by the values at hand, or closed by an
option or by a value too many. -/
inductive Places where
  | untouched
  | filled (n : Nat)
  | closed
  deriving DecidableEq, Repr, Inhabited

/-- How many places there are. -/
def Places.count : Nat := 3

/-- The places once an option follows. -/
def Places.close : Places → Places
  | .untouched => .untouched
  | _ => .closed

/-- What was read so far, and the arguments that belong to nothing. -/
structure Reading where
  arguments : Arguments := {}
  places : Places := .untouched
  extras : List String := []
  deriving Repr, Inhabited

namespace Reading

/-- Puts a value into a place. -/
def fill (r : Reading) (place : Nat) (value : String) : Reading :=
  let a := r.arguments
  { r with
    places := .filled (place + 1)
    arguments := match place with
      | 0 => { a with target := some value }
      | 1 => { a with outputDir := some (Path.ofString value) }
      | _ => { a with sourceRoot := some (Path.ofString value) } }

/-- Notes an argument that belongs to nothing. -/
def extra (r : Reading) (a : String) : Reading := { r with extras := r.extras ++ [a] }

/-- Takes a value. Two dashes that are meant as a value leave their place empty, unless they come
straight behind the mark that makes them one. -/
def value (r : Reading) (v : String) : Reading :=
  match r.places with
  | .untouched => r.fill 0 v
  | .closed => r.extra v
  | .filled n =>
    if Places.count ≤ n then { r.extra v with places := .closed }
    else if v = "--" ∧ n ≠ 0 then { r with places := .filled (n + 1) }
    else r.fill n v

/-- Takes the mark. It belongs to the places unless they are closed. -/
def mark (r : Reading) : Reading :=
  match r.places with
  | .untouched => { r with places := .filled 0 }
  | .filled _ => r
  | .closed => r.extra "--"

/-! ## 2. Options -/

/-- Obeys an option without a value. -/
def obey (r : Reading) : OptionName → Except Stop Reading
  | .help => .error .help
  | .verbose => .ok { r with arguments := { r.arguments with verbose := true } }
  | .check => .ok { r with arguments := { r.arguments with check := true } }
  | .dryRun => .ok { r with arguments := { r.arguments with dryRun := true } }
  | _ => .ok r

/-- Notes whether the last value of an option can be used. -/
def usable (r : Reading) (o : OptionName) (yes : Bool) : Reading :=
  let others := r.arguments.unusable.filter (· ≠ o)
  { r with arguments := { r.arguments with unusable := if yes then others else o :: others } }

/-- Obeys an option with a value. Two dashes leave it with a value that is none. -/
def obeyWith (r : Reading) (value : String) (o : OptionName) : Except Stop Reading :=
  if value = "--" then .ok (r.usable o false)
  else
    let r := r.usable o true
    match o with
    | .config => .ok { r with arguments := { r.arguments with config := Path.ofString value } }
    | .logFile =>
      .ok { r with arguments := { r.arguments with logFile := some (Path.ofString value) } }
    | .jobs =>
      match Text.readInt? value with
      | some n => .ok { r with arguments := { r.arguments with jobs := some n } }
      | none => .error (.fault (.notInteger value))
    | _ => .ok r

/-- Obeys a cluster; an option that still waits for its value gets it from `next`. The second part of
the result tells whether it did. -/
def obeyCluster (r : Reading) (c : Cluster) (next : Option String) :
    Except Stop (Reading × Bool) := do
  let r := { r with places := r.places.close }
  match c.last, next with
  | none, _ => pure (← c.switches.foldlM obey r, false)
  | some (o, some v), _ => pure (← (← c.switches.foldlM obey r).obeyWith v o, false)
  | some (o, none), some v => pure (← (← c.switches.foldlM obey r).obeyWith v o, true)
  | some (o, none), none => throw (.fault (.valueMissing o))

/-! ## 3. All arguments -/

/-- Reads arguments; `skip` tells that the first of them was taken as the value of an option. -/
def readFrom (r : Reading) (skip : Bool) : List (String × Shape) → Except Stop Reading
  | [] => .ok r
  | (a, shape) :: rest =>
    if skip then readFrom r false rest
    else match shape with
      | .value => readFrom (r.value a) false rest
      | .mark => readFrom r.mark false rest
      | .unknown => readFrom { r.extra a with places := r.places.close } false rest
      | .option name long glued =>
        let next := match rest with
          | (v, .value) :: _ => some v
          | _ => none
        match clusterOf name long glued with
        | .error f => .error (.fault f)
        | .ok c =>
          match r.obeyCluster c next with
          | .error s => .error s
          | .ok (r, taken) => readFrom r taken rest

end Reading

/-- Reads the arguments. -/
def Arguments.read (arguments : List String) : Except Stop Arguments :=
  match shapesOf arguments with
  | .error f => .error (.fault f)
  | .ok shapes =>
    match Reading.readFrom {} false shapes with
    | .error s => .error s
    | .ok r =>
      if !r.extras.isEmpty then .error (.fault (.unrecognized r.extras))
      else match r.arguments.jobs with
        | some n =>
          if n < 1 ∧ .jobs ∉ r.arguments.unusable then .error (.fault .jobsNotPositive)
          else .ok r.arguments
        | none => .ok r.arguments

end NativeGlue.CommandLine
