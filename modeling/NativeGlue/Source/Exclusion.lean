import NativeGlue.Text.Blank
import NativeGlue.Text.Substring
import NativeGlue.Text.Wildcard

/-!
# Rules for paths to be left out

A rule is a wildcard with marks around it: a leading `!` takes paths back in, a trailing slash means
directories only, and a leading slash ties the rule to the root. A rule with a slash inside is about
the whole path, any other one about each name in the path. Of all rules that are about a path the
last one decides.
-/

namespace NativeGlue.Source

open NativeGlue.Text

/-- A rule about paths. -/
structure Exclusion where
  pattern : String
  directoryOnly : Bool
  anchored : Bool
  negate : Bool
  deriving DecidableEq, Repr, Inhabited

namespace Exclusion

/-- Reads a rule; a text without a wildcard in it gives none. -/
def ofString? (s : String) : Option Exclusion :=
  let cs := trimOf isBlank s.toList
  let negate := cs.head? == some '!'
  let cs := if negate then cs.drop 1 else cs
  let directoryOnly := cs.getLast? == some '/'
  let cs := dropEnd (· == '/') cs
  let anchored := cs.head? == some '/'
  let cs := cs.dropWhile (· == '/')
  if cs.isEmpty then none else some ⟨String.ofList cs, directoryOnly, anchored, negate⟩

/-- Whether a rule is about a path, given as its names joined by slashes. -/
def isAbout (r : Exclusion) (path : String) (isDirectory : Bool) : Bool :=
  if r.directoryOnly && !isDirectory then false
  else if r.anchored || r.pattern.contains '/' then Wildcard.fits r.pattern path
  else (splitAt '/' path).any (Wildcard.fits r.pattern)

end Exclusion

/-- Whether rules leave a path out. -/
def isIgnored (rules : List Exclusion) (path : String) (isDirectory : Bool) : Bool :=
  rules.foldl (fun ignored r => if r.isAbout path isDirectory then !r.negate else ignored) false

end NativeGlue.Source
