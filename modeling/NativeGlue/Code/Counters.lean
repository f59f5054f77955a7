import NativeGlue.Code.Methods
import NativeGlue.Statistics

/-!
# Call statistics

The header, the source and the stored table of the call statistics. The header gives every native
method its number and the number of counters; counters exist for retired numbers too.
-/

namespace NativeGlue.Code

/-- The file that holds the stored table. -/
def tableFile (statsName : String) : String := statsName ++ "_stats.json"

/-- The symbols of all native methods by key, in order; of two methods with one key the later symbol
holds. -/
def statsSymbols (m : Model) : List (String × String) :=
  m.natives.foldl (fun ns n => putKey n.identity.key (methodSymbol n) ns) []

/-- The table once the native methods of a model are numbered. -/
def statsTable (m : Model) (table : Statistics) : Statistics :=
  let symbols := (statsSymbols m).map fun (k, s) =>
    (Text.CodePoints.ofString k, Text.CodePoints.ofString s)
  (table.assign (symbols.map (·.1)) symbols).2

/-- A native method in the statistics. -/
structure StatsEntry where
  symbol : String
  index : Int
  deriving DecidableEq, Repr, Inhabited

/-- The lines of the statistics header. -/
def statsHeader (pre : String) (count : Int) (entries : List StatsEntry) : List String :=
  let includeGuard := s!"INC_{pre}_STATS_H"
  [banner, s!"#ifndef {includeGuard}", s!"#define {includeGuard}", "", "#include <jni.h>", "",
    "#ifdef NATIVE_STATS", s!"extern int {pre}_nativeFunctionCount;",
    s!"extern int {pre}_nativeFunctionCallCount[];", s!"extern char *{pre}_nativeFunctionNames[];",
    s!"#define {pre}_NATIVE_ENTER(env, that, func) {pre}_nativeFunctionCallCount[func]++;",
    s!"#define {pre}_NATIVE_EXIT(env, that, func)", "#else",
    s!"#ifndef {pre}_NATIVE_ENTER", s!"#define {pre}_NATIVE_ENTER(env, that, func)", "#endif",
    s!"#ifndef {pre}_NATIVE_EXIT", s!"#define {pre}_NATIVE_EXIT(env, that, func)", "#endif",
    "#endif", "", "typedef enum \x7b"]
  ++ entries.map (fun e => s!"\t{e.symbol}_FUNC = {e.index},")
  ++ [s!"\t{pre}_FUNC_COUNT = {count}", s!"\x7d {pre}_FUNCS;", "", s!"#endif /* {includeGuard} */"]

/-- The lines of the statistics source. -/
def statsSource (statsName pre : String) (count : Int) (entries : List StatsEntry) :
    List String :=
  let size := max count 1
  [banner, s!"#include \"{statsName}_stats.h\"", "", "#ifdef NATIVE_STATS", "",
    s!"int {pre}_nativeFunctionCount = {count};",
    s!"int {pre}_nativeFunctionCallCount[{size}];",
    s!"char *{pre}_nativeFunctionNames[{size}] = \x7b"]
  ++ entries.map (fun e => s!"\t[{e.index}] = \"{e.symbol}\",")
  ++ ["\x7d;", "", "#endif"]

/-- The statistics files of a model: header, source and the table that is stored for the next run. -/
def statsFiles (statsName : String) (m : Model) (table : Statistics) : List OutputFile :=
  let table := statsTable m table
  let entries := (statsSymbols m).map fun (k, s) => StatsEntry.mk s ((table.indexOf? k).getD 0)
  let pre := statsPrefix statsName
  [⟨statsName ++ "_stats.h", fileText (statsHeader pre table.capacity entries)⟩,
    ⟨statsName ++ "_stats.c", fileText (statsSource statsName pre table.capacity entries)⟩,
    ⟨tableFile statsName, table.toJson⟩]

end NativeGlue.Code
