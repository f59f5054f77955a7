import NativeGlue.Text.Quoted
import NativeGlue.Text.Units

/-!
# Native symbol names

The name of the C function behind a native method. A virtual machine finds the function by its name,
so class, method and, for overloads, parameter signature are spelled with C letters only: `.` and
`/` become `_`, the characters `_`, `;` and `[` become `_1`, `_2` and `_3`, and anything else that
is no ASCII letter or digit becomes `_0xxxx`, once for each of its UTF-16 units.

Reading a symbol back goes through units, since a symbol may spell a surrogate that stands alone. A
lone `_` reads as `/`; an escape is recognised before a separator is.
-/

namespace NativeGlue.Symbol

open NativeGlue.Text

/-! ## 1. Spelling a name -/

/-- The spelling of one unit that has no letter of its own. -/
def escapeUnit (u : Nat) : List Char := '_' :: '0' :: hex 4 u

/-- The spelling of a character. -/
def mangleChar (c : Char) : List Char :=
  if c = '.' ∨ c = '/' then ['_']
  else if c = '_' then ['_', '1']
  else if c = ';' then ['_', '2']
  else if c = '[' then ['_', '3']
  else if c.isAlphanum then [c]
  else (Units.ofCodePoint c.toNat).flatMap escapeUnit

/-- The spelling of a name, character by character. -/
def mangleChars (s : List Char) : List Char := s.flatMap mangleChar

/-- The spelling of a class, method or descriptor. -/
def mangle (name : String) : String := String.ofList (mangleChars name.toList)

@[simp] theorem mangleChars_nil : mangleChars [] = [] := rfl

@[simp] theorem mangleChars_cons (c : Char) (s : List Char) :
    mangleChars (c :: s) = mangleChar c ++ mangleChars s := rfl

theorem mangleChars_append (s t : List Char) :
    mangleChars (s ++ t) = mangleChars s ++ mangleChars t := by simp [mangleChars]

/-! ## 2. Reading a spelling back -/

/-- The value of a lower-case hexadecimal digit. -/
def hexDigit? (c : Char) : Option Nat :=
  if '0' ≤ c ∧ c ≤ '9' then some (c.toNat - 48)
  else if 'a' ≤ c ∧ c ≤ 'f' then some (c.toNat - 87)
  else none

/-- The unit that four hexadecimal digits spell. -/
def hexUnit? (a b c d : Char) : Option Nat := do
  let w ← hexDigit? a
  let x ← hexDigit? b
  let y ← hexDigit? c
  let z ← hexDigit? d
  pure (((w * 16 + x) * 16 + y) * 16 + z)

/-- What follows an underscore, read as an escape: the unit that it spells, and the rest. -/
def escape? : List Char → Option (Nat × List Char)
  | '1' :: r => some ('_'.toNat, r)
  | '2' :: r => some (';'.toNat, r)
  | '3' :: r => some ('['.toNat, r)
  | '0' :: a :: b :: c :: d :: r => (hexUnit? a b c d).map fun u => (u, r)
  | _ => none

/-- An escape takes at least one character. -/
theorem length_of_escape? {s r : List Char} {u : Nat} (h : escape? s = some (u, r)) :
    r.length < s.length := by
  unfold escape? at h
  split at h
  · cases h
    exact Nat.lt_succ_self _
  · cases h
    exact Nat.lt_succ_self _
  · cases h
    exact Nat.lt_succ_self _
  · obtain ⟨v, -, he⟩ := Option.map_eq_some_iff.1 h
    cases he
    simp only [List.length_cons]
    omega
  · cases h

/-- The units that a spelling stands for. -/
def demangleUnits : List Char → List Nat
  | [] => []
  | c :: r =>
    if c = '_' then
      match _h : escape? r with
      | some (u, r') => u :: demangleUnits r'
      | none => '/'.toNat :: demangleUnits r
    else c.toNat :: demangleUnits r
termination_by s => s.length
decreasing_by
  · exact Nat.lt_succ_of_lt (length_of_escape? _h)
  · exact Nat.lt_succ_self _
  · exact Nat.lt_succ_self _

/-! ## 3. Entry points -/

/-- What may be wrong with a symbol or descriptor. -/
inductive Fault where
  /-- It is not the name of an entry point. -/
  | notAnEntryPoint (symbol : String)
  /-- It holds a character of more than one unit, which no spelling has. -/
  | beyondUnits
  /-- The parameter list of a descriptor is not closed. -/
  | unclosed
  deriving DecidableEq, Repr

/-- Reads a spelling back; every character of it has to be a single unit. -/
def demangle (s : List Char) : Except Fault (List Nat) :=
  let units := demangleUnits s
  if units.all (· < 0x10000) then .ok units else .error .beyondUnits

/-- What the name of every entry point begins with. -/
def entryMark : List Char := "Java_".toList

/-- The part of a method descriptor between the parentheses; a text that does not begin with one is
that part already. -/
def signaturePart (descriptor : String) : String :=
  match descriptor.toList with
  | '(' :: r => String.ofList (r.takeWhile (· != ')'))
  | _ => descriptor

/-- The part of a method descriptor between the parentheses, which have to be closed. -/
def parametersIn (descriptor : String) : Except Fault String :=
  match descriptor.toList with
  | '(' :: r => if r.contains ')' then .ok (signaturePart descriptor) else .error .unclosed
  | _ => .ok descriptor

/-- Class and method with an underscore between them, and behind two more the signature that tells
overloads apart. -/
def methodSymbol (className methodName : String) (signature : Option String) : String :=
  mangle className ++ "_" ++ mangle methodName ++
    match signature with
    | none => ""
    | some s => "__" ++ mangle s

/-- The name of the C function that implements a native method. -/
def entryPoint (className methodName : String) (signature : Option String) : String :=
  String.ofList entryMark ++ methodSymbol className methodName signature

/-- The text before and after the first double underscore that is no escape. -/
def splitSignature? : List Char → Option (List Char × List Char)
  | [] => none
  | c :: r =>
    if c = '_' then
      match _h : escape? r with
      | some (_, r') =>
        (splitSignature? r').map fun (a, b) => ('_' :: r.take (r.length - r'.length) ++ a, b)
      | none =>
        if r.head? = some '_' then some ([], r.drop 1)
        else (splitSignature? r).map fun (a, b) => ('_' :: a, b)
    else (splitSignature? r).map fun (a, b) => (c :: a, b)
termination_by s => s.length
decreasing_by
  · exact Nat.lt_succ_of_lt (length_of_escape? _h)
  · exact Nat.lt_succ_self _
  · exact Nat.lt_succ_self _

/-- The text before and after the last underscore that begins no escape. -/
def splitMethod? : List Char → Option (List Char × List Char)
  | [] => none
  | c :: r =>
    if c = '_' then
      match _h : escape? r with
      | some (_, r') =>
        (splitMethod? r').map fun (a, b) => ('_' :: r.take (r.length - r'.length) ++ a, b)
      | none =>
        match splitMethod? r with
        | some (a, b) => some ('_' :: a, b)
        | none => some ([], r)
    else (splitMethod? r).map fun (a, b) => (c :: a, b)
termination_by s => s.length
decreasing_by
  · exact Nat.lt_succ_of_lt (length_of_escape? _h)
  · exact Nat.lt_succ_self _
  · exact Nat.lt_succ_self _

/-- The parts of an entry point, each in UTF-16 units. -/
structure EntryParts where
  className : List Nat
  methodName : List Nat
  signature : Option (List Nat)
  deriving DecidableEq, Repr

/-- Reads the name of an entry point: the class with dots, the method, and the signature if there is
one. The last lone underscore stands before the method, since all others separate the segments of
the class name. -/
def readEntryPoint (symbol : String) : Except Fault EntryParts := do
  let refused := Fault.notAnEntryPoint symbol
  if !entryMark.isPrefixOf symbol.toList then throw refused
  let body := symbol.toList.drop entryMark.length
  let (body, signature) ← match splitSignature? body with
    | some (before, after) => do
      let s ← demangle after
      pure (before, some s)
    | none => pure (body, none)
  match splitMethod? body with
  | none => throw refused
  | some (before, after) =>
    let c ← demangle before
    let m ← demangle after
    let dotted := c.map fun u => if u == '/'.toNat then '.'.toNat else u
    pure ⟨dotted, m, signature⟩

end NativeGlue.Symbol
