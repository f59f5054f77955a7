/-!
# Cutting and replacing inside a text

The few substring operations the generator needs, each by recursion on the characters. An occurrence
is taken as far left as possible and occurrences do not overlap.
-/

namespace NativeGlue.Text

/-- What follows a beginning of a text, if the text has that beginning. -/
def rest? : List Char → List Char → Option (List Char)
  | [], s => some s
  | _ :: _, [] => none
  | p :: ps, c :: cs => if p = c then rest? ps cs else none

theorem rest?_eq_some_iff {p s r : List Char} : rest? p s = some r ↔ s = p ++ r := by
  fun_induction rest? p s with
  | case1 s => simp
  | case2 => simp
  | case3 p ps cs ih => simp [ih]
  | case4 p ps c cs h => simp [Ne.symm h]

/-- The text before and after the first occurrence of a separator. -/
def breakOn? (sep : List Char) : List Char → Option (List Char × List Char)
  | [] => if sep.isEmpty then some ([], []) else none
  | c :: r =>
    match rest? sep (c :: r) with
    | some rest => some ([], rest)
    | none => (breakOn? sep r).map fun (a, b) => (c :: a, b)

/-- The two parts and the separator between them make up the text. -/
theorem eq_of_breakOn? {sep s a b : List Char} (h : breakOn? sep s = some (a, b)) :
    s = a ++ sep ++ b := by
  induction s generalizing a b with
  | nil =>
    simp only [breakOn?, Option.ite_none_right_eq_some, Option.some.injEq, Prod.mk.injEq] at h
    obtain ⟨he, rfl, rfl⟩ := h
    simp [List.isEmpty_iff.1 he]
  | cons c r ih =>
    unfold breakOn? at h
    split at h
    · rename_i rest hr
      obtain ⟨rfl, rfl⟩ := by simpa using h
      simpa using rest?_eq_some_iff.1 hr
    · obtain ⟨⟨x, y⟩, hxy, he⟩ := Option.map_eq_some_iff.1 h
      obtain ⟨rfl, rfl⟩ := by simpa using he
      simp [ih hxy]

/-- Whether a text occurs in another one. -/
def occursIn (sep s : List Char) : Bool := (breakOn? sep s).isSome

/-- Replaces every occurrence of `pat`; `skip` counts the characters of the occurrence being passed
over. An empty pattern occurs nowhere. -/
def replaceFrom (pat rep : List Char) : Nat → List Char → List Char
  | _, [] => []
  | skip + 1, _ :: r => replaceFrom pat rep skip r
  | 0, c :: r =>
    if !pat.isEmpty && pat.isPrefixOf (c :: r) then rep ++ replaceFrom pat rep (pat.length - 1) r
    else c :: replaceFrom pat rep 0 r

/-- A text with every occurrence of `pat` replaced by `rep`. -/
def replace (s pat rep : String) : String :=
  String.ofList (replaceFrom pat.toList rep.toList 0 s.toList)

/-- A text with every character of a class replaced by another character. -/
def replaceChars (p : Char → Bool) (new : Char) (s : String) : String :=
  String.ofList (s.toList.map fun c => if p c then new else c)

/-- `n` copies of a text. -/
def copies (n : Nat) (s : String) : String := String.join (List.replicate n s)

theorem toList_copies (n : Nat) (s : String) :
    (copies n s).toList = (List.replicate n s.toList).flatten := by
  rw [copies, String.toList_join, List.flatMap_def, List.map_replicate]

/-- Copies of a single character. -/
theorem toList_copies_char {s : String} {c : Char} (h : s.toList = [c]) (n : Nat) :
    (copies n s).toList = List.replicate n c := by
  rw [toList_copies, h, List.flatten_replicate_singleton]

/-- A text without the last `n` characters. -/
def dropLast (n : Nat) (s : String) : String :=
  String.ofList (s.toList.take (s.length - n))

/-- A text without the first `n` characters. -/
def dropFirst (n : Nat) (s : String) : String := String.ofList (s.toList.drop n)

/-- Whether a text begins with another one. -/
def startsWith (s pre : String) : Bool := pre.toList.isPrefixOf s.toList

/-- Whether a text ends with another one. -/
def endsWith (s suf : String) : Bool := suf.toList.isSuffixOf s.toList

/-- The pieces between the occurrences of a character. -/
def splitAt (sep : Char) (s : String) : List String := (s.toList.splitOn sep).map String.ofList

end NativeGlue.Text
