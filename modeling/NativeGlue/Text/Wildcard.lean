/-!
# Wildcards

Patterns for names and paths: `*` stands for any text, slashes included, `?` for one character, and
brackets for one character of a set. A set may be negated by `!` and may hold ranges; a bracket that
is not closed stands for itself. `Wildcard.fits` says whether a whole text follows a pattern.
-/

namespace NativeGlue.Text

/-- A piece of a pattern. -/
inductive WildPiece where
  | anything
  | anyChar
  | char (c : Char)
  | oneOf (negated : Bool) (ranges : List (Char × Char))
  deriving DecidableEq, Repr, Inhabited

namespace Wildcard

/-! ## 1. Sets -/

/-- Cuts the inside of a set at each hyphen that has a character before it and one behind it, so that
the ends of two neighbours make a range. `kept` is the part read so far, the latest first; the
number counts the characters that cannot be such a hyphen. -/
def chunks : Nat → List Char → List Char → List (List Char)
  | _, kept, [] => [kept.reverse]
  | 0, kept, '-' :: r => if r.isEmpty then [('-' :: kept).reverse] else kept.reverse :: chunks 2 [] r
  | skip, kept, c :: r => chunks (skip - 1) (c :: kept) r

/-- Joins neighbours whose range would be empty, from the last pair to the first. -/
def dropEmptyRanges : List (List Char) → List (List Char)
  | [] => []
  | a :: r =>
    match dropEmptyRanges r with
    | [] => [a]
    | b :: rest =>
      match a.getLast?, b.head? with
      | some x, some y => if y < x then (a.dropLast ++ b.drop 1) :: rest else a :: b :: rest
      | _, _ => a :: b :: rest

/-- The ranges of a set; `before` is the end of the part before, where a range begins. -/
def rangesOf (before : Option Char) : List (List Char) → List (Char × Char)
  | [] => []
  | [part] =>
    match before, part with
    | some x, y :: r => (x, y) :: r.map fun c => (c, c)
    | some x, [] => [(x, x), ('-', '-')]
    | none, cs => cs.map fun c => (c, c)
  | part :: next :: rest =>
    match before, part with
    | some x, y :: r =>
      match r.getLast? with
      | some z => (x, y) :: r.dropLast.map (fun c => (c, c)) ++ rangesOf (some z) (next :: rest)
      | none => (x, y) :: ('-', '-') :: rangesOf none (next :: rest)
    | some x, [] => (x, x) :: ('-', '-') :: rangesOf none (next :: rest)
    | none, cs =>
      match cs.getLast? with
      | some z => cs.dropLast.map (fun c => (c, c)) ++ rangesOf (some z) (next :: rest)
      | none => ('-', '-') :: rangesOf none (next :: rest)

/-- The piece for the inside of a set. A set that becomes empty stands for no character at all, or
for every one if it is negated. -/
def setPiece (inside : List Char) : WildPiece :=
  let start := match inside with
    | '!' :: _ => 2
    | _ => 1
  match dropEmptyRanges (chunks start [] inside) with
  | ('!' :: r) :: rest =>
    .oneOf true (if r.isEmpty && rest.isEmpty then [] else rangesOf none (r :: rest))
  | parts => .oneOf false (rangesOf none parts)

/-! ## 2. Patterns -/

/-- The inside of a set and what follows its closing bracket, if there is one. A bracket right at the
beginning belongs to the set. -/
def closeSet? (s : List Char) : Option (List Char × List Char) :=
  let lead := match s with
    | '!' :: ']' :: _ => 2
    | '!' :: _ => 1
    | ']' :: _ => 1
    | _ => 0
  let body := (s.drop lead).takeWhile (· != ']')
  match s.drop (lead + body.length) with
  | _ :: r => some (s.take (lead + body.length), r)
  | [] => none

theorem length_of_closeSet? {s a r : List Char} (h : closeSet? s = some (a, r)) :
    r.length < s.length := by
  simp only [closeSet?] at h
  split at h
  · rename_i hd
    cases h
    have := congrArg List.length hd
    simp only [List.length_drop, List.length_cons] at this
    omega
  · cases h

/-- The pieces of a pattern. -/
def pieces : List Char → List WildPiece
  | [] => []
  | '*' :: r => .anything :: pieces r
  | '?' :: r => .anyChar :: pieces r
  | '[' :: r =>
    match h : closeSet? r with
    | some (inside, rest) =>
      have := length_of_closeSet? h
      setPiece inside :: pieces rest
    | none => .char '[' :: pieces r
  | c :: r => .char c :: pieces r
termination_by s => s.length
decreasing_by
  all_goals simp only [List.length_cons]; omega

/-- Whether a character follows a piece that stands for one. -/
def accepts (p : WildPiece) (c : Char) : Bool :=
  match p with
  | .anything => false
  | .anyChar => true
  | .char d => c == d
  | .oneOf negated ranges => ranges.any (fun (a, b) => a ≤ c && c ≤ b) != negated

/-- For each end of a row of truth values, whether one in it is true. -/
def anyFrom : List Bool → List Bool
  | [] => []
  | b :: r =>
    let later := anyFrom r
    (b || later.head?.getD false) :: later

/-- Which ends of a text follow pieces: the text itself, then all shorter ends down to the empty one.
All ends are looked at together, so the work grows with the product of the two lengths only. -/
def endsFitting : List WildPiece → List Char → List Bool
  | [], s => s.map (fun _ => false) ++ [true]
  | .anything :: ps, s => anyFrom (endsFitting ps s)
  | p :: ps, s =>
    List.zipWith (fun c later => accepts p c && later) s (endsFitting ps s).tail ++ [false]

/-- Whether a text follows pieces. -/
def fitsPieces (ps : List WildPiece) (s : List Char) : Bool := (endsFitting ps s).head?.getD false

theorem tail_anyFrom (bs : List Bool) : (anyFrom bs).tail = anyFrom bs.tail := by
  cases bs <;> rfl

@[simp] theorem length_anyFrom (bs : List Bool) : (anyFrom bs).length = bs.length := by
  induction bs with
  | nil => rfl
  | cons b r ih => simp [anyFrom, ih]

/-- A text has one end more than characters. -/
@[simp] theorem length_endsFitting (ps : List WildPiece) (s : List Char) :
    (endsFitting ps s).length = s.length + 1 := by
  induction ps with
  | nil => simp [endsFitting]
  | cons p ps ih => cases p <;> simp [endsFitting, ih]

/-- A shorter end is looked at as the text itself is. -/
theorem tail_endsFitting (ps : List WildPiece) (c : Char) (s : List Char) :
    (endsFitting ps (c :: s)).tail = endsFitting ps s := by
  induction ps with
  | nil => rfl
  | cons p ps ih =>
    obtain ⟨b, r, h⟩ : ∃ b r, endsFitting ps s = b :: r :=
      List.exists_cons_of_length_eq_add_one (length_endsFitting ps s)
    cases p <;> simp only [endsFitting, tail_anyFrom, ih, h] <;> rfl

@[simp] theorem fitsPieces_nil (s : List Char) : fitsPieces [] s = s.isEmpty := by
  cases s <;> rfl

/-- Whether a whole text follows a pattern. -/
def fits (pattern text : String) : Bool := fitsPieces (pieces pattern.toList) text.toList

end Wildcard

end NativeGlue.Text
