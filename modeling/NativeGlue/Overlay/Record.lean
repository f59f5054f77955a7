import NativeGlue.Directive.Basic
import NativeGlue.Model

/-!
# Override records

What an override file says about one declaration, and how two records about the same declaration
become one: the later one wins where both give a value, flags and platforms add up. A record marked
`replace` stands for itself and drops what came before it.
-/

namespace NativeGlue.Overlay

/-! ## 1. Records -/

/-- Overrides for one declaration. Parameters are referred to by index or by name; the references are
sorted and each occurs once. -/
structure Record where
  key : String
  kind : DeclarationKind
  method : MethodOptions := {}
  params : List (String × ParamOptions) := []
  field : FieldOptions := {}
  struct : StructOptions := {}
  fragments : AddedCode := {}
  replace : Bool := false
  origin : Option String := none
  deriving DecidableEq, Repr, Inhabited

/-! ## 2. Joining -/

/-- The value of the later record if it gives one, else that of the earlier. -/
def pick {α : Type} (base override : Option α) : Option α := override <|> base

/-- What two records say about a parameter. -/
def joinParams (base override : ParamOptions) : ParamOptions :=
  { flags := base.flags ∪ override.flags
    ownership := pick base.ownership override.ownership
    cast := pick base.cast override.cast
    length := pick base.length override.length }

/-- What two records say about a method. -/
def joinMethods (base override : MethodOptions) : MethodOptions :=
  { flags := base.flags ∪ override.flags
    cast := pick base.cast override.cast
    accessor := pick base.accessor override.accessor }

/-- The items of a list, then those of another one that are not there yet. -/
def joinLists (base extra : List String) : List String :=
  extra.foldl (fun seen x => if seen.contains x then seen else seen ++ [x]) base

/-- What two records say about a field. -/
def joinFields (base override : FieldOptions) : FieldOptions :=
  { flags := base.flags ∪ override.flags
    cast := pick base.cast override.cast
    accessor := pick base.accessor override.accessor
    platforms := joinLists base.platforms override.platforms
    offset := pick base.offset override.offset }

/-- What two records say about a struct class. -/
def joinStructs (base override : StructOptions) : StructOptions :=
  { flags := base.flags ∪ override.flags
    accessor := pick base.accessor override.accessor
    tagged := base.tagged || override.tagged }

/-- The code that two records insert. -/
def joinFragments (base override : AddedCode) : AddedCode :=
  { preCall := pick base.preCall override.preCall
    postCall := pick base.postCall override.postCall
    body := pick base.body override.body }

/-- Puts directives at the place of their reference in a sorted list, joined to those that stand
there. -/
def insertParam (ref : String) (d : ParamOptions) :
    List (String × ParamOptions) → List (String × ParamOptions)
  | [] => [(ref, d)]
  | (r, e) :: rest =>
    if ref = r then (r, joinParams e d) :: rest
    else if ref < r then (ref, d) :: (r, e) :: rest
    else (r, e) :: insertParam ref d rest

/-- Parameters of two records, by reference. -/
def joinParamLists (base override : List (String × ParamOptions)) :
    List (String × ParamOptions) :=
  override.foldl (fun ps (ref, d) => insertParam ref d ps) base

/-- Where two records come from; an empty place is none. -/
def joinOrigins (base override : Option String) : Option String :=
  let places := [base, override].filterMap fun o => o.filter fun s => !s.isEmpty
  if places.isEmpty then none else some (", ".intercalate places)

namespace Record

/-- Two records about one declaration as one. -/
def merge (base override : Record) : Record :=
  if override.replace then override
  else
    { key := override.key
      kind := override.kind
      method := joinMethods base.method override.method
      params := joinParamLists base.params override.params
      field := joinFields base.field override.field
      struct := joinStructs base.struct override.struct
      fragments := joinFragments base.fragments override.fragments
      replace := false
      origin := joinOrigins base.origin override.origin }

/-- What a record says about a parameter. What it says by name wins over what it says by index. -/
def param? (r : Record) (index : Nat) (name : String) : Option ParamOptions :=
  match r.params.lookup (toString index), r.params.lookup name with
  | some i, some n => some (joinParams i n)
  | i, n => n <|> i

end Record

end NativeGlue.Overlay
