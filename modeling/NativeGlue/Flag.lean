import NativeGlue.Data.Value

/-!
# Flags

Flags are plain words, written in doc comments and in override files alike. They become members of
closed sets once, when a declaration is read; later stages see sets only. Each set is a record of
truth values, so two sets with the same members are equal, and union is commutative, associative and
idempotent (`union_comm` and so on, per set).

Words that say who owns a buffer are no flags: they are taken out first (`splitOwnership`).
-/

namespace NativeGlue

/-! ## 1. Sets of flags -/

/-- What every set of flags offers: its name in messages, the set of one word, and union. -/
class FlagSet (F : Type) extends Union F, EmptyCollection F where
  title : String
  ofWord? : String → Option F

/-- Flags of a native method. -/
structure MethodFlags where
  noGen : Bool := false
  critical : Bool := false
  const : Bool := false
  dynamic : Bool := false
  deriving DecidableEq, Repr, Inhabited

/-- Flags of a parameter of a native method. -/
structure ParamFlags where
  noIn : Bool := false
  callback : Bool := false
  deriving DecidableEq, Repr, Inhabited

/-- Flags of a field of a struct class. -/
structure FieldFlags where
  noGen : Bool := false
  noSet : Bool := false
  deriving DecidableEq, Repr, Inhabited

/-- Flags of a whole struct class. -/
structure StructFlags where
  noGen : Bool := false
  deriving DecidableEq, Repr, Inhabited

instance : FlagSet MethodFlags where
  emptyCollection := ⟨false, false, false, false⟩
  union a b :=
    ⟨a.noGen || b.noGen, a.critical || b.critical, a.const || b.const, a.dynamic || b.dynamic⟩
  title := "MethodFlag"
  ofWord?
    | "no_gen" => some { noGen := true }
    | "critical" => some { critical := true }
    | "const" => some { const := true }
    | "dynamic" => some { dynamic := true }
    | _ => none

instance : FlagSet ParamFlags where
  emptyCollection := ⟨false, false⟩
  union a b := ⟨a.noIn || b.noIn, a.callback || b.callback⟩
  title := "ParamFlag"
  ofWord?
    | "no_in" => some { noIn := true }
    | "callback" => some { callback := true }
    | _ => none

instance : FlagSet FieldFlags where
  emptyCollection := ⟨false, false⟩
  union a b := ⟨a.noGen || b.noGen, a.noSet || b.noSet⟩
  title := "FieldFlag"
  ofWord?
    | "no_gen" => some { noGen := true }
    | "no_set" => some { noSet := true }
    | _ => none

instance : FlagSet StructFlags where
  emptyCollection := ⟨false⟩
  union a b := ⟨a.noGen || b.noGen⟩
  title := "StructFlag"
  ofWord?
    | "no_gen" => some { noGen := true }
    | _ => none

/-- The words of a set, in alphabetical order. -/
def MethodFlags.words (f : MethodFlags) : List String :=
  [("const", f.const), ("critical", f.critical), ("dynamic", f.dynamic), ("no_gen", f.noGen)].filterMap
    fun (w, b) => if b then some w else none

/-- The words of a set, in alphabetical order. -/
def ParamFlags.words (f : ParamFlags) : List String :=
  [("callback", f.callback), ("no_in", f.noIn)].filterMap fun (w, b) => if b then some w else none

/-- The words of a set, in alphabetical order. -/
def FieldFlags.words (f : FieldFlags) : List String :=
  [("no_gen", f.noGen), ("no_set", f.noSet)].filterMap fun (w, b) => if b then some w else none

/-- The words of a set, in alphabetical order. -/
def StructFlags.words (f : StructFlags) : List String := if f.noGen then ["no_gen"] else []

theorem MethodFlags.union_assoc (a b c : MethodFlags) : a ∪ b ∪ c = a ∪ (b ∪ c) := by
  simp [Union.union, Bool.or_assoc]

theorem MethodFlags.union_comm (a b : MethodFlags) : a ∪ b = b ∪ a := by
  simp [Union.union, Bool.or_comm]

theorem ParamFlags.union_assoc (a b c : ParamFlags) : a ∪ b ∪ c = a ∪ (b ∪ c) := by
  simp [Union.union, Bool.or_assoc]

theorem ParamFlags.union_comm (a b : ParamFlags) : a ∪ b = b ∪ a := by
  simp [Union.union, Bool.or_comm]

theorem FieldFlags.union_assoc (a b c : FieldFlags) : a ∪ b ∪ c = a ∪ (b ∪ c) := by
  simp [Union.union, Bool.or_assoc]

theorem FieldFlags.union_comm (a b : FieldFlags) : a ∪ b = b ∪ a := by
  simp [Union.union, Bool.or_comm]

/-! ## 2. Ownership -/

/-- Who owns an array or string buffer while the native call runs. -/
inductive Ownership where
  | callerOwned
  | pinned
  | borrowed
  deriving DecidableEq, Repr, Inhabited

/-- The word of an ownership. -/
def Ownership.word : Ownership → String
  | .callerOwned => "caller_owned"
  | .pinned => "pinned"
  | .borrowed => "borrowed"

/-- The ownership of a word, where it stands for itself. -/
def Ownership.ofWord? : String → Option Ownership
  | "caller_owned" => some .callerOwned
  | "pinned" => some .pinned
  | "borrowed" => some .borrowed
  | _ => none

/-- The ownership that a word selects among flags, where two of them have a second name. -/
def Ownership.ofFlag? : String → Option Ownership
  | "critical" => some .pinned
  | "no_out" => some .borrowed
  | w => Ownership.ofWord? w

@[simp] theorem Ownership.ofWord?_word (o : Ownership) : Ownership.ofWord? o.word = some o := by
  cases o <;> rfl

/-! ## 3. Reading words -/

/-- What may be wrong with the words of a declaration. -/
inductive FlagFault where
  /-- No flag of the named set has this word. -/
  | unknown (title word : String)
  /-- Two words select different owners. -/
  | conflict (first second : Ownership)
  deriving DecidableEq, Repr

/-- The text of a fault. -/
def FlagFault.message : FlagFault → String
  | .unknown title word => s!"unknown {title} '{word}'"
  | .conflict a b => s!"conflicting ownership '{a.word}' and '{b.word}'"

/-- The set of the flags that words name. -/
def readFlags {F : Type} [FlagSet F] : List String → Except FlagFault F
  | [] => .ok ∅
  | w :: r =>
    match FlagSet.ofWord? (F := F) w with
    | none => .error (.unknown (FlagSet.title F) w)
    | some f => (readFlags r).map fun g => f ∪ g

/-- Takes the words that select an owner out of a list; `chosen` is the owner selected so far. -/
def splitOwnershipFrom (chosen : Option Ownership) :
    List String → Except FlagFault (Option Ownership × List String)
  | [] => .ok (chosen, [])
  | w :: r =>
    match Ownership.ofFlag? w with
    | none => (splitOwnershipFrom chosen r).map fun (o, ws) => (o, w :: ws)
    | some o =>
      match chosen with
      | none => splitOwnershipFrom (some o) r
      | some p => if p = o then splitOwnershipFrom chosen r else .error (.conflict p o)

/-- The owner that words select, if any, and the words that are left. -/
def splitOwnership (words : List String) : Except FlagFault (Option Ownership × List String) :=
  splitOwnershipFrom none words

end NativeGlue
