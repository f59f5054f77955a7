import NativeGlue.Proofs.Text.Occurrence
import NativeGlue.Source.TypeName

/-!
# What type names can mean

A type name means one of a few kinds of types (`named`), and a directive turns no more than a `long`
into a pointer (`resolved`). The classes that stand for structs decide the kind of a type; its
descriptor is the same whatever they are (`descriptor_typeNamed`).
-/

namespace NativeGlue.Source

open NativeGlue.Text

/-! ## 1. The parts of a type name -/

/-- A type name without the brackets at its end. -/
def baseOf (text : String) : String := String.ofList (dropBrackets 0 text.toList.reverse).2.reverse

/-- How many pairs of brackets a type name ends with. -/
def pairsOf (text : String) : Nat := (dropBrackets 0 text.toList.reverse).1

/-- The simple name of the class that a type name names. -/
def simpleOf (text : String) : String := afterLastDot (baseOf text)

/-- The name with slashes of the class that a type name names: a full name is taken at its word. -/
def pathOf (qualified : List (String × String)) (text : String) : String :=
  if (baseOf text).contains '.' then replaceChars (· == '.') '/' (baseOf text)
  else match qualified.lookup (simpleOf text) with
    | some q => q
    | none =>
      if builtinClasses.contains (simpleOf text) then "java/lang/" ++ simpleOf text
      else simpleOf text

/-- A type name without brackets is its own base. -/
theorem baseOf_of_pairsOf {text : String} (h : pairsOf text = 0) : baseOf text = text := by
  have grows : ∀ n l, n ≤ (dropBrackets n l).1 ∧ ((dropBrackets n l).1 = n → (dropBrackets n l).2 = l) := by
    intro n l
    fun_induction dropBrackets n l with
    | case1 n r ih => exact ⟨by omega, fun he => by omega⟩
    | case2 => exact ⟨Nat.le_refl _, fun _ => rfl⟩
  rw [baseOf, (grows 0 _).2 h, List.reverse_reverse, String.ofList_toList]

/-- A name without dots is simple. -/
theorem simpleOf_of_undotted {text : String} (h : '.' ∉ (baseOf text).toList) :
    simpleOf text = baseOf text := by
  rw [simpleOf, afterLastDot, splitAt_of_not_mem h]
  rfl

/-- A full name is taken at its word. -/
theorem pathOf_of_dotted {text : String} (h : '.' ∈ (baseOf text).toList)
    (qualified : List (String × String)) :
    pathOf qualified text = replaceChars (· == '.') '/' (baseOf text) := by
  rw [pathOf, String.contains_char_eq, decide_eq_true h]
  exact if_pos rfl

/-- A simple name means the class that goes by it. -/
theorem pathOf_of_lookup {text : String} (h : '.' ∉ (baseOf text).toList)
    {qualified : List (String × String)} {q : String} (hq : qualified.lookup (simpleOf text) = some q) :
    pathOf qualified text = q := by
  rw [pathOf, String.contains_char_eq, decide_eq_false h, hq]
  exact if_neg Bool.false_ne_true

/-- A type name that names a class other than the class of texts. -/
structure NamesClass (text : String) : Prop where
  void : baseOf text ≠ "void"
  primitive : primitives.contains (baseOf text) = false
  string : ¬ (baseOf text = "String" ∨ baseOf text = "java.lang.String")

/-! ## 2. Meanings -/

/-- What a type name means, by what it looks like. -/
inductive Named (text : String) (structs : List String) (qualified : List (String × String)) :
    HostType → Prop
  | void (base : baseOf text = "void") : Named text structs qualified .void
  | primitive (base : primitives.contains (baseOf text) = true) (pairs : pairsOf text = 0) :
    Named text structs qualified { kind := .primitive, name := baseOf text }
  | string (base : baseOf text = "String" ∨ baseOf text = "java.lang.String")
      (pairs : pairsOf text = 0) :
    Named text structs qualified
      { kind := .string, name := "String", qualified := some "java/lang/String" }
  | array (base : primitives.contains (baseOf text) = true) (pairs : pairsOf text ≠ 0) :
    Named text structs qualified { kind := .array, name := baseOf text, dimensions := pairsOf text }
  | strings (base : baseOf text = "String" ∨ baseOf text = "java.lang.String")
      (pairs : pairsOf text ≠ 0) :
    Named text structs qualified
      { kind := .array, name := "String", dimensions := pairsOf text
        qualified := some "java/lang/String" }
  | struct (names : NamesClass text) (member : structs.contains (simpleOf text) = true)
      (pairs : pairsOf text = 0) :
    Named text structs qualified
      { kind := .struct, name := simpleOf text, qualified := some (pathOf qualified text) }
  | object (names : NamesClass text)
      (other : ¬ (structs.contains (simpleOf text) = true ∧ pairsOf text = 0)) :
    Named text structs qualified
      { kind := .object, name := simpleOf text, dimensions := pairsOf text
        qualified := some (pathOf qualified text) }

/-- **A type name means one of these.** -/
theorem named (text : String) (structs : List String) (qualified : List (String × String)) :
    Named text structs qualified (typeNamed text structs qualified) := by
  have hnamed : ∀ t, t = typeNamed text structs qualified → Named text structs qualified t := by
    intro t ht
    unfold typeNamed at ht
    dsimp only at ht
    split at ht
    · rename_i hvoid
      exact ht ▸ .void hvoid
    rename_i hvoid
    split at ht
    · rename_i hprimitive
      split at ht
      · rename_i hpairs
        rw [hpairs] at ht
        exact ht ▸ .primitive hprimitive hpairs
      · rename_i hpairs
        exact ht ▸ .array hprimitive hpairs
    rename_i hprimitive
    split at ht
    · rename_i hstring
      split at ht
      · rename_i hpairs
        rw [hpairs] at ht
        exact ht ▸ .string hstring hpairs
      · rename_i hpairs
        exact ht ▸ .strings hstring hpairs
    rename_i hstring
    have hclass : NamesClass text := ⟨hvoid, Bool.eq_false_iff.2 hprimitive, hstring⟩
    split at ht
    · rename_i hstruct
      exact ht ▸ .struct hclass hstruct.1 hstruct.2
    · rename_i hstruct
      exact ht ▸ .object hclass hstruct
  exact hnamed _ rfl

/-- The name of a class means that class, whether it stands for a struct or not. -/
theorem Named.of_class {text : String} {structs : List String} {qualified : List (String × String)}
    {t : HostType} (h : Named text structs qualified t) (hn : NamesClass text) :
    (t.kind = .struct ∨ t.kind = .object) ∧ t.name = simpleOf text ∧ t.dimensions = pairsOf text ∧
      t.qualified = some (pathOf qualified text) := by
  cases h with
  | void base => exact absurd base hn.void
  | primitive base => exact absurd (base.symm.trans hn.primitive) Bool.noConfusion
  | array base => exact absurd (base.symm.trans hn.primitive) Bool.noConfusion
  | string base => exact absurd base hn.string
  | strings base => exact absurd base hn.string
  | struct _ _ pairs =>
    refine ⟨.inl rfl, ?_, pairs.symm, rfl⟩
    dsimp only
  | object =>
    refine ⟨.inr rfl, ?_, rfl, rfl⟩
    dsimp only

/-- A struct class is named without brackets, and its simple name is known to stand for a struct. -/
theorem Named.of_struct {text : String} {structs : List String} {qualified : List (String × String)}
    {t : HostType} (h : Named text structs qualified t) (hs : t.kind = .struct) :
    NamesClass text ∧ simpleOf text ∈ structs ∧ pairsOf text = 0 := by
  cases h with
  | struct names member pairs => exact ⟨names, List.contains_iff_mem.1 member, pairs⟩
  | _ => cases hs

/-- What a type of the model can be, once the directives have been heard. -/
inductive Resolved : HostType → Prop
  | void : Resolved .void
  | primitive (name : String) (mem : name ∈ primitives) : Resolved { kind := .primitive, name }
  | string : Resolved { kind := .string, name := "String", qualified := some "java/lang/String" }
  | array (name : String) (mem : name ∈ primitives) (dimensions : Nat) (pos : dimensions ≠ 0) :
    Resolved { kind := .array, name, dimensions }
  | strings (dimensions : Nat) (pos : dimensions ≠ 0) :
    Resolved { kind := .array, name := "String", dimensions, qualified := some "java/lang/String" }
  | struct (name path : String) : Resolved { kind := .struct, name, qualified := some path }
  | object (name : String) (dimensions : Nat) (path : String) :
    Resolved { kind := .object, name, dimensions, qualified := some path }
  | pointer (kind : HostKind) (mem : kind = .handle ∨ kind = .callback) :
    Resolved { kind, name := "long" }

theorem Named.resolved {text : String} {structs : List String} {qualified : List (String × String)}
    {t : HostType} (h : Named text structs qualified t) : Resolved t := by
  cases h with
  | void => exact .void
  | primitive hbase => exact .primitive _ (List.contains_iff_mem.1 hbase)
  | string => exact .string
  | array hbase hpairs => exact .array _ (List.contains_iff_mem.1 hbase) _ hpairs
  | strings _ hpairs => exact .strings _ hpairs
  | struct => exact .struct _ _
  | object => exact .object _ _ _

/-- **Directives turn no more than a `long` into something else.** -/
theorem Resolved.asPointer {t : HostType} (h : Resolved t) (callback : Bool) (cast : Option String) :
    Resolved (asPointer t callback cast) := by
  unfold Source.asPointer
  split
  · split
    · exact .pointer _ (.inr rfl)
    split
    · exact .pointer _ (.inl rfl)
    · exact h
  · exact h

/-- A type is a struct before the directives have been heard, or not at all. -/
theorem asPointer_of_struct {t : HostType} {callback : Bool} {cast : Option String}
    (h : (Source.asPointer t callback cast).kind = .struct) : Source.asPointer t callback cast = t := by
  unfold Source.asPointer at h ⊢
  split at h
  · split at h
    · cases h
    split at h
    · cases h
    · rename_i hlong _ _
      rw [hlong.1] at h
      cases h
  · rename_i hother
    exact if_neg hother

/-- Only arrays, and objects that are no structs, have dimensions. -/
theorem Resolved.dimensions {t : HostType} (h : Resolved t) (ha : t.kind ≠ .array)
    (ho : t.kind ≠ .object) : t.dimensions = 0 := by
  cases h with
  | array => exact absurd rfl ha
  | strings => exact absurd rfl ha
  | object => exact absurd rfl ho
  | _ => rfl

theorem Resolved.isArray {t : HostType} (h : Resolved t) (ha : t.kind ≠ .array)
    (ho : t.kind ≠ .object) : t.isArray = false := by
  rw [HostType.isArray, h.dimensions ha ho]
  rfl

/-! ## 3. Descriptors -/

/-- The descriptor of a class that stands for no pointer names it. -/
theorem descriptor_of_class {t : HostType} (hk : t.kind = .struct ∨ t.kind = .object)
    (hn : primitiveDescriptor? t.name = none) (hd : t.dimensions = 0) :
    t.descriptor = "L" ++ t.className ++ ";" := by
  have hpointer : ¬ (t.kind = .handle ∨ t.kind = .callback) := by
    rcases hk with hk | hk
    · rw [hk]
      decide
    · rw [hk]
      decide
  have hnone : copies 0 "[" = "" := rfl
  rw [HostType.descriptor, HostType.elementDescriptor, hn, hd, hnone, String.empty_append]
  exact if_neg hpointer

/-- A `long` has the descriptor of a `long` whatever a directive makes of it. -/
theorem descriptor_asPointer {t : HostType} (h : Resolved t) (callback : Bool)
    (cast : Option String) : (Source.asPointer t callback cast).descriptor = t.descriptor := by
  unfold Source.asPointer
  split
  · rename_i hl
    have hd : t.dimensions = 0 := h.dimensions (by rw [hl.1]; decide) (by rw [hl.1]; decide)
    have hlong : t.descriptor = "J" := by
      rw [HostType.descriptor, HostType.elementDescriptor, hl.2, hd]
      rfl
    split
    · rw [hlong]
      rfl
    split
    · rw [hlong]
      rfl
    · rfl
  · rfl

/-- **The descriptor of a type depends on the full names of classes alone**, not on which of them stand
for structs. -/
theorem descriptor_typeNamed (text : String) (structs structs' : List String)
    {qualified qualified' : List (String × String)}
    (hq : ∀ name, qualified.lookup name = qualified'.lookup name) :
    (typeNamed text structs qualified).descriptor =
      (typeNamed text structs' qualified').descriptor := by
  -- A struct class has no dimensions, and its descriptor is that of any other class.
  have hclass : ∀ (names : List String) (name path : String) (n : Nat),
      (if names.contains name = true ∧ n = 0 then
          ({ kind := .struct, name, qualified := some path } : HostType)
        else { kind := .object, name, dimensions := n, qualified := some path }).descriptor =
        ({ kind := .object, name, dimensions := n, qualified := some path } : HostType).descriptor := by
    intro names name path n
    split
    · rename_i hstruct
      rw [hstruct.2]
      rfl
    · rfl
  unfold typeNamed
  dsimp only
  split
  · rfl
  split
  · rfl
  split
  · rfl
  · rw [hclass, hclass, hq]

end NativeGlue.Source
