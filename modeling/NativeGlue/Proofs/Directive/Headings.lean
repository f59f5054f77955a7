import Mathlib.Data.List.ReduceOption
import NativeGlue.Directive.Comment
import NativeGlue.Proofs.Fallible
import NativeGlue.Proofs.Keyed

/-!
# What tags ask for

A tag speaks about one thing, its heading, and asks for something about it by the texts under its keys
(`Heading.asks`). The tags of a comment are read one after the other (`applyTags_eq`), and each puts what it asks
for in place of what stood under its heading (`get?_put`).
-/

namespace NativeGlue.Directive

open NativeGlue.Data NativeGlue.Text

/-! ## 1. Headings -/

/-- What a tag speaks about: the declaration itself, or one of its parameters by name. -/
inductive Heading where
  | method
  | param (name : String)
  | field
  | struct
  deriving DecidableEq, Repr

/-- The tag that speaks about a heading. -/
def Heading.kind : Heading → TagKind
  | .method => .method
  | .param _ => .param
  | .field => .field
  | .struct => .struct

/-- What a tag with a subject speaks about. -/
def Heading.of (kind : TagKind) (subject : String) : Heading :=
  match kind with
  | .method => .method
  | .param => .param subject
  | .field => .field
  | .struct => .struct

/-- What is asked for under a heading. -/
inductive Asked where
  | method (o : MethodOptions)
  | param (name : String) (o : ParamOptions)
  | field (o : FieldOptions)
  | struct (o : StructOptions)
  deriving DecidableEq, Repr

def Asked.heading : Asked → Heading
  | .method _ => .method
  | .param name _ => .param name
  | .field _ => .field
  | .struct _ => .struct

/-! ## 2. Asking -/

/-- A text that is given; an empty one is not. -/
def given? (s : String) : Option String := if s = "" then none else some s

/-- The offset that a text gives; a text that is given has to be an integer. -/
def offsetOf (s : String) : Except Fault (Option Offset) :=
  match given? s with
  | none => .ok none
  | some t =>
    match readIntLiteral? t with
    | some n => .ok (some (.int n))
    | none => .error (.offsetNotInteger t)

/-- What a tag asks for about its heading by the texts under its keys. -/
def Heading.asks (value : String → String) : Heading → Except Fault Asked
  | .method => do
    let flags ← flagsOf (Value.textWords (value "flags"))
    return .method { flags := flags, cast := given? (value "cast"), accessor := given? (value "accessor") }
  | .param name => do
    let (ownership, words) ← (splitOwnership (Value.textWords (value "flags"))).mapError .flag
    let flags ← flagsOf words
    return .param name
      { flags := flags, ownership := ownership, cast := given? (value "cast"), length := given? (value "length") }
  | .field => do
    let offset ← offsetOf (value "offset")
    let flags ← flagsOf (Value.textWords (value "flags"))
    return .field
      { flags := flags, cast := given? (value "cast"), accessor := given? (value "accessor"),
        platforms := Value.textWords (value "platform"), offset := offset }
  | .struct => do
    let flags ← flagsOf (Value.textWords (value "flags"))
    return .struct { flags := flags, accessor := given? (value "accessor"), tagged := true }

theorem heading_of_asks {h : Heading} {value : String → String} {a : Asked} (ha : h.asks value = .ok a) :
    a.heading = h := by
  cases h with
  | method =>
    obtain ⟨_, -, ha⟩ := ok_of_bind ha
    obtain rfl := Except.ok.inj ha
    rfl
  | param name =>
    obtain ⟨_, -, ha⟩ := ok_of_bind ha
    obtain ⟨_, -, ha⟩ := ok_of_bind ha
    obtain rfl := Except.ok.inj ha
    rfl
  | field =>
    obtain ⟨_, -, ha⟩ := ok_of_bind ha
    obtain ⟨_, -, ha⟩ := ok_of_bind ha
    obtain rfl := Except.ok.inj ha
    rfl
  | struct =>
    obtain ⟨_, -, ha⟩ := ok_of_bind ha
    obtain rfl := Except.ok.inj ha
    rfl

/-- The text under a key, empty where there is none. -/
def valueIn (ps : List (String × String)) (key : String) : String := (ps.lookup key).getD ""

section

variable (ps : List (String × String))

theorem textOf?_eq (key : String) : textOf? ps key = given? (valueIn ps key) := by
  rw [textOf?, valueIn, given?]
  cases ps.lookup key with
  | none => rfl
  | some s => by_cases hs : s = "" <;> simp [hs]

theorem wordsOf_eq (key : String) : wordsOf ps key = Value.textWords (valueIn ps key) := by
  rw [wordsOf, valueIn]
  cases ps.lookup key with
  | none => rfl
  | some s => rfl

theorem asks_method : Heading.method.asks (valueIn ps) = (readMethod ps).map .method := by
  simp only [Heading.asks, readMethod, textOf?_eq, wordsOf_eq]
  cases flagsOf (F := MethodFlags) (Value.textWords (valueIn ps "flags")) <;> rfl

theorem asks_param (name : String) :
    (Heading.param name).asks (valueIn ps) = (readParam ps).map (.param name) := by
  simp only [Heading.asks, readParam, textOf?_eq, wordsOf_eq]
  cases (splitOwnership (Value.textWords (valueIn ps "flags"))).mapError Fault.flag with
  | error e => rfl
  | ok x =>
    obtain ⟨ownership, words⟩ := x
    change ((flagsOf words : Except Fault ParamFlags) >>= _) = Except.map _ ((flagsOf words) >>= _)
    cases flagsOf (F := ParamFlags) words <;> rfl

theorem asks_field : Heading.field.asks (valueIn ps) = (readField ps).map .field := by
  simp only [Heading.asks, readField, textOf?_eq, wordsOf_eq, offsetOf]
  cases given? (valueIn ps "offset") with
  | none => cases flagsOf (F := FieldFlags) (Value.textWords (valueIn ps "flags")) <;> rfl
  | some t =>
    dsimp only
    cases readIntLiteral? t with
    | none => rfl
    | some n => cases flagsOf (F := FieldFlags) (Value.textWords (valueIn ps "flags")) <;> rfl

theorem asks_struct : Heading.struct.asks (valueIn ps) = (readStruct ps).map .struct := by
  simp only [Heading.asks, readStruct, textOf?_eq, wordsOf_eq]
  cases flagsOf (F := StructFlags) (Value.textWords (valueIn ps "flags")) <;> rfl

end

/-! ## 3. Putting -/

/-- Puts what is asked for in place of what stood under its heading. -/
def DocOptions.put (d : DocOptions) : Asked → DocOptions
  | .method o => { d with method := some o }
  | .param name o => { d with params := putParam name o d.params }
  | .field o => { d with field := some o }
  | .struct o => { d with struct := some o }

/-- What stands under a heading. -/
def DocOptions.get? (d : DocOptions) : Heading → Option Asked
  | .method => d.method.map .method
  | .param name => (d.params.lookup name).map (.param name)
  | .field => d.field.map .field
  | .struct => d.struct.map .struct

theorem putParam_eq_putKey (name : String) (o : ParamOptions) (ps : List (String × ParamOptions)) :
    putParam name o ps = putKey name o ps := by
  induction ps with
  | nil => rfl
  | cons p r ih => rw [putParam, putKey, ih]

/-- **What is put stands under its heading**, and everything else stays where it was. -/
theorem get?_put (d : DocOptions) (a : Asked) (h : Heading) :
    (d.put a).get? h = if a.heading = h then some a else d.get? h := by
  cases a with
  | param name o =>
    cases h with
    | param q =>
      show ((putParam name o d.params).lookup q).map (Asked.param q) =
        if Heading.param name = Heading.param q then some (Asked.param name o)
        else (d.params.lookup q).map (Asked.param q)
      rw [putParam_eq_putKey]
      by_cases hq : q = name
      · rw [hq, lookup_putKey_self, if_pos rfl, Option.map_some]
      · rw [lookup_putKey_ne hq, if_neg fun hn => hq (Heading.param.inj hn).symm]
    | _ => rfl
  | _ => cases h <;> rfl

/-! ## 4. Tags -/

/-- What a tag asks for; nothing if it gives no pairs. -/
def Tag.asks (t : Tag) : Except Fault (Option Asked) := do
  match ← readPairs t with
  | none => return none
  | some (subject, ps) => ((Heading.of t.kind subject).asks (valueIn ps)).map some

/-- **A tag puts what it asks for.** -/
theorem applyTag_eq (d : DocOptions) (t : Tag) : applyTag d t = t.asks.map fun a => a.elim d d.put := by
  rw [applyTag, Tag.asks]
  cases readPairs t with
  | error e => rfl
  | ok found =>
    cases found with
    | none => rfl
    | some x =>
      obtain ⟨subject, ps⟩ := x
      show (match t.kind with | .method => _ | .param => _ | .field => _ | .struct => _) =
        (((Heading.of t.kind subject).asks (valueIn ps)).map some).map _
      cases t.kind with
      | method => rw [Heading.of, asks_method]; cases readMethod ps <;> rfl
      | param => rw [Heading.of, asks_param]; cases readParam ps <;> rfl
      | field => rw [Heading.of, asks_field]; cases readField ps <;> rfl
      | struct => rw [Heading.of, asks_struct]; cases readStruct ps <;> rfl

/-- **The tags of a comment are read one by one**, and what they ask for is put in their order. -/
theorem applyTags_eq (d : DocOptions) (ts : List Tag) :
    applyTags d ts = (ts.mapM fun (t : Tag) => t.asks.mapError fun f => (t.line, f)).map fun as =>
      as.reduceOption.foldl DocOptions.put d := by
  induction ts generalizing d with
  | nil => rfl
  | cons t ts ih =>
    rw [applyTags, applyTag_eq, List.mapM_cons]
    cases t.asks with
    | error f => rfl
    | ok a =>
      show applyTags (a.elim d d.put) ts = _
      rw [ih]
      cases ts.mapM fun (t : Tag) => t.asks.mapError fun f => (t.line, f) with
      | error f => rfl
      | ok as => cases a <;> rfl

/-! ## 5. Comments -/

/-- A class with a bare struct tag in its comment is a struct class, if no pairs of such a tag tell so already. -/
def DocOptions.withBare (d : DocOptions) (c : String) : DocOptions :=
  if d.struct.isNone && hasStructTag c.toList then { d with struct := some { tagged := true } } else d

theorem readComment_eq {c : String} (hc : startsWith c "/**" = true) (line : Int) :
    readComment (some c) line = (applyTags {} (tagsOfComment c line)).map (·.withBare c) := by
  rw [readComment, hc]
  cases applyTags {} (tagsOfComment c line) with
  | error f => rfl
  | ok d =>
    show (if d.struct.isNone && hasStructTag c.toList then _ else _) = Except.ok (d.withBare c)
    rw [DocOptions.withBare]
    split <;> rfl

/-- A bare tag changes nothing that a tag with pairs says. -/
theorem get?_withBare {d : DocOptions} {h : Heading} {a : Asked} (ha : d.get? h = some a) (c : String) :
    (d.withBare c).get? h = some a := by
  rw [DocOptions.withBare]
  split
  · rename_i hbare
    rw [Bool.and_eq_true, Option.isNone_iff_eq_none] at hbare
    cases h with
    | struct =>
      rw [DocOptions.get?, hbare.1] at ha
      cases ha
    | _ => exact ha
  · exact ha

end NativeGlue.Directive
