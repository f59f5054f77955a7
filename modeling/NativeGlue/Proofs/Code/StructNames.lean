import Mathlib.Data.List.Nodup
import NativeGlue.Proofs.Code.StructText

/-!
# Names in the glue of struct classes

The names of C functions for a struct class are put together from the name of the class, fixed words and the names of
its fields, as they are. So two of them can read the same although they come from different classes or fields: one
belongs to an accessor, and the class of the other one goes by a name that has the word of that accessor inside
(`Clash`). These are all the ways in which they can (`name_eq_iff`), and the functions of all struct classes of a
model have names of their own exactly if none of them occurs (`struct_names_distinct_iff`).
-/

namespace NativeGlue.Code

open NativeGlue.Mapping

/-! ## 1. What functions are for -/

/-- The functions that copy a whole struct. -/
inductive Copying where
  | cache
  | get
  | set
  deriving DecidableEq, Repr

/-- The functions that are about one field. -/
inductive Access where
  | get
  | set
  deriving DecidableEq, Repr

/-- What a function of a struct class is for. -/
inductive Purpose where
  | copy (c : Copying)
  | size
  | access (a : Access) (field : String)
  deriving DecidableEq, Repr

/-- The word that the name of a function begins with. -/
def Copying.word : Copying → String
  | cache => "cache"
  | get => "get"
  | set => "set"

/-- The word inside the name of an accessor. -/
def Access.word : Access → String
  | get => "get"
  | set => "set"

/-- The name of a function for a class. -/
def Purpose.name (className : String) : Purpose → String
  | copy c => c.word ++ (className ++ "Fields")
  | size => className ++ "_sizeof"
  | access a field => className ++ ("_" ++ (a.word ++ ("_" ++ field)))

/-- What there are functions for, for one field. -/
def accesses (g : GeneratedField) : List Purpose :=
  .access .get g.field.name :: if g.settable then [.access .set g.field.name] else []

/-- What there are functions for, for the fields of a class. -/
def purposes (gs : List GeneratedField) : List Purpose :=
  [.copy .cache, .copy .get, .copy .set, .size] ++ gs.flatMap accesses

/-- A declaration names a function between its type and its parameters. -/
def Declares (name text : String) : Prop :=
  ∃ type, ∃ mark ∈ [" ", " *"], ∃ params, text = type ++ (mark ++ (name ++ ("(" ++ params)))

theorem declares_of_toList {name text : String} (type mark params : String) (hmark : mark ∈ [" ", " *"])
    (h : text.toList = type.toList ++ (mark.toList ++ (name.toList ++ '(' :: params.toList))) :
    Declares name text := by
  refine ⟨type, mark, hmark, params, String.toList_injective ?_⟩
  simp only [h, String.toList_append]
  rfl

theorem forall₂_flatMap {α β γ : Type} {R : β → γ → Prop} {f : α → List β} {g : α → List γ} {l : List α}
    (h : ∀ a ∈ l, List.Forall₂ R (f a) (g a)) : List.Forall₂ R (l.flatMap f) (l.flatMap g) := by
  induction l with
  | nil => exact .nil
  | cons a l ih =>
    rw [List.flatMap_cons, List.flatMap_cons]
    exact List.rel_append (h a List.mem_cons_self) (ih fun b hb => h b (List.mem_cons_of_mem a hb))

/-- **There is a function for each purpose**, declared under its name. -/
theorem declares_functionsOf (s : StructClass) (gs : List GeneratedField) :
    List.Forall₂ (fun (p : Purpose) (f : CFunction) => Declares (p.name s.name) f.declaration) (purposes gs)
      (functionsOf s gs) := by
  refine List.rel_append (.cons ?_ (.cons ?_ (.cons ?_ (.cons ?_ .nil)))) (forall₂_flatMap fun g _ => ?_)
  · refine declares_of_toList "void" " " "JNIEnv *env, jobject lpObject);" (by decide) ?_
    simp [CFunction.declaration, cacheFunction, cacheHead, Purpose.name, Copying.word, toString]
  · refine declares_of_toList s.nativeName " *"
      ("JNIEnv *env, jobject lpObject, " ++ s.nativeName ++ " *lpStruct);") (by decide) ?_
    simp [CFunction.declaration, readFunction, getHead, Purpose.name, Copying.word, toString]
  · refine declares_of_toList "void" " "
      ("JNIEnv *env, jobject lpObject, " ++ s.nativeName ++ " *lpStruct);") (by decide) ?_
    simp [CFunction.declaration, writeFunction, setHead, Purpose.name, Copying.word, toString]
  · refine declares_of_toList "jint" " " "void);" (by decide) ?_
    simp [CFunction.declaration, sizeFunction, Purpose.name, toString]
  · have hgetter : Declares ((Purpose.access .get g.field.name).name s.name) (getterOf s g).declaration := by
      refine declares_of_toList g.mapping.abiType " " "jlong ptr);" (by decide) ?_
      simp [CFunction.declaration, getterOf, getterName, Purpose.name, Access.word, toString]
    have hsetter : Declares ((Purpose.access .set g.field.name).name s.name) (setterOf s g).declaration := by
      refine declares_of_toList "void" " "
        ("jlong ptr, " ++ g.mapping.abiType ++ " value);") (by decide) ?_
      simp [CFunction.declaration, setterOf, setterName, Purpose.name, Access.word, toString]
    refine .cons hgetter ?_
    split
    · exact .cons hsetter .nil
    · exact .nil

/-! ## 2. Names that read the same -/

theorem append_eq_append {a b c d : String} (h : a ++ b = c ++ d) :
    (∃ e, c = a ++ e ∧ b = e ++ d) ∨ ∃ e, a = c ++ e ∧ d = e ++ b := by
  have hlist := congrArg String.toList h
  rw [String.toList_append, String.toList_append] at hlist
  refine (List.append_eq_append_iff.1 hlist).imp ?_ ?_
  · rintro ⟨e, hc, hb⟩
    refine ⟨String.ofList e, String.toList_injective ?_, String.toList_injective ?_⟩
    · rw [hc, String.toList_append, String.toList_ofList]
    · rw [hb, String.toList_append, String.toList_ofList]
  · rintro ⟨e, ha, hd⟩
    refine ⟨String.ofList e, String.toList_injective ?_, String.toList_injective ?_⟩
    · rw [ha, String.toList_append, String.toList_ofList]
    · rw [hd, String.toList_append, String.toList_ofList]

theorem toList_underscore_append (r : String) : ("_" ++ r).toList = '_' :: r.toList := by
  rw [String.toList_append]
  rfl

/-- What comes before the end of a text with an underscore in front is empty, or begins with the underscore. -/
theorem exists_of_underscore_append {r x y : String} (h : "_" ++ r = x ++ y) :
    x = "" ∧ y = "_" ++ r ∨ ∃ z, x = "_" ++ z ∧ r = z ++ y := by
  have hchars := congrArg String.toList h
  rw [toList_underscore_append, String.toList_append] at hchars
  cases hx : x.toList with
  | nil =>
    obtain rfl : x = "" := String.toList_injective hx
    exact .inl ⟨rfl, by rw [h, String.empty_append]⟩
  | cons c z =>
    rw [hx, List.cons_append] at hchars
    obtain ⟨rfl, hr⟩ := List.cons.inj hchars
    refine .inr ⟨String.ofList z, String.toList_injective ?_, String.toList_injective ?_⟩
    · rw [hx, toList_underscore_append, String.toList_ofList]
    · rw [hr, String.toList_append, String.toList_ofList]

/-- Where a text goes on with an underscore, an end without one behind its first character begins there or behind
it. -/
theorem exists_of_append_underscore {a f s e : String} (he : '_' ∉ e.toList.tail) (h : s ++ e = a ++ ("_" ++ f)) :
    ∃ y, s = a ++ y ∧ "_" ++ f = y ++ e := by
  rcases append_eq_append h with ⟨y, ha, he'⟩ | ⟨y, hs, hf⟩
  · have hchars := congrArg String.toList he'
    rw [String.toList_append, toList_underscore_append] at hchars
    cases hy : y.toList with
    | nil =>
      obtain rfl : y = "" := String.toList_injective hy
      rw [String.append_empty] at ha
      rw [String.empty_append] at he'
      exact ⟨"", by rw [ha, String.append_empty], by rw [he', String.empty_append]⟩
    | cons c r =>
      rw [hchars, hy] at he
      exact absurd (List.mem_append_right r List.mem_cons_self) he
  · exact ⟨y, hs, hf⟩

/-- A word without underscores in front of a text is in front of what comes before the first underscore. -/
theorem exists_of_word_append {w t r s : String} (hw : '_' ∉ w.toList) (h : w ++ s = t ++ ("_" ++ r)) :
    ∃ x, t = w ++ x ∧ s = x ++ ("_" ++ r) := by
  rcases append_eq_append h with ⟨x, ht, hs⟩ | ⟨x, hwt, hr⟩
  · exact ⟨x, ht, hs⟩
  · rcases exists_of_underscore_append hr with ⟨rfl, hs⟩ | ⟨z, rfl, -⟩
    · exact ⟨"", by rw [hwt, String.append_empty, String.append_empty], by rw [hs, String.empty_append]⟩
    · rw [hwt, String.toList_append, String.toList_append] at hw
      exact absurd (List.mem_append_right _ (List.mem_append_left _ (by decide))) hw

theorem Copying.underscore_not_mem (c : Copying) : '_' ∉ c.word.toList := by
  cases c <;> decide

theorem Access.underscore_not_mem (a : Access) : '_' ∉ a.word.toList := by
  cases a <;> decide

/-- Two functions whose names read the same: one is an accessor, and the class of the other one goes by a name that
goes on with the word of the accessor. -/
inductive Clash : String × Purpose → String × Purpose → Prop
  | copy {t y f : String} {c : Copying} {a : Access} (h : "_" ++ f = y ++ "Fields") :
    Clash (t ++ ("_" ++ a.word) ++ y, .copy c) (c.word ++ t, .access a f)
  | size {t y f : String} {a : Access} (h : "_" ++ f = y ++ "_sizeof") :
    Clash (t ++ ("_" ++ a.word) ++ y, .size) (t, .access a f)
  | access {t y f g : String} {a b : Access} (h : "_" ++ f = y ++ ("_" ++ (b.word ++ ("_" ++ g)))) :
    Clash (t ++ ("_" ++ a.word) ++ y, .access b g) (t, .access a f)

theorem Clash.name_eq {x y : String × Purpose} (h : Clash x y) : x.2.name x.1 = y.2.name y.1 := by
  cases h with
  | copy h => simp only [Purpose.name, String.append_assoc, h]
  | size h => simp only [Purpose.name, String.append_assoc, h]
  | access h => simp only [Purpose.name, String.append_assoc, h]

theorem Clash.ne {x y : String × Purpose} (h : Clash x y) : x ≠ y := by
  intro hsame
  cases h with
  | copy => exact Purpose.noConfusion (Prod.mk.inj hsame).2
  | size => exact Purpose.noConfusion (Prod.mk.inj hsame).2
  | @access t y f g a b =>
    have hlength := congrArg String.length (Prod.mk.inj hsame).1
    have hword : ("_" ++ a.word).length = 4 := by cases a <;> rfl
    rw [String.length_append, String.length_append, hword] at hlength
    omega

/-- The class of a function that clashes with an accessor has the word of an accessor in its name. -/
theorem Clash.exists_word {x y : String × Purpose} (h : Clash x y) :
    ∃ a : Access, ("_" ++ a.word).toList <:+: x.1.toList := by
  have hwithin : ∀ t w y : String, w.toList <:+: (t ++ w ++ y).toList := by
    intro t w y
    exact ⟨t.toList, y.toList, by rw [String.toList_append, String.toList_append]⟩
  cases h with
  | copy => exact ⟨_, hwithin _ _ _⟩
  | size => exact ⟨_, hwithin _ _ _⟩
  | access => exact ⟨_, hwithin _ _ _⟩

section

variable {s t f g : String} {a b : Access} {c d : Copying}

theorem copy_name_eq (h : (Purpose.copy c).name s = (Purpose.copy d).name t) : c = d ∧ s = t := by
  have hword : c = d := by
    have hfirst := congrArg (fun n => n.toList.head?) h
    revert hfirst
    cases c <;> cases d <;> simp [Purpose.name, Copying.word]
  subst hword
  exact ⟨rfl, (String.append_left_inj _).1 ((String.append_right_inj _).1 h)⟩

theorem copy_name_ne_size : (Purpose.copy c).name s ≠ Purpose.size.name t := by
  intro h
  have hlast := congrArg (fun n => n.toList.getLast?) h
  simp [Purpose.name] at hlast

theorem clash_of_copy (h : (Purpose.copy c).name s = (Purpose.access a f).name t) :
    Clash (s, .copy c) (t, .access a f) := by
  obtain ⟨x, rfl, hx⟩ := exists_of_word_append c.underscore_not_mem h
  have hends : s ++ "Fields" = x ++ ("_" ++ a.word) ++ ("_" ++ f) := by
    rw [hx, String.append_assoc, String.append_assoc]
  obtain ⟨y, rfl, hf⟩ := exists_of_append_underscore (by decide) hends
  exact .copy hf

theorem clash_of_size (h : Purpose.size.name s = (Purpose.access a f).name t) :
    Clash (s, .size) (t, .access a f) := by
  have hends : s ++ "_sizeof" = t ++ ("_" ++ a.word) ++ ("_" ++ f) := by
    rw [String.append_assoc, String.append_assoc]
    exact h
  obtain ⟨y, rfl, hf⟩ := exists_of_append_underscore (by decide) hends
  exact .size hf

/-- Where the name of a class goes on in the name of an accessor, it goes on with the word of that accessor. -/
theorem clash_of_access {x : String}
    (h : "_" ++ (a.word ++ ("_" ++ f)) = x ++ ("_" ++ (b.word ++ ("_" ++ g)))) :
    x = "" ∧ a = b ∧ f = g ∨ Clash (t ++ x, .access b g) (t, .access a f) := by
  rcases exists_of_underscore_append h with ⟨rfl, hsame⟩ | ⟨z, rfl, hz⟩
  · have hword : b = a := by
      have hfirst := congrArg (fun n => (n.toList.drop 1).head?) hsame
      revert hfirst
      cases a <;> cases b <;> simp [Access.word]
    subst hword
    have hfield := (String.append_right_inj _).1 ((String.append_right_inj _).1 ((String.append_right_inj _).1 hsame))
    exact .inl ⟨rfl, rfl, hfield.symm⟩
  · obtain ⟨y, rfl, hf⟩ := exists_of_word_append a.underscore_not_mem hz
    have hclash := Clash.access (t := t) (a := a) hf
    rw [String.append_assoc, String.append_assoc] at hclash
    exact .inr hclash

end

/-- **The ways in which the names of two functions read the same.** -/
theorem name_eq_iff {s t : String} {p q : Purpose} :
    p.name s = q.name t ↔ (s, p) = (t, q) ∨ Clash (s, p) (t, q) ∨ Clash (t, q) (s, p) := by
  refine ⟨fun h => ?_, ?_⟩
  · cases p with
    | copy c =>
      cases q with
      | copy d =>
        obtain ⟨rfl, rfl⟩ := copy_name_eq h
        exact .inl rfl
      | size => exact absurd h copy_name_ne_size
      | access a f => exact .inr (.inl (clash_of_copy h))
    | size =>
      cases q with
      | copy c => exact absurd h.symm copy_name_ne_size
      | size => exact .inl (Prod.ext ((String.append_left_inj _).1 h) rfl)
      | access a f => exact .inr (.inl (clash_of_size h))
    | access a f =>
      cases q with
      | copy c => exact .inr (.inr (clash_of_copy h.symm))
      | size => exact .inr (.inr (clash_of_size h.symm))
      | access b g =>
        rcases append_eq_append h with ⟨x, rfl, hx⟩ | ⟨x, rfl, hx⟩
        · rcases clash_of_access hx with ⟨rfl, rfl, rfl⟩ | hclash
          · exact .inl (by rw [String.append_empty])
          · exact .inr (.inr hclash)
        · rcases clash_of_access hx with ⟨rfl, rfl, rfl⟩ | hclash
          · exact .inl (by rw [String.append_empty])
          · exact .inr (.inl hclash)
  · rintro (h | h | h)
    · cases h
      rfl
    · exact h.name_eq
    · exact h.name_eq.symm

/-! ## 3. Names in a whole model -/

/-- What there are functions for, for the struct classes of a model, and the class that each is for. -/
def entries (rs : List RenderedStruct) : List (String × Purpose) :=
  rs.flatMap fun r => (purposes r.fields).map fun p => (r.struct.name, p)

/-- The names of the functions for the struct classes of a model. -/
def functionNames (rs : List RenderedStruct) : List String := (entries rs).map fun x => x.2.name x.1

/-- The members of the type of a cache: their types and their names. -/
def cacheMembers (gs : List GeneratedField) : List (String × String) :=
  [("int", "cached"), ("jclass", "clazz")] ++ gs.map fun g => ("jfieldID", g.field.name)

theorem nodup_purposes {gs : List GeneratedField} (h : (gs.map (·.field.name)).Nodup) : (purposes gs).Nodup := by
  have haccess : ∀ g : GeneratedField, ∀ p ∈ accesses g, ∃ a, p = .access a g.field.name := by
    intro g p hp
    unfold accesses at hp
    split at hp
    · simp only [List.mem_cons, List.not_mem_nil, or_false] at hp
      rcases hp with rfl | rfl
      · exact ⟨_, rfl⟩
      · exact ⟨_, rfl⟩
    · exact ⟨_, List.mem_singleton.1 hp⟩
  unfold purposes
  refine List.nodup_append.2 ⟨by decide, List.nodup_flatMap.2 ⟨fun g _ => ?_, ?_⟩, ?_⟩
  · unfold accesses
    split
    · simp
    · simp
  · refine (List.pairwise_map.1 h).imp fun hne p hp hp' => ?_
    obtain ⟨a, rfl⟩ := haccess _ p hp
    obtain ⟨b, hb⟩ := haccess _ _ hp'
    exact hne (Purpose.access.inj hb).2
  · rintro p hp q hq rfl
    obtain ⟨g, -, hq⟩ := List.mem_flatMap.1 hq
    obtain ⟨a, rfl⟩ := haccess g p hq
    simp at hp

theorem nodup_entries {rs : List RenderedStruct} (hclasses : (rs.map (·.struct.name)).Nodup)
    (hfields : ∀ r ∈ rs, (r.fields.map (·.field.name)).Nodup) : (entries rs).Nodup := by
  refine List.nodup_flatMap.2 ⟨fun r hr => ?_, (List.pairwise_map.1 hclasses).imp fun hne x hx hx' => ?_⟩
  · exact (nodup_purposes (hfields r hr)).map fun p q h => (Prod.mk.inj h).2
  · obtain ⟨p, -, rfl⟩ := List.mem_map.1 hx
    obtain ⟨q, -, hq⟩ := List.mem_map.1 hx'
    exact hne (Prod.mk.inj hq).1.symm

/-- **Different functions have names of their own exactly if none of them clash.** -/
theorem nodup_functionNames_iff {rs : List RenderedStruct} (h : (entries rs).Nodup) :
    (functionNames rs).Nodup ↔ ∀ x ∈ entries rs, ∀ y ∈ entries rs, ¬ Clash x y := by
  unfold functionNames
  rw [List.nodup_map_iff_inj_on h]
  refine ⟨fun hinj x hx y hy hclash => hclash.ne (hinj x hx y hy hclash.name_eq), fun hno x hx y hy hname => ?_⟩
  rcases name_eq_iff.1 hname with hsame | hclash | hclash
  · exact hsame
  · exact absurd hclash (hno x hx y hy)
  · exact absurd hclash (hno y hy x hx)

/-! ## 4. What is written -/

/-- The text of a line, unless the line is for the preprocessor. -/
def Line.code? : Line → Option String
  | l@(.indented _ _) => some l.text
  | .flush _ => none

/-- The code of a text. -/
def IndentedText.code (b : IndentedText) : List String := b.lines.filterMap Line.code?

/-- Code under construction, at a depth, has grown by certain lines of code, and the same blocks are open. -/
structure Adds (d : Nat) (b b' : IndentedText) (more : List String) : Prop where
  depth : b'.depth = d
  closing : b'.closing = b.closing
  code : b'.code = b.code ++ more

namespace Adds

variable {d : Nat} {b b' c : IndentedText} {more rest : List String}

theorem refl (h : b.depth = d) : Adds d b b [] := ⟨h, rfl, (List.append_nil _).symm⟩

theorem trans (h : Adds d b b' more) (h' : Adds d b' c rest) : Adds d b c (more ++ rest) :=
  ⟨h'.depth, h'.closing.trans h.closing, by rw [h'.code, h.code, List.append_assoc]⟩

theorem line (h : b.depth = d) (text : String) : Adds d b (b.line text) [(Line.indented d text).text] :=
  ⟨h, rfl, by simp [IndentedText.code, IndentedText.line, IndentedText.push, Line.code?, h]⟩

theorem raw (h : b.depth = d) (text : String) : Adds d b (b.raw text) [] :=
  ⟨h, rfl, by simp [IndentedText.code, IndentedText.raw, IndentedText.push, Line.code?]⟩

theorem addLines (h : b.depth = d) (texts : List String) :
    Adds d b (b.addLines texts) (texts.map fun t => (Line.indented d t).text) := by
  induction texts generalizing b with
  | nil => exact refl h
  | cons t r ih => exact (line h t).trans (ih h)

/-- The lines around what is under a condition are no code. -/
theorem underCondition {write : IndentedText → GeneratedField → IndentedText} {g : GeneratedField}
    (hwrite : ∀ b, b.depth = d → Adds d b (write b g) more) (h : b.depth = d) :
    Adds d b (Code.underCondition write b g) more := by
  unfold Code.underCondition openCondition closeCondition
  cases g.condition with
  | none => exact hwrite b h
  | some text =>
    have hinner := hwrite (b.raw ("#if " ++ text)) h
    have hall := ((raw h _).trans hinner).trans (raw hinner.depth "#endif")
    rwa [List.nil_append, List.append_nil] at hall

theorem foldl {step : IndentedText → GeneratedField → IndentedText} {out : GeneratedField → List String}
    (hstep : ∀ g b, b.depth = d → Adds d b (step b g) (out g)) (gs : List GeneratedField) (h : b.depth = d) :
    Adds d b (gs.foldl step b) (gs.flatMap out) := by
  induction gs generalizing b with
  | nil => exact refl h
  | cons g gs ih =>
    have hfirst := hstep g b h
    exact hfirst.trans (ih hfirst.depth)

theorem fields {write : IndentedText → GeneratedField → IndentedText} {out : GeneratedField → List String}
    (hwrite : ∀ g b, b.depth = d → Adds d b (write b g) (out g)) (gs : List GeneratedField) (h : b.depth = d) :
    Adds d b (gs.foldl (Code.underCondition write) b) (gs.flatMap out) :=
  foldl (fun g _ hb => underCondition (hwrite g) hb) gs h

/-- A block: its header, what is in it a level deeper, and its footer. -/
theorem block {header footer : String} (h : b.depth = d)
    (hinner : Adds (d + 1) (b.openBlock header footer) b' more) :
    Adds d b b'.closeBlock
      ((Line.indented d header).text :: more ++ [(Line.indented d footer).text]) := by
  have hopened : (b.openBlock header footer).code = b.code ++ [(Line.indented d header).text] :=
    (line h header).code
  unfold IndentedText.closeBlock
  rw [show b'.closing = footer :: b.closing from hinner.closing]
  have hdepth : ({ b' with closing := b.closing }).dedent.depth = d := by
    simp [IndentedText.dedent, hinner.depth]
  refine ⟨hdepth, rfl, (line hdepth footer).code.trans ?_⟩
  have hcode : ({ b' with closing := b.closing }).dedent.code = b'.code := rfl
  rw [hcode, hinner.code, hopened]
  simp

end Adds

/-- **The header declares the functions of a struct class.** -/
theorem code_declarations (s : StructClass) (gs : List GeneratedField) :
    (declarations s gs).code = (functionsOf s gs).map (·.declaration) := by
  have haccessors : ∀ g b, b.depth = 0 →
      Adds 0 b (declareAccessors s b g) ((accessorsOf s g).map (·.declaration)) := by
    intro g b hb
    have hgetter := Adds.line hb (getterOf s g).declaration
    unfold declareAccessors accessorsOf
    rw [← declaration_getterOf, ← declaration_setterOf]
    dsimp only
    split
    · have hboth := hgetter.trans (Adds.line hgetter.depth (setterOf s g).declaration)
      simpa [text_indented_zero] using hboth
    · simpa [text_indented_zero] using hgetter
  have hfirst := Adds.addLines (b := {}) rfl
    [cacheHead s ++ ";", getHead s ++ ";", setHead s ++ ";", s!"jint {s.name}_sizeof(void);"]
  have hall := (hfirst.trans (Adds.fields haccessors gs hfirst.depth)).code
  unfold declarations functionsOf
  rw [hall]
  simp [IndentedText.code, CFunction.declaration, cacheFunction, readFunction, writeFunction, sizeFunction,
    text_indented_zero, toString, List.map_flatMap, String.append_assoc]

/-- **The type of the cache has these members.** -/
theorem code_cacheDeclaration (s : StructClass) (gs : List GeneratedField) :
    (cacheDeclaration s gs).code =
      s!"typedef struct {s.name}_FID_CACHE \x7b" ::
        (cacheMembers gs).map (fun m => (Line.indented 1 (m.1 ++ " " ++ m.2 ++ ";")).text) ++
          [s!"\x7d {s.name}_FID_CACHE;"] := by
  have hfield : ∀ (g : GeneratedField) (b : IndentedText), b.depth = 1 →
      Adds 1 b (b.line s!"jfieldID {g.field.name};") [cacheMember g.field.name] :=
    fun g b hb => Adds.line hb s!"jfieldID {g.field.name};"
  have hfixed := Adds.addLines (d := 1)
    (b := IndentedText.openBlock {} s!"typedef struct {s.name}_FID_CACHE \x7b" s!"\x7d {s.name}_FID_CACHE;") rfl
    ["int cached;", "jclass clazz;"]
  have hall := (Adds.block (d := 0) (b := {}) rfl (hfixed.trans (Adds.fields hfield gs hfixed.depth))).code
  unfold cacheDeclaration cacheMembers
  dsimp only
  rw [hall]
  rw [List.map_append, List.map_map, ← List.map_eq_flatMap]
  simp only [text_indented_zero]
  rfl

/-- What is written for a struct class: the header declares a function for each purpose, under its name, and the type
of the cache has these members. -/
structure WrittenUnderNames (r : RenderedStruct) : Prop where
  functions : List.Forall₂ (fun (p : Purpose) (text : String) => Declares (p.name r.struct.name) text)
    (purposes r.fields) (declarations r.struct r.fields).code
  members : (cacheDeclaration r.struct r.fields).code =
    s!"typedef struct {r.struct.name}_FID_CACHE \x7b" ::
      (cacheMembers r.fields).map (fun m => (Line.indented 1 (m.1 ++ " " ++ m.2 ++ ";")).text) ++
        [s!"\x7d {r.struct.name}_FID_CACHE;"]

theorem writtenUnderNames (r : RenderedStruct) : WrittenUnderNames r where
  functions := by
    rw [code_declarations]
    exact List.forall₂_map_right_iff.2 (declares_functionsOf r.struct r.fields)
  members := code_cacheDeclaration r.struct r.fields

/-- When names in the glue of struct classes are names of one thing only. -/
structure NamesApart (rs : List RenderedStruct) : Prop where
  written : ∀ r ∈ rs, WrittenUnderNames r
  functions : (functionNames rs).Nodup ↔ ∀ x ∈ entries rs, ∀ y ∈ entries rs, ¬ Clash x y
  plain : (∀ r ∈ rs, ∀ a : Access, ¬ ("_" ++ a.word).toList <:+: r.struct.name.toList) → (functionNames rs).Nodup
  members : ∀ r ∈ rs, (∀ g ∈ r.fields, g.field.name ∉ ["cached", "clazz"]) →
    ((cacheMembers r.fields).map (·.2)).Nodup

theorem nodup_cacheMembers {gs : List GeneratedField} (h : (gs.map (·.field.name)).Nodup)
    (hfixed : ∀ g ∈ gs, g.field.name ∉ ["cached", "clazz"]) : ((cacheMembers gs).map (·.2)).Nodup := by
  unfold cacheMembers
  rw [List.map_append, List.map_map]
  refine List.nodup_append.2 ⟨by decide, h, ?_⟩
  rintro x hx y hy rfl
  obtain ⟨g, hg, rfl⟩ := List.mem_map.1 hy
  exact hfixed g hg hx

theorem namesApart {rs : List RenderedStruct} (hclasses : (rs.map (·.struct.name)).Nodup)
    (hfields : ∀ r ∈ rs, (r.fields.map (·.field.name)).Nodup) : NamesApart rs where
  written r _ := writtenUnderNames r
  functions := nodup_functionNames_iff (nodup_entries hclasses hfields)
  plain := by
    intro hplain
    refine (nodup_functionNames_iff (nodup_entries hclasses hfields)).2 fun x hx y _ hclash => ?_
    obtain ⟨a, hword⟩ := hclash.exists_word
    obtain ⟨r, hr, hx⟩ := List.mem_flatMap.1 hx
    obtain ⟨p, -, rfl⟩ := List.mem_map.1 hx
    exact hplain r hr a hword
  members r hr := nodup_cacheMembers (hfields r hr)

/-- **The names in the glue of the struct classes of a model.** Where classes have names of their own, and so have the
fields of each class, functions do exactly if none of them clash, for instance if no class has the word of an
accessor in its name; and so have the members of the type of each cache, if no field goes by a name of the others. -/
theorem struct_names_distinct_iff {e : Mapper} {defines : List (String × String)} {m : Model}
    {rs : List RenderedStruct} (hrs : (m.structs.filter (·.generated)).mapM (renderStruct e defines) = .ok rs)
    (hclasses : (m.structs.map (·.name)).Nodup) (hfields : ∀ s ∈ m.structs, (s.fields.map (·.name)).Nodup) :
    NamesApart rs := by
  have hrendered := (forall₂_of_mapM hrs).imp fun s r h => of_renderStruct h
  refine namesApart (List.pairwise_map.2 ?_) fun r hr => List.pairwise_map.2 ?_
  · refine pairwise_of_forall₂ (fun h h' hne => ?_) hrendered ((List.pairwise_map.1 hclasses).filter _)
    rwa [h.1, h'.1]
  · obtain ⟨s, hs, -, -, hgenerated⟩ := exists_of_mem_forall₂ hrendered hr
    have hmade := (forall₂_of_mapM hgenerated).imp fun f g h => show g.field = f by
      obtain ⟨mapping, -, h⟩ := ok_of_bind h
      exact Except.ok.inj h ▸ rfl
    have hnames := List.pairwise_map.1 (hfields s (List.mem_of_mem_filter hs))
    refine pairwise_of_forall₂ (fun h h' hne => ?_) hmade (hnames.filter _)
    rwa [h, h']

/-- A struct class of given fields, without doc comments on them. -/
def outlinedStruct (name : String) (fields : List String) : Java.ClassOutline where
  name := name
  line := 1
  natives := []
  fields := fields.map fun f => ⟨f, "int", 2, none⟩
  doc := some ⟨"/** @struct */", 1⟩

/-- A file with struct classes. -/
def structsFile (classes : List Java.ClassOutline) : List Source.OutlinedFile :=
  [{ path := ⟨.here, ["OS.java"]⟩, outline := { package := "", classes := classes } }]

/-- Two classes with names of which one begins with the other one, as names of accessors do. -/
def similarFile : List Source.OutlinedFile :=
  structsFile [outlinedStruct "Point" ["x", "size"], outlinedStruct "Point_get" ["x"]]

theorem struct_names_distinct_iff_similarFile : ∃ m rs, Source.modelOf {} similarFile = .ok m ∧
    (m.structs.filter (·.generated)).mapM (renderStruct ⟨"gtk", 64, 8, standardRules⟩ []) = .ok rs ∧
    (m.structs.map (·.name)).Nodup ∧ (∀ s ∈ m.structs, (s.fields.map (·.name)).Nodup) ∧
    (entries rs).length = 14 ∧ NamesApart rs ∧ ∀ x ∈ entries rs, ∀ y ∈ entries rs, ¬ Clash x y := by
  have hbuilt : ∃ m ∈ (Source.modelOf {} similarFile).toOption,
      ∃ rs ∈ ((m.structs.filter (·.generated)).mapM
        (renderStruct ⟨"gtk", 64, 8, standardRules⟩ [])).toOption,
      (m.structs.map (·.name)).Nodup ∧ (∀ s ∈ m.structs, (s.fields.map (·.name)).Nodup) ∧
        (entries rs).length = 14 ∧ (functionNames rs).Nodup := by
    decide +kernel
  obtain ⟨m, hm, rs, hrs, hclasses, hfields, hlength, hnames⟩ := hbuilt
  have hapart := struct_names_distinct_iff (ok_of_toOption hrs) hclasses hfields
  exact ⟨m, rs, ok_of_toOption hm, ok_of_toOption hrs, hclasses, hfields, hlength, hapart,
    hapart.functions.1 hnames⟩

/-- Two classes of which one goes by the name of the other one, the word of an accessor and the beginning of the
name of a field; and a field that goes by the name of another member of the type of the cache. -/
def clashingFile : List Source.OutlinedFile :=
  structsFile [outlinedStruct "A" ["b_get_c", "cached"], outlinedStruct "A_get_b" ["c"]]

/-- **Two functions have one name** although classes have names of their own, and so have the fields of each class;
and so do two members of the type of a cache. -/
theorem not_struct_names_distinct : ∃ m rs, Source.modelOf {} clashingFile = .ok m ∧
    (m.structs.filter (·.generated)).mapM (renderStruct ⟨"gtk", 64, 8, standardRules⟩ []) = .ok rs ∧
    (m.structs.map (·.name)).Nodup ∧ (∀ s ∈ m.structs, (s.fields.map (·.name)).Nodup) ∧
    ¬ (functionNames rs).Nodup ∧
    (rs.flatMap fun r => (declarations r.struct r.fields).code).count "jint A_get_b_get_c(jlong ptr);" = 2 ∧
    ∃ r ∈ rs, ¬ ((cacheMembers r.fields).map (·.2)).Nodup := by
  have hbuilt : ∃ m ∈ (Source.modelOf {} clashingFile).toOption,
      ∃ rs ∈ ((m.structs.filter (·.generated)).mapM
        (renderStruct ⟨"gtk", 64, 8, standardRules⟩ [])).toOption,
      (m.structs.map (·.name)).Nodup ∧ (∀ s ∈ m.structs, (s.fields.map (·.name)).Nodup) ∧
        ¬ (functionNames rs).Nodup ∧
        (rs.flatMap fun r => (declarations r.struct r.fields).code).count "jint A_get_b_get_c(jlong ptr);" = 2 ∧
        ∃ r ∈ rs, ¬ ((cacheMembers r.fields).map (·.2)).Nodup := by
    decide +kernel
  obtain ⟨m, hm, rs, hrs, h⟩ := hbuilt
  exact ⟨m, rs, ok_of_toOption hm, ok_of_toOption hrs, h⟩

end NativeGlue.Code
