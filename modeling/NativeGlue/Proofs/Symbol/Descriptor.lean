import Mathlib.Data.List.TakeWhile
import NativeGlue.Proofs.Keyed
import NativeGlue.Proofs.Symbol.Segments
import NativeGlue.Source.TypeName

/-!
# Descriptors

The descriptors of types are a letter, a class name between `L` and `;`, or a bracket in front of a
descriptor. No descriptor is the beginning of another one, so a signature, in which descriptors stand
side by side, has one reading only (`flatten_injective`), and a signature can stand behind a name
(`isSignature_flatten`). What a type name of the language means has such a descriptor
(`isDescriptor_typeNamed`). The signature is cut out of the descriptor of a method at the first
parenthesis that closes (`signaturePart_eq_iff`).
-/

namespace NativeGlue.Symbol

open NativeGlue.Text

/-! ## 1. The language of descriptors -/

/-- The letters of primitive types and of `void`. -/
def descriptorLetters : List Char := ['Z', 'B', 'C', 'S', 'I', 'J', 'F', 'D', 'V']

/-- A descriptor. -/
inductive IsDescriptor : List Char → Prop
  | letter {c : Char} (h : c ∈ descriptorLetters) : IsDescriptor [c]
  | object {ss : List (List Char)} (ne_nil : ss ≠ []) (h : ∀ s ∈ ss, IsIdentifier s) :
      IsDescriptor ('L' :: (joined ss ++ [';']))
  | array {d : List Char} (h : IsDescriptor d) : IsDescriptor ('[' :: d)

theorem not_mem_joined {ss : List (List Char)} (h : ∀ s ∈ ss, IsIdentifier s) {c : Char}
    (hm : isMark c = true) (hc : c ≠ '/') : c ∉ joined ss := by
  intro hj
  rcases mem_joined hj with rfl | ⟨s, hs, hcs⟩
  · exact hc rfl
  · exact (h s hs).not_mem hm hcs

/-- **No descriptor is the beginning of another one.** -/
theorem IsDescriptor.cancel {a b r s : List Char} (ha : IsDescriptor a) (hb : IsDescriptor b)
    (h : a ++ r = b ++ s) : a = b ∧ r = s := by
  induction ha generalizing b with
  | letter hc =>
    cases hb with
    | letter hd =>
      obtain ⟨rfl, hrs⟩ := List.cons.inj h
      exact ⟨rfl, hrs⟩
    | object =>
      rw [(List.cons.inj h).1] at hc
      exact absurd hc (by decide)
    | array =>
      rw [(List.cons.inj h).1] at hc
      exact absurd hc (by decide)
  | object hne hs =>
    cases hb with
    | letter hd =>
      rw [← (List.cons.inj h).1] at hd
      exact absurd hd (by decide)
    | object hne' hs' =>
      rw [List.cons_append, List.cons_append, List.append_assoc, List.append_assoc] at h
      have h := (List.cons.inj h).2
      have hsemi := not_mem_joined hs (c := ';') rfl (by decide)
      have hsemi' := not_mem_joined hs' (c := ';') rfl (by decide)
      obtain ⟨he, h⟩ := append_cancel hsemi hsemi' (.inr ⟨r, rfl⟩) (.inr ⟨s, rfl⟩) h
      rw [he]
      exact ⟨rfl, (List.cons.inj h).2⟩
    | array => cases (List.cons.inj h).1
  | array _ ih =>
    cases hb with
    | letter hd =>
      rw [← (List.cons.inj h).1] at hd
      exact absurd hd (by decide)
    | object => cases (List.cons.inj h).1
    | array hb =>
      obtain ⟨rfl, hrs⟩ := ih hb (List.cons.inj h).2
      exact ⟨rfl, hrs⟩

theorem IsDescriptor.ne_nil {d : List Char} (h : IsDescriptor d) : d ≠ [] := by
  cases h <;> exact List.cons_ne_nil _ _

/-- **Descriptors side by side have one reading only.** -/
theorem flatten_injective {l k : List (List Char)} (hl : ∀ d ∈ l, IsDescriptor d)
    (hk : ∀ d ∈ k, IsDescriptor d) (h : l.flatten = k.flatten) : l = k := by
  induction l generalizing k with
  | nil =>
    cases k with
    | nil => rfl
    | cons d k =>
      rw [List.flatten_nil, List.flatten_cons] at h
      have hd := List.append_eq_nil_iff.1 h.symm
      exact absurd hd.1 (hk d List.mem_cons_self).ne_nil
  | cons e l ih =>
    cases k with
    | nil =>
      rw [List.flatten_nil, List.flatten_cons] at h
      exact absurd (List.append_eq_nil_iff.1 h).1 (hl e List.mem_cons_self).ne_nil
    | cons d k =>
      rw [List.flatten_cons, List.flatten_cons] at h
      obtain ⟨rfl, h'⟩ := (hl e List.mem_cons_self).cancel (hk d List.mem_cons_self) h
      rw [ih (fun x hx => hl x (List.mem_cons_of_mem _ hx))
        (fun x hx => hk x (List.mem_cons_of_mem _ hx)) h']

theorem readable_cons {c : Char} (hd : c ≠ '.') (hs : c ≠ '/') {t : List Char} (ht : Readable t) :
    Readable (c :: t) :=
  ⟨fun h => (h.elim hd hs).elim, ht⟩

/-- What a descriptor does to the text behind it. -/
theorem IsDescriptor.readable {d t : List Char} (h : IsDescriptor d) (ht : Readable t) :
    Readable (d ++ t) ∧ looksEscaped (d ++ t) = false := by
  induction h with
  | letter hc =>
    simp only [descriptorLetters, List.mem_cons, List.not_mem_nil, or_false] at hc
    rcases hc with rfl | rfl | rfl | rfl | rfl | rfl | rfl | rfl | rfl
    all_goals exact ⟨readable_cons (by decide) (by decide) ht, rfl⟩
  | object hne hs =>
    have hsemi : Readable (';' :: t) := readable_cons (by decide) (by decide) ht
    obtain ⟨h1, -⟩ := readable_joined hne hs hsemi
    rw [List.cons_append, List.append_assoc]
    exact ⟨readable_cons (by decide) (by decide) h1, rfl⟩
  | array _ ih => exact ⟨readable_cons (by decide) (by decide) ih.1, rfl⟩

/-- A descriptor holds neither a dot nor a closing parenthesis. -/
theorem IsDescriptor.not_mem {d : List Char} (h : IsDescriptor d) {c : Char}
    (hc : c = '.' ∨ c = ')') : c ∉ d := by
  induction h with
  | letter hl =>
    rw [List.mem_singleton]
    rintro rfl
    rcases hc with rfl | rfl
    · exact absurd hl (by decide)
    · exact absurd hl (by decide)
  | object hne hs =>
    intro hm
    rcases List.mem_cons.1 hm with rfl | hm
    · rcases hc with hc | hc
      · cases hc
      · cases hc
    rcases List.mem_append.1 hm with hm | hm
    · rcases hc with rfl | rfl
      · exact not_mem_joined hs rfl (by decide) hm
      · exact not_mem_joined hs rfl (by decide) hm
    · rw [List.mem_singleton.1 hm] at hc
      rcases hc with hc | hc
      · cases hc
      · cases hc
  | array _ ih =>
    intro hm
    rcases List.mem_cons.1 hm with rfl | hm
    · rcases hc with hc | hc
      · cases hc
      · cases hc
    · exact ih hm

/-- **A signature can stand behind a name.** -/
theorem isSignature_flatten {l : List (List Char)} (h : ∀ d ∈ l, IsDescriptor d) :
    IsSignature l.flatten := by
  have hread : Readable l.flatten ∧ looksEscaped l.flatten = false := by
    induction l with
    | nil => exact ⟨trivial, rfl⟩
    | cons d l ih =>
      rw [List.flatten_cons]
      exact (h d List.mem_cons_self).readable (ih fun x hx => h x (List.mem_cons_of_mem _ hx)).1
  refine ⟨hread.1, hread.2, fun hm => ?_⟩
  obtain ⟨d, hd, hm⟩ := List.mem_flatten.1 hm
  exact (h d hd).not_mem (.inl rfl) hm

/-! ## 2. Class names -/

/-- A class name with slashes between its segments. -/
def IsClassPath (name : String) : Prop :=
  ∃ ss, ss ≠ [] ∧ (∀ s ∈ ss, IsIdentifier s) ∧ name.toList = joined ss

theorem isClassPath_of_isIdentifier {name : String} (h : IsIdentifier name.toList) :
    IsClassPath name := by
  refine ⟨[name.toList], List.cons_ne_nil _ _, fun s hs => ?_, (joined_singleton _).symm⟩
  rw [List.mem_singleton.1 hs]
  exact h

theorem IsClassPath.isEmpty {name : String} (h : IsClassPath name) : name.isEmpty = false := by
  obtain ⟨ss, hne, hs, hj⟩ := h
  refine Bool.eq_false_iff.2 fun he => ?_
  rw [String.isEmpty_iff.1 he] at hj
  obtain ⟨s, r, rfl⟩ := List.exists_cons_of_ne_nil hne
  obtain ⟨c, t, rfl, -⟩ := (hs s List.mem_cons_self).begins
  by_cases hr : r = []
  · rw [hr, joined_singleton] at hj
    cases hj
  · rw [joined_cons hr] at hj
    cases hj

theorem primitiveDescriptor?_cases (name : String) :
    primitiveDescriptor? name = none ∨
      ∃ c ∈ descriptorLetters, primitiveDescriptor? name = some (String.singleton c) := by
  unfold primitiveDescriptor?
  split
  · exact .inr ⟨'Z', by decide, rfl⟩
  · exact .inr ⟨'B', by decide, rfl⟩
  · exact .inr ⟨'C', by decide, rfl⟩
  · exact .inr ⟨'S', by decide, rfl⟩
  · exact .inr ⟨'I', by decide, rfl⟩
  · exact .inr ⟨'J', by decide, rfl⟩
  · exact .inr ⟨'F', by decide, rfl⟩
  · exact .inr ⟨'D', by decide, rfl⟩
  · exact .inr ⟨'V', by decide, rfl⟩
  · exact .inl rfl

/-- A type whose class has a name in segments has a descriptor. -/
theorem isDescriptor_of_className {t : HostType} (h : IsClassPath t.className) :
    IsDescriptor t.descriptor.toList := by
  have element : IsDescriptor t.elementDescriptor.toList := by
    unfold HostType.elementDescriptor
    rcases primitiveDescriptor?_cases t.name with hn | ⟨c, hc, hs⟩
    · rw [hn]
      dsimp only
      split
      · exact .letter (by decide)
      · obtain ⟨ss, hne, hs, hj⟩ := h
        have hl : ("L" ++ t.className ++ ";").toList = 'L' :: (joined ss ++ [';']) := by
          rw [String.toList_append, String.toList_append, hj]
          rfl
        rw [hl]
        exact .object hne hs
    · rw [hs]
      dsimp only
      rw [String.toList_singleton]
      exact .letter hc
  rw [HostType.descriptor, String.toList_append, toList_copies_char rfl]
  induction t.dimensions with
  | zero => exact element
  | succ n ih =>
    rw [List.replicate_succ, List.cons_append]
    exact .array ih

/-! ## 3. Type names -/

/-- A type as a declaration writes it: segments with dots between them, and pairs of brackets. -/
def IsTypeText (text : String) : Prop :=
  ∃ ss n, ss ≠ [] ∧ (∀ s ∈ ss, IsIdentifier s) ∧
    text.toList = ['.'].intercalate ss ++ (List.replicate n ['[', ']']).flatten

/-- Segments with dots between them are the segments with slashes once dots are slashes. -/
theorem slashed_intercalate {ss : List (List Char)} (h : ∀ s ∈ ss, IsIdentifier s) :
    slashed (['.'].intercalate ss) = joined ss := by
  have plain : ∀ {s}, IsIdentifier s → slashed s = s := fun hs =>
    slashed_of_not_mem (hs.not_mem rfl)
  induction ss with
  | nil => rfl
  | cons s r ih =>
    have hs := plain (h s List.mem_cons_self)
    have ih := ih fun x hx => h x (List.mem_cons_of_mem _ hx)
    by_cases hr : r = []
    · rw [hr, List.intercalate_singleton, joined_singleton, hs]
    · rw [List.intercalate_cons_of_ne_nil hr, joined_cons hr, ← ih]
      conv => rhs; rw [← hs]
      simp only [slashed, List.map_append, List.append_assoc]
      rfl

/-- No bracket stands in segments. -/
theorem not_mem_intercalate {ss : List (List Char)} (h : ∀ s ∈ ss, IsIdentifier s) :
    ']' ∉ ['.'].intercalate ss := by
  intro hm
  have hs : ']' ∈ slashed (['.'].intercalate ss) := List.mem_map.2 ⟨']', hm, rfl⟩
  rw [slashed_intercalate h] at hs
  exact not_mem_joined h rfl (by decide) hs

theorem dropBrackets_replicate (n k : Nat) {r : List Char} (hr : ∀ s, r ≠ ']' :: s) :
    Source.dropBrackets k ((List.replicate n [']', '[']).flatten ++ r) = (k + n, r) := by
  induction n generalizing k with
  | zero =>
    rw [List.replicate_zero, List.flatten_nil, List.nil_append]
    unfold Source.dropBrackets
    split
    · rename_i s
      exact absurd rfl (hr _)
    · rfl
  | succ n ih =>
    rw [List.replicate_succ, List.flatten_cons]
    simp only [List.cons_append, List.nil_append]
    rw [Source.dropBrackets, ih]
    congr 1
    omega

/-- Brackets are taken away and counted. -/
theorem dropBrackets_text {base : List Char} (hb : ']' ∉ base) (n : Nat) :
    Source.dropBrackets 0 (base ++ (List.replicate n ['[', ']']).flatten).reverse =
      (n, base.reverse) := by
  have hrev : (base ++ (List.replicate n ['[', ']']).flatten).reverse =
      (List.replicate n [']', '[']).flatten ++ base.reverse := by
    rw [List.reverse_append, List.reverse_flatten, List.map_replicate, List.reverse_replicate]
    rfl
  rw [hrev, dropBrackets_replicate n 0, Nat.zero_add]
  intro s hs
  exact hb (List.mem_reverse.1 (hs ▸ List.mem_cons_self))

theorem isClassPath_primitive {name : String} (h : primitives.contains name = true) :
    IsClassPath name := by
  have h : name ∈ primitives := List.contains_iff_mem.1 h
  refine isClassPath_of_isIdentifier ?_
  simp only [primitives, List.mem_cons, List.not_mem_nil, or_false] at h
  rcases h with rfl | rfl | rfl | rfl | rfl | rfl | rfl | rfl
  all_goals exact ⟨⟨_, _, rfl, rfl⟩, by decide⟩

/-- A name without dots is a single segment. -/
theorem isIdentifier_of_undotted {base : String} {ss : List (List Char)} (hne : ss ≠ [])
    (hs : ∀ s ∈ ss, IsIdentifier s) (hb : base.toList = ['.'].intercalate ss)
    (hdot : '.' ∉ base.toList) : IsIdentifier base.toList := by
  obtain ⟨s, r, rfl⟩ := List.exists_cons_of_ne_nil hne
  by_cases hr : r = []
  · rw [hb, hr, List.intercalate_singleton]
    exact hs s List.mem_cons_self
  · rw [hb, List.intercalate_cons_of_ne_nil hr] at hdot
    exact absurd (List.mem_append_left _ (List.mem_append_right _ List.mem_cons_self)) hdot

theorem afterLastDot_of_undotted {base : String} (h : '.' ∉ base.toList) :
    Source.afterLastDot base = base := by
  have hsplit : base.toList.splitOn '.' = [base.toList] := by
    have hone : ∀ l ∈ [base.toList], '.' ∉ l := fun l hl => List.mem_singleton.1 hl ▸ h
    have := List.splitOn_intercalate '.' hone (List.cons_ne_nil _ _)
    rwa [List.intercalate_singleton] at this
  rw [Source.afterLastDot, splitAt, hsplit]
  exact String.ofList_toList

/-- The class behind a name: it is taken at its word, or known by its simple name. -/
theorem isClassPath_path {base : String} {ss : List (List Char)} (hne : ss ≠ [])
    (hs : ∀ s ∈ ss, IsIdentifier s) (hb : base.toList = ['.'].intercalate ss)
    {qualified : List (String × String)} (hq : ∀ q ∈ qualified, IsClassPath q.2) :
    IsClassPath (if base.contains '.' then replaceChars (· == '.') '/' base
      else match qualified.lookup (Source.afterLastDot base) with
        | some q => q
        | none => if Source.builtinClasses.contains (Source.afterLastDot base)
            then "java/lang/" ++ Source.afterLastDot base else Source.afterLastDot base) := by
  split
  · refine ⟨ss, hne, hs, ?_⟩
    rw [replaceChars, String.toList_ofList, hb, ← slashed_intercalate hs, slashed]
    simp only [beq_iff_eq]
  · rename_i hdot
    rw [String.contains_char_eq, decide_eq_true_iff] at hdot
    have hid := isIdentifier_of_undotted hne hs hb hdot
    rw [afterLastDot_of_undotted hdot]
    split
    · rename_i q hl
      exact hq _ (mem_of_lookup hl)
    split
    · refine ⟨["java".toList, "lang".toList, base.toList], List.cons_ne_nil _ _, fun s hm => ?_, ?_⟩
      · simp only [List.mem_cons, List.not_mem_nil, or_false] at hm
        rcases hm with rfl | rfl | rfl
        · exact ⟨⟨_, _, rfl, rfl⟩, by decide⟩
        · exact ⟨⟨_, _, rfl, rfl⟩, by decide⟩
        · exact hid
      · rw [String.toList_append, joined_cons (List.cons_ne_nil _ _),
          joined_cons (List.cons_ne_nil _ _), joined_singleton]
        rfl
    · exact isClassPath_of_isIdentifier hid

theorem isClassPath_className {t : HostType} {path : String} (h : t.qualified = some path)
    (hp : IsClassPath path) : IsClassPath t.className := by
  unfold HostType.className
  rw [h]
  dsimp only
  rw [hp.isEmpty, if_neg Bool.false_ne_true]
  exact hp

theorem isClassPath_string : IsClassPath "java/lang/String" := by
  refine ⟨["java".toList, "lang".toList, "String".toList], List.cons_ne_nil _ _, fun s hm => ?_, rfl⟩
  simp only [List.mem_cons, List.not_mem_nil, or_false] at hm
  rcases hm with rfl | rfl | rfl
  all_goals exact ⟨⟨_, _, rfl, rfl⟩, by decide⟩

/-- **What a type name means has a class name in segments**, if the known classes have. -/
theorem isClassPath_typeNamed {text : String} (h : IsTypeText text) (structs : List String)
    {qualified : List (String × String)} (hq : ∀ q ∈ qualified, IsClassPath q.2) :
    IsClassPath (Source.typeNamed text structs qualified).className := by
  obtain ⟨ss, n, hne, hs, ht⟩ := h
  have hb : Source.dropBrackets 0 text.toList.reverse = (n, (['.'].intercalate ss).reverse) := by
    rw [ht]
    exact dropBrackets_text (not_mem_intercalate hs) n
  unfold Source.typeNamed
  rw [hb]
  dsimp only
  rw [List.reverse_reverse]
  split
  · exact isClassPath_of_isIdentifier ⟨⟨_, _, rfl, rfl⟩, by decide⟩
  split
  · rename_i hp
    exact isClassPath_primitive hp
  split
  · exact isClassPath_className rfl isClassPath_string
  · have hpath := isClassPath_path hne hs String.toList_ofList hq
    split
    · exact isClassPath_className rfl hpath
    · exact isClassPath_className rfl hpath

theorem isDescriptor_typeNamed {text : String} (h : IsTypeText text) (structs : List String)
    {qualified : List (String × String)} (hq : ∀ q ∈ qualified, IsClassPath q.2) :
    IsDescriptor (Source.typeNamed text structs qualified).descriptor.toList :=
  isDescriptor_of_className (isClassPath_typeNamed h structs hq)

/-! ## 4. Descriptors of methods -/

/-- What is cut out of a descriptor ends at the first parenthesis that closes. -/
theorem signaturePart_descriptor (signature result : String) :
    signaturePart ("(" ++ signature ++ ")" ++ result) =
      String.ofList (signature.toList.takeWhile (· != ')')) := by
  have hlist : ("(" ++ signature ++ ")" ++ result).toList =
      '(' :: (signature.toList ++ ')' :: result.toList) := by
    have hopen : ("(" : String).toList = ['('] := rfl
    have hclose : (")" : String).toList = [')'] := rfl
    rw [String.toList_append, String.toList_append, String.toList_append, hopen, hclose,
      List.append_assoc, List.append_assoc]
    rfl
  have hstop : ∀ s : List Char, (s ++ ')' :: result.toList).takeWhile (· != ')') = s.takeWhile (· != ')') := by
    intro s
    induction s with
    | nil => exact List.takeWhile_cons_of_neg (by decide)
    | cons c s ih => rw [List.cons_append, List.takeWhile_cons, List.takeWhile_cons, ih]
  unfold signaturePart
  rw [hlist]
  exact congrArg String.ofList (hstop _)

/-- **The parameters of a descriptor are cut out whole unless they hold a parenthesis.** -/
theorem signaturePart_eq_iff (signature result : String) :
    signaturePart ("(" ++ signature ++ ")" ++ result) = signature ↔ ')' ∉ signature.toList := by
  rw [signaturePart_descriptor, ← String.toList_inj, String.toList_ofList, List.takeWhile_eq_self_iff]
  constructor
  · intro h hmem
    exact absurd (h _ hmem) (by decide)
  · exact fun h d hd => bne_iff_ne.2 fun he => h (he ▸ hd)

end NativeGlue.Symbol
