import NativeGlue.Java.Token
import NativeGlue.Proofs.Symbol.Spelling
import NativeGlue.Proofs.Text.Occurrence

/-!
# Names in segments

The symbol of a method spells one text: the segments of its class and its own name with slashes
between them, and behind two slashes the signature of an overload. Segments are identifiers, of which
little has to be known: they are not empty, begin with no digit and hold no separator. Then the text
is read back, and so the symbol determines the segments and the signature
(`spelled_injective`).
-/

namespace NativeGlue.Symbol

open NativeGlue.Text

/-! ## 1. Identifiers -/

/-- What separates segments, descriptors and parameter lists. -/
def isMark (c : Char) : Bool := c ∈ ['.', '/', ';', '[', ']', '(', ')']

/-- A name that begins with no digit and holds no mark. -/
structure IsIdentifier (s : List Char) : Prop where
  begins : ∃ c r, s = c :: r ∧ c.isDigit = false
  plain : ∀ c ∈ s, isMark c = false

/-- The words of the language are such names. -/
theorem isIdentifier_of_word {c : Char} {r : List Char} (hc : Java.isWordStart c = true)
    (hr : ∀ d ∈ r, Java.isWordPart d = true) : IsIdentifier (c :: r) := by
  have marks : ∀ d, isMark d = true → Java.isWordStart d = false ∧ Java.isWordPart d = false := by
    intro d hd
    simp only [isMark, List.mem_cons, List.not_mem_nil, or_false, decide_eq_true_eq] at hd
    rcases hd with rfl | rfl | rfl | rfl | rfl | rfl | rfl
    all_goals exact ⟨rfl, rfl⟩
  refine ⟨⟨c, r, rfl, ?_⟩, fun d hd => ?_⟩
  · refine Bool.eq_false_iff.2 fun hdigit => ?_
    rw [isDigit_iff] at hdigit
    have hlt : c.toNat < 128 := by omega
    have halpha : c.isAlpha = false := by
      refine Bool.eq_false_iff.2 fun h => ?_
      rw [isAlpha_iff] at h
      omega
    have hne : ∀ d : Char, d.isDigit = false → (c == d) = false := by
      intro d hd
      refine beq_eq_false_iff_ne.2 fun e => ?_
      rw [← e, ← Bool.not_eq_true, isDigit_iff] at hd
      exact hd hdigit
    unfold Java.isWordStart isIdentifierStart at hc
    rw [if_pos hlt, halpha, hne '$' rfl, hne '_' rfl] at hc
    cases hc
  · refine Bool.eq_false_iff.2 fun hm => ?_
    obtain ⟨h1, h2⟩ := marks d hm
    rcases List.mem_cons.1 hd with rfl | hd
    · rw [hc] at h1
      cases h1
    · rw [hr d hd] at h2
      cases h2

theorem IsIdentifier.not_mem {s : List Char} (h : IsIdentifier s) {c : Char} (hc : isMark c = true) :
    c ∉ s := by
  intro hm
  rw [h.plain c hm] at hc
  cases hc

theorem IsIdentifier.ne_nil {s : List Char} (h : IsIdentifier s) : s ≠ [] := by
  obtain ⟨c, r, rfl, -⟩ := h.begins
  exact List.cons_ne_nil c r

instance (s : List Char) : Decidable (IsIdentifier s) :=
  match s with
  | [] => .isFalse fun h => h.ne_nil rfl
  | c :: r =>
    decidable_of_iff (c.isDigit = false ∧ ∀ d ∈ c :: r, isMark d = false)
      ⟨fun h => ⟨⟨c, r, rfl, h.1⟩, h.2⟩, fun h => by
        obtain ⟨d, q, he, hd⟩ := h.begins
        obtain ⟨rfl, rfl⟩ := List.cons.inj he
        exact ⟨hd, h.plain⟩⟩

/-! ## 2. Segments -/

/-- Segments with slashes between them. -/
def joined (segments : List (List Char)) : List Char := ['/'].intercalate segments

theorem joined_singleton (s : List Char) : joined [s] = s := List.intercalate_singleton

theorem joined_cons {segments : List (List Char)} (h : segments ≠ []) (s : List Char) :
    joined (s :: segments) = s ++ '/' :: joined segments := by
  obtain ⟨t, r, rfl⟩ := List.exists_cons_of_ne_nil h
  rw [joined, joined, List.intercalate_cons_cons, List.append_assoc]
  rfl

theorem mem_joined {segments : List (List Char)} {c : Char} (h : c ∈ joined segments) :
    c = '/' ∨ ∃ s ∈ segments, c ∈ s := by
  induction segments with
  | nil => cases h
  | cons s r ih =>
    have here : c ∈ s → c = '/' ∨ ∃ x ∈ s :: r, c ∈ x := fun hc => .inr ⟨s, List.mem_cons_self, hc⟩
    by_cases hr : r = []
    · rw [hr, joined_singleton] at h
      exact here h
    · rw [joined_cons hr] at h
      rcases List.mem_append.1 h with h | h
      · exact here h
      rcases List.mem_cons.1 h with rfl | h
      · exact .inl rfl
      · exact (ih h).imp_right fun ⟨x, hx, hc⟩ => ⟨x, List.mem_cons_of_mem _ hx, hc⟩

/-- A text without separators takes nothing away from what is readable behind it. -/
theorem readable_append {s t : List Char} (hs : ∀ c ∈ s, isMark c = false) (ht : Readable t) :
    Readable (s ++ t) := by
  induction s with
  | nil => exact ht
  | cons c r ih =>
    refine ⟨fun hc => ?_, ih fun d hd => hs d (List.mem_cons_of_mem _ hd)⟩
    have hm := hs c List.mem_cons_self
    rcases hc with rfl | rfl
    · cases hm
    · cases hm

/-- An identifier does not look like the rest of an escape. -/
theorem looksEscaped_append {s : List Char} (hs : IsIdentifier s) (t : List Char) :
    looksEscaped (s ++ t) = false := by
  obtain ⟨c, r, rfl, hc⟩ := hs.begins
  have ne : ∀ d : Char, d.isDigit = true → (c == d) = false := by
    intro d hd
    refine beq_eq_false_iff_ne.2 fun e => ?_
    rw [e, hd] at hc
    cases hc
  rw [List.cons_append, looksEscaped, ne '1' rfl, ne '2' rfl, ne '3' rfl, ne '0' rfl]
  rfl

theorem readable_joined {segments : List (List Char)} (hne : segments ≠ [])
    (h : ∀ s ∈ segments, IsIdentifier s) {t : List Char} (ht : Readable t) :
    Readable (joined segments ++ t) ∧ looksEscaped (joined segments ++ t) = false := by
  induction segments with
  | nil => exact absurd rfl hne
  | cons s r ih =>
    have hs := h s List.mem_cons_self
    by_cases hr : r = []
    · subst hr
      rw [joined_singleton]
      exact ⟨readable_append hs.plain ht, looksEscaped_append hs t⟩
    · obtain ⟨h1, h2⟩ := ih hr fun x hx => h x (List.mem_cons_of_mem _ hx)
      rw [joined_cons hr, List.append_assoc]
      exact ⟨readable_append hs.plain ⟨fun _ => h2, h1⟩, looksEscaped_append hs _⟩

/-- Two texts that are split off by a character are the same, and so is what follows. -/
theorem append_cancel {c : Char} {a b x y : List Char} (ha : c ∉ a) (hb : c ∉ b)
    (hx : x = [] ∨ ∃ r, x = c :: r) (hy : y = [] ∨ ∃ r, y = c :: r) (h : a ++ x = b ++ y) :
    a = b ∧ x = y := by
  induction a generalizing b with
  | nil =>
    cases b with
    | nil => exact ⟨rfl, h⟩
    | cons d b =>
      rw [List.nil_append, List.cons_append] at h
      rcases hx with rfl | ⟨r, rfl⟩
      · cases h
      · exact absurd ((List.cons.inj h).1 ▸ List.mem_cons_self) hb
  | cons d a ih =>
    cases b with
    | nil =>
      rw [List.nil_append, List.cons_append] at h
      rcases hy with rfl | ⟨r, rfl⟩
      · cases h
      · exact absurd ((List.cons.inj h).1 ▸ List.mem_cons_self) ha
    | cons e b =>
      rw [List.cons_append, List.cons_append] at h
      obtain ⟨rfl, h'⟩ := List.cons.inj h
      obtain ⟨rfl, hxy⟩ := ih (fun hm => ha (List.mem_cons_of_mem _ hm))
        (fun hm => hb (List.mem_cons_of_mem _ hm)) h'
      exact ⟨rfl, hxy⟩

/-! ## 3. Symbols -/

/-- What stands behind the name of a method: nothing, or its signature behind two slashes. -/
def signatureTail : Option (List Char) → List Char
  | none => []
  | some s => '/' :: '/' :: s

/-- The text that a symbol spells. -/
def spelled (segments : List (List Char)) (signature : Option (List Char)) : List Char :=
  joined segments ++ signatureTail signature

theorem signatureTail_cases (a : Option (List Char)) :
    signatureTail a = [] ∨ ∃ r, signatureTail a = '/' :: r := by
  cases a with
  | none => exact .inl rfl
  | some s => exact .inr ⟨_, rfl⟩

/-- A text that goes on behind a segment is no signature. -/
theorem signatureTail_ne_joined {ts : List (List Char)} (hne : ts ≠ [])
    (ht : ∀ t ∈ ts, IsIdentifier t) (a : Option (List Char)) (r : List Char) :
    signatureTail a ≠ '/' :: (joined ts ++ r) := by
  intro h
  obtain ⟨t, us, rfl⟩ := List.exists_cons_of_ne_nil hne
  have hid := ht t List.mem_cons_self
  obtain ⟨c, s, rfl, -⟩ := hid.begins
  have hc : c = '/' := by
    cases a with
    | none => cases h
    | some x =>
      have h := (List.cons.inj h).2
      by_cases hus : us = []
      · rw [hus, joined_singleton] at h
        exact (List.cons.inj h).1.symm
      · rw [joined_cons hus] at h
        exact (List.cons.inj h).1.symm
  exact hid.not_mem (c := '/') rfl (hc ▸ List.mem_cons_self)

/-- **Segments and signature can be told from the text.** -/
theorem spelled_injective {ss ts : List (List Char)} (hs : ss ≠ []) (ht : ts ≠ [])
    (his : ∀ s ∈ ss, IsIdentifier s) (hit : ∀ t ∈ ts, IsIdentifier t)
    {a b : Option (List Char)} (h : spelled ss a = spelled ts b) : ss = ts ∧ a = b := by
  have tail_inj : ∀ {a b : Option (List Char)}, signatureTail a = signatureTail b → a = b := by
    intro a b hab
    cases a with
    | none =>
      cases b with
      | none => rfl
      | some y => cases hab
    | some x =>
      cases b with
      | none => cases hab
      | some y => exact congrArg some (List.cons.inj (List.cons.inj hab).2).2
  unfold spelled at h
  induction ss generalizing ts with
  | nil => exact absurd rfl hs
  | cons s r ih =>
    obtain ⟨t, q, rfl⟩ := List.exists_cons_of_ne_nil ht
    have hsn := (his s List.mem_cons_self).not_mem (c := '/') rfl
    have htn := (hit t List.mem_cons_self).not_mem (c := '/') rfl
    have hir : ∀ x ∈ r, IsIdentifier x := fun x hx => his x (List.mem_cons_of_mem _ hx)
    have hiq : ∀ x ∈ q, IsIdentifier x := fun x hx => hit x (List.mem_cons_of_mem _ hx)
    by_cases hr : r = []
    · by_cases hq : q = []
      · rw [hr, hq, joined_singleton, joined_singleton] at h
        obtain ⟨rfl, h'⟩ := append_cancel hsn htn (signatureTail_cases a) (signatureTail_cases b) h
        exact ⟨by rw [hr, hq], tail_inj h'⟩
      · rw [hr, joined_singleton, joined_cons hq, List.append_assoc] at h
        obtain ⟨-, h⟩ := append_cancel hsn htn (signatureTail_cases a) (.inr ⟨_, rfl⟩) h
        exact absurd h (signatureTail_ne_joined hq hiq a _)
    · by_cases hq : q = []
      · rw [hq, joined_singleton, joined_cons hr, List.append_assoc] at h
        obtain ⟨-, h⟩ := append_cancel hsn htn (.inr ⟨_, rfl⟩) (signatureTail_cases b) h
        exact absurd h.symm (signatureTail_ne_joined hr hir b _)
      · rw [joined_cons hr, joined_cons hq, List.append_assoc, List.append_assoc] at h
        obtain ⟨rfl, h'⟩ := append_cancel hsn htn (.inr ⟨_, rfl⟩) (.inr ⟨_, rfl⟩) h
        obtain ⟨rfl, hab⟩ := ih hr hq hir hiq (List.cons.inj h').2
        exact ⟨rfl, hab⟩

/-- A signature that can stand behind a name. -/
structure IsSignature (s : List Char) : Prop where
  readable : Readable s
  begins : looksEscaped s = false
  undotted : '.' ∉ s

/-- The text of a symbol is read back from its spelling. -/
theorem readable_spelled {ss : List (List Char)} (hne : ss ≠ []) (hs : ∀ s ∈ ss, IsIdentifier s)
    {a : Option (List Char)} (ha : ∀ s ∈ a, IsSignature s) : Readable (spelled ss a) := by
  refine (readable_joined hne hs ?_).1
  cases a with
  | none => trivial
  | some s => exact ⟨fun _ => rfl, fun _ => (ha s rfl).begins, (ha s rfl).readable⟩

theorem slashed_of_not_mem {s : List Char} (h : '.' ∉ s) : slashed s = s := by
  rw [slashed]
  conv => rhs; rw [← List.map_id s]
  refine List.map_congr_left fun c hc => ?_
  have hne : c ≠ '.' := fun e => h (e ▸ hc)
  rw [if_neg hne]
  rfl

theorem undotted_spelled {ss : List (List Char)} (hs : ∀ s ∈ ss, IsIdentifier s)
    {a : Option (List Char)} (ha : ∀ s ∈ a, IsSignature s) : '.' ∉ spelled ss a := by
  intro hm
  rcases List.mem_append.1 hm with hm | hm
  · rcases mem_joined hm with hm | ⟨s, hs', hm⟩
    · cases hm
    · exact (hs s hs').not_mem rfl hm
  · cases a with
    | none => cases hm
    | some s =>
      simp only [signatureTail, List.mem_cons] at hm
      rcases hm with hm | hm | hm
      · cases hm
      · cases hm
      · exact (ha s rfl).undotted hm

/-- **Spellings are the same only for the same segments and signature.** -/
theorem spelling_injective {ss ts : List (List Char)} (hs : ss ≠ []) (ht : ts ≠ [])
    (his : ∀ s ∈ ss, IsIdentifier s) (hit : ∀ t ∈ ts, IsIdentifier t)
    {a b : Option (List Char)} (ha : ∀ s ∈ a, IsSignature s) (hb : ∀ s ∈ b, IsSignature s)
    (h : mangleChars (spelled ss a) = mangleChars (spelled ts b)) : ss = ts ∧ a = b := by
  have he := slashed_eq_of_mangleChars (readable_spelled hs his ha) (readable_spelled ht hit hb) h
  rw [slashed_of_not_mem (undotted_spelled his ha), slashed_of_not_mem (undotted_spelled hit hb)] at he
  exact spelled_injective hs ht his hit he

/-! ## 4. Methods -/

theorem joined_append_joined {ss ts : List (List Char)} (hs : ss ≠ []) (ht : ts ≠ []) :
    joined (ss ++ ts) = joined ss ++ '/' :: joined ts := by
  induction ss with
  | nil => exact absurd rfl hs
  | cons s r ih =>
    by_cases hr : r = []
    · rw [hr, List.cons_append, List.nil_append, joined_cons ht, joined_singleton]
    · have hrt : r ++ ts ≠ [] := List.append_ne_nil_of_left_ne_nil hr _
      rw [List.cons_append, joined_cons hrt, joined_cons hr, ih hr, List.append_assoc,
        List.cons_append]

theorem joined_append {ss : List (List Char)} (hne : ss ≠ []) (s : List Char) :
    joined (ss ++ [s]) = joined ss ++ '/' :: s := by
  rw [joined_append_joined hne (List.cons_ne_nil s []), joined_singleton]

/-- A class name in segments: the segments with dots between them. -/
structure IsDotted (name : String) (segments : List (List Char)) : Prop where
  ne_nil : segments ≠ []
  identifiers : ∀ s ∈ segments, IsIdentifier s
  slashed : slashed name.toList = joined segments

/-- The symbol of a method spells the segments of its class and its own name. -/
theorem toList_methodSymbol {className : String} {ss : List (List Char)} (h : IsDotted className ss)
    (name : String) (signature : Option String) :
    (methodSymbol className name signature).toList =
      mangleChars (spelled (ss ++ [name.toList]) (signature.map String.toList)) := by
  have hclass : (mangle className).toList = mangleChars (joined ss) := by
    rw [mangle, String.toList_ofList, ← mangleChars_slashed, h.slashed]
  have hname : (mangle name).toList = mangleChars name.toList := String.toList_ofList
  rw [spelled, joined_append h.ne_nil]
  unfold methodSymbol
  have separator : mangleChar '/' = ['_'] := rfl
  have one : ("_" : String).toList = ['_'] := rfl
  have two : ("__" : String).toList = ['_', '_'] := rfl
  cases signature with
  | none =>
    simp only [String.toList_append, hclass, hname, mangleChars_append, mangleChars_cons, separator,
      one, Option.map_none, signatureTail, mangleChars_nil, List.append_assoc]
    rfl
  | some s =>
    have hs : (mangle s).toList = mangleChars s.toList := String.toList_ofList
    simp only [String.toList_append, hclass, hname, hs, mangleChars_append, mangleChars_cons,
      separator, one, two, Option.map_some, signatureTail, List.append_assoc]
    rfl

/-- **Two methods have one symbol only if class, name and signature are the same.** -/
theorem methodSymbol_injective {c d : String} {ss ts : List (List Char)} (hc : IsDotted c ss)
    (hd : IsDotted d ts) {m n : String} (hm : IsIdentifier m.toList) (hn : IsIdentifier n.toList)
    {a b : Option String} (ha : ∀ s ∈ a, IsSignature s.toList) (hb : ∀ s ∈ b, IsSignature s.toList)
    (h : methodSymbol c m a = methodSymbol d n b) : ss = ts ∧ m = n ∧ a = b := by
  have h := congrArg String.toList h
  rw [toList_methodSymbol hc, toList_methodSymbol hd] at h
  have signature : ∀ {o : Option String}, (∀ s ∈ o, IsSignature s.toList) →
      ∀ s ∈ o.map String.toList, IsSignature s := by
    intro o ho s hs
    obtain ⟨x, hx, rfl⟩ := Option.map_eq_some_iff.1 hs
    exact ho x hx
  have segments : ∀ {ss : List (List Char)} {m : List Char}, (∀ s ∈ ss, IsIdentifier s) →
      IsIdentifier m → ∀ s ∈ ss ++ [m], IsIdentifier s := by
    intro ss m hss hm s hs
    rcases List.mem_append.1 hs with hs | hs
    · exact hss s hs
    · rw [List.mem_singleton.1 hs]
      exact hm
  obtain ⟨hst, hab⟩ := spelling_injective (by simp) (by simp) (segments hc.identifiers hm)
    (segments hd.identifiers hn) (signature ha) (signature hb) h
  obtain ⟨rfl, hmn⟩ := List.append_inj' hst rfl
  refine ⟨rfl, String.toList_injective (List.cons.inj hmn).1, ?_⟩
  exact (Option.map_inj_right fun _ _ => String.toList_injective).1 hab

end NativeGlue.Symbol
