import NativeGlue.Proofs.Code.Regions
import NativeGlue.Proofs.Source.Lengths

/-!
# Checked lengths

A native method that is built from its sources checks the length of exactly those arrays that are linked to a
parameter, each once, against that parameter (`length_links_sound`). Under the standard rules no other line that is
written for it reads like such a check, but for code that overrides add.
-/

namespace NativeGlue.Code

open NativeGlue.Mapping NativeGlue.Source NativeGlue.Text

/-! ## 1. Checks -/

/-- The arrays that are linked to a parameter, each with the place of the parameter. -/
def linkedPairs (ps : List Parameter) : List (Nat × Nat) :=
  ps.filterMap fun p => p.lengthParam.map fun j => (p.index, j)

/-- The argument at a place. -/
def argAt (k : Nat) : String := s!"arg{k}"

/-- The line that checks the length of an argument against another one. -/
def checkText (k j : Nat) : String :=
  s!"if ({argAt k} && (*env)->GetArrayLength(env, {argAt k}) < {argAt j}) goto fail;"

/-- The places of the array and of the count that a statement compares. -/
def Statement.checked? : Statement → Option (Nat × Nat)
  | .checkLength array count => some (array.index, count.index)
  | _ => none

theorem linesOf_checkLength (array count : Parameter) : linesOf (.checkLength array count) =
    [(Line.indented 1 (checkText array.index count.index)).text] := rfl

section

variable {inline : Directive.DocOptions} {record : Option Overlay.Record} {n : NativeMethod}

/-- The check of a linked array is not left out for want of a parameter. -/
theorem map_lengthChecks (h : Linked inline record n.parameters) :
    (lengthChecks n).map (fun x => (x.1.index, x.2.index)) = linkedPairs n.parameters := by
  rw [lengthChecks, List.map_filterMap, linkedPairs]
  refine List.filterMap_congr fun p hp => ?_
  cases hj : p.lengthParam with
  | none => rfl
  | some j =>
    obtain ⟨_, q, -, -, hq, -⟩ := h.link p hp j hj
    show Option.map _ (n.parameters[j]? >>= fun count => pure (p, count)) = _
    rw [hq]
    show some (p.index, q.index) = some (p.index, j)
    rw [h.indices j q hq]

theorem nodup_of_linked {ps : List Parameter} (h : Linked inline record ps) : (ps.map (·.index)).Nodup := by
  rw [List.Nodup, List.pairwise_map, List.pairwise_iff_getElem]
  intro i j hi hj hlt heq
  rw [h.indices i _ (List.getElem?_eq_getElem hi), h.indices j _ (List.getElem?_eq_getElem hj)] at heq
  omega

theorem mem_linkedPairs {ps : List Parameter} (h : Linked inline record ps) {k j : Nat} :
    (k, j) ∈ linkedPairs ps ↔ ps[k]?.bind (·.lengthParam) = some j := by
  rw [linkedPairs, List.mem_filterMap, Option.bind_eq_some_iff]
  constructor
  · rintro ⟨p, hp, hpj⟩
    obtain ⟨i, hi, hij⟩ := Option.map_eq_some_iff.1 hpj
    obtain ⟨rfl, rfl⟩ := Prod.mk.inj hij
    obtain ⟨k, hk⟩ := List.mem_iff_getElem?.1 hp
    rw [h.indices k p hk]
    exact ⟨p, hk, hi⟩
  · rintro ⟨p, hk, hj⟩
    exact ⟨p, List.mem_of_getElem? hk, by rw [hj, h.indices k p hk]; rfl⟩

/-- Every array is linked once, or not at all. -/
theorem count_linkedPairs {ps : List Parameter} (h : Linked inline record ps) (k j : Nat) :
    (linkedPairs ps).count (k, j) = if ps[k]?.bind (·.lengthParam) = some j then 1 else 0 := by
  have hnodup : (linkedPairs ps).Nodup := by
    have hindices := nodup_of_linked h
    rw [List.Nodup, List.pairwise_map] at hindices
    rw [linkedPairs, List.Nodup, List.pairwise_filterMap]
    refine hindices.imp fun hne x hx y hy hxy => hne ?_
    obtain ⟨_, -, rfl⟩ := Option.map_eq_some_iff.1 hx
    obtain ⟨_, -, rfl⟩ := Option.map_eq_some_iff.1 hy
    exact (Prod.mk.inj hxy).1
  rw [hnodup.count]
  exact if_congr (mem_linkedPairs h) rfl rfl

end

/-! ## 2. Lines that are no checks -/

/-- What every check ends with, behind a digit. -/
def checkEnd : List Char := ") goto fail;".toList

theorem toList_checkText (k j : Nat) : (checkText k j).toList =
    "if (".toList ++ ((argAt k).toList ++ (" && (*env)->GetArrayLength(env, ".toList ++ ((argAt k).toList ++
      (") < ".toList ++ ((argAt j).toList ++ checkEnd))))) := by
  rw [checkText]
  simp only [String.toList_append, List.append_assoc]
  rfl

theorem toList_argAt (k : Nat) : (argAt k).toList = "arg".toList ++ Nat.toDigits 10 k := by
  rw [argAt, String.toList_append, ← Nat.toList_repr]
  rfl

/-- A check begins with a word. -/
theorem exists_toList_checkText (k j : Nat) : ∃ r, (checkText k j).toList = 'i' :: r := by
  have hif : "if (".toList = 'i' :: "f (".toList := by decide
  exact ⟨_, by rw [toList_checkText, hif, List.cons_append]⟩

/-- A check ends with a digit before its jump. -/
theorem exists_digit_checkText (k j : Nat) :
    ∃ c, c.isDigit = true ∧ c :: checkEnd <:+ (checkText k j).toList := by
  obtain ⟨s, c, hs⟩ : ∃ s c, Nat.toDigits 10 j = s ++ [c] :=
    ⟨_, _, (List.dropLast_append_getLast Nat.toDigits_ne_nil).symm⟩
  have hc : c.isDigit = true :=
    Nat.isDigit_of_mem_toDigits (by omega) (by omega) (hs ▸ List.mem_append_right s (List.mem_singleton_self c))
  have hlast : c :: checkEnd <:+ (argAt j).toList ++ checkEnd := by
    rw [toList_argAt, hs, ← List.append_assoc, List.append_assoc _ [c], List.singleton_append]
    exact List.suffix_append _ _
  refine ⟨c, hc, ?_⟩
  rw [toList_checkText]
  exact hlast.trans ((List.suffix_append _ _).trans ((List.suffix_append _ _).trans
    ((List.suffix_append _ _).trans ((List.suffix_append _ _).trans (List.suffix_append _ _)))))

theorem argAt_injective {k j : Nat} (h : argAt k = argAt j) : k = j := by
  have hdigits := congrArg String.toList h
  rw [toList_argAt, toList_argAt] at hdigits
  rw [← ofDigits_toDigits k, List.append_cancel_left hdigits, ofDigits_toDigits]

theorem checkText_injective {k j k' j' : Nat} (h : checkText k j = checkText k' j') : k = k' ∧ j = j' := by
  have hblank : ∀ n, ' ' ∉ (argAt n).toList := by
    intro n hmem
    rw [toList_argAt] at hmem
    rcases List.mem_append.1 hmem with hmem | hmem
    · exact absurd hmem (by decide)
    · exact absurd (Nat.isDigit_of_mem_toDigits (by omega) (by omega) hmem) (by decide)
  have htext := congrArg String.toList h
  have hand : " && (*env)->GetArrayLength(env, ".toList = ' ' :: "&& (*env)->GetArrayLength(env, ".toList := by decide
  rw [toList_checkText, toList_checkText, hand, List.cons_append, List.cons_append] at htext
  have htext := List.append_cancel_left htext
  obtain ⟨hk, hrest⟩ := eq_of_append_cons htext (hblank k) (hblank k')
  rw [hk] at hrest
  have hj := List.append_cancel_right
    (List.append_cancel_left (List.append_cancel_left (List.append_cancel_left hrest)))
  exact ⟨argAt_injective (String.toList_injective hk), argAt_injective (String.toList_injective hj)⟩

theorem toList_indented {t : String} (h : t ≠ "") (d : Nat) :
    (Line.indented d t).text.toList = List.replicate d '\t' ++ t.toList := by
  have hne : t.isEmpty = false := by
    rw [Bool.eq_false_iff, ne_eq, String.isEmpty_iff]
    exact h
  show (if t.isEmpty then "" else copies d "\t" ++ t).toList = _
  have htab : "\t".toList = ['\t'] := by decide
  rw [hne, if_neg Bool.false_ne_true, String.toList_append, toList_copies_char htab]

theorem ne_empty_of_toList {t : String} {c : Char} {r : List Char} (h : t.toList = c :: r) : t ≠ "" := by
  rintro rfl
  cases h

/-- Lines that begin with no tab stay apart at any depths. -/
theorem eq_of_text_indented {t t' : String} {c c' : Char} {r r' : List Char} (ht : t.toList = c :: r) (hc : c ≠ '\t')
    (ht' : t'.toList = c' :: r') (hc' : c' ≠ '\t') {d d' : Nat}
    (h : (Line.indented d t).text = (Line.indented d' t').text) : d = d' ∧ t = t' := by
  have hline := congrArg String.toList h
  rw [toList_indented (ne_empty_of_toList ht), toList_indented (ne_empty_of_toList ht')] at hline
  have htabs : ∀ d, ∀ a ∈ List.replicate d '\t', (a == '\t') = true :=
    fun d a ha => beq_iff_eq.2 (List.eq_of_mem_replicate ha)
  have htext := congrArg (List.dropWhile (· == '\t')) hline
  rw [List.dropWhile_append_of_pos (htabs d), List.dropWhile_append_of_pos (htabs d'), ht, ht',
    List.dropWhile_cons_of_neg (by simpa using hc), List.dropWhile_cons_of_neg (by simpa using hc'), ← ht,
    ← ht'] at htext
  rw [htext] at hline
  have hlength := congrArg List.length (List.append_cancel_right hline)
  rw [List.length_replicate, List.length_replicate] at hlength
  exact ⟨hlength, String.toList_injective htext⟩

/-- Checks that read the same compare the same arguments at the same depth. -/
theorem text_checkText_eq_iff {d d' k j k' j' : Nat} :
    (Line.indented d (checkText k j)).text = (Line.indented d' (checkText k' j')).text ↔
      d = d' ∧ (k, j) = (k', j') := by
  constructor
  · intro h
    obtain ⟨_, hfirst⟩ := exists_toList_checkText k j
    obtain ⟨_, hfirst'⟩ := exists_toList_checkText k' j'
    obtain ⟨hd, htext⟩ := eq_of_text_indented hfirst (by decide) hfirst' (by decide) h
    obtain ⟨hk, hj⟩ := checkText_injective htext
    exact ⟨hd, by rw [hk, hj]⟩
  · rintro ⟨rfl, h⟩
    obtain ⟨rfl, rfl⟩ := Prod.mk.inj h
    rfl

/-- A line is a check at no depth. -/
def Aside (l : String) : Prop := ∀ d k j, l ≠ (Line.indented d (checkText k j)).text

/-- A check at a depth ends as checks do. -/
theorem exists_digit_line (d k j : Nat) : ∃ c, c.isDigit = true ∧
    c :: checkEnd <:+ (Line.indented d (checkText k j)).text.toList := by
  obtain ⟨_, hfirst⟩ := exists_toList_checkText k j
  obtain ⟨c, hc, hlast⟩ := exists_digit_checkText k j
  refine ⟨c, hc, ?_⟩
  rw [toList_indented (ne_empty_of_toList hfirst)]
  exact hlast.trans (List.suffix_append _ _)

/-- A line that ends otherwise than a check is none. -/
theorem aside_of_end {l : String} {e : List Char} (hl : e <:+ l.toList)
    (he : ¬e <:+ checkEnd ∧ ¬checkEnd <:+ e) : Aside l := by
  rintro d k j rfl
  obtain ⟨c, -, hc⟩ := exists_digit_line d k j
  exact (List.suffix_or_suffix_of_suffix hl ((List.suffix_cons c checkEnd).trans hc)).elim he.1 he.2

theorem suffix_indented {x e : String} (h : e.toList ≠ []) (d : Nat) :
    e.toList <:+ (Line.indented d (x ++ e)).text.toList := by
  have hne : x ++ e ≠ "" := by
    intro hempty
    have hlist := congrArg String.toList hempty
    rw [String.toList_append] at hlist
    exact h (List.append_eq_nil_iff.1 hlist).2
  rw [toList_indented hne, String.toList_append]
  exact (List.suffix_append _ _).trans (List.suffix_append _ _)

theorem aside_of_ending {x e : String} (h : ¬e.toList <:+ checkEnd ∧ ¬checkEnd <:+ e.toList) (d : Nat) :
    Aside (Line.indented d (x ++ e)).text := by
  refine aside_of_end (suffix_indented (fun hempty => h.1 ?_) d) h
  rw [hempty]
  exact List.nil_suffix

/-- What gets hold of an argument compares with no number. -/
theorem aside_taken (p : Parameter) (s : String) (d : Nat) : Aside (Line.indented d (taken p s)).text := by
  rintro d' k j h
  obtain ⟨c, hc, hcheck⟩ := exists_digit_line d' k j
  have htaken : 'L' :: checkEnd <:+ (Line.indented d (taken p s)).text.toList := by
    have hend : taken p s = "if (" ++ p.arg ++ ") if ((" ++ localOf p ++ " = " ++ s ++ ") == NUL" ++
        "L) goto fail;" := by
      have hsplit : ") == NULL) goto fail;" = ") == NUL" ++ "L) goto fail;" := by decide
      rw [taken, hsplit, ← String.append_assoc]
    rw [hend]
    have hne : "L) goto fail;".toList ≠ [] := by decide
    exact suffix_indented hne d
  rw [h] at htaken
  have hsame := (List.suffix_or_suffix_of_suffix hcheck htaken).elim (fun hs => hs.eq_of_length rfl)
    fun hs => (hs.eq_of_length rfl).symm
  rw [(List.cons.inj hsame).1] at hc
  exact absurd hc (by decide)

/-- A line that begins otherwise than a check is none. -/
theorem aside_of_head {t : String} {a : Char} {r : List Char} (ht : t.toList = a :: r) (hi : a ≠ 'i')
    (htab : a ≠ '\t') (d : Nat) : Aside (Line.indented d t).text := by
  rintro d' k j h
  obtain ⟨r', hfirst⟩ := exists_toList_checkText k j
  obtain ⟨-, htext⟩ := eq_of_text_indented ht htab hfirst (by decide) h
  rw [htext, hfirst] at ht
  exact hi (List.cons.inj ht).1.symm

/-! ## 3. Statements that are no checks -/

/-- Whether a statement is code from an override. -/
def Statement.isFragment : Statement → Bool
  | .fragment _ => true
  | _ => false

theorem aside_assignment (m : CallMapping) (function : String) (d : Nat) :
    Aside (Line.indented d (assignment m function)).text := by
  unfold assignment
  dsimp only
  split
  · rw [String.append_assoc]
    exact aside_of_ending (by decide) d
  · rw [String.append_assoc]
    exact aside_of_head (String.toList_append ..) (by decide) (by decide) d

theorem aside_of_mem_linesOf_call (m : CallMapping) : ∀ l ∈ linesOf (.call m), Aside l := by
  refine forall_mem_linesOf_call (fun t ht d => ?_) (fun d => aside_of_ending (e := ")") (by decide) d)
    (fun d => aside_assignment m _ d) fun _ d => aside_assignment m _ d
  simp only [List.mem_cons, List.not_mem_nil, or_false] at ht
  rcases ht with rfl | rfl | rfl
  · exact aside_of_ending (x := "") (e := "\x7b") (by decide) d
  · exact aside_of_ending (x := "if (fp) ") (e := "\x7b") (by decide) d
  · exact aside_of_ending (x := "") (e := "\x7d") (by decide) d

theorem aside_given (p : Parameter) (f more : String) (d : Nat) :
    Aside (Line.indented d (given p (giveCall f p more))).text := by
  have hend : ")" ++ ";" = ");" := by decide
  rw [given, giveCall, ← String.append_assoc, String.append_assoc, hend]
  exact aside_of_ending (by decide) d

section

variable {stats : String} {structs : List StructClass} {m : NativeMethod} {call : CallMapping}

/-- The lines that a parameter needs are no checks. -/
structure AsideTexts (t : ValueMapping) : Prop where
  localDecl : t.localDecl ≠ "" → Aside (Line.indented 1 t.localDecl).text
  marshalIn : t.marshalIn ≠ "" → Aside (Line.indented 1 t.marshalIn).text
  release : t.release ≠ "" → Aside (Line.indented 1 t.release).text

theorem asideTexts_of_mapped (h : MethodMapped structs m call) {x : Parameter × ValueMapping}
    (hx : x ∈ call.mapped) : AsideTexts x.2 := by
  have hdecl : ∀ {s : String}, x.2.localDecl = s ++ "=NULL;" → Aside (Line.indented 1 x.2.localDecl).text :=
    fun hs => hs ▸ aside_of_ending (by decide) 1
  have hin : ∀ {s : String}, x.2.marshalIn = taken x.1 s → Aside (Line.indented 1 x.2.marshalIn).text :=
    fun hs => hs ▸ aside_taken _ _ 1
  have hout : ∀ {f more : String}, x.2.release = given x.1 (giveCall f x.1 more) →
      Aside (Line.indented 1 x.2.release).text :=
    fun hs => hs ▸ aside_given _ _ _ 1
  rcases ways_of_mem_mapped h x hx with hc | hu
  · cases hc with
    | value hd hi ho => exact ⟨fun hne => absurd hd hne, fun hne => absurd hi hne, fun hne => absurd ho hne⟩
    | copied _ _ _ hd hi ho => exact ⟨fun _ => hdecl hd, fun _ => hin hi, fun _ => hout ho⟩
    | pinned _ _ _ hd hi ho => exact ⟨fun _ => hdecl hd, fun _ => hin hi, fun _ => hout ho⟩
    | text _ hd hi ho => exact ⟨fun _ => hdecl hd, fun _ => hin hi, fun _ => hout ho⟩
    | struct _ _ _ _ _ hd hi ho =>
      exact ⟨fun _ => hdecl hd, fun _ => hi.elim hin hin, fun hne => ho.elim hout fun he => absurd he hne⟩
  · obtain ⟨_, -, hd⟩ := hu.localDecl
    exact ⟨fun _ => hdecl hd, fun hne => hu.marshalIn.elim (fun he => absurd he hne) hin,
      fun hne => absurd hu.release hne⟩

theorem aside_of_line {s : Statement} {t : String} (hs : linesOf s = [(Line.indented 1 t).text])
    (ht : Aside (Line.indented 1 t).text) : ∀ l ∈ linesOf s, Aside l := by
  intro l hl
  rw [hs] at hl
  rw [List.mem_singleton.1 hl]
  exact ht

theorem aside_of_mem_declaring (h : MethodMapped structs m call) :
    ∀ s ∈ declaring call, ∀ l ∈ linesOf s, Aside l := by
  intro s hs
  rcases List.mem_append.1 hs with hs | hs
  · obtain ⟨t, ht, rfl⟩ := List.mem_map.1 hs
    obtain ⟨ht, hkept⟩ := List.mem_filter.1 ht
    rw [Bool.not_eq_true', String.isEmpty_eq_false_iff] at hkept
    obtain ⟨q, hq⟩ := mapped_of_mem_parameters h ht
    exact aside_of_line (linesOf_of_line rfl) ((asideTexts_of_mapped h hq).localDecl hkept)
  · split at hs
    · obtain rfl := List.mem_singleton.1 hs
      exact aside_of_line (linesOf_of_line rfl) (aside_of_ending (e := " rc = 0;") (by decide) 1)
    · cases hs

theorem aside_of_mem_acquisitions (h : MethodMapped structs m call) (pinned : Bool) :
    ∀ s ∈ acquisitions call pinned, ∀ l ∈ linesOf s, Aside l := by
  intro s hs
  obtain ⟨x, hx, rfl⟩ := List.mem_map.1 hs
  obtain ⟨hx, hkept⟩ := List.mem_filter.1 hx
  rw [Bool.and_eq_true, Bool.not_eq_true', String.isEmpty_eq_false_iff] at hkept
  exact aside_of_line (linesOf_of_line rfl) ((asideTexts_of_mapped h (mapped_of_mem_acquiring hx)).marshalIn hkept.1)

theorem aside_of_mem_releases (h : MethodMapped structs m call) :
    ∀ s ∈ releases call, ∀ l ∈ linesOf s, Aside l := by
  intro s hs
  obtain ⟨x, hx, rfl⟩ := List.mem_map.1 hs
  obtain ⟨hx, hkept⟩ := List.mem_filter.1 hx
  rw [Bool.not_eq_true', String.isEmpty_eq_false_iff] at hkept
  exact aside_of_line (linesOf_of_line rfl)
    ((asideTexts_of_mapped h (mapped_of_mem_acquiring (List.mem_reverse.1 hx))).release hkept)

theorem aside_of_mem_ending : ∀ s ∈ ending stats call, ∀ l ∈ linesOf s, Aside l := by
  intro s hs
  rcases List.mem_cons.1 hs with rfl | hs
  · exact aside_of_line (linesOf_of_line rfl) (aside_of_ending (e := "_FUNC);") (by decide) 1)
  · split at hs
    · obtain rfl := List.mem_singleton.1 hs
      exact aside_of_line (linesOf_of_line rfl) (aside_of_end (e := "rc;".toList) (by decide) (by decide))
    · cases hs

/-- **No statement but a check of a length is written as one**, code from overrides aside. -/
theorem aside_of_mem_statementsOf (h : MethodMapped structs m call) {s : Statement} (hs : s ∈ statementsOf stats call)
    (hplain : s.isFragment = false) (hother : s.checked? = none) : ∀ l ∈ linesOf s, Aside l := by
  rw [statementsOf_eq] at hs
  rcases List.mem_append.1 hs with hs | hs
  · exact aside_of_mem_declaring h s hs
  rcases List.mem_cons.1 hs with rfl | hs
  · exact aside_of_line (linesOf_of_line rfl) (aside_of_ending (e := "_FUNC);") (by decide) 1)
  rcases List.mem_append.1 hs with hs | hs
  · rcases List.mem_append.1 hs with hs | hs
    · rcases List.mem_append.1 hs with hs | hs
      · exact aside_of_mem_acquisitions h false s hs
      · obtain ⟨x, -, rfl⟩ := List.mem_map.1 hs
        cases hother
    · exact aside_of_mem_acquisitions h true s hs
  rcases List.mem_append.1 hs with hs | hs
  · simp only [calling, List.mem_cons, List.not_mem_nil, or_false] at hs
    rcases hs with rfl | rfl | rfl
    · cases hplain
    · rcases callOrBody_cases call with hcall | ⟨t, hcall, -⟩
      · rw [hcall]
        exact aside_of_mem_linesOf_call call
      · rw [hcall] at hplain
        cases hplain
    · cases hplain
  rcases List.mem_append.1 hs with hs | hs
  · split at hs
    · obtain rfl := List.mem_singleton.1 hs
      intro l hl
      obtain rfl : l = "fail:" := List.mem_singleton.1 hl
      exact aside_of_end (e := [':']) (by decide) (by decide)
    · cases hs
  rcases List.mem_append.1 hs with hs | hs
  · exact aside_of_mem_releases h s hs
  · exact aside_of_mem_ending s hs

end

/-! ## 4. The checks of a body -/

/-- The lines of a function body but for code from overrides. -/
def plainLines (stats : String) (m : CallMapping) : List String :=
  ((statementsOf stats m).filter (!·.isFragment)).flatMap linesOf

section

variable {stats : String} {structs : List StructClass} {m : NativeMethod} {call : CallMapping}

/-- The checks of a body are those of its method, in the order of the parameters. -/
theorem filterMap_checked (stats : String) (call : CallMapping) :
    (statementsOf stats call).filterMap Statement.checked? =
      (lengthChecks call.method).map fun x => (x.1.index, x.2.index) := by
  have hdeclaring : (declaring call).filterMap Statement.checked? = [] := by
    refine List.filterMap_eq_nil_iff.2 fun s hs => ?_
    rcases List.mem_append.1 hs with hs | hs
    · obtain ⟨t, -, rfl⟩ := List.mem_map.1 hs
      rfl
    · split at hs
      · rw [List.mem_singleton.1 hs]
        rfl
      · cases hs
  have hacquired : ∀ pinned, (acquisitions call pinned).filterMap Statement.checked? = [] := by
    refine fun pinned => List.filterMap_eq_nil_iff.2 fun s hs => ?_
    obtain ⟨x, -, rfl⟩ := List.mem_map.1 hs
    rfl
  have hcalling : (calling call).filterMap Statement.checked? = [] := by
    unfold calling
    rcases callOrBody_cases call with hcall | ⟨t, hcall, -⟩
    · rw [hcall]
      rfl
    · rw [hcall]
      rfl
  have hrest : ((if canFail call then [Statement.failLabel] else []) ++
      (releases call ++ ending stats call)).filterMap Statement.checked? = [] := by
    refine List.filterMap_eq_nil_iff.2 fun s hs => ?_
    rcases List.mem_append.1 hs with hs | hs
    · split at hs
      · rw [List.mem_singleton.1 hs]
        rfl
      · cases hs
    rcases List.mem_append.1 hs with hs | hs
    · obtain ⟨x, -, rfl⟩ := List.mem_map.1 hs
      rfl
    rcases List.mem_cons.1 hs with rfl | hs
    · rfl
    · split at hs
      · rw [List.mem_singleton.1 hs]
        rfl
      · cases hs
  have hchecks : (checks call).filterMap Statement.checked? =
      (lengthChecks call.method).map fun x => (x.1.index, x.2.index) := by
    rw [checks, List.filterMap_map, ← List.filterMap_eq_map]
    rfl
  rw [statementsOf_eq, attempts, List.filterMap_append, hdeclaring, List.nil_append,
    List.filterMap_cons_none rfl, List.filterMap_append, List.filterMap_append, List.filterMap_append,
    hacquired, hacquired, hchecks, List.filterMap_append, hcalling, hrest, List.nil_append, List.append_nil,
    List.append_nil, List.append_nil]

/-- A line is written as often as there is a check that is written so. -/
theorem count_linesOf {ss : List Statement}
    (h : ∀ s ∈ ss, s.isFragment = false → s.checked? = none → ∀ l ∈ linesOf s, Aside l) (d k j : Nat) :
    ((ss.filter (!·.isFragment)).flatMap linesOf).count (Line.indented d (checkText k j)).text =
      if d = 1 then (ss.filterMap Statement.checked?).count (k, j) else 0 := by
  induction ss with
  | nil => exact (ite_self 0).symm
  | cons s ss ih =>
    replace ih := ih fun s hs => h s (List.mem_cons_of_mem _ hs)
    cases hplain : s.isFragment with
    | true =>
      have hnone : s.checked? = none := by
        cases s with
        | fragment => rfl
        | _ => cases hplain
      rw [List.filter_cons_of_neg (by rw [hplain]; decide), List.filterMap_cons_none hnone]
      exact ih
    | false =>
      rw [List.filter_cons_of_pos (by rw [hplain]; rfl), List.flatMap_cons, List.count_append, ih]
      cases hchecked : s.checked? with
      | none =>
        have hother := h s List.mem_cons_self hplain hchecked
        have hzero : (Line.indented d (checkText k j)).text ∉ linesOf s := fun hl => hother _ hl d k j rfl
        rw [List.count_eq_zero.2 hzero, Nat.zero_add, List.filterMap_cons_none hchecked]
      | some pair =>
        obtain ⟨array, count, rfl⟩ : ∃ array count, s = .checkLength array count := by
          cases s with
          | checkLength array count => exact ⟨array, count, rfl⟩
          | _ => cases hchecked
        obtain rfl := Option.some.inj hchecked
        have hline : ((Line.indented 1 (checkText array.index count.index)).text ==
            (Line.indented d (checkText k j)).text) = (decide (d = 1) && ((array.index, count.index) == (k, j))) := by
          rw [Bool.eq_iff_iff, beq_iff_eq, text_checkText_eq_iff, Bool.and_eq_true, decide_eq_true_iff, beq_iff_eq,
            eq_comm]
        rw [linesOf_checkLength, List.filterMap_cons_some hchecked, List.count_singleton, List.count_cons, hline]
        by_cases hd : d = 1
        · rw [if_pos hd, if_pos hd, decide_eq_true hd, Bool.true_and, Nat.add_comm]
        · rw [if_neg hd, if_neg hd, decide_eq_false hd]
          rfl

end

/-! ## 5. Native methods -/

theorem mem_bodyLines_of_checked {stats : String} {call : CallMapping} {k j : Nat}
    (h : (k, j) ∈ (statementsOf stats call).filterMap Statement.checked?) :
    (Line.indented 1 (checkText k j)).text ∈ bodyLines stats call := by
  obtain ⟨s, hs, hchecked⟩ := List.mem_filterMap.1 h
  cases s with
  | checkLength array count =>
    obtain ⟨rfl, rfl⟩ := Prod.mk.inj (Option.some.inj hchecked)
    exact List.mem_flatMap.2 ⟨_, hs, List.mem_singleton.2 rfl⟩
  | _ => cases hchecked

/-- The checks in the body of a native method are those of the linked arrays: one statement for each, in the order
of the parameters, which is written as a line. Under the standard rules there is such a line among those that are
written for the method once for each linked array and for nothing else, code from overrides aside. -/
structure ChecksLinks (e : Mapper) (n : NativeMethod) (stats : String) (call : CallMapping) : Prop where
  statements : (statementsOf stats call).filterMap Statement.checked? = linkedPairs n.parameters
  written : ∀ k j, n.parameters[k]?.bind (·.lengthParam) = some j →
    (Line.indented 1 (checkText k j)).text ∈ bodyLines stats call
  lines : e.rules = standardRules → ∀ d k j, (plainLines stats call).count (Line.indented d (checkText k j)).text =
    if d = 1 ∧ n.parameters[k]?.bind (·.lengthParam) = some j then 1 else 0

/-- **Links to lengths are sound.** The parameters of a native method of a model are numbered by their places. They
are linked as the doc comment of its declaration or the store asks for, by an index or by a name: an array to another
parameter, which is there and is an integral primitive after casts and flags. Whenever the method is mapped, its body
checks every linked array once, against the parameter that it is linked to, and checks nothing else. -/
theorem length_links_sound {store : Overlay.Store} {files : List OutlinedFile} {m : Model}
    (h : modelOf store files = .ok m) {n : NativeMethod} (hn : n ∈ m.natives) :
    (∃ c ∈ classesOf files, ∃ d ∈ c.outline.natives, Origin c d n ∧ ∃ inline,
      directivesOf c.path d.doc = .ok inline ∧ Linked inline (store.lookup n.identity) n.parameters) ∧
    ∀ (e : Mapper) structs call, e.callMapping structs n = .ok call → ∀ stats, ChecksLinks e n stats call := by
  obtain ⟨c, hc, d, hd, horigin, inline, hinline, hlinked⟩ := linked_of_modelOf h hn
  refine ⟨⟨c, hc, d, hd, horigin, inline, hinline, hlinked⟩, fun e structs call hcall stats => ?_⟩
  have hstatements : (statementsOf stats call).filterMap Statement.checked? = linkedPairs n.parameters := by
    rw [filterMap_checked, (callMapped hcall).method]
    exact map_lengthChecks hlinked
  refine ⟨hstatements, fun k j hkj => ?_, fun he d k j => ?_⟩
  · have hpair := (mem_linkedPairs hlinked).2 hkj
    rw [← hstatements] at hpair
    exact mem_bodyLines_of_checked hpair
  · have hmapped := methodMapped he hcall
    rw [plainLines, count_linesOf (fun s hs => aside_of_mem_statementsOf hmapped hs), hstatements,
      count_linkedPairs hlinked, ite_and]

/-- A method whose arrays are linked by its doc comment, by a name, and by the store, by an index. -/
def sizedFiles : List OutlinedFile :=
  [ { path := ⟨.here, ["OS.java"]⟩
      outline :=
        { package := ""
          classes :=
            [ { name := "OS", line := 1, fields := []
                natives := [ ⟨"fill", [⟨"data", "int[]", 3⟩, ⟨"count", "int", 3⟩, ⟨"rest", "byte[]", 3⟩], "void",
                              ["native"], 3, some ⟨"/** @param data length=count */", 2⟩⟩ ] } ] } } ]

def sizedStore : Overlay.Store :=
  .ofRecords [{ key := "OS.fill", kind := .method, params := [("rest", { length := some "1" })] }]

theorem length_links_sound_sizedFiles :
    ∃ m n call, modelOf sizedStore sizedFiles = .ok m ∧ n ∈ m.natives ∧
      n.parameters.map (·.lengthParam) = [some 1, none, some 1] ∧
      Mapper.callMapping ⟨"linux", 64, 8, standardRules⟩ m.structs n = .ok call ∧
      ∀ stats, ChecksLinks ⟨"linux", 64, 8, standardRules⟩ n stats call := by
  have hbuilt : ∃ m ∈ (modelOf sizedStore sizedFiles).toOption, ∃ n ∈ m.natives,
      n.parameters.map (·.lengthParam) = [some 1, none, some 1] ∧
        ∃ call ∈ (Mapper.callMapping ⟨"linux", 64, 8, standardRules⟩ m.structs n).toOption,
          call.parameters.length = 3 := by
    decide +kernel
  obtain ⟨m, hm, n, hn, hlinks, call, hcall, -⟩ := hbuilt
  have hm := ok_of_toOption hm
  have hcall := ok_of_toOption hcall
  exact ⟨m, n, call, hm, hn, hlinks, hcall, (length_links_sound hm hn).2 _ _ call hcall⟩

end NativeGlue.Code
