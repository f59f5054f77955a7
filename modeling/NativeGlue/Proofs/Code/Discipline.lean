import NativeGlue.Proofs.Code.Execution
import NativeGlue.Proofs.Code.Phrases
import NativeGlue.Proofs.Source.Declared

/-!
# What is acquired is given back

The body of a native method under the standard rules, as a text and as a program (`Disciplined`). Its
lines are those of its statements and say what these do; a run of the statements gives back what it
acquired, once and in reverse order; and there is a label exactly if there is a jump, behind all jumps
and in front of all that is given back.
-/

namespace NativeGlue.Code

open NativeGlue.Mapping NativeGlue.Text

/-! ## 1. What comes from outside -/

/-- A jump to the label. -/
def jump : List Char := "goto fail".toList

/-- A text without line breaks and without the word of a jump. -/
structure Clean (s : String) : Prop where
  line : '\n' ∉ s.toList
  word : ¬ "goto".toList <:+: s.toList

/-- The texts that directives put into a body are clean: the functions and the casts. -/
structure Tidy (structs : List StructClass) (m : NativeMethod) : Prop where
  accessor : Clean m.accessor
  cast : ∀ k, m.cast = some k → Clean k
  casts : ∀ q ∈ m.parameters, ∀ k, q.cast = some k → Clean k
  natives : ∀ s ∈ structs, Clean s.nativeName

/-- What a clean text is free of. -/
def breaks : List (List Char) := ["\n".toList, "goto".toList]

theorem Clean.free {s : String} (h : Clean s) {r : List Char} (hr : r ∈ breaks) : Free r s.toList := by
  unfold breaks at hr
  rcases List.mem_cons.1 hr with rfl | hr
  · exact Free.of_not_mem (c := '\n') (by decide) h.line
  · obtain rfl := List.mem_singleton.1 hr
    exact h.word

theorem Tidy.guarded {structs : List StructClass} {m : NativeMethod} (h : Tidy structs m)
    {r : List Char} (hr : r ∈ breaks) : Guarded r structs m := by
  have hclosed : ∀ r ∈ breaks, Seal r "(" ∧ Seal r ")" := by decide
  obtain ⟨hopen, hclose⟩ := hclosed r hr
  exact guarded_of_free hopen hclose (h.accessor.free hr) (fun k hk => (h.cast k hk).free hr)
    (fun q hq k hk => (h.casts q hq k hk).free hr) (fun s hs => (h.natives s hs).free hr)

/-! ## 2. What the lines say -/

/-- The texts of a parameter say what its statements do: it is acquired into its local, which begins
as null, and given back from there. -/
structure Legible (p : Parameter) (t : ValueMapping) : Prop where
  marshalIn : t.marshalIn = "" ∨ ∃ source, t.marshalIn = taken p source
  release : t.release = "" ∨ ∃ action, t.release = given p action
  localDecl : t.marshalIn ≠ "" → ∃ declared, t.localDecl = declared ++ localOf p ++ "=NULL;"

theorem legible_of_crossing {structs : List StructClass} {p : Parameter} {t : ValueMapping}
    (h : Crossing structs p t) : Legible p t := by
  cases h with
  | value _ hin hout => exact ⟨.inl hin, .inl hout, fun hne => absurd hin hne⟩
  | copied r _ _ hdecl hin hout => exact ⟨.inr ⟨_, hin⟩, .inr ⟨_, hout⟩, fun _ => ⟨_, hdecl⟩⟩
  | pinned r _ _ hdecl hin hout => exact ⟨.inr ⟨_, hin⟩, .inr ⟨_, hout⟩, fun _ => ⟨_, hdecl⟩⟩
  | text _ hdecl hin hout => exact ⟨.inr ⟨_, hin⟩, .inr ⟨_, hout⟩, fun _ => ⟨_, hdecl⟩⟩
  | struct name native _ _ _ hdecl hin hout =>
    refine ⟨.inr ?_, hout.symm.imp_right fun h => ⟨_, h⟩, fun _ => ⟨_, hdecl⟩⟩
    exact hin.elim (fun h => ⟨_, h⟩) (fun h => ⟨_, h⟩)

/-- The line of a statement that is written as one. -/
theorem linesOf_of_line {s : Statement} {t : String}
    (h : writeStatement { depth := 1 } s = ({ depth := 1 } : IndentedText).line t) :
    linesOf s = [(Line.indented 1 t).text] := by
  rw [linesOf, h]
  rfl

section

variable {stats : String} {structs : List StructClass} {m : NativeMethod} {call : CallMapping}

theorem crossing_of_mem_mapped (h : MethodMapped structs m call)
    (ha : ∀ q ∈ m.parameters, q.type.kind = .struct → q.type.isArray = false) :
    ∀ x ∈ call.mapped, Crossing structs x.1 x.2 := by
  intro x hx
  obtain ⟨hp, r, c, hm⟩ := h.of_mem_mapped hx
  exact crossing_of_mapped hm (ha _ hp)

theorem mapped_of_mem_acquiring {x : Parameter × ValueMapping} (hx : x ∈ call.acquiring) :
    x ∈ call.mapped := by
  rcases List.mem_append.1 hx with hx | hx
  · exact (List.mem_filter.1 (List.mem_filter.1 hx).1).1
  · exact (List.mem_filter.1 (List.mem_filter.1 hx).1).1

/-- Every mapping belongs to a parameter. -/
theorem mapped_of_mem_parameters (h : MethodMapped structs m call) {t : ValueMapping}
    (ht : t ∈ call.parameters) : ∃ q, (q, t) ∈ call.mapped := by
  unfold CallMapping.mapped
  rw [h.method]
  have hlength := h.parameters.length_eq
  obtain ⟨i, hi, rfl⟩ := List.getElem_of_mem ht
  have hzip : i < (m.parameters.zip call.parameters).length := by
    rw [List.length_zip]
    omega
  exact ⟨m.parameters[i], List.mem_iff_getElem.2 ⟨i, hzip, List.getElem_zip⟩⟩

variable (h : MethodMapped structs m call) (ht : Tidy structs m) (hu : Unadorned m)
  (hn : ∀ s ∈ structs, IsPlain s.name)
  (ha : ∀ q ∈ m.parameters, q.type.kind = .struct → q.type.isArray = false)

include h

/-- The text of a result is free of what breaks a line. -/
theorem free_marshalOut {r : List Char} (hr : r ∈ breaks) :
    Free r call.result.marshalOut.toList := by
  have hclosed : ∀ r ∈ breaks, Free r "".toList ∧
      ∀ f ∈ resultFrames, Free r (f.1 ++ value ++ f.2).toList := by decide +kernel
  rcases h.result.marshalOut with he | ⟨f, hf, he⟩
  · rw [he]
    exact (hclosed r hr).1
  · rw [he]
    exact (hclosed r hr).2 f hf

include ht hn ha in
/-- What declares and what gives back is written without line breaks and without jumps. -/
theorem free_of_mem_linesOf_mapped {p : List Char} (hp : p ∈ ["\n".toList, jump]) :
    ∀ s ∈ declaring call ++ releases call, ∀ l ∈ linesOf s, Free p l.toList := by
  have hclosed : ∀ p ∈ ["\n".toList, jump], (∃ r ∈ breaks, r ∈ patterns ∧ r <:+: p) ∧
      ∃ r ∈ ["\n".toList, jumpMark], r <:+: p := by decide
  obtain ⟨⟨r, hr, hrp, hlong⟩, k, hk, hklong⟩ := hclosed p hp
  have hkm : k ∈ marks := by
    have hmarks : ∀ k ∈ ["\n".toList, jumpMark], k ∈ marks := by decide
    exact hmarks k hk
  have hkp := mem_of_mem_marks hkm
  have hcrossing := crossing_of_mem_mapped h ha
  intro s hs l hl
  rcases List.mem_append.1 hs with hs | hs
  · rcases List.mem_append.1 hs with hs | hs
    · obtain ⟨t, ht', rfl⟩ := List.mem_map.1 hs
      obtain ⟨q, hq⟩ := mapped_of_mem_parameters h (List.mem_filter.1 ht').1
      rw [linesOf_of_line rfl, List.mem_singleton] at hl
      have hfree := free_localDecl hrp (fun s hs => (ht.natives s hs).free hr) (hcrossing _ hq)
      rw [hl]
      exact (free_indented (List.mem_cons_of_mem _ hrp) hfree 1).longer hlong
    · split at hs
      · obtain rfl := List.mem_singleton.1 hs
        rw [linesOf_of_line rfl, List.mem_singleton] at hl
        rw [hl]
        exact (free_indented (List.mem_cons_of_mem _ hrp) (free_declareResult hrp h.result) 1).longer hlong
      · cases hs
  · obtain ⟨x, hx, rfl⟩ := List.mem_map.1 hs
    have hmapped := mapped_of_mem_acquiring (List.mem_reverse.1 (List.mem_filter.1 hx).1)
    rw [linesOf_of_line rfl, List.mem_singleton] at hl
    rw [hl]
    exact (free_indented hkp (free_release hk (fun s hs => (hn s hs).free hkm) (hcrossing _ hmapped))
      1).longer hklong

/-- What counts a call, makes it and ends it is written without line breaks and without jumps. -/
theorem free_of_mem_linesOf_call_ending (ht : Tidy structs m) (hu : Unadorned m)
    (hs : IsPlain stats) {p : List Char} (hp : p ∈ ["\n".toList, jump]) :
    ∀ s ∈ .enter stats (methodSymbol call.method) :: (calling call ++ ending stats call),
      ∀ l ∈ linesOf s, Free p l.toList := by
  have hclosed : ∀ p ∈ ["\n".toList, jump], (∃ r ∈ breaks, r ∈ patterns ∧ r <:+: p) ∧
      (∃ r ∈ marks, r <:+: p) ∧ Free p (Line.indented 1 "return rc;").text.toList := by decide
  obtain ⟨⟨r, hr, hrp, hlong⟩, ⟨k, hk, hklong⟩, hreturn⟩ := hclosed p hp
  have hcounted := free_counted hk hs (isPlain_methodSymbol call.method)
  have hfragment : ∀ t : Option String, t.getD "" = "" → linesOf (.fragment t) = [] := by
    intro t h
    cases t with
    | none => rfl
    | some t =>
      obtain rfl : t = "" := h
      rfl
  have hcall : Unadorned call.method := by rwa [h.method]
  have hmark := mem_of_mem_marks hk
  intro s hs l hl
  rcases List.mem_cons.1 hs with rfl | hs
  · rw [linesOf_of_line rfl, List.mem_singleton] at hl
    rw [hl]
    exact (free_indented hmark hcounted.1 1).longer hklong
  rcases List.mem_append.1 hs with hs | hs
  · rw [calling, callOrBody_of_unadorned hcall] at hs
    simp only [List.mem_cons, List.not_mem_nil, or_false] at hs
    rcases hs with rfl | rfl | rfl
    · rw [hfragment _ (hcall _ (by simp))] at hl
      cases hl
    · exact (free_of_mem_linesOf_call hrp h (ht.guarded hr) (free_marshalOut h hr) l hl).longer hlong
    · rw [hfragment _ (hcall _ (by simp))] at hl
      cases hl
  rcases List.mem_cons.1 hs with rfl | hs
  · rw [linesOf_of_line rfl, List.mem_singleton] at hl
    rw [hl]
    exact (free_indented hmark hcounted.2 1).longer hklong
  · split at hs
    · obtain rfl := List.mem_singleton.1 hs
      rw [linesOf_of_line rfl, List.mem_singleton] at hl
      rw [hl]
      exact hreturn
    · cases hs

/-- What acquires or checks is one line that jumps. -/
theorem linesOf_attempt (hn : ∀ s ∈ structs, IsPlain s.name)
    (ha : ∀ q ∈ m.parameters, q.type.kind = .struct → q.type.isArray = false) :
    ∀ s ∈ attempts call, ∃ l, linesOf s = [l] ∧ Free "\n".toList l.toList ∧ jump <:+: l.toList := by
  have hp : "\n".toList ∈ marks := by decide
  have hp' := mem_of_mem_marks hp
  have hindent : ∀ t : String, jump <:+: t.toList → jump <:+: (Line.indented 1 t).text.toList := by
    intro t ht
    unfold Line.text
    dsimp only
    split
    · rename_i hempty
      rw [String.isEmpty_iff.1 hempty] at ht
      cases List.infix_nil.1 ht
    · rw [String.toList_append]
      exact ht.trans List.infix_append_right
  have hacquire : ∀ b, ∀ s ∈ acquisitions call b,
      ∃ l, linesOf s = [l] ∧ Free "\n".toList l.toList ∧ jump <:+: l.toList := by
    intro b s hs
    obtain ⟨x, hx, rfl⟩ := List.mem_map.1 hs
    obtain ⟨hx, hin⟩ := List.mem_filter.1 hx
    have hcrossing := crossing_of_mem_mapped h ha x (mapped_of_mem_acquiring hx)
    refine ⟨_, linesOf_of_line rfl, free_indented hp' (free_marshalIn (fun s hs => (hn s hs).free hp) hcrossing) 1,
      hindent _ ?_⟩
    rcases (legible_of_crossing hcrossing).marshalIn with he | ⟨source, he⟩
    · dsimp only at hin
      rw [he] at hin
      cases hin
    · have hend : jump <:+: ") == NULL) goto fail;".toList := by decide
      rw [he, taken, String.toList_append]
      exact hend.trans List.infix_append_right
  intro s hs
  rcases List.mem_append.1 hs with hs | hs
  · rcases List.mem_append.1 hs with hs | hs
    · exact hacquire false s hs
    · obtain ⟨⟨array, count⟩, -, rfl⟩ := List.mem_map.1 hs
      have hclosed : Free "\n".toList "if (".toList ∧
          Free "\n".toList " && (*env)->GetArrayLength(env, ".toList ∧ Free "\n".toList ") < ".toList ∧
          Free "\n".toList ") goto fail;".toList ∧ jump <:+: ") goto fail;".toList := by decide
      obtain ⟨hif, hlength, hless, hend, hjump⟩ := hclosed
      have harray := seal_arg hp' array
      have hcount := seal_arg hp' count
      refine ⟨_, linesOf_of_line rfl, free_indented hp' ?_ 1, hindent _ ?_⟩
      · exact ((((((hif.seal harray).then hlength).seal harray).then hless).seal hcount).then hend)
      · show jump <:+: ("if (" ++ array.arg ++ " && (*env)->GetArrayLength(env, " ++ array.arg ++
          ") < " ++ count.arg ++ ") goto fail;").toList
        rw [String.toList_append]
        exact hjump.trans List.infix_append_right
  · exact hacquire true s hs

end

/-! ## 3. Labels -/

/-- What stands in front of the label. -/
def opening (stats : String) (call : CallMapping) : List Statement :=
  declaring call ++ (.enter stats (methodSymbol call.method) :: (attempts call ++ calling call))

/-- What stands behind the label. -/
def closing (stats : String) (call : CallMapping) : List Statement := releases call ++ ending stats call

theorem bodyLines_eq (stats : String) (call : CallMapping) : bodyLines stats call =
    (opening stats call).flatMap linesOf ++ ((if canFail call then ["fail:"] else []) ++
      (closing stats call).flatMap linesOf) := by
  have hlabel : (if canFail call then [Statement.failLabel] else []).flatMap linesOf =
      if canFail call then ["fail:"] else [] := by
    split
    · rfl
    · rfl
  rw [bodyLines, statementsOf_eq, ← hlabel]
  simp only [opening, closing, List.flatMap_append, List.flatMap_cons, List.append_assoc]

/-- There is no label in front of the label and none behind it. -/
theorem label_not_mem (stats : String) (call : CallMapping) :
    "fail:" ∉ (opening stats call).flatMap linesOf ∧ "fail:" ∉ (closing stats call).flatMap linesOf := by
  have hopening : .failLabel ∉ opening stats call := by
    have hcall : .failLabel ≠ callOrBody call := by
      rcases callOrBody_cases call with h | ⟨t, h, -⟩
      · rw [h]
        exact nofun
      · rw [h]
        exact nofun
    unfold opening declaring attempts checks acquisitions calling
    split <;> simp [hcall]
  have hclosing : .failLabel ∉ closing stats call := by
    unfold closing releases ending
    split <;> simp
  constructor
  · intro h
    obtain ⟨s, hs, hl⟩ := List.mem_flatMap.1 h
    exact ne_label_of_mem_linesOf (fun he => hopening (he ▸ hs)) hl rfl
  · intro h
    obtain ⟨s, hs, hl⟩ := List.mem_flatMap.1 h
    exact ne_label_of_mem_linesOf (fun he => hclosing (he ▸ hs)) hl rfl

/-- The label is there once or not at all. -/
theorem count_label (stats : String) (call : CallMapping) :
    (bodyLines stats call).count "fail:" = if canFail call then 1 else 0 := by
  obtain ⟨hopening, hclosing⟩ := label_not_mem stats call
  rw [bodyLines_eq, List.count_append, List.count_append, List.count_eq_zero.2 hopening,
    List.count_eq_zero.2 hclosing]
  split
  · rfl
  · rfl

/-! ## 4. Locals -/

theorem localOf_injective {p q : Parameter} (h : localOf p = localOf q) : p.index = q.index := by
  have harg : p.arg = q.arg := (String.append_right_inj _).1 h
  have hindex : toString p.index = toString q.index := (String.append_right_inj _).1 harg
  have hdigits : Nat.toDigits 10 p.index = Nat.toDigits 10 q.index := by
    have hlist := congrArg String.toList hindex
    rwa [show (toString p.index).toList = _ from Nat.toList_repr,
      show (toString q.index).toList = _ from Nat.toList_repr] at hlist
  rw [← ofDigits_toDigits p.index, hdigits, ofDigits_toDigits]

/-- Parameters with different numbers have different locals. -/
theorem nodup_localOf {structs : List StructClass} {m : NativeMethod} {call : CallMapping}
    (h : MethodMapped structs m call) (hi : (m.parameters.map (·.index)).Nodup) :
    (call.acquiring.map fun x => localOf x.1).Nodup := by
  have hmapped : (call.mapped.map fun x => localOf x.1).Nodup := by
    rw [← h.map_fst_mapped, List.map_map, List.Nodup, List.pairwise_map] at hi
    rw [List.Nodup, List.pairwise_map]
    exact hi.imp fun hne he => hne (localOf_injective he)
  have hperm : call.acquiring.Perm
      (call.mapped.filter fun x => !x.2.marshalIn.isEmpty || !x.2.release.isEmpty) := by
    unfold CallMapping.acquiring
    dsimp only
    refine (List.perm_append_comm).trans ?_
    exact List.filter_append_perm (fun x : Parameter × ValueMapping => x.2.pinned) _
  rw [(hperm.map fun x => localOf x.1).nodup_iff]
  exact hmapped.sublist ((List.filter_sublist).map _)

/-! ## 5. Bodies -/

/-- A body gives back what it acquires. -/
structure Disciplined (stats : String) (call : CallMapping) : Prop where
  /-- The lines of the text are those of the statements, one by one. -/
  lines : splitAt '\n' (bodyText stats call) = (statementsOf stats call).flatMap linesOf
  legible : ∀ x ∈ call.mapped, Legible x.1 x.2
  /-- No local is acquired twice. -/
  distinct : ∀ c : Chance, (c.acquiredBy call).Nodup
  /-- Whatever is null or fails, the call is counted once, what was acquired and has to be given back
  is given back once and in reverse order, and the end is counted once. -/
  runs : ∀ c : Chance, c.run false [] (statementsOf stats call) =
    some ([.entered] ++ (c.acquiredBy call).map .acquired
      ++ (if (attempts call).any c.jumps then [] else [.called])
      ++ ((c.acquiredBy call).filter (givesBack call)).reverse.map .released ++ [.exited])
  /-- There is one label if there is a jump, and else none. -/
  label : (splitAt '\n' (bodyText stats call)).count "fail:" =
    if jump <:+: (bodyText stats call).toList then 1 else 0
  /-- Behind the label everything is given back, and nothing jumps any more. -/
  behind : ∀ before after, splitAt '\n' (bodyText stats call) = before ++ "fail:" :: after →
    after = (releases call ++ ending stats call).flatMap linesOf ∧
      ∀ l ∈ after, ¬ jump <:+: l.toList

theorem disciplined_of_methodMapped {stats : String} {structs : List StructClass} {m : NativeMethod}
    {call : CallMapping} (h : MethodMapped structs m call) (ht : Tidy structs m) (hu : Unadorned m)
    (hs : IsPlain stats) (hn : ∀ s ∈ structs, IsPlain s.name)
    (ha : ∀ q ∈ m.parameters, q.type.kind = .struct → q.type.isArray = false)
    (hi : (m.parameters.map (·.index)).Nodup) : Disciplined stats call := by
  have hparts : ∀ {p}, p ∈ ["\n".toList, jump] →
      (∀ s ∈ opening stats call, s ∈ attempts call ∨ ∀ l ∈ linesOf s, Free p l.toList) ∧
      ∀ s ∈ closing stats call, ∀ l ∈ linesOf s, Free p l.toList := by
    intro p hp
    have hmapped := free_of_mem_linesOf_mapped h ht hn ha hp
    have hcall := free_of_mem_linesOf_call_ending h ht hu hs hp
    constructor
    · intro s hs
      rcases List.mem_append.1 hs with hs | hs
      · exact .inr (hmapped s (List.mem_append_left _ hs))
      rcases List.mem_cons.1 hs with rfl | hs
      · exact .inr (hcall _ List.mem_cons_self)
      rcases List.mem_append.1 hs with hs | hs
      · exact .inl hs
      · exact .inr (hcall s (List.mem_cons_of_mem _ (List.mem_append_left _ hs)))
    · intro s hs
      rcases List.mem_append.1 hs with hs | hs
      · exact hmapped s (List.mem_append_right _ hs)
      · exact hcall s (List.mem_cons_of_mem _ (List.mem_append_right _ hs))
  have hattempt := linesOf_attempt h hn ha
  obtain ⟨hopening, hclosing⟩ := label_not_mem stats call
  have hlines : splitAt '\n' (bodyText stats call) = bodyLines stats call := by
    refine splitAt_bodyText fun l hl => ?_
    have hfree : Free "\n".toList l.toList := by
      obtain ⟨hfront, hback⟩ := hparts (p := "\n".toList) (by decide)
      rw [bodyLines_eq, List.mem_append, List.mem_append] at hl
      rcases hl with hl | hl | hl
      · obtain ⟨s, hs, hl⟩ := List.mem_flatMap.1 hl
        rcases hfront s hs with hs | hs
        · obtain ⟨x, hx, hfree, -⟩ := hattempt s hs
          rw [hx, List.mem_singleton] at hl
          rwa [hl]
        · exact hs l hl
      · split at hl
        · rw [List.mem_singleton.1 hl]
          decide
        · cases hl
      · obtain ⟨s, hs, hl⟩ := List.mem_flatMap.1 hl
        exact hback s hs l hl
    exact hfree.not_mem
  have hquiet : ∀ l ∈ (closing stats call).flatMap linesOf, Free jump l.toList := by
    intro l hl
    obtain ⟨s, hs, hl⟩ := List.mem_flatMap.1 hl
    exact (hparts (p := jump) (by decide)).2 s hs l hl
  have hjump : jump <:+: (bodyText stats call).toList ↔ canFail call = true := by
    have hbreak : Seal jump "\n" := by decide
    have hfree : Free jump (bodyText stats call).toList ↔ canFail call = false := by
      rw [bodyText_eq, free_intercalate hbreak]
      constructor
      · intro hall
        refine Bool.eq_false_iff.2 fun hfail => ?_
        obtain ⟨s, r, hs⟩ := List.exists_cons_of_ne_nil (canFail_iff.1 hfail)
        obtain ⟨l, hl, -, hlj⟩ := hattempt s (hs ▸ List.mem_cons_self)
        refine hall l (List.mem_flatMap.2 ⟨s, ?_, hl ▸ List.mem_singleton_self l⟩) hlj
        rw [statementsOf_eq, hs]
        simp
      · intro hfail l hl
        rw [bodyLines_eq, hfail, List.mem_append, List.mem_append] at hl
        rcases hl with hl | hl | hl
        · obtain ⟨s, hs, hl⟩ := List.mem_flatMap.1 hl
          rcases (hparts (p := jump) (by decide)).1 s hs with hs | hs
          · exact absurd (canFail_iff.2 (List.ne_nil_of_mem hs)) (by rw [hfail]; exact nofun)
          · exact hs l hl
        · cases hl
        · exact hquiet l hl
    rw [← Bool.not_eq_false, ← hfree, Free, not_not]
  have hunadorned : Unadorned call.method := by rwa [h.method]
  have hrun := fun c => @run_statementsOf call c stats hunadorned (nodup_localOf h hi)
  refine ⟨hlines, fun x hx => legible_of_crossing (crossing_of_mem_mapped h ha x hx),
    fun c => (hrun c).1, fun c => (hrun c).2, ?_, fun before after hsplit => ?_⟩
  · rw [hlines, count_label]
    exact if_congr hjump.symm rfl rfl
  · rw [hlines, bodyLines_eq] at hsplit
    split at hsplit
    · have hparts := (List.append_cons_inj_of_notMem hopening hclosing).1 hsplit
      obtain ⟨-, -, rfl⟩ := hparts
      exact ⟨rfl, hquiet⟩
    · have hmem : "fail:" ∈ (opening stats call).flatMap linesOf ++
          ([] ++ (closing stats call).flatMap linesOf) := by
        rw [hsplit]
        exact List.mem_append_right _ List.mem_cons_self
      rw [List.nil_append, List.mem_append] at hmem
      exact (hmem.elim hopening hclosing).elim

/-- **Every native method of a model gives back what it acquires**, in reverse order and whatever
fails, and its body has a label exactly if it has a jump. -/
theorem disciplined_of_modelOf {store : Overlay.Store} {files : List Source.OutlinedFile}
    {model : Model} (hmodel : Source.modelOf store files = .ok model)
    (hwords : ∀ f ∈ files, ∀ c ∈ f.outline.classes, ∀ d ∈ c.name.toList, Java.isWordPart d = true)
    {e : Mapper} (he : e.rules = standardRules) {n : NativeMethod} (hn : n ∈ model.natives)
    {structs : List StructClass} (hstructs : ∀ s ∈ structs, s ∈ model.structs) {call : CallMapping}
    (hcall : e.callMapping structs n = .ok call) (hu : Unadorned n) (ht : Tidy structs n)
    (statsName : String) : Disciplined (statsPrefix statsName) call := by
  obtain ⟨known, es, hfrom⟩ := Source.modelFrom_of_modelOf hmodel
  obtain ⟨d, -, k, -, hnative⟩ := hfrom.native hn
  refine disciplined_of_methodMapped (methodMapped he hcall) ht hu (isPlain_statsPrefix statsName)
    (fun s hs => ?_) (fun q hq => ?_) hnative.indices
  · obtain ⟨f, hf, c, hc, hname⟩ := hfrom.struct (hstructs s hs)
    rw [hname]
    exact isPlain_of_word (hwords f hf c hc)
  · obtain ⟨x, -, hx⟩ := exists_of_mem_forall₂ hnative.parameters hq
    exact hx.isArray

/-- A file with a method that takes a struct, a text, and an array whose length is checked and that is
pinned. -/
def borrowingFiles : List Source.OutlinedFile :=
  [ { path := ⟨.here, ["Pool.java"]⟩
      outline :=
        { package := "p"
          classes :=
            [ { name := "Span", line := 1, natives := [], fields := [⟨"size", "int", 2, none⟩] },
              { name := "Pool", line := 4, fields := []
                natives :=
                  [ ⟨"fill", [⟨"data", "int[]", 6⟩, ⟨"count", "int", 6⟩, ⟨"span", "Span", 6⟩,
                      ⟨"tag", "String", 6⟩], "int", ["native"], 6,
                      some ⟨"/** @param data length=count,flags=critical */", 5⟩⟩ ] } ] } } ]

/-- If the array is too short, the struct and the text are given back in reverse order. -/
theorem disciplined_borrowingFiles :
    ∃ m n call, Source.modelOf {} borrowingFiles = .ok m ∧ n ∈ m.natives ∧
      Mapper.callMapping ⟨"linux", 64, 8, standardRules⟩ m.structs n = .ok call ∧
      Chance.run ⟨fun _ => false, fun _ => false, fun _ => true⟩ false [] (statementsOf "STATS" call) =
        some [.entered, .acquired "lparg2", .acquired "lparg3", .released "lparg3",
          .released "lparg2", .exited] ∧
      Disciplined (statsPrefix "stats") call := by
  have hbuilt : ∃ m ∈ (Source.modelOf {} borrowingFiles).toOption, ∃ n ∈ m.natives,
      ∃ call ∈ (Mapper.callMapping ⟨"linux", 64, 8, standardRules⟩ m.structs n).toOption,
        (n.accessor = "fill" ∧ n.fragments = {} ∧ n.cast = none ∧ (∀ q ∈ n.parameters, q.cast = none) ∧
          ∀ s ∈ m.structs, s.nativeName = "Span") ∧
        Chance.run ⟨fun _ => false, fun _ => false, fun _ => true⟩ false [] (statementsOf "STATS" call) =
          some [.entered, .acquired "lparg2", .acquired "lparg3", .released "lparg3",
            .released "lparg2", .exited] := by
    decide +kernel
  obtain ⟨m, hm, n, hn, call, hcall, ⟨haccessor, hfragments, hcast, hcasts, hnatives⟩, hrun⟩ := hbuilt
  have hm : Source.modelOf {} borrowingFiles = .ok m := ok_of_toOption hm
  have hcall := ok_of_toOption hcall
  have hunadorned : Unadorned n := by
    rw [Unadorned, hfragments]
    decide
  have htidy : Tidy m.structs n := by
    refine ⟨?_, fun k hk => ?_, fun q hq k hk => ?_, fun s hs => ?_⟩
    · rw [haccessor]
      exact ⟨by decide, by decide⟩
    · rw [hcast] at hk
      cases hk
    · rw [hcasts q hq] at hk
      cases hk
    · rw [hnatives s hs]
      exact ⟨by decide, by decide⟩
  exact ⟨m, n, call, hm, hn, hcall, hrun, disciplined_of_modelOf hm (by decide) rfl hn
    (fun _ hs => hs) hcall hunadorned htidy "stats"⟩

end NativeGlue.Code
