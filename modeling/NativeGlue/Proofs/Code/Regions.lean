import NativeGlue.Proofs.Code.Discipline

/-!
# While arrays are pinned

While an array is pinned, nothing may be asked of the virtual machine but to pin and to unpin. The body
of a native method under the standard rules that pins an array falls into three parts
(`Uninterrupted`): what is borrowed without pinning and what is checked comes first, then, from the
first array that is pinned to the last that is unpinned, come the calls that pin, the native function and
the calls that unpin, and what was borrowed is given back last.

The texts from outside must hold no call of the virtual machine, neither by themselves nor together with
the parentheses that are written around them (`Quiet`).
-/

namespace NativeGlue.Code

open NativeGlue.Mapping NativeGlue.Text

/-! ## 1. Calls of the virtual machine -/

/-- What a call of the virtual machine begins with. -/
def runtime : List Char := "(*env)->".toList

/-- A line calls a function of the virtual machine. -/
def Calls (f l : String) : Prop := runtime ++ (f ++ "(").toList <:+: l.toList

/-- Of the functions of the virtual machine, a line calls some only. -/
def CallsOnly (fs : List String) (l : String) : Prop :=
  Only runtime (fs.map fun f => (f ++ "(").toList) l.toList

instance (f l : String) : Decidable (Calls f l) :=
  inferInstanceAs (Decidable (runtime ++ (f ++ "(").toList <:+: l.toList))

/-- What pins an array and what unpins it. -/
def pinning : List String := ["GetPrimitiveArrayCritical", "ReleasePrimitiveArrayCritical"]

/-- What checks a length or borrows without pinning. -/
def borrowing : List String :=
  "GetArrayLength" :: "GetStringUTFChars" ::
    primitiveTypes.map fun q => "Get" ++ q.accessor ++ "ArrayElements"

/-- What gives back what was borrowed without pinning. -/
def returning : List String :=
  "ReleaseStringUTFChars" :: primitiveTypes.map fun q => "Release" ++ q.accessor ++ "ArrayElements"

theorem borrowing_subset : borrowing ⊆ pinning ++ borrowing ++ returning :=
  fun _ hf => List.mem_append_left _ (List.mem_append_right _ hf)

theorem pinning_subset : pinning ⊆ pinning ++ borrowing ++ returning :=
  fun _ hf => List.mem_append_left _ (List.mem_append_left _ hf)

theorem returning_subset : returning ⊆ pinning ++ borrowing ++ returning :=
  List.subset_append_right _ _

theorem CallsOnly.mono {fs gs : List String} {l : String} (h : CallsOnly fs l) (hs : fs ⊆ gs) :
    CallsOnly gs l :=
  Only.mono h (List.map_subset _ hs)

/-- Two functions with different names are told apart by what stands before the parenthesis. -/
theorem CallsOnly.not_calls {fs : List String} {l f : String} (h : CallsOnly fs l)
    (hf : ∀ g ∈ fs, ¬ (g ++ "(").toList <+: (f ++ "(").toList ∧
      ¬ (f ++ "(").toList <+: (g ++ "(").toList) : ¬ Calls f l := by
  have hfree : Free (runtime ++ (f ++ "(").toList) l.toList := by
    refine Only.free h fun w hw => ?_
    obtain ⟨g, hg, rfl⟩ := List.mem_map.1 hw
    exact hf g hg
  exact hfree

/-- A line with a single call of the virtual machine. -/
def CallLine (f l : String) : Prop :=
  ∃ front rest, l = front ++ ("(*env)->" ++ f ++ "(env, ") ++ rest ∧ Ended runtime front ∧
    Free runtime rest.toList

theorem CallLine.calls {f l : String} (h : CallLine f l) : Calls f l := by
  obtain ⟨front, rest, rfl, -, -⟩ := h
  have hopen : "(env, " = "(" ++ "env, " := by decide
  refine ⟨front.toList, ("env, " ++ rest).toList, ?_⟩
  unfold runtime
  rw [hopen, ← String.toList_append, ← String.toList_append, ← String.toList_append]
  refine congrArg String.toList ?_
  simp only [String.append_assoc]

theorem CallLine.callsOnly {f l : String} (h : CallLine f l)
    (hf : f ∈ pinning ++ borrowing ++ returning) : CallsOnly [f] l := by
  have hclosed : ∀ f ∈ pinning ++ borrowing ++ returning,
      Only runtime [f.toList ++ "(".toList] (runtime ++ f.toList ++ "(env, ".toList) := by
    decide +kernel
  have hcall : Only runtime [(f ++ "(").toList] ("(*env)->" ++ f ++ "(env, ").toList := by
    rw [String.toList_append, String.toList_append, String.toList_append]
    exact hclosed f hf
  have hseal : Seal runtime "(env, " := by decide
  obtain ⟨front, rest, rfl, hfront, hrest⟩ := h
  refine Only.append (Only.append hfront.free.only hcall (.inl hfront.shuts)) hrest.only (.inl ?_)
  exact hfront.shuts.append (hseal.shuts_append _)

theorem CallLine.ne_empty {f l : String} (h : CallLine f l) : l ≠ "" := by
  obtain ⟨front, rest, rfl, -, -⟩ := h
  intro he
  have hlist := congrArg String.toList he
  simp at hlist

/-- A call stays a call when its line is indented. -/
theorem CallLine.indented {f l : String} (h : CallLine f l) (d : Nat) :
    CallLine f (Line.indented d l).text := by
  have hne : l.isEmpty = false := by
    rw [Bool.eq_false_iff, ne_eq, String.isEmpty_iff]
    exact h.ne_empty
  obtain ⟨front, rest, rfl, hfront, hrest⟩ := h
  have hp : runtime ∈ jumpMark :: patterns := by decide
  refine ⟨copies d "\t" ++ front, rest, ?_, (ended_tabs hp d).append hfront, hrest⟩
  show (if _ then _ else _) = _
  rw [hne, if_neg Bool.false_ne_true]
  simp only [String.append_assoc]

/-! ## 2. The lines with calls -/

theorem runtime_mem_marks : runtime ∈ marks := by decide

theorem runtime_mem_patterns : runtime ∈ patterns := by decide

/-- A line that gets hold of an argument. -/
theorem callLine_taken (f : String) (q : Parameter) : CallLine f (taken q (getCall f q)) := by
  have hclosed : Free runtime (", NULL)" ++ ") == NULL) goto fail;").toList := by decide
  have harg := seal_arg (mem_of_mem_marks runtime_mem_marks) q
  refine ⟨_, q.arg ++ (", NULL)" ++ ") == NULL) goto fail;"), ?_, ended_taken runtime_mem_marks q,
    harg.ended.then hclosed⟩
  simp only [taken, getCall, String.append_assoc]

/-- A line that gives back what an argument acquired. -/
theorem callLine_given {f more : String} (q : Parameter) (hm : Free runtime more.toList) :
    CallLine f (given q (giveCall ("(*env)->" ++ f) q more)) := by
  have hclosed : Free runtime ", ".toList ∧ Free runtime (")" ++ ";").toList ∧
      Opens runtime (")" ++ ";") := by decide
  obtain ⟨hcomma, hend, hopens⟩ := hclosed
  have hp := mem_of_mem_marks runtime_mem_marks
  have hlocal := ((seal_arg hp q).ended.then hcomma).seal (seal_localOf hp q)
  refine ⟨_, q.arg ++ ", " ++ localOf q ++ more ++ (")" ++ ";"), ?_, ended_given runtime_mem_marks q,
    (hlocal.then hm).append hend (.inr hopens)⟩
  simp only [given, giveCall, String.append_assoc]

/-- The line that checks a length. -/
theorem callLine_checkLength (array count : Parameter) : CallLine "GetArrayLength"
    ("if (" ++ array.arg ++ " && (*env)->GetArrayLength(env, " ++ array.arg ++ ") < " ++ count.arg ++
      ") goto fail;") := by
  have hclosed : Free runtime "if (".toList ∧ Ended runtime " && " ∧ Free runtime ") < ".toList ∧
      Free runtime ") goto fail;".toList := by decide
  obtain ⟨hif, hand, hless, hend⟩ := hclosed
  have hp := mem_of_mem_marks runtime_mem_marks
  have harray := seal_arg hp array
  refine ⟨"if (" ++ array.arg ++ " && ", array.arg ++ ") < " ++ count.arg ++ ") goto fail;", ?_,
    (hif.seal harray).append hand, ((harray.ended.then hless).seal (seal_arg hp count)).then hend⟩
  have hcheck : " && (*env)->GetArrayLength(env, " =
      " && " ++ ("(*env)->" ++ "GetArrayLength" ++ "(env, ") := by decide
  rw [hcheck]
  simp only [String.append_assoc]

/-! ## 3. What is asked for a parameter -/

/-- What is asked of the virtual machine to acquire the local of a parameter and to give it back:
nothing, to borrow, or to pin. -/
inductive Hold (q : Parameter) (t : ValueMapping) : Prop
  | quiet (marshalIn : Free runtime t.marshalIn.toList) (release : Free runtime t.release.toList)
      (unpinned : t.pinned = true → t.release = "" ∧ (t.marshalIn = "" ∨ q.type.kind = .struct))
  | borrowed (copied : t.pinned = false) (marshalIn : ∃ f ∈ borrowing, CallLine f t.marshalIn)
      (release : ∃ f ∈ returning, CallLine f t.release)
  | pinned (pinned : t.pinned = true) (marshalIn : CallLine "GetPrimitiveArrayCritical" t.marshalIn)
      (release : CallLine "ReleasePrimitiveArrayCritical" t.release)
      (lineIn : Free "\n".toList t.marshalIn.toList) (lineOut : Free "\n".toList t.release.toList)

section

variable {structs : List StructClass} {q : Parameter} {t : ValueMapping}

theorem free_modeOf (q : Parameter) : Free runtime (", " ++ modeOf q).toList := by
  have hclosed : ∀ m ∈ ["JNI_ABORT", "0"], Free runtime (", " ++ m).toList := by decide
  unfold modeOf
  split
  · exact hclosed _ (by decide)
  · exact hclosed _ (by decide)

/-- Every way to cross asks for nothing, borrows or pins. -/
theorem hold_of_crossing (hn : ∀ s ∈ structs, Free runtime s.name.toList) (h : Crossing structs q t) :
    Hold q t := by
  have hempty : Free runtime "".toList := by decide
  have hj : runtime ≠ jumpMark := by decide
  cases h with
  | value _ hin hout =>
    refine .quiet ?_ ?_ fun _ => ⟨hout, .inl hin⟩
    · rw [hin]
      exact hempty
    · rw [hout]
      exact hempty
  | copied r hr hfree _ hin hout =>
    have hborrow : "Get" ++ r.accessor ++ "ArrayElements" ∈ borrowing :=
      List.mem_cons_of_mem _ (List.mem_cons_of_mem _ (List.mem_map.2 ⟨r, hr, rfl⟩))
    have hreturn : "Release" ++ r.accessor ++ "ArrayElements" ∈ returning :=
      List.mem_cons_of_mem _ (List.mem_map.2 ⟨r, hr, rfl⟩)
    have hcall : "(*env)->Release" ++ r.accessor ++ "ArrayElements" =
        "(*env)->" ++ ("Release" ++ r.accessor ++ "ArrayElements") := by
      have hword : "(*env)->Release" = "(*env)->" ++ "Release" := by decide
      rw [hword]
      simp only [String.append_assoc]
    refine .borrowed hfree ⟨_, hborrow, hin ▸ callLine_taken _ q⟩ ⟨_, hreturn, ?_⟩
    rw [hout, hcall]
    exact callLine_given q (free_modeOf q)
  | pinned r hr hpinned hdecl hin hout =>
    have hcrossing : Crossing [] q t := .pinned r hr hpinned hdecl hin hout
    refine .pinned hpinned (hin ▸ callLine_taken _ q) ?_ (free_marshalIn (List.forall_mem_nil _) hcrossing)
      (free_release (by decide) (List.forall_mem_nil _) hcrossing)
    rw [hout]
    exact callLine_given q (free_modeOf q)
  | text hfree _ hin hout =>
    have hborrow : "GetStringUTFChars" ∈ borrowing := List.mem_cons_of_mem _ List.mem_cons_self
    refine .borrowed hfree ⟨_, hborrow, hin ▸ callLine_taken _ q⟩ ⟨_, List.mem_cons_self, ?_⟩
    rw [hout]
    exact callLine_given q hempty
  | struct name native hname _ hfree _ hin hout =>
    have hname := free_structName runtime_mem_marks hn hname
    obtain ⟨hget, hplace⟩ := @free_structIn q _ runtime_mem_marks hj name hname
    refine .quiet ?_ ?_ fun hp => absurd (hp.symm.trans hfree) (by decide)
    · rcases hin with hin | hin
      · rw [hin]
        exact hget
      · rw [hin]
        exact hplace
    · rcases hout with hout | hout
      · rw [hout]
        exact free_structOut runtime_mem_marks hname
      · rw [hout]
        exact hempty

theorem hold_of_unpinnable (h : Unpinnable structs q t) : Hold q t := by
  have hempty : Free runtime "".toList := by decide
  have hj : runtime ≠ jumpMark := by decide
  refine .quiet ?_ ?_ fun _ => ⟨h.release, .inr h.kind⟩
  · rcases h.marshalIn with hin | hin
    · rw [hin]
      exact hempty
    · rw [hin]
      exact (@free_structIn q _ runtime_mem_marks hj "" hempty).2
  · rw [h.release]
    exact hempty

end

/-! ## 4. What statements ask for -/

/-- The texts that come from outside hold no call of the virtual machine, neither by themselves nor
together with the parentheses around them. -/
structure Quiet (structs : List StructClass) (m : NativeMethod) : Prop where
  guarded : Guarded runtime structs m
  fragments : ∀ t ∈ [m.fragments.preCall, m.fragments.body, m.fragments.postCall],
    Free runtime (t.getD "").toList
  names : ∀ s ∈ structs, Free runtime s.name.toList

theorem Guarded.longer {p r : List Char} {structs : List StructClass} {m : NativeMethod}
    (h : Guarded p structs m) (hr : p <:+: r) : Guarded r structs m where
  accessor := h.accessor.longer hr
  result c hc := (h.result c hc).longer hr
  direct hd c hc := (h.direct hd c hc).longer hr
  casts q hq k hk := (h.casts q hq k hk).longer hr
  types q hq c hc := (h.types q hq c hc).longer hr
  natives s hs := (h.natives s hs).longer hr

/-- Of the functions of the virtual machine, statements call some only. -/
def Ask (fs : List String) (ss : List Statement) : Prop := ∀ s ∈ ss, ∀ l ∈ linesOf s, CallsOnly fs l

theorem Ask.append {fs : List String} {ss ts : List Statement} (hs : Ask fs ss) (ht : Ask fs ts) :
    Ask fs (ss ++ ts) :=
  fun s h => (List.mem_append.1 h).elim (hs s) (ht s)

theorem Ask.cons {fs : List String} {s : Statement} {ss : List Statement}
    (hs : ∀ l ∈ linesOf s, CallsOnly fs l) (h : Ask fs ss) : Ask fs (s :: ss) :=
  List.forall_mem_cons.2 ⟨hs, h⟩

theorem Ask.mono {fs gs : List String} {ss : List Statement} (h : Ask fs ss) (hs : fs ⊆ gs) :
    Ask gs ss :=
  fun s hm l hl => (h s hm l hl).mono hs

/-- What is asked for line by line is asked for by the lines of the text. -/
theorem Ask.textLines {fs : List String} {ss : List Statement} (h : Ask fs ss)
    (hfs : fs ⊆ pinning ++ borrowing ++ returning) : ∀ l ∈ textLines ss, CallsOnly fs l := by
  have hclosed : ∀ f ∈ pinning ++ borrowing ++ returning, '\n' ∉ runtime ++ (f ++ "(").toList := by
    decide +kernel
  intro l hl
  obtain ⟨x, hx, hlx⟩ := List.mem_flatMap.1 hl
  obtain ⟨s, hs, hxs⟩ := List.mem_flatMap.1 hx
  obtain ⟨piece, hpiece, rfl⟩ := List.mem_map.1 hlx
  unfold CallsOnly
  rw [String.toList_ofList]
  refine Only.piece (h s hs x hxs) (fun w hw => ?_) hpiece
  obtain ⟨f, hf, rfl⟩ := List.mem_map.1 hw
  exact hclosed f (hfs hf)

theorem ask_of_free {fs : List String} {ss : List Statement}
    (h : ∀ s ∈ ss, ∀ l ∈ linesOf s, Free runtime l.toList) : Ask fs ss :=
  fun s hs l hl => (h s hs l hl).only

/-- A statement that is written as one line asks for what the line calls. -/
theorem ask_line {fs : List String} (hfs : fs ⊆ pinning ++ borrowing ++ returning) {s : Statement}
    {t : String} (hs : linesOf s = [(Line.indented 1 t).text])
    (h : Free runtime t.toList ∨ ∃ f ∈ fs, CallLine f t) : ∀ l ∈ linesOf s, CallsOnly fs l := by
  intro l hl
  rw [hs, List.mem_singleton] at hl
  rw [hl]
  rcases h with hfree | ⟨f, hf, hcall⟩
  · exact (free_indented (by decide) hfree 1).only
  · exact ((hcall.indented 1).callsOnly (hfs hf)).mono fun g hg => List.mem_singleton.1 hg ▸ hf

section

variable {stats : String} {structs : List StructClass} {m : NativeMethod} {call : CallMapping}

/-- The ways in which the parameters of a method cross. -/
theorem ways_of_mem_mapped (h : MethodMapped structs m call) :
    ∀ x ∈ call.mapped, Crossing structs x.1 x.2 ∨ Unpinnable structs x.1 x.2 := by
  intro x hx
  obtain ⟨-, r, c, hm⟩ := h.of_mem_mapped hx
  exact crossing_or_unpinnable hm

theorem hold_of_mem_acquiring (h : MethodMapped structs m call) (hq : Quiet structs m) :
    ∀ x ∈ call.acquiring, Hold x.1 x.2 := by
  intro x hx
  rcases ways_of_mem_mapped h x (mapped_of_mem_acquiring hx) with hc | hu
  · exact hold_of_crossing hq.names hc
  · exact hold_of_unpinnable hu

/-- What declares and counts asks for nothing. -/
theorem free_of_mem_around (h : MethodMapped structs m call) (hq : Quiet structs m)
    (hs : IsPlain stats) : ∀ s ∈ declaring call ++ (.enter stats (methodSymbol call.method) ::
      ((if canFail call then [.failLabel] else []) ++ ending stats call)),
      ∀ l ∈ linesOf s, Free runtime l.toList := by
  have hp : runtime ∈ jumpMark :: patterns := by decide
  have hcounted := free_counted runtime_mem_marks hs (isPlain_methodSymbol call.method)
  have hnatives : ∀ s ∈ structs, Free runtime s.nativeName.toList :=
    fun s hs => (hq.guarded.natives s hs).right
  have hone : ∀ {s t}, linesOf s = [(Line.indented 1 t).text] → Free runtime t.toList →
      ∀ l ∈ linesOf s, Free runtime l.toList := by
    intro s t hs ht l hl
    rw [hs, List.mem_singleton] at hl
    rw [hl]
    exact free_indented hp ht 1
  have hdeclared : ∀ x ∈ call.mapped, Free runtime x.2.localDecl.toList := by
    intro x hx
    rcases ways_of_mem_mapped h x hx with hc | hu
    · exact free_localDecl runtime_mem_patterns hnatives hc
    · obtain ⟨native, hnative, hdecl⟩ := hu.localDecl
      rw [hdecl]
      exact free_structDecl runtime_mem_patterns
        (free_structNative runtime_mem_patterns hnatives hnative) x.1
  intro s hs
  rcases List.mem_append.1 hs with hs | hs
  · rcases List.mem_append.1 hs with hs | hs
    · obtain ⟨t, ht, rfl⟩ := List.mem_map.1 hs
      obtain ⟨q, hq⟩ := mapped_of_mem_parameters h (List.mem_filter.1 ht).1
      exact hone (linesOf_of_line rfl) (hdeclared _ hq)
    · split at hs
      · obtain rfl := List.mem_singleton.1 hs
        exact hone (linesOf_of_line rfl) (free_declareResult runtime_mem_patterns h.result)
      · cases hs
  rcases List.mem_cons.1 hs with rfl | hs
  · exact hone (linesOf_of_line rfl) hcounted.1
  rcases List.mem_append.1 hs with hs | hs
  · split at hs
    · obtain rfl := List.mem_singleton.1 hs
      have hlabel : ∀ l ∈ linesOf .failLabel, Free runtime l.toList := by decide
      exact hlabel
    · cases hs
  rcases List.mem_cons.1 hs with rfl | hs
  · exact hone (linesOf_of_line rfl) hcounted.2
  · split at hs
    · obtain rfl := List.mem_singleton.1 hs
      exact hone (linesOf_of_line rfl) (by decide)
    · cases hs

theorem ask_around (fs : List String) (h : MethodMapped structs m call) (hq : Quiet structs m)
    (hs : IsPlain stats) : Ask fs (declaring call) ∧
      (∀ l ∈ linesOf (.enter stats (methodSymbol call.method)), CallsOnly fs l) ∧
      Ask fs (if canFail call then [.failLabel] else []) ∧ Ask fs (ending stats call) := by
  have haround : Ask fs _ := ask_of_free (free_of_mem_around h hq hs)
  obtain ⟨hdeclaring, hrest⟩ := List.forall_mem_append.1 haround
  obtain ⟨henter, hrest⟩ := List.forall_mem_cons.1 hrest
  exact ⟨hdeclaring, henter, List.forall_mem_append.1 hrest⟩

/-- The lines of a fragment are parts of it. -/
theorem infix_of_mem_fragmentLines {t l : String} (h : l ∈ IndentedText.fragmentLines t) :
    l.toList <:+: t.toList := by
  unfold IndentedText.fragmentLines lines at h
  dsimp only at h
  rw [String.toList_ofList, List.map_map] at h
  obtain ⟨x, hx, rfl⟩ := List.mem_map.1 h
  have hkept : x <:+: trimOf (· == '\n') t.toList := by
    obtain ⟨a, b, hab⟩ := List.append_of_mem hx
    have hjoin := flatten_linesKept [] (trimOf (· == '\n') t.toList)
    rw [hab, List.flatten_append, List.flatten_cons, List.reverse_nil, List.nil_append] at hjoin
    exact ⟨a.flatten, b.flatten, by rw [← hjoin, List.append_assoc]⟩
  rw [Function.comp_apply, trimEnd, String.toList_ofList, String.toList_ofList]
  exact ((isPrefix_dropEnd _ _).trans (isPrefix_dropEnd _ _)).isInfix.trans (hkept.trans (isInfix_trimOf _ _))

/-- The call and the code around it hold no pattern of a call of the virtual machine, unless the result
needs one. -/
theorem free_of_mem_calling (h : MethodMapped structs m call) (hq : Quiet structs m) {p : List Char}
    (hp : p ∈ patterns) (hlong : runtime <:+: p) (hout : Free p call.result.marshalOut.toList) :
    ∀ s ∈ calling call, ∀ l ∈ linesOf s, Free p l.toList := by
  have hp' : p ∈ jumpMark :: patterns := List.mem_cons_of_mem _ hp
  have hfragment : ∀ t : Option String, Free runtime (t.getD "").toList →
      ∀ l ∈ linesOf (.fragment t), Free p l.toList := by
    intro t ht l hl
    cases t with
    | none => cases hl
    | some t =>
      unfold linesOf writeStatement IndentedText.fragment at hl
      dsimp only at hl
      split at hl
      · cases hl
      · rw [(IndentedText.lines_addLines { depth := 1 } _).1, List.nil_append, List.map_map] at hl
        obtain ⟨x, hx, rfl⟩ := List.mem_map.1 hl
        exact free_indented hp' ((ht.of_part (infix_of_mem_fragmentLines hx)).longer hlong) 1
  have hadded := hq.fragments
  rw [← h.method] at hadded
  intro s hs
  unfold calling at hs
  simp only [List.mem_cons, List.not_mem_nil, or_false] at hs
  rcases hs with rfl | rfl | rfl
  · exact hfragment _ (hadded _ (by simp))
  · rcases callOrBody_cases call with hcall | ⟨t, hcall, hbody⟩
    · rw [hcall]
      exact free_of_mem_linesOf_call hp h (hq.guarded.longer hlong) hout
    · rw [hcall]
      refine hfragment _ ?_
      rw [← hbody]
      exact hadded _ (by simp)
  · exact hfragment _ (hadded _ (by simp))

end

/-! ## 5. The three parts -/

/-- The body of a method that pins an array: what is in front of the first call that pins, what is from
there to the last call that unpins, and what is behind. -/
structure Uninterrupted (stats : String) (call : CallMapping)
    (before region after : List Statement) : Prop where
  statements : statementsOf stats call = before ++ region ++ after
  /-- The lines of the text are those of the three parts. -/
  lines : splitAt '\n' (bodyText stats call) =
    textLines before ++ textLines region ++ textLines after
  opens : ∃ l ls, textLines region = l :: ls ∧ Calls "GetPrimitiveArrayCritical" l
  closes : ∃ ls l, textLines region = ls ++ [l] ∧ Calls "ReleasePrimitiveArrayCritical" l
  first : ∀ l ∈ textLines before, ¬ Calls "GetPrimitiveArrayCritical" l
  last : ∀ l ∈ textLines after, ¬ Calls "ReleasePrimitiveArrayCritical" l
  /-- In between, every call of the virtual machine pins or unpins. -/
  inside : ∀ l ∈ textLines region, CallsOnly pinning l
  borrowed : ∀ l ∈ textLines before, CallsOnly borrowing l
  returned : ∀ l ∈ textLines after, CallsOnly returning l
  /-- Lengths are checked in front. -/
  checked : ∀ array count, .checkLength array count ∉ region ++ after
  /-- What is not pinned is acquired in front. -/
  acquired : ∀ p t, .acquire p t ∈ region ++ after → t.pinned = true ∧
    (p.type.kind ≠ .struct → Calls "GetPrimitiveArrayCritical" t.marshalIn)
  /-- What is not pinned is given back behind. -/
  released : ∀ p t, .release p t ∈ before ++ region → t.pinned = true ∧
    Calls "ReleasePrimitiveArrayCritical" t.release
  callbacks : ∀ q ∈ call.method.parameters, q.type.kind ≠ .callback

/-- What acquires and what gives back, for parameters with their mappings. -/
def acquireAll (xs : List (Parameter × ValueMapping)) : List Statement :=
  xs.map fun x => .acquire x.1 x.2

def releaseAll (xs : List (Parameter × ValueMapping)) : List Statement :=
  xs.map fun x => .release x.1 x.2

theorem ask_acquireAll {fs : List String} (hfs : fs ⊆ pinning ++ borrowing ++ returning)
    {ys : List (Parameter × ValueMapping)} (h : ∀ y ∈ ys,
      Free runtime y.2.marshalIn.toList ∨ ∃ f ∈ fs, CallLine f y.2.marshalIn) :
    Ask fs (acquireAll ys) := by
  intro s hs
  obtain ⟨y, hy, rfl⟩ := List.mem_map.1 hs
  exact ask_line hfs (linesOf_of_line rfl) (h y hy)

theorem ask_releaseAll {fs : List String} (hfs : fs ⊆ pinning ++ borrowing ++ returning)
    {ys : List (Parameter × ValueMapping)} (h : ∀ y ∈ ys,
      Free runtime y.2.release.toList ∨ ∃ f ∈ fs, CallLine f y.2.release) :
    Ask fs (releaseAll ys) := by
  intro s hs
  obtain ⟨y, hy, rfl⟩ := List.mem_map.1 hs
  exact ask_line hfs (linesOf_of_line rfl) (h y hy)

theorem ask_checks (call : CallMapping) : Ask borrowing (checks call) := by
  intro s hs
  obtain ⟨⟨array, count⟩, -, rfl⟩ := List.mem_map.1 hs
  exact ask_line borrowing_subset (linesOf_of_line rfl)
    (.inr ⟨_, List.mem_cons_self, callLine_checkLength array count⟩)

/-- How the parameters that are pinned and those that are not share a body: nothing is given back for
those that are acquired before `x`, and `x` is the last that is unpinned. -/
structure Shares (call : CallMapping) (still : List (Parameter × ValueMapping))
    (x : Parameter × ValueMapping) (more back rest : List (Parameter × ValueMapping)) : Prop where
  acquisitions : acquisitions call true = acquireAll still ++ acquireAll (x :: more)
  releases : releases call = releaseAll (back ++ [x]) ++ releaseAll rest
  pinned : ∀ y ∈ still ++ x :: more, y ∈ call.acquiring ∧ y.2.pinned = true ∧ y.2.marshalIn ≠ ""
  still : ∀ y ∈ still, y.2.release = ""
  back : ∀ y ∈ back ++ [x], y ∈ call.acquiring ∧ y.2.pinned = true ∧ y.2.release ≠ ""
  rest : ∀ y ∈ rest, y ∈ call.acquiring ∧ y.2.pinned = false

theorem not_isEmpty_iff {s : String} : (!s.isEmpty) = true ↔ s ≠ "" := by
  rw [Bool.not_eq_true', Bool.eq_false_iff, ne_eq, String.isEmpty_iff]

/-- What is given back for a pinned parameter was acquired for it. -/
theorem Hold.marshalIn_ne {q : Parameter} {t : ValueMapping} (h : Hold q t) (hp : t.pinned = true)
    (hr : t.release ≠ "") : t.marshalIn ≠ "" := by
  cases h with
  | quiet _ _ hu => exact absurd (hu hp).1 hr
  | borrowed hc => exact absurd (hp.symm.trans hc) (by decide)
  | pinned _ hin => exact hin.ne_empty

/-- What is not pinned, and what is pinned without anything to unpin, is borrowed and given back. -/
theorem Hold.copied {q : Parameter} {t : ValueMapping} (h : Hold q t)
    (hn : ¬ (t.pinned = true ∧ t.release ≠ "")) :
    (Free runtime t.marshalIn.toList ∨ ∃ f ∈ borrowing, CallLine f t.marshalIn) ∧
      (Free runtime t.release.toList ∨ ∃ f ∈ returning, CallLine f t.release) := by
  cases h with
  | quiet hin hout => exact ⟨.inl hin, .inl hout⟩
  | borrowed _ hin hout => exact ⟨.inr hin, .inr hout⟩
  | pinned hp _ hout => exact absurd ⟨hp, hout.ne_empty⟩ hn

theorem exists_shares {call : CallMapping} (hall : ∀ x ∈ call.acquiring, Hold x.1 x.2)
    (hpin : ∃ x ∈ call.acquiring, x.2.pinned = true ∧ x.2.release ≠ "") :
    ∃ still x more back rest, Shares call still x more back rest := by
  obtain ⟨copied, pinned, hparts, hcopied, hpinned⟩ : ∃ copied pinned,
      call.acquiring = copied ++ pinned ∧ (∀ y ∈ copied, y.2.pinned = false) ∧
        ∀ y ∈ pinned, y.2.pinned = true := by
    refine ⟨_, _, rfl, fun y hy => ?_, fun y hy => (List.mem_filter.1 hy).2⟩
    exact Bool.not_eq_true' _ ▸ (List.mem_filter.1 hy).2
  let takes : Parameter × ValueMapping → Bool := fun y => !y.2.marshalIn.isEmpty
  let gives : Parameter × ValueMapping → Bool := fun y => !y.2.release.isEmpty
  have hmem : ∀ y ∈ pinned, y ∈ call.acquiring := fun y hy => hparts ▸ List.mem_append_right _ hy
  have hacquired : acquisitions call true = acquireAll (pinned.filter takes) := by
    have hnone : (copied.filter fun y => takes y && y.2.pinned == true) = [] := by
      refine List.filter_eq_nil_iff.2 fun y hy => ?_
      simp [hcopied y hy]
    have hall : (pinned.filter fun y => takes y && y.2.pinned == true) = pinned.filter takes := by
      refine List.filter_congr fun y hy => ?_
      rw [hpinned y hy, BEq.rfl, Bool.and_true]
    show acquireAll (call.acquiring.filter fun y => takes y && y.2.pinned == true) = _
    rw [hparts, List.filter_append, hnone, hall, List.nil_append]
  -- Among what is pinned, all that is given back was acquired.
  have hgiven : pinned.filter gives = (pinned.filter takes).filter gives := by
    rw [List.filter_filter]
    refine List.filter_congr fun y hy => ?_
    cases hg : gives y with
    | false => rfl
    | true =>
      have hin := (hall y (hmem y hy)).marshalIn_ne (hpinned y hy) (not_isEmpty_iff.1 hg)
      exact (not_isEmpty_iff.2 hin).symm
  obtain ⟨x, hx⟩ : ∃ x, (pinned.filter takes).find? gives = some x := by
    obtain ⟨y, hy, hyp, hyr⟩ := hpin
    have hy : y ∈ pinned := by
      rw [hparts] at hy
      refine (List.mem_append.1 hy).resolve_left fun hc => ?_
      exact absurd (hyp.symm.trans (hcopied y hc)) (by decide)
    have hmemy : y ∈ (pinned.filter takes).filter gives :=
      hgiven ▸ List.mem_filter.2 ⟨hy, not_isEmpty_iff.2 hyr⟩
    refine Option.isSome_iff_exists.1 (List.find?_isSome.2 ?_)
    exact ⟨y, (List.mem_filter.1 hmemy).1, (List.mem_filter.1 hmemy).2⟩
  obtain ⟨hgx, still, more, hsplit, hstill⟩ := List.find?_eq_some_iff_append.1 hx
  have hback : pinned.filter gives = x :: more.filter gives := by
    have hnone : still.filter gives = [] :=
      List.filter_eq_nil_iff.2 fun y hy => by simpa using hstill y hy
    rw [hgiven, hsplit, List.filter_append, hnone, List.filter_cons, if_pos hgx, List.nil_append]
  have hin : ∀ y ∈ still ++ x :: more, y ∈ call.acquiring ∧ y.2.pinned = true ∧ y.2.marshalIn ≠ "" := by
    intro y hy
    rw [← hsplit] at hy
    obtain ⟨hy, htakes⟩ := List.mem_filter.1 hy
    exact ⟨hmem y hy, hpinned y hy, not_isEmpty_iff.1 htakes⟩
  refine ⟨still, x, more, (more.filter gives).reverse, copied.reverse.filter gives, ?_, ?_, hin,
    fun y hy => ?_, fun y hy => ?_, fun y hy => ?_⟩
  · rw [hacquired, hsplit]
    exact List.map_append
  · show releaseAll (call.acquiring.reverse.filter gives) = _
    rw [hparts, List.reverse_append, List.filter_append, List.filter_reverse, hback,
      List.reverse_cons]
    exact List.map_append
  · refine Classical.not_not.1 fun hne => ?_
    have hgives : gives y = true := not_isEmpty_iff.2 hne
    have hfalse := hstill y hy
    rw [hgives] at hfalse
    cases hfalse
  · rw [← List.reverse_cons, List.mem_reverse, ← hback] at hy
    obtain ⟨hy, hg⟩ := List.mem_filter.1 hy
    exact ⟨hmem y hy, hpinned y hy, not_isEmpty_iff.1 hg⟩
  · have hy := List.mem_reverse.1 (List.mem_filter.1 hy).1
    exact ⟨hparts ▸ List.mem_append_left _ hy, hcopied y hy⟩

/-- Where an array is pinned, no parameter is a callback. -/
theorem not_callback_of_pinned {structs : List StructClass} {m : NativeMethod} {call : CallMapping}
    (h : MethodMapped structs m call) {x : Parameter × ValueMapping} (hx : x ∈ call.mapped)
    (hp : x.2.pinned = true) : ∀ q ∈ m.parameters, q.type.kind ≠ .callback := by
  obtain ⟨hmem, r, c, hm⟩ := h.of_mem_mapped hx
  have hpinned : isPinned x.1 m = true := hm.pinned ▸ hp
  have hasked : (m.flags.critical || m.parameters.any (·.ownership == .pinned)) = true := by
    unfold isPinned at hpinned
    rw [Bool.and_eq_true, Bool.or_eq_true] at hpinned
    rw [Bool.or_eq_true]
    exact hpinned.2.imp_right fun ho => List.any_eq_true.2 ⟨x.1, hmem, ho⟩
  have hnone := h.callbacks
  unfold callbacksWhilePinned at hnone
  rw [if_pos hasked, List.map_eq_nil_iff, List.filter_eq_nil_iff] at hnone
  exact fun q hq hk => hnone q hq (beq_iff_eq.2 hk)

/-- A method with a pinned parameter pins. -/
theorem pins_of_mem_acquiring {call : CallMapping} {x : Parameter × ValueMapping}
    (hx : x ∈ call.acquiring) (hp : x.2.pinned = true) : call.pins = true :=
  List.any_eq_true.2 ⟨x.2, (List.of_mem_zip (mapped_of_mem_acquiring hx)).2, hp⟩

theorem textLines_cons_line {s : Statement} {l : String} (hs : linesOf s = [l])
    (hl : Free "\n".toList l.toList) (ss : List Statement) :
    textLines (s :: ss) = l :: textLines ss := by
  rw [textLines, List.flatMap_cons, hs, List.singleton_append, List.flatMap_cons,
    splitAt_of_not_mem (d := '\n') (Free.not_mem hl)]
  rfl

/-- The lines that pin and unpin, of a parameter for which there is something to unpin. -/
theorem Hold.pins {q : Parameter} {t : ValueMapping} (h : Hold q t) (hp : t.pinned = true)
    (hr : t.release ≠ "") : (CallLine "GetPrimitiveArrayCritical" t.marshalIn ∧
      CallLine "ReleasePrimitiveArrayCritical" t.release) ∧
      Free "\n".toList t.marshalIn.toList ∧ Free "\n".toList t.release.toList := by
  cases h with
  | quiet _ _ hu => exact absurd (hu hp).1 hr
  | borrowed hc => exact absurd (hp.symm.trans hc) (by decide)
  | pinned _ hin hout hlin hlout => exact ⟨⟨hin, hout⟩, hlin, hlout⟩

section

variable {stats : String} {structs : List StructClass} {m : NativeMethod} {call : CallMapping}
  {still more back rest : List (Parameter × ValueMapping)} {x : Parameter × ValueMapping}

/-- In front, a method borrows and checks. -/
theorem ask_before (h : MethodMapped structs m call) (hq : Quiet structs m) (hs : IsPlain stats)
    (hshares : Shares call still x more back rest) :
    Ask borrowing (declaring call ++ (.enter stats (methodSymbol call.method) ::
      (acquisitions call false ++ checks call ++ acquireAll still))) := by
  have hall := hold_of_mem_acquiring h hq
  obtain ⟨hdeclaring, henter, -, -⟩ := ask_around borrowing h hq hs
  have hcopied : Ask borrowing (acquisitions call false) := by
    refine ask_acquireAll borrowing_subset fun y hy => ?_
    obtain ⟨hy, hcond⟩ := List.mem_filter.1 hy
    rw [Bool.and_eq_true, beq_iff_eq] at hcond
    exact ((hall y hy).copied fun hp => absurd (hp.1.symm.trans hcond.2) (by decide)).1
  have hstill : Ask borrowing (acquireAll still) := by
    refine ask_acquireAll borrowing_subset fun y hy => ?_
    have hya := (hshares.pinned y (List.mem_append_left _ hy)).1
    exact ((hall y hya).copied fun hp => hp.2 (hshares.still y hy)).1
  exact hdeclaring.append (.cons henter ((hcopied.append (ask_checks call)).append hstill))

/-- While an array is pinned, a method pins and unpins. -/
theorem ask_region (h : MethodMapped structs m call) (hq : Quiet structs m)
    (hs : IsPlain stats) (hshares : Shares call still x more back rest) :
    Ask pinning (acquireAll (x :: more) ++ (calling call ++
      ((if canFail call then [.failLabel] else []) ++ releaseAll (back ++ [x])))) := by
  have hall := hold_of_mem_acquiring h hq
  obtain ⟨hxa, hxp, -⟩ := hshares.pinned x (List.mem_append_right _ List.mem_cons_self)
  have hout := h.runtime (pins_of_mem_acquiring hxa hxp)
  have hcalling : Ask pinning (calling call) :=
    ask_of_free (free_of_mem_calling h hq runtime_mem_patterns (List.infix_refl _) hout)
  obtain ⟨-, -, hlabel, -⟩ := ask_around pinning h hq hs
  have hacquired : Ask pinning (acquireAll (x :: more)) := by
    refine ask_acquireAll pinning_subset fun y hy => ?_
    obtain ⟨hya, hyp, -⟩ := hshares.pinned y (List.mem_append_right _ hy)
    cases hall y hya with
    | quiet hin => exact .inl hin
    | borrowed hc => exact absurd (hyp.symm.trans hc) (by decide)
    | pinned _ hin => exact .inr ⟨_, List.mem_cons_self, hin⟩
  have hreleased : Ask pinning (releaseAll (back ++ [x])) := by
    refine ask_releaseAll pinning_subset fun y hy => ?_
    obtain ⟨hya, hyp, hyr⟩ := hshares.back y hy
    exact .inr ⟨_, List.mem_cons_of_mem _ List.mem_cons_self, ((hall y hya).pins hyp hyr).1.2⟩
  exact hacquired.append (hcalling.append (hlabel.append hreleased))

/-- Behind, a method gives back what it borrowed. -/
theorem ask_after (h : MethodMapped structs m call) (hq : Quiet structs m)
    (hs : IsPlain stats) (hshares : Shares call still x more back rest) :
    Ask returning (releaseAll rest ++ ending stats call) := by
  obtain ⟨-, -, -, hending⟩ := ask_around returning h hq hs
  refine Ask.append (ask_releaseAll returning_subset fun y hy => ?_) hending
  obtain ⟨hya, hcopied⟩ := hshares.rest y hy
  refine ((hold_of_mem_acquiring h hq y hya).copied fun hp => ?_).2
  exact absurd (hp.1.symm.trans hcopied) (by decide)

/-- **The calls that pin and unpin enclose nothing but the call and each other.** -/
theorem uninterrupted_of_shares (h : MethodMapped structs m call) (hq : Quiet structs m)
    (hs : IsPlain stats) (hshares : Shares call still x more back rest) :
    Uninterrupted stats call
      (declaring call ++ (.enter stats (methodSymbol call.method) ::
        (acquisitions call false ++ checks call ++ acquireAll still)))
      (acquireAll (x :: more) ++ (calling call ++
        ((if canFail call then [.failLabel] else []) ++ releaseAll (back ++ [x]))))
      (releaseAll rest ++ ending stats call) := by
  have hclosed : (∀ g ∈ borrowing, ¬ (g ++ "(").toList <+: ("GetPrimitiveArrayCritical" ++ "(").toList ∧
        ¬ ("GetPrimitiveArrayCritical" ++ "(").toList <+: (g ++ "(").toList) ∧
      ∀ g ∈ returning, ¬ (g ++ "(").toList <+: ("ReleasePrimitiveArrayCritical" ++ "(").toList ∧
        ¬ ("ReleasePrimitiveArrayCritical" ++ "(").toList <+: (g ++ "(").toList := by
    decide +kernel
  obtain ⟨hpin, hunpin⟩ := hclosed
  have hall := hold_of_mem_acquiring h hq
  have hbefore := (ask_before h hq hs hshares).textLines borrowing_subset
  have hregion := (ask_region h hq hs hshares).textLines pinning_subset
  have hafter := (ask_after h hq hs hshares).textLines returning_subset
  obtain ⟨hxa, hxp, hxr⟩ := hshares.back x (List.mem_append_right _ List.mem_cons_self)
  obtain ⟨⟨hxin, hxout⟩, hlin, hlout⟩ := (hall x hxa).pins hxp hxr
  have hnewline : "\n".toList ∈ jumpMark :: patterns := by decide
  have hstatements : statementsOf stats call =
      (declaring call ++ (.enter stats (methodSymbol call.method) ::
        (acquisitions call false ++ checks call ++ acquireAll still))) ++
      (acquireAll (x :: more) ++ (calling call ++
        ((if canFail call then [.failLabel] else []) ++ releaseAll (back ++ [x])))) ++
      (releaseAll rest ++ ending stats call) := by
    rw [statementsOf_eq, attempts, hshares.acquisitions, hshares.releases]
    simp only [List.append_assoc, List.cons_append]
  refine
    { statements := hstatements
      lines := by rw [splitAt_bodyText_eq, hstatements, textLines_append, textLines_append]
      opens := ⟨_, _, textLines_cons_line (linesOf_of_line rfl) (free_indented hnewline hlin 1) _,
        (hxin.indented 1).calls⟩
      closes := ?_
      first := fun l hl => (hbefore l hl).not_calls hpin
      last := fun l hl => (hafter l hl).not_calls hunpin
      inside := hregion
      borrowed := hbefore
      returned := hafter
      checked := fun array count hmem => ?_
      acquired := fun p t hmem => ?_
      released := fun p t hmem => ?_
      callbacks := ?_ }
  · refine ⟨textLines (acquireAll (x :: more) ++ (calling call ++
      ((if canFail call then [.failLabel] else []) ++ releaseAll back))), _, ?_,
      (hxout.indented 1).calls⟩
    have hlast : textLines [.release x.1 x.2] = [(Line.indented 1 x.2.release).text] :=
      textLines_cons_line (linesOf_of_line rfl) (free_indented hnewline hlout 1) []
    rw [← hlast, ← textLines_append]
    simp [releaseAll]
  · rcases callOrBody_cases call with hcall | ⟨t, hcall, -⟩
    · simp [acquireAll, releaseAll, calling, ending, hcall] at hmem
    · simp [acquireAll, releaseAll, calling, ending, hcall] at hmem
  · have hmem : (p, t) ∈ x :: more := by
      rcases callOrBody_cases call with hcall | ⟨_, hcall, -⟩
      · simpa [acquireAll, releaseAll, calling, ending, hcall, Prod.ext_iff] using hmem
      · simpa [acquireAll, releaseAll, calling, ending, hcall, Prod.ext_iff] using hmem
    obtain ⟨hya, hyp, hyin⟩ := hshares.pinned (p, t) (List.mem_append_right _ hmem)
    refine ⟨hyp, fun hstruct => ?_⟩
    cases hall _ hya with
    | quiet _ _ hu => exact absurd ((hu hyp).2.resolve_right hstruct) hyin
    | borrowed hc => exact absurd (hyp.symm.trans hc) (by decide)
    | pinned _ hin => exact hin.calls
  · have hmem : (p, t) ∈ back ++ [x] := by
      rcases callOrBody_cases call with hcall | ⟨_, hcall, -⟩
      · simpa [acquireAll, releaseAll, calling, declaring, checks, acquisitions, hcall,
          Prod.ext_iff] using hmem
      · simpa [acquireAll, releaseAll, calling, declaring, checks, acquisitions, hcall,
          Prod.ext_iff] using hmem
    obtain ⟨hya, hyp, hyr⟩ := hshares.back (p, t) hmem
    exact ⟨hyp, ((hall _ hya).pins hyp hyr).1.2.calls⟩
  · rw [h.method]
    exact not_callback_of_pinned h (mapped_of_mem_acquiring hxa) hxp

end

theorem infix_of_mem_splitAt {d : Char} {l piece : String} (h : piece ∈ splitAt d l) :
    piece.toList <:+: l.toList := by
  obtain ⟨x, hx, rfl⟩ := List.mem_map.1 h
  obtain ⟨a, b, hab, -⟩ := exists_of_mem_splitOn hx
  rw [String.toList_ofList, hab]
  exact ⟨a, b, rfl⟩

/-- The call and the code around it pin nothing. -/
theorem not_calls_of_mem_calling {structs : List StructClass} {m : NativeMethod} {call : CallMapping}
    (h : MethodMapped structs m call) (hq : Quiet structs m) :
    ∀ s ∈ calling call, ∀ l ∈ linesOf s, ¬ Calls "GetPrimitiveArrayCritical" l := by
  -- The result may need a call, but none that begins so.
  have hclosed : "(*env)->GetPrimitive".toList ∈ patterns ∧ runtime <:+: "(*env)->GetPrimitive".toList ∧
      "(*env)->GetPrimitive".toList <:+: runtime ++ ("GetPrimitiveArrayCritical" ++ "(").toList ∧
      Free "(*env)->GetPrimitive".toList "".toList ∧
      ∀ f ∈ resultFrames, Free "(*env)->GetPrimitive".toList (f.1 ++ value ++ f.2).toList := by
    decide +kernel
  obtain ⟨hpattern, hlong, hshort, hempty, hframes⟩ := hclosed
  have hout : Free "(*env)->GetPrimitive".toList call.result.marshalOut.toList := by
    rcases h.result.marshalOut with he | ⟨f, hf, he⟩
    · rw [he]
      exact hempty
    · rw [he]
      exact hframes f hf
  intro s hs l hl hcalls
  exact free_of_mem_calling h hq hpattern hlong hout s hs l hl (hshort.trans hcalls)

/-- **A body calls what pins only if an array is pinned.** -/
theorem exists_pinned_of_calls {stats : String} {structs : List StructClass} {m : NativeMethod}
    {call : CallMapping} (h : MethodMapped structs m call) (hq : Quiet structs m) (hs : IsPlain stats)
    {l : String} (hl : l ∈ splitAt '\n' (bodyText stats call))
    (hcalls : Calls "GetPrimitiveArrayCritical" l) :
    ∃ x ∈ call.acquiring, x.2.pinned = true ∧ x.2.release ≠ "" := by
  have hfunctions : ∀ f ∈ borrowing ++ returning,
      ¬ (f ++ "(").toList <+: ("GetPrimitiveArrayCritical" ++ "(").toList ∧
        ¬ ("GetPrimitiveArrayCritical" ++ "(").toList <+: (f ++ "(").toList := by
    decide +kernel
  refine Classical.not_not.1 fun hnone => ?_
  -- If nothing is pinned, every line borrows, gives back, or belongs to the call.
  have hcopied : ∀ y ∈ call.acquiring, _ := fun y hy =>
    (hold_of_mem_acquiring h hq y hy).copied fun hp => hnone ⟨y, hy, hp⟩
  obtain ⟨hdeclaring, henter, hlabel, hending⟩ := ask_around (borrowing ++ returning) h hq hs
  have hacquired : ∀ b, Ask (borrowing ++ returning) (acquisitions call b) := fun b =>
    (ask_acquireAll borrowing_subset fun y hy => (hcopied y (List.mem_filter.1 hy).1).1).mono
      (List.subset_append_left _ _)
  have hreleased : Ask (borrowing ++ returning) (releases call) :=
    (ask_releaseAll returning_subset fun y hy =>
      (hcopied y (List.mem_reverse.1 (List.mem_filter.1 hy).1)).2).mono (List.subset_append_right _ _)
  have hchecked := (ask_checks call).mono (List.subset_append_left borrowing returning)
  have hfront := hdeclaring.append
    (.cons henter (((hacquired false).append hchecked).append (hacquired true)))
  have hback := hlabel.append (hreleased.append hending)
  have hparts : statementsOf stats call =
      (declaring call ++ (.enter stats (methodSymbol call.method) :: attempts call)) ++
        (calling call ++ ((if canFail call then [.failLabel] else []) ++
          (releases call ++ ending stats call))) := by
    rw [statementsOf_eq]
    simp only [List.append_assoc, List.cons_append]
  rw [splitAt_bodyText_eq] at hl
  obtain ⟨x, hx, hlx⟩ := List.mem_flatMap.1 hl
  obtain ⟨s, hs, hxs⟩ := List.mem_flatMap.1 hx
  have hcalls : Calls "GetPrimitiveArrayCritical" x := hcalls.trans (infix_of_mem_splitAt hlx)
  rw [hparts] at hs
  rcases List.mem_append.1 hs with hs | hs
  · exact (hfront s hs x hxs).not_calls hfunctions hcalls
  rcases List.mem_append.1 hs with hs | hs
  · exact not_calls_of_mem_calling h hq s hs x hxs hcalls
  · exact (hback s hs x hxs).not_calls hfunctions hcalls

/-- Where there is something to unpin, a line pins. -/
theorem exists_calls_of_pinned (stats : String) {structs : List StructClass} {m : NativeMethod}
    {call : CallMapping} (h : MethodMapped structs m call) (hq : Quiet structs m)
    {x : Parameter × ValueMapping} (hx : x ∈ call.acquiring) (hp : x.2.pinned = true)
    (hr : x.2.release ≠ "") :
    ∃ l ∈ splitAt '\n' (bodyText stats call), Calls "GetPrimitiveArrayCritical" l := by
  have hhold := hold_of_mem_acquiring h hq x hx
  obtain ⟨⟨hin, -⟩, hline, -⟩ := hhold.pins hp hr
  have hnewline : "\n".toList ∈ jumpMark :: patterns := by decide
  have hcond : (!x.2.marshalIn.isEmpty && x.2.pinned == true) = true := by
    rw [not_isEmpty_iff.2 hin.ne_empty, hp]
    rfl
  have hacquired : .acquire x.1 x.2 ∈ acquisitions call true :=
    List.mem_map.2 ⟨x, List.mem_filter.2 ⟨hx, hcond⟩, rfl⟩
  have hstatement : .acquire x.1 x.2 ∈ statementsOf stats call := by
    rw [statementsOf_eq, attempts]
    simp [hacquired]
  have hlines : linesOf (.acquire x.1 x.2) = [(Line.indented 1 x.2.marshalIn).text] :=
    linesOf_of_line rfl
  have hmem : (Line.indented 1 x.2.marshalIn).text ∈ bodyLines stats call :=
    List.mem_flatMap.2 ⟨_, hstatement, hlines ▸ List.mem_singleton_self _⟩
  refine ⟨(Line.indented 1 x.2.marshalIn).text, ?_, (hin.indented 1).calls⟩
  rw [splitAt_bodyText_eq]
  refine List.mem_flatMap.2 ⟨_, hmem, ?_⟩
  rw [splitAt_of_not_mem (d := '\n') (Free.not_mem (free_indented hnewline hline 1))]
  exact List.mem_singleton_self _

/-! ## 6. Methods -/

/-- **While arrays are pinned, a native method does not call back into the virtual machine.** -/
theorem uninterrupted_of_callMapping {e : Mapper} (he : e.rules = standardRules)
    {structs : List StructClass} {m : NativeMethod} {call : CallMapping}
    (hcall : e.callMapping structs m = .ok call) (hq : Quiet structs m) (statsName : String)
    (hpin : ∃ l ∈ splitAt '\n' (bodyText (statsPrefix statsName) call),
      Calls "GetPrimitiveArrayCritical" l) :
    ∃ before region after, Uninterrupted (statsPrefix statsName) call before region after := by
  have h := methodMapped he hcall
  have hs := isPlain_statsPrefix statsName
  obtain ⟨l, hl, hcalls⟩ := hpin
  obtain ⟨still, x, more, back, rest, hshares⟩ :=
    exists_shares (hold_of_mem_acquiring h hq) (exists_pinned_of_calls h hq hs hl hcalls)
  exact ⟨_, _, _, uninterrupted_of_shares h hq hs hshares⟩

/-- The method that pins an array beside a struct and a text. -/
theorem uninterrupted_borrowingFiles :
    ∃ m n call before region after, Source.modelOf {} borrowingFiles = .ok m ∧ n ∈ m.natives ∧
      Mapper.callMapping ⟨"linux", 64, 8, standardRules⟩ m.structs n = .ok call ∧
      Uninterrupted (statsPrefix "stats") call before region after := by
  have hbuilt : ∃ m ∈ (Source.modelOf {} borrowingFiles).toOption, ∃ n ∈ m.natives,
      ∃ call ∈ (Mapper.callMapping ⟨"linux", 64, 8, standardRules⟩ m.structs n).toOption,
        (n.accessor = "fill" ∧ n.fragments = {} ∧ n.cast = none ∧ (∀ q ∈ n.parameters, q.cast = none) ∧
          ∀ s ∈ m.structs, s.nativeName = "Span" ∧ s.name = "Span") ∧
        ∃ x ∈ call.acquiring, x.2.pinned = true ∧ x.2.release ≠ "" := by
    decide +kernel
  obtain ⟨m, hm, n, hn, call, hcall, ⟨haccessor, hfragments, hcast, hcasts, hnames⟩, x, hx, hxp, hxr⟩ :=
    hbuilt
  have hcall := ok_of_toOption hcall
  have hguarded : Guarded runtime m.structs n := by
    refine ⟨?_, fun c hc => ?_, fun _ c hc => ?_, fun q hq k hk => ?_, fun q hq c hc => ?_,
      fun s hs => ?_⟩
    · rw [haccessor]
      decide
    · rw [hcast] at hc
      cases hc
    · rw [hcast] at hc
      cases hc
    · rw [hcasts q hq] at hk
      cases hk
    · rw [hcasts q hq] at hc
      cases hc
    · rw [(hnames s hs).1]
      decide
  have hquiet : Quiet m.structs n := by
    refine ⟨hguarded, ?_, fun s hs => ?_⟩
    · rw [hfragments]
      decide
    · rw [(hnames s hs).2]
      decide
  have hpin := exists_calls_of_pinned (statsPrefix "stats") (methodMapped rfl hcall) hquiet hx
    hxp hxr
  obtain ⟨before, region, after, h⟩ := uninterrupted_of_callMapping rfl hcall hquiet "stats" hpin
  exact ⟨m, n, call, before, region, after, ok_of_toOption hm, hn, hcall, h⟩

/-- A file with a method whose cast and function are a call of the virtual machine together. -/
def splicedFiles : List Source.OutlinedFile :=
  [ { path := ⟨.here, ["OS.java"]⟩
      outline :=
        { package := ""
          classes :=
            [ { name := "OS", line := 1, fields := []
                natives :=
                  [ ⟨"version", [⟨"data", "int[]", 3⟩], "int", ["native"], 3,
                      some ⟨"/** @method flags=critical,cast=(*env),accessor=->GetVersion */", 2⟩⟩ ] } ] } } ]

/-- The lines of its body. -/
def splicedLines : List String :=
  [ "\tjint *lparg0=NULL;", "\tjint rc = 0;", "\tNATIVES_NATIVE_ENTER(env, that, OS_version_FUNC);",
    "\tif (arg0) if ((lparg0 = (*env)->GetPrimitiveArrayCritical(env, arg0, NULL)) == NULL) goto fail;",
    "\trc = (jint)(*env)->GetVersion(lparg0);", "fail:",
    "\tif (arg0 && lparg0) (*env)->ReleasePrimitiveArrayCritical(env, arg0, lparg0, 0);",
    "\tNATIVES_NATIVE_EXIT(env, that, OS_version_FUNC);", "\treturn rc;" ]

/-- **It is not enough that no text from outside holds a call by itself**: of two that are written
side by side, one may hold its beginning and the other its end. -/
theorem interrupted_splicedFiles :
    ∃ m n call before pin inside unpin after,
      Source.modelOf {} splicedFiles = .ok m ∧ n ∈ m.natives ∧
      Mapper.callMapping ⟨"linux", 64, 8, standardRules⟩ m.structs n = .ok call ∧
      (Free runtime n.accessor.toList ∧ n.cast = some "(*env)" ∧ Free runtime "(*env)".toList ∧
        (∀ q ∈ n.parameters, q.cast = none) ∧ n.fragments = {} ∧ m.structs = []) ∧
      splitAt '\n' (bodyText (statsPrefix "natives") call) =
        before ++ pin :: (inside ++ unpin :: after) ∧
      Calls "GetPrimitiveArrayCritical" pin ∧ Calls "ReleasePrimitiveArrayCritical" unpin ∧
      ∃ l ∈ inside, Calls "GetVersion" l := by
  have hstem : statsPrefix "natives" = "NATIVES" := by decide +kernel
  have hbuilt : ∃ m ∈ (Source.modelOf {} splicedFiles).toOption, ∃ n ∈ m.natives,
      ∃ call ∈ (Mapper.callMapping ⟨"linux", 64, 8, standardRules⟩ m.structs n).toOption,
        (Free runtime n.accessor.toList ∧ n.cast = some "(*env)" ∧ Free runtime "(*env)".toList ∧
          (∀ q ∈ n.parameters, q.cast = none) ∧ n.fragments = {} ∧ m.structs = []) ∧
        bodyLines "NATIVES" call = splicedLines := by
    decide +kernel
  have hbreaks : ∀ l ∈ splicedLines, '\n' ∉ l.toList := by decide +kernel
  obtain ⟨m, hm, n, hn, call, hcall, htexts, hbody⟩ := hbuilt
  have hlines : splitAt '\n' (bodyText (statsPrefix "natives") call) = splicedLines := by
    rw [hstem, splitAt_bodyText (hbody ▸ hbreaks), hbody]
  refine ⟨m, n, call, splicedLines.take 3, _, (splicedLines.drop 4).take 2, _, splicedLines.drop 7,
    ok_of_toOption hm, hn, ok_of_toOption hcall, htexts, hlines, ?_⟩
  decide +kernel

end NativeGlue.Code
