import NativeGlue.Code.Counters
import NativeGlue.Proofs.Source.Spelling

/-!
# Conditionals around native functions

A function body holds no directive, if what it is written with from outside is inert (`grows_writeStatement`). In
the header and the source of a unit every function stands in a conditional of its own, and so does its entry in
the table; these and the files of the statistics are whole conditionals (`even_nativesHeader`,
`even_nativesSource`, `even_statsHeader`, `even_statsSource`).
-/

namespace NativeGlue.Code

open NativeGlue.Java NativeGlue.Mapping NativeGlue.Text

theorem reads_endif : Reads (some .closes) "#endif" := by decide

theorem reads_empty : Reads none "" := by decide

theorem reads_left : Reads none "\x7b" := by decide

theorem reads_right : Reads none "\x7d" := by decide

theorem reads_guard {name : String} (h : Inert name) : Reads (some .opens) s!"#ifndef NO_{name}" :=
  (Settled.append (by decide) h.unbroken).reads

/-! ## 1. Texts from outside -/

/-- What is said about a native method from outside: the native function and the casts are inert, and code that is
added holds no number signs. -/
structure InertMethod (n : NativeMethod) : Prop where
  accessor : Inert n.accessor
  cast : ∀ k, n.cast = some k → Inert k
  casts : ∀ p ∈ n.parameters, ∀ k, p.cast = some k → Inert k
  preCall : ∀ t, n.fragments.preCall = some t → '#' ∉ t.toList
  body : ∀ t, n.fragments.body = some t → '#' ∉ t.toList
  postCall : ∀ t, n.fragments.postCall = some t → '#' ∉ t.toList

instance (n : NativeMethod) : Decidable (InertMethod n) :=
  decidable_of_iff (Inert n.accessor ∧ (∀ k ∈ n.cast, Inert k) ∧ (∀ p ∈ n.parameters, ∀ k ∈ p.cast, Inert k) ∧
    ∀ code ∈ [n.fragments.preCall, n.fragments.body, n.fragments.postCall], ∀ t ∈ code, '#' ∉ t.toList)
    ⟨fun h => ⟨h.1, h.2.1, h.2.2.1, h.2.2.2 _ (by simp), h.2.2.2 _ (by simp), h.2.2.2 _ (by simp)⟩,
      fun h => ⟨h.1, h.2, h.3, by simpa using ⟨h.4, h.5, h.6⟩⟩⟩

/-- The texts of a call are inert. -/
structure InertCall (m : CallMapping) : Prop where
  method : InertMethod m.method
  parameters : ∀ t ∈ m.parameters, InertParameter t
  result : InertResult m.result

/-- **The texts of a call are inert** under the standard rules. -/
theorem inertCall_of_methodMapped {structs : List StructClass} {n : NativeMethod} {m : CallMapping}
    (h : MethodMapped structs n m) (hs : ∀ s ∈ structs, InertNames s) (hn : InertMethod n) : InertCall m := by
  refine ⟨h.method.symm ▸ hn, fun t ht => ?_, inert_of_resultMapped h.result hn.cast⟩
  obtain ⟨p, hp, r, c, hm⟩ := exists_of_mem_forall₂ h.parameters ht
  exact inert_of_mapped hm hs (hn.casts p hp)

/-! ## 2. Function bodies -/

section

variable {m : CallMapping} (h : InertCall m)

include h

/-- A list of texts of the parameters. -/
theorem inert_listed {f : ValueMapping → String} (hf : ∀ t, InertParameter t → Inert (f t)) :
    Inert (", ".intercalate (m.parameters.map f)) := by
  refine inert_intercalate (by decide) fun s hs => ?_
  obtain ⟨t, ht, rfl⟩ := List.mem_map.1 hs
  exact hf t (h.parameters t ht)

theorem inert_assignment {function : String} (hf : Inert function) : Inert (assignment m function) := by
  have hargs := inert_listed h (f := (·.callArg)) fun t ht => ht.callArg
  have hcall : Inert (function ++ "(" ++ ", ".intercalate (m.parameters.map (·.callArg)) ++ ")") := by
    simp +decide [inert_append, hf, hargs]
  unfold assignment
  dsimp only
  split
  · exact inert_append.2 ⟨hcall, by decide⟩
  · have hkept : ∀ k, Inert k → Inert ("rc = " ++ replace m.result.marshalOut value (k ++ (function ++ "(" ++
        ", ".intercalate (m.parameters.map (·.callArg)) ++ ")")) ++ ";") := by
      intro k hk
      have hreplaced := inert_replace h.result.marshalOut (inert_append.2 ⟨hk, hcall⟩) value
      exact inert_append.2 ⟨inert_append.2 ⟨by decide, hreplaced⟩, by decide⟩
    cases m.method.cast with
    | none => exact hkept "" (by decide)
    | some k =>
      dsimp only
      split
      · exact hkept "" (by decide)
      · refine hkept _ ?_
        simp +decide [inert_append, h.result.cType]

theorem inert_pointerAbi : Inert (pointerAbi m) := by
  have hparams : ∀ params, Inert params →
      Inert (m.result.cType ++ " (CALLING_CONVENTION*)(" ++ params ++ ")") := by
    intro params hp
    simp +decide [inert_append, h.result.cType, hp]
  show Inert (m.result.cType ++ " (CALLING_CONVENTION*)(" ++ (if
    (", ".intercalate (m.parameters.map (·.cType))).isEmpty then "void"
      else ", ".intercalate (m.parameters.map (·.cType))) ++ ")")
  split
  · exact hparams _ (by decide)
  · exact hparams _ (inert_listed h fun t ht => ht.cType)

theorem grows_writeCall (b : IndentedText) : Grows b (writeCall b m) := by
  unfold writeCall
  split
  · have hload : Inert s!"LOAD_FUNCTION(fp, {m.method.accessor})" := by
      simp +decide [inert_append, toString, h.method.accessor]
    have hpointer : Inert s!"(({pointerAbi m})fp)" := by
      simp +decide [inert_append, toString, inert_pointerAbi h]
    have hcall := inert_assignment h hpointer
    have hif : Reads none "if (fp) \x7b" := by decide
    refine .block reads_left ((Grows.line hload.reads).trans ?_) reads_right
    exact .block hif (.line hcall.reads) reads_right
  · exact .line (inert_assignment h h.method.accessor).reads

end

/-- The texts of a statement are inert. -/
def Statement.IsInert : Statement → Prop
  | .declare text => Inert text
  | .declareResult abiType => Inert abiType
  | .enter stats function => Inert stats ∧ Inert function
  | .acquire _ t => Inert t.marshalIn
  | .checkLength _ _ => True
  | .fragment text => ∀ t, text = some t → '#' ∉ t.toList
  | .call m => InertCall m
  | .failLabel => True
  | .release _ t => Inert t.release
  | .exit stats function => Inert stats ∧ Inert function
  | .giveBack => True

/-- **A statement is written in lines that are no directives.** -/
theorem grows_writeStatement {s : Statement} (h : s.IsInert) (b : IndentedText) :
    Grows b (writeStatement b s) := by
  unfold writeStatement
  cases s with
  | declare t => exact .line h.reads
  | declareResult a =>
    have hline : Inert s!"{a} rc = 0;" := inert_append.2 ⟨h, by decide⟩
    exact .line hline.reads
  | enter stats f =>
    have hline : Inert s!"{stats}_NATIVE_ENTER(env, that, {f}_FUNC);" := by
      simp +decide [inert_append, toString, h.1, h.2]
    exact .line hline.reads
  | acquire p t => exact .line h.reads
  | checkLength a c =>
    have hline : Inert
        s!"if ({a.arg} && (*env)->GetArrayLength(env, {a.arg}) < {c.arg}) goto fail;" := by
      simp +decide [inert_append, toString, inert_arg]
    exact .line hline.reads
  | fragment text =>
    dsimp only
    cases text with
    | none => exact .refl b
    | some t =>
      unfold IndentedText.fragment
      dsimp only
      split
      · exact .refl b
      · exact .addLines fun l hl => (inert_of_mem_fragmentLines (h t rfl) l hl).reads
  | call m => exact grows_writeCall h b
  | failLabel => exact .push (by decide)
  | release p t => exact .line h.reads
  | exit stats f =>
    have hline : Inert s!"{stats}_NATIVE_EXIT(env, that, {f}_FUNC);" := by
      simp +decide [inert_append, toString, h.1, h.2]
    exact .line hline.reads
  | giveBack => exact .line (by decide)

/-- What is acquired and given back are parameters. -/
theorem InertCall.of_mem_acquiring {m : CallMapping} (h : InertCall m) {x : Parameter × ValueMapping}
    (hx : x ∈ m.acquiring) : InertParameter x.2 := by
  have hmapped : x ∈ m.mapped := by
    rcases List.mem_append.1 hx with hx | hx
    · exact List.mem_of_mem_filter (List.mem_of_mem_filter hx)
    · exact List.mem_of_mem_filter (List.mem_of_mem_filter hx)
  exact h.parameters x.2 (List.of_mem_zip hmapped).2

/-- A body calls the native function, or holds code that is added instead. -/
theorem InertCall.isInert_callOrBody {m : CallMapping} (h : InertCall m) : (callOrBody m).IsInert := by
  unfold callOrBody
  split
  · exact h
  · rename_i b hb
    split
    · exact h
    · intro t ht
      exact h.method.body t (hb.trans ht)

/-- **The statements of a body are inert.** -/
theorem isInert_of_mem_statementsOf {stats : String} {m : CallMapping} (hstats : Inert stats) (h : InertCall m) :
    ∀ s ∈ statementsOf stats m, s.IsInert := by
  have hsymbol := inert_methodSymbol m.method
  have hacquired : ∀ pinned, ∀ s ∈ acquisitions m pinned, s.IsInert := by
    intro pinned s hs
    obtain ⟨x, hx, rfl⟩ := List.mem_map.1 hs
    exact (h.of_mem_acquiring (List.mem_of_mem_filter hx)).marshalIn
  intro s hs
  unfold statementsOf at hs
  simp only [List.mem_append] at hs
  rcases hs with (((((((((hs | hs) | hs) | hs) | hs) | hs) | hs) | hs) | hs) | hs) | hs
  · obtain ⟨t, ht, rfl⟩ := List.mem_map.1 hs
    exact (h.parameters t (List.mem_of_mem_filter ht)).localDecl
  · split at hs
    · rw [List.mem_singleton.1 hs]
      exact h.result.abiType
    · exact absurd hs List.not_mem_nil
  · rw [List.mem_singleton.1 hs]
    exact ⟨hstats, hsymbol⟩
  · exact hacquired false s hs
  · obtain ⟨x, -, rfl⟩ := List.mem_map.1 hs
    trivial
  · exact hacquired true s hs
  · simp only [List.mem_cons, List.not_mem_nil, or_false] at hs
    rcases hs with rfl | rfl | rfl
    · exact h.method.preCall
    · exact h.isInert_callOrBody
    · exact h.method.postCall
  · split at hs
    · rw [List.mem_singleton.1 hs]
      trivial
    · exact absurd hs List.not_mem_nil
  · obtain ⟨x, hx, rfl⟩ := List.mem_map.1 hs
    exact (h.of_mem_acquiring (List.mem_reverse.1 (List.mem_of_mem_filter hx))).release
  · rw [List.mem_singleton.1 hs]
    exact ⟨hstats, hsymbol⟩
  · split at hs
    · rw [List.mem_singleton.1 hs]
      trivial
    · exact absurd hs List.not_mem_nil

/-- The text of a function body. -/
theorem even_bodyText {stats : String} {m : CallMapping} (hstats : Inert stats) (h : InertCall m) :
    Even [bodyText stats m] :=
  (Grows.foldl (fun s hs b => grows_writeStatement (isInert_of_mem_statementsOf hstats h s hs) b) _).render

/-! ## 3. Functions -/

/-- The texts of a native function are on one line each and no directives, and its body holds whole
conditionals. -/
structure EvenFunction (f : NativeFunction) : Prop where
  guard : Inert f.guard
  symbol : Inert f.symbol
  name : Inert f.name
  descriptor : Unbroken f.descriptor
  head : Inert f.head
  parameters : Inert f.parameters
  body : Even [f.body]

theorem evenFunction_nativeFunction {stats : String} (package : String) {m : CallMapping}
    (hstats : Inert stats) (h : InertCall m) (hm : m.method.Spelled) :
    EvenFunction (nativeFunction stats package m) := by
  have hsymbol := inert_entryPoint m.method package
  refine ⟨inert_methodSymbol _, hsymbol, inert_of_word hm.name, hm.descriptor, ?_, ?_, ?_⟩
  · show Inert s!"JNIEXPORT {m.result.abiType} JNICALL {entryPoint m.method package}"
    simp +decide [inert_append, toString, h.result.abiType, hsymbol]
  · have hlist : Inert (", ".intercalate (["JNIEnv *env", "jclass that"]
        ++ m.mapped.map fun x => s!"{x.2.abiType} {x.1.arg}")) := by
      refine inert_intercalate (by decide) fun s hs => ?_
      rcases List.mem_append.1 hs with hs | hs
      · have hfixed : ∀ s ∈ ["JNIEnv *env", "jclass that"], Inert s := by decide
        exact hfixed s hs
      · obtain ⟨x, hx, rfl⟩ := List.mem_map.1 hs
        have hinert := h.parameters x.2 (List.of_mem_zip hx).2
        simp +decide [inert_append, toString, hinert.abiType, inert_arg]
    exact inert_append.2 ⟨inert_append.2 ⟨by decide, hlist⟩, by decide⟩
  · dsimp only [nativeFunction]
    exact even_bodyText hstats h

section

variable {f : NativeFunction} (h : EvenFunction f)

include h

/-- The declaration of a function stands in a conditional of its own. -/
theorem EvenFunction.declaration :
    Even [s!"#ifndef NO_{f.guard}", f.head, f.parameters ++ ";", "#endif"] := by
  have hparameters : Reads none (f.parameters ++ ";") := (inert_append.2 ⟨h.parameters, by decide⟩).reads
  have hall := Even.enclosed (reads_guard h.guard) (.append (.line h.head.reads) (.line hparameters)) reads_endif
  exact hall

/-- The definition of a function stands in a conditional of its own. -/
theorem EvenFunction.definition :
    Even ["", s!"#ifndef NO_{f.guard}", f.head, f.parameters, "\x7b", f.body, "\x7d", "#endif"] := by
  have hinner : Even ([f.head] ++ [f.parameters] ++ ["\x7b"] ++ [f.body] ++ ["\x7d"]) :=
    ((((Even.line h.head.reads).append (.line h.parameters.reads)).append (.line reads_left)).append h.body).append
      (.line reads_right)
  have hall := (Even.line reads_empty).append (.enclosed (reads_guard h.guard) hinner reads_endif)
  exact hall

/-- The entry of a function in the table stands in a conditional of its own. -/
theorem EvenFunction.entry : Even [s!"#ifndef NO_{f.guard}",
    s!"\t\x7b\"{f.name}\", \"{f.descriptor}\", (void *){f.symbol}\x7d,", "#endif"] := by
  have hbegin : Settled none "\t\x7b\"" := by decide
  have hrest : Unbroken "\", \"" ∧ Unbroken "\", (void *)" ∧ Unbroken "\x7d," := by decide
  have hentry := (((((hbegin.append h.name.unbroken).append hrest.1).append h.descriptor).append
    hrest.2.1).append h.symbol.unbroken).append hrest.2.2
  have hall := Even.enclosed (reads_guard h.guard) (.line hentry.reads) reads_endif
  exact hall

end

/-! ## 4. Files -/

/-- A header stands in a conditional of its own. -/
theorem even_guarded {guard : String} (hg : Inert guard) {ls : List String} (h : Even ls) :
    Even ([banner, s!"#ifndef {guard}", s!"#define {guard}"] ++ ls ++ [s!"#endif /* {guard} */"]) := by
  have hbanner : Reads none banner := by decide
  have hopens : Reads (some .opens) s!"#ifndef {guard}" := (Settled.append (by decide) hg.unbroken).reads
  have hdefine : Reads none s!"#define {guard}" := (Settled.append (by decide) hg.unbroken).reads
  have hcloses : Reads (some .closes) s!"#endif /* {guard} */" :=
    ((Settled.append (by decide) hg.unbroken).append (by decide)).reads
  have hall := (Even.line hbanner).append (.enclosed hopens ((Even.line hdefine).append h) hcloses)
  exact hall

/-- The place for a header of one's own. -/
theorem even_custom {custom : String} (h : Inert custom) :
    Even [s!"#ifdef {custom}", s!"#include {custom}", "#endif"] := by
  have hopens : Reads (some .opens) s!"#ifdef {custom}" := (Settled.append (by decide) h.unbroken).reads
  have hinclude : Reads none s!"#include {custom}" := (Settled.append (by decide) h.unbroken).reads
  have hall := Even.enclosed hopens (.line hinclude) reads_endif
  exact hall

/-- What can be set before a header is included. -/
theorem even_defaults : Even ["", "#ifndef CALLING_CONVENTION", "#define CALLING_CONVENTION", "#endif", "",
    "#ifndef LOAD_FUNCTION", "#include <dlfcn.h>", "#define LOAD_FUNCTION(var, name) \\",
    "\tstatic int initialized = 0; \\", "\tstatic void *var = NULL; \\",
    "\tif (!initialized) \x7b \\", "\t\tvar = dlsym(RTLD_DEFAULT, #name); \\",
    "\t\tinitialized = 1; \\", "\t\x7d", "#endif", ""] := by
  have hload : Even ["#include <dlfcn.h>", "#define LOAD_FUNCTION(var, name) \\",
      "\tstatic int initialized = 0; \\", "\tstatic void *var = NULL; \\",
      "\tif (!initialized) \x7b \\", "\t\tvar = dlsym(RTLD_DEFAULT, #name); \\",
      "\t\tinitialized = 1; \\", "\t\x7d"] := even_of_forall (by decide)
  have hconvention : Reads (some .opens) "#ifndef CALLING_CONVENTION" ∧
      Reads none "#define CALLING_CONVENTION" := by decide
  have hopens : Reads (some .opens) "#ifndef LOAD_FUNCTION" := by decide
  have hall := (((Even.line reads_empty).append (.enclosed hconvention.1 (.line hconvention.2) reads_endif)).append
    (.line reads_empty)).append ((Even.enclosed hopens hload reads_endif).append (.line reads_empty))
  exact hall

/-- **The header of a unit holds whole conditionals.** -/
theorem even_nativesHeader {u : ClassUnit} (hu : IsWord u.className) {fs : List NativeFunction}
    (h : ∀ f ∈ fs, EvenFunction f) : Even (nativesHeader u fs) := by
  have hclass := inert_of_word hu
  have hguard : Inert s!"INC_{upper (fileStem u.className)}_H" := by
    simp +decide [inert_append, toString, inert_upper (inert_lower hclass), fileStem]
  have hcustom : Inert (upper u.className ++ "_CUSTOM_HEADER") :=
    inert_append.2 ⟨inert_upper hclass, by decide⟩
  have hincludes : Even ["", "#include <jni.h>", "#include <stdint.h>"] := even_of_forall (by decide)
  have hregister : Inert s!"jint {u.className}_register(JNIEnv *env);" := by
    simp +decide [inert_append, toString, hclass]
  have hend : Even ["", s!"jint {u.className}_register(JNIEnv *env);", ""] :=
    even_of_forall (by simp [reads_empty, hregister.reads])
  have hinner := (((hincludes.append (even_custom hcustom)).append even_defaults).append
    (even_flatMap fun f hf => (h f hf).declaration)).append hend
  have hall := even_guarded hguard hinner
  unfold nativesHeader
  simpa only [List.append_assoc, List.cons_append, List.nil_append] using hall

/-- The end of the source of a unit: the table is closed, and its entries are registered. -/
theorem even_registration {u : ClassUnit} (hu : u.Spelled) :
    let table := u.className ++ "_methods"
    let classPath := replace u.fullName "." "/"
    Even ["\t\x7bNULL, NULL, NULL\x7d", "\x7d;", "", s!"jint {u.className}_register(JNIEnv *env)", "\x7b",
      s!"\tjint count = (jint)(sizeof({table}) / sizeof({table}[0])) - 1;",
      s!"\tjclass clazz = (*env)->FindClass(env, \"{classPath}\");",
      "\tif (clazz == NULL) return JNI_ERR;", "\tif (count == 0) return JNI_OK;",
      s!"\treturn (*env)->RegisterNatives(env, clazz, {table}, count);", "\x7d"] := by
  intro table classPath
  have hclass := inert_of_word hu.className
  have htable : Inert table := inert_append.2 ⟨hclass, by decide⟩
  have hregister : Inert s!"jint {u.className}_register(JNIEnv *env)" := by
    simp +decide [inert_append, toString, hclass]
  have hcount : Inert s!"\tjint count = (jint)(sizeof({table}) / sizeof({table}[0])) - 1;" := by
    simp +decide [inert_append, toString, htable]
  have hfind : Settled none s!"\tjclass clazz = (*env)->FindClass(env, \"{classPath}\");" :=
    (Settled.append (by decide) (unbroken_replace hu.fullName (by decide) ".")).append (by decide)
  have hreturn : Inert s!"\treturn (*env)->RegisterNatives(env, clazz, {table}, count);" := by
    simp +decide [inert_append, toString, htable]
  have hfixed : ∀ l ∈ ["\t\x7bNULL, NULL, NULL\x7d", "\x7d;", "", "\x7b",
    "\tif (clazz == NULL) return JNI_ERR;", "\tif (count == 0) return JNI_OK;", "\x7d"], Reads none l := by decide
  simp only [List.forall_mem_cons] at hfixed
  refine even_of_forall ?_
  simp only [List.forall_mem_cons, hfixed, hregister.reads, hcount.reads, hfind.reads, hreturn.reads, true_and]
  exact List.forall_mem_nil _

/-- **The source of a unit holds whole conditionals.** -/
theorem even_nativesSource {u : ClassUnit} (hu : u.Spelled) {statsName : String} (hstats : Inert statsName)
    {headers : List String} (hheaders : ∀ h ∈ headers, Inert h) {fs : List NativeFunction}
    (h : ∀ f ∈ fs, EvenFunction f) : Even (nativesSource u statsName headers fs) := by
  have hclass := inert_of_word hu.className
  have included : ∀ x, Inert x → Reads none s!"#include \"{x}\"" := fun x hx =>
    ((Settled.append (by decide) hx.unbroken).append (by decide)).reads
  have hunit : Reads none s!"#include \"{fileStem u.className}.h\"" :=
    ((Settled.append (by decide) (inert_lower hclass).unbroken).append (by decide)).reads
  have hcounted : Reads none s!"#include \"{statsName}_stats.h\"" :=
    ((Settled.append (by decide) hstats.unbroken).append (by decide)).reads
  have hbanner : Reads none banner := by decide
  have hopen : ∀ table, Inert table → Inert s!"static JNINativeMethod {table}[] = \x7b" := fun table ht => by
    simp +decide [inert_append, toString, ht]
  have htable : Inert (u.className ++ "_methods") := inert_append.2 ⟨hclass, by decide⟩
  have htop : Even ([banner] ++ [s!"#include \"{fileStem u.className}.h\""]
      ++ [s!"#include \"{statsName}_stats.h\""] ++ headers.map (fun h => s!"#include \"{h}\"")) := by
    refine (((Even.line hbanner).append (.line hunit)).append (.line hcounted)).append (even_of_forall ?_)
    intro l hl
    obtain ⟨x, hx, rfl⟩ := List.mem_map.1 hl
    exact included x (hheaders x hx)
  have hall := (((htop.append (even_flatMap fun f hf => (h f hf).definition)).append
    ((Even.line reads_empty).append (.line (hopen _ htable).reads))).append
      (even_flatMap fun f hf => (h f hf).entry)).append (even_registration hu)
  unfold nativesSource
  simpa only [List.append_assoc, List.cons_append, List.nil_append] using hall

/-! ## 5. Statistics -/

/-- The lines in which the header counts calls, or does not. -/
theorem even_counting {pre : String} (hp : Inert pre) : Even ["#ifdef NATIVE_STATS",
    s!"extern int {pre}_nativeFunctionCount;", s!"extern int {pre}_nativeFunctionCallCount[];",
    s!"extern char *{pre}_nativeFunctionNames[];",
    s!"#define {pre}_NATIVE_ENTER(env, that, func) {pre}_nativeFunctionCallCount[func]++;",
    s!"#define {pre}_NATIVE_EXIT(env, that, func)", "#else",
    s!"#ifndef {pre}_NATIVE_ENTER", s!"#define {pre}_NATIVE_ENTER(env, that, func)", "#endif",
    s!"#ifndef {pre}_NATIVE_EXIT", s!"#define {pre}_NATIVE_EXIT(env, that, func)", "#endif", "#endif"] := by
  have hu := hp.unbroken
  have hfixed : Reads (some .opens) "#ifdef NATIVE_STATS" ∧ Reads (some .alternates) "#else" := by decide
  have counted : ∀ l ∈ [s!"extern int {pre}_nativeFunctionCount;",
      s!"extern int {pre}_nativeFunctionCallCount[];", s!"extern char *{pre}_nativeFunctionNames[];"],
      Reads none l := by
    have hinert : ∀ a b : String, Inert a ∧ Inert b → Reads none (a ++ pre ++ b) := fun a b hab =>
      (inert_append.2 ⟨inert_append.2 ⟨hab.1, hp⟩, hab.2⟩).reads
    simp only [List.forall_mem_cons]
    exact ⟨hinert _ _ (by decide), hinert _ _ (by decide), hinert _ _ (by decide), List.forall_mem_nil _⟩
  have hdefine : Settled none "#define " := by decide
  have henter : Reads none
      s!"#define {pre}_NATIVE_ENTER(env, that, func) {pre}_nativeFunctionCallCount[func]++;" :=
    ((((hdefine.append hu).append (by decide)).append hu).append (by decide)).reads
  have hnoEnter : Reads none s!"#define {pre}_NATIVE_ENTER(env, that, func)" :=
    ((hdefine.append hu).append (by decide)).reads
  have hexit : Reads none s!"#define {pre}_NATIVE_EXIT(env, that, func)" :=
    ((hdefine.append hu).append (by decide)).reads
  have hifndef : Settled (some .opens) "#ifndef " := by decide
  have hopensEnter : Reads (some .opens) s!"#ifndef {pre}_NATIVE_ENTER" :=
    ((hifndef.append hu).append (by decide)).reads
  have hopensExit : Reads (some .opens) s!"#ifndef {pre}_NATIVE_EXIT" :=
    ((hifndef.append hu).append (by decide)).reads
  have hall := Even.alternatives hfixed.1
    (((even_of_forall counted).append (.line henter)).append (.line hexit)) hfixed.2
    ((Even.enclosed hopensEnter (.line hnoEnter) reads_endif).append
      (.enclosed hopensExit (.line hexit) reads_endif)) reads_endif
  exact hall

/-- **The header of the statistics holds whole conditionals.** -/
theorem even_statsHeader {pre : String} (hp : Inert pre) (count : Int) {entries : List StatsEntry}
    (h : ∀ e ∈ entries, Inert e.symbol) : Even (statsHeader pre count entries) := by
  have hguard : Inert s!"INC_{pre}_STATS_H" := by
    simp +decide [inert_append, toString, hp]
  have hincludes : Even ["", "#include <jni.h>", ""] := even_of_forall (by decide)
  have hopen : Even ["", "typedef enum \x7b"] := even_of_forall (by decide)
  have hentries : Even (entries.map fun e => s!"\t{e.symbol}_FUNC = {e.index},") := by
    refine even_of_forall fun l hl => ?_
    obtain ⟨e, he, rfl⟩ := List.mem_map.1 hl
    have hsymbol := h e he
    have hline : Inert s!"\t{e.symbol}_FUNC = {e.index}," := by
      simp +decide [inert_append, toString, hsymbol, inert_int]
    exact hline.reads
  have hcount : Inert s!"\t{pre}_FUNC_COUNT = {count}" := by
    simp +decide [inert_append, toString, hp, inert_int]
  have hclose : Inert s!"\x7d {pre}_FUNCS;" := by
    simp +decide [inert_append, toString, hp]
  have hend := ((Even.line hcount.reads).append (.line hclose.reads)).append (.line reads_empty)
  have hall := even_guarded hguard
    ((((hincludes.append (even_counting hp)).append hopen).append hentries).append hend)
  unfold statsHeader
  simpa only [List.append_assoc, List.cons_append, List.nil_append] using hall

/-- **The source of the statistics holds whole conditionals.** -/
theorem even_statsSource {statsName pre : String} (hs : Inert statsName) (hp : Inert pre) (count : Int)
    {entries : List StatsEntry} (h : ∀ e ∈ entries, Inert e.symbol) :
    Even (statsSource statsName pre count entries) := by
  have hinclude : Reads none s!"#include \"{statsName}_stats.h\"" :=
    ((Settled.append (by decide) hs.unbroken).append (by decide)).reads
  have hbanner : Reads none banner := by decide
  have hopens : Reads (some .opens) "#ifdef NATIVE_STATS" := by decide
  have hcount : Inert s!"int {pre}_nativeFunctionCount = {count};" := by
    simp +decide [inert_append, toString, hp, inert_int]
  have hcalls : Inert s!"int {pre}_nativeFunctionCallCount[{max count 1}];" := by
    simp +decide [inert_append, toString, hp, inert_int]
  have hnames : Inert s!"char *{pre}_nativeFunctionNames[{max count 1}] = \x7b" := by
    simp +decide [inert_append, toString, hp, inert_int]
  have hentries : Even (entries.map fun e => s!"\t[{e.index}] = \"{e.symbol}\",") := by
    refine even_of_forall fun l hl => ?_
    obtain ⟨e, he, rfl⟩ := List.mem_map.1 hl
    have hsymbol := h e he
    have hline : Inert s!"\t[{e.index}] = \"{e.symbol}\"," := by
      simp +decide [inert_append, toString, hsymbol, inert_int]
    exact hline.reads
  have hend : Even ["\x7d;", ""] := even_of_forall (by decide)
  have hinner := (((((Even.line reads_empty).append (.line hcount.reads)).append (.line hcalls.reads)).append
    (.line hnames.reads)).append hentries).append hend
  have hall := (((Even.line hbanner).append (.line hinclude)).append (.line reads_empty)).append
    (.enclosed hopens hinner reads_endif)
  unfold statsSource
  simpa only [List.append_assoc, List.cons_append, List.nil_append] using hall

end NativeGlue.Code
