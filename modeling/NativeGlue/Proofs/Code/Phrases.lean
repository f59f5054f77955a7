import NativeGlue.Proofs.Code.Names
import NativeGlue.Proofs.Code.Wording

/-!
# What stands around a call

The lines that declare, count, acquire and give back are written by the rules, but for the names in
them. They end where they seem to, and only those that acquire or check hold a jump.
-/

namespace NativeGlue.Code

open NativeGlue.Mapping NativeGlue.Text

/-! ## 1. Declarations -/

/-- The declaration of a struct and of the pointer to it. -/
theorem free_structDecl {p : List Char} (hp : p ∈ patterns) {native : String}
    (hn : Free p native.toList) (q : Parameter) :
    Free p (native ++ " _" ++ q.arg ++ ", *" ++ localOf q ++ "=NULL;").toList := by
  have hclosed : ∀ p ∈ patterns, Seal p " _" ∧ Free p ", *".toList ∧ Free p "=NULL;".toList := by decide
  obtain ⟨hname, hstar, hnull⟩ := hclosed p hp
  have hp' : p ∈ jumpMark :: patterns := List.mem_cons_of_mem _ hp
  exact (((((hn.seal hname).append (seal_arg hp' q).ended).then hstar).seal (seal_localOf hp' q)).then
    hnull)

/-- The name of a struct's C type is that of a struct class. -/
theorem free_structNative {p : List Char} (hp : p ∈ patterns) {structs : List StructClass}
    (hn : ∀ s ∈ structs, Free p s.nativeName.toList) {native : String}
    (h : native = "" ∨ ∃ s ∈ structs, s.nativeName = native) : Free p native.toList := by
  have hempty : ∀ p ∈ patterns, Free p "".toList := by decide
  rcases h with rfl | ⟨s, hs, rfl⟩
  · exact hempty p hp
  · exact hn s hs

theorem free_localDecl {p : List Char} (hp : p ∈ patterns) {structs : List StructClass}
    (hn : ∀ s ∈ structs, Free p s.nativeName.toList) {q : Parameter} {t : ValueMapping}
    (h : Crossing structs q t) : Free p t.localDecl.toList := by
  have hclosed : ∀ p ∈ patterns, Free p "".toList ∧ Free p "=NULL;".toList ∧
      (∀ q ∈ primitiveTypes, Free p ("j" ++ q.name ++ " *").toList) ∧ Free p "const char *".toList := by
    decide
  obtain ⟨hempty, hnull, hprimitive, htext⟩ := hclosed p hp
  have hp' : p ∈ jumpMark :: patterns := List.mem_cons_of_mem _ hp
  have declared : ∀ x : String, Free p x.toList → Free p (x ++ localOf q ++ "=NULL;").toList :=
    fun x hx => (hx.seal (seal_localOf hp' q)).then hnull
  cases h with
  | value hdecl =>
    rw [hdecl]
    exact hempty
  | copied r hr _ hdecl =>
    rw [hdecl]
    exact declared _ (hprimitive r hr)
  | pinned r hr _ hdecl =>
    rw [hdecl]
    exact declared _ (hprimitive r hr)
  | text _ hdecl =>
    rw [hdecl]
    exact declared _ htext
  | struct name native _ hnative _ hdecl =>
    rw [hdecl]
    exact free_structDecl hp (free_structNative hp hn hnative) q

/-- The declaration of a result. -/
theorem free_declareResult {p : List Char} (hp : p ∈ patterns) {m : NativeMethod} {t : ValueMapping}
    (h : ResultMapped m t) : Free p (t.abiType ++ " rc = 0;").toList := by
  have hclosed : ∀ p ∈ patterns, ∀ a ∈ "jstring" :: ownTypes, Free p (a ++ " rc = 0;").toList := by
    decide +kernel
  refine hclosed p hp _ ?_
  rcases h.abiType with ha | ha
  · rw [ha]
    exact List.mem_cons_self
  · exact List.mem_cons_of_mem _ ha

/-! ## 2. Lines with plain names -/

/-- What a line with plain names is looked through for. -/
def marks : List (List Char) := ["\n".toList, jumpMark, "(*env)->".toList]

theorem mem_of_mem_marks {p : List Char} (hp : p ∈ marks) : p ∈ jumpMark :: patterns := by
  have hclosed : ∀ p ∈ marks, p ∈ jumpMark :: patterns := by decide
  exact hclosed p hp

section

variable {p : List Char} (hp : p ∈ marks)

include hp

theorem IsPlain.free {s : String} (h : IsPlain s) : Free p s.toList := by
  have hclosed : ∀ p ∈ marks, ∃ c ∈ p, c ∈ separators := by decide
  obtain ⟨c, hcp, hc⟩ := hclosed p hp
  exact Free.of_not_mem hcp fun hs => h c hs hc

/-- The lines that count a call and its end. -/
theorem free_counted {stats function : String} (hs : IsPlain stats) (hf : IsPlain function) :
    Free p (stats ++ "_NATIVE_ENTER(env, that, " ++ function ++ "_FUNC);").toList ∧
      Free p (stats ++ "_NATIVE_EXIT(env, that, " ++ function ++ "_FUNC);").toList := by
  have hclosed : ∀ p ∈ marks, Seal p "_NATIVE_ENTER(env, that, " ∧ Seal p "_NATIVE_EXIT(env, that, " ∧
      Seal p "_FUNC);" := by decide
  obtain ⟨henter, hexit, hend⟩ := hclosed p hp
  have counted : ∀ x : String, Seal p x → Free p (stats ++ x ++ function ++ "_FUNC);").toList :=
    fun x hx => (((hs.free hp).seal hx).then (hf.free hp) |>.seal hend).free
  exact ⟨counted _ henter, counted _ hexit⟩

/-- The condition under which something is given back. -/
theorem ended_given (q : Parameter) : Ended p ("if (" ++ q.arg ++ " && " ++ localOf q ++ ") ") := by
  have hclosed : ∀ p ∈ marks, Free p "if (".toList ∧ Free p " && ".toList ∧ Ended p ") " := by decide
  obtain ⟨hif, hand, hthen⟩ := hclosed p hp
  have hp' := mem_of_mem_marks hp
  exact (((hif.seal (seal_arg hp' q)).then hand).seal (seal_localOf hp' q)).append hthen

/-- A line that gives back holds what its action holds. -/
theorem free_given {q : Parameter} {action : String} (ha : Free p action.toList) :
    Free p (given q action).toList := by
  have hclosed : ∀ p ∈ marks, Free p ";".toList ∧ Opens p ";" := by decide
  obtain ⟨hend, hopens⟩ := hclosed p hp
  exact ((ended_given hp q).then ha).append hend (.inr hopens)

/-- A call that gives back holds what its function holds. -/
theorem free_giveCall {q : Parameter} {f more : String} (hf : Free p f.toList)
    (hm : Free p more.toList) : Free p (giveCall f q more).toList := by
  have hclosed : ∀ p ∈ marks, Seal p "(env, " ∧ Free p ", ".toList ∧ Free p ")".toList ∧ Opens p ")" := by
    decide
  obtain ⟨hopen, hcomma, hend, hopens⟩ := hclosed p hp
  have hp' := mem_of_mem_marks hp
  have hlocal := (((hf.seal hopen).append (seal_arg hp' q).ended).then hcomma).seal (seal_localOf hp' q)
  exact (hlocal.then hm).append hend (.inr hopens)

/-- The condition under which something is acquired, and where it goes. -/
theorem ended_taken (q : Parameter) : Ended p ("if (" ++ q.arg ++ ") if ((" ++ localOf q ++ " = ") := by
  have hclosed : ∀ p ∈ marks, Free p "if (".toList ∧ Free p ") if ((".toList ∧ Ended p " = " := by decide
  obtain ⟨hif, hthen, hequal⟩ := hclosed p hp
  have hp' := mem_of_mem_marks hp
  exact (((hif.seal (seal_arg hp' q)).then hthen).seal (seal_localOf hp' q)).append hequal

/-- A line that acquires holds a jump and what its source holds. -/
theorem free_taken (hj : p ≠ jumpMark) {q : Parameter} {source : String} (hs : Free p source.toList) :
    Free p (taken q source).toList := by
  have hclosed : ∀ p ∈ marks, p ≠ jumpMark → Free p ") == NULL) goto fail;".toList ∧
      Opens p ") == NULL) goto fail;" := by decide
  obtain ⟨hend, hopens⟩ := hclosed p hp hj
  exact ((ended_taken hp q).then hs).append hend (.inr hopens)

end

/-! ## 3. Acquiring and giving back -/

section

variable {structs : List StructClass} {q : Parameter} {t : ValueMapping} {p : List Char}

/-- A struct is acquired without a call of the virtual machine. -/
theorem free_structIn (hp : p ∈ marks) (hj : p ≠ jumpMark) {name : String}
    (hname : Free p name.toList) :
    Free p (taken q ("get" ++ name ++ "Fields(env, " ++ q.arg ++ ", &_" ++ q.arg ++ ")")).toList ∧
      Free p (taken q ("&_" ++ q.arg)).toList := by
  have hclosed : ∀ p ∈ marks, Ended p "get" ∧ Seal p "Fields(env, " ∧ Free p ", &_".toList ∧
      Free p ")".toList ∧ Opens p ")" ∧ Free p "&_".toList := by decide
  obtain ⟨hget, hfields, hfield, hend, hopens, hplace⟩ := hclosed p hp
  have harg := seal_arg (mem_of_mem_marks hp) q
  have hcall := ((hget.then hname).seal hfields).append harg.ended
  exact ⟨free_taken hp hj (((hcall.then hfield).seal harg).free.append hend (.inr hopens)),
    free_taken hp hj (hplace.seal harg).free⟩

/-- A struct is given back without a call of the virtual machine. -/
theorem free_structOut (hp : p ∈ marks) {name : String} (hname : Free p name.toList) :
    Free p (given q (giveCall ("set" ++ name ++ "Fields") q "")).toList := by
  have hclosed : ∀ p ∈ marks, Ended p "set" ∧ Seal p "Fields" ∧ Free p "".toList := by decide
  obtain ⟨hset, hfields, hempty⟩ := hclosed p hp
  exact free_given hp (free_giveCall hp ((hset.then hname).seal hfields).free hempty)

/-- The name of a struct is that of a struct class. -/
theorem free_structName (hp : p ∈ marks) (hn : ∀ s ∈ structs, Free p s.name.toList) {name : String}
    (h : name = "" ∨ ∃ s ∈ structs, s.name = name) : Free p name.toList := by
  have hempty : ∀ p ∈ marks, Free p "".toList := by decide
  rcases h with rfl | ⟨s, hs, rfl⟩
  · exact hempty p hp
  · exact hn s hs

/-- A line that acquires is one line. -/
theorem free_marshalIn (hn : ∀ s ∈ structs, Free "\n".toList s.name.toList)
    (h : Crossing structs q t) : Free "\n".toList t.marshalIn.toList := by
  have hp : "\n".toList ∈ marks := by decide
  have hj : "\n".toList ≠ jumpMark := by decide
  have hclosed : (∀ q ∈ primitiveTypes,
      Free "\n".toList ("(*env)->" ++ ("Get" ++ q.accessor ++ "ArrayElements") ++ "(env, ").toList) ∧
      Free "\n".toList ("(*env)->" ++ "GetPrimitiveArrayCritical" ++ "(env, ").toList ∧
      Free "\n".toList ("(*env)->" ++ "GetStringUTFChars" ++ "(env, ").toList ∧
      Free "\n".toList ", NULL)".toList ∧ Free "\n".toList "".toList := by decide
  obtain ⟨hcopied, hpinned, htext, hend, hempty⟩ := hclosed
  have got : ∀ f : String, Free "\n".toList ("(*env)->" ++ f ++ "(env, ").toList →
      Free "\n".toList (taken q (getCall f q)).toList := fun f hf =>
    free_taken hp hj ((hf.seal (seal_arg (mem_of_mem_marks hp) q)).then hend)
  cases h with
  | value _ hin =>
    rw [hin]
    exact hempty
  | copied r hr _ _ hin =>
    rw [hin]
    exact got _ (hcopied r hr)
  | pinned r hr _ _ hin =>
    rw [hin]
    exact got _ hpinned
  | text _ _ hin =>
    rw [hin]
    exact got _ htext
  | struct name native hname _ _ _ hin =>
    have hstruct := @free_structIn q _ hp hj name (free_structName hp hn hname)
    rcases hin with hin | hin
    · rw [hin]
      exact hstruct.1
    · rw [hin]
      exact hstruct.2

/-- A line that gives back is one line and holds no jump. -/
theorem free_release (hp : p ∈ ["\n".toList, jumpMark]) (hn : ∀ s ∈ structs, Free p s.name.toList)
    (h : Crossing structs q t) : Free p t.release.toList := by
  have hclosed : ∀ p ∈ ["\n".toList, jumpMark], p ∈ marks ∧ (∀ q ∈ primitiveTypes,
      Free p ("(*env)->Release" ++ q.accessor ++ "ArrayElements").toList) ∧
      Free p "(*env)->ReleasePrimitiveArrayCritical".toList ∧
      Free p "(*env)->ReleaseStringUTFChars".toList ∧ (∀ m ∈ ["JNI_ABORT", "0"],
      Free p (", " ++ m).toList) ∧ Free p "".toList := by decide
  obtain ⟨hm, hcopied, hpinned, htext, hmodes, hempty⟩ := hclosed p hp
  have hmode : Free p (", " ++ modeOf q).toList := by
    unfold modeOf
    split
    · exact hmodes _ (by decide)
    · exact hmodes _ (by decide)
  cases h with
  | value _ _ hout =>
    rw [hout]
    exact hempty
  | copied r hr _ _ _ hout =>
    rw [hout]
    exact free_given hm (free_giveCall hm (hcopied r hr) hmode)
  | pinned r hr _ _ _ hout =>
    rw [hout]
    exact free_given hm (free_giveCall hm hpinned hmode)
  | text _ _ _ hout =>
    rw [hout]
    exact free_given hm (free_giveCall hm htext hempty)
  | struct name native hname _ _ _ _ hout =>
    rcases hout with hout | hout
    · rw [hout]
      exact free_structOut hm (free_structName hm hn hname)
    · rw [hout]
      exact hempty

end

end NativeGlue.Code
