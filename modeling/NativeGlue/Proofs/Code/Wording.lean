import NativeGlue.Proofs.Code.Lines
import NativeGlue.Proofs.Mapping.StandardRules

/-!
# What a call is written with

The texts of a call come from the rules and from outside: the function, the casts, the names of C
types. If what comes from outside holds none of certain patterns, by itself or together with the
parentheses written around it (`Guarded`), then the lines of the call hold none
(`free_of_mem_linesOf_call`).
-/

namespace NativeGlue.Code

open NativeGlue.Mapping NativeGlue.Text

/-! ## 1. What comes from outside -/

/-- The patterns: the end of a line, a jump, a call of the virtual machine, and one that pins. -/
def patterns : List (List Char) :=
  ["\n".toList, "goto".toList, "(*env)->".toList, "(*env)->GetPrimitive".toList]

/-- What stands in every jump to the label, and in little else. -/
def jumpMark : List Char := "o ".toList

/-- The texts that come from outside hold a pattern neither by themselves nor together with the
parentheses in front of them or around a cast of the result. -/
structure Guarded (p : List Char) (structs : List StructClass) (m : NativeMethod) : Prop where
  accessor : Free p m.accessor.toList
  result : ∀ c, castType? m.cast = some c → Free p ("(" ++ c ++ ")").toList
  direct : m.flags.dynamic = false → ∀ c, castType? m.cast = some c →
    Free p ("(" ++ c ++ ")" ++ m.accessor).toList
  casts : ∀ q ∈ m.parameters, ∀ k, q.cast = some k → Free p ("(" ++ k).toList
  types : ∀ q ∈ m.parameters, ∀ c, castType? q.cast = some c → Free p ("(" ++ c).toList
  natives : ∀ s ∈ structs, Free p ("(" ++ s.nativeName).toList

/-- The type in a cast is a part of it. -/
theorem infix_bareCast (k : String) : (bareCast k).toList <:+: k.toList := by
  have htrim : ∀ s : List Char, trimOf isBlank s <:+: s := isInfix_trimOf isBlank
  unfold bareCast
  dsimp only
  split
  · rw [trim, String.toList_ofList, String.toList_ofList]
    have hinner := (List.dropLast_prefix (trimOf isBlank k.toList).tail).isInfix
    exact (htrim _).trans (hinner.trans ((List.tail_suffix _).isInfix.trans (htrim _)))
  · rw [String.toList_ofList]
    exact htrim _

theorem infix_castType {cast : Option String} {c : String} (h : castType? cast = some c) :
    ∃ k, cast = some k ∧ c.toList <:+: k.toList := by
  obtain ⟨hc, -⟩ := Option.filter_eq_some_iff.1 h
  obtain ⟨k, hk, rfl⟩ := Option.map_eq_some_iff.1 hc
  exact ⟨k, hk, infix_bareCast k⟩

/-- For a pattern that parentheses keep apart, only the texts by themselves matter. -/
theorem guarded_of_free {p : List Char} (ho : Seal p "(") (hc : Seal p ")")
    {structs : List StructClass} {m : NativeMethod} (haccessor : Free p m.accessor.toList)
    (hcast : ∀ k, m.cast = some k → Free p k.toList)
    (hcasts : ∀ q ∈ m.parameters, ∀ k, q.cast = some k → Free p k.toList)
    (hnatives : ∀ s ∈ structs, Free p s.nativeName.toList) : Guarded p structs m := by
  have hresult : ∀ c, castType? m.cast = some c → Ended p ("(" ++ c ++ ")") := by
    intro c h
    obtain ⟨k, hk, hck⟩ := infix_castType h
    exact (ho.ended.then ((hcast k hk).of_part hck)).seal hc
  refine ⟨haccessor, fun c h => (hresult c h).free, fun _ c h => (hresult c h).then haccessor,
    fun q hq k hk => ho.ended.then (hcasts q hq k hk), fun q hq c h => ?_,
    fun s hs => ho.ended.then (hnatives s hs)⟩
  obtain ⟨k, hk, hck⟩ := infix_castType h
  exact ho.ended.then ((hcasts q hq k hk).of_part hck)

/-! ## 2. Arguments and indentation -/

section

variable {p : List Char} (hp : p ∈ jumpMark :: patterns)

include hp

/-- The name of an argument keeps a pattern from reaching across it. -/
theorem seal_arg (q : Parameter) : Seal p q.arg := by
  have hclosed : ∀ p ∈ jumpMark :: patterns, p ≠ [] ∧ (∀ c ∈ p, c.isDigit = false) ∧ Free p "arg".toList ∧
      Opens p "arg" ∧ ¬ "arg".toList <:+: p := by decide
  obtain ⟨hne, hdigits, hfree, hopens, hlarge⟩ := hclosed p hp
  have hindex : (toString q.index).toList = Nat.toDigits 10 q.index := Nat.toList_repr
  have hseal : Seal p (toString q.index) := by
    refine seal_of_disjoint hne ?_ fun c hc hcp => ?_
    · rw [hindex]
      exact Nat.toDigits_ne_nil
    · rw [hindex] at hc
      have hdigit := Nat.isDigit_of_mem_toDigits (by omega) (by omega) hc
      rw [hdigits c hcp] at hdigit
      cases hdigit
  exact hseal.behind hfree hopens hlarge

theorem seal_localOf (q : Parameter) : Seal p (localOf q) := by
  have hclosed : ∀ p ∈ jumpMark :: patterns, Free p "lp".toList ∧ Opens p "lp" ∧
      ¬ "lp".toList <:+: p := by decide
  obtain ⟨hfree, hopens, hlarge⟩ := hclosed p hp
  exact (seal_arg hp q).behind hfree hopens hlarge

/-- Nothing begins in tabs. -/
theorem ended_tabs (d : Nat) : Ended p (copies d "\t") := by
  have hclosed : ∀ p ∈ jumpMark :: patterns, p ≠ [] ∧ '\t' ∉ p ∧ Ended p "" := by decide
  obtain ⟨hne, htab, hnone⟩ := hclosed p hp
  have htabs : (copies d "\t").toList = List.replicate d '\t' := toList_copies_char rfl d
  cases d with
  | zero => exact hnone
  | succ d =>
    refine (seal_of_disjoint hne ?_ ?_).ended
    · rw [htabs]
      exact List.cons_ne_nil _ _
    · intro c hc
      rw [htabs] at hc
      rw [List.eq_of_mem_replicate hc]
      exact htab

/-- Tabs in front of a line change nothing. -/
theorem free_indented {t : String} (ht : Free p t.toList) (d : Nat) :
    Free p (Line.indented d t).text.toList := by
  unfold Line.text
  dsimp only
  split
  · exact ht.of_part (List.nil_infix)
  · exact (ended_tabs hp d).then ht

end

/-! ## 3. The parts of a call -/

section

variable {p : List Char} (hp : p ∈ patterns)

include hp

/-- No pattern goes on with a parenthesis. -/
theorem free_paren {s t : String} (hs : Free p s.toList) (ht : Free p ("(" ++ t).toList) :
    Free p (s ++ ("(" ++ t)).toList := by
  have hclosed : ∀ p ∈ patterns, p ≠ [] ∧ '(' ∉ p.tail := by decide
  obtain ⟨hne, htail⟩ := hclosed p hp
  rw [← List.cons_head_tail hne] at hs ht ⊢
  rw [String.toList_append] at ht ⊢
  rw [String.toList_append]
  exact (free_append_cons htail _ _).2 ⟨hs, ht⟩

/-- Texts in parentheses, separated by commas. -/
theorem free_listed {l : List String} {t : String} (hl : ∀ a ∈ l, Free p ("(" ++ a).toList)
    (ht : Opens p t) (hempty : Free p ("(" ++ t).toList) :
    Free p ("(" ++ ", ".intercalate l ++ t).toList := by
  have hcomma : Seal p ", " := by
    have hclosed : ∀ p ∈ patterns, Seal p ", " := by decide
    exact hclosed p hp
  have listed : ∀ (r : List String) (s a : String), (∀ b ∈ r, Free p b.toList) →
      Free p (s ++ a).toList → Free p (s ++ ", ".intercalate (a :: r)).toList := by
    intro r
    induction r with
    | nil =>
      intro s a _ ha
      rwa [String.intercalate_singleton]
    | cons b r ih =>
      intro s a hr ha
      rw [String.intercalate_cons_cons, ← String.append_assoc, ← String.append_assoc]
      refine ih _ b (fun x hx => hr x (List.mem_cons_of_mem _ hx)) ?_
      exact (ha.seal hcomma).then (hr b List.mem_cons_self)
  cases l with
  | nil =>
    rw [String.intercalate_nil, String.append_empty]
    exact hempty
  | cons a r =>
    refine Free.append (listed r "(" a (fun b hb => ?_) (hl a List.mem_cons_self)) hempty.right (.inr ht)
    exact (hl b (List.mem_cons_of_mem _ hb)).right

variable {structs : List StructClass} {m : NativeMethod} {call : CallMapping}

/-- The C type of a parameter behind a parenthesis. -/
theorem free_cType (g : Guarded p structs m) {q : Parameter} (hq : q ∈ m.parameters)
    {t : ValueMapping} {r : Rule} {c : Option StructClass}
    (h : Mapped standardRules structs m q t r c) : Free p ("(" ++ t.cType).toList := by
  have hclosed : ∀ p ∈ patterns, (∀ u ∈ ownTypes, Free p ("(" ++ u).toList) ∧
      Free p ("(" ++ "").toList ∧ Free p " *".toList ∧ Opens p " *" := by decide +kernel
  obtain ⟨hown, hnone, hstar, hopens⟩ := hclosed p hp
  rcases cType_of_mapped h with hcast | hmem | ⟨name, hname, htype⟩
  · exact g.types q hq _ hcast
  · exact hown _ hmem
  · have hfree : Free p ("(" ++ name).toList := by
      rcases hname with rfl | ⟨s, hs, rfl⟩
      · exact hnone
      · exact g.natives s hs
    rw [htype, ← String.append_assoc]
    exact hfree.append hstar (.inr hopens)

/-- The argument of a call behind a parenthesis. -/
theorem free_callArg (g : Guarded p structs m) {q : Parameter} (hq : q ∈ m.parameters)
    {t : ValueMapping} {r : Rule} {c : Option StructClass}
    (h : Mapped standardRules structs m q t r c) : Free p ("(" ++ t.callArg).toList := by
  have hclosed : ∀ p ∈ patterns, Free p ("(" ++ "").toList ∧ Free p ("(" ++ "(void *)").toList ∧
      Seal p "(intptr_t)" := by decide
  obtain ⟨hnone, hvoid, hpointer⟩ := hclosed p hp
  obtain ⟨k, a, hk, ha, harg⟩ := callArg_of_mapped h
  have hfree : Free p ("(" ++ k).toList := by
    rcases hk with rfl | rfl | hk
    · exact hnone
    · exact hvoid
    · exact g.casts q hq k hk
  have hseal : Seal p a := by
    rcases ha with rfl | rfl | rfl
    · exact seal_arg (List.mem_cons_of_mem _ hp) q
    · exact seal_localOf (List.mem_cons_of_mem _ hp) q
    · exact (seal_arg (List.mem_cons_of_mem _ hp) q).behind hpointer.free hpointer.opens hpointer.large
  rw [harg, ← String.append_assoc]
  exact (hfree.seal hseal).free

/-- The type of the result in parentheses, in front of what is called. -/
theorem free_resultType (h : ResultMapped m call.result) {function : String}
    (hf : Free p function.toList) (hcast : ∀ c, castType? m.cast = some c →
      Free p ("(" ++ c ++ ")" ++ function).toList) :
    Free p ("(" ++ call.result.cType ++ ")" ++ function).toList := by
  have hclosed : ∀ p ∈ patterns, (∀ u ∈ ownTypes, Ended p ("(" ++ u ++ ")") ∧
      Ended p ("(" ++ ("const " ++ u) ++ ")")) ∧ Ended p "(const " := by decide +kernel
  obtain ⟨hown, hconst⟩ := hclosed p hp
  obtain ⟨c, hc, htype⟩ := h.cType
  rcases hc with hc | hc
  · rcases htype with htype | htype
    · rw [htype]
      exact hcast c hc
    · have hrest : Free p (c ++ ")" ++ function).toList := by
        have hall := hcast c hc
        rw [String.append_assoc, String.append_assoc] at hall
        rw [String.append_assoc]
        exact hall.right
      have hsplit : "(" ++ ("const " ++ c) ++ ")" ++ function = "(const " ++ (c ++ ")" ++ function) := by
        have hword : "(const " = "(" ++ "const " := rfl
        rw [hword]
        simp only [String.append_assoc]
      rw [htype, hsplit]
      exact hconst.then hrest
  · rcases htype with htype | htype
    · rw [htype]
      exact (hown c hc).1.then hf
    · rw [htype]
      exact (hown c hc).2.then hf

/-- **An assignment holds no pattern** if what it calls holds none. -/
theorem free_assignment (h : MethodMapped structs m call) (g : Guarded p structs m)
    (hout : Free p call.result.marshalOut.toList) {function : String}
    (hf : Free p function.toList) (hcast : ∀ c, castType? m.cast = some c →
      Free p ("(" ++ c ++ ")" ++ function).toList) :
    Free p (assignment call function).toList := by
  have hargs : ∀ a ∈ call.parameters.map (·.callArg), Free p ("(" ++ a).toList := by
    intro a ha
    obtain ⟨t, ht, rfl⟩ := List.mem_map.1 ha
    obtain ⟨q, hq, r, c, hqt⟩ := exists_of_mem_forall₂ h.parameters ht
    exact free_callArg hp g hq hqt
  have hcall : ∀ {s t : String}, Free p s.toList → Opens p t → Free p ("(" ++ t).toList →
      Free p (s ++ "(" ++ ", ".intercalate (call.parameters.map (·.callArg)) ++ t).toList := by
    intro s t hs ho ht
    have hlist := free_listed hp hargs ho ht
    rw [String.append_assoc] at hlist
    rw [String.append_assoc, String.append_assoc]
    exact free_paren hp hs hlist
  have hclosed : ∀ p ∈ patterns, Ended p "rc = " ∧ Free p "rc = ;".toList ∧
      (∀ f ∈ resultFrames, Shuts p f.1 ∧ Opens p (")" ++ f.2 ++ ";") ∧
        Free p ("(" ++ (")" ++ f.2 ++ ";")).toList) ∧
      Opens p (")" ++ ";") ∧ Free p ("(" ++ (")" ++ ";")).toList := by decide +kernel
  obtain ⟨hrc, hnone, hframes, hends, hempty⟩ := hclosed p hp
  unfold assignment
  dsimp only
  split
  · have hvoid := hcall hf hends hempty
    rwa [← String.append_assoc] at hvoid
  · have hkept : ∀ x : String, Free p (x ++ function).toList →
        Free p ("rc = " ++ replace call.result.marshalOut value
          (x ++ (function ++ "(" ++ ", ".intercalate (call.parameters.map (·.callArg)) ++ ")"))
            ++ ";").toList := by
      intro x hx
      rcases h.result.marshalOut with he | ⟨f, hmem, he⟩
      · rw [he]
        exact hnone
      · obtain ⟨hshuts, hopens, htail⟩ := hframes f hmem
        have hplain : ∀ f ∈ resultFrames, '\x7b' ∉ f.1.toList ∧ '\x7b' ∉ f.2.toList := by decide
        have hframe : Ended p f.1 := by
          rw [he, String.append_assoc] at hout
          exact ⟨hout.left, hshuts⟩
        have hline := hcall ((hrc.append hframe).then hx) hopens htail
        rw [he, replace_single rfl (hplain f hmem).1 (hplain f hmem).2]
        simp only [String.append_assoc] at hline ⊢
        exact hline
    rw [h.method]
    cases m.cast with
    | none => exact hkept "" hf
    | some c =>
      dsimp only
      split
      · exact hkept "" hf
      · exact hkept _ (free_resultType hp h.result hf hcast)

/-! ## 4. The lines of a call -/

/-- A function behind a pointer, with the type of the pointer. -/
theorem free_pointer (h : MethodMapped structs m call) (g : Guarded p structs m) :
    Free p ("((" ++ pointerAbi call ++ ")fp)").toList := by
  have hclosed : ∀ p ∈ patterns, Free p "(".toList ∧ Seal p " (CALLING_CONVENTION*)" ∧
      Opens p "))fp)" ∧ Free p ("(" ++ "))fp)").toList ∧ Free p ("(" ++ ("void" ++ "))fp)")).toList ∧
      Free p "".toList := by decide
  obtain ⟨hopen, hseal, hopens, hnone, hvoid, hempty⟩ := hclosed p hp
  have htypes : ∀ a ∈ call.parameters.map (·.cType), Free p ("(" ++ a).toList := by
    intro a ha
    obtain ⟨t, ht, rfl⟩ := List.mem_map.1 ha
    obtain ⟨q, hq, r, c, hqt⟩ := exists_of_mem_forall₂ h.parameters ht
    exact free_cType hp g hq hqt
  have hresult : Free p ("(" ++ call.result.cType).toList := by
    have hall := free_resultType hp h.result hempty fun c hc => by
      rw [String.append_empty]
      exact g.result c hc
    exact hall.left.left
  have hlisted : ∀ params, Free p ("(" ++ (params ++ "))fp)")).toList →
      Free p ("((" ++ (call.result.cType ++ " (CALLING_CONVENTION*)(" ++ params ++ ")") ++
        ")fp)").toList := by
    intro params hparams
    have hbefore := (free_paren hp hopen hresult).seal hseal
    have hall := free_paren hp hbefore.free hparams
    have hsplit : "((" ++ (call.result.cType ++ " (CALLING_CONVENTION*)(" ++ params ++ ")") ++ ")fp)" =
        "(" ++ ("(" ++ call.result.cType) ++ " (CALLING_CONVENTION*)" ++ ("(" ++ (params ++ "))fp)")) := by
      have hleft : "((" = "(" ++ "(" := rfl
      have hright : "))fp)" = ")" ++ ")fp)" := rfl
      have hmiddle : " (CALLING_CONVENTION*)(" = " (CALLING_CONVENTION*)" ++ "(" := rfl
      rw [hleft, hright, hmiddle]
      simp only [String.append_assoc]
    rwa [hsplit]
  show Free p ("((" ++ (call.result.cType ++ " (CALLING_CONVENTION*)(" ++ (if
    (", ".intercalate (call.parameters.map (·.cType))).isEmpty then "void"
      else ", ".intercalate (call.parameters.map (·.cType))) ++ ")") ++ ")fp)").toList
  split
  · exact hlisted _ hvoid
  · refine hlisted _ ?_
    rw [← String.append_assoc]
    exact free_listed hp htypes hopens hnone

/-- **The lines of a call hold no pattern.** -/
theorem free_of_mem_linesOf_call (h : MethodMapped structs m call) (g : Guarded p structs m)
    (hout : Free p call.result.marshalOut.toList) :
    ∀ l ∈ linesOf (.call call), Free p l.toList := by
  have hclosed : ∀ p ∈ patterns, Ended p "LOAD_FUNCTION(fp, " ∧ Free p ")".toList ∧ Opens p ")" ∧
      ∀ t ∈ ["\x7b", "if (fp) \x7b", "\x7d"], Free p t.toList := by decide
  obtain ⟨hload, hclose, hopens, hbrace⟩ := hclosed p hp
  have hp' : p ∈ jumpMark :: patterns := List.mem_cons_of_mem _ hp
  refine forall_mem_linesOf_call (fun t ht d => ?_) (fun d => ?_) (fun d => ?_) fun hdirect d => ?_
  · exact free_indented hp' (hbrace t ht) d
  · refine free_indented hp' ?_ d
    rw [h.method]
    exact (hload.then g.accessor).append hclose (.inr hopens)
  · have hpointer := free_pointer hp h g
    refine free_indented hp' (free_assignment hp h g hout hpointer fun c hc => ?_) d
    have hsplit : "((" ++ pointerAbi call ++ ")fp)" = "(" ++ ("(" ++ pointerAbi call ++ ")fp)") := by
      have hleft : "((" = "(" ++ "(" := rfl
      rw [hleft]
      simp only [String.append_assoc]
    show Free p ("(" ++ c ++ ")" ++ ("((" ++ pointerAbi call ++ ")fp)")).toList
    rw [hsplit] at hpointer ⊢
    exact free_paren hp (g.result c hc) hpointer
  · rw [h.method] at hdirect ⊢
    exact free_indented hp' (free_assignment hp h g hout g.accessor (g.direct hdirect)) d

end

end NativeGlue.Code
