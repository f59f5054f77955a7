import NativeGlue.Proofs.Mapping.StandardRules
import NativeGlue.Proofs.Text.Parentheses

/-!
# Casts and C types

A declaration may name its C type by a cast, which stands in parentheses or not. The parentheses are taken away if the
cast begins and ends with one. For a cast that is balanced this leaves a balanced type, unless the cast is a chain:
then the two parentheses do not belong together (`depthBehind_bareCast`). Between parentheses either type is in place
(`Typed.inner`).
-/

namespace NativeGlue.Mapping

open NativeGlue.Text

/-! ## 1. Casts without the parentheses around them -/

/-- A cast that is a chain: it falls into two balanced texts, of which one begins with a parenthesis and the other one
ends with one. -/
def Chained (cast : String) : Prop :=
  ∃ a b : String, trim cast = a ++ b ∧ a.toList.head? = some '(' ∧ b.toList.getLast? = some ')' ∧
    Balanced a ∧ Balanced b

theorem chained_iff {k : String} : Chained k ↔ ∃ a b, trimOf isBlank k.toList = '(' :: a ++ (b ++ [')']) ∧
    depthBehind 1 a = some 0 ∧ depthBehind 0 b = some 1 := by
  constructor
  · rintro ⟨a, b, hab, ha, hb, hopen, hclose⟩
    rw [balanced_iff] at hopen hclose
    obtain ⟨r, hr⟩ := List.head?_eq_some_iff.1 ha
    obtain ⟨q, hq⟩ := List.getLast?_eq_some_iff.1 hb
    rw [hr, depthBehind_open] at hopen
    rw [hq, depthBehind_concat_close] at hclose
    refine ⟨r, q, ?_, hopen, hclose⟩
    rw [← hr, ← hq, ← String.toList_append, ← hab, trim, String.toList_ofList]
  · rintro ⟨a, b, hab, ha, hb⟩
    refine ⟨String.ofList ('(' :: a), String.ofList (b ++ [')']), ?_, ?_, ?_, ?_, ?_⟩
    · rw [← String.ofList_append, ← hab]
      rfl
    · rw [String.toList_ofList]
      rfl
    · rw [String.toList_ofList, List.getLast?_concat]
    · rw [balanced_iff, String.toList_ofList]
      exact ha
    · rw [balanced_iff, String.toList_ofList]
      exact depthBehind_concat_close.2 hb

/-- **The parentheses around a cast belong together unless it is a chain.** Without them a balanced cast is balanced,
and a chain closes a parenthesis that it has not opened; between parentheses either is in place. -/
theorem depthBehind_bareCast {k : String} (h : Balanced k) : depthBehind 1 (bareCast k).toList = some 1 ∧
    (Chained k ∧ depthBehind 0 (bareCast k).toList = none ∨
      ¬ Chained k ∧ depthBehind 0 (bareCast k).toList = some 0) := by
  have hs : depthBehind 0 (trimOf isBlank k.toList) = some 0 := by
    rw [depthBehind_trimOf]
    exact balanced_iff.1 h
  by_cases hends : (trimOf isBlank k.toList).head? = some '(' ∧ (trimOf isBlank k.toList).getLast? = some ')'
  · obtain ⟨s, hk⟩ : ∃ s, trimOf isBlank k.toList = '(' :: s ++ [')'] := by
      obtain ⟨t, ht⟩ := List.head?_eq_some_iff.1 hends.1
      have hlast := hends.2
      rw [ht, List.getLast?_cons] at hlast
      cases hl : t.getLast? with
      | none =>
        rw [hl] at hlast
        cases hlast
      | some c =>
        rw [hl] at hlast
        obtain rfl := Option.some.inj hlast
        obtain ⟨s, rfl⟩ := List.getLast?_eq_some_iff.1 hl
        exact ⟨s, ht⟩
    have hbare : ∀ d, depthBehind d (bareCast k).toList = depthBehind d s := by
      intro d
      have hinner : bareCast k = trim (String.ofList s) := by
        unfold bareCast
        dsimp only
        rw [hends.1, hends.2, if_pos (by decide), hk, List.cons_append, List.tail_cons, List.dropLast_concat]
      rw [hinner, trim, String.toList_ofList, String.toList_ofList, depthBehind_trimOf]
    rw [hk, depthBehind_concat_close] at hs
    have hinner : depthBehind 1 s = some 1 := hs
    refine ⟨(hbare 1).trans hinner, ?_⟩
    rw [hbare]
    rcases exists_of_depthBehind_succ hinner with hflat | ⟨hnone, a, b, rfl, ha, hb⟩
    · refine .inr ⟨fun hchained => ?_, hflat⟩
      obtain ⟨a, b, hab, ha, hb⟩ := chained_iff.1 hchained
      rw [hk, ← List.append_assoc, List.append_left_inj, List.cons_append, List.cons.injEq] at hab
      obtain ⟨-, rfl⟩ := hab
      rw [depthBehind_append] at hflat
      obtain ⟨e, he, -⟩ := Option.bind_eq_some_iff.1 hflat
      have hdeep := depthBehind_add he 1
      rw [Nat.zero_add, ha] at hdeep
      cases hdeep
    · refine .inl ⟨chained_iff.2 ⟨a, b, ?_, ha, hb⟩, hnone⟩
      rw [hk, List.cons_append, List.append_assoc]
      rfl
  · have hbare : (bareCast k).toList = trimOf isBlank k.toList := by
      unfold bareCast
      dsimp only
      rw [if_neg (by simpa using hends), String.toList_ofList]
    rw [hbare]
    refine ⟨depthBehind_add hs 1, .inr ⟨fun hchained => hends ?_, hs⟩⟩
    obtain ⟨a, b, hab, -, -⟩ := chained_iff.1 hchained
    rw [hab]
    exact ⟨rfl, by rw [← List.append_assoc, List.getLast?_concat]⟩

/-- A chain names a type. -/
theorem castType?_of_chained {k : String} (h : Balanced k) (hk : Chained k) :
    castType? (some k) = some (bareCast k) ∧ depthBehind 0 (bareCast k).toList = none := by
  have hnone : depthBehind 0 (bareCast k).toList = none :=
    (depthBehind_bareCast h).2.elim And.right fun hplain => absurd hk hplain.1
  have hne : (bareCast k).isEmpty = false := by
    refine Bool.eq_false_iff.2 fun he => ?_
    rw [String.isEmpty_iff.1 he] at hnone
    cases hnone
  refine ⟨?_, hnone⟩
  unfold castType?
  simp [hne]

theorem exists_of_castType? {cast : Option String} {c : String} (h : castType? cast = some c) :
    ∃ k, cast = some k ∧ bareCast k = c :=
  Option.map_eq_some_iff.1 (Option.filter_eq_some_iff.1 h).1

/-! ## 2. C types -/

/-- The C type of a declaration with a cast, or without one: apart from certain texts it is balanced, unless the cast
is a chain; if it is one, the type is not balanced. Between parentheses it is in place either way. -/
structure Typed (outside : List String) (cast : Option String) (cType : String) : Prop where
  whole : (∀ k ∈ cast, ¬ Chained k) → BalancedApart outside cType
  chained : ∀ k ∈ cast, Chained k → ¬ Balanced cType
  inner : Leads outside 1 1 cType

/-- A type that comes from the cast if there is one, with or without something before it. -/
theorem typed_of_castType {outside : List String} {cast : Option String} {cType : String}
    (hcast : ∀ k ∈ cast, Balanced k)
    (hgiven : ∀ c, castType? cast = some c → ∃ pre : String, Flat pre.toList ∧ cType = pre ++ c)
    (hown : castType? cast = none → Leads outside 0 0 cType) : Typed outside cast cType := by
  have hdepth : ∀ {k}, cast = some k → castType? cast = some (bareCast k) →
      ∀ d, depthBehind d cType.toList = depthBehind d (bareCast k).toList := by
    intro k _ hc d
    obtain ⟨pre, hpre, rfl⟩ := hgiven _ hc
    rw [String.toList_append, depthBehind_append, depthBehind_of_flat hpre, Option.bind_some]
  refine ⟨fun hplain => ?_, fun k hk hchained => ?_, ?_⟩
  · rw [balancedApart_iff]
    cases hc : castType? cast with
    | none => exact hown hc
    | some c =>
      obtain ⟨k, hk, rfl⟩ := exists_of_castType? hc
      refine leads_of_depth ((hdepth hk hc 0).trans ?_)
      exact (depthBehind_bareCast (hcast k hk)).2.elim (fun h => absurd h.1 (hplain k hk)) And.right
  · obtain ⟨hc, hnone⟩ := castType?_of_chained (hcast k hk) hchained
    obtain rfl : cast = some k := hk
    rw [balanced_iff, hdepth rfl hc, hnone]
    exact nofun
  · cases hc : castType? cast with
    | none => exact (hown hc).add 1
    | some c =>
      obtain ⟨k, hk, rfl⟩ := exists_of_castType? hc
      exact leads_of_depth ((hdepth hk hc 1).trans (depthBehind_bareCast (hcast k hk)).1)

theorem balanced_ownTypes : ∀ c ∈ ownTypes, Balanced c := by decide +kernel

theorem balanced_standardRules : ∀ r ∈ standardRules, Balanced r.cType := by decide +kernel

section

variable {e : Mapper} (he : e.rules = standardRules) {structs : List StructClass} {m : NativeMethod} {t : ValueMapping}

/-- A cast decides the type of a parameter. -/
theorem cType_of_paramMapping {p : Parameter} (h : e.paramMapping structs m p = .ok t) {c : String}
    (hc : castType? p.cast = some c) : t.cType = c := by
  rw [paramMapping_eq] at h
  split at h
  · cases h
  obtain ⟨r, -, h⟩ := ok_of_bind h
  obtain ⟨s, -, h⟩ := ok_of_bind h
  unfold mappingBy at h
  obtain ⟨_, -, h⟩ := ok_of_bind h
  obtain ⟨cType, htype, h⟩ := ok_of_bind h
  obtain ⟨_, -, h⟩ := ok_of_bind h
  obtain ⟨_, -, h⟩ := ok_of_bind h
  obtain ⟨_, -, h⟩ := ok_of_bind h
  obtain ⟨_, -, h⟩ := ok_of_bind h
  obtain rfl := Except.ok.inj h
  unfold typeBy at htype
  rw [hc] at htype
  exact (Except.ok.inj htype).symm

include he

theorem typed_of_paramMapping {p : Parameter} (h : e.paramMapping structs m p = .ok t)
    (hp : ∀ k ∈ p.cast, Balanced k) : Typed (structs.map (·.nativeName)) p.cast t.cType := by
  refine typed_of_castType hp (fun c hc => ⟨"", by decide, ?_⟩) fun hnone => ?_
  · rw [cType_of_paramMapping h hc, String.empty_append]
  · obtain ⟨r, s, hm⟩ := exists_mapped h
    rw [he] at hm
    rcases cType_of_mapped hm with hcast | hown | ⟨native, hnative, htype⟩
    · rw [hnone] at hcast
      cases hcast
    · exact (balanced_ownTypes _ hown).leads _ 0
    · rw [htype]
      refine Leads.text ?_ (by decide) (e := 0)
      rcases hnative with rfl | ⟨x, hx, rfl⟩
      · exact leads_flat (by decide) 0
      · exact leads_outside (List.mem_map_of_mem hx) 0

theorem typed_of_resultMapping (h : e.resultMapping m = .ok t) (hm : ∀ k ∈ m.cast, Balanced k) :
    Typed [] m.cast t.cType := by
  have htype : ∃ r ∈ standardRules, ∃ pre : String, Flat pre.toList ∧
      t.cType = pre ++ (castType? m.cast).getD r.cType := by
    unfold Mapper.resultMapping at h
    obtain ⟨r, hr, h⟩ := ok_of_bind h
    dsimp only at h
    have hfound := ruleFor?_of_rule hr
    rw [he] at hfound
    refine ⟨r, (of_ruleFor? hfound).1, ?_⟩
    split at h
    · obtain ⟨_, hthrow, -⟩ := ok_of_bind h
      exact (not_ok_throw hthrow).elim
    obtain rfl := Except.ok.inj h
    dsimp only
    split
    · exact ⟨"const ", by decide, rfl⟩
    · exact ⟨"", by decide, (String.empty_append ..).symm⟩
  obtain ⟨r, hr, pre, hpre, htype⟩ := htype
  rw [htype]
  refine typed_of_castType hm (fun c hc => ⟨pre, hpre, ?_⟩) fun hnone => ?_
  · rw [hc, Option.getD_some]
  · rw [hnone, Option.getD_none]
    exact (leads_flat hpre 0).append ((balanced_standardRules r hr).leads _ 0)

theorem typed_of_fieldMapping {f : StructMember} (h : e.fieldMapping f = .ok t) (hf : ∀ k ∈ f.cast, Balanced k) :
    Typed [] f.cast t.cType := by
  obtain ⟨r, hr⟩ := exists_fieldMapped h
  have hfound := hr.rule
  rw [he] at hfound
  rw [hr.cType]
  refine typed_of_castType hf (fun c hc => ⟨"", by decide, ?_⟩) fun hnone => ?_
  · rw [hc, Option.getD_some, String.empty_append]
  · rw [hnone, Option.getD_none]
    exact (balanced_standardRules r (of_ruleFor? hfound).1).leads _ 0

end

end NativeGlue.Mapping
