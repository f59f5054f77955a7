import NativeGlue.Proofs.Directive.Tags
import NativeGlue.Proofs.Text.Cuts
import NativeGlue.Proofs.Text.Digits
import NativeGlue.Proofs.Text.Occurrence

/-!
# Pairs in a text

A key stands wherever a word of letters, digits and underscores is directly followed by an equals sign
(`keyAt?_eq_some_iff`). A plain value holds none outside its parentheses (`PlainValue`), so pairs that are written
one behind the other with commas between them are cut into just these pairs (`cutPairs_pairsText`), and each value
is read as it was written (`checkPairs_rawPairs`).
-/

namespace NativeGlue.Directive

open NativeGlue.Text

/-! ## 1. Keys -/

/-- What may stand before an equals sign as a key. -/
structure IsKey (k : List Char) : Prop where
  begins : ∃ c r, k = c :: r ∧ isKeyStart c = true
  parts : ∀ c ∈ k, isKeyPart c = true

theorem isKeyPart_of_isKeyStart {c : Char} (h : isKeyStart c = true) : isKeyPart c = true := by
  rw [isKeyStart, Bool.or_eq_true] at h
  rw [isKeyPart, Bool.or_eq_true, Char.isAlphanum, Bool.or_eq_true]
  exact h.imp_left .inl

/-- **A key stands wherever a word is directly followed by an equals sign.** -/
theorem keyAt?_eq_some_iff {s k : List Char} : keyAt? s = some k ↔ IsKey k ∧ ∃ r, s = k ++ '=' :: r := by
  constructor
  · intro h
    cases s with
    | nil => cases h
    | cons c r =>
      obtain ⟨hkey, hsome⟩ := Option.ite_none_right_eq_some.1 h
      obtain rfl := Option.some.inj hsome
      rw [Bool.and_eq_true, beq_iff_eq] at hkey
      obtain ⟨q, hq⟩ := List.head?_eq_some_iff.1 hkey.2
      refine ⟨⟨⟨c, r.takeWhile isKeyPart, ?_, hkey.1⟩, fun d hd => List.mem_takeWhile_imp hd⟩, q, ?_⟩
      · rw [List.takeWhile_cons_of_pos (isKeyPart_of_isKeyStart hkey.1)]
      · rw [← hq, List.takeWhile_append_dropWhile]
  · rintro ⟨hk, r, rfl⟩
    have hstop : isKeyPart '=' = false := by decide
    have htake : (k ++ '=' :: r).takeWhile isKeyPart = k := by
      rw [List.takeWhile_append_of_pos hk.parts, List.takeWhile_cons_of_neg (by simp [hstop]), List.append_nil]
    have hdrop : (k ++ '=' :: r).dropWhile isKeyPart = '=' :: r := by
      rw [List.dropWhile_append_of_pos hk.parts, List.dropWhile_cons_of_neg (by simp [hstop])]
    obtain ⟨c, q, rfl, hc⟩ := hk.begins
    show (if isKeyStart c && ((c :: q ++ '=' :: r).dropWhile isKeyPart).head? == some '=' then
      some ((c :: q ++ '=' :: r).takeWhile isKeyPart) else none) = some (c :: q)
    rw [htake, hdrop, hc]
    rfl

instance (k : List Char) : Decidable (IsKey k) :=
  match k with
  | [] => .isFalse fun h => by obtain ⟨_, _, he, -⟩ := h.begins; cases he
  | c :: r => decidable_of_iff (isKeyStart c = true ∧ ∀ d ∈ c :: r, isKeyPart d = true)
      ⟨fun h => ⟨⟨c, r, rfl, h.1⟩, h.2⟩, fun h => by
        obtain ⟨d, q, he, hd⟩ := h.begins
        obtain ⟨rfl, rfl⟩ := List.cons.inj he
        exact ⟨hd, h.parts⟩⟩

/-- The keys that tags may give are keys. -/
theorem isKey_of_mem_keys (kind : TagKind) : ∀ k ∈ kind.keys, IsKey k.toList := by
  cases kind <;> decide

/-- A part of a key ends no line, is no blank and begins no tag. -/
theorem plain_of_isKeyPart {c : Char} (h : isKeyPart c = true) : isBlank c = false ∧ c ≠ '@' := by
  refine ⟨?_, ?_⟩
  · rw [isKeyPart, Bool.or_eq_true, isAlphanum_iff, beq_iff_eq] at h
    rw [← Bool.not_eq_true]
    simp only [isBlank, Bool.or_eq_true, Bool.and_eq_true, decide_eq_true_eq, beq_iff_eq]
    rcases h with h | rfl
    · omega
    · decide
  · rintro rfl
    exact absurd h (by decide)

theorem isLineEnd_of_not_isBlank {c : Char} (h : isBlank c = false) : isLineEnd c = false := by
  rw [← Bool.not_eq_true] at h ⊢
  exact fun hc => h (isBlank_of_isLineEnd hc)

/-! ## 2. Values -/

/-- A text ends inside a word. -/
def endsInWord (s : List Char) : Bool := s.getLast?.any isWordChar

theorem endsInWord_concat (s : List Char) (c : Char) : endsInWord (s ++ [c]) = isWordChar c := by
  rw [endsInWord, List.getLast?_concat, Option.any_some]

/-- A value that can be written in a tag: its parentheses are balanced, it is on one line without blanks around it
and without a comma behind it, and it holds no end of a comment, no tag and no pair outside of parentheses. -/
structure PlainValue (v : List Char) : Prop where
  balanced : v.count ')' = v.count '('
  nested : ∀ a, a <+: v → a.count ')' ≤ a.count '('
  oneLine : ∀ c ∈ v, isLineEnd c = false
  inside : Free ['*', '/'] v
  trimmed : trimOf isBlank v = v
  noComma : v.getLast? ≠ some ','
  noTag : ∀ a (k : TagKind) b, v = a ++ '@' :: (k.word.toList ++ b) → endsWord b = false
  noPair : ∀ a k b, v = a ++ (k ++ '=' :: b) → IsKey k → endsInWord a = false → a.count ')' < a.count '('

/-- Whether a value can be written is found by looking at each place of it once. -/
instance (v : List Char) : Decidable (PlainValue v) :=
  decidable_of_iff
    (v.count ')' = v.count '(' ∧ (∀ a ∈ v.inits, a.count ')' ≤ a.count '(') ∧ (∀ c ∈ v, isLineEnd c = false) ∧
      Free ['*', '/'] v ∧ trimOf isBlank v = v ∧ v.getLast? ≠ some ',' ∧
      (∀ t ∈ v.tails, t.head? = some '@' → tagWord? t.tail = none) ∧
      ∀ a ∈ v.inits, endsInWord a = false → (keyAt? (v.drop a.length)).isSome = true →
        a.count ')' < a.count '(')
    (by
      refine ⟨fun ⟨h1, h2, h3, h4, h5, h6, h7, h8⟩ =>
        ⟨h1, fun a ha => h2 a ((List.mem_inits _ _).2 ha), h3, h4, h5, h6, fun a k b hv => ?_,
          fun a k b hv hk ha => ?_⟩, fun h => ⟨h.1, fun a ha => h.2 a ((List.mem_inits _ _).1 ha), h.3, h.4, h.5,
          h.6, fun t ht hhead => ?_, fun a ha hword hkey => ?_⟩⟩
      · refine Bool.eq_false_iff.2 fun hends => ?_
        have hnone := h7 ('@' :: (k.word.toList ++ b)) ((List.mem_tails _ _).2 ⟨a, hv.symm⟩) rfl
        rw [List.tail_cons, tagWord?_eq_some_iff.2 ⟨b, rfl, hends⟩] at hnone
        cases hnone
      · refine h8 a ((List.mem_inits _ _).2 ⟨_, hv.symm⟩) ha ?_
        rw [hv, List.drop_left, keyAt?_eq_some_iff.2 ⟨hk, b, rfl⟩]
        rfl
      · obtain ⟨r, rfl⟩ := List.head?_eq_some_iff.1 hhead
        obtain ⟨a, ha⟩ := (List.mem_tails _ _).1 ht
        refine Option.eq_none_iff_forall_ne_some.2 fun k hk => ?_
        obtain ⟨b, hb, hends⟩ := tagWord?_eq_some_iff.1 hk
        rw [List.tail_cons] at hb
        rw [h.7 a k b (by rw [← ha, hb])] at hends
        cases hends
      · obtain ⟨r, hr⟩ := (List.mem_inits _ _).1 ha
        obtain ⟨k, hk⟩ := Option.isSome_iff_exists.1 hkey
        rw [← hr, List.drop_left] at hk
        obtain ⟨hiskey, b, rfl⟩ := keyAt?_eq_some_iff.1 hk
        exact h.8 a k b hr.symm hiskey hword)

theorem PlainValue.lacks {v : List Char} (h : PlainValue v) (P : TagKind → Prop) : Lacks P v := by
  rintro r ⟨a, ha⟩ k hk -
  obtain ⟨b, rfl, hends⟩ := tagWord?_eq_some_iff.1 hk
  rw [h.noTag a k b ha.symm] at hends
  cases hends

/-- A value is read as it was written, with the comma behind it and without. -/
theorem PlainValue.pairValue_eq {v : String} (h : PlainValue v.toList) :
    pairValue v.toList = v ∧ pairValue (v.toList ++ [',']) = v := by
  have hend : dropEnd (· == ',') v.toList = v.toList := by
    refine dropEnd_eq_self fun c hc => beq_eq_false_iff_ne.2 ?_
    rintro rfl
    exact h.noComma hc
  have hcomma : trimOf isBlank (v.toList ++ [',']) = v.toList ++ [','] := by
    refine trimOf_eq_self_iff.2 ⟨fun c hc => ?_, fun c hc => ?_⟩
    · cases hv : v.toList with
      | nil =>
        rw [hv] at hc
        obtain rfl := Option.some.inj hc
        decide
      | cons d r =>
        rw [hv] at hc
        exact (trimOf_eq_self_iff.1 h.trimmed).1 c (by rw [hv]; exact hc)
    · rw [List.getLast?_concat] at hc
      obtain rfl := Option.some.inj hc
      decide
  constructor
  · rw [pairValue, h.trimmed, hend, h.trimmed, String.ofList_toList]
  · rw [pairValue, hcomma, dropEnd_append_of_all (by decide), hend, h.trimmed, String.ofList_toList]

/-! ## 3. Cutting -/

theorem cutPairs_skip (key acc w s : List Char) (depth : Nat) :
    cutPairs key acc false depth w.length (w ++ s) = cutPairs key acc false depth 0 s := by
  induction w with
  | nil => rfl
  | cons c w ih => rw [List.length_cons, List.cons_append, cutPairs, ih]

/-- At a key the text so far is closed and a new one begins behind the equals sign. -/
theorem cutPairs_key {k : List Char} (hk : IsKey k) (key acc s : List Char) :
    cutPairs key acc false 0 0 (k ++ '=' :: s) = (key, acc.reverse) :: cutPairs k [] false 0 0 s := by
  have hfound := keyAt?_eq_some_iff.2 ⟨hk, s, rfl⟩
  obtain ⟨c, r, rfl, -⟩ := hk.begins
  have hlength : (c :: r).length = (r ++ ['=']).length := by simp
  have hrest : r ++ '=' :: s = (r ++ ['=']) ++ s := by simp
  rw [List.cons_append] at hfound ⊢
  rw [cutPairs, if_pos (by decide), hfound]
  dsimp only
  rw [hlength, hrest, cutPairs_skip]

/-- Where no key begins, the text goes on. -/
theorem cutPairs_char {c : Char} {inWord : Bool} {depth : Nat} {s : List Char}
    (h : inWord = false → depth = 0 → keyAt? (c :: s) = none) (key acc : List Char) :
    cutPairs key acc inWord depth 0 (c :: s) =
      cutPairs key (c :: acc) (isWordChar c) (depthAfter depth c) 0 s := by
  have hnone : (if !inWord && depth = 0 then keyAt? (c :: s) else none) = none := by
    split
    · rename_i hstart
      simp only [Bool.and_eq_true, Bool.not_eq_true', decide_eq_true_eq] at hstart
      exact h hstart.1 hstart.2
    · rfl
  rw [cutPairs, hnone]

/-- How many parentheses are open behind a text that closes none too many. -/
theorem depthAfter_count {s : List Char} (h : s.count ')' ≤ s.count '(') (c : Char) :
    depthAfter (s.count '(' - s.count ')') c = (s ++ [c]).count '(' - (s ++ [c]).count ')' := by
  have hopen : ([')'] : List Char).count '(' = 0 ∧ (['('] : List Char).count ')' = 0 := by decide
  rw [List.count_append, List.count_append, depthAfter]
  split
  · rename_i hc
    rw [hc, hopen.2, List.count_singleton_self]
    omega
  · rename_i hc
    rw [List.count_eq_zero_of_not_mem (fun hmem => hc (List.mem_singleton.1 hmem).symm)]
    split
    · rename_i hclose
      rw [hclose, List.count_singleton_self]
      omega
    · rename_i hclose
      rw [List.count_eq_zero_of_not_mem (fun hmem => hclose (List.mem_singleton.1 hmem).symm)]
      rfl

/-- **A plain value is taken as a whole**, up to what no key can reach into. -/
theorem cutPairs_value {v : List Char} (hv : PlainValue v) {rest : List Char}
    (hrest : ∀ c ∈ rest.head?, isKeyPart c = false ∧ c ≠ '=') (key acc : List Char) :
    cutPairs key acc false 0 0 (v ++ rest) = cutPairs key (v.reverse ++ acc) (endsInWord v) 0 0 rest := by
  -- The text that was passed decides whether a word goes on and how many parentheses are open.
  have hpart : ∀ r a acc, v = a ++ r →
      cutPairs key acc (endsInWord a) (a.count '(' - a.count ')') 0 (r ++ rest) =
        cutPairs key (r.reverse ++ acc) (endsInWord v) 0 0 rest := by
    intro r
    induction r with
    | nil =>
      intro a acc ha
      rw [List.append_nil] at ha
      rw [← ha, hv.balanced, Nat.sub_self]
      rfl
    | cons c r ih =>
      intro a acc ha
      have hnested := hv.nested a ⟨_, ha.symm⟩
      have hstep : v = (a ++ [c]) ++ r := by rw [ha, List.append_assoc]; rfl
      have hnone : endsInWord a = false → a.count '(' - a.count ')' = 0 → keyAt? (c :: (r ++ rest)) = none := by
        intro hword hdepth
        refine Option.eq_none_iff_forall_ne_some.2 fun k hk => ?_
        obtain ⟨hkey, b, hb⟩ := keyAt?_eq_some_iff.1 hk
        rw [← List.cons_append] at hb
        rcases List.append_eq_append_iff.1 hb with ⟨x, hx, hy⟩ | ⟨x, hx, hy⟩
        · -- The key would have to go on behind the value.
          cases x with
          | nil =>
            rw [List.nil_append] at hy
            exact (hrest '=' (by rw [hy]; rfl)).2 rfl
          | cons d x =>
            obtain ⟨y, rfl⟩ : ∃ y, rest = d :: y := ⟨_, hy⟩
            have hd := hkey.parts d (hx ▸ List.mem_append_right _ List.mem_cons_self)
            rw [(hrest d rfl).1] at hd
            cases hd
        · cases x with
          | nil =>
            rw [List.nil_append] at hy
            exact (hrest '=' (by rw [← hy]; rfl)).2 rfl
          | cons d x =>
            obtain ⟨rfl, -⟩ := List.cons.inj hy
            have hopen := hv.noPair a k x (by rw [ha, hx]) hkey hword
            omega
      rw [List.cons_append, cutPairs_char hnone, depthAfter_count hnested, ← endsInWord_concat a, ih _ _ hstep,
        List.reverse_cons, List.append_assoc]
      rfl
  exact hpart v [] acc rfl

/-! ## 4. Pairs one behind the other -/

/-- Pairs as they are written: an equals sign between a key and its value, commas between the pairs. -/
def pairsText (ps : List (String × String)) : String := ",".intercalate (ps.map fun p => p.1 ++ "=" ++ p.2)

/-- Pairs as they are cut out of their text: all values but the last one keep the comma behind them. -/
def rawPairs : List (String × String) → List (List Char × List Char)
  | [] => []
  | [p] => [(p.1.toList, p.2.toList)]
  | p :: q :: r => (p.1.toList, p.2.toList ++ [',']) :: rawPairs (q :: r)

theorem toList_pairsText_singleton (p : String × String) :
    (pairsText [p]).toList = p.1.toList ++ '=' :: p.2.toList := by
  rw [pairsText, List.map_singleton, String.intercalate_singleton, String.toList_append, String.toList_append,
    List.append_assoc]
  rfl

theorem toList_pairsText_cons (p q : String × String) (r : List (String × String)) :
    (pairsText (p :: q :: r)).toList =
      p.1.toList ++ '=' :: (p.2.toList ++ ',' :: (pairsText (q :: r)).toList) := by
  rw [pairsText, pairsText, List.map_cons, List.map_cons, String.intercalate_cons_cons]
  simp only [String.toList_append, List.append_assoc]
  rfl

/-- Pairs that a tag may give: each key once, and values that can be written. -/
structure PlainPairs (kind : TagKind) (ps : List (String × String)) : Prop where
  keys : ∀ p ∈ ps, p.1 ∈ kind.keys
  once : (ps.map (·.1)).Nodup
  values : ∀ p ∈ ps, PlainValue p.2.toList

instance (kind : TagKind) (ps : List (String × String)) : Decidable (PlainPairs kind ps) :=
  decidable_of_iff ((∀ p ∈ ps, p.1 ∈ kind.keys) ∧ (ps.map (·.1)).Nodup ∧ ∀ p ∈ ps, PlainValue p.2.toList)
    ⟨fun ⟨h1, h2, h3⟩ => ⟨h1, h2, h3⟩, fun h => ⟨h.1, h.2, h.3⟩⟩

section

variable {ps : List (String × String)}

/-- **Pairs are cut at their keys**, and only there. -/
theorem cutPairs_pairsText (hkeys : ∀ p ∈ ps, IsKey p.1.toList) (hvalues : ∀ p ∈ ps, PlainValue p.2.toList)
    (hne : ps ≠ []) (key acc : List Char) :
    cutPairs key acc false 0 0 (pairsText ps).toList = (key, acc.reverse) :: rawPairs ps := by
  fun_induction rawPairs ps generalizing key acc with
  | case1 => exact absurd rfl hne
  | case2 p =>
    have hend : ∀ c ∈ ([] : List Char).head?, isKeyPart c = false ∧ c ≠ '=' := nofun
    have hvalue := cutPairs_value (hvalues p List.mem_cons_self) hend p.1.toList []
    rw [List.append_nil, List.append_nil] at hvalue
    rw [toList_pairsText_singleton, cutPairs_key (hkeys p List.mem_cons_self), hvalue, cutPairs,
      List.reverse_reverse]
  | case3 p q r ih =>
    have hcomma : ∀ s : List Char, keyAt? (',' :: s) = none := fun s => rfl
    have hhead : ∀ c ∈ (',' :: (pairsText (q :: r)).toList).head?, isKeyPart c = false ∧ c ≠ '=' := by
      intro c hc
      obtain rfl := Option.some.inj hc
      decide
    have hword : isWordChar ',' = false := by decide
    rw [toList_pairsText_cons, cutPairs_key (hkeys p List.mem_cons_self),
      cutPairs_value (hvalues p List.mem_cons_self) hhead, cutPairs_char fun _ _ => hcomma _, hword, depthAfter,
      if_neg (by decide), if_neg (by decide),
      ih (fun x hx => hkeys x (List.mem_cons_of_mem _ hx)) (fun x hx => hvalues x (List.mem_cons_of_mem _ hx))
        (List.cons_ne_nil q r), List.append_nil, List.reverse_cons, List.reverse_reverse]

theorem checkPairs_cons {kind : TagKind} {seen : List String} {p : String × String} {v : List Char}
    (hkey : p.1 ∈ kind.keys) (hnew : p.1 ∉ seen) (hvalue : pairValue v = p.2) (r : List (List Char × List Char)) :
    checkPairs kind seen ((p.1.toList, v) :: r) = (checkPairs kind (p.1 :: seen) r).map (p :: ·) := by
  have hfresh : seen.contains p.1 = false := by rw [← Bool.not_eq_true, List.contains_iff_mem]; exact hnew
  rw [checkPairs, String.ofList_toList, List.contains_iff_mem.2 hkey, hfresh, hvalue]
  rfl

/-- **Pairs with plain values are read as they were written.** -/
theorem checkPairs_rawPairs {kind : TagKind} (h : PlainPairs kind ps) {seen : List String}
    (hseen : ∀ p ∈ ps, p.1 ∉ seen) : checkPairs kind seen (rawPairs ps) = .ok ps := by
  obtain ⟨hkeys, honce, hvalues⟩ := h
  fun_induction rawPairs ps generalizing seen with
  | case1 => rfl
  | case2 p =>
    rw [List.forall_mem_singleton] at hkeys hvalues hseen
    rw [checkPairs_cons hkeys hseen hvalues.pairValue_eq.1]
    rfl
  | case3 p q r ih =>
    rw [List.map_cons, List.nodup_cons] at honce
    rw [List.forall_mem_cons] at hkeys hvalues hseen
    have hnew : ∀ x ∈ q :: r, x.1 ∉ p.1 :: seen := by
      intro x hx hmem
      rcases List.mem_cons.1 hmem with hsame | hmem
      · exact honce.1 (hsame ▸ List.mem_map_of_mem hx)
      · exact hseen.2 x hx hmem
    rw [checkPairs_cons hkeys.1 hseen.1 hvalues.1.pairValue_eq.2, ih hnew hkeys.2 honce.2 hvalues.2]
    rfl

end

/-! ## 5. The text of pairs -/

section

variable {ps : List (String × String)}

/-- The text of pairs begins with a key. -/
theorem head?_pairsText (hkeys : ∀ p ∈ ps, IsKey p.1.toList) :
    ∀ c ∈ (pairsText ps).toList.head?, isKeyPart c = true := by
  have hhead : ∀ p ∈ ps, ∀ s c, c ∈ (p.1.toList ++ s).head? → isKeyPart c = true := by
    intro p hp s c hc
    obtain ⟨d, r, hd, hstart⟩ := (hkeys p hp).begins
    rw [hd] at hc
    obtain rfl := Option.some.inj hc
    exact isKeyPart_of_isKeyStart hstart
  match ps with
  | [] => nofun
  | [p] => rw [toList_pairsText_singleton]; exact hhead p List.mem_cons_self _
  | p :: q :: r => rw [toList_pairsText_cons]; exact hhead p List.mem_cons_self _

/-- The text of pairs ends with a value behind an equals sign. -/
theorem exists_last_pairsText (hvalues : ∀ p ∈ ps, PlainValue p.2.toList) (hne : ps ≠ []) :
    ∃ s v, (pairsText ps).toList = s ++ '=' :: v ∧ PlainValue v := by
  fun_induction rawPairs ps with
  | case1 => exact absurd rfl hne
  | case2 p => exact ⟨_, _, toList_pairsText_singleton p, hvalues p List.mem_cons_self⟩
  | case3 p q r ih =>
    obtain ⟨s, v, hs, hv⟩ := ih (fun x hx => hvalues x (List.mem_cons_of_mem _ hx)) (List.cons_ne_nil q r)
    refine ⟨p.1.toList ++ '=' :: (p.2.toList ++ ',' :: s), v, ?_, hv⟩
    simp only [toList_pairsText_cons, hs, List.append_assoc, List.cons_append]

/-- The text of pairs is on one line. -/
theorem oneLine_pairsText (hkeys : ∀ p ∈ ps, IsKey p.1.toList) (hvalues : ∀ p ∈ ps, PlainValue p.2.toList) :
    ∀ c ∈ (pairsText ps).toList, isLineEnd c = false := by
  have hkey : ∀ p ∈ ps, ∀ c ∈ p.1.toList, isLineEnd c = false := fun p hp c hc =>
    isLineEnd_of_not_isBlank (plain_of_isKeyPart ((hkeys p hp).parts c hc)).1
  have hequals : isLineEnd '=' = false ∧ isLineEnd ',' = false := by decide
  fun_induction rawPairs ps with
  | case1 => nofun
  | case2 p =>
    rw [toList_pairsText_singleton, List.forall_mem_append, List.forall_mem_cons]
    exact ⟨hkey p List.mem_cons_self, hequals.1, (hvalues p List.mem_cons_self).oneLine⟩
  | case3 p q r ih =>
    rw [List.forall_mem_cons] at hkeys hvalues hkey
    rw [toList_pairsText_cons, List.forall_mem_append, List.forall_mem_cons, List.forall_mem_append,
      List.forall_mem_cons]
    exact ⟨hkey.1, hequals.1, hvalues.1.oneLine, hequals.2, ih hkeys.2 hvalues.2 hkey.2⟩

/-- The text of pairs holds no tag. -/
theorem lacks_pairsText (hkeys : ∀ p ∈ ps, IsKey p.1.toList) (hvalues : ∀ p ∈ ps, PlainValue p.2.toList)
    (P : TagKind → Prop) : Lacks P (pairsText ps).toList := by
  have hkey : ∀ p ∈ ps, ∀ s, Lacks P (p.1.toList ++ '=' :: s) ↔ Lacks P s := by
    intro p hp s
    have hat : '@' ∉ p.1.toList := fun h => (plain_of_isKeyPart ((hkeys p hp).parts _ h)).2 rfl
    rw [lacks_append_of_not_mem hat, lacks_cons]
    exact and_iff_right fun h => absurd h (by decide)
  fun_induction rawPairs ps with
  | case1 => exact Lacks.nil
  | case2 p =>
    rw [toList_pairsText_singleton, hkey p List.mem_cons_self]
    exact (hvalues p List.mem_cons_self).lacks P
  | case3 p q r ih =>
    rw [List.forall_mem_cons] at hkeys hvalues hkey
    rw [toList_pairsText_cons, hkey.1, lacks_append_cons (by decide), lacks_cons]
    exact ⟨hvalues.1.lacks P, fun h => absurd h (by decide), ih hkeys.2 hvalues.2 hkey.2⟩

end

end NativeGlue.Directive
