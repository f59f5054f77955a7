import NativeGlue.Proofs.Fallible
import NativeGlue.Proofs.Symbol.Descriptor
import NativeGlue.Proofs.Symbol.RoundTrip

/-!
# Entry points taken apart

The name of an entry point is taken apart by two scans: the first one looks for the double underscore
in front of the signature, the second one for the last underscore that stands between segments. Both
pass over the spelling of a character whole (`Scans`). The second scan is right wherever the first one
is. The first one takes any underscore behind a separator for its partner, also the underscore of an
escape, so it is right exactly if no segment behind the first begins with an escape
(`readEntryPoint_entryPoint_iff`).
-/

namespace NativeGlue.Symbol

open NativeGlue.Text

/-! ## 1. Scans -/

/-- A cut of a text, with more text in front. -/
def behind (text : List Char) (cut : List Char × List Char) : List Char × List Char :=
  (text ++ cut.1, cut.2)

theorem map_behind_nil (cut : Option (List Char × List Char)) : cut.map (behind []) = cut := by
  cases cut with
  | none => rfl
  | some x => rfl

theorem map_behind_behind (s t : List Char) (cut : Option (List Char × List Char)) :
    (cut.map (behind t)).map (behind s) = cut.map (behind (s ++ t)) := by
  rw [Option.map_map]
  refine congrArg (fun f => cut.map f) (funext fun x => ?_)
  rw [Function.comp_apply, behind, behind, behind, List.append_assoc]

/-- A scan that passes over characters and escapes. -/
structure Scans (scan : List Char → Option (List Char × List Char)) : Prop where
  char : ∀ {c : Char}, c ≠ '_' → ∀ r, scan (c :: r) = (scan r).map (behind [c])
  escape : ∀ {e r : List Char} {u : Nat}, escape? (e ++ r) = some (u, r) →
    scan ('_' :: (e ++ r)) = (scan r).map (behind ('_' :: e))

theorem take_escape (e r : List Char) : (e ++ r).take ((e ++ r).length - r.length) = e := by
  rw [List.length_append, Nat.add_sub_cancel, List.take_left]

theorem scans_splitSignature? : Scans splitSignature? where
  char h r := by
    rw [splitSignature?, if_neg h]
    rfl
  escape {e r u} h := by
    rw [splitSignature?, if_pos rfl]
    split
    · rename_i h'
      rw [h] at h'
      cases h'
      rw [take_escape]
      rfl
    · rename_i h'
      rw [h] at h'
      cases h'

theorem scans_splitMethod? : Scans splitMethod? where
  char h r := by
    rw [splitMethod?, if_neg h]
    rfl
  escape {e r u} h := by
    rw [splitMethod?, if_pos rfl]
    split
    · rename_i h'
      rw [h] at h'
      cases h'
      rw [take_escape]
      rfl
    · rename_i h'
      rw [h] at h'
      cases h'

section

variable {scan : List Char → Option (List Char × List Char)}

theorem Scans.units (h : Scans scan) {us : List Nat} (hu : ∀ u ∈ us, u < 0x10000) (t : List Char) :
    scan (us.flatMap escapeUnit ++ t) = (scan t).map (behind (us.flatMap escapeUnit)) := by
  induction us with
  | nil => exact (map_behind_nil _).symm
  | cons u us ih =>
    have he := escape?_escapeUnit (hu u List.mem_cons_self) (us.flatMap escapeUnit ++ t)
    rw [← List.cons_append] at he
    rw [List.flatMap_cons, List.append_assoc, ← map_behind_behind,
      ← ih fun x hx => hu x (List.mem_cons_of_mem _ hx)]
    exact h.escape he

/-- A scan passes over the spelling of a character that separates nothing. -/
theorem Scans.mangleChar (h : Scans scan) {c : Char} (hc : ¬(c = '.' ∨ c = '/')) (t : List Char) :
    scan (mangleChar c ++ t) = (scan t).map (behind (Symbol.mangleChar c)) := by
  unfold Symbol.mangleChar
  rw [if_neg hc]
  split
  · exact h.escape (e := ['1']) rfl
  rename_i hu
  split
  · exact h.escape (e := ['2']) rfl
  split
  · exact h.escape (e := ['3']) rfl
  split
  · exact h.char hu t
  · exact h.units (fun u hm => Units.lt_of_mem_ofCodePoint (Units.lt_of_char c) hm) t

/-- A scan passes over the spelling of a segment. -/
theorem Scans.mangleChars (h : Scans scan) {s : List Char} (hs : ∀ c ∈ s, isMark c = false)
    (t : List Char) : scan (mangleChars s ++ t) = (scan t).map (behind (Symbol.mangleChars s)) := by
  induction s with
  | nil => exact (map_behind_nil _).symm
  | cons c r ih =>
    have hc : ¬(c = '.' ∨ c = '/') := by
      have hm := hs c List.mem_cons_self
      rintro (rfl | rfl)
      · cases hm
      · cases hm
    rw [mangleChars_cons, List.append_assoc, h.mangleChar hc,
      ih fun d hd => hs d (List.mem_cons_of_mem _ hd), map_behind_behind]

end

/-! ## 2. The signature -/

/-- Whether a name begins with a letter that is spelled as itself. -/
def beginsWithLetter : List Char → Bool
  | [] => false
  | c :: _ => c.isAlpha

theorem isAlphanum_of_isAlpha {c : Char} (h : c.isAlpha = true) : c.isAlphanum = true :=
  Bool.or_eq_true_iff.2 (.inl h)

/-- The text of segments begins as the first of them does. -/
theorem exists_joined (c : Char) (s : List Char) (r : List (List Char)) :
    ∃ t, joined ((c :: s) :: r) = c :: t := by
  by_cases hr : r = []
  · exact ⟨s, by rw [hr, joined_singleton]⟩
  · exact ⟨_, joined_cons hr (c :: s)⟩

theorem splitSignature?_nil : splitSignature? [] = none := by rw [splitSignature?]

theorem splitSignature?_double (r : List Char) : splitSignature? ('_' :: '_' :: r) = some ([], r) := by
  rw [splitSignature?, if_pos rfl]
  split
  · rename_i h
    cases h
  · rfl

/-- A separator in front of a letter is passed over. -/
theorem splitSignature?_letter {c : Char} (hc : c.isAlpha = true) (r : List Char) :
    splitSignature? ('_' :: c :: r) = (splitSignature? (c :: r)).map (behind ['_']) := by
  have hne : ∀ d : Char, d.isAlpha = false → (c == d) = false := by
    intro d hd
    refine beq_eq_false_iff_ne.2 fun h => ?_
    rw [← h, hc] at hd
    cases hd
  have hescape : (escape? (c :: r)).isSome = false := by
    rw [isSome_escape?, looksEscaped, hne '1' rfl, hne '2' rfl, hne '3' rfl, hne '0' rfl]
    rfl
  have hhead : ¬(c :: r).head? = some '_' := by
    intro h
    have := hne '_' rfl
    rw [Option.some.inj h] at this
    cases this
  rw [splitSignature?, if_pos rfl]
  split
  · rename_i h
    rw [h] at hescape
    cases hescape
  · rw [if_neg hhead]
    rfl

/-- Segments that begin with letters are passed over, and so is a first one that does not. -/
theorem splitSignature?_joined {ss : List (List Char)} (hne : ss ≠ [])
    (hs : ∀ s ∈ ss, IsIdentifier s) (hletter : ∀ s ∈ ss.tail, beginsWithLetter s = true)
    (t : List Char) :
    splitSignature? (mangleChars (joined ss) ++ t) =
      (splitSignature? t).map (behind (mangleChars (joined ss))) := by
  induction ss with
  | nil => exact absurd rfl hne
  | cons s r ih =>
    have hplain := (hs s List.mem_cons_self).plain
    by_cases hr : r = []
    · rw [hr, joined_singleton]
      exact scans_splitSignature?.mangleChars hplain t
    · obtain ⟨x, q, rfl⟩ := List.exists_cons_of_ne_nil hr
      have ih := ih hr (fun y hy => hs y (List.mem_cons_of_mem _ hy))
        fun y hy => hletter y (List.mem_cons_of_mem _ hy)
      obtain ⟨c, w, rfl⟩ := List.exists_cons_of_ne_nil (hs x (by simp)).ne_nil
      have hc : c.isAlpha = true := hletter (c :: w) List.mem_cons_self
      obtain ⟨v, hv⟩ := exists_joined c w q
      have hspelled : mangleChars (joined ((c :: w) :: q)) = c :: mangleChars v := by
        rw [hv]
        exact mangleChars_of_isAlphanum (s := [c])
          (fun d hd => List.mem_singleton.1 hd ▸ isAlphanum_of_isAlpha hc) v
      rw [joined_cons hr, mangleChars_append, mangleChars_cons, mangleChar_separator (.inr rfl),
        List.append_assoc, scans_splitSignature?.mangleChars hplain, ← map_behind_behind]
      refine congrArg (Option.map (behind (mangleChars s))) ?_
      rw [← map_behind_behind, ← ih, List.append_assoc, hspelled]
      exact splitSignature?_letter hc _

/-- A segment that begins with no letter is taken for a signature. -/
theorem splitSignature?_astray {ss ts : List (List Char)} {s : List Char} (hne : ss ≠ [])
    (hs : ∀ x ∈ ss, IsIdentifier x) (hletter : ∀ x ∈ ss.tail, beginsWithLetter x = true)
    (hid : IsIdentifier s) (hbad : beginsWithLetter s = false) (t : List Char) :
    ∃ r, splitSignature? (mangleChars (joined (ss ++ s :: ts)) ++ t) =
      some (mangleChars (joined ss), r) := by
  obtain ⟨c, w, rfl, hdigit⟩ := hid.begins
  obtain ⟨v, hv⟩ := exists_joined c w ts
  have hspelled : ∃ e, mangleChar c = '_' :: e := by
    obtain ⟨hc, -⟩ | ⟨-, he⟩ := mangleChar_cases c
    · rcases Bool.or_eq_true_iff.1 hc with hc | hc
      · rw [beginsWithLetter, hc] at hbad
        cases hbad
      · rw [hdigit] at hc
        cases hc
    · exact he
  obtain ⟨e, he⟩ := hspelled
  rw [joined_append_joined hne (List.cons_ne_nil _ _), hv, mangleChars_append, mangleChars_cons,
    mangleChars_cons, mangleChar_separator (.inr rfl), he, List.append_assoc,
    splitSignature?_joined hne hs hletter]
  exact ⟨_, by rw [List.append_assoc, List.singleton_append, List.cons_append, List.cons_append,
    splitSignature?_double, Option.map_some, behind, List.append_nil]⟩

/-! ## 3. The method -/

theorem splitMethod?_nil : splitMethod? [] = none := by rw [splitMethod?]

/-- A separator counts if there is none behind it. -/
theorem splitMethod?_separator {r : List Char} (h : (escape? r).isSome = false) :
    splitMethod? ('_' :: r) = some (((splitMethod? r).map (behind ['_'])).getD ([], r)) := by
  rw [splitMethod?, if_pos rfl]
  split
  · rename_i h'
    rw [h'] at h
    cases h
  · cases splitMethod? r with
    | none => rfl
    | some cut => rfl

/-- A single segment has no separator. -/
theorem splitMethod?_identifier {m : List Char} (hm : IsIdentifier m) :
    splitMethod? (mangleChars m) = none := by
  have h := scans_splitMethod?.mangleChars hm.plain []
  rw [List.append_nil, splitMethod?_nil] at h
  exact h

/-- **The last separator stands in front of the last segment.** -/
theorem splitMethod?_joined {ss : List (List Char)} {m : List Char} (hne : ss ≠ [])
    (hs : ∀ s ∈ ss, IsIdentifier s) (hm : IsIdentifier m) :
    splitMethod? (mangleChars (joined (ss ++ [m]))) = some (mangleChars (joined ss), mangleChars m) := by
  induction ss with
  | nil => exact absurd rfl hne
  | cons s r ih =>
    have hrest : r ++ [m] ≠ [] := List.append_ne_nil_of_right_ne_nil _ (List.cons_ne_nil _ _)
    have hids : ∀ x ∈ r ++ [m], IsIdentifier x := by
      intro x hx
      rcases List.mem_append.1 hx with hx | hx
      · exact hs x (List.mem_cons_of_mem _ hx)
      · exact List.mem_singleton.1 hx ▸ hm
    have hescape : (escape? (mangleChars (joined (r ++ [m])))).isSome = false := by
      have h := (readable_joined hrest hids (t := []) trivial).2
      rw [List.append_nil] at h
      exact (isSome_escape?_mangleChars _).trans h
    rw [List.cons_append, joined_cons hrest, mangleChars_append, mangleChars_cons,
      mangleChar_separator (.inr rfl), List.singleton_append,
      scans_splitMethod?.mangleChars (hs s List.mem_cons_self).plain, splitMethod?_separator hescape]
    by_cases hr : r = []
    · rw [hr, List.nil_append, joined_singleton, joined_singleton, splitMethod?_identifier hm]
      exact congrArg some (Prod.ext (List.append_nil _) rfl)
    · rw [ih hr fun x hx => hs x (List.mem_cons_of_mem _ hx), joined_cons hr, mangleChars_append,
        mangleChars_cons, mangleChar_separator (.inr rfl)]
      rfl

/-! ## 4. Dots -/

/-- The units of a text with dots for its slashes. -/
theorem map_ofText (s : List Char) :
    ((Units.ofText s).map fun u => if u == '/'.toNat then '.'.toNat else u) =
      Units.ofText (s.map fun c => if c = '/' then '.' else c) := by
  induction s with
  | nil => rfl
  | cons c r ih =>
    rw [List.map_cons, Units.ofText_cons, Units.ofText_cons, List.map_append, ih]
    congr 1
    by_cases hc : c = '/'
    · rw [hc]
      rfl
    · rw [if_neg hc]
      conv => rhs; rw [← List.map_id (Units.ofCodePoint c.toNat)]
      refine List.map_congr_left fun u hu => ?_
      have hne : u ≠ '/'.toNat := by
        intro h
        unfold Units.ofCodePoint at hu
        split at hu
        · exact hc (Char.toNat_inj.1 ((List.mem_singleton.1 hu).symm.trans h))
        · rw [h] at hu
          simp only [List.mem_cons, List.not_mem_nil, or_false] at hu
          have hslash : '/'.toNat = 47 := rfl
          omega
      rw [beq_eq_false_iff_ne.2 hne]
      rfl

/-- Segments with slashes between them are the segments with dots once slashes are dots. -/
theorem dotted_joined {ss : List (List Char)} (h : ∀ s ∈ ss, IsIdentifier s) :
    ((joined ss).map fun c => if c = '/' then '.' else c) = ['.'].intercalate ss := by
  have plain : ∀ {s}, IsIdentifier s → (s.map fun c => if c = '/' then '.' else c) = s := by
    intro s hs
    conv => rhs; rw [← List.map_id s]
    refine List.map_congr_left fun c hc => ?_
    have hne : c ≠ '/' := fun he => hs.not_mem (c := '/') rfl (he ▸ hc)
    rw [if_neg hne]
    rfl
  induction ss with
  | nil => rfl
  | cons s r ih =>
    have hs := plain (h s List.mem_cons_self)
    by_cases hr : r = []
    · rw [hr, List.intercalate_singleton, joined_singleton, hs]
    · rw [List.intercalate_cons_of_ne_nil hr, joined_cons hr, List.map_append, List.map_cons, hs,
        ih fun x hx => h x (List.mem_cons_of_mem _ hx), List.append_assoc]
      rfl

/-- A class name is read back with its dots. -/
theorem demangle_joined {ss : List (List Char)} (hne : ss ≠ []) (hs : ∀ s ∈ ss, IsIdentifier s) :
    ∃ us, demangle (mangleChars (joined ss)) = .ok us ∧
      (us.map fun u => if u == '/'.toNat then '.'.toNat else u) =
        Units.ofText (['.'].intercalate ss) := by
  have hread := (readable_joined hne hs (t := []) trivial).1
  rw [List.append_nil] at hread
  refine ⟨_, demangle_mangleChars hread, ?_⟩
  have hdot : '.' ∉ joined ss := not_mem_joined hs rfl (by decide)
  rw [slashed_of_not_mem hdot, map_ofText, dotted_joined hs]

/-- A name of its own is read back as it is. -/
theorem demangle_identifier {m : List Char} (hm : IsIdentifier m) :
    demangle (mangleChars m) = .ok (Units.ofText m) := by
  have hread := readable_append hm.plain (t := []) trivial
  rw [List.append_nil] at hread
  rw [demangle_mangleChars hread, slashed_of_not_mem (hm.not_mem rfl)]

theorem demangle_signature {s : List Char} (hs : IsSignature s) :
    demangle (mangleChars s) = .ok (Units.ofText s) := by
  rw [demangle_mangleChars hs.readable, slashed_of_not_mem hs.undotted]

/-! ## 5. Entry points -/

/-- The parts of an entry point as the units of texts. -/
def EntryParts.ofTexts (className methodName : String) (signature : Option String) : EntryParts :=
  ⟨Units.ofText className.toList, Units.ofText methodName.toList,
    signature.map fun s => Units.ofText s.toList⟩

/-- The characters of an entry point behind the mark that all begin with. -/
theorem toList_entryPoint {className : String} {ss : List (List Char)}
    (h : IsDotted className ss) (name : String) (signature : Option String) :
    (entryPoint className name signature).toList =
      entryMark ++ mangleChars (spelled (ss ++ [name.toList]) (signature.map String.toList)) := by
  rw [entryPoint, String.toList_append, String.toList_ofList, toList_methodSymbol h]

theorem isPrefixOf_entryMark (body : List Char) :
    entryMark.isPrefixOf (entryMark ++ body) = true :=
  List.isPrefixOf_iff_prefix.2 (List.prefix_append _ _)

/-- What is read where the signature is cut off. -/
def readNames (symbol : String) (signature : Option (List Nat)) (front : List Char) :
    Except Fault EntryParts :=
  match splitMethod? front with
  | none => .error (.notAnEntryPoint symbol)
  | some (before, after) => do
    let c ← demangle before
    let m ← demangle after
    pure ⟨c.map fun u => if u == '/'.toNat then '.'.toNat else u, m, signature⟩

/-- First the signature is read, then the names. -/
theorem readEntryPoint_eq {symbol : String} {body : List Char}
    (h : symbol.toList = entryMark ++ body) :
    readEntryPoint symbol = match splitSignature? body with
      | none => readNames symbol none body
      | some cut => demangle cut.2 >>= fun s => readNames symbol (some s) cut.1 := by
  unfold readEntryPoint
  rw [h, isPrefixOf_entryMark]
  dsimp only
  rw [List.drop_left]
  cases splitSignature? body with
  | none => rfl
  | some cut => rfl

theorem readNames_joined {ss : List (List Char)} {m : List Char} (hne : ss ≠ [])
    (hs : ∀ s ∈ ss, IsIdentifier s) (hm : IsIdentifier m) (symbol : String)
    (signature : Option (List Nat)) :
    readNames symbol signature (mangleChars (joined (ss ++ [m]))) =
      .ok ⟨Units.ofText (['.'].intercalate ss), Units.ofText m, signature⟩ := by
  obtain ⟨us, hus, hdotted⟩ := demangle_joined hne hs
  unfold readNames
  rw [splitMethod?_joined hne hs hm]
  dsimp only
  rw [hus, demangle_identifier hm, ← hdotted]
  rfl

/-- Segments that begin with letters are read back, and so is the signature behind them. -/
theorem readEntryPoint_joined {symbol : String} {ss : List (List Char)} {m : List Char}
    {signature : Option (List Char)}
    (h : symbol.toList = entryMark ++ mangleChars (spelled (ss ++ [m]) signature)) (hne : ss ≠ [])
    (hs : ∀ s ∈ ss, IsIdentifier s) (hm : IsIdentifier m) (hsig : ∀ s ∈ signature, IsSignature s)
    (hletter : ∀ s ∈ ss.tail ++ [m], beginsWithLetter s = true) :
    readEntryPoint symbol = .ok ⟨Units.ofText (['.'].intercalate ss), Units.ofText m,
      signature.map Units.ofText⟩ := by
  have hids : ∀ s ∈ ss ++ [m], IsIdentifier s := by
    intro s hm'
    rcases List.mem_append.1 hm' with hm' | hm'
    · exact hs s hm'
    · exact List.mem_singleton.1 hm' ▸ hm
  have hscan := splitSignature?_joined (List.append_ne_nil_of_left_ne_nil hne [m]) hids
    (by rwa [List.tail_append_of_ne_nil hne])
  rw [readEntryPoint_eq h, spelled, mangleChars_append, hscan]
  cases signature with
  | none =>
    rw [signatureTail, mangleChars_nil, splitSignature?_nil, List.append_nil]
    exact readNames_joined hne hs hm symbol none
  | some s =>
    have htail : mangleChars (signatureTail (some s)) = '_' :: '_' :: mangleChars s := rfl
    rw [htail, splitSignature?_double, Option.map_some, behind, List.append_nil]
    dsimp only
    rw [demangle_signature (hsig s rfl)]
    exact readNames_joined hne hs hm symbol _

/-- The class that is read ends where a segment that begins with no letter is taken for a signature. -/
theorem className_of_readEntryPoint {symbol : String} {ss ts : List (List Char)} {s : List Char}
    {signature : Option (List Char)}
    (h : symbol.toList = entryMark ++ mangleChars (spelled (ss ++ s :: ts) signature)) (hne : ss ≠ [])
    (hs : ∀ x ∈ ss, IsIdentifier x) (hletter : ∀ x ∈ ss.tail, beginsWithLetter x = true)
    (hid : IsIdentifier s) (hbad : beginsWithLetter s = false) {p : EntryParts}
    (hp : readEntryPoint symbol = .ok p) :
    ∃ qs m, ss = qs ++ [m] ∧ qs ≠ [] ∧ p.className = Units.ofText (['.'].intercalate qs) := by
  obtain ⟨r, hr⟩ := @splitSignature?_astray ss ts s hne hs hletter hid hbad
    (mangleChars (signatureTail signature))
  rw [readEntryPoint_eq h, spelled, mangleChars_append, hr] at hp
  obtain ⟨us, -, hp⟩ := ok_of_bind hp
  obtain ⟨qs, m, rfl⟩ : ∃ qs m, ss = qs ++ [m] := ⟨_, _, (List.dropLast_append_getLast hne).symm⟩
  have hm : IsIdentifier m := hs m (List.mem_append_right _ List.mem_cons_self)
  by_cases hqs : qs = []
  · rw [hqs, List.nil_append, joined_singleton] at hp
    unfold readNames at hp
    rw [splitMethod?_identifier hm] at hp
    cases hp
  · rw [readNames_joined hqs (fun x hx => hs x (List.mem_append_left _ hx)) hm] at hp
    cases hp
    exact ⟨qs, m, rfl, hqs, rfl⟩

/-- **An entry point is read back as the class, the method and the signature that it was made of
exactly if all segments behind the first begin with letters.** Any other segment is spelled with an
escape at its beginning, and the underscore of the escape makes a double one of the separator. -/
theorem readEntryPoint_entryPoint_iff {className methodName : String} {segments : List (List Char)}
    {signature : Option String} (hne : segments ≠ []) (hs : ∀ s ∈ segments, IsIdentifier s)
    (hclass : className.toList = ['.'].intercalate segments) (hmethod : IsIdentifier methodName.toList)
    (hsignature : ∀ s ∈ signature, ∃ ds : List (List Char),
      (∀ d ∈ ds, IsDescriptor d) ∧ s.toList = ds.flatten) :
    readEntryPoint (entryPoint className methodName signature) =
        .ok (.ofTexts className methodName signature) ↔
      ∀ s ∈ segments.tail ++ [methodName.toList], beginsWithLetter s = true := by
  have hdotted : IsDotted className segments := ⟨hne, hs, by rw [hclass, slashed_intercalate hs]⟩
  have hlist := toList_entryPoint hdotted methodName signature
  have hsig : ∀ s ∈ signature.map String.toList, IsSignature s := by
    intro s hs'
    obtain ⟨t, ht, rfl⟩ := Option.map_eq_some_iff.1 hs'
    obtain ⟨ds, hds, he⟩ := hsignature t ht
    exact he ▸ isSignature_flatten hds
  constructor
  · intro h
    refine Classical.byContradiction fun hnot => ?_
    obtain ⟨first, rest, rfl⟩ := List.exists_cons_of_ne_nil hne
    rw [List.tail_cons] at hnot
    -- The first segment behind the first one that begins with no letter.
    have hfind : ((rest ++ [methodName.toList]).find? fun s => !beginsWithLetter s).isSome = true := by
      rw [List.find?_isSome]
      refine Classical.byContradiction fun hnone => hnot fun s hm => ?_
      refine Classical.byContradiction fun hb => hnone ⟨s, hm, ?_⟩
      rw [Bool.eq_false_iff.2 hb]
      rfl
    obtain ⟨s, hfind⟩ := Option.isSome_iff_exists.1 hfind
    obtain ⟨hbad, before, after, hsplit, hletter⟩ := List.find?_eq_some_iff_append.1 hfind
    have hids : ∀ x ∈ (first :: before) ++ s :: after, IsIdentifier x := by
      rw [List.cons_append, ← hsplit]
      intro x hx
      rcases List.mem_cons.1 hx with rfl | hx
      · exact hs x List.mem_cons_self
      rcases List.mem_append.1 hx with hx | hx
      · exact hs x (List.mem_cons_of_mem _ hx)
      · exact List.mem_singleton.1 hx ▸ hmethod
    rw [List.cons_append, hsplit, ← List.cons_append] at hlist
    obtain ⟨qs, m, hq, hqs, hname⟩ := className_of_readEntryPoint hlist (List.cons_ne_nil _ _)
      (fun x hx => hids x (List.mem_append_left _ hx))
      (fun x hx => by simpa using hletter x hx)
      (hids s (List.mem_append_right _ List.mem_cons_self)) (by simpa using hbad) h
    have htext := Units.ofText_injective (show Units.ofText className.toList = _ from hname)
    have hidq : ∀ x ∈ qs, IsIdentifier x := fun x hx =>
      hids x (List.mem_append_left _ (hq ▸ List.mem_append_left _ hx))
    have hjoined : spelled (first :: rest) none = spelled qs none := by
      unfold spelled
      rw [← slashed_intercalate hs, ← slashed_intercalate hidq, ← hclass, htext]
    obtain ⟨hsame, -⟩ := spelled_injective (List.cons_ne_nil _ _) hqs hs hidq hjoined
    have hlength := congrArg List.length hsplit
    have hlength' := congrArg List.length hq
    rw [← hsame] at hlength'
    simp only [List.length_append, List.length_cons, List.length_nil] at hlength hlength'
    omega
  · intro h
    rw [readEntryPoint_joined hlist hne hs hmethod hsig h, ← hclass, EntryParts.ofTexts, Option.map_map]
    rfl

/-- A class in a package, with a letter in a segment that is spelled with an escape, and a signature that
begins with a bracket. -/
theorem readEntryPoint_overload :
    readEntryPoint (entryPoint "org.aÜ.OS" "gtk_init" (some "[ILp/Q;")) =
      .ok (.ofTexts "org.aÜ.OS" "gtk_init" (some "[ILp/Q;")) := by
  refine (@readEntryPoint_entryPoint_iff _ _ ["org".toList, "aÜ".toList, "OS".toList] _
    (List.cons_ne_nil _ _) (by decide) (by decide) (by decide) ?_).2 (by decide)
  rintro s ⟨⟩
  have hq : IsDescriptor "Lp/Q;".toList :=
    @IsDescriptor.object ["p".toList, "Q".toList] (List.cons_ne_nil _ _) (by decide)
  refine ⟨["[I".toList, "Lp/Q;".toList], ?_, by decide⟩
  rintro d (_ | ⟨_, _ | ⟨_, ⟨⟩⟩⟩)
  · exact .array (.letter (by decide))
  · exact hq

/-- The underscore that a method begins with is taken for half of a separator, so nothing is left for
the method. -/
theorem misread_underscore :
    IsIdentifier "A".toList ∧ IsIdentifier "_f".toList ∧ entryPoint "A" "_f" none = "Java_A__1f" ∧
      readEntryPoint (entryPoint "A" "_f" none) = .error (.notAnEntryPoint "Java_A__1f") := by
  have hname : entryPoint "A" "_f" none = "Java_A__1f" := by decide
  refine ⟨by decide, by decide, hname, ?_⟩
  have hcut : splitSignature? ['A', '_', '_', '1', 'f'] = some (['A'], ['1', 'f']) := by
    rw [scans_splitSignature?.char (by decide), splitSignature?_double]
    rfl
  have hone : splitMethod? ['A'] = none := splitMethod?_identifier (m := ['A']) (by decide)
  have hread : demangle ['1', 'f'] = .ok (Units.ofText ['1', 'f']) :=
    demangle_mangleChars (s := ['1', 'f']) (by decide)
  have hbody : ("Java_A__1f" : String).toList = entryMark ++ ['A', '_', '_', '1', 'f'] := by decide
  rw [hname, readEntryPoint_eq hbody, hcut]
  dsimp only
  rw [hread]
  refine Eq.trans (b := readNames _ _ ['A']) rfl ?_
  unfold readNames
  rw [hone]

end NativeGlue.Symbol
