import NativeGlue.Proofs.Directive.Headings
import NativeGlue.Proofs.Flags

/-!
# Tags that are repeated

A comment may hold several tags about one thing. Each of them is read alone, so they cannot contradict one another,
and the last one takes the place of all before it: a pair of any of them is reflected in what is read exactly if
the last one repeats it (`reflected_iff`). What only an earlier one says is dropped (`dropped_method`).
-/

namespace NativeGlue.Directive

open NativeGlue.Data NativeGlue.Text

/-! ## 1. What tags say -/

theorem kind_of (kind : TagKind) (subject : String) : (Heading.of kind subject).kind = kind := by
  cases kind <;> rfl

/-- A tag gives pairs about a heading. -/
def Tag.Says (t : Tag) (h : Heading) (ps : List (String × String)) : Prop :=
  ∃ subject, readPairs t = .ok (some (subject, ps)) ∧ Heading.of t.kind subject = h

theorem keys_of_checkPairs {kind : TagKind} {seen : List String} {raw : List (List Char × List Char)}
    {ps : List (String × String)} (h : checkPairs kind seen raw = .ok ps) :
    (∀ p ∈ ps, p.1 ∈ kind.keys ∧ p.1 ∉ seen) ∧ (ps.map (·.1)).Nodup := by
  induction raw generalizing seen ps with
  | nil =>
    obtain rfl := Except.ok.inj h
    exact ⟨nofun, List.nodup_nil⟩
  | cons p raw ih =>
    rw [checkPairs] at h
    split at h
    · cases h
    split at h
    · cases h
    rename_i hknown hnew
    simp only [Bool.not_eq_true', Bool.not_eq_false, List.contains_iff_mem] at hknown hnew
    obtain ⟨qs, hqs, rfl⟩ := ok_of_map h
    obtain ⟨hkeys, hnodup⟩ := ih hqs
    rw [List.map_cons, List.nodup_cons, List.forall_mem_cons]
    refine ⟨⟨⟨hknown, hnew⟩, fun q hq => ⟨(hkeys q hq).1, ?_⟩⟩, fun hmem => ?_, hnodup⟩
    · exact fun hs => (hkeys q hq).2 (List.mem_cons_of_mem _ hs)
    · obtain ⟨q, hq, hsame⟩ := List.mem_map.1 hmem
      exact (hkeys q hq).2 (hsame ▸ List.mem_cons_self)

section

variable {t : Tag} {h : Heading} {ps : List (String × String)}

/-- The pairs of a tag have keys that its heading knows, each of them once. -/
theorem Tag.Says.keys (hs : t.Says h ps) : (∀ p ∈ ps, p.1 ∈ h.kind.keys) ∧ (ps.map (·.1)).Nodup := by
  obtain ⟨subject, hread, rfl⟩ := hs
  rw [kind_of]
  unfold readPairs at hread
  split at hread
  · cases hread
  · split at hread
    · dsimp only at hread
      split at hread
      · cases hread
      · obtain ⟨qs, hqs, heq⟩ := ok_of_map hread
        obtain ⟨-, rfl⟩ := Prod.mk.inj (Option.some.inj heq)
        obtain ⟨hkeys, hnodup⟩ := keys_of_checkPairs hqs
        exact ⟨fun p hp => (hkeys p hp).1, hnodup⟩
    · cases hread

theorem Tag.Says.unique {qs : List (String × String)} {h' : Heading} (hs : t.Says h ps) (hs' : t.Says h' qs) :
    ps = qs := by
  obtain ⟨_, hread, -⟩ := hs
  obtain ⟨_, hread', -⟩ := hs'
  rw [hread] at hread'
  exact (Prod.mk.inj (Option.some.inj (Except.ok.inj hread'))).2

theorem Tag.Says.valueIn_eq (hs : t.Says h ps) {p : String × String} (hp : p ∈ ps) : valueIn ps p.1 = p.2 := by
  rw [valueIn, lookup_of_mem hs.keys.2 hp]
  rfl

theorem Tag.Says.asks_eq (hs : t.Says h ps) : t.asks = (h.asks (valueIn ps)).map some := by
  obtain ⟨subject, hread, rfl⟩ := hs
  rw [Tag.asks, hread]
  rfl

/-- A tag that asks for something says so by its pairs. -/
theorem says_of_asks {a : Asked} (ha : t.asks = .ok (some a)) :
    ∃ ps, t.Says a.heading ps ∧ a.heading.asks (valueIn ps) = .ok a := by
  obtain ⟨found, hread, ha⟩ := ok_of_bind ha
  cases found with
  | none => cases ha
  | some x =>
    obtain ⟨subject, ps⟩ := x
    obtain ⟨a', ha', heq⟩ := ok_of_map ha
    obtain rfl := Option.some.inj heq
    have hheading := heading_of_asks ha'
    exact ⟨ps, ⟨subject, hread, hheading.symm⟩, hheading ▸ ha'⟩

end

/-! ## 2. What is asked for -/

def Asked.flagWords : Asked → List String
  | .method o => o.flags.words
  | .param _ o => o.flags.words
  | .field o => o.flags.words
  | .struct o => o.flags.words

def Asked.owner? : Asked → Option Ownership
  | .param _ o => o.ownership
  | _ => none

def Asked.cast? : Asked → Option String
  | .method o => o.cast
  | .param _ o => o.cast
  | .field o => o.cast
  | .struct _ => none

def Asked.accessor? : Asked → Option String
  | .method o => o.accessor
  | .param _ _ => none
  | .field o => o.accessor
  | .struct o => o.accessor

def Asked.length? : Asked → Option String
  | .param _ o => o.length
  | _ => none

def Asked.platforms : Asked → List String
  | .field o => o.platforms
  | _ => []

def Asked.offset? : Asked → Option Offset
  | .field o => o.offset
  | _ => none

/-- A pair is reflected in what is asked for. -/
structure Asked.Reflects (a : Asked) (p : String × String) : Prop where
  flags : p.1 = "flags" → ∀ w ∈ Value.textWords p.2,
    w ∈ a.flagWords ∨ ∃ o, Ownership.ofFlag? w = some o ∧ a.owner? = some o
  cast : p.1 = "cast" → a.cast? = some p.2
  accessor : p.1 = "accessor" → a.accessor? = some p.2
  length : p.1 = "length" → a.length? = some p.2
  platform : p.1 = "platform" → a.platforms = Value.textWords p.2
  offset : p.1 = "offset" → ∃ n, readIntLiteral? p.2 = some n ∧ a.offset? = some (.int n)

/-- A pair is reflected in what was read. -/
def DocOptions.Reflects (d : DocOptions) (h : Heading) (p : String × String) : Prop :=
  ∃ a, d.get? h = some a ∧ a.Reflects p

/-- Two words say the same about a heading: they are one, or they select the same owner of a parameter. -/
def Heading.SameFlag (h : Heading) (w w' : String) : Prop :=
  w = w' ∨ h.kind = .param ∧ ∃ o, Ownership.ofFlag? w = some o ∧ Ownership.ofFlag? w' = some o

/-- A tag with some texts under its keys says again what a pair says. -/
structure Heading.Repeats (h : Heading) (value : String → String) (p : String × String) : Prop where
  flags : p.1 = "flags" → ∀ w ∈ Value.textWords p.2, ∃ w' ∈ Value.textWords (value p.1), h.SameFlag w w'
  text : p.1 ∈ ["cast", "accessor", "length"] → value p.1 = p.2
  platform : p.1 = "platform" → Value.textWords (value p.1) = Value.textWords p.2
  offset : p.1 = "offset" → readIntLiteral? (value p.1) = readIntLiteral? p.2

/-- What is asked for is what the texts under the keys say. -/
structure Heading.Answers (h : Heading) (value : String → String) (a : Asked) : Prop where
  flags : ∀ w, (w ∈ a.flagWords ∨ ∃ o, Ownership.ofFlag? w = some o ∧ a.owner? = some o) ↔
    ∃ w' ∈ Value.textWords (value "flags"), h.SameFlag w w'
  cast : "cast" ∈ h.kind.keys → a.cast? = given? (value "cast")
  accessor : "accessor" ∈ h.kind.keys → a.accessor? = given? (value "accessor")
  length : "length" ∈ h.kind.keys → a.length? = given? (value "length")
  platform : "platform" ∈ h.kind.keys → a.platforms = Value.textWords (value "platform")
  offset : "offset" ∈ h.kind.keys → offsetOf (value "offset") = .ok a.offset?

/-- The words of a set that was read are the words it was read from, where no owner can be selected. -/
theorem sameFlag_iff {F : Type} [FlagSet F] {words : F → List String} (hwords : Worded words) {ws : List String}
    {f : F} (hf : flagsOf ws = .ok f) {h : Heading} (hkind : h.kind ≠ .param) (w : String) :
    (w ∈ words f ∨ ∃ o, Ownership.ofFlag? w = some o ∧ none = some o) ↔ ∃ w' ∈ ws, h.SameFlag w w' := by
  rw [hwords.mem_iff (ok_of_mapError hf)]
  simp [Heading.SameFlag, hkind]

/-- **What a tag asks for is what its texts say.** -/
theorem answers_of_asks {h : Heading} {value : String → String} {a : Asked} (ha : h.asks value = .ok a) :
    h.Answers value a := by
  cases h with
  | method =>
    obtain ⟨flags, hflags, ha⟩ := ok_of_bind ha
    obtain rfl := Except.ok.inj ha
    have hsame := sameFlag_iff worded_methodFlags hflags (show Heading.method.kind ≠ .param by decide)
    exact ⟨hsame, fun _ => rfl, fun _ => rfl,
      fun h => absurd h (by decide), fun h => absurd h (by decide), fun h => absurd h (by decide)⟩
  | param name =>
    obtain ⟨⟨ownership, words⟩, hsplit, ha⟩ := ok_of_bind ha
    obtain ⟨flags, hflags, ha⟩ := ok_of_bind ha
    obtain rfl := Except.ok.inj ha
    have hfrom : splitOwnershipFrom none (Value.textWords (value "flags")) = .ok (ownership, words) :=
      ok_of_mapError hsplit
    obtain ⟨hrest, howner⟩ := splitOwnershipFrom_ok hfrom
    have hothers : ∀ key ∈ ["accessor", "platform", "offset"], key ∉ TagKind.param.keys := by decide
    refine ⟨fun w => ?_, fun _ => rfl, fun h => absurd h (hothers _ (by simp)), fun _ => rfl,
      fun h => absurd h (hothers _ (by simp)), fun h => absurd h (hothers _ (by simp))⟩
    have hmem := worded_paramFlags.mem_iff (ok_of_mapError hflags) w
    rw [hrest] at hmem
    constructor
    · rintro (hw | ⟨o, hw, ho⟩)
      · exact ⟨w, (List.mem_filter.1 (hmem.1 hw)).1, .inl rfl⟩
      · obtain ⟨w', hw', ho'⟩ := ((howner o).1 ho).resolve_left nofun
        exact ⟨w', hw', .inr ⟨rfl, o, hw, ho'⟩⟩
    · rintro ⟨w', hw', rfl | ⟨-, o, hw, ho⟩⟩
      · cases how : Ownership.ofFlag? w with
        | none => exact .inl (hmem.2 (List.mem_filter.2 ⟨hw', by rw [how]; rfl⟩))
        | some o => exact .inr ⟨o, rfl, (howner o).2 (.inr ⟨w, hw', how⟩)⟩
      · exact .inr ⟨o, hw, (howner o).2 (.inr ⟨w', hw', ho⟩)⟩
  | field =>
    obtain ⟨offset, hoffset, ha⟩ := ok_of_bind ha
    obtain ⟨flags, hflags, ha⟩ := ok_of_bind ha
    obtain rfl := Except.ok.inj ha
    have hsame := sameFlag_iff worded_fieldFlags hflags (show Heading.field.kind ≠ .param by decide)
    exact ⟨hsame, fun _ => rfl, fun _ => rfl,
      fun h => absurd h (by decide), fun _ => by simp only [Asked.platforms], fun _ => hoffset⟩
  | struct =>
    obtain ⟨flags, hflags, ha⟩ := ok_of_bind ha
    obtain rfl := Except.ok.inj ha
    have hsame := sameFlag_iff worded_structFlags hflags (show Heading.struct.kind ≠ .param by decide)
    exact ⟨hsame, fun h => absurd h (by decide), fun _ => rfl,
      fun h => absurd h (by decide), fun h => absurd h (by decide), fun h => absurd h (by decide)⟩

theorem given?_eq_some_iff {s t : String} : given? s = some t ↔ s = t ∧ t ≠ "" := by
  unfold given?
  split
  · rename_i hs
    refine ⟨nofun, fun h => absurd (h.1.symm.trans hs) h.2⟩
  · rename_i hs
    refine ⟨fun h => ?_, fun h => congrArg some h.1⟩
    obtain rfl := Option.some.inj h
    exact ⟨rfl, hs⟩

/-- An offset is read as an integer literal. -/
theorem offsetOf_ok {s : String} {o : Option Offset} (h : offsetOf s = .ok o) (n : Int) :
    o = some (.int n) ↔ readIntLiteral? s = some n := by
  unfold offsetOf at h
  cases hs : given? s with
  | none =>
    have hempty : s = "" := by
      by_contra hne
      rw [given?_eq_some_iff.2 ⟨rfl, hne⟩] at hs
      cases hs
    rw [hs] at h
    obtain rfl := Except.ok.inj h
    have hnone : readIntLiteral? "" = none := by decide
    rw [hempty, hnone]
    exact ⟨nofun, nofun⟩
  | some t =>
    obtain ⟨rfl, -⟩ := given?_eq_some_iff.1 hs
    rw [hs] at h
    dsimp only at h
    split at h
    · rename_i m hm
      obtain rfl := Except.ok.inj h
      rw [hm]
      exact ⟨fun h => congrArg some (Offset.int.inj (Option.some.inj h)), fun h => by rw [Option.some.inj h]⟩
    · cases h

theorem isSome_of_offsetOf {s : String} {o : Option Offset} (h : offsetOf s = .ok o) (hne : s ≠ "") :
    (readIntLiteral? s).isSome = true := by
  rw [offsetOf, given?_eq_some_iff.2 ⟨rfl, hne⟩] at h
  dsimp only at h
  cases hs : readIntLiteral? s with
  | none =>
    rw [hs] at h
    cases h
  | some n => rfl

/-- **A pair is reflected exactly if the texts under the keys say the same again.** -/
theorem Heading.Answers.reflects_iff {h : Heading} {value : String → String} {a : Asked} (ha : h.Answers value a)
    {p : String × String} (hkey : p.1 ∈ h.kind.keys) (hne : p.2 ≠ "")
    (hoffset : p.1 = "offset" → (readIntLiteral? p.2).isSome = true) : a.Reflects p ↔ h.Repeats value p := by
  obtain ⟨key, v⟩ := p
  dsimp only at hkey hne hoffset
  have hgiven : ∀ {x : Option String} {k}, x = given? (value k) → (x = some v ↔ value k = v) := by
    intro x k hx
    rw [hx, given?_eq_some_iff]
    exact and_iff_left hne
  constructor
  · intro hr
    refine ⟨?_, ?_, ?_, ?_⟩
    · rintro rfl w hw
      exact (ha.flags w).1 (hr.flags rfl w hw)
    · intro hk
      simp only [List.mem_cons, List.not_mem_nil, or_false] at hk
      rcases hk with rfl | rfl | rfl
      · exact (hgiven (ha.cast hkey)).1 (hr.cast rfl)
      · exact (hgiven (ha.accessor hkey)).1 (hr.accessor rfl)
      · exact (hgiven (ha.length hkey)).1 (hr.length rfl)
    · rintro rfl
      exact (ha.platform hkey).symm.trans (hr.platform rfl)
    · rintro rfl
      obtain ⟨n, hn, ho⟩ := hr.offset rfl
      exact ((offsetOf_ok (ha.offset hkey) n).1 ho).trans hn.symm
  · intro hr
    refine ⟨?_, ?_, ?_, ?_, ?_, ?_⟩
    · rintro rfl w hw
      exact (ha.flags w).2 (hr.flags rfl w hw)
    · rintro rfl
      exact (hgiven (ha.cast hkey)).2 (hr.text (by simp))
    · rintro rfl
      exact (hgiven (ha.accessor hkey)).2 (hr.text (by simp))
    · rintro rfl
      exact (hgiven (ha.length hkey)).2 (hr.text (by simp))
    · rintro rfl
      exact (ha.platform hkey).trans (hr.platform rfl)
    · rintro rfl
      obtain ⟨n, hn⟩ := Option.isSome_iff_exists.1 (hoffset rfl)
      exact ⟨n, hn, (offsetOf_ok (ha.offset hkey) n).2 ((hr.offset rfl).trans hn)⟩

/-! ## 3. Reading tag by tag -/

/-- A comment can be read exactly if each of its tags can be read alone. -/
theorem applyTags_ok_iff (d : DocOptions) (ts : List Tag) :
    (∃ d', applyTags d ts = .ok d') ↔ ∀ t ∈ ts, ∃ a, t.asks = .ok a := by
  induction ts generalizing d with
  | nil => exact ⟨fun _ => nofun, fun _ => ⟨d, rfl⟩⟩
  | cons t ts ih =>
    rw [List.forall_mem_cons]
    constructor
    · rintro ⟨d', h⟩
      obtain ⟨d₁, hd₁, h⟩ := ok_of_bind h
      rw [applyTag_eq] at hd₁
      obtain ⟨a, ha, rfl⟩ := ok_of_map (ok_of_mapError hd₁)
      exact ⟨⟨a, ha⟩, (ih _).1 ⟨d', h⟩⟩
    · rintro ⟨⟨a, ha⟩, hts⟩
      obtain ⟨d', h⟩ := (ih (a.elim d d.put)).2 hts
      refine ⟨d', ?_⟩
      rw [applyTags, applyTag_eq, ha]
      exact h

theorem applyTags_append (d : DocOptions) (ts us : List Tag) :
    applyTags d (ts ++ us) = (applyTags d ts).bind fun d' => applyTags d' us := by
  induction ts generalizing d with
  | nil => rfl
  | cons t ts ih =>
    rw [List.cons_append, applyTags, applyTags]
    cases (applyTag d t).mapError fun f => (t.line, f) with
    | error f => rfl
    | ok d' => exact ih d'

/-- Tags that say nothing about a heading leave what stands there. -/
theorem get?_applyTags {d d' : DocOptions} {ts : List Tag} (hd : applyTags d ts = .ok d') {h : Heading}
    (hsilent : ∀ t ∈ ts, ∀ ps, ¬ t.Says h ps) : d'.get? h = d.get? h := by
  induction ts generalizing d with
  | nil =>
    obtain rfl := Except.ok.inj hd
    rfl
  | cons t ts ih =>
    rw [List.forall_mem_cons] at hsilent
    obtain ⟨d₁, hd₁, hd⟩ := ok_of_bind hd
    rw [applyTag_eq] at hd₁
    obtain ⟨a, ha, rfl⟩ := ok_of_map (ok_of_mapError hd₁)
    rw [ih hd hsilent.2]
    cases a with
    | none => rfl
    | some a =>
      obtain ⟨ps, hsays, -⟩ := says_of_asks ha
      refine (get?_put d a h).trans (if_neg ?_)
      rintro rfl
      exact hsilent.1 ps hsays

/-- **What stands under a heading in the end is what the last tag about it asks for.** -/
theorem get?_of_last {d d' : DocOptions} {before after : List Tag} {t : Tag} {h : Heading}
    {ps : List (String × String)} (hd : applyTags d (before ++ t :: after) = .ok d') (hs : t.Says h ps)
    (hsilent : ∀ u ∈ after, ∀ qs, ¬ u.Says h qs) :
    ∃ a, h.asks (valueIn ps) = .ok a ∧ d'.get? h = some a := by
  rw [applyTags_append] at hd
  obtain ⟨d₁, -, hd⟩ := ok_of_bind hd
  obtain ⟨d₂, hd₂, hd⟩ := ok_of_bind hd
  rw [applyTag_eq, hs.asks_eq] at hd₂
  obtain ⟨x, hx, rfl⟩ := ok_of_map (ok_of_mapError hd₂)
  obtain ⟨a, ha, rfl⟩ := ok_of_map hx
  refine ⟨a, ha, ?_⟩
  rw [get?_applyTags hd hsilent]
  exact (get?_put d₁ a h).trans (if_pos (heading_of_asks ha))

/-- **Of several tags about one thing only the last one is reflected.** A comment can be read exactly if each of
its tags can be read alone, whatever the others say; and then a pair of a tag is reflected exactly if the last tag
about the same thing repeats it, so all pairs of the last one are. -/
theorem reflected_iff {c : String} (hc : startsWith c "/**" = true) (line : Int) :
    ((∃ d, readComment (some c) line = .ok d) ↔ ∀ t ∈ tagsOfComment c line, ∃ a, t.asks = .ok a) ∧
    ∀ d, readComment (some c) line = .ok d → ∀ t ∈ tagsOfComment c line, ∀ h ps, t.Says h ps →
      ∃ before last after qs, tagsOfComment c line = before ++ last :: after ∧ last.Says h qs ∧
        (∀ u ∈ after, ∀ rs, ¬ u.Says h rs) ∧ (∀ p ∈ qs, p.2 ≠ "" → d.Reflects h p) ∧
        ∀ p ∈ ps, p.2 ≠ "" → (d.Reflects h p ↔ h.Repeats (valueIn qs) p) := by
  have hok : (∃ d, readComment (some c) line = .ok d) ↔ ∃ d, applyTags {} (tagsOfComment c line) = .ok d := by
    rw [readComment_eq hc]
    refine ⟨fun ⟨d, hd⟩ => ?_, fun ⟨d, hd⟩ => ⟨_, by rw [hd]; rfl⟩⟩
    obtain ⟨d', hd', -⟩ := ok_of_map hd
    exact ⟨d', hd'⟩
  refine ⟨hok.trans (applyTags_ok_iff _ _), fun d hd t ht h ps hs => ?_⟩
  rw [readComment_eq hc] at hd
  obtain ⟨d', hd', rfl⟩ := ok_of_map hd
  have hsaid : ∃ u ∈ tagsOfComment c line, ∃ qs, u.Says h qs := ⟨t, ht, ps, hs⟩
  obtain ⟨before, last, after, htags, ⟨qs, hlast⟩, hsilent⟩ := exists_last_of_exists hsaid
  replace hsilent : ∀ u ∈ after, ∀ rs, ¬ u.Says h rs := fun u hu rs hrs => hsilent u hu ⟨rs, hrs⟩
  obtain ⟨a, ha, hget⟩ := get?_of_last (htags ▸ hd') hlast hsilent
  replace hget := get?_withBare hget c
  -- A tag that can be read gives an offset that is an integer.
  have hreflects : ∀ u ∈ tagsOfComment c line, ∀ rs, u.Says h rs → ∀ p ∈ rs, p.2 ≠ "" →
      ((d'.withBare c).Reflects h p ↔ h.Repeats (valueIn qs) p) := by
    intro u hu rs hrs p hp hne
    obtain ⟨x, hx⟩ := (applyTags_ok_iff _ _).1 ⟨d', hd'⟩ u hu
    rw [hrs.asks_eq] at hx
    obtain ⟨b, hb, -⟩ := ok_of_map hx
    have hkey := hrs.keys.1 p hp
    have hoffset : p.1 = "offset" → (readIntLiteral? p.2).isSome = true := by
      intro hk
      have hread := (answers_of_asks hb).offset (hk ▸ hkey)
      rw [← hk, hrs.valueIn_eq hp] at hread
      exact isSome_of_offsetOf hread hne
    rw [← (answers_of_asks ha).reflects_iff hkey hne hoffset]
    constructor
    · rintro ⟨a', ha', hr⟩
      rw [hget] at ha'
      rwa [Option.some.inj ha']
    · exact fun hr => ⟨a, hget, hr⟩
  refine ⟨before, last, after, qs, htags, hlast, hsilent, fun p hp hne => ?_, fun p hp hne => ?_⟩
  · refine (hreflects last (htags ▸ List.mem_append_right _ List.mem_cons_self) qs hlast p hp hne).2 ?_
    have hvalue := hlast.valueIn_eq hp
    exact ⟨fun _ w hw => ⟨w, hvalue ▸ hw, .inl rfl⟩, fun _ => hvalue, fun _ => by rw [hvalue],
      fun _ => by rw [hvalue]⟩
  · exact hreflects t ht ps hs p hp hne

/-- Two tags about one parameter: the second one names the owner of the first one again, but another type. -/
def pinnedComment : String :=
  "/**\n * @param area flags=critical,cast=(A *)\n * @param area flags=no_in pinned,cast=(B *)\n */"

def criticalTag : Tag := ⟨.param, "area flags=critical,cast=(A *)".toList, 2⟩

def pinnedTag : Tag := ⟨.param, "area flags=no_in pinned,cast=(B *)".toList, 3⟩

/-- What is read of the two. -/
def pinnedOptions : DocOptions where
  params := [("area", { flags := { noIn := true }, ownership := some .pinned, cast := some "(B *)" })]

theorem reflected_pinnedComment :
    startsWith pinnedComment "/**" = true ∧ readComment (some pinnedComment) 1 = .ok pinnedOptions ∧
      pinnedOptions.Reflects (.param "area") ("flags", "critical") ∧
      ¬ pinnedOptions.Reflects (.param "area") ("cast", "(A *)") := by
  have hc : startsWith pinnedComment "/**" = true := by decide
  have hd : readComment (some pinnedComment) 1 = .ok pinnedOptions := by decide +kernel
  have htags : tagsOfComment pinnedComment 1 = [criticalTag, pinnedTag] := by decide +kernel
  have hfirst : criticalTag.Says (.param "area") [("flags", "critical"), ("cast", "(A *)")] :=
    ⟨"area", by decide +kernel, rfl⟩
  have hsecond : pinnedTag.Says (.param "area") [("flags", "no_in pinned"), ("cast", "(B *)")] :=
    ⟨"area", by decide +kernel, rfl⟩
  obtain ⟨before, last, after, qs, hsplit, hlast, hsilent, -, hiff⟩ :=
    (reflected_iff hc 1).2 _ hd criticalTag (by rw [htags]; exact List.mem_cons_self) _ _ hfirst
  have hqs : qs = [("flags", "no_in pinned"), ("cast", "(B *)")] := by
    rw [htags] at hsplit
    cases before with
    | nil =>
      have hmem : pinnedTag ∈ after := (List.cons.inj hsplit).2 ▸ List.mem_cons_self
      exact absurd hsecond (hsilent pinnedTag hmem _)
    | cons x before =>
      cases before with
      | nil =>
        have hsame : last = pinnedTag := (List.cons.inj (List.cons.inj hsplit).2).1.symm
        exact (hsame ▸ hlast).unique hsecond
      | cons y before => simp at hsplit
  subst hqs
  refine ⟨hc, hd, (hiff _ List.mem_cons_self (by decide)).2 ⟨fun _ w hw => ?_, fun h => absurd h (by decide),
    fun h => absurd h (by decide), fun h => absurd h (by decide)⟩, fun hr => ?_⟩
  · have hword : ∀ w ∈ Value.textWords "critical", w = "critical" := by decide +kernel
    rw [hword w hw]
    exact ⟨"pinned", by decide +kernel, .inr ⟨rfl, .pinned, rfl, rfl⟩⟩
  · have hcast := (hiff ("cast", "(A *)") (by decide) (by decide)).1 hr
    exact absurd (hcast.text (by decide)) (by decide)

/-- A tag about a type behind one about the way to read it. -/
def castComment : String := "/**\n * @method cast=(A *)\n * @method accessor=open\n */"

/-- Two tags about types that differ. -/
def contraryComment : String := "/**\n * @method cast=(A *)\n * @method cast=(B *)\n */"

/-- **What only an earlier tag says is dropped, and no fault tells of it**, not even where the later tag says the
opposite. -/
theorem dropped_method :
    (∃ t ∈ tagsOfComment castComment 1, t.Says .method [("cast", "(A *)")]) ∧
    (∃ d, readComment (some castComment) 1 = .ok d ∧ ¬ d.Reflects .method ("cast", "(A *)")) ∧
    (∃ t ∈ tagsOfComment contraryComment 1, t.Says .method [("cast", "(A *)")]) ∧
    (∃ t ∈ tagsOfComment contraryComment 1, t.Says .method [("cast", "(B *)")]) ∧
    ∃ d, readComment (some contraryComment) 1 = .ok d := by
  refine ⟨⟨⟨.method, "cast=(A *)".toList, 2⟩, by decide +kernel, "", by decide +kernel, rfl⟩,
    ⟨{ method := some { accessor := some "open" } }, by decide +kernel, ?_⟩,
    ⟨⟨.method, "cast=(A *)".toList, 2⟩, by decide +kernel, "", by decide +kernel, rfl⟩,
    ⟨⟨.method, "cast=(B *)".toList, 3⟩, by decide +kernel, "", by decide +kernel, rfl⟩,
    ⟨{ method := some { cast := some "(B *)" } }, by decide +kernel⟩⟩
  rintro ⟨a, ha, hr⟩
  obtain rfl := Option.some.inj ha
  cases hr.cast rfl

end NativeGlue.Directive
