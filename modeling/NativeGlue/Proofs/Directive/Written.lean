import NativeGlue.Proofs.Directive.Headings
import NativeGlue.Proofs.Directive.Pairs

/-!
# Comments that are written and read back

Tags are written with one line each (`commentText`). Such a comment is read as just these tags
(`tagsOfComment_commentText`), each with its heading and its pairs (`asks_tag`). So reading it gives what each tag
asks for, or the fault of the first one that asks for what cannot be, with its line (`readComment_commentText`).
-/

namespace NativeGlue.Directive

open NativeGlue.Text

/-! ## 1. Tags to be written -/

/-- A tag to be written: what it speaks about, and its pairs. -/
structure WrittenTag where
  heading : Heading
  pairs : List (String × String)
  deriving DecidableEq, Repr

/-- A heading as it is written behind the at sign. -/
def Heading.text : Heading → String
  | .param name => TagKind.param.word ++ " " ++ name
  | h => h.kind.word

/-- The name of the parameter that a heading is about. -/
def Heading.name? : Heading → Option String
  | .param name => some name
  | _ => none

def WrittenTag.text (t : WrittenTag) : String := "@" ++ t.heading.text ++ " " ++ pairsText t.pairs

/-- A doc comment with one line for each tag. -/
def commentText (ts : List WrittenTag) : String :=
  "\n".intercalate ("/**" :: ts.map (" * " ++ ·.text) ++ [" */"])

/-- What a written tag asks for; what cannot be asked for is a fault on its line. -/
def WrittenTag.asks (t : WrittenTag) (line : Int) : Except (Int × Fault) Asked :=
  (t.heading.asks (valueIn t.pairs)).mapError fun f => (line, f)

/-- What written tags ask for, each on its line behind the first line of the comment. -/
def askedBy (ts : List WrittenTag) (firstLine : Int) : Except (Int × Fault) (List Asked) :=
  (ts.zipIdx 1).mapM fun p => p.1.asks (firstLine + p.2)

/-- A name that a parameter may have in a tag: like identifiers, it holds neither blanks nor at signs. -/
structure IsName (s : String) : Prop where
  nonempty : s ≠ ""
  solid : ∀ c ∈ s.toList, isBlank c = false ∧ c ≠ '@'

/-- A tag that can be written: its subject is a name, and it gives pairs that it may give. -/
structure WrittenTag.Plain (t : WrittenTag) : Prop where
  name : ∀ n ∈ t.heading.name?, IsName n
  nonempty : t.pairs ≠ []
  pairs : PlainPairs t.heading.kind t.pairs

instance (s : String) : Decidable (IsName s) :=
  decidable_of_iff (s ≠ "" ∧ ∀ c ∈ s.toList, isBlank c = false ∧ c ≠ '@')
    ⟨fun ⟨h1, h2⟩ => ⟨h1, h2⟩, fun h => ⟨h.1, h.2⟩⟩

instance (t : WrittenTag) : Decidable t.Plain :=
  decidable_of_iff ((∀ n ∈ t.heading.name?, IsName n) ∧ t.pairs ≠ [] ∧ PlainPairs t.heading.kind t.pairs)
    ⟨fun ⟨h1, h2, h3⟩ => ⟨h1, h2, h3⟩, fun h => ⟨h.1, h.2, h.3⟩⟩

/-- What stands behind the word of a tag: its subject, if it has one, and its pairs. -/
def WrittenTag.body (t : WrittenTag) : List Char :=
  match t.heading with
  | .param name => name.toList ++ ' ' :: (pairsText t.pairs).toList
  | _ => (pairsText t.pairs).toList

/-- The tag that is read. -/
def WrittenTag.tag (t : WrittenTag) (line : Int) : Tag := ⟨t.heading.kind, t.body, line⟩

theorem WrittenTag.toList_text (t : WrittenTag) :
    t.text.toList = '@' :: (t.heading.kind.word.toList ++ ' ' :: t.body) := by
  unfold WrittenTag.text WrittenTag.body Heading.text
  cases t.heading with
  | param name =>
    simp only [String.toList_append, List.append_assoc]
    rfl
  | _ =>
    simp only [String.toList_append, List.append_assoc]
    rfl

/-! ## 2. Bodies -/

section

variable {t : WrittenTag} (ht : t.Plain)

include ht

theorem WrittenTag.Plain.isKey : ∀ p ∈ t.pairs, IsKey p.1.toList := fun p hp =>
  isKey_of_mem_keys t.heading.kind p.1 (ht.pairs.keys p hp)

/-- A body begins with what is no blank. -/
theorem WrittenTag.Plain.head?_body : ∀ c ∈ t.body.head?, isBlank c = false := by
  unfold WrittenTag.body
  intro c hc
  split at hc
  · rename_i name hname
    obtain ⟨hne, hsolid⟩ := ht.name name (by rw [hname]; rfl)
    obtain ⟨d, r, hd⟩ := List.exists_cons_of_ne_nil (mt String.toList_eq_nil_iff.1 hne)
    rw [hd] at hc
    obtain rfl := Option.some.inj hc
    exact (hsolid d (by rw [hd]; exact List.mem_cons_self)).1
  · exact (plain_of_isKeyPart (head?_pairsText ht.isKey c hc)).1

/-- A body ends with a value behind an equals sign. -/
theorem WrittenTag.Plain.exists_last : ∃ s v, t.body = s ++ '=' :: v ∧ PlainValue v := by
  obtain ⟨s, v, hs, hv⟩ := exists_last_pairsText ht.pairs.values ht.nonempty
  unfold WrittenTag.body
  split
  · rename_i name hname
    exact ⟨name.toList ++ ' ' :: s, v, by rw [hs, List.append_assoc, List.cons_append], hv⟩
  · exact ⟨s, v, hs, hv⟩

theorem WrittenTag.Plain.oneLine_body : ∀ c ∈ t.body, isLineEnd c = false := by
  have hpairs := oneLine_pairsText ht.isKey ht.pairs.values
  unfold WrittenTag.body
  split
  · rename_i name hname
    rw [List.forall_mem_append, List.forall_mem_cons]
    have hsolid := (ht.name name (by rw [hname]; rfl)).solid
    exact ⟨fun c hc => isLineEnd_of_not_isBlank (hsolid c hc).1, by decide, hpairs⟩
  · exact hpairs

theorem WrittenTag.Plain.lacks_body (P : TagKind → Prop) : Lacks P t.body := by
  have hpairs := lacks_pairsText ht.isKey ht.pairs.values P
  unfold WrittenTag.body
  split
  · rename_i name hname
    rw [lacks_append_of_not_mem fun h => ((ht.name name (by rw [hname]; rfl)).solid _ h).2 rfl, lacks_cons]
    exact ⟨fun h => absurd h (by decide), hpairs⟩
  · exact hpairs

/-- The subject of a tag is read up to the blank behind it. -/
theorem WrittenTag.Plain.tagSubject?_tag (line : Int) :
    ∃ subject, tagSubject? (t.tag line) = some (subject, (pairsText t.pairs).toList) ∧
      Heading.of t.heading.kind subject = t.heading := by
  have hblank : isBlank ' ' = true := by decide
  unfold tagSubject? WrittenTag.tag WrittenTag.body
  cases hheading : t.heading with
  | param name =>
    obtain ⟨hne, hsolid⟩ := ht.name name (by rw [hheading]; rfl)
    have htake : (name.toList ++ ' ' :: (pairsText t.pairs).toList).takeWhile (!isBlank ·) = name.toList := by
      rw [List.takeWhile_append_of_pos (fun c hc => by rw [(hsolid c hc).1]; rfl),
        List.takeWhile_cons_of_neg (by simp [hblank]), List.append_nil]
    have hpairs : (pairsText t.pairs).toList.dropWhile isBlank = (pairsText t.pairs).toList := by
      refine List.dropWhile_eq_self_iff.2 fun hlength hc => ?_
      have hkey := head?_pairsText ht.isKey _ (List.head?_eq_getElem?.trans (List.getElem?_eq_getElem hlength))
      rw [(plain_of_isKeyPart hkey).1] at hc
      cases hc
    refine ⟨name, ?_, rfl⟩
    dsimp only
    rw [if_pos (show (Heading.param name).kind = .param from rfl), htake, if_neg (by simpa using hne),
      String.ofList_toList, List.drop_left, List.dropWhile_cons_of_pos hblank, hpairs]
  | method => exact ⟨"", rfl, rfl⟩
  | field => exact ⟨"", rfl, rfl⟩
  | struct => exact ⟨"", rfl, rfl⟩

/-- The pairs of a tag are read as they were written. -/
theorem WrittenTag.Plain.readPairs_tag {line : Int} {subject : String}
    (hsubject : tagSubject? (t.tag line) = some (subject, (pairsText t.pairs).toList)) :
    readPairs (t.tag line) = .ok (some (subject, t.pairs)) := by
  have hcheck : checkPairs t.heading.kind [] (rawPairs t.pairs) = .ok t.pairs :=
    checkPairs_rawPairs ht.pairs fun _ _ => List.not_mem_nil
  obtain ⟨q, qs, hq⟩ : ∃ q qs, rawPairs t.pairs = q :: qs := by
    obtain ⟨p, r, hp⟩ := List.exists_cons_of_ne_nil ht.nonempty
    rw [hp]
    cases r <;> exact ⟨_, _, rfl⟩
  rw [readPairs, hsubject]
  dsimp only
  rw [cutPairs_pairsText ht.isKey ht.pairs.values ht.nonempty, hq]
  show (checkPairs t.heading.kind [] (q :: qs)).map _ = _
  rw [← hq, hcheck]
  rfl

/-- **A tag is read with its heading and its pairs.** -/
theorem WrittenTag.Plain.asks_tag (line : Int) :
    ((t.tag line).asks.mapError fun f => (line, f)) = (t.asks line).map Option.some := by
  obtain ⟨subject, hsubject, hheading⟩ := ht.tagSubject?_tag line
  rw [Tag.asks, ht.readPairs_tag hsubject, WrittenTag.asks, ← hheading]
  show Except.mapError _ (((Heading.of t.heading.kind subject).asks (valueIn t.pairs)).map Option.some) = _
  cases (Heading.of t.heading.kind subject).asks (valueIn t.pairs) <;> rfl

end

/-! ## 3. Lines -/

/-- The tags of one line of a comment. -/
def tagsOfLine (raw : String) (line : Int) : List Tag :=
  (cutTags none 0 (commentLine raw.toList)).map fun (k, body) => ⟨k, trimOf isBlank body, line⟩

theorem tagsOfComment_eq (c : String) (line : Int) :
    tagsOfComment c line = (lines c).zipIdx.flatMap fun (raw, i) => tagsOfLine raw (line + i) := rfl

/-- A text without a character that stands in a longer one is at its end only behind that character. -/
theorem suffix_of_append_cons {w s v : List Char} {c : Char} (h : w <:+ s ++ c :: v) (hc : c ∉ w) : w <:+ v := by
  rcases List.suffix_or_suffix_of_suffix h (List.suffix_append s (c :: v)) with hw | hw
  · rcases List.suffix_cons_iff.1 hw with rfl | hw
    · exact absurd List.mem_cons_self hc
    · exact hw
  · exact absurd (hw.subset List.mem_cons_self) hc

section

variable {t : WrittenTag} (ht : t.Plain)

include ht

/-- Whatever a body stands behind, neither a blank nor the end of a comment ends it. -/
theorem WrittenTag.Plain.ends (s : List Char) : (∀ c ∈ (s ++ t.body).getLast?, isBlank c = false) ∧
    ¬ ['*', '/'] <:+ s ++ t.body := by
  obtain ⟨q, v, hq, hv⟩ := ht.exists_last
  rw [hq, ← List.append_assoc]
  refine ⟨fun c hc => ?_, fun h => hv.inside (suffix_of_append_cons h (by decide)).isInfix⟩
  rw [List.getLast?_append_cons] at hc
  cases v with
  | nil =>
    obtain rfl := Option.some.inj hc
    decide
  | cons d r =>
    rw [List.getLast?_cons_cons] at hc
    exact (trimOf_eq_self_iff.1 hv.trimmed).2 c hc

/-- **The line of a tag is read as the tag**, without the mark before it. -/
theorem WrittenTag.Plain.commentLine_text : commentLine (" * " ++ t.text).toList = t.text.toList := by
  have hends : ∀ s, (∀ c ∈ (s ++ t.text.toList).getLast?, isBlank c = false) ∧
      ¬ ['*', '/'] <:+ s ++ t.text.toList := by
    intro s
    have hbody : s ++ t.text.toList = s ++ '@' :: (t.heading.kind.word.toList ++ [' ']) ++ t.body := by
      rw [t.toList_text]
      simp
    rw [hbody]
    exact ht.ends _
  have hhead : ∀ c ∈ t.text.toList.head?, isBlank c = false := by
    rw [t.toList_text]
    intro c hc
    obtain rfl := Option.some.inj hc
    decide
  have htrimmed : trimOf isBlank t.text.toList = t.text.toList := trimOf_eq_self_iff.2 ⟨hhead, (hends []).1⟩
  have hmarked : trimOf isBlank ('*' :: ' ' :: t.text.toList) = '*' :: ' ' :: t.text.toList := by
    refine trimOf_eq_self_iff.2 ⟨fun c hc => ?_, (hends ['*', ' ']).1⟩
    obtain rfl := Option.some.inj hc
    decide
  have hopen : "/**".toList.isPrefixOf ('*' :: ' ' :: t.text.toList) = false := rfl
  have hclose : "*/".toList.isSuffixOf ('*' :: ' ' :: t.text.toList) = false := by
    rw [← Bool.not_eq_true, List.isSuffixOf_iff_suffix]
    exact (hends ['*', ' ']).2
  have hraw : (" * " ++ t.text).toList = ' ' :: '*' :: ' ' :: t.text.toList := String.toList_append
  have hblank : ∀ s, trimOf isBlank (' ' :: s) = trimOf isBlank s := fun s => rfl
  rw [commentLine, hraw, hblank, hmarked, hopen, if_neg Bool.false_ne_true, hclose, if_neg Bool.false_ne_true,
    hmarked]
  show trimOf isBlank (' ' :: t.text.toList) = _
  rw [hblank, htrimmed]

/-- **The line of a tag holds just this tag.** -/
theorem WrittenTag.Plain.tagsOfLine_text (line : Int) : tagsOfLine (" * " ++ t.text) line = [t.tag line] := by
  have hlacks : Lacks (fun _ => True) (' ' :: t.body) :=
    lacks_cons.2 ⟨fun h => absurd h (by decide), ht.lacks_body _⟩
  have htrimmed : trimOf isBlank (' ' :: t.body) = t.body := by
    show trimOf isBlank t.body = t.body
    exact trimOf_eq_self_iff.2 ⟨ht.head?_body, (ht.ends []).1⟩
  rw [tagsOfLine, ht.commentLine_text, t.toList_text, cutTags_tag _ (by decide) hlacks, List.map_singleton]
  show [(⟨t.heading.kind, trimOf isBlank (' ' :: t.body), line⟩ : Tag)] = _
  rw [htrimmed]
  rfl

theorem WrittenTag.Plain.oneLine_text : ∀ c ∈ (" * " ++ t.text).toList, isLineEnd c = false := by
  have hmarks : ∀ c ∈ " * ".toList, isLineEnd c = false := by decide
  have hword : ∀ c ∈ t.heading.kind.word.toList, isLineEnd c = false := by
    cases t.heading.kind <;> decide
  rw [String.toList_append, t.toList_text, List.forall_mem_append, List.forall_mem_cons, List.forall_mem_append,
    List.forall_mem_cons]
  exact ⟨hmarks, by decide, hword, by decide, ht.oneLine_body⟩

/-- The line of a tag holds no tag of another kind. -/
theorem WrittenTag.Plain.lacks_text {P : TagKind → Prop} (hkind : ¬ P t.heading.kind) :
    Lacks P (" * " ++ t.text).toList := by
  rw [String.toList_append, t.toList_text, lacks_append_of_not_mem (by decide), lacks_cons, lacks_word, lacks_cons]
  refine ⟨fun _ k hk => ?_, fun h => absurd h (by decide), ht.lacks_body P⟩
  rw [tagWord?_eq_some_iff.2 ⟨' ' :: t.body, rfl, rfl⟩] at hk
  rwa [← Option.some.inj hk]

end

/-! ## 4. Comments -/

section

variable {ts : List WrittenTag} (hts : ∀ t ∈ ts, t.Plain)

include hts

/-- **A comment is read as the tags that were written**, each on its line. -/
theorem tagsOfComment_commentText (line : Int) :
    tagsOfComment (commentText ts) line = (ts.zipIdx 1).map fun (t, i) => t.tag (line + i) := by
  have hlines : lines (commentText ts) = "/**" :: ts.map (" * " ++ ·.text) ++ [" */"] := by
    refine lines_intercalate (fun l hl => ?_) (by decide)
    rw [List.mem_append, List.mem_cons, List.mem_singleton, List.mem_map] at hl
    rcases hl with (rfl | ⟨t, ht, rfl⟩) | rfl
    · decide
    · exact (hts t ht).oneLine_text
    · decide
  have hmiddle : ∀ n, ((ts.map (" * " ++ ·.text)).zipIdx n).flatMap (fun (raw, i) => tagsOfLine raw (line + i)) =
      (ts.zipIdx n).map fun (t, i) => t.tag (line + i) := by
    clear hlines
    induction ts with
    | nil => exact fun n => rfl
    | cons t ts ih =>
      rw [List.forall_mem_cons] at hts
      intro n
      rw [List.map_cons, List.zipIdx_cons, List.zipIdx_cons, List.flatMap_cons, List.map_cons, ih hts.2]
      dsimp only
      rw [hts.1.tagsOfLine_text, List.singleton_append]
  have hopen : ∀ n, tagsOfLine "/**" n = [] := fun n => rfl
  have hclose : ∀ n, tagsOfLine " */" n = [] := fun n => rfl
  rw [tagsOfComment_eq, hlines, List.zipIdx_append, List.zipIdx_cons, List.flatMap_append, List.flatMap_cons,
    hmiddle]
  simp [hopen, hclose]

/-- A comment without struct tags has no bare one. -/
theorem lacks_commentText {P : TagKind → Prop} (hkind : ∀ t ∈ ts, ¬ P t.heading.kind) :
    Lacks P (commentText ts).toList := by
  have hlines : ∀ l ∈ "/**" :: ts.map (" * " ++ ·.text) ++ [" */"], Lacks P l.toList := by
    have hnone : ∀ s : List Char, '@' ∉ s → Lacks P s := fun s hs => by
      rw [← List.append_nil s, lacks_append_of_not_mem hs]
      exact Lacks.nil
    intro l hl
    rw [List.mem_append, List.mem_cons, List.mem_singleton, List.mem_map] at hl
    rcases hl with (rfl | ⟨t, ht, rfl⟩) | rfl
    · exact hnone _ (by decide)
    · exact (hts t ht).lacks_text (hkind t ht)
    · exact hnone _ (by decide)
  exact lacks_intercalate (show isWordChar '\n' = false ∧ '\n' ≠ '@' by decide) rfl hlines

end

/-! ## 5. Reading what was written -/

@[simp] def Asked.method? : Asked → Option MethodOptions
  | .method o => some o
  | _ => none

@[simp] def Asked.param? : Asked → Option (String × ParamOptions)
  | .param name o => some (name, o)
  | _ => none

@[simp] def Asked.field? : Asked → Option FieldOptions
  | .field o => some o
  | _ => none

@[simp] def Asked.struct? : Asked → Option StructOptions
  | .struct o => some o
  | _ => none

/-- What tags of different headings ask for together. -/
def gather (as : List Asked) : DocOptions where
  method := as.findSome? Asked.method?
  params := as.filterMap Asked.param?
  field := as.findSome? Asked.field?
  struct := as.findSome? Asked.struct?

/-- What is not among the headings is not asked for. -/
theorem findSome?_eq_none_of_heading {α : Type} {f : Asked → Option α} {h : Heading} {as : List Asked}
    (hf : ∀ x y, f x = some y → x.heading = h) (has : ∀ x ∈ as, x.heading ≠ h) : as.findSome? f = none :=
  List.findSome?_eq_none_iff.2 fun x hx => Option.eq_none_iff_forall_ne_some.2 fun y hy => has x hx (hf x y hy)

/-- **Where no heading comes twice, nothing that is put replaces anything.** -/
theorem foldl_put_eq_gather {as : List Asked} (h : (as.map (·.heading)).Nodup) :
    as.foldl DocOptions.put {} = gather as := by
  have hmethod : ∀ x y, Asked.method? x = some y → x.heading = .method := by
    intro x y h
    cases x <;> first | rfl | cases h
  have hfield : ∀ x y, Asked.field? x = some y → x.heading = .field := by
    intro x y h
    cases x <;> first | rfl | cases h
  have hstruct : ∀ x y, Asked.struct? x = some y → x.heading = .struct := by
    intro x y h
    cases x <;> first | rfl | cases h
  induction as using List.reverseRecOn with
  | nil => rfl
  | append_singleton as a ih =>
    rw [List.map_append, List.map_singleton, List.nodup_append] at h
    have hnew : ∀ x ∈ as, x.heading ≠ a.heading := fun x hx =>
      h.2.2 _ (List.mem_map_of_mem hx) _ (List.mem_singleton.2 rfl)
    rw [List.foldl_append, ih h.1, List.foldl_cons, List.foldl_nil]
    unfold gather DocOptions.put
    cases a with
    | method o => simp [findSome?_eq_none_of_heading hmethod hnew]
    | param name o =>
      have hname : name ∉ (as.filterMap Asked.param?).map (·.1) := by
        intro hm
        obtain ⟨p, hp, rfl⟩ := List.mem_map.1 hm
        obtain ⟨x, hx, hxp⟩ := List.mem_filterMap.1 hp
        refine hnew x hx ?_
        cases x with
        | param n o' =>
          obtain rfl := Option.some.inj hxp
          rfl
        | _ => cases hxp
      simp [putParam_eq_putKey, putKey_of_not_mem hname]
    | field o => simp [findSome?_eq_none_of_heading hfield hnew]
    | struct o => simp [findSome?_eq_none_of_heading hstruct hnew]

/-- What is asked for comes under the headings of the tags, in their order. -/
theorem map_heading_of_askedBy {ts : List WrittenTag} {line : Int} {as : List Asked}
    (h : askedBy ts line = .ok as) : as.map (·.heading) = ts.map (·.heading) := by
  have hall := forall₂_of_mapM h
  have hpairs : ∀ {ps : List (WrittenTag × Nat)} {as : List Asked},
      List.Forall₂ (fun p a => WrittenTag.asks p.1 (line + p.2) = .ok a) ps as →
        as.map (·.heading) = (ps.map (·.1)).map (·.heading) := by
    intro ps as hall
    induction hall with
    | nil => rfl
    | cons hstep _ ih =>
      rw [List.map_cons, List.map_cons, List.map_cons, ih, heading_of_asks (ok_of_mapError hstep)]
  rw [hpairs hall, List.zipIdx_map_fst]

/-- What is asked for under a heading is among what is gathered. -/
theorem isSome_struct_gather {as : List Asked} (h : Heading.struct ∈ as.map (·.heading)) :
    (gather as).struct.isSome = true := by
  obtain ⟨a, ha, hstruct⟩ := List.mem_map.1 h
  refine List.findSome?_isSome_iff.2 ⟨a, ha, ?_⟩
  cases a with
  | struct o => rfl
  | _ => cases hstruct

section

variable {ts : List WrittenTag} (hts : ∀ t ∈ ts, t.Plain)

include hts

/-- **The tags of a written comment ask for what was written.** -/
theorem applyTags_commentText (hapart : (ts.map (·.heading)).Nodup) (line : Int) :
    applyTags {} (tagsOfComment (commentText ts) line) = (askedBy ts line).map gather := by
  have hsteps : ((ts.zipIdx 1).mapM fun p => ((p.1.tag (line + p.2)).asks.mapError fun f => (line + p.2, f))) =
      (askedBy ts line).map (List.map some) := by
    rw [askedBy, map_mapM]
    exact mapM_congr fun p hp => (hts p.1 (List.fst_mem_of_mem_zipIdx hp)).asks_tag _
  rw [tagsOfComment_commentText hts, applyTags_eq, List.mapM_map]
  refine (congrArg (Except.map _) hsteps).trans ?_
  cases hasked : askedBy ts line with
  | error f => rfl
  | ok as =>
    have hall : (as.map some).reduceOption = as := by simp [List.reduceOption]
    show Except.ok ((as.map some).reduceOption.foldl DocOptions.put {}) = Except.ok (gather as)
    rw [hall, foldl_put_eq_gather (map_heading_of_askedBy hasked ▸ hapart)]

/-- A comment with a struct tag asks for something there, and one without has no bare one either. -/
theorem withBare_commentText {line : Int} {as : List Asked} (hasked : askedBy ts line = .ok as) :
    (gather as).withBare (commentText ts) = gather as := by
  refine if_neg ?_
  rw [Bool.and_eq_true, not_and, Bool.not_eq_true]
  intro hnone
  refine hasStructTag_eq_false (lacks_commentText hts fun t ht hkind => ?_)
  have hstruct : Heading.struct ∈ ts.map (·.heading) := by
    refine List.mem_map.2 ⟨t, ht, ?_⟩
    cases h : t.heading with
    | struct => rfl
    | _ => rw [h] at hkind; cases hkind
  rw [← map_heading_of_askedBy hasked] at hstruct
  rw [Option.isNone_iff_eq_none] at hnone
  have hsome := isSome_struct_gather hstruct
  rw [hnone] at hsome
  cases hsome

/-- **Reading undoes writing**: a comment with written tags is read as what they ask for; if one of them asks for
what cannot be, the first such tag is the fault, with its line. -/
theorem readComment_commentText (hapart : (ts.map (·.heading)).Nodup) (line : Int) :
    readComment (some (commentText ts)) line = (askedBy ts line).map gather := by
  have hstart : startsWith (commentText ts) "/**" = true := by
    obtain ⟨l, ls, hl⟩ := List.exists_cons_of_ne_nil (show ts.map (" * " ++ ·.text) ++ [" */"] ≠ [] by simp)
    rw [startsWith, List.isPrefixOf_iff_prefix, commentText, List.cons_append, hl, String.intercalate_cons_cons,
      String.toList_append, String.toList_append, List.append_assoc]
    exact List.prefix_append _ _
  rw [readComment_eq hstart, applyTags_commentText hts hapart]
  cases hasked : askedBy ts line with
  | error f => rfl
  | ok as => exact congrArg Except.ok (withBare_commentText hts hasked)

end

/-- Tags whose values hold blanks, commas, and within parentheses even what looks like a pair. -/
def drawTags : List WrittenTag :=
  [⟨.method, [("flags", "dynamic, const"), ("cast", "(void (*)(int flags=0, ...))"), ("accessor", "")]⟩,
   ⟨.param "größe$1", [("cast", "(size=n, *)"), ("flags", "critical no_in"), ("length", "n + 1, m")]⟩,
   ⟨.param "area", [("flags", "pinned")]⟩,
   ⟨.field, [("offset", "0x1_0"), ("platform", "Win32,linux")]⟩,
   ⟨.struct, [("accessor", "open@once")]⟩]

/-- What these tags ask for. -/
def drawAsked : DocOptions where
  method := some { flags := { const := true, dynamic := true }, cast := some "(void (*)(int flags=0, ...))" }
  params :=
    [("größe$1", { flags := { noIn := true }, ownership := some .pinned, cast := some "(size=n, *)",
                   length := some "n + 1, m" }),
     ("area", { ownership := some .pinned })]
  field := some { platforms := ["win32", "linux"], offset := some (.int 16) }
  struct := some { accessor := some "open@once", tagged := true }

/-- The second pair of the last tag names no flag. -/
def strayTags : List WrittenTag := drawTags.dropLast ++ [⟨.struct, [("accessor", "open"), ("flags", "sideways")]⟩]

theorem readComment_drawTags :
    ((∀ t ∈ drawTags, t.Plain) ∧ (drawTags.map (·.heading)).Nodup ∧
      readComment (some (commentText drawTags)) 7 = .ok drawAsked) ∧
    (∀ t ∈ strayTags, t.Plain) ∧ (strayTags.map (·.heading)).Nodup ∧
      readComment (some (commentText strayTags)) 7 = .error (12, .flag (.unknown "StructFlag" "sideways")) := by
  have hplain : ∀ t ∈ drawTags, t.Plain := by decide +kernel
  have hapart : (drawTags.map (·.heading)).Nodup := by decide
  have hplain' : ∀ t ∈ strayTags, t.Plain := by decide +kernel
  have hapart' : (strayTags.map (·.heading)).Nodup := by decide
  refine ⟨⟨hplain, hapart, ?_⟩, hplain', hapart', ?_⟩
  · rw [readComment_commentText hplain hapart]
    rfl
  · rw [readComment_commentText hplain' hapart']
    rfl

end NativeGlue.Directive
