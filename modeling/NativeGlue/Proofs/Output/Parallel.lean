import NativeGlue.Proofs.FileTree.Twins
import NativeGlue.Proofs.Output.Remains

/-!
# Writing in two trees

What writing reads and changes stands in the output directory, once that is there. So in two trees that
hold the same in the directory it makes the same edits there, with the same results (`parallel_writeFiles`).
Before that the directory is made, and whether it can be made does not depend on which of the directories
above it are there (`same_writeFiles`). Beside the output directory writing makes directories above it
and changes nothing else (`reaches_writeFiles`).
-/

namespace NativeGlue.Output

open NativeGlue.FileTree NativeGlue.Code

variable {t u : FileTree} {directory : Path} {place : Place}

/-! ## 1. Steps in parallel -/

/-- Two trees come to other ones by the same edits in a directory, with the same result. -/
def Parallel {α : Type} (place : Place) (t u : FileTree) (x y : FileTree × α) : Prop :=
  ∃ es r, Inside place es ∧ x = (t.edited es, r) ∧ y = (u.edited es, r)

section

variable {α β : Type} {x y : FileTree × α} {z w : FileTree × β}

theorem Parallel.refl (place : Place) (t u : FileTree) (r : α) : Parallel place t u (t, r) (u, r) :=
  ⟨[], r, nofun, rfl, rfl⟩

theorem Parallel.trans (h : Parallel place t u x y) (h' : Parallel place x.1 y.1 z w) :
    Parallel place t u z w := by
  obtain ⟨es, r, hes, rfl, rfl⟩ := h
  obtain ⟨fs, s, hfs, rfl, rfl⟩ := h'
  refine ⟨es ++ fs, s, fun e he => ?_, ?_, ?_⟩
  · exact (List.mem_append.1 he).elim (hes e) (hfs e)
  · rw [edited, edited, edited, List.foldl_append]
  · rw [edited, edited, edited, List.foldl_append]

theorem Parallel.result (h : Parallel place t u x y) : y.2 = x.2 := by
  obtain ⟨es, r, -, rfl, rfl⟩ := h
  rfl

/-- Twins stay twins. -/
theorem Parallel.twins {own own' : Place → Prop} (hp : Parallel place t u x y)
    (h : Twins directory place t u) (ht : Built own t x.1) (hu : Built own' u y.1) :
    Twins directory place x.1 y.1 := by
  obtain ⟨es, r, -, rfl, rfl⟩ := hp
  exact h.edited ht hu

end

/-! ## 2. Files -/

/-- A generated file stands in the output directory itself. -/
def Flat (g : OutputFile) : Prop :=
  Path.ofString g.relativePath = ⟨.here, [g.relativePath]⟩ ∧ g.relativePath ≠ ".."

theorem Flat.placeOf {g : OutputFile} (h : Flat g) (directory : Path) :
    placeOf directory g = directory.inside g.relativePath := by
  rw [Output.placeOf, h.1]
  rfl

/-- The name of the temporary file beside a file. -/
def temporaryName (name : String) : String := "." ++ name ++ ".tmp"

theorem temporaryName_ne (name : String) : temporaryName name ≠ ".." := by
  refine ne_up_of_getLast? (c := 'p') ?_ (by decide)
  rw [temporaryName, String.toList_append, List.getLast?_append]
  rfl

theorem temporaryFor_inside (directory : Path) (name : String) :
    temporaryFor (directory.inside name) = directory.inside (temporaryName name) := by
  unfold temporaryFor Path.withName Path.name Path.inside temporaryName
  rw [List.dropLast_concat, List.getLast?_concat]
  rfl

theorem lockOf_eq (directory : Path) : lockOf directory = directory.inside ".jnigen.lock" := by
  have hname : Path.ofString ".jnigen.lock" = ⟨.here, [".jnigen.lock"]⟩ := by decide
  rw [lockOf, hname]
  rfl

theorem parallel_replaceFile (h : Twins directory place t u) {name : String} (hn : name ≠ "..")
    (b : ByteArray) : Parallel place t u (replaceFile t (directory.inside name) b)
      (replaceFile u (directory.inside name) b) := by
  obtain ⟨hmadet, hmadeu⟩ := h.makeDirectories
  unfold replaceFile
  rw [Path.parent_inside, hmadet, hmadeu, temporaryFor_inside]
  dsimp only
  rcases h.writeBytes (temporaryName_ne name) b with ⟨e, ht, hu⟩ | ⟨ht, hu⟩
  · rw [ht, hu]
    exact .refl place t u (some e)
  rw [ht, hu]
  dsimp only
  have hfilled : Twins directory place _ _ :=
    h.edited ((sameBut_writeBytes ht).1.built fun _ hq => hq) ((sameBut_writeBytes hu).1.built fun _ hq => hq)
  have hfile : (t.edited [(place ++ [temporaryName name], some (.file b))]).get?
      (place ++ [temporaryName name]) ≠ some .directory := by
    have hput := get?_put t (List.append_ne_nil_of_right_ne_nil place
      (List.cons_ne_nil (temporaryName name) [])) (.file b)
    intro hd
    cases hput.symm.trans hd
  have hwritten : Inside place [(place ++ [temporaryName name], some (.file b))] :=
    inside_single place (temporaryName name) nofun
  refine Parallel.trans (x := (_, ())) (y := (_, ())) ⟨_, (), hwritten, rfl, rfl⟩ ?_
  rcases hfilled.moveFile (temporaryName_ne name) hfile hn with ⟨e, ht', hu'⟩ | ⟨e, he, ht', hu'⟩
  · rw [ht', hu']
    exact .refl place _ _ (some e)
  · rw [ht', hu']
    refine ⟨_, none, fun x hx => ?_, rfl, rfl⟩
    rcases List.mem_cons.1 hx with rfl | hx
    · exact ⟨⟨temporaryName name, rfl⟩, nofun⟩
    · exact inside_single place name (fun hd => he (Option.some.inj hd)) x hx

theorem parallel_putFile (mode : Mode) (h : Twins directory place t u) {g : OutputFile} (hg : Flat g) :
    Parallel place t u (putFile mode directory t g) (putFile mode directory u g) := by
  have hbytes : bytesAt u (directory.inside g.relativePath) = bytesAt t (directory.inside g.relativePath) := by
    unfold bytesAt
    rw [h.readBytes hg.2]
  unfold putFile
  rw [hg.placeOf]
  dsimp only
  rw [hbytes]
  split
  · exact .refl place t u _
  split
  · exact .refl place t u _
  cases mode with
  | check => exact .refl place t u _
  | dryRun => exact .refl place t u _
  | write =>
    dsimp only
    obtain ⟨es, r, hes, ht, hu⟩ := parallel_replaceFile h hg.2 g.content.toUTF8
    rw [ht, hu]
    cases r with
    | some e => exact ⟨es, _, hes, rfl, rfl⟩
    | none => exact ⟨es, _, hes, rfl, rfl⟩

/-- What writing comes to: the tree that it leaves, and what it tells. -/
def Outcome.told (o : Outcome) : FileTree × List FileOutcome × Option Fault := (o.tree, o.results, o.fault)

theorem parallel_writeAll (mode : Mode) (h : Twins directory place t u) {files : List OutputFile}
    (hf : ∀ g ∈ files, Flat g) :
    Parallel place t u (writeAll mode directory t files).told (writeAll mode directory u files).told := by
  induction files generalizing t u with
  | nil => exact .refl place t u _
  | cons g r ih =>
    have hput := parallel_putFile mode h (hf g List.mem_cons_self)
    have htwins := hput.twins h (built_putFile mode directory t g) (built_putFile mode directory u g)
    have hresult := hput.result
    rw [writeAll_cons, writeAll_cons]
    rcases ht : putFile mode directory t g with ⟨t', x⟩
    rcases hu : putFile mode directory u g with ⟨u', y⟩
    rw [ht, hu] at hput htwins hresult
    obtain rfl : y = x := hresult
    cases y with
    | error e => exact hput.trans (.refl place t' u' _)
    | ok result =>
      obtain ⟨es, told, hes, htold, hutold⟩ := ih htwins fun x hx => hf x (List.mem_cons_of_mem g hx)
      refine hput.trans ⟨es, (result :: told.1, told.2), hes, ?_, ?_⟩
      · change (_, result :: (writeAll mode directory t' r).told.2.1,
          (writeAll mode directory t' r).told.2.2) = _
        rw [htold]
        exact congrArg (·, _) (congrArg Prod.fst htold)
      · change (_, result :: (writeAll mode directory u' r).told.2.1,
          (writeAll mode directory u' r).told.2.2) = _
        rw [hutold]
        exact congrArg (·, _) (congrArg Prod.fst hutold)

theorem parallel_takeLock (h : Twins directory place t u) :
    Parallel place t u (takeLock t directory) (takeLock u directory) := by
  obtain ⟨hmadet, hmadeu⟩ := h.makeDirectories
  unfold takeLock
  rw [hmadet, hmadeu, lockOf_eq]
  dsimp only
  rcases h.createNew (by decide : ".jnigen.lock" ≠ "..") "1".toUTF8 with ⟨e, ht, hu⟩ | ⟨ht, hu⟩
  · rw [ht, hu]
    dsimp only
    split
    · exact .refl place t u _
    · exact .refl place t u _
  · rw [ht, hu]
    have hlocked : Inside place [(place ++ [".jnigen.lock"], some (.file "1".toUTF8))] :=
      inside_single place ".jnigen.lock" nofun
    exact ⟨_, none, hlocked, rfl, rfl⟩

/-- **Writing does the same in two trees that hold the same in the output directory.** -/
theorem parallel_writeFiles (h : Twins directory place t u) {files : List OutputFile}
    (hf : ∀ g ∈ files, Flat g) :
    Parallel place t u (writeFiles .write directory t files).told
      (writeFiles .write directory u files).told := by
  have hlock := parallel_takeLock h
  have htwins := hlock.twins h (built_takeLock t directory) (built_takeLock u directory)
  have hresult := hlock.result
  unfold writeFiles
  rw [if_neg (by decide), if_neg (by decide)]
  rcases ht : takeLock t directory with ⟨t', x⟩
  rcases hu : takeLock u directory with ⟨u', y⟩
  rw [ht, hu] at hlock htwins hresult
  obtain rfl : y = x := hresult
  cases y with
  | some f => exact hlock.trans (.refl place t' u' _)
  | none =>
    have hall := parallel_writeAll .write htwins hf
    have hwritten := hall.twins htwins (built_writeAll .write directory t' files)
      (built_writeAll .write directory u' files)
    obtain ⟨es, hes, htree, hutree⟩ := hwritten.removeFile (by decide : ".jnigen.lock" ≠ "..")
    refine (hlock.trans hall).trans ⟨es, (writeAll .write directory t' files).told.2, hes, ?_, ?_⟩
    · rw [← htree, ← lockOf_eq]
      rfl
    · rw [← hall.result, ← hutree, ← lockOf_eq]
      rfl

/-! ## 3. The output directory -/

/-- The directories above the output directory can be made first. -/
theorem writeFiles_of_made {made : FileTree} (h : t.makeDirectories directory = (made, none))
    (files : List OutputFile) :
    writeFiles .write directory t files = writeFiles .write directory made files := by
  have htaken : takeLock t directory = takeLock made directory := by
    unfold takeLock
    rw [h, makeDirectories_of_isDirectory (isDirectory_makeDirectories h)]
  unfold writeFiles
  rw [if_neg (by decide), if_neg (by decide), htaken]

/-- Nothing is written where the output directory cannot be made. -/
theorem writeFiles_of_not_made {made : FileTree} {e : OsError}
    (h : t.makeDirectories directory = (made, some e)) (files : List OutputFile) :
    writeFiles .write directory t files = { tree := made, fault := some (.os e) } := by
  unfold writeFiles takeLock
  rw [if_neg (by decide), h]

/-- Work in a directory: beside it nothing changes but that directories are made, and every directory that
is made leads to it. -/
structure Reaches (place : Place) (t u : FileTree) : Prop where
  beside : ∀ q, ¬place <+: q → Grown t u q
  directories : ∀ q, u.get? q = some .directory → t.get? q = some .directory ∨ q <+: place

theorem Reaches.refl (place : Place) (t : FileTree) : Reaches place t t :=
  ⟨fun _ _ => .inl rfl, fun _ hd => .inl hd⟩

/-- What neither is in the directory nor leads to it is as before. -/
theorem Reaches.get? (h : Reaches place t u) {q : Place} (hq : ¬place <+: q) (hq' : ¬q <+: place) :
    u.get? q = t.get? q := by
  refine (h.beside q hq).resolve_right fun ⟨hnone, hd⟩ => ?_
  rcases h.directories q hd with hbefore | hway
  · rw [hbefore] at hnone
    cases hnone
  · exact hq' hway

theorem reaches_of_paved (h : Paved place t u) : Reaches place t u := by
  refine ⟨fun q _ => h.grown q, fun q hd => ?_⟩
  rcases h q with hsame | ⟨hway, -, -⟩
  · exact .inl (hsame ▸ hd)
  · exact .inr hway

/-- The output directory as a twin of itself, once it is made. -/
theorem twins_of_made {made : FileTree} {base down : Place} (h : Descends t directory base down)
    (hmade : t.makeDirectories directory = (made, none)) :
    made.locate directory = .ok (base ++ down) ∧ made.get? (base ++ down) = some .directory := by
  have hopened := opened_makeDirectories t directory
  rw [hmade] at hopened
  obtain ⟨q, hq, hd⟩ := isDirectory_iff.1 (isDirectory_makeDirectories hmade)
  have hplace : q = base ++ down := by
    rw [eq_named_of_locate hq, hopened.named, h.named]
  exact hplace ▸ ⟨hq, hd⟩

/-- **Beside the output directory writing only makes directories above it.** -/
theorem reaches_writeFiles (mode : Mode) {base down : Place} (h : Descends t directory base down)
    {files : List OutputFile} (hf : ∀ g ∈ files, Flat g) :
    Reaches (base ++ down) t (writeFiles mode directory t files).tree := by
  by_cases hmode : mode = .write
  · subst hmode
    have hpaved := paved_makeDirectories h
    rcases hmade : t.makeDirectories directory with ⟨made, e⟩
    rw [hmade] at hpaved
    have hreaches := reaches_of_paved hpaved
    cases e with
    | some e =>
      rw [writeFiles_of_not_made hmade]
      exact hreaches
    | none =>
      obtain ⟨hl, hd⟩ := twins_of_made h hmade
      obtain ⟨es, r, hes, hwritten, -⟩ := parallel_writeFiles (Twins.refl hl hd) hf
      rw [writeFiles_of_made hmade]
      change Reaches _ t ((writeFiles .write directory made files).told).1
      rw [hwritten]
      refine ⟨fun q hq => ?_, fun q hd => hreaches.directories q (hes.get?_eq_directory hd)⟩
      unfold Grown
      rw [hes.get? hq]
      exact hreaches.beside q hq
  · rw [tree_writeFiles_of_ne hmode]
    exact .refl _ t

/-! ## 4. Directories above that are missing -/

/-- What writing comes to in a tree that holds the same in the output directory: it tells the same, and it
leaves the same there. -/
def Same (mode : Mode) (directory : Path) (place : Place) (t u : FileTree) (files : List OutputFile) : Prop :=
  (writeFiles mode directory u files).told.2 = (writeFiles mode directory t files).told.2 ∧
    ∀ q, place <+: q → (writeFiles mode directory u files).tree.get? q =
      (writeFiles mode directory t files).tree.get? q

/-- Runs that only look tell the same where they read the same. -/
theorem told_writeFiles_of_ne {mode : Mode} (hmode : mode ≠ .write) {files : List OutputFile}
    (h : ∀ g ∈ files, u.readBytes (placeOf directory g) = t.readBytes (placeOf directory g)) :
    (writeFiles mode directory u files).told.2 = (writeFiles mode directory t files).told.2 := by
  have one : ∀ g, u.readBytes (placeOf directory g) = t.readBytes (placeOf directory g) →
      (putFile mode directory u g).2 = (putFile mode directory t g).2 := by
    intro g hg
    unfold putFile
    dsimp only
    rw [bytesAt, bytesAt, hg]
    split
    · rfl
    split
    · rfl
    cases mode with
    | check => rfl
    | dryRun => rfl
    | write => exact absurd rfl hmode
  unfold writeFiles
  rw [if_pos hmode, if_pos hmode]
  induction files with
  | nil => rfl
  | cons g r ih =>
    have ih := ih fun x hx => h x (List.mem_cons_of_mem g hx)
    have hresult := one g (h g List.mem_cons_self)
    have htree := tree_putFile_of_ne hmode directory t g
    have hutree := tree_putFile_of_ne hmode directory u g
    rw [writeAll_cons, writeAll_cons]
    rcases ht : putFile mode directory t g with ⟨t', x⟩
    rcases hu : putFile mode directory u g with ⟨u', y⟩
    rw [ht, hu] at hresult
    rw [ht] at htree
    rw [hu] at hutree
    obtain rfl : y = x := hresult
    obtain rfl : t' = t := htree
    obtain rfl : u' = u := hutree
    cases y with
    | error e => rfl
    | ok result =>
      exact congrArg (fun told : List FileOutcome × Option Fault => (result :: told.1, told.2)) ih

section

variable {own : Place → Prop} {base down : Place} {files : List OutputFile} (hg : t.Grounded)
  (h : Descends t directory base down) (hb : Built own t u)
  (hway : ∀ q, q <+: down → Grown t u (base ++ q))
  (hsame : ∀ q, base ++ down <+: q → u.get? q = t.get? q) (hf : ∀ g ∈ files, Flat g)

include hg h hb hway hsame hf

theorem same_of_write : Same .write directory (base ++ down) t u files := by
  unfold Same
  have hu := h.of_built hb
  rcases makeDirectories_of_grown hg h hu hway with ⟨e, ht, hu'⟩ | ⟨ht, hu'⟩
  · rw [writeFiles_of_not_made ht, writeFiles_of_not_made hu']
    exact ⟨rfl, hsame⟩
  have hpavedt := paved_makeDirectories h
  have hpavedu := paved_makeDirectories hu
  rcases hmadet : t.makeDirectories directory with ⟨made, e⟩
  rcases hmadeu : u.makeDirectories directory with ⟨made', e'⟩
  rw [hmadet] at ht hpavedt
  rw [hmadeu] at hu' hpavedu
  obtain rfl : e = none := ht
  obtain rfl : e' = none := hu'
  obtain ⟨hlt, hdt⟩ := twins_of_made h hmadet
  obtain ⟨hlu, hdu⟩ := twins_of_made hu hmadeu
  have htwins : Twins directory (base ++ down) made made' := by
    refine ⟨hlt, hlu, hdt, fun q hq => ?_⟩
    by_cases hend : q = base ++ down
    · rw [hend, hdt, hdu]
    · have hbeyond : ¬q <+: base ++ down := fun hq' => hend (hq'.eq_of_length_le hq.length_le)
      rw [(hpavedu q).resolve_right fun hx => hbeyond hx.1,
        (hpavedt q).resolve_right fun hx => hbeyond hx.1, hsame q hq]
  have hparallel := parallel_writeFiles htwins hf
  rw [writeFiles_of_made hmadet, writeFiles_of_made hmadeu]
  refine ⟨hparallel.result, fun q hq => ?_⟩
  obtain ⟨es, r, -, hwt, hwu⟩ := hparallel
  rw [show (writeFiles .write directory made files).tree = made.edited es from congrArg Prod.fst hwt,
    show (writeFiles .write directory made' files).tree = made'.edited es from congrArg Prod.fst hwu]
  exact get?_edited_congr es (htwins.same q hq)

/-- **What is written does not depend on which of the directories above are there already**: it comes to
the same in a tree that holds the same in the output directory, in whatever mode. -/
theorem same_writeFiles (mode : Mode) : Same mode directory (base ++ down) t u files := by
  by_cases hmode : mode = .write
  · rw [hmode]
    exact same_of_write hg h hb hway hsame hf
  · refine ⟨told_writeFiles_of_ne hmode fun g hm => ?_, fun q hq => ?_⟩
    · rw [(hf g hm).placeOf]
      exact readBytes_of_grown hg h (h.of_built hb) hway hsame (hf g hm).2
    · rw [tree_writeFiles_of_ne hmode, tree_writeFiles_of_ne hmode]
      exact hsame q hq

end

end NativeGlue.Output
