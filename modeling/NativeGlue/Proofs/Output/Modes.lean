import Mathlib.Data.List.Infix
import NativeGlue.Proofs.FileTree.Descent
import NativeGlue.Proofs.Output.Unhindered
import NativeGlue.Proofs.Text.Occurrence

/-!
# Looking and writing agree

Files are dealt with one after the other, in a tree that writing changes as it goes, while a run that only
looks sees the tree as it was. Both come to the same results, file by file, if the files do not get in each
other's way: what is written for one file, the file itself, the temporary one beside it and the directories
above it, leaves everything that another file needs as it is (`Ready.of_laid`).

The main statement is `modes_agree`. That the files are at places of their own is not enough
(`not_modes_agree`): a file may lie below the temporary file of another one, a path may climb out of a
directory that another file makes, and a name may have room for the file but not for the temporary one.
-/

namespace NativeGlue

/-- The places above a place. -/
def Place.above (q : Place) : List Place := q.dropLast.inits

theorem Place.mem_above_concat {q r : Place} {n : String} : r ∈ Place.above (q ++ [n]) ↔ r <+: q := by
  rw [above, List.dropLast_concat, List.mem_inits]

namespace Output

open NativeGlue.FileTree NativeGlue.Code Place

variable {t u : FileTree} {directory p : Path} {base down : Place} {n : String}

/-! ## 1. One file -/

/-- A file can be put at a path, or found to be there: the path and the one of the temporary file beside it
lead down from a directory, nothing but directories is on the way, no directory is at the end, and if
something is there, so are the directories above it. -/
structure Ready (t : FileTree) (p : Path) (base down : Place) (n : String) : Prop where
  place : Descends t p base (down ++ [n])
  beside : Descends t (temporaryFor p) base (down ++ ["." ++ n ++ ".tmp"])
  asked : p.Asked
  askedBeside : (temporaryFor p).Asked
  way : ∀ q, q <+: down → Free t (base ++ q)
  free : t.get? (base ++ (down ++ [n])) ≠ some .directory
  freeBeside : t.get? (base ++ (down ++ ["." ++ n ++ ".tmp"])) ≠ some .directory
  grounded : t.get? (base ++ (down ++ [n])) ≠ none → ∀ q, q <+: down → t.get? (base ++ q) = some .directory

/-- A walk below directories comes to its end. -/
theorem walk_of_directories {names : Place} (hs : Straight names) (hshort : Short names)
    (h : ∀ q, q <+: names → q ≠ names → t.get? (base ++ q) = some .directory) :
    t.walk base names = .ok (base ++ names) := by
  induction names generalizing base with
  | nil => simp [walk]
  | cons m r ih =>
    have hm : ¬(m == "..") = true := fun he => hs (beq_iff_eq.1 he ▸ List.mem_cons_self)
    have hlong : ¬maxNameBytes < m.utf8ByteSize := Nat.not_lt.2 (hshort m List.mem_cons_self)
    have hfirst := h [] List.nil_prefix (List.cons_ne_nil m r).symm
    rw [List.append_nil] at hfirst
    rw [walk, hfirst]
    dsimp only
    rw [if_neg hm, if_neg hlong, ih (fun hr => hs (List.mem_cons_of_mem m hr))
      (fun x hx => hshort x (List.mem_cons_of_mem m hx)) fun q hq hne => ?_]
    · simp
    · have hq' := h (m :: q) (List.cons_prefix_cons.2 ⟨rfl, hq⟩) fun he => hne (List.cons.inj he).2
      simpa using hq'

/-- The path of the temporary file leads down where the one of the file does, if its name is not too long. -/
theorem descends_temporaryFor (h : Descends t p base (down ++ [n]))
    (hroom : (temporaryFor p).name.utf8ByteSize ≤ maxNameBytes) :
    Descends t (temporaryFor p) base (down ++ ["." ++ n ++ ".tmp"]) := by
  obtain ⟨up, hparts, hup⟩ := h.climbs
  have hlast : p.name = n := by
    rw [Path.name, hparts, ← List.append_assoc, List.getLast?_concat]
    rfl
  rw [temporaryFor, hlast, Path.name, Path.withName, List.getLast?_concat, Option.getD_some] at hroom
  have hnot : "." ++ n ++ ".tmp" ≠ ".." := by
    intro he
    have hlength := congrArg (fun s : String => s.toList.length) he
    simp at hlength
  refine ⟨⟨up, ?_, hup⟩, h.directory, fun hmem => ?_, fun m hmem => ?_⟩
  · rw [temporaryFor, hlast, Path.withName, hparts, ← List.append_assoc, List.dropLast_concat,
      List.append_assoc]
  · rcases List.mem_append.1 hmem with hmem | hmem
    · exact h.straight (List.mem_append_left _ hmem)
    · exact hnot (List.mem_singleton.1 hmem).symm
  · rcases List.mem_append.1 hmem with hmem | hmem
    · exact h.short m (List.mem_append_left _ hmem)
    · exact List.mem_singleton.1 hmem ▸ hroom

namespace Ready

/-- A proper part of the way to a file is part of the way to its directory. -/
theorem prefix_down {q : Place} {m : String} (hq : q <+: down ++ [m]) (hne : q ≠ down ++ [m]) : q <+: down :=
  (List.prefix_concat_iff.1 hq).resolve_left hne

theorem named (h : Ready t p base down n) : t.named p = base ++ (down ++ [n]) := h.place.named

theorem named_beside (h : Ready t p base down n) :
    t.named (temporaryFor p) = base ++ (down ++ ["." ++ n ++ ".tmp"]) := h.beside.named

/-- What is read at the path is the file that stands there. -/
theorem readBytes_iff (h : Ready t p base down n) {b : ByteArray} :
    t.readBytes p = .ok b ↔ t.get? (t.named p) = some (.file b) := by
  rw [readBytes_eq_ok_iff]
  constructor
  · rintro ⟨q, hq, hb⟩
    rwa [← eq_named_of_locate hq]
  · intro hb
    refine ⟨t.named p, ?_, hb⟩
    rw [h.place.locate h.asked, h.named]
    rw [h.named] at hb
    refine walk_of_directories h.place.straight h.place.short fun q hq hne => ?_
    exact h.grounded (by rw [hb]; exact nofun) q (prefix_down hq hne)

/-- The file holds what was generated for it just if that stands at its place. -/
theorem holds_iff {g : OutputFile} (h : Ready t (placeOf directory g) base down n) :
    Holds t directory g ↔ t.fileAt? (t.named (placeOf directory g)) = some g.content.toUTF8 := by
  refine ⟨fileAt?_of_readBytes, fun hat => ?_⟩
  unfold fileAt? at hat
  split at hat
  · rename_i b hb
    obtain rfl := Option.some.inj hat
    exact h.readBytes_iff.2 hb
  · cases hat

/-- Looking for the file goes well. -/
theorem bytesAt_eq (h : Ready t p base down n) : bytesAt t p = .ok (t.fileAt? (t.named p)) := by
  unfold bytesAt
  cases hr : t.readBytes p with
  | ok b =>
    rw [fileAt?_of_file (h.readBytes_iff.1 hr)]
  | error e =>
    have hnone : t.fileAt? (t.named p) = none := by
      unfold fileAt?
      split
      · rename_i b hb
        rw [h.readBytes_iff.2 hb] at hr
        cases hr
      · rfl
    have hcause : e.cause = .noEntry := by
      unfold FileTree.readBytes at hr
      rw [h.place.locate h.asked] at hr
      rcases walk_of_free h.place.straight h.place.short
        (fun q hq hne => h.way q (prefix_down hq hne)) with hw | hw
      · rw [hw] at hr
        dsimp only at hr
        split at hr
        · cases hr
          rfl
        · rename_i hd
          exact absurd hd h.free
        · cases hr
      · rw [hw] at hr
        cases hr
        rfl
    rw [hnone]
    exact if_pos hcause

/-- The directories above the file are made, where they are missing, and nothing else is changed. -/
theorem makeDirectories (h : Ready t p base down n) : ∃ made, t.makeDirectories p.parent = (made, none) ∧
    Paved (base ++ down) t made ∧ Opened t made ∧
      ∀ q, q <+: down → made.get? (base ++ q) = some .directory := by
  have hnone := makeDirectories_of_free h.place.parent h.asked.parent h.way
  have hmade : t.makeDirectories p.parent = ((t.makeDirectories p.parent).1, none) := Prod.ext rfl hnone
  have hopened := opened_makeDirectories t p.parent
  refine ⟨_, hmade, paved_makeDirectories h.place.parent, hopened, fun q hq => ?_⟩
  obtain ⟨place, hplace, hd⟩ := isDirectory_iff.1 (isDirectory_makeDirectories hmade)
  have hdescends := h.place.parent.of_built hopened
  rw [hdescends.locate h.asked.parent] at hplace
  by_cases hne : q = down
  · rwa [hne, ← normalise_of_straight hdescends.straight, ← eq_of_walk hplace]
  · exact directory_of_walk hdescends.straight hplace q hq hne

/-- Below directories a path leads to the place that it names, and a file can be put there. -/
theorem clear_of_directories {p : Path} {m : String} (hp : Descends u p base (down ++ [m])) (ha : p.Asked)
    (hd : ∀ q, q <+: down → u.get? (base ++ q) = some .directory)
    (hfree : u.get? (base ++ (down ++ [m])) ≠ some .directory) : Clear u p := by
  refine ⟨?_, ?_, ?_⟩
  · obtain ⟨up, hparts, -⟩ := hp.climbs
    rw [hparts]
    simp
  · rw [hp.locate ha, hp.named]
    exact walk_of_directories hp.straight hp.short fun q hq hne => hd q (prefix_down hq hne)
  · rwa [hp.named]

end Ready

/-- A file was put at a path: what changed are its place and the one of the temporary file beside it, where no
directory is, and directories above it, where nothing was. -/
structure Laid (t u : FileTree) (p : Path) : Prop where
  built : Built (Beside t p) t u
  rest : ∀ q, u.get? q = t.get? q ∨ (Beside t p q ∧ u.get? q ≠ some .directory) ∨
    (q ∈ (t.named p).above ∧ t.get? q = none ∧ u.get? q = some .directory)

theorem Laid.refl (t : FileTree) (p : Path) : Laid t t p := ⟨.refl t, fun _ => .inl rfl⟩

/-- A way down is too short to lead to what stands at its end. -/
theorem not_prefix_concat {base down : Place} {m : String} : ¬base ++ (down ++ [m]) <+: base ++ down := by
  intro h
  have hl := h.length_le
  simp at hl

/-- **A file is put at a path that is ready for it.** -/
theorem Ready.replaceFile (h : Ready t p base down n) (bytes : ByteArray) :
    ∃ u, Output.replaceFile t p bytes = (u, none) ∧ Laid t u p := by
  obtain ⟨made, hmade, hpaved, hopened, hd⟩ := h.makeDirectories
  have unpaved : ∀ m, t.get? (base ++ (down ++ [m])) ≠ some .directory →
      made.get? (base ++ (down ++ [m])) ≠ some .directory := by
    intro m hm
    rcases hpaved (base ++ (down ++ [m])) with he | ⟨hpre, -⟩
    · rwa [he]
    · exact absurd hpre not_prefix_concat
  have hclear := clear_of_directories (h.place.of_built hopened) h.asked hd (unpaved n h.free)
  have hclearBeside := clear_of_directories (h.beside.of_built hopened) h.askedBeside hd
    (unpaved _ h.freeBeside)
  obtain ⟨u, hput, places, hs, hfiles⟩ := replaceFile_of_clear hclear hclearBeside bytes
  -- the directories are there, so that putting the file goes on as from the tree that has them
  have hsame : Output.replaceFile t p bytes = Output.replaceFile made p bytes := by
    unfold Output.replaceFile
    rw [hmade, makeDirectories_of_isDirectory (isDirectory_makeDirectories hmade)]
  have hnamed : ∀ p : Path, made.named p = t.named p := hopened.named
  have hbuilt := (built_replaceFile made p bytes).1
  rw [hput] at hbuilt
  refine ⟨u, hsame.trans hput, ⟨?_, fun q => ?_⟩⟩
  · refine (hopened.mono fun _ => False.elim).trans (hbuilt.mono fun q hq => ?_)
    rwa [Beside, hnamed, hnamed] at hq
  · by_cases hq : Beside t p q
    · refine .inr (.inl ⟨hq, ?_⟩)
      by_cases hmem : q ∈ places
      · exact hfiles q hmem
      · rw [hs.get? hmem]
        rcases hq with rfl | rfl
        · rw [h.named]
          exact unpaved n h.free
        · rw [h.named_beside]
          exact unpaved _ h.freeBeside
    · have hkept : u.get? q = made.get? q := by
        obtain ⟨touched, hs', htouched⟩ := hbuilt
        by_cases hmem : q ∈ touched
        · have hown : ¬Beside made p q := by rwa [Beside, hnamed, hnamed]
          obtain ⟨hnone, hdirectory⟩ := (htouched q hmem).resolve_left hown
          by_cases hmem' : q ∈ places
          · exact absurd hdirectory (hfiles q hmem')
          · exact hs.get? hmem'
        · exact hs'.get? hmem
      rw [hkept]
      rcases hpaved q with he | ⟨hpre, hnone, hdirectory⟩
      · exact .inl he
      · refine .inr (.inr ⟨?_, hnone, hdirectory⟩)
        rw [h.named, ← List.append_assoc]
        exact mem_above_concat.2 hpre

/-- **A file is dealt with in any mode**, and reported as unchanged just if it holds what was generated. -/
theorem Ready.putFile {g : OutputFile} (h : Ready t (placeOf directory g) base down n) (mode : Mode) :
    ∃ u r, Output.putFile mode directory t g = (u, .ok r) ∧ Laid t u (placeOf directory g) ∧
      r.relativePath = g.relativePath ∧ (r.changed = false ↔ Holds t directory g) := by
  by_cases hholds : Holds t directory g
  · exact ⟨t, _, putFile_of_holds mode hholds, .refl t _, rfl, by simp [hholds, FileOutcome.changed]⟩
  · have hdiffers : (t.fileAt? (t.named (placeOf directory g))).any (sameBytes g.content.toUTF8) = false := by
      cases hat : t.fileAt? (t.named (placeOf directory g)) with
      | none => rfl
      | some b =>
        refine Bool.eq_false_iff.2 fun hsame => hholds ?_
        rw [← sameBytes_iff.1 hsame] at hat
        exact h.holds_iff.2 hat
    obtain ⟨u, hreplaced, hlaid⟩ := h.replaceFile g.content.toUTF8
    unfold Output.putFile
    dsimp only
    rw [h.bytesAt_eq]
    dsimp only
    rw [hdiffers]
    cases mode with
    | check => exact ⟨t, _, rfl, .refl t _, rfl, by simp [hholds, FileOutcome.changed]⟩
    | dryRun => exact ⟨t, _, rfl, .refl t _, rfl, by simp [hholds, FileOutcome.changed]⟩
    | write =>
      dsimp only
      rw [hreplaced]
      exact ⟨u, _, rfl, hlaid, rfl, by simp [hholds, FileOutcome.changed]⟩

/-! ## 2. Files that leave each other alone -/

/-- Dealing with one file leaves alone what another one needs: the place of the other one, the directories
above it, and that neither at this place nor at the one of the temporary file a directory is made. -/
structure Aside (t : FileTree) (directory : Path) (g x : OutputFile) : Prop where
  place : ¬Beside t (placeOf directory g) (t.named (placeOf directory x))
  way : ∀ q ∈ (t.named (placeOf directory x)).above, ¬Beside t (placeOf directory g) q
  roof : ∀ q, Beside t (placeOf directory x) q → q ∉ (t.named (placeOf directory g)).above

/-- What stands at the place of a file is as before when another one was dealt with. -/
theorem Aside.get? {g x : OutputFile} (ha : Aside t directory g x) (hl : Laid t u (placeOf directory g)) :
    u.get? (t.named (placeOf directory x)) = t.get? (t.named (placeOf directory x)) := by
  rcases hl.rest (t.named (placeOf directory x)) with he | ⟨hbeside, -⟩ | ⟨habove, -⟩
  · exact he
  · exact absurd hbeside ha.place
  · exact absurd habove (ha.roof _ (.inl rfl))

/-- **A file that can be put at its path can be put there still** when another one was dealt with. -/
theorem Ready.of_laid {g x : OutputFile} (h : Ready t (placeOf directory x) base down n)
    (ha : Aside t directory g x) (hl : Laid t u (placeOf directory g)) :
    Ready u (placeOf directory x) base down n := by
  have hplace := ha.get? hl
  have hway := ha.way
  rw [h.named] at hplace hway
  rw [← List.append_assoc] at hway
  refine ⟨h.place.of_built hl.built, h.beside.of_built hl.built, h.asked, h.askedBeside, fun q hq => ?_, ?_, ?_,
    fun hsome q hq => ?_⟩
  · have habove : base ++ q ∈ Place.above (base ++ down ++ [n]) :=
      mem_above_concat.2 ((List.prefix_append_right_inj base).2 hq)
    rcases hl.rest (base ++ q) with he | ⟨hbeside, -⟩ | ⟨-, -, hd⟩
    · exact (h.way q hq).imp he.trans he.trans
    · exact absurd hbeside (hway _ habove)
    · exact .inr hd
  · rw [hplace]
    exact h.free
  · rcases hl.rest (base ++ (down ++ ["." ++ n ++ ".tmp"])) with he | ⟨-, hne⟩ | ⟨habove, -⟩
    · rw [he]
      exact h.freeBeside
    · exact hne
    · exact absurd habove (ha.roof _ (.inr h.named_beside.symm))
  · rw [hplace] at hsome
    exact hl.built.directory (h.grounded hsome q hq)

/-! ## 3. All files -/

/-- A result tells truly of a file: it is told under its name, and as unchanged just if the file holds in the
tree what was generated for it. -/
def TellsOf (t : FileTree) (directory : Path) (g : OutputFile) (r : FileOutcome) : Prop :=
  r.relativePath = g.relativePath ∧ (r.changed = false ↔ Holds t directory g)

/-- **In any mode the results tell of the tree as it was at first**, though writing changes it as it goes. -/
theorem tellsOf_writeAll (mode : Mode) {files : List OutputFile}
    (hready : ∀ g ∈ files, ∃ base down n, Ready t (placeOf directory g) base down n)
    (haside : files.Pairwise (Aside t directory)) :
    (writeAll mode directory t files).fault = none ∧
      List.Forall₂ (TellsOf t directory) files (writeAll mode directory t files).results := by
  induction files generalizing t with
  | nil => exact ⟨rfl, .nil⟩
  | cons g rest ih =>
    obtain ⟨base, down, n, hg⟩ := hready g List.mem_cons_self
    obtain ⟨u, r, hput, hlaid, hname, hchanged⟩ := hg.putFile mode
    obtain ⟨hfirst, hlater⟩ := List.pairwise_cons.1 haside
    have hnamed : ∀ p : Path, u.named p = t.named p := hlaid.built.named
    have hrest : ∀ x ∈ rest, ∃ base down n, Ready t (placeOf directory x) base down n ∧
        Ready u (placeOf directory x) base down n := by
      intro x hx
      obtain ⟨base, down, n, h⟩ := hready x (List.mem_cons_of_mem _ hx)
      exact ⟨base, down, n, h, h.of_laid (hfirst x hx) hlaid⟩
    have haside' : rest.Pairwise (Aside u directory) := by
      refine hlater.imp fun {a b} hab => ⟨?_, ?_, ?_⟩
      · simpa only [Beside, hnamed] using hab.place
      · simpa only [Beside, hnamed] using hab.way
      · simpa only [Beside, hnamed] using hab.roof
    have hready' : ∀ x ∈ rest, ∃ base down n, Ready u (placeOf directory x) base down n := fun x hx => by
      obtain ⟨base, down, n, -, h⟩ := hrest x hx
      exact ⟨base, down, n, h⟩
    obtain ⟨hfault, hresults⟩ := ih hready' haside'
    rw [writeAll_cons, hput]
    refine ⟨hfault, .cons ⟨hname, hchanged⟩ ?_⟩
    -- what the later files hold is what they held at first
    refine List.forall₂_iff_zip.2 ⟨hresults.length_eq, fun {x o} hmem => ?_⟩
    obtain ⟨hx, ho⟩ := List.forall₂_iff_zip.1 hresults |>.2 hmem
    obtain ⟨base, down, n, ht, hu⟩ := hrest x (List.of_mem_zip hmem).1
    have hsame := (hfirst x (List.of_mem_zip hmem).1).get? hlaid
    refine ⟨hx, ho.trans ?_⟩
    rw [hu.holds_iff, ht.holds_iff, hnamed, fileAt?_congr hsame]

/-- What a result says of a file: its name, and whether it is changed. -/
def told (r : FileOutcome) : String × Bool := (r.relativePath, r.changed)

/-- Results that tell truly of the same files say the same. -/
theorem map_told_eq {files : List OutputFile} {rs rs' : List FileOutcome}
    (h : List.Forall₂ (TellsOf t directory) files rs) (h' : List.Forall₂ (TellsOf t directory) files rs') :
    rs.map told = rs'.map told := by
  induction h generalizing rs' with
  | nil =>
    cases h'
    rfl
  | cons hr _ ih =>
    cases h' with
    | cons hr' h' =>
      rw [List.map_cons, List.map_cons, ih h']
      refine congrArg (· :: _) (Prod.ext (hr.1.trans hr'.1.symm) ?_)
      have hiff := hr.2.trans hr'.2.symm
      exact Bool.eq_iff_iff.2 (by simpa [told] using not_congr hiff)

/-! ## 4. The modes -/

/-- The places that belong to generated files: theirs, and those of the temporary files beside them. -/
def ownPlaces (t : FileTree) (directory : Path) (files : List OutputFile) : List Place :=
  files.flatMap fun g => [t.named (placeOf directory g), t.named (temporaryFor (placeOf directory g))]

theorem mem_ownPlaces {files : List OutputFile} {q : Place} :
    q ∈ ownPlaces t directory files ↔ Belongs t directory files q := by
  simp [ownPlaces, Belongs, Beside]

/-- The places of files are apart: no two are the same, none of them and none beside them is a directory or
lies below a file or below one of them, and none beside them is one of them. -/
structure Apart (t : FileTree) (directory : Path) (files : List OutputFile) : Prop where
  distinct : (files.map fun g => t.named (placeOf directory g)).Nodup
  free : ∀ q ∈ ownPlaces t directory files, t.get? q ≠ some .directory
  unblocked : ∀ q ∈ ownPlaces t directory files, ∀ r ∈ q.above,
    t.fileAt? r = none ∧ r ∉ files.map fun g => t.named (placeOf directory g)
  own : ∀ g ∈ files, t.named (temporaryFor (placeOf directory g)) ∉
    files.map fun x => t.named (placeOf directory x)

/-- The places of files are apart and can be used: none lies below a place beside them, a path climbs among
directories only that are there, and the system takes the paths and the names, also those of the temporary
files. -/
structure Usable (t : FileTree) (directory : Path) (files : List OutputFile) : Prop extends
    Apart t directory files where
  unblockedBeside : ∀ q ∈ ownPlaces t directory files, ∀ r ∈ q.above,
    r ∉ files.map fun g => t.named (temporaryFor (placeOf directory g))
  descends : ∀ g ∈ files, ∃ base down, Descends t (placeOf directory g) base down
  asked : ∀ g ∈ files, (placeOf directory g).Asked ∧ (temporaryFor (placeOf directory g)).Asked
  room : ∀ g ∈ files, (temporaryFor (placeOf directory g)).name.utf8ByteSize ≤ maxNameBytes

namespace Usable

variable {files : List OutputFile}

/-- Nothing but directories is on the way to a file. -/
theorem way (h : Usable t directory files) {g : OutputFile} (hm : g ∈ files)
    (hd : Descends t (placeOf directory g) base (down ++ [n])) : ∀ q, q <+: down → Free t (base ++ q) := by
  intro q hq
  have habove : base ++ q ∈ (t.named (placeOf directory g)).above := by
    rw [hd.named, ← List.append_assoc]
    exact mem_above_concat.2 ((List.prefix_append_right_inj base).2 hq)
  have hplace : t.named (placeOf directory g) ∈ ownPlaces t directory files :=
    mem_ownPlaces.2 ⟨g, hm, .inl rfl⟩
  have hnofile := (h.unblocked _ hplace _ habove).1
  cases he : t.get? (base ++ q) with
  | none => exact .inl he
  | some e =>
    cases e with
    | directory => exact .inr he
    | file b =>
      rw [fileAt?_of_file he] at hnofile
      cases hnofile

/-- A file can be put at its path, and the temporary one beside it. -/
theorem ready (h : Usable t directory files) (hg : t.Grounded) {g : OutputFile} (hm : g ∈ files) :
    ∃ base down n, Ready t (placeOf directory g) base down n := by
  obtain ⟨base, d, hd⟩ := h.descends g hm
  have hfree := h.free (t.named (placeOf directory g)) (mem_ownPlaces.2 ⟨g, hm, .inl rfl⟩)
  have hfreeBeside := h.free (t.named (temporaryFor (placeOf directory g)))
    (mem_ownPlaces.2 ⟨g, hm, .inr rfl⟩)
  rw [hd.named] at hfree
  rcases List.eq_nil_or_concat' d with rfl | ⟨down, n, rfl⟩
  · rw [List.append_nil] at hfree
    exact absurd hd.directory hfree
  have hside := descends_temporaryFor hd (h.room g hm)
  rw [hside.named] at hfreeBeside
  refine ⟨base, down, n, ⟨hd, hside, (h.asked g hm).1, (h.asked g hm).2, h.way hm hd, hfree, hfreeBeside,
    fun hsome q hq => ?_⟩⟩
  have hpre : base ++ q <+: base ++ down := (List.prefix_append_right_inj base).2 hq
  refine hg.above hsome (hpre.trans ?_) fun he => not_prefix_concat (he ▸ hpre)
  exact (List.prefix_append_right_inj base).2 (List.prefix_append down [n])

/-- Nothing that belongs to a file stands above something that belongs to a file. -/
theorem not_above (h : Usable t directory files) {q r : Place} (hq : Belongs t directory files q)
    (hr : Belongs t directory files r) : r ∉ q.above := by
  intro habove
  obtain ⟨x, hx, rfl | rfl⟩ := hr
  · exact (h.unblocked q (mem_ownPlaces.2 hq) _ habove).2 (List.mem_map.2 ⟨x, hx, rfl⟩)
  · exact h.unblockedBeside q (mem_ownPlaces.2 hq) _ habove (List.mem_map.2 ⟨x, hx, rfl⟩)

/-- Dealing with a file leaves alone what the files behind it need. -/
theorem pairwise_aside (h : Usable t directory files) : files.Pairwise (Aside t directory) := by
  have hdistinct : files.Pairwise fun g x =>
      t.named (placeOf directory g) ≠ t.named (placeOf directory x) := List.pairwise_map.1 h.distinct
  refine hdistinct.imp_of_mem fun {g x} hg hx hne => ⟨?_, fun q hq hbeside => ?_, fun q hbeside hq => ?_⟩
  · rintro (he | he)
    · exact hne he.symm
    · exact h.own g hg (List.mem_map.2 ⟨x, hx, he⟩)
  · exact h.not_above ⟨x, hx, .inl rfl⟩ ⟨g, hg, hbeside⟩ hq
  · exact h.not_above ⟨g, hg, .inl rfl⟩ ⟨x, hx, hbeside⟩ hq

end Usable

/-- **All modes agree.** Where the places of files are apart and can be used, a run in any mode goes well, and
its results tell of the same files in the same order, each as unchanged just if it holds already what was
generated for it. A run that only looks leaves the tree as it is. Where the run writes, each file holds in the
end what was generated for it, and no other regular file is changed but temporary ones beside them; a run after
it, in any mode, finds all files unchanged. -/
theorem modes_agree (hg : t.Grounded) {files : List OutputFile} (h : Usable t directory files) :
    (∀ mode, (writeAll mode directory t files).fault = none ∧
      List.Forall₂ (TellsOf t directory) files (writeAll mode directory t files).results) ∧
    (∀ mode mode', (writeAll mode directory t files).results.map told =
      (writeAll mode' directory t files).results.map told) ∧
    (∀ mode, mode ≠ .write → (writeAll mode directory t files).tree = t) ∧
    (∀ g ∈ files, Holds (writeAll .write directory t files).tree directory g) ∧
    (∀ q, ¬Belongs t directory files q →
      (writeAll .write directory t files).tree.fileAt? q = t.fileAt? q) ∧
    ∀ mode, writeAll mode directory (writeAll .write directory t files).tree files =
      { tree := (writeAll .write directory t files).tree,
        results := files.map fun g => ⟨g.relativePath, .unchanged, ""⟩ } := by
  have htells := fun mode => tellsOf_writeAll mode (fun g hm => h.ready hg hm) h.pairwise_aside
  have hholds := holds_writeAll (fun g hm x hx he => h.own x hx (List.mem_map.2 ⟨g, hm, he⟩)) h.distinct
    (htells .write).1
  refine ⟨htells, fun mode mode' => map_told_eq (htells mode).2 (htells mode').2,
    fun mode hmode => tree_writeAll_of_ne hmode directory t files, hholds, fun q hq => ?_,
    fun mode => writeAll_of_holds mode hholds⟩
  exact (built_writeAll .write directory t files).fileAt? hq

/-! ## 5. What the places have to be like -/

/-- The working directory. -/
def here : Path := ⟨.here, []⟩

/-- A tree with nothing in it. -/
def bare : FileTree := ⟨[], [], []⟩

/-- A tree with one file that is up to date and one that is not. -/
def shelf : FileTree :=
  ⟨[(["a"], .directory), (["a", "old.c"], .file "1".toUTF8), (["b.c"], .file "2".toUTF8)], [], []⟩

/-- Files in a directory that is there, in new ones, and beside the directory by way of it. -/
def shelved : List OutputFile := [⟨"a/old.c", "3"⟩, ⟨"a/new/x.c", "4"⟩, ⟨"a/../b.c", "2"⟩]

theorem grounded_shelf : shelf.Grounded := by
  unfold Grounded
  decide +kernel

theorem usable_shelved : Usable shelf here shelved where
  distinct := by decide +kernel
  free := by decide +kernel
  unblocked := by decide +kernel
  own := by decide +kernel
  unblockedBeside := by decide +kernel
  descends := by
    intro g hg
    simp only [shelved, List.mem_cons, List.not_mem_nil, or_false] at hg
    rcases hg with rfl | rfl | rfl
    · exact ⟨[], ["a", "old.c"], ⟨[], by decide +kernel, rfl⟩, rfl, by decide, by decide +kernel⟩
    · exact ⟨[], ["a", "new", "x.c"], ⟨[], by decide +kernel, rfl⟩, rfl, by decide, by decide +kernel⟩
    · exact ⟨[], ["b.c"], ⟨["a", ".."], by decide +kernel, by decide +kernel⟩, rfl, by decide,
        by decide +kernel⟩
  asked := by
    unfold Path.Asked
    decide +kernel
  room := by decide +kernel

theorem modes_agree_shelved :
    (∀ mode, (writeAll mode here shelf shelved).fault = none ∧
      List.Forall₂ (TellsOf shelf here) shelved (writeAll mode here shelf shelved).results) ∧
    (∀ mode mode', (writeAll mode here shelf shelved).results.map told =
      (writeAll mode' here shelf shelved).results.map told) ∧
    (∀ mode, mode ≠ .write → (writeAll mode here shelf shelved).tree = shelf) ∧
    (∀ g ∈ shelved, Holds (writeAll .write here shelf shelved).tree here g) ∧
    (∀ q, ¬Belongs shelf here shelved q →
      (writeAll .write here shelf shelved).tree.fileAt? q = shelf.fileAt? q) ∧
    ∀ mode, writeAll mode here (writeAll .write here shelf shelved).tree shelved =
      { tree := (writeAll .write here shelf shelved).tree,
        results := shelved.map fun g => ⟨g.relativePath, .unchanged, ""⟩ } :=
  modes_agree grounded_shelf usable_shelved

/-- A file below the temporary file of another one, which is found to be a directory. -/
def beneath : List OutputFile := [⟨".x.tmp/y", "1"⟩, ⟨"x", "2"⟩]

/-- A file by way of a directory that another file makes. -/
def around : List OutputFile := [⟨"c/x", "1"⟩, ⟨"c/../b.c", "2"⟩]

/-- A name that has room for the file, but not for the temporary one. -/
structure Lengthy (name : String) : Prop where
  whole : '/' ∉ name.toList
  nameable : Char.ofNat 0 ∉ name.toList
  long : maxNameBytes < ("." ++ name ++ ".tmp").utf8ByteSize
  short : name.utf8ByteSize ≤ maxNameBytes

namespace Lengthy

variable {name : String}

theorem size (h : Lengthy name) : 250 < name.utf8ByteSize := by
  have hlong := h.long
  have hdot : (".".utf8ByteSize = 1) ∧ ".tmp".utf8ByteSize = 4 := by decide
  rw [String.utf8ByteSize_append, String.utf8ByteSize_append, hdot.1, hdot.2, maxNameBytes] at hlong
  omega

/-- A lengthy name is none of those with a meaning of their own. -/
theorem ne_of_size (h : Lengthy name) {s : String} (hs : s.utf8ByteSize ≤ 250) : name ≠ s := by
  rintro rfl
  exact absurd h.size (Nat.not_lt.2 hs)

theorem placeOf_eq (h : Lengthy name) (content : String) : placeOf here ⟨name, content⟩ = ⟨.here, [name]⟩ := by
  have hkept : (name != "" && name != ".") = true := by
    simp [h.ne_of_size (s := "") (by decide), h.ne_of_size (s := ".") (by decide)]
  have hwhole := h.whole
  have hanchor : Path.anchorOf name.toList = .here := by
    unfold Path.anchorOf
    split <;> simp_all
  have hread : Path.ofString name = ⟨.here, [name]⟩ := by
    rw [Path.ofString, hanchor, Text.splitAt_of_not_mem hwhole, List.filter_singleton, hkept]
    rfl
  show here.join (Path.ofString name) = _
  rw [hread]
  rfl

/-- The system takes a single name that is not longer than a path may be. -/
theorem asked_single {m : String} (hzero : Char.ofNat 0 ∉ m.toList) (hm : m.utf8ByteSize ≤ maxPathBytes) :
    Path.Asked ⟨.here, [m]⟩ := by
  refine ⟨by simpa [Path.isNameable] using hzero, Nat.not_lt.2 ?_⟩
  rw [Path.utf8ByteSize_toString]
  have hanchor : (Path.anchorText .here).utf8ByteSize = 0 := by decide
  have hmax : 1 ≤ maxPathBytes := by decide
  rw [hanchor, String.intercalate_singleton]
  omega

/-- In the tree with nothing in it a name leads to its place if it is short enough. -/
theorem locate_bare {m : String} (ha : Path.Asked ⟨.here, [m]⟩) (hup : m ≠ "..") :
    bare.locate ⟨.here, [m]⟩ =
      if maxNameBytes < m.utf8ByteSize then .error .nameTooLong else .ok [m] := by
  rw [locate_of_asked ha]
  simp only [startOf, Path.isAbsolute, bare, walk, FileTree.get?]
  simp [hup]

/-- **A file with a lengthy name is found to be missing, but it cannot be written.** -/
theorem not_written (h : Lengthy name) (hend : ("." ++ name ++ ".tmp").utf8ByteSize ≤ maxPathBytes)
    (content : String) : Apart bare here [⟨name, content⟩] ∧
      (writeAll .check here bare [⟨name, content⟩]).fault = none ∧
      (writeAll .write here bare [⟨name, content⟩]).fault ≠ none := by
  have hplace := h.placeOf_eq content
  have htemp : temporaryFor ⟨.here, [name]⟩ = ⟨.here, ["." ++ name ++ ".tmp"]⟩ := rfl
  have hup : name ≠ ".." := h.ne_of_size (by decide)
  have htempUp : "." ++ name ++ ".tmp" ≠ ".." := fun he => by
    have hlong := h.long
    rw [he] at hlong
    exact absurd hlong (by decide)
  have hzero : Char.ofNat 0 ∉ ("." ++ name ++ ".tmp").toList := by
    simpa using h.nameable
  have hlocate : bare.locate ⟨.here, [name]⟩ = .ok [name] := by
    rw [locate_bare (asked_single h.nameable (h.short.trans (by decide))) hup, if_neg (Nat.not_lt.2 h.short)]
  have hbytes : bytesAt bare ⟨.here, [name]⟩ = .ok none := by
    rw [bytesAt, readBytes, hlocate]
    rfl
  have hnamed : ∀ {m : String}, m ≠ ".." → bare.named ⟨.here, [m]⟩ = [m] := fun {m} hm => by
    simp [FileTree.named, normalise, Path.isAbsolute, bare, hm]
  have hown : ownPlaces bare here [⟨name, content⟩] = [[name], ["." ++ name ++ ".tmp"]] := by
    simp only [ownPlaces, List.flatMap_singleton, hplace, htemp, hnamed hup, hnamed htempUp]
  have hmissing : ∀ q ∈ ownPlaces bare here [⟨name, content⟩], ∃ m, q = [m] := by simp [hown]
  refine ⟨⟨?_, fun q hq => ?_, fun q hq r hr => ?_, ?_⟩, ?_, ?_⟩
  · simp
  · obtain ⟨m, rfl⟩ := hmissing q hq
    intro hfound
    cases hfound
  · obtain ⟨m, rfl⟩ := hmissing q hq
    obtain rfl : r = [] := List.prefix_nil.1 (mem_above_concat (q := []).1 hr)
    exact ⟨rfl, by simp [hplace, hnamed hup]⟩
  · have hne : "." ++ name ++ ".tmp" ≠ name := fun he => by
      have hlong := h.long
      rw [he] at hlong
      exact Nat.not_lt.2 h.short hlong
    simpa [hplace, htemp, hnamed hup, hnamed htempUp] using hne
  · rw [writeAll_cons, Output.putFile, hplace]
    dsimp only
    rw [hbytes]
    rfl
  · have hmade : bare.makeDirectories (Path.parent ⟨.here, [name]⟩) = (bare, none) :=
      makeDirectories_of_isDirectory (show bare.isDirectory here = true by decide +kernel)
    have hwrite : bare.writeBytes ⟨.here, ["." ++ name ++ ".tmp"]⟩ content.toUTF8 =
        .error (.at .nameTooLong ⟨.here, ["." ++ name ++ ".tmp"]⟩) := by
      rw [writeBytes, locate_bare (asked_single hzero hend) htempUp, if_pos h.long]
    rw [writeAll_cons, Output.putFile, hplace]
    dsimp only
    rw [hbytes]
    dsimp only
    rw [if_neg (by simp), Output.replaceFile, hmade]
    dsimp only
    rw [htemp, hwrite]
    intro hfault
    cases hfault

end Lengthy

/-- A name of two hundred and fifty-two characters. -/
def lengthyName : String := String.ofList (List.replicate 252 'n')

theorem lengthy_lengthyName : Lengthy lengthyName ∧
    ("." ++ lengthyName ++ ".tmp").utf8ByteSize ≤ maxPathBytes := by
  have hsize : lengthyName.utf8ByteSize = 252 := by
    refine (String.utf8ByteSize_ofList _).trans ?_
    decide +kernel
  have hletters : lengthyName.toList = List.replicate 252 'n' := String.toList_ofList
  have hends : ".".utf8ByteSize = 1 ∧ ".tmp".utf8ByteSize = 4 := by decide
  have hlong : ("." ++ lengthyName ++ ".tmp").utf8ByteSize = 257 := by
    rw [String.utf8ByteSize_append, String.utf8ByteSize_append, hsize, hends.1, hends.2]
  refine ⟨⟨?_, ?_, ?_, ?_⟩, ?_⟩
  · rw [hletters, List.mem_replicate]
    decide
  · rw [hletters, List.mem_replicate]
    decide
  · rw [hlong]
    decide
  · rw [hsize]
    decide
  · rw [hlong]
    decide

/-- **Places that are apart are not enough for the modes to agree.** -/
theorem not_modes_agree :
    ((bare.Grounded ∧ Apart bare here beneath) ∧ (writeAll .check here bare beneath).fault = none ∧
      (writeAll .write here bare beneath).fault ≠ none) ∧
    ((shelf.Grounded ∧ Apart shelf here around) ∧ (writeAll .check here shelf around).fault = none ∧
      (writeAll .write here shelf around).fault = none ∧
      (writeAll .check here shelf around).results.map told = [("c/x", true), ("c/../b.c", true)] ∧
      (writeAll .write here shelf around).results.map told = [("c/x", true), ("c/../b.c", false)]) ∧
    ((bare.Grounded ∧ Apart bare here [⟨lengthyName, "1"⟩]) ∧
      (writeAll .check here bare [⟨lengthyName, "1"⟩]).fault = none ∧
      (writeAll .write here bare [⟨lengthyName, "1"⟩]).fault ≠ none) := by
  have hbare : bare.Grounded := nofun
  obtain ⟨hapart, hlong⟩ := lengthy_lengthyName.1.not_written lengthy_lengthyName.2 "1"
  refine ⟨⟨⟨hbare, ⟨?_, ?_, ?_, ?_⟩⟩, ?_, ?_⟩, ⟨⟨grounded_shelf, ⟨?_, ?_, ?_, ?_⟩⟩, ?_, ?_, ?_, ?_⟩,
    ⟨⟨hbare, hapart⟩, hlong⟩⟩
  all_goals decide +kernel

end Output

end NativeGlue
