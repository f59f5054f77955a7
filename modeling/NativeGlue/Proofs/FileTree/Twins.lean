import NativeGlue.Proofs.FileTree.Descent

/-!
# Trees that hold the same in a directory

Two trees may hold the same in a directory that is there in both (`Twins`). Then an operation on a name in it
does the same in both: it is refused for the same reason, or it makes the same edit there
(`Twins.writeBytes`, `Twins.moveFile`). What is read there is the same even if directories above are missing in
one of the trees (`readBytes_of_grown`).
-/

namespace NativeGlue

/-- The path of a name in a directory. -/
def Path.inside (directory : Path) (name : String) : Path :=
  ⟨directory.anchor, directory.parts ++ [name]⟩

theorem Path.parent_inside (directory : Path) (name : String) : (directory.inside name).parent = directory := by
  rw [inside, Path.parent, List.dropLast_concat]

namespace FileTree

open Place

variable {t u : FileTree} {directory : Path} {place base down : Place} {name : String}

/-! ## 1. Reading in a directory -/

theorem Descends.locate_inside (h : Descends t directory base down) (ha : (directory.inside name).Asked) :
    t.locate (directory.inside name) = (t.walk base down).bind fun q => t.walk q [name] := by
  rw [locate_of_asked ha, ← h.walk, ← walk_append]
  rfl

/-- **A file in a directory is read as in a tree in which directories above are missing**, if the directory
holds the same. -/
theorem readBytes_of_grown (hg : t.Grounded) (h : Descends t directory base down)
    (hu : Descends u directory base down) (hway : ∀ q, q <+: down → Grown t u (base ++ q))
    (hsame : ∀ q, base ++ down <+: q → u.get? q = t.get? q) (hn : name ≠ "..") :
    u.readBytes (directory.inside name) = t.readBytes (directory.inside name) := by
  by_cases ha : (directory.inside name).Asked
  · have hl := h.locate_inside ha
    have hlu := hu.locate_inside ha
    have hone : Straight [name] := fun hm => hn (List.mem_singleton.1 hm).symm
    have hlast : u.walk (base ++ down) [name] = t.walk (base ++ down) [name] := by
      refine walk_congr hone fun q hq _ _ => hsame q hq
    cases hw : t.walk base down with
    | ok q =>
      have hwu := walk_of_grown h.straight hway hw nofun
      obtain rfl : q = base ++ down := by
        rw [eq_of_walk hw, normalise_of_straight h.straight]
      rw [hw] at hl
      rw [hwu] at hlu
      have hlocate : u.locate (directory.inside name) = t.locate (directory.inside name) := by
        rw [hlu, hl]
        exact hlast
      unfold readBytes
      rw [hlocate]
      split
      · rfl
      · rename_i r hr
        rw [hl] at hr
        have hplace : r = base ++ down ++ [name] := by
          rw [eq_of_walk hr, normalise_of_straight hone]
        rw [hsame r (hplace ▸ List.prefix_append _ _)]
    | error c =>
      by_cases hc : c = .noEntry
      · -- the directory is missing in both trees, however far the walk comes in the second one
        subst hc
        have hnone : u.get? (base ++ down) = none :=
          (hsame _ List.prefix_rfl).trans (none_of_walk hg h.straight hw)
        have hrefused : u.locate (directory.inside name) = .error .noEntry := by
          rw [hlu]
          rcases walk_of_free hu.straight hu.short fun q hq _ =>
            (free_of_walk hg h.straight hw q hq).of_grown (hway q hq) with hwu | hwu
          · rw [hwu]
            change u.walk (base ++ down) [name] = _
            rw [walk, hnone]
          · rw [hwu]
            rfl
        unfold readBytes
        rw [hrefused, hl, hw]
        rfl
      · have hwu := walk_of_grown h.straight hway hw fun he => hc (Except.error.inj he)
        unfold readBytes
        rw [hlu, hl, hw, hwu]
        rfl
  · obtain ⟨c, -, hc⟩ := locate_of_not_asked ha
    unfold readBytes
    rw [hc u, hc t]

/-! ## 2. Edits -/

/-- A change of one place: what is put there, or nothing. -/
abbrev Edit := Place × Option Entry

/-- The tree after one edit. -/
def edit (t : FileTree) : Edit → FileTree
  | (q, some e) => t.put q e
  | (q, none) => t.remove q

/-- The tree after some edits. -/
def edited (t : FileTree) (es : List Edit) : FileTree := es.foldl edit t

/-- Edits of names in a directory that make no directory. -/
def Inside (place : Place) (es : List Edit) : Prop :=
  ∀ e ∈ es, (∃ name, e.1 = place ++ [name]) ∧ e.2 ≠ some .directory

theorem inside_single (place : Place) (name : String) {x : Option Entry} (hx : x ≠ some .directory) :
    Inside place [(place ++ [name], x)] := by
  intro e he
  rw [List.mem_singleton.1 he]
  exact ⟨⟨name, rfl⟩, hx⟩

theorem get?_edit_congr {q : Place} (h : u.get? q = t.get? q) (e : Edit) :
    (u.edit e).get? q = (t.edit e).get? q := by
  obtain ⟨r, x⟩ := e
  by_cases hq : q = r
  · subst hq
    by_cases hroot : q = []
    · rw [hroot]
      rfl
    cases x with
    | some x => exact (get?_put u hroot x).trans (get?_put t hroot x).symm
    | none =>
      have hgone : ∀ v : FileTree, (v.edit (q, none)).get? q = none := by
        intro v
        rw [edit, get?, List.isEmpty_eq_false_iff.2 hroot]
        exact lookup_eq_none.2 (not_mem_remove q)
      rw [hgone, hgone]
  · cases x with
    | some x => rw [edit, edit, get?_put_ne u hq, get?_put_ne t hq, h]
    | none => rw [edit, edit, get?_remove_ne u hq, get?_remove_ne t hq, h]

/-- The same edits keep places the same. -/
theorem get?_edited_congr {q : Place} (es : List Edit) (h : u.get? q = t.get? q) :
    (u.edited es).get? q = (t.edited es).get? q := by
  induction es generalizing t u with
  | nil => exact h
  | cons e r ih => exact ih (get?_edit_congr h e)

/-- Edits in a directory change nothing beside it. -/
theorem Inside.get? {es : List Edit} (h : Inside place es) {q : Place} (hq : ¬place <+: q) :
    (t.edited es).get? q = t.get? q := by
  induction es generalizing t with
  | nil => rfl
  | cons e r ih =>
    obtain ⟨⟨name, hname⟩, -⟩ := h e List.mem_cons_self
    obtain ⟨k, x⟩ := e
    have hne : q ≠ k := by
      rintro rfl
      have hplace : q = place ++ [name] := hname
      exact hq (hplace ▸ List.prefix_append place [name])
    have hfirst : (t.edit (k, x)).get? q = t.get? q := by
      cases x with
      | some x => exact get?_put_ne t hne x
      | none => exact get?_remove_ne t hne
    rw [← hfirst]
    exact ih fun e he => h e (List.mem_cons_of_mem _ he)

/-- What is a directory after such edits was one before. -/
theorem Inside.get?_eq_directory {es : List Edit} (h : Inside place es) {q : Place}
    (hd : (t.edited es).get? q = some .directory) : t.get? q = some .directory := by
  induction es generalizing t with
  | nil => exact hd
  | cons e r ih =>
    have hlater := ih (fun e he => h e (List.mem_cons_of_mem _ he)) hd
    obtain ⟨⟨name, hname⟩, hfile⟩ := h e List.mem_cons_self
    obtain ⟨k, x⟩ := e
    cases x with
    | some x =>
      by_cases hq : q = k
      · have hk : k ≠ [] := by
          rw [show k = place ++ [name] from hname]
          exact List.append_ne_nil_of_right_ne_nil place (List.cons_ne_nil name [])
        have hput : (t.put k x).get? q = some .directory := hlater
        rw [hq, get?_put t hk] at hput
        exact absurd hput hfile
      · exact (get?_put_ne t hq x).symm.trans hlater
    | none =>
      exact Classical.byContradiction fun hne => get?_remove_ne_directory hne hlater

/-! ## 3. Twins -/

/-- A path leads to the same directory in two trees, and they hold the same there. -/
structure Twins (directory : Path) (place : Place) (t u : FileTree) : Prop where
  left : t.locate directory = .ok place
  right : u.locate directory = .ok place
  made : t.get? place = some .directory
  same : ∀ q, place <+: q → u.get? q = t.get? q

theorem Twins.refl (hl : t.locate directory = .ok place) (hd : t.get? place = some .directory) :
    Twins directory place t t :=
  ⟨hl, hl, hd, fun _ _ => rfl⟩

/-- Twins stay so by the same edits, as long as no directory is taken away. -/
theorem Twins.edited {es : List Edit} {own own' : Place → Prop} (h : Twins directory place t u)
    (ht : Built own t (t.edited es)) (hu : Built own' u (u.edited es)) :
    Twins directory place (t.edited es) (u.edited es) :=
  ⟨ht.locate h.left, hu.locate h.right, ht.directory h.made,
    fun q hq => get?_edited_congr es (h.same q hq)⟩

/-- A name in a directory that is there leads to a place in it, unless it is refused by itself. -/
theorem locate_inside (hl : t.locate directory = .ok place) (hd : t.get? place = some .directory)
    (hn : name ≠ "..") (ha : (directory.inside name).Asked) :
    t.locate (directory.inside name) =
      if maxNameBytes < name.utf8ByteSize then .error .nameTooLong else .ok (place ++ [name]) := by
  have hwalk := walk_of_locate hl
  have hup : ¬(name == "..") = true := fun he => hn (beq_iff_eq.1 he)
  rw [locate_of_asked ha, Path.inside]
  change t.walk (if directory.isAbsolute then [] else t.cwd) (directory.parts ++ [name]) = _
  rw [walk_append, hwalk]
  change t.walk place [name] = _
  rw [walk, hd]
  dsimp only
  rw [if_neg hup]
  rfl

/-- A name in the directory of twins leads to the same place in both, or is refused by both. -/
theorem Twins.locate (h : Twins directory place t u) (hn : name ≠ "..") :
    (∃ c, t.locate (directory.inside name) = .error c ∧ u.locate (directory.inside name) = .error c) ∨
      (t.locate (directory.inside name) = .ok (place ++ [name]) ∧
        u.locate (directory.inside name) = .ok (place ++ [name]) ∧
        u.get? (place ++ [name]) = t.get? (place ++ [name])) := by
  by_cases ha : (directory.inside name).Asked
  · have hd : u.get? place = some .directory := (h.same place List.prefix_rfl).trans h.made
    rw [locate_inside h.left h.made hn ha, locate_inside h.right hd hn ha]
    split
    · exact .inl ⟨_, rfl, rfl⟩
    · exact .inr ⟨rfl, rfl, h.same _ (List.prefix_append place [name])⟩
  · obtain ⟨c, -, hc⟩ := locate_of_not_asked ha
    exact .inl ⟨c, hc t, hc u⟩

/-! ## 4. Operations on twins -/

/-- The directory of twins need not be made. -/
theorem Twins.makeDirectories (h : Twins directory place t u) :
    t.makeDirectories directory = (t, none) ∧ u.makeDirectories directory = (u, none) :=
  ⟨makeDirectories_of_isDirectory (isDirectory_iff.2 ⟨place, h.left, h.made⟩),
    makeDirectories_of_isDirectory (isDirectory_iff.2
      ⟨place, h.right, (h.same place List.prefix_rfl).trans h.made⟩)⟩

theorem Twins.readBytes (h : Twins directory place t u) (hn : name ≠ "..") :
    u.readBytes (directory.inside name) = t.readBytes (directory.inside name) := by
  unfold FileTree.readBytes
  rcases h.locate hn with ⟨c, ht, hu⟩ | ⟨ht, hu, hsame⟩
  · rw [ht, hu]
  · rw [ht, hu]
    dsimp only
    rw [hsame]

theorem Twins.writeBytes (h : Twins directory place t u) (hn : name ≠ "..") (b : ByteArray) :
    (∃ e, t.writeBytes (directory.inside name) b = .error e ∧
        u.writeBytes (directory.inside name) b = .error e) ∨
      (t.writeBytes (directory.inside name) b = .ok (t.edited [(place ++ [name], some (.file b))]) ∧
        u.writeBytes (directory.inside name) b = .ok (u.edited [(place ++ [name], some (.file b))])) := by
  unfold FileTree.writeBytes
  rcases h.locate hn with ⟨c, ht, hu⟩ | ⟨ht, hu, hsame⟩
  · rw [ht, hu]
    exact .inl ⟨_, rfl, rfl⟩
  · rw [ht, hu]
    dsimp only
    rw [hsame]
    split
    · exact .inl ⟨_, rfl, rfl⟩
    · exact .inr ⟨rfl, rfl⟩

theorem Twins.createNew (h : Twins directory place t u) (hn : name ≠ "..") (b : ByteArray) :
    (∃ e, t.createNew (directory.inside name) b = .error e ∧
        u.createNew (directory.inside name) b = .error e) ∨
      (t.createNew (directory.inside name) b = .ok (t.edited [(place ++ [name], some (.file b))]) ∧
        u.createNew (directory.inside name) b = .ok (u.edited [(place ++ [name], some (.file b))])) := by
  unfold FileTree.createNew
  rcases h.locate hn with ⟨c, ht, hu⟩ | ⟨ht, hu, hsame⟩
  · rw [ht, hu]
    exact .inl ⟨_, rfl, rfl⟩
  · rw [ht, hu]
    dsimp only
    rw [hsame]
    split
    · exact .inl ⟨_, rfl, rfl⟩
    · exact .inr ⟨rfl, rfl⟩

theorem Twins.moveFile {source : String} (h : Twins directory place t u) (hs : source ≠ "..")
    (hfile : t.get? (place ++ [source]) ≠ some .directory) (hn : name ≠ "..") :
    (∃ e, t.moveFile (directory.inside source) (directory.inside name) = .error e ∧
        u.moveFile (directory.inside source) (directory.inside name) = .error e) ∨
      ∃ e, e ≠ .directory ∧ t.moveFile (directory.inside source) (directory.inside name) =
          .ok (t.edited [(place ++ [source], none), (place ++ [name], some e)]) ∧
        u.moveFile (directory.inside source) (directory.inside name) =
          .ok (u.edited [(place ++ [source], none), (place ++ [name], some e)]) := by
  unfold FileTree.moveFile
  rcases h.locate hs with ⟨c, ht, hu⟩ | ⟨ht, hu, hsame⟩
  · rw [ht, hu]
    exact .inl ⟨_, rfl, rfl⟩
  rcases h.locate hn with ⟨c, ht', hu'⟩ | ⟨ht', hu', hsame'⟩
  · rw [ht, hu, ht', hu']
    exact .inl ⟨_, rfl, rfl⟩
  rw [ht, hu, ht', hu']
  dsimp only
  rw [hsame, hsame']
  split
  · exact .inl ⟨_, rfl, rfl⟩
  · exact .inl ⟨_, rfl, rfl⟩
  · rename_i e he _
    exact .inr ⟨e, fun hd => hfile (hd ▸ he), rfl, rfl⟩

theorem Twins.removeFile (h : Twins directory place t u) (hn : name ≠ "..") :
    ∃ es, Inside place es ∧ t.removeFile (directory.inside name) = t.edited es ∧
      u.removeFile (directory.inside name) = u.edited es := by
  unfold FileTree.removeFile
  rcases h.locate hn with ⟨c, ht, hu⟩ | ⟨ht, hu, -⟩
  · rw [ht, hu]
    exact ⟨[], nofun, rfl, rfl⟩
  · rw [ht, hu]
    exact ⟨[(place ++ [name], none)], inside_single place name nofun, rfl, rfl⟩

end FileTree

end NativeGlue
