import Mathlib.Data.List.Basic
import NativeGlue.FileTree

/-!
# What an operation leaves as it is

An operation on a tree touches a few places, none of which is a directory, and leaves all others as
they are (`SameBut`). Directories stay, so a path that leads somewhere still leads there
(`SameBut.locate`). What the steps of a run do is of this kind: beside places of their own they touch
free ones only, where they make directories (`Built`), so a file of somebody else is read as before
(`Built.readBytes`).
-/

namespace NativeGlue.FileTree

/-! ## 1. Reading -/

/-- The place that a path names, `..` taken away by name alone. -/
def named (t : FileTree) (p : Path) : Place :=
  normalise (if p.isAbsolute then [] else t.cwd) p.parts

/-- A walk that does not fail ends where the names say. -/
theorem eq_of_walk {t : FileTree} {start q : Place} {names : List String}
    (h : t.walk start names = .ok q) : q = normalise start names := by
  fun_induction walk t start names with
  | case1 => exact (Except.ok.inj h).symm
  | case2 => cases h
  | case3 => cases h
  | case4 _ n _ _ hup ih =>
    rw [normalise, if_pos hup]
    exact ih h
  | case5 => cases h
  | case6 _ n _ _ hup _ ih =>
    rw [normalise, if_neg hup]
    exact ih h

theorem walk_of_locate {t : FileTree} {p : Path} {q : Place} (h : t.locate p = .ok q) :
    t.walk (if p.isAbsolute then [] else t.cwd) p.parts = .ok q := by
  unfold locate at h
  split at h
  · cases h
  split at h
  · cases h
  exact h

/-- A path that leads somewhere leads to the place that it names. -/
theorem eq_named_of_locate {t : FileTree} {p : Path} {q : Place} (h : t.locate p = .ok q) :
    q = t.named p :=
  eq_of_walk (walk_of_locate h)

theorem readBytes_eq_ok_iff {t : FileTree} {p : Path} {b : ByteArray} :
    t.readBytes p = .ok b ↔ ∃ q, t.locate p = .ok q ∧ t.get? q = some (.file b) := by
  unfold readBytes
  constructor
  · intro h
    split at h
    · cases h
    rename_i q hq
    split at h
    · cases h
    · cases h
    · rename_i hb
      cases h
      exact ⟨q, hq, hb⟩
  · rintro ⟨q, hq, hb⟩
    rw [hq]
    dsimp only
    rw [hb]

theorem isDirectory_iff {t : FileTree} {p : Path} :
    t.isDirectory p = true ↔ ∃ q, t.locate p = .ok q ∧ t.get? q = some .directory := by
  unfold isDirectory find?
  rw [beq_iff_eq]
  constructor
  · intro h
    obtain ⟨q, hq, hd⟩ := Option.bind_eq_some_iff.1 h
    cases hl : t.locate p with
    | error c =>
      rw [hl] at hq
      cases hq
    | ok q' =>
      rw [hl] at hq
      cases hq
      exact ⟨q, rfl, hd⟩
  · rintro ⟨q, hq, hd⟩
    rw [hq]
    exact hd

/-- A place at which there is no directory is not the root. -/
theorem ne_nil_of_get? {t : FileTree} {q : Place} (h : t.get? q ≠ some .directory) : q ≠ [] := by
  rintro rfl
  exact h rfl

/-! ## 2. The same but for some places -/

/-- Two trees are the same but for some places, none of which is a directory in the first one. -/
structure SameBut (places : List Place) (t u : FileTree) : Prop where
  rest : (u.entries.filter fun e => !places.contains e.1) =
    t.entries.filter fun e => !places.contains e.1
  cwd : u.cwd = t.cwd
  homes : u.homes = t.homes
  spared : ∀ q ∈ places, t.get? q ≠ some .directory

theorem lookup_filter_not_mem {places : List Place} {q : Place} (h : q ∉ places)
    (es : List (Place × Entry)) :
    (es.filter fun e => !places.contains e.1).lookup q = es.lookup q := by
  induction es with
  | nil => rfl
  | cons e r ih =>
    obtain ⟨k, v⟩ := e
    by_cases hk : k ∈ places
    · have hne : (q == k) = false := beq_eq_false_iff_ne.2 fun he => h (he ▸ hk)
      rw [List.filter_cons_of_neg (by simpa using hk), ih, List.lookup_cons, hne]
    · rw [List.filter_cons_of_pos (by simpa using hk), List.lookup_cons, List.lookup_cons, ih]

variable {places others : List Place} {t u v : FileTree}

theorem SameBut.get? (h : SameBut places t u) {q : Place} (hq : q ∉ places) : u.get? q = t.get? q := by
  unfold FileTree.get?
  rw [← lookup_filter_not_mem hq u.entries, h.rest, lookup_filter_not_mem hq]

/-- Directories stay. -/
theorem SameBut.directory (h : SameBut places t u) {q : Place} (hq : t.get? q = some .directory) :
    u.get? q = some .directory := by
  rw [h.get? fun hm => h.spared q hm hq, hq]

theorem SameBut.refl (t : FileTree) : SameBut [] t t := ⟨rfl, rfl, rfl, nofun⟩

theorem SameBut.trans (h : SameBut places t u) (h' : SameBut others u v) :
    SameBut (places ++ others) t v := by
  have both : ∀ es : List (Place × Entry),
      (es.filter fun e => !(places ++ others).contains e.1) =
        ((es.filter fun e => !places.contains e.1).filter fun e => !others.contains e.1) := by
    intro es
    rw [List.filter_filter]
    refine List.filter_congr fun e _ => ?_
    rw [Bool.eq_iff_iff]
    simp [and_comm]
  refine ⟨?_, h'.cwd.trans h.cwd, h'.homes.trans h.homes, fun q hq hd => ?_⟩
  · rw [both, List.filter_comm, h'.rest, List.filter_comm, h.rest, ← both]
  · rcases List.mem_append.1 hq with hq | hq
    · exact h.spared q hq hd
    · exact h'.spared q hq (h.directory hd)

theorem sameBut_put {q : Place} (h : t.get? q ≠ some .directory) (e : Entry) :
    SameBut [q] t (t.put q e) := by
  refine ⟨?_, rfl, rfl, fun p hp => List.mem_singleton.1 hp ▸ h⟩
  rw [put, List.filter_cons_of_neg (by simp), List.filter_filter]
  refine List.filter_congr fun e _ => ?_
  rw [Bool.eq_iff_iff]
  simp

theorem sameBut_remove {q : Place} (h : t.get? q ≠ some .directory) : SameBut [q] t (t.remove q) := by
  refine ⟨?_, rfl, rfl, fun p hp => List.mem_singleton.1 hp ▸ h⟩
  rw [remove, List.filter_filter]
  refine List.filter_congr fun e _ => ?_
  rw [Bool.eq_iff_iff]
  simp

/-! ## 3. Walking again -/

theorem SameBut.walk (h : SameBut places t u) {start q : Place} {names : List String}
    (hw : t.walk start names = .ok q) : u.walk start names = .ok q := by
  fun_induction FileTree.walk t start names with
  | case1 => exact hw
  | case2 => cases hw
  | case3 => cases hw
  | case4 _ n _ hd hup ih =>
    rw [FileTree.walk, h.directory hd]
    dsimp only
    rw [if_pos hup]
    exact ih hw
  | case5 => cases hw
  | case6 _ n _ hd hup hlong ih =>
    rw [FileTree.walk, h.directory hd]
    dsimp only
    rw [if_neg hup, if_neg hlong]
    exact ih hw

/-- A path that leads somewhere leads there still. -/
theorem SameBut.locate (h : SameBut places t u) {p : Path} {q : Place} (hl : t.locate p = .ok q) :
    u.locate p = .ok q := by
  have hw := h.walk (walk_of_locate hl)
  unfold FileTree.locate at hl ⊢
  split at hl
  · cases hl
  rename_i hname
  split at hl
  · cases hl
  rename_i hlong
  rw [if_neg hname, if_neg hlong, h.cwd]
  exact hw

theorem SameBut.named (h : SameBut places t u) (p : Path) : u.named p = t.named p := by
  rw [FileTree.named, FileTree.named, h.cwd]

theorem SameBut.isDirectory (h : SameBut places t u) {p : Path} (hd : t.isDirectory p = true) :
    u.isDirectory p = true := by
  obtain ⟨q, hq, hd⟩ := isDirectory_iff.1 hd
  exact isDirectory_iff.2 ⟨q, h.locate hq, h.directory hd⟩

/-! ## 4. Building -/

/-- One tree becomes another one by changes at own places, and by directories at places that were
free. -/
def Built (own : Place → Prop) (t u : FileTree) : Prop :=
  ∃ places, SameBut places t u ∧
    ∀ q ∈ places, own q ∨ (t.get? q = none ∧ u.get? q = some .directory)

section

variable {own : Place → Prop}

theorem Built.refl (t : FileTree) : Built own t t := ⟨[], .refl t, nofun⟩

theorem SameBut.built (h : SameBut places t u) (hown : ∀ q ∈ places, own q) : Built own t u :=
  ⟨places, h, fun q hq => .inl (hown q hq)⟩

theorem Built.mono {own' : Place → Prop} (h : Built own t u) (hown : ∀ q, own q → own' q) :
    Built own' t u := by
  obtain ⟨places, hs, hp⟩ := h
  exact ⟨places, hs, fun q hq => (hp q hq).imp_left (hown q)⟩

theorem Built.trans (h : Built own t u) (h' : Built own u v) : Built own t v := by
  obtain ⟨places, hs, hp⟩ := h
  obtain ⟨others, hs', ho⟩ := h'
  refine ⟨places ++ others, hs.trans hs', fun q hq => ?_⟩
  rcases List.mem_append.1 hq with hq | hq
  · exact (hp q hq).imp_right fun h => ⟨h.1, hs'.directory h.2⟩
  refine (ho q hq).elim .inl fun hnew => ?_
  by_cases hfree : q ∈ places
  · refine (hp q hfree).imp_right fun h => ?_
    rw [hnew.1] at h
    cases h.2
  · exact .inr ⟨hs.get? hfree ▸ hnew.1, hnew.2⟩

/-- What stands at a place that is no own one stays. -/
theorem Built.get? (h : Built own t u) {q : Place} (hq : ¬own q) {e : Entry}
    (he : t.get? q = some e) : u.get? q = some e := by
  obtain ⟨places, hs, hp⟩ := h
  rw [hs.get? fun hm => ?_, he]
  rcases hp q hm with h | h
  · exact hq h
  · rw [he] at h
    cases h.1

theorem Built.directory (h : Built own t u) {q : Place} (hq : t.get? q = some .directory) :
    u.get? q = some .directory := by
  obtain ⟨places, hs, -⟩ := h
  exact hs.directory hq

theorem Built.locate (h : Built own t u) {p : Path} {q : Place} (hq : t.locate p = .ok q) :
    u.locate p = .ok q := by
  obtain ⟨places, hs, -⟩ := h
  exact hs.locate hq

theorem Built.named (h : Built own t u) (p : Path) : u.named p = t.named p := by
  obtain ⟨places, hs, -⟩ := h
  exact hs.named p

theorem Built.isDirectory (h : Built own t u) {p : Path} (hd : t.isDirectory p = true) :
    u.isDirectory p = true := by
  obtain ⟨places, hs, -⟩ := h
  exact hs.isDirectory hd

/-- A file at a place that is no own one is read as before. -/
theorem Built.readBytes (h : Built own t u) {p : Path} {b : ByteArray} (hb : t.readBytes p = .ok b)
    (hp : ¬own (t.named p)) : u.readBytes p = .ok b := by
  obtain ⟨q, hq, hb⟩ := readBytes_eq_ok_iff.1 hb
  exact readBytes_eq_ok_iff.2 ⟨q, h.locate hq, h.get? (eq_named_of_locate hq ▸ hp) hb⟩

end

/-! ## 5. Making directories -/

/-- One tree becomes another one by directories at places that were free. -/
abbrev Opened (t u : FileTree) : Prop := Built (fun _ => False) t u

theorem opened_makeDirectory {p : Path} (h : t.makeDirectory p = .ok u) :
    Opened t u ∧ u.isDirectory p = true := by
  unfold makeDirectory at h
  split at h
  · cases h
  rename_i q hq
  split at h
  · cases h
  rename_i hnone
  cases h
  have hd : t.get? q ≠ some .directory := by
    rw [hnone]
    exact nofun
  have hs := sameBut_put hd .directory
  have hput := get?_put t (ne_nil_of_get? hd) .directory
  refine ⟨⟨[q], hs, fun p hp => .inr ?_⟩, isDirectory_iff.2 ⟨q, hs.locate hq, hput⟩⟩
  rw [List.mem_singleton.1 hp]
  exact ⟨hnone, hput⟩

/-- Making directories opens places, and at the end of a path if it does not fail. -/
theorem opened_makeDirectoriesFrom (t : FileTree) (p : Path) (n : Nat) :
    Opened t (t.makeDirectoriesFrom p n).1 ∧
      ((t.makeDirectoriesFrom p n).2 = none → (t.makeDirectoriesFrom p n).1.isDirectory p = true) := by
  have last : ∀ (t : FileTree) (p : Path), Opened t (t.makeDirectoriesFrom p 0).1 ∧
      ((t.makeDirectoriesFrom p 0).2 = none → (t.makeDirectoriesFrom p 0).1.isDirectory p = true) := by
    intro t p
    unfold makeDirectoriesFrom
    split
    · rename_i hu
      exact ⟨(opened_makeDirectory hu).1, fun _ => (opened_makeDirectory hu).2⟩
    · refine ⟨.refl t, fun hnone => ?_⟩
      dsimp only at hnone
      split at hnone
      · rename_i hd
        exact (Bool.and_eq_true_iff.1 hd).2
      · cases hnone
  induction n generalizing p with
  | zero => exact last t p
  | succ n ih =>
    unfold makeDirectoriesFrom
    split
    · rename_i hu
      exact ⟨(opened_makeDirectory hu).1, fun _ => (opened_makeDirectory hu).2⟩
    split
    · split
      · rename_i u hu
        have hparent := (ih p.parent).1
        rw [hu] at hparent
        exact ⟨hparent.trans (last u p).1, (last u p).2⟩
      · rename_i hfailed
        refine ⟨(ih p.parent).1, fun hnone => ?_⟩
        exact (hfailed _ (Prod.ext rfl hnone)).elim
    · refine ⟨.refl t, fun hnone => ?_⟩
      dsimp only at hnone
      split at hnone
      · rename_i hd
        exact hd
      · cases hnone

/-- Making directories opens places. -/
theorem opened_makeDirectories (t : FileTree) (p : Path) : Opened t (t.makeDirectories p).1 :=
  (opened_makeDirectoriesFrom t p _).1

theorem isDirectory_makeDirectories {p : Path} (h : t.makeDirectories p = (u, none)) :
    u.isDirectory p = true := by
  have hd := (opened_makeDirectoriesFrom t p p.parts.length).2
  rw [show t.makeDirectoriesFrom p p.parts.length = (u, none) from h] at hd
  exact hd rfl

/-- Where a directory is refused for another reason than a missing place, none is made above it. -/
theorem makeDirectoriesFrom_of_refused {p : Path} {e : OsError} (h : t.makeDirectory p = .error e)
    (hcause : e.cause ≠ .noEntry) (n : Nat) :
    t.makeDirectoriesFrom p n = (t, if t.isDirectory p then none else some e) := by
  cases n with
  | zero =>
    rw [makeDirectoriesFrom, h]
    dsimp only
    rw [bne_iff_ne.2 hcause, Bool.true_and]
  | succ n =>
    rw [makeDirectoriesFrom, h]
    dsimp only
    rw [if_neg hcause]

/-- Nothing is made where a directory is. -/
theorem makeDirectoriesFrom_of_isDirectory {p : Path} (h : t.isDirectory p = true) (n : Nat) :
    t.makeDirectoriesFrom p n = (t, none) := by
  obtain ⟨q, hq, hd⟩ := isDirectory_iff.1 h
  have hexists : t.makeDirectory p = .error (.at .fileExists p) := by
    rw [makeDirectory, hq]
    dsimp only
    rw [hd]
  rw [makeDirectoriesFrom_of_refused hexists nofun, if_pos h]

theorem makeDirectories_of_isDirectory {p : Path} (h : t.isDirectory p = true) :
    t.makeDirectories p = (t, none) :=
  makeDirectoriesFrom_of_isDirectory h _

/-! ## 6. Files -/

theorem writeBytes_eq_ok {p : Path} {b : ByteArray} (h : t.writeBytes p b = .ok u) :
    t.locate p = .ok (t.named p) ∧ t.get? (t.named p) ≠ some .directory ∧
      u = t.put (t.named p) (.file b) := by
  unfold writeBytes at h
  split at h
  · cases h
  rename_i q hq
  split at h
  · cases h
  rename_i hd
  cases h
  rw [beq_iff_eq] at hd
  obtain rfl := eq_named_of_locate hq
  exact ⟨hq, hd, rfl⟩

theorem createNew_eq_ok {p : Path} {b : ByteArray} (h : t.createNew p b = .ok u) :
    t.locate p = .ok (t.named p) ∧ t.get? (t.named p) = none ∧ u = t.put (t.named p) (.file b) := by
  unfold createNew at h
  split at h
  · cases h
  rename_i q hq
  split at h
  · cases h
  rename_i hnone
  cases h
  rw [Bool.not_eq_true, Option.isSome_eq_false_iff, Option.isNone_iff_eq_none] at hnone
  obtain rfl := eq_named_of_locate hq
  exact ⟨hq, hnone, rfl⟩

theorem moveFile_eq_ok {source destination : Path} (h : t.moveFile source destination = .ok u) :
    ∃ e, t.get? (t.named source) = some e ∧ t.locate destination = .ok (t.named destination) ∧
      t.get? (t.named destination) ≠ some .directory ∧
      u = (t.remove (t.named source)).put (t.named destination) e := by
  unfold moveFile at h
  split at h
  · cases h
  · cases h
  rename_i a b ha hb
  obtain rfl := eq_named_of_locate ha
  obtain rfl := eq_named_of_locate hb
  split at h
  · cases h
  · cases h
  rename_i e he hd
  cases h
  exact ⟨e, he, hb, hd, rfl⟩

/-- Taking an entry away makes no directory. -/
theorem get?_remove_ne_directory {q p : Place} (h : t.get? p ≠ some .directory) :
    (t.remove q).get? p ≠ some .directory := by
  by_cases hp : p = q
  · have hnone : (t.entries.filter fun x => x.1 != q).lookup q = none := by
      refine List.lookup_eq_none_iff.2 fun x hx => ?_
      rw [bne_comm]
      exact (List.mem_filter.1 hx).2
    have hne : p.isEmpty = false := List.isEmpty_eq_false_iff.2 (ne_nil_of_get? h)
    intro hd
    rw [FileTree.get?, hne, hp, remove, hnone] at hd
    cases hd
  · rwa [get?_remove_ne t hp]

/-- What is written is there, and nothing else is changed. -/
theorem sameBut_writeBytes {p : Path} {b : ByteArray} (h : t.writeBytes p b = .ok u) :
    SameBut [t.named p] t u ∧ u.get? (t.named p) = some (.file b) := by
  obtain ⟨-, hd, rfl⟩ := writeBytes_eq_ok h
  exact ⟨sameBut_put hd _, get?_put t (ne_nil_of_get? hd) _⟩

/-- A file that is moved is read at its new path, and nothing else is changed but the old one. -/
theorem sameBut_moveFile {source destination : Path} {b : ByteArray}
    (h : t.moveFile source destination = .ok u)
    (hsource : t.get? (t.named source) = some (.file b)) :
    SameBut [t.named source, t.named destination] t u ∧ u.readBytes destination = .ok b := by
  obtain ⟨e, he, hlocate, hdestination, rfl⟩ := moveFile_eq_ok h
  obtain rfl := Option.some.inj (hsource.symm.trans he)
  have hfile : t.get? (t.named source) ≠ some .directory := by
    intro hd
    rw [hsource] at hd
    cases hd
  have hfree := get?_remove_ne_directory (q := t.named source) hdestination
  have hsame := (sameBut_remove hfile).trans (sameBut_put hfree (.file b))
  refine ⟨hsame, readBytes_eq_ok_iff.2 ⟨_, hsame.locate hlocate, ?_⟩⟩
  exact get?_put _ (ne_nil_of_get? hfree) _

theorem removeFile_of_locate {p : Path} {q : Place} (h : t.locate p = .ok q) :
    t.removeFile p = t.remove q := by
  rw [removeFile, h]

/-- An entry that is taken away again leaves no trace where there was none. -/
theorem remove_put {q : Place} (h : q ∉ t.entries.map (·.1)) (e : Entry) : (t.put q e).remove q = t := by
  have hfree : (t.entries.filter fun x => x.1 != q) = t.entries := by
    refine List.filter_eq_self.2 fun x hx => bne_iff_ne.2 fun he => h ?_
    exact he ▸ List.mem_map_of_mem hx
  unfold remove put
  rw [hfree, List.filter_cons_of_neg (by simp), hfree]

theorem not_mem_remove (q : Place) : q ∉ (t.remove q).entries.map (·.1) := by
  intro h
  obtain ⟨e, he, hq⟩ := List.mem_map.1 h
  exact bne_iff_ne.1 (List.mem_filter.1 he).2 hq

end NativeGlue.FileTree
