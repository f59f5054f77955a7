import NativeGlue.Proofs.FileTree.Straight

/-!
# Making directories on the way down

A path that leads down from a directory (`Descends`) names the places on its way. Directories are made at
these places and nowhere else (`paved_makeDirectories`). If nothing but directories is on the way, they
can be made (`makeDirectories_of_free`); whether they can be made does not depend on which of them are
there already (`makeDirectories_of_grown`).
-/

namespace NativeGlue.FileTree

open Place

variable {t u v : FileTree} {base down : Place} {p : Path}

/-! ## 1. Paths that lead down -/

/-- A path leads down from a directory: what of it climbs does so among directories that are there. -/
structure Descends (t : FileTree) (p : Path) (base down : Place) : Prop where
  climbs : ∃ up, p.parts = up ++ down ∧ t.walk (t.startOf p) up = .ok base
  directory : t.get? base = some .directory
  straight : Straight down
  short : Short down

namespace Descends

theorem walk (h : Descends t p base down) : t.walk (t.startOf p) p.parts = t.walk base down := by
  obtain ⟨up, hp, hup⟩ := h.climbs
  rw [hp, walk_append, hup]
  rfl

/-- The place that a path leads to, if the system is asked about it. -/
theorem locate (h : Descends t p base down) (ha : p.Asked) : t.locate p = t.walk base down := by
  rw [← h.walk]
  exact locate_of_asked ha

theorem named (h : Descends t p base down) : t.named p = base ++ down := by
  have happend : ∀ (done : Place) (a b : List String),
      normalise done (a ++ b) = normalise (normalise done a) b := by
    intro done a b
    induction a generalizing done with
    | nil => rfl
    | cons n r ih => rw [List.cons_append, normalise, normalise, ih]
  obtain ⟨up, hp, hup⟩ := h.climbs
  have hstart : t.named p = normalise (t.startOf p) p.parts := rfl
  rw [hstart, hp, happend, ← eq_of_walk hup, normalise_of_straight h.straight]

theorem of_built {own : Place → Prop} (h : Descends t p base down) (hb : Built own t u) :
    Descends u p base down := by
  obtain ⟨up, hp, hup⟩ := h.climbs
  obtain ⟨places, hs, -⟩ := id hb
  have hstart : u.startOf p = t.startOf p := by
    unfold startOf
    rw [hs.cwd]
  refine ⟨⟨up, hp, ?_⟩, hb.directory h.directory, h.straight, h.short⟩
  rw [hstart]
  exact hs.walk hup

theorem parent {n : String} (h : Descends t p base (down ++ [n])) : Descends t p.parent base down := by
  obtain ⟨up, hp, hup⟩ := h.climbs
  refine ⟨⟨up, ?_, hup⟩, h.directory, fun hm => h.straight (List.mem_append_left _ hm),
    fun m hm => h.short m (List.mem_append_left _ hm)⟩
  rw [Path.parent, hp, ← List.append_assoc, List.dropLast_concat]

/-- A path that leads to the directory itself is not refused for a missing place. -/
theorem makeDirectory_nil (h : Descends t p base []) :
    ∃ e, t.makeDirectory p = .error e ∧ e.cause ≠ .noEntry := by
  by_cases ha : p.Asked
  · refine ⟨.at .fileExists p, ?_, nofun⟩
    rw [makeDirectory, h.locate ha, FileTree.walk]
    dsimp only
    rw [h.directory]
  · obtain ⟨c, hc, hlocate⟩ := locate_of_not_asked ha
    refine ⟨.at c p, ?_, hc⟩
    rw [makeDirectory, hlocate]

end Descends

/-! ## 2. What is made -/

/-- Nothing changes but places on the way to one of them, where directories are made. -/
def Paved (way : Place) (t u : FileTree) : Prop :=
  ∀ q, u.get? q = t.get? q ∨ (q <+: way ∧ t.get? q = none ∧ u.get? q = some .directory)

theorem Paved.refl (way : Place) (t : FileTree) : Paved way t t := fun _ => .inl rfl

theorem Paved.mono {way way' : Place} (h : Paved way t u) (hway : way <+: way') : Paved way' t u :=
  fun q => (h q).imp_right fun hq => ⟨hq.1.trans hway, hq.2⟩

theorem Paved.trans {way : Place} (h : Paved way t u) (h' : Paved way u v) : Paved way t v := by
  intro q
  rcases h' q with hq' | ⟨hway, hnone, hd⟩
  · rcases h q with hq | ⟨hway, hnone, hd⟩
    · exact .inl (hq'.trans hq)
    · exact .inr ⟨hway, hnone, hq'.trans hd⟩
  · rcases h q with hq | ⟨-, -, hd'⟩
    · exact .inr ⟨hway, hq ▸ hnone, hd⟩
    · rw [hd'] at hnone
      cases hnone

theorem Paved.grown {way : Place} (h : Paved way t u) (q : Place) : Grown t u q :=
  (h q).imp_right And.right

theorem paved_makeDirectory (h : Descends t p base down) (hm : t.makeDirectory p = .ok u) :
    Paved (base ++ down) t u := by
  unfold makeDirectory at hm
  split at hm
  · cases hm
  rename_i place hplace
  split at hm
  · cases hm
  rename_i hnone
  cases hm
  rw [eq_named_of_locate hplace, h.named] at hnone ⊢
  intro q
  by_cases hq : q = base ++ down
  · rw [hq]
    refine .inr ⟨List.prefix_rfl, hnone, get?_put t (fun hnil => ?_) .directory⟩
    rw [hnil] at hnone
    cases hnone
  · exact .inl (get?_put_ne t hq .directory)

/-- **Directories are made on the way of a path only.** -/
theorem paved_makeDirectoriesFrom (h : Descends t p base down) (n : Nat) :
    Paved (base ++ down) t (t.makeDirectoriesFrom p n).1 := by
  have last : ∀ {t : FileTree} {p : Path} {down : Place}, Descends t p base down →
      Paved (base ++ down) t (t.makeDirectoriesFrom p 0).1 := by
    intro t p down h
    unfold makeDirectoriesFrom
    split
    · rename_i hm
      exact paved_makeDirectory h hm
    · exact .refl _ t
  induction n generalizing p down with
  | zero => exact last h
  | succ n ih =>
    unfold makeDirectoriesFrom
    split
    · rename_i hm
      exact paved_makeDirectory h hm
    rename_i e hm
    split
    · rename_i hcause
      rcases List.eq_nil_or_concat' down with rfl | ⟨r, x, rfl⟩
      · obtain ⟨e', hm', hcause'⟩ := h.makeDirectory_nil
        rw [hm] at hm'
        exact absurd (Except.error.inj hm' ▸ hcause) hcause'
      have hparent := (ih h.parent).mono (List.prefix_append_right_inj base |>.2 (List.prefix_append r [x]))
      split
      · rename_i made hmade
        rw [hmade] at hparent
        have hopened := (opened_makeDirectoriesFrom t p.parent n).1
        rw [hmade] at hopened
        exact hparent.trans (last (h.of_built hopened))
      · exact hparent
    · exact .refl _ t

theorem paved_makeDirectories (h : Descends t p base down) :
    Paved (base ++ down) t (t.makeDirectories p).1 :=
  paved_makeDirectoriesFrom h _

/-! ## 3. Whether they can be made -/

/-- Where a path leads to a free place, a directory is made. -/
theorem exists_makeDirectoriesFrom {q : Place} (hl : t.locate p = .ok q) (hf : Free t q) (n : Nat) :
    ∃ u, t.makeDirectoriesFrom p n = (u, none) := by
  rcases hf with hnone | hd
  · have hm : t.makeDirectory p = .ok (t.put q .directory) := by
      rw [makeDirectory, hl]
      dsimp only
      rw [hnone]
    refine ⟨t.put q .directory, ?_⟩
    cases n with
    | zero => rw [makeDirectoriesFrom, hm]
    | succ n => rw [makeDirectoriesFrom, hm]
  · exact ⟨t, makeDirectoriesFrom_of_isDirectory (isDirectory_iff.2 ⟨q, hl, hd⟩) n⟩

/-- Below a directory a walk is not stopped by a missing place. -/
theorem walk_single_ne {start : Place} {n : String} (h : t.get? start = some .directory) :
    t.walk start [n] ≠ .error .noEntry := by
  intro hw
  rw [walk, h] at hw
  dsimp only at hw
  split at hw
  · cases hw
  split at hw
  · cases hw
  · cases hw

/-- **Directories can be made where nothing but directories is on the way.** -/
theorem makeDirectoriesFrom_of_free (h : Descends t p base down) (ha : p.Asked)
    (hfree : ∀ q, q <+: down → Free t (base ++ q)) {n : Nat} (hn : down.length ≤ n) :
    ∃ u, t.makeDirectoriesFrom p n = (u, none) := by
  induction down using List.reverseRecOn generalizing p n with
  | nil =>
    have hl : t.locate p = .ok base := h.locate ha
    exact exists_makeDirectoriesFrom hl (.inr h.directory) n
  | append_singleton r x ih =>
    have hend := hfree (r ++ [x]) List.prefix_rfl
    rcases walk_of_free h.straight h.short fun q hq _ => hfree q hq with hw | hw
    · exact exists_makeDirectoriesFrom ((h.locate ha).trans hw) hend n
    rw [List.length_append, List.length_singleton] at hn
    obtain ⟨k, rfl⟩ : ∃ k, n = k + 1 := ⟨n - 1, by omega⟩
    have hm : t.makeDirectory p = .error (.at .noEntry p) := by
      rw [makeDirectory, h.locate ha, hw]
    obtain ⟨made, hmade⟩ := ih h.parent ha.parent
      (fun q hq => hfree q (hq.trans (List.prefix_append r [x]))) (by omega : r.length ≤ k)
    -- the directory above is there now, so the walk comes to its end
    have hpaved := paved_makeDirectoriesFrom h.parent k
    obtain ⟨hopened, hparent⟩ := opened_makeDirectoriesFrom t p.parent k
    rw [hmade] at hpaved hopened hparent
    have hd := h.of_built hopened
    obtain ⟨place, hplace, hdirectory⟩ := isDirectory_iff.1 (hparent rfl)
    rw [hd.parent.locate ha.parent] at hplace
    have hwalk : made.walk base (r ++ [x]) = .ok (base ++ (r ++ [x])) := by
      refine (walk_of_free hd.straight hd.short fun q hq _ =>
        (hfree q hq).of_grown (hpaved.grown _)).resolve_right ?_
      rw [walk_append, hplace]
      exact walk_single_ne hdirectory
    obtain ⟨u, hu⟩ := exists_makeDirectoriesFrom ((hd.locate ha).trans hwalk)
      (hend.of_grown (hpaved.grown _)) 0
    refine ⟨u, ?_⟩
    have hcause : (OsError.at .noEntry p).cause = .noEntry := rfl
    rw [makeDirectoriesFrom, hm]
    dsimp only
    rw [if_pos hcause, hmade]
    exact hu

theorem makeDirectories_of_free (h : Descends t p base down) (ha : p.Asked)
    (hfree : ∀ q, q <+: down → Free t (base ++ q)) : (t.makeDirectories p).2 = none := by
  obtain ⟨up, hp, -⟩ := h.climbs
  have hn : down.length ≤ p.parts.length := by
    rw [hp, List.length_append]
    omega
  obtain ⟨u, hu⟩ := makeDirectoriesFrom_of_free h ha hfree hn
  rw [makeDirectories, hu]

/-- No directory is made at a path that the system refuses. -/
theorem makeDirectories_of_refused {c : OsCause} (h : t.locate p = .error c) (hc : c ≠ .noEntry) :
    t.makeDirectories p = (t, some (.at c p)) := by
  have hm : t.makeDirectory p = .error (.at c p) := by
    rw [makeDirectory, h]
  have hd : t.isDirectory p = false := by
    unfold isDirectory find?
    rw [h]
    rfl
  rw [makeDirectories, makeDirectoriesFrom_of_refused hm hc, hd]
  rfl

/-- No directory is made where a file is. -/
theorem makeDirectories_of_file {q : Place} {b : ByteArray} (h : t.locate p = .ok q)
    (hb : t.get? q = some (.file b)) : t.makeDirectories p = (t, some (.at .fileExists p)) := by
  have hm : t.makeDirectory p = .error (.at .fileExists p) := by
    rw [makeDirectory, h]
    dsimp only
    rw [hb]
  have hd : t.isDirectory p = false := by
    unfold isDirectory find?
    rw [h]
    show (t.get? q == some .directory) = false
    rw [hb]
    rfl
  have hother : OsCause.fileExists ≠ .noEntry := by decide
  rw [makeDirectories, makeDirectoriesFrom_of_refused hm hother, hd]
  rfl

/-- **Whether directories can be made does not depend on which of them are there already**, and neither
does the reason why they cannot. Where they cannot, nothing is made. -/
theorem makeDirectories_of_grown (hg : t.Grounded) (h : Descends t p base down)
    (hu : Descends u p base down) (hway : ∀ q, q <+: down → Grown t u (base ++ q)) :
    (∃ e, t.makeDirectories p = (t, some e) ∧ u.makeDirectories p = (u, some e)) ∨
      ((t.makeDirectories p).2 = none ∧ (u.makeDirectories p).2 = none) := by
  by_cases ha : p.Asked
  · have both (hfree : ∀ q, q <+: down → Free t (base ++ q)) :
        (t.makeDirectories p).2 = none ∧ (u.makeDirectories p).2 = none :=
      ⟨makeDirectories_of_free h ha hfree,
        makeDirectories_of_free hu ha fun q hq => (hfree q hq).of_grown (hway q hq)⟩
    cases hw : t.walk base down with
    | error c =>
      by_cases hc : c = .noEntry
      · rw [hc] at hw
        exact .inr (both (free_of_walk hg h.straight hw))
      · have hwu := walk_of_grown h.straight hway hw fun he => hc (Except.error.inj he)
        exact .inl ⟨_, makeDirectories_of_refused ((h.locate ha).trans hw) hc,
          makeDirectories_of_refused ((hu.locate ha).trans hwu) hc⟩
    | ok q =>
      have hwu := walk_of_grown h.straight hway hw nofun
      obtain rfl : q = base ++ down := by
        rw [eq_of_walk hw, normalise_of_straight h.straight]
      cases he : t.get? (base ++ down) with
      | none => exact .inr (both (free_of_ok h.straight hw (.inl he)))
      | some e =>
        cases e with
        | directory => exact .inr (both (free_of_ok h.straight hw (.inr he)))
        | file b =>
          exact .inl ⟨_, makeDirectories_of_file ((h.locate ha).trans hw) he,
            makeDirectories_of_file ((hu.locate ha).trans hwu) ((hway _ List.prefix_rfl).of_some he)⟩
  · obtain ⟨c, hc, hlocate⟩ := locate_of_not_asked ha
    exact .inl ⟨_, makeDirectories_of_refused (hlocate t) hc, makeDirectories_of_refused (hlocate u) hc⟩

end NativeGlue.FileTree
