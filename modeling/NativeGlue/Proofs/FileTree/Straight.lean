import NativeGlue.Proofs.FileTree.Listing
import NativeGlue.Proofs.FileTree.Walking

/-!
# Paths that lead straight down

A path without `..` visits the places above the one that it names, and nothing else. Where nothing but
directories is on its way, a walk along it comes to its end or to a missing place (`walk_of_free`). A walk
that ended otherwise ends so again, whatever directories were made where nothing was (`walk_of_grown`). So
what is found at a path from the root, or that nothing is, depends on what stands there alone
(`look_root_congr`, `readBytes_root_congr`).
-/

namespace NativeGlue

/-- Names none of which leads back up. -/
def Place.Straight (names : Place) : Prop := ".." ∉ names

/-- Names none of which is too long. -/
def Place.Short (names : Place) : Prop := ∀ n ∈ names, n.utf8ByteSize ≤ FileTree.maxNameBytes

instance (names : Place) : Decidable names.Straight := inferInstanceAs (Decidable (".." ∉ names))

instance (names : Place) : Decidable names.Short :=
  inferInstanceAs (Decidable (∀ n ∈ names, n.utf8ByteSize ≤ FileTree.maxNameBytes))

/-- The system is asked about a path: its names can be names of something, and it is not too long. -/
def Path.Asked (p : Path) : Prop :=
  p.isNameable = true ∧ ¬FileTree.maxPathBytes < p.toString.utf8ByteSize

theorem Path.Asked.parent {p : Path} (h : p.Asked) : p.parent.Asked := by
  obtain ⟨anchor, parts⟩ := p
  rcases List.eq_nil_or_concat' parts with rfl | ⟨names, n, rfl⟩
  · exact h
  have hparent : (Path.mk anchor (names ++ [n])).parent = ⟨anchor, names⟩ := by
    rw [Path.parent, List.dropLast_concat]
  obtain ⟨hname, hlong⟩ := h
  rw [Path.isNameable, List.all_append, Bool.and_eq_true_iff] at hname
  rw [hparent]
  exact ⟨hname.1, fun h => hlong (h.trans_le (Path.utf8ByteSize_toString_append anchor names [n]))⟩

namespace FileTree

open Place

variable {t u : FileTree} {start : Place} {names : List String} {p : Path}

/-! ## 1. Names -/

theorem normalise_of_straight (h : Straight names) (done : Place) :
    normalise done names = done ++ names := by
  induction names generalizing done with
  | nil => rw [normalise, List.append_nil]
  | cons n r ih =>
    have hn : ¬(n == "..") = true := fun he => h (beq_iff_eq.1 he ▸ List.mem_cons_self)
    rw [normalise, if_neg hn, ih fun hr => h (List.mem_cons_of_mem n hr), List.append_assoc]
    rfl

/-- What is left when `..` is taken away leads straight down. -/
theorem straight_normalise {done : Place} (h : Straight done) (names : List String) :
    Straight (normalise done names) := by
  induction names generalizing done with
  | nil => exact h
  | cons n r ih =>
    rw [normalise]
    split
    · exact ih fun hm => h (List.dropLast_subset done hm)
    · rename_i hn
      refine ih fun hm => ?_
      rcases List.mem_append.1 hm with hm | hm
      · exact h hm
      · exact hn (beq_iff_eq.2 (List.mem_singleton.1 hm).symm)

/-- Where a walk along a path starts. -/
def startOf (t : FileTree) (p : Path) : Place := if p.isAbsolute then [] else t.cwd

/-! ## 2. Paths about which the system is asked -/

theorem locate_of_asked (h : p.Asked) : t.locate p = t.walk (t.startOf p) p.parts := by
  unfold locate
  rw [h.1, if_neg (by exact Bool.false_ne_true), if_neg h.2]
  rfl

/-- A path about which the system is not asked is refused, whatever is in the tree. -/
theorem locate_of_not_asked (h : ¬p.Asked) : ∃ c, c ≠ .noEntry ∧ ∀ t : FileTree, t.locate p = .error c := by
  unfold locate
  cases hname : p.isNameable with
  | false => exact ⟨.notNameable, nofun, fun _ => rfl⟩
  | true =>
    have hlong : maxPathBytes < p.toString.utf8ByteSize :=
      Classical.byContradiction fun hlong => h ⟨hname, hlong⟩
    refine ⟨.nameTooLong, nofun, fun _ => ?_⟩
    rw [if_neg (by exact Bool.false_ne_true), if_pos hlong]

/-! ## 3. Places that may have become directories -/

/-- What stands at a place is as before, or it is a directory where nothing was. -/
def Grown (t u : FileTree) (q : Place) : Prop :=
  u.get? q = t.get? q ∨ (t.get? q = none ∧ u.get? q = some .directory)

theorem Grown.of_some {q : Place} {e : Entry} (h : Grown t u q) (he : t.get? q = some e) :
    u.get? q = some e := by
  rcases h with h | ⟨hnone, -⟩
  · rw [h, he]
  · rw [he] at hnone
    cases hnone

theorem Grown.trans {v : FileTree} {q : Place} (h : Grown t u q) (h' : Grown u v q) : Grown t v q := by
  rcases h with h | ⟨hnone, hd⟩
  · unfold Grown at h' ⊢
    rw [← h]
    exact h'
  · exact .inr ⟨hnone, h'.of_some hd⟩

/-- Nothing but directories or missing places. -/
def Free (t : FileTree) (q : Place) : Prop := t.get? q = none ∨ t.get? q = some .directory

theorem Free.of_grown {q : Place} (h : Free t q) (hg : Grown t u q) : Free u q := by
  rcases hg with hg | ⟨-, hd⟩
  · unfold Free
    rw [hg]
    exact h
  · exact .inr hd

/-! ## 4. Walking down -/

/-- **A walk with nothing but directories on its way** comes to its end or to a missing place. -/
theorem walk_of_free (hs : Straight names) (hshort : Short names)
    (h : ∀ q, q <+: names → q ≠ names → Free t (start ++ q)) :
    t.walk start names = .ok (start ++ names) ∨ t.walk start names = .error .noEntry := by
  induction names generalizing start with
  | nil => exact .inl (congrArg Except.ok (List.append_nil start).symm)
  | cons n r ih =>
    have hn : ¬(n == "..") = true := fun he => hs (beq_iff_eq.1 he ▸ List.mem_cons_self)
    have hlong : ¬maxNameBytes < n.utf8ByteSize := Nat.not_lt.2 (hshort n List.mem_cons_self)
    have hsplit : ∀ q, start ++ [n] ++ q = start ++ n :: q := fun q => by
      rw [List.append_assoc]
      rfl
    have hfirst := h [] List.nil_prefix nofun
    rw [List.append_nil] at hfirst
    rw [walk]
    rcases hfirst with hfirst | hfirst
    · rw [hfirst]
      exact .inr rfl
    · rw [hfirst]
      dsimp only
      rw [if_neg hn, if_neg hlong, ← hsplit r]
      refine ih (fun hr => hs (List.mem_cons_of_mem n hr))
        (fun m hm => hshort m (List.mem_cons_of_mem n hm)) fun q hq hne => ?_
      rw [hsplit]
      exact h (n :: q) (List.cons_prefix_cons.2 ⟨rfl, hq⟩) fun he => hne (List.cons.inj he).2

/-- **A walk ends as before**, unless it came to a missing place, where places on its way may have become
directories. -/
theorem walk_of_grown {r : Except OsCause Place} (hs : Straight names)
    (h : ∀ q, q <+: names → Grown t u (start ++ q)) (hw : t.walk start names = r)
    (hr : r ≠ .error .noEntry) : u.walk start names = r := by
  induction names generalizing start with
  | nil => exact hw
  | cons n rest ih =>
    have hn : ¬(n == "..") = true := fun he => hs (beq_iff_eq.1 he ▸ List.mem_cons_self)
    have hfirst := h [] List.nil_prefix
    rw [List.append_nil] at hfirst
    rw [walk] at hw ⊢
    cases he : t.get? start with
    | none =>
      rw [he] at hw
      exact absurd hw.symm hr
    | some e =>
      rw [he] at hw
      rw [hfirst.of_some he]
      cases e with
      | file b => exact hw
      | directory =>
        dsimp only at hw ⊢
        rw [if_neg hn] at hw ⊢
        split at hw
        · rename_i hlong
          rw [if_pos hlong]
          exact hw
        · rename_i hlong
          rw [if_neg hlong]
          refine ih (fun hm => hs (List.mem_cons_of_mem n hm)) (fun q hq => ?_) hw
          rw [List.append_assoc]
          exact h (n :: q) (List.cons_prefix_cons.2 ⟨rfl, hq⟩)

/-- A walk that comes to its end goes through directories. -/
theorem directory_of_walk {q : Place} (hs : Straight names) (hw : t.walk start names = .ok q) :
    ∀ r, r <+: names → r ≠ names → t.get? (start ++ r) = some .directory := by
  induction names generalizing start with
  | nil => exact fun r hr hne => absurd (List.prefix_nil.1 hr) hne
  | cons n rest ih =>
    have hn : ¬(n == "..") = true := fun he => hs (beq_iff_eq.1 he ▸ List.mem_cons_self)
    rw [walk] at hw
    split at hw
    · cases hw
    · cases hw
    rename_i hd
    rw [if_neg hn] at hw
    split at hw
    · cases hw
    intro r hr hne
    cases r with
    | nil =>
      rw [List.append_nil]
      exact hd
    | cons m r =>
      obtain ⟨rfl, hprefix⟩ := List.cons_prefix_cons.1 hr
      have hrest := ih (fun hm => hs (List.mem_cons_of_mem m hm)) hw r hprefix fun he => hne (he ▸ rfl)
      rw [List.append_assoc] at hrest
      exact hrest

/-- A walk that comes to a free place has nothing but directories on its way. -/
theorem free_of_ok {q : Place} (hs : Straight names) (hw : t.walk start names = .ok q)
    (hend : Free t (start ++ names)) : ∀ r, r <+: names → Free t (start ++ r) := by
  intro r hr
  by_cases hne : r = names
  · rw [hne]
    exact hend
  · exact .inr (directory_of_walk hs hw r hr hne)

/-- What stands above something is a directory. -/
theorem Grounded.above {q r : Place} (hg : t.Grounded) (h : t.get? r ≠ none) (hq : q <+: r)
    (hne : q ≠ r) : t.get? q = some .directory := by
  have hr : r ≠ [] := by
    rintro rfl
    exact hne (List.prefix_nil.1 hq)
  obtain ⟨e, he⟩ := Option.ne_none_iff_exists'.1 h
  rw [get?, List.isEmpty_eq_false_iff.2 hr] at he
  exact hg.directory (mem_of_lookup he) hq hne

/-- Nothing stands below a missing place. -/
theorem Grounded.none_below {q r : Place} (hg : t.Grounded) (h : t.get? q = none) (hq : q <+: r) :
    t.get? r = none := by
  refine Classical.byContradiction fun hsome => ?_
  by_cases hne : q = r
  · exact hsome (hne ▸ h)
  · rw [hg.above hsome hq hne] at h
    cases h

/-- A walk that comes to a missing place has nothing but directories on its way. -/
theorem free_of_walk (hg : t.Grounded) (hs : Straight names)
    (hw : t.walk start names = .error .noEntry) : ∀ q, q <+: names → Free t (start ++ q) := by
  induction names generalizing start with
  | nil => cases hw
  | cons n rest ih =>
    have hn : ¬(n == "..") = true := fun he => hs (beq_iff_eq.1 he ▸ List.mem_cons_self)
    rw [walk] at hw
    split at hw
    · rename_i hnone
      exact fun q _ => .inl (hg.none_below hnone (List.prefix_append start q))
    · cases hw
    rename_i hd
    rw [if_neg hn] at hw
    split at hw
    · cases hw
    intro q hq
    cases q with
    | nil =>
      rw [List.append_nil]
      exact .inr hd
    | cons m q =>
      obtain ⟨rfl, hprefix⟩ := List.cons_prefix_cons.1 hq
      have hrest := ih (fun hm => hs (List.mem_cons_of_mem m hm)) hw q hprefix
      rw [List.append_assoc] at hrest
      exact hrest

/-- Nothing stands where a walk leads that comes to a missing place. -/
theorem none_of_walk (hg : t.Grounded) (hs : Straight names)
    (hw : t.walk start names = .error .noEntry) : t.get? (start ++ names) = none := by
  induction names generalizing start with
  | nil => cases hw
  | cons n rest ih =>
    have hn : ¬(n == "..") = true := fun he => hs (beq_iff_eq.1 he ▸ List.mem_cons_self)
    rw [walk] at hw
    split at hw
    · rename_i hnone
      exact hg.none_below hnone (List.prefix_append start _)
    · cases hw
    rw [if_neg hn] at hw
    split at hw
    · cases hw
    have hrest := ih (fun hm => hs (List.mem_cons_of_mem n hm)) hw
    rw [List.append_assoc] at hrest
    exact hrest

/-! ## 5. Paths from the root -/

/-- **A walk straight down depends on the places above its end alone.** -/
theorem walk_congr (hs : Straight names)
    (h : ∀ q, start <+: q → q <+: start ++ names → q ≠ start ++ names → u.get? q = t.get? q) :
    u.walk start names = t.walk start names := by
  induction names generalizing start with
  | nil => rfl
  | cons n r ih =>
    have hn : ¬(n == "..") = true := fun he => hs (beq_iff_eq.1 he ▸ List.mem_cons_self)
    have hfirst : u.get? start = t.get? start := by
      refine h start List.prefix_rfl (List.prefix_append _ _) fun he => ?_
      cases List.append_cancel_left ((List.append_nil start).trans he)
    have hrest : u.walk (start ++ [n]) r = t.walk (start ++ [n]) r := by
      refine ih (fun hr => hs (List.mem_cons_of_mem n hr)) fun q hq hend hne => ?_
      have hsplit : start ++ [n] ++ r = start ++ n :: r := by rw [List.append_assoc]; rfl
      rw [hsplit] at hend hne
      exact h q ((List.prefix_append start [n]).trans hq) hend hne
    rw [walk, walk, hfirst, hrest]
    simp only [if_neg hn]

/-- A tree as systems have it: every entry stands in a directory, and none goes by the name `..`. -/
structure Sound (t : FileTree) : Prop where
  grounded : t.Grounded
  straight : ∀ e ∈ t.entries, Straight e.1

/-- Something stands at a straight place only. -/
theorem Sound.straight_of_get? (ht : t.Sound) {q : Place} (h : t.get? q ≠ none) : Straight q := by
  by_cases hq : q = []
  · rw [hq]
    exact List.not_mem_nil
  · obtain ⟨e, he⟩ := Option.ne_none_iff_exists'.1 h
    rw [get?, List.isEmpty_eq_false_iff.2 hq] at he
    exact ht.straight _ (mem_of_lookup he)

/-- A path to something that stands in directories leads there as long as these stay. -/
theorem locate_root_congr {q : Place} (ht : t.Sound) (hq : t.get? q ≠ none)
    (hd : ∀ r, t.get? r = some .directory → u.get? r = some .directory) :
    u.locate ⟨.root, q⟩ = t.locate ⟨.root, q⟩ := by
  have hwalk : u.walk [] q = t.walk [] q := by
    refine walk_congr (ht.straight_of_get? hq) fun r _ hr hne => ?_
    have habove := ht.grounded.above hq hr hne
    rw [habove, hd r habove]
  unfold locate
  change (if _ then _ else if _ then _ else u.walk [] q) = _
  rw [hwalk]
  rfl

theorem eq_of_locate_root {q r : Place} (hs : Straight q) (h : t.locate ⟨.root, q⟩ = .ok r) : r = q := by
  rw [eq_named_of_locate h]
  exact normalise_of_straight hs []

/-- What is read at a path depends on what stands there. -/
theorem readBytes_root_congr {q : Place} (ht : t.Sound) (hq : t.get? q ≠ none)
    (hd : ∀ r, t.get? r = some .directory → u.get? r = some .directory) (h : u.get? q = t.get? q) :
    u.readBytes ⟨.root, q⟩ = t.readBytes ⟨.root, q⟩ := by
  unfold readBytes
  rw [locate_root_congr ht hq hd]
  split
  · rfl
  · rename_i r hr
    rw [eq_of_locate_root (ht.straight_of_get? hq) hr, h]

/-- No name on the way of a walk is too long if none is. -/
theorem walk_ne_nameTooLong (hshort : Short names) : t.walk start names ≠ .error .nameTooLong := by
  intro h
  fun_induction walk t start names with
  | case1 => cases h
  | case2 => cases h
  | case3 => cases h
  | case4 _ n _ _ _ ih => exact ih (fun m hm => hshort m (List.mem_cons_of_mem n hm)) h
  | case5 _ n _ _ _ hlong => exact absurd (hshort n List.mem_cons_self) (Nat.not_le.2 hlong)
  | case6 _ n _ _ _ _ ih => exact ih (fun m hm => hshort m (List.mem_cons_of_mem n hm)) h

/-- Nothing is found at a missing place, whatever is missing above it. -/
theorem look_of_missing {q : Place} (hs : Straight q) (hshort : Short q) (h : t.get? q = none)
    (ha : (Path.mk .root q).Asked) : t.look ⟨.root, q⟩ = .ok none := by
  unfold look
  split
  · rename_i r hr
    rw [eq_of_locate_root hs hr, h]
  · rename_i hr
    rw [locate_of_asked ha] at hr
    exact absurd hr (walk_ne_nameTooLong hshort)
  · rfl

/-- **What is found at a path depends on what stands there.** -/
theorem look_root_congr {q : Place} (ht : t.Sound) (hs : Straight q) (hshort : Short q)
    (hd : ∀ r, t.get? r = some .directory → u.get? r = some .directory) (h : u.get? q = t.get? q) :
    u.look ⟨.root, q⟩ = t.look ⟨.root, q⟩ := by
  cases hq : t.get? q with
  | some e =>
    unfold look
    rw [locate_root_congr ht (by rw [hq]; exact nofun) hd]
    split
    · rename_i r hr
      rw [eq_of_locate_root hs hr, h]
    · rfl
    · rfl
  | none =>
    by_cases ha : (Path.mk .root q).Asked
    · rw [look_of_missing hs hshort hq ha, look_of_missing hs hshort (h.trans hq) ha]
    · obtain ⟨c, -, hc⟩ := locate_of_not_asked ha
      unfold look
      rw [hc u, hc t]
      cases c <;> rfl

end FileTree

end NativeGlue
