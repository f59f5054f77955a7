import NativeGlue.Proofs.Fallible
import NativeGlue.Proofs.FileTree.Endings
import NativeGlue.Proofs.FileTree.Straight
import NativeGlue.Source.Reading

/-!
# Sources found again

A tree in which some places were changed, none of them a source, and directories were made has the same
sources as before: the walk lists nothing at the changed places, and nothing below a new directory
(`walkFrom_sameBut`). So the model that is built of them is the same (`modelAt_of_built`). If also what
stands at the root of the sources is as before, and so is a root that is missing, then even the reasons why
no model is built are the same (`modelAt_congr`).
-/

namespace NativeGlue.Source

open NativeGlue.FileTree NativeGlue.Text

variable {t u : FileTree} {rules : List Exclusion} {root : Place} {places : List Place}

/-! ## 1. The walk -/

/-- What the walk finds at a name in a directory. -/
def foundAt (t : FileTree) (rules : List Exclusion) (root : Place) (n : Nat) (names : List String) :
    List (List String) :=
  match t.get? (root ++ names) with
  | some (.file _) => if keepsFile rules names then [names] else []
  | some .directory => if entersDirectory rules names then walkFrom t rules root n names else []
  | none => []

theorem walkFrom_succ (t : FileTree) (rules : List Exclusion) (root : Place) (n : Nat)
    (at_ : List String) :
    walkFrom t rules root (n + 1) at_ =
      (t.namesIn (root ++ at_)).flatMap fun name => foundAt t rules root n (at_ ++ [name]) :=
  rfl

/-- A file that is kept has the name of a source. -/
theorem ending_of_keepsFile {names : List String} (h : keepsFile rules names = true) :
    Place.ending names = some 'a' := by
  obtain ⟨r, hr⟩ := List.isSuffixOf_iff_suffix.1 (Bool.and_eq_true_iff.1 h).1
  cases hn : names.getLast? with
  | none =>
    rw [hn] at hr
    cases List.append_eq_nil_iff.1 hr |>.2
  | some name =>
    rw [hn, Option.getD_some] at hr
    rw [Place.ending, hn, Option.bind_some, ← hr, List.getLast?_append]
    rfl

/-- The walk gives source files only. -/
theorem keepsFile_of_mem_walkFrom {n : Nat} {at_ names : List String}
    (h : names ∈ walkFrom t rules root n at_) : keepsFile rules names = true := by
  induction n generalizing at_ with
  | zero => cases h
  | succ n ih =>
    rw [walkFrom_succ] at h
    obtain ⟨name, -, h⟩ := List.mem_flatMap.1 h
    unfold foundAt at h
    split at h
    · split at h
      · rename_i hk
        rw [List.mem_singleton.1 h]
        exact hk
      · cases h
    · split at h
      · exact ih h
      · cases h
    · cases h

/-- A walk that may go deeper than the tree is deep finds nothing more. -/
theorem walkFrom_add {n : Nat} {at_ : List String}
    (h : ∀ e ∈ t.entries, e.1.length ≤ n + (root ++ at_).length) (k : Nat) :
    walkFrom t rules root (n + k) at_ = walkFrom t rules root n at_ := by
  induction n generalizing at_ with
  | zero =>
    cases k with
    | zero => rfl
    | succ k =>
      rw [Nat.zero_add, walkFrom_succ]
      refine List.flatMap_eq_nil_iff.2 fun name hname => ?_
      obtain ⟨e, he, hplace⟩ := mem_namesIn.1 hname
      have hl := h e he
      rw [hplace, List.length_append, List.length_singleton] at hl
      omega
  | succ n ih =>
    rw [Nat.add_right_comm, walkFrom_succ, walkFrom_succ]
    refine List.flatMap_congr fun name _ => ?_
    unfold foundAt
    rw [ih fun e he => ?_]
    have hl := h e he
    rw [List.length_append] at hl ⊢
    rw [List.length_append, List.length_singleton]
    omega

theorem le_foldl_max {α : Type} {f : α → Nat} {l : List α} {b : Nat} {x : α} (h : x ∈ l) :
    f x ≤ l.foldl (fun n y => max n (f y)) b := by
  have above : ∀ (l : List α) (b : Nat), b ≤ l.foldl (fun n y => max n (f y)) b := by
    intro l
    induction l with
    | nil => exact fun b => Nat.le_refl b
    | cons y r ih => exact fun b => Nat.le_trans (Nat.le_max_left b (f y)) (ih _)
  induction l generalizing b with
  | nil => cases h
  | cons y r ih =>
    rcases List.mem_cons.1 h with rfl | h
    · exact Nat.le_trans (Nat.le_max_right b (f x)) (above r _)
    · exact ih h

theorem walkFrom_of_deep (t : FileTree) (rules : List Exclusion) (root : Place) {n : Nat}
    (h : depthOf t ≤ n) : walkFrom t rules root n [] = walkFrom t rules root (depthOf t) [] := by
  obtain ⟨k, rfl⟩ := Nat.exists_eq_add_of_le h
  refine walkFrom_add (fun e he => ?_) k
  have hl : e.1.length ≤ t.entries.foldl (fun n e => max n e.1.length) 0 :=
    le_foldl_max (f := fun e : Place × Entry => e.1.length) he
  rw [depthOf]
  omega

/-! ## 2. A changed tree -/

/-- Changed places hold no sources: each is none by its name, or is a new directory. -/
def NoSources (t u : FileTree) (places : List Place) : Prop :=
  ∀ q ∈ places, q.ending ≠ some 'a' ∨ (t.get? q = none ∧ u.get? q = some .directory)

theorem not_keepsFile {names : List String} (h : Place.ending (root ++ names) ≠ some 'a') :
    keepsFile rules names = false := by
  refine Bool.eq_false_iff.2 fun hk => h ?_
  have hend := ending_of_keepsFile hk
  obtain ⟨r, name, rfl, hc⟩ := Place.eq_concat_of_ending hend
  rw [← List.append_assoc, Place.ending_concat, hc]

/-- Nothing is found at a name that is no source and under which nothing is found. -/
theorem foundAt_eq_nil {n : Nat} {names : List String}
    (hfile : ∀ b, t.get? (root ++ names) = some (.file b) → Place.ending (root ++ names) ≠ some 'a')
    (hdirectory : t.get? (root ++ names) = some .directory → walkFrom t rules root n names = []) :
    foundAt t rules root n names = [] := by
  unfold foundAt
  split
  · rename_i b hb
    rw [not_keepsFile (hfile b hb)]
    rfl
  · rename_i hd
    rw [hdirectory hd]
    split
    · rfl
    · rfl
  · rfl

/-- A changed file is no source. -/
theorem NoSources.after (hp : NoSources t u places) {q : Place} (hq : q ∈ places) {b : ByteArray}
    (hb : u.get? q = some (.file b)) : q.ending ≠ some 'a' := by
  refine (hp q hq).elim id fun hnew => ?_
  rw [hnew.2] at hb
  cases hb

/-- A file that is changed is no source. -/
theorem NoSources.before (hp : NoSources t u places) {q : Place} (hq : q ∈ places) {b : ByteArray}
    (hb : t.get? q = some (.file b)) : q.ending ≠ some 'a' := by
  refine (hp q hq).elim id fun hnew => ?_
  rw [hnew.1] at hb
  cases hb

/-- Nothing is found where everything is changed. -/
theorem walkFrom_changed (hp : NoSources t u places) {n : Nat} {at_ : List String}
    (h : ∀ e ∈ u.entries, root ++ at_ <+: e.1 → root ++ at_ ≠ e.1 → e.1 ∈ places) :
    walkFrom u rules root n at_ = [] := by
  induction n generalizing at_ with
  | zero => rfl
  | succ n ih =>
    rw [walkFrom_succ]
    refine List.flatMap_eq_nil_iff.2 fun name hname => ?_
    obtain ⟨e, he, hplace⟩ := mem_namesIn.1 hname
    rw [List.append_assoc] at hplace
    have hlonger : (root ++ (at_ ++ [name])).length = (root ++ at_).length + 1 := by
      rw [← List.append_assoc, List.length_append, List.length_singleton]
    have hbelow : root ++ at_ <+: root ++ (at_ ++ [name]) := by
      rw [← List.append_assoc]
      exact List.prefix_append _ _
    have below : ∀ x ∈ u.entries, root ++ (at_ ++ [name]) <+: x.1 → x.1 ∈ places := by
      intro x hx hq
      refine h x hx (hbelow.trans hq) fun heq => ?_
      have hl := hq.length_le
      rw [← heq] at hl
      omega
    refine foundAt_eq_nil (fun b hb => ?_) fun _ => ih fun x hx hq _ => below x hx hq
    exact hp.after (hplace ▸ below e he (hplace ▸ List.prefix_rfl)) hb

/-- A flat map is determined by the items that it does not drop. -/
theorem flatMap_eq_of_filter {α β : Type} {p : α → Bool} {f g : α → List β} {l m : List α}
    (h : l.filter p = m.filter p) (hf : ∀ x ∈ l, p x = false → f x = [])
    (hg : ∀ x ∈ m, p x = false → g x = []) (hfg : ∀ x, p x = true → f x = g x) :
    l.flatMap f = m.flatMap g := by
  have drop : ∀ (f : α → List β) (l : List α), (∀ x ∈ l, p x = false → f x = []) →
      l.flatMap f = (l.filter p).flatMap f := by
    intro f l hf
    induction l with
    | nil => rfl
    | cons x r ih =>
      have ih := ih fun y hy => hf y (List.mem_cons_of_mem _ hy)
      cases hp : p x with
      | false =>
        rw [List.filter_cons_of_neg (by simp [hp]), List.flatMap_cons, hf x List.mem_cons_self hp, ih]
        rfl
      | true => rw [List.filter_cons_of_pos hp, List.flatMap_cons, List.flatMap_cons, ih]
  rw [drop f l hf, drop g m hg, h]
  exact List.flatMap_congr fun x hx => hfg x (List.mem_filter.1 hx).2

/-- **The walk finds the same sources in the changed tree.** -/
theorem walkFrom_sameBut (hg : t.Grounded) (hs : SameBut places t u) (hp : NoSources t u places)
    (n : Nat) (at_ : List String) :
    walkFrom u rules root n at_ = walkFrom t rules root n at_ := by
  induction n generalizing at_ with
  | zero => rfl
  | succ n ih =>
    have changed : ∀ name, (!places.contains (root ++ at_ ++ [name])) = false →
        root ++ (at_ ++ [name]) ∈ places := by
      intro name hin
      rw [← List.append_assoc]
      simpa using hin
    rw [walkFrom_succ, walkFrom_succ]
    refine flatMap_eq_of_filter (hs.namesIn (root ++ at_)) (fun name _ hin => ?_)
      (fun name _ hin => ?_) fun name hout => ?_
    · have hq := changed name hin
      refine foundAt_eq_nil (fun b hb => hp.after hq hb) fun _ => walkFrom_changed hp ?_
      exact fun e he hbelow hne => hs.mem_of_below hg (hs.spared _ hq) he hbelow hne
    · have hq := changed name hin
      exact foundAt_eq_nil (fun b hb => hp.before hq hb) fun hd => absurd hd (hs.spared _ hq)
    · have hq : root ++ (at_ ++ [name]) ∉ places := by
        rw [← List.append_assoc]
        simpa using hout
      unfold foundAt
      rw [hs.get? hq, ih]

/-! ## 3. The model -/

theorem sourcesBelow_sameBut (hg : t.Grounded) (hs : SameBut places t u) (hp : NoSources t u places) :
    sourcesBelow u rules root = sourcesBelow t rules root := by
  unfold sourcesBelow
  rw [← walkFrom_of_deep u rules root (Nat.le_max_left (depthOf u) (depthOf t)),
    ← walkFrom_of_deep t rules root (Nat.le_max_right (depthOf u) (depthOf t)),
    walkFrom_sameBut hg hs hp]

theorem expandHome_sameBut (hs : SameBut places t u) (p : Path) : u.expandHome p = t.expandHome p := by
  unfold expandHome
  rw [hs.homes]

theorem resolve_sameBut (hs : SameBut places t u) (p : Path) : u.resolve p = t.resolve p := by
  unfold resolve absolute
  rw [hs.cwd]

/-- A directory that is looked at is there still. -/
theorem look_sameBut (hs : SameBut places t u) {p : Path} (h : t.look p = .ok (some .directory)) :
    u.look p = .ok (some .directory) := by
  unfold look at h ⊢
  split at h
  · rename_i q hq
    rw [hs.locate hq]
    exact congrArg Except.ok (hs.directory (Except.ok.inj h))
  · cases h
  · cases h

/-- The source files of a directory are the same. -/
theorem discover_sameBut (hg : t.Grounded) (hs : SameBut places t u) (hp : NoSources t u places)
    {root : Path} {names : List (List String)} (h : discover t rules root = .ok names) :
    discover u rules root = .ok names := by
  unfold discover at h ⊢
  obtain ⟨expanded, hexpanded, h⟩ := ok_of_bind h
  obtain ⟨p, hresolved, h⟩ := ok_of_bind h
  obtain ⟨entry, hentry, h⟩ := ok_of_bind h
  rw [expandHome_sameBut hs, hexpanded]
  show (u.resolve expanded >>= _) = _
  rw [resolve_sameBut hs, hresolved]
  show (u.look p >>= _) = _
  split at h
  · cases h
  · cases h
  rw [look_sameBut hs hentry]
  show Except.ok (sourcesBelow u rules p.parts) = _
  rw [sourcesBelow_sameBut hg hs hp]
  exact h

/-- What the discovery gives are source files. -/
theorem keepsFile_of_discover {root : Path} {names : List (List String)}
    (h : discover t rules root = .ok names) : ∀ ns ∈ names, keepsFile rules ns = true := by
  obtain ⟨expanded, -, h⟩ := ok_of_bind h
  obtain ⟨p, -, h⟩ := ok_of_bind h
  obtain ⟨entry, -, h⟩ := ok_of_bind h
  split at h
  · cases h
  · cases h
  cases h
  exact fun ns hns => keepsFile_of_mem_walkFrom (List.mem_mergeSort.1 hns)

/-- The outline of a file that was not changed is the same. -/
theorem outlineFile_of_built {own : Place → Prop} (h : Built own t u) {root : Path}
    {names : List String} {f : OutlinedFile} (hplace : ¬own (t.named (root / (⟨.here, names⟩ : Path))))
    (hf : outlineFile t root names = .ok f) : outlineFile u root names = .ok f := by
  unfold outlineFile at hf ⊢
  dsimp only at hf ⊢
  split at hf
  · cases hf
  rename_i hbytes
  rw [h.readBytes hbytes hplace]
  exact hf

/-- **The model is the same** in a tree in which no source was changed. -/
theorem modelAt_of_built {own : Place → Prop} (hg : t.Grounded) (h : Built own t u)
    (hown : ∀ q, own q → q.ending ≠ some 'a') {store : Overlay.Store} {root : Path} {m : Model}
    (hm : modelAt t rules store root = .ok m) : modelAt u rules store root = .ok m := by
  obtain ⟨places, hs, hplaces⟩ := id h
  have hp : NoSources t u places := fun q hq => (hplaces q hq).imp_left (hown q)
  obtain ⟨p, hroot, hm⟩ := ok_of_bind hm
  obtain ⟨names, hnames, hm⟩ := ok_of_bind hm
  obtain ⟨files, hfiles, hm⟩ := ok_of_bind hm
  have hroot' : rootOf u root = .ok p := by
    have hresolve : u.resolve = t.resolve := funext (resolve_sameBut hs)
    rw [rootOf, expandHome_sameBut hs, hresolve]
    exact hroot
  have hnames := ok_of_mapError hnames
  have hnames' : sourcesOf u rules p = .ok names := by
    rw [sourcesOf, discover_sameBut hg hs hp hnames]
    rfl
  have hfiles' : outlinesOf u p names = .ok files := by
    refine ok_of_mapM hfiles fun ns hns f hf => ?_
    have hf := ok_of_mapError hf
    have hsource : (p / (⟨.here, ns⟩ : Path)).ending = some 'a' :=
      Path.ending_join p (ending_of_keepsFile (keepsFile_of_discover hnames ns hns))
    have hplace : ¬own (t.named (p / (⟨.here, ns⟩ : Path))) :=
      fun ho => hown _ ho (ending_named t hsource (by decide))
    rw [outlineFile_of_built h hplace hf]
    rfl
  rw [modelAt, hroot']
  show (sourcesOf u rules p >>= _) = _
  rw [hnames']
  show (outlinesOf u p names >>= _) = _
  rw [hfiles']
  exact hm

/-! ## 4. The model, or why there is none -/

/-- The walk gives files that are there. -/
theorem get?_of_mem_walkFrom {n : Nat} {at_ names : List String}
    (h : names ∈ walkFrom t rules root n at_) : ∃ b, t.get? (root ++ names) = some (.file b) := by
  induction n generalizing at_ with
  | zero => cases h
  | succ n ih =>
    rw [walkFrom_succ] at h
    obtain ⟨name, -, h⟩ := List.mem_flatMap.1 h
    unfold foundAt at h
    split at h
    · rename_i b hb
      split at h
      · rw [List.mem_singleton.1 h]
        exact ⟨b, hb⟩
      · cases h
    · split at h
      · exact ih h
      · cases h
    · cases h

/-- The root of the sources is a path straight down from the root of the tree. -/
theorem exists_of_rootOf {root p : Path} (h : rootOf t root = .ok p) :
    ∃ q, p = ⟨.root, q⟩ ∧ Place.Straight q := by
  obtain ⟨expanded, -, hresolved⟩ := ok_of_bind (ok_of_mapError h)
  unfold resolve at hresolved
  split at hresolved
  · cases hresolved
    exact ⟨_, rfl, straight_normalise List.not_mem_nil _⟩
  · cases hresolved

theorem rootOf_sameBut (hs : SameBut places t u) (root : Path) : rootOf u root = rootOf t root := by
  have hresolve : u.resolve = t.resolve := funext (resolve_sameBut hs)
  rw [rootOf, rootOf, expandHome_sameBut hs, hresolve]

/-- What is discovered below the root is there, and its names lead down. -/
theorem get?_of_discover {q : Place} (hq : Place.Straight q) {names : List (List String)}
    (h : discover t rules ⟨.root, q⟩ = .ok names) : ∀ ns ∈ names, ∃ b, t.get? (q ++ ns) = some (.file b) := by
  obtain ⟨expanded, hexpanded, h⟩ := ok_of_bind h
  cases hexpanded
  obtain ⟨p, hp, h⟩ := ok_of_bind h
  unfold resolve at hp
  split at hp
  · cases hp
    obtain ⟨entry, -, h⟩ := ok_of_bind h
    split at h
    · cases h
    · cases h
    cases h
    intro ns hns
    have hplace := get?_of_mem_walkFrom (List.mem_mergeSort.1 hns)
    rwa [show (t.absolute ⟨.root, q⟩).parts = q from normalise_of_straight hq []] at hplace
  · cases hp

/-- What is discovered is the same, or that nothing can be discovered. -/
theorem discover_congr (ht : t.Sound) (hs : SameBut places t u) (hp : NoSources t u places) {q : Place}
    (hq : Place.Straight q) (hshort : Place.Short q) (hsame : u.get? q = t.get? q) :
    discover u rules ⟨.root, q⟩ = discover t rules ⟨.root, q⟩ := by
  have hresolve : u.resolve ⟨.root, q⟩ = t.resolve ⟨.root, q⟩ := resolve_sameBut hs _
  have habsolute : t.absolute ⟨.root, q⟩ = ⟨.root, q⟩ :=
    congrArg (Path.mk .root) (normalise_of_straight hq [])
  unfold discover
  show (u.resolve ⟨.root, q⟩ >>= _) = (t.resolve ⟨.root, q⟩ >>= _)
  rw [hresolve, resolve, habsolute]
  split
  · show (u.look ⟨.root, q⟩ >>= _) = (t.look ⟨.root, q⟩ >>= _)
    rw [look_root_congr ht hq hshort (fun _ => hs.directory) hsame, sourcesBelow_sameBut ht.grounded hs hp]
  · rfl

/-- **The model is the same, and so is the reason why there is none**, if no source was changed and what
stands at the root of the sources is as before. -/
theorem modelAt_congr {own : Place → Prop} (ht : t.Sound) (h : Built own t u)
    (hown : ∀ q, own q → q.ending ≠ some 'a') (store : Overlay.Store) {root : Path}
    (hroot : ∀ p, rootOf t root = .ok p → Place.Short p.parts ∧ u.get? p.parts = t.get? p.parts) :
    modelAt u rules store root = modelAt t rules store root := by
  obtain ⟨places, hs, hplaces⟩ := id h
  have hp : NoSources t u places := fun q hq => (hplaces q hq).imp_left (hown q)
  unfold modelAt
  rw [rootOf_sameBut hs]
  cases hr : rootOf t root with
  | error f => rfl
  | ok p =>
    obtain ⟨hshort, hsame⟩ := hroot p hr
    obtain ⟨q, rfl, hq⟩ := exists_of_rootOf hr
    have hdiscover : discover u rules ⟨.root, q⟩ = discover t rules ⟨.root, q⟩ :=
      discover_congr ht hs hp hq hshort hsame
    show (sourcesOf u rules ⟨.root, q⟩ >>= _) = (sourcesOf t rules ⟨.root, q⟩ >>= _)
    rw [sourcesOf, sourcesOf, hdiscover]
    cases hd : discover t rules ⟨.root, q⟩ with
    | error f => rfl
    | ok names =>
      have houtlines : outlinesOf u ⟨.root, q⟩ names = outlinesOf t ⟨.root, q⟩ names := by
        refine mapM_congr fun ns hns => ?_
        obtain ⟨b, hb⟩ := get?_of_discover hq hd ns hns
        have hsource : Place.ending (q ++ ns) = some 'a' := by
          have hend := ending_of_keepsFile (keepsFile_of_discover hd ns hns)
          obtain ⟨r, name, rfl, hc⟩ := Place.eq_concat_of_ending hend
          rw [← List.append_assoc, Place.ending_concat, hc]
        have hthere : t.get? (q ++ ns) ≠ none := by
          rw [hb]
          exact nofun
        have hread : u.readBytes ⟨.root, q ++ ns⟩ = t.readBytes ⟨.root, q ++ ns⟩ :=
          readBytes_root_congr ht hthere (fun _ => hs.directory)
            ((h.get? (fun ho => hown _ ho hsource) hb).trans hb.symm)
        have hpath : (⟨.root, q⟩ : Path) / (⟨.here, ns⟩ : Path) = ⟨.root, q ++ ns⟩ := rfl
        unfold outlineFile
        dsimp only
        rw [hpath, hread]
      show (outlinesOf u ⟨.root, q⟩ names >>= _) = (outlinesOf t ⟨.root, q⟩ names >>= _)
      rw [houtlines]

end NativeGlue.Source
