import NativeGlue.Proofs.Output.Parallel
import NativeGlue.Proofs.Overlay.Reload
import NativeGlue.Proofs.Run.Frame

/-!
# What a target reads

A target reads its overrides, its sources and the table in its output directory. What work in another
directory does to a tree is little (`Since`), and it does nothing to these if they stand elsewhere
(`Shielded`). So after such work the plan for the target is the same as before, and if there is none, then
for the same reason (`Since.plan`).
-/

namespace NativeGlue.Run

open NativeGlue.Code NativeGlue.FileTree NativeGlue.Output

variable {t : FileTree} {dirs : List Place} {s : Session} {target : Target} {settings : Settings}
  {defines : List (String × String)}

/-! ## 1. Inputs out of reach -/

/-- What stands at a place cannot change by work in a directory: it is a directory, or it is not in there
and not missing on the way there. -/
def Unreached (t : FileTree) (d q : Place) : Prop :=
  t.get? q = some .directory ∨ (¬d <+: q ∧ (t.get? q = none → ¬q <+: d))

instance (t : FileTree) (d q : Place) : Decidable (Unreached t d q) :=
  inferInstanceAs (Decidable (_ ∨ _))

/-- Nothing that a target reads can change by work in a directory: the output directory of the target is
neither in there nor above it, what stands at the root of its sources and at the path of its overrides
cannot change, and no directory above is missing that would be taken for an override file. -/
structure Shielded (t : FileTree) (target : Target) (d : Place) : Prop where
  beside : ¬d <+: t.named target.outputDir
  notAbove : ¬t.named target.outputDir <+: d
  sources : ∀ p, Source.rootOf t target.sourceRoot = .ok p → Unreached t d p.parts
  overrides : ∀ m, target.metadata = some m → Unreached t d (t.absolute m).parts
  found : ∀ m, target.metadata = some m → ∀ names, (t.absolute m).parts ++ names <+: d →
    t.get? ((t.absolute m).parts ++ names) = none →
      Overlay.isOverride (t.absolute m / (⟨.here, names⟩ : Path)) = false

/-- The paths of a target lead where they say: that of the output directory climbs among directories that
are there only, no name in them is too long, and what names its statistics holds no slash. -/
structure Plain (t : FileTree) (target : Target) : Prop where
  output : ∃ base down, Descends t target.outputDir base down
  sources : ∀ p, Source.rootOf t target.sourceRoot = .ok p → Place.Short p.parts
  overrides : ∀ m, target.metadata = some m → Place.Short (t.absolute m).parts
  statsName : '/' ∉ target.statsName.toList

/-- Two directories neither of which is in the other one have no place in common. -/
theorem not_prefix_both {d e q : Place} (hde : ¬d <+: e) (hed : ¬e <+: d) (hd : d <+: q) : ¬e <+: q :=
  fun he => (List.prefix_or_prefix_of_prefix hd he).elim hde hed

/-- The path of the overrides is that of the target, from the root. -/
theorem exists_of_storePath {p : Path} (h : s.storePath target = .ok (some p)) :
    ∃ m, target.metadata = some m ∧ p = s.tree.absolute m := by
  unfold Session.storePath at h
  split at h
  · cases h
  · rename_i m hm
    obtain ⟨q, hq, hsome⟩ := ok_of_map h
    unfold resolve at hq
    split at hq
    · cases hq
      exact ⟨m, hm, (Option.some.inj hsome).symm⟩
    · cases hq

/-! ## 2. After work elsewhere -/

/-- What is left of a tree after work in some directories: beside them nothing has changed but that
directories were made, and every new directory leads to one of them; and the overrides that were loaded
are those of the tree. -/
structure Since (t : FileTree) (dirs : List Place) (s : Session) : Prop where
  built : Built Own t s.tree
  beside : ∀ q, (∀ d ∈ dirs, ¬d <+: q) → Grown t s.tree q
  directories : ∀ q, s.tree.get? q = some .directory →
    t.get? q = some .directory ∨ ∃ d ∈ dirs, q <+: d
  stores : ∀ p store, s.stores.lookup p = some store → Overlay.Store.load t p = .ok store

theorem since_start (t : FileTree) : Since t [] { tree := t } :=
  ⟨.refl t, fun _ _ => .inl rfl, fun _ hd => .inl hd, nofun⟩

namespace Since

/-- Places out of reach are as before. -/
theorem get? (h : Since t dirs s) {q : Place} (hq : ∀ d ∈ dirs, Unreached t d q) :
    s.tree.get? q = t.get? q := by
  by_cases hd : t.get? q = some .directory
  · rw [h.built.directory hd, hd]
  have hout : ∀ d ∈ dirs, ¬d <+: q ∧ (t.get? q = none → ¬q <+: d) :=
    fun d hm => (hq d hm).resolve_left hd
  refine (h.beside q fun d hm => (hout d hm).1).resolve_right fun ⟨hnone, hnew⟩ => ?_
  rcases h.directories q hnew with hbefore | ⟨d, hm, hway⟩
  · exact hd hbefore
  · exact (hout d hm).2 hnone hway

section

variable (h : Since t dirs s) (hs : ∀ d ∈ dirs, Shielded t target d)

include h hs

/-- The directories above the output directory may be new. -/
theorem grown_above {q : Place} (hq : q <+: t.named target.outputDir) : Grown t s.tree q :=
  h.beside q fun d hm hd => (hs d hm).beside (hd.trans hq)

/-- The output directory holds what it held before. -/
theorem same_inside {q : Place} (hq : t.named target.outputDir <+: q) : s.tree.get? q = t.get? q := by
  refine (h.beside q fun d hm => ?_).resolve_right fun ⟨hnone, hnew⟩ => ?_
  · exact not_prefix_both (hs d hm).notAbove (hs d hm).beside hq
  · rcases h.directories q hnew with hbefore | ⟨d, hm, hway⟩
    · rw [hbefore] at hnone
      cases hnone
    · exact (hs d hm).notAbove (hq.trans hway)

/-- The table is loaded as before. -/
theorem load (ht : t.Sound) (hp : Plain t target) :
    Statistics.load s.tree (statsPath target) = Statistics.load t (statsPath target) := by
  obtain ⟨base, down, hd⟩ := hp.output
  have htable : OneName (tableFile target.statsName) :=
    oneName_append hp.statsName ⟨by decide, by decide⟩
  have hup : tableFile target.statsName ≠ ".." := by
    refine ne_up_of_getLast? (c := 'n') ?_ (by decide)
    rw [tableFile, String.toList_append, List.getLast?_append]
    rfl
  have hpath : statsPath target = target.outputDir.inside (tableFile target.statsName) := by
    rw [statsPath, ofString_of_oneName htable]
    rfl
  have hread : s.tree.readBytes (statsPath target) = t.readBytes (statsPath target) := by
    rw [hpath]
    refine readBytes_of_grown ht.grounded hd (hd.of_built h.built) (fun q hq => ?_) (fun q hq => ?_) hup
    · refine h.grown_above hs ?_
      rw [hd.named]
      exact (List.prefix_append_right_inj base).2 hq
    · exact h.same_inside hs (hd.named ▸ hq)
  unfold Statistics.load
  rw [hread]

/-- The same model is made of the sources, or none for the same reason. -/
theorem modelAt (ht : t.Sound) (hp : Plain t target) (rules : List Source.Exclusion)
    (store : Overlay.Store) : Source.modelAt s.tree rules store target.sourceRoot =
      Source.modelAt t rules store target.sourceRoot := by
  refine Source.modelAt_congr ht h.built (fun q hq => hq.ending_ne (by decide)) store fun p hroot => ?_
  exact ⟨hp.sources p hroot, h.get? fun d hm => (hs d hm).sources p hroot⟩

/-- The same overrides are loaded, or none for the same reason. -/
theorem loadOverrides (ht : t.Sound) (hp : Plain t target) {m : Path} (hm : target.metadata = some m) :
    Overlay.Store.load s.tree (t.absolute m) = Overlay.Store.load t (t.absolute m) := by
  have hstraight : Place.Straight (t.absolute m).parts := straight_normalise List.not_mem_nil _
  refine Overlay.load_congr ht h.built (fun q hq => hq.ending_ne (by decide)) hstraight
    (hp.overrides m hm) (h.get? fun d hd => (hs d hd).overrides m hm) fun q names hq hnone hnew => ?_
  obtain rfl := eq_of_locate_root hstraight hq
  rcases h.directories _ hnew with hbefore | ⟨d, hd, hway⟩
  · rw [hbefore] at hnone
    cases hnone
  · exact (hs d hd).found m hm names hway hnone

/-- The target has the same overrides, or none for the same reason. -/
theorem storeFor (ht : t.Sound) (hp : Plain t target) :
    s.storeFor target = ({ tree := t } : Session).storeFor target := by
  have hpath : s.storePath target = ({ tree := t } : Session).storePath target := by
    obtain ⟨places, hsame, -⟩ := h.built
    unfold Session.storePath
    rw [show s.tree.resolve = t.resolve from funext (Source.resolve_sameBut hsame)]
  unfold Session.storeFor
  rw [hpath]
  cases hknown : ({ tree := t } : Session).storePath target with
  | error e => rfl
  | ok known =>
    cases known with
    | none => rfl
    | some p =>
      obtain ⟨m, hm, rfl⟩ := exists_of_storePath hknown
      dsimp only
      rw [h.loadOverrides hs ht hp hm]
      cases hl : s.stores.lookup (t.absolute m) with
      | none => rfl
      | some store => exact (h.stores _ store hl).symm

/-- **The plan is as before**, or there is none for the same reason. -/
theorem plan (ht : t.Sound) (hp : Plain t target) :
    Run.plan settings defines s.tree target (s.storeFor target) =
      Run.plan settings defines t target (({ tree := t } : Session).storeFor target) := by
  have hload : Run.load settings s.tree target = Run.load settings t target := by
    unfold Run.load
    rw [h.load hs ht hp]
  unfold Run.plan
  rw [h.storeFor hs ht hp, hload]
  simp only [h.modelAt hs ht hp]

end

end Since

end NativeGlue.Run
