import NativeGlue.Java.Outline
import NativeGlue.Proofs.Fallible
import NativeGlue.Proofs.Text.Cuts

/-!
# Native methods that a file reports

Native methods stand in types that stand in other types, to any depth (`SourceFile.sites`). An outline keeps those
that stand directly in a class of the file, and lists the others under the names of the types around them. It does
not look into annotation types nor into the bodies of the constants of an enumeration: what stands there is hidden.
All other native methods are reported once, in the order in which they stand (`reports_of_outline`).
-/

namespace NativeGlue.Java

open NativeGlue.Text

/-! ## 1. Where native methods stand -/

/-- What a member may stand in: a type, or a constant of an enumeration. -/
inductive Around where
  | type (form : TypeForm) (name : String)
  | constant (name : String)
  deriving DecidableEq, Repr

namespace Around

/-- The name of a type. A constant has a body without a name. -/
def typeName? : Around → Option String
  | .type _ name => some name
  | .constant _ => none

/-- Whether an outline does not look at what stands inside. -/
def hides : Around → Bool
  | .type form _ => form == .annotationType
  | .constant _ => true

end Around

/-- A native method, which is one with `native` among the words of its modifiers, and what is around it, from the
outside to the inside. -/
structure NativeSite where
  around : List Around
  method : MethodDecl
  deriving DecidableEq, Repr

namespace NativeSite

/-- The names of the types around a native method, and its own name. -/
def path (s : NativeSite) : String := ".".intercalate (s.around.filterMap Around.typeName? ++ [s.method.name])

/-- Whether a native method stands directly in a class of the file. -/
def isOwn (s : NativeSite) : Bool :=
  match s.around with
  | [.type form _] => form == .classType
  | _ => false

/-- Whether a native method stands in something that an outline does not look into. -/
def isHidden (s : NativeSite) : Bool := s.around.any Around.hides

/-- Whether a native method is to be listed as skipped. -/
def isSkipped (s : NativeSite) : Bool := !s.isOwn && !s.isHidden

end NativeSite

mutual

/-- The native methods of a member, at any depth. -/
def Member.sites (around : List Around) : Member → List NativeSite
  | .method m => if m.isNative then [⟨around, m⟩] else []
  | .field _ => []
  | .constant name members => sitesIn (around ++ [.constant name]) members
  | .type head members => sitesIn (around ++ [.type head.form head.name]) members

/-- The native methods of several members, at any depth. -/
def sitesIn (around : List Around) : List Member → List NativeSite
  | [] => []
  | m :: r => m.sites around ++ sitesIn around r

end

/-- The native methods of a type of a file. -/
def TypeDecl.sites (t : TypeDecl) : List NativeSite := sitesIn [.type t.head.form t.head.name] t.members

/-- The native methods of a file. -/
def SourceFile.sites (f : SourceFile) : List NativeSite := f.types.flatMap TypeDecl.sites

mutual

/-- What is around a member is around its native methods. -/
theorem Member.around_of_mem_sites (around : List Around) :
    (m : Member) → ∀ s ∈ m.sites around, around <+: s.around
  | .method m => by
    intro s hs
    rw [Member.sites] at hs
    split at hs
    · rw [List.mem_singleton.1 hs]
    · cases hs
  | .field _ => by
    intro s hs
    rw [Member.sites] at hs
    cases hs
  | .constant name members => by
    intro s hs
    rw [Member.sites] at hs
    exact (List.prefix_append _ _).trans (around_of_mem_sitesIn _ members s hs)
  | .type head members => by
    intro s hs
    rw [Member.sites] at hs
    exact (List.prefix_append _ _).trans (around_of_mem_sitesIn _ members s hs)

theorem around_of_mem_sitesIn (around : List Around) :
    (ms : List Member) → ∀ s ∈ sitesIn around ms, around <+: s.around
  | [] => by
    intro s hs
    rw [sitesIn] at hs
    cases hs
  | m :: r => by
    intro s hs
    rw [sitesIn] at hs
    exact (List.mem_append.1 hs).elim (m.around_of_mem_sites around s) (around_of_mem_sitesIn around r s)

end

/-- What stands in something hidden is hidden. -/
theorem isHidden_of_mem_sitesIn {around : List Around} (h : around.any Around.hides = true) {ms : List Member} :
    ∀ s ∈ sitesIn around ms, s.isHidden = true := by
  intro s hs
  obtain ⟨more, hmore⟩ := around_of_mem_sitesIn around ms s hs
  rw [NativeSite.isHidden, ← hmore, List.any_append, h, Bool.true_or]

/-- What stands in a member of a type does not stand directly in a class of the file. -/
theorem isOwn_of_mem_sitesIn {outer inner : Around} {ms : List Member} :
    ∀ s ∈ sitesIn ([outer] ++ [inner]) ms, s.isOwn = false := by
  intro s hs
  obtain ⟨more, hmore⟩ := around_of_mem_sitesIn _ ms s hs
  rw [NativeSite.isOwn, ← hmore]
  cases outer <;> rfl

/-! ## 2. What is skipped -/

mutual

/-- **What is skipped of a member** are the native methods that stand in it, but for those that are hidden. -/
theorem Member.skipped_eq {around : List Around} (h : around.any Around.hides = false) :
    (m : Member) → m.skipped (around.filterMap Around.typeName?) =
      ((m.sites around).filter fun s => !s.isHidden).map NativeSite.path
  | .method m => by
    rw [Member.skipped, Member.sites]
    split
    · have hshown : NativeSite.isHidden ⟨around, m⟩ = false := h
      rw [List.filter_cons_of_pos (by rw [hshown]; rfl)]
      rfl
    · rfl
  | .field _ => by
    rw [Member.skipped, Member.sites]
    rfl
  | .constant name members => by
    have hall : ∀ s ∈ sitesIn (around ++ [.constant name]) members, s.isHidden = true :=
      isHidden_of_mem_sitesIn (by rw [List.any_append]; exact Bool.or_true _)
    rw [Member.skipped, Member.sites, List.filter_eq_nil_iff.2 fun s hs => by simp [hall s hs]]
    rfl
  | .type head members => by
    rw [Member.skipped, Member.sites]
    split
    · rename_i hform
      have hall : ∀ s ∈ sitesIn (around ++ [.type head.form head.name]) members, s.isHidden = true :=
        isHidden_of_mem_sitesIn (by rw [List.any_append, hform]; exact Bool.or_true _)
      rw [List.filter_eq_nil_iff.2 fun s hs => by simp [hall s hs]]
      rfl
    · rename_i hform
      have hinside : (around ++ [Around.type head.form head.name]).any Around.hides = false := by
        rw [List.any_append, h, Bool.false_or, List.any_cons, List.any_nil, Bool.or_false]
        exact beq_eq_false_iff_ne.2 hform
      have hskipped := skippedIn_eq hinside members
      rw [List.filterMap_append] at hskipped
      exact hskipped

theorem skippedIn_eq {around : List Around} (h : around.any Around.hides = false) :
    (ms : List Member) → skippedIn (around.filterMap Around.typeName?) ms =
      ((sitesIn around ms).filter fun s => !s.isHidden).map NativeSite.path
  | [] => by
    rw [skippedIn, sitesIn]
    rfl
  | m :: r => by
    rw [skippedIn, sitesIn, m.skipped_eq h, skippedIn_eq h r, List.filter_append, List.map_append]

end

/-! ## 3. What is kept -/

/-- What an outline has of native methods: those that are kept, and the names of those that are skipped. -/
structure Split (sites : List NativeSite) (natives : List NativeDecl) (skipped : List String) : Prop where
  natives : List.Forall₂ (fun s n => nativeOf s.method = .ok n) (sites.filter (·.isOwn)) natives
  skipped : skipped = (sites.filter (·.isSkipped)).map NativeSite.path

theorem Split.append {sites sites' : List NativeSite} {ns ns' : List NativeDecl} {names names' : List String}
    (h : Split sites ns names) (h' : Split sites' ns' names') :
    Split (sites ++ sites') (ns ++ ns') (names ++ names') := by
  refine ⟨?_, ?_⟩
  · rw [List.filter_append]
    exact List.rel_append h.natives h'.natives
  · rw [List.filter_append, List.map_append, h.skipped, h'.skipped]

/-- Where nothing is kept, everything that is not hidden is skipped. -/
theorem split_of_not_isOwn {sites : List NativeSite} (h : ∀ s ∈ sites, s.isOwn = false) :
    Split sites [] ((sites.filter fun s => !s.isHidden).map NativeSite.path) := by
  refine ⟨?_, congrArg _ (List.filter_congr fun s hs => ?_)⟩
  · rw [List.filter_eq_nil_iff.2 fun s hs => by simp [h s hs]]
    exact .nil
  · rw [NativeSite.isSkipped, h s hs]
    rfl

/-- A class of the file keeps its own native methods, and skips those inside its members. -/
theorem split_of_addMember {c d : ClassOutline × List String} {m : Member} (h : addMember c m = .ok d) :
    d.1.name = c.1.name ∧ ∃ ns names, d.1.natives = c.1.natives ++ ns ∧ d.2 = c.2 ++ names ∧
      Split (m.sites [.type .classType c.1.name]) ns names := by
  have hnone : Split [] [] [] := ⟨.nil, rfl⟩
  have hshown : [Around.type .classType c.1.name].any Around.hides = false := rfl
  unfold addMember at h
  split at h
  · rename_i m
    rw [Member.sites]
    split at h
    · rename_i hnative
      rw [if_pos hnative]
      split at h
      · rename_i n hn
        obtain rfl := Except.ok.inj h
        exact ⟨rfl, [n], [], rfl, (List.append_nil _).symm, .cons hn .nil, rfl⟩
      · cases h
    · rename_i hother
      obtain rfl := Except.ok.inj h
      rw [if_neg hother]
      exact ⟨rfl, [], [], (List.append_nil _).symm, (List.append_nil _).symm, hnone⟩
  · obtain rfl := Except.ok.inj h
    rw [Member.sites]
    exact ⟨rfl, [], [], (List.append_nil _).symm, (List.append_nil _).symm, hnone⟩
  · rename_i name members
    obtain rfl := Except.ok.inj h
    have hskipped := Member.skipped_eq hshown (.constant name members)
    rw [Member.skipped] at hskipped
    refine ⟨rfl, [], _, (List.append_nil _).symm, ?_, split_of_not_isOwn fun s hs => ?_⟩
    · rw [← hskipped, List.append_nil]
    · rw [Member.sites] at hs
      exact isOwn_of_mem_sitesIn s hs
  · rename_i head members
    obtain rfl := Except.ok.inj h
    have hskipped := Member.skipped_eq hshown (.type head members)
    refine ⟨rfl, [], _, (List.append_nil _).symm, congrArg _ hskipped, split_of_not_isOwn fun s hs => ?_⟩
    rw [Member.sites] at hs
    exact isOwn_of_mem_sitesIn s hs

theorem split_of_addMembers {c d : ClassOutline × List String} {ms : List Member}
    (h : ms.foldlM addMember c = .ok d) :
    d.1.name = c.1.name ∧ ∃ ns names, d.1.natives = c.1.natives ++ ns ∧ d.2 = c.2 ++ names ∧
      Split (sitesIn [.type .classType c.1.name] ms) ns names := by
  induction ms generalizing c with
  | nil =>
    obtain rfl := Except.ok.inj h
    rw [sitesIn]
    exact ⟨rfl, [], [], (List.append_nil _).symm, (List.append_nil _).symm, .nil, rfl⟩
  | cons m r ih =>
    rw [List.foldlM_cons] at h
    obtain ⟨e, he, h⟩ := ok_of_bind h
    obtain ⟨hname, ns, names, hns, hnames, hsplit⟩ := split_of_addMember he
    obtain ⟨hname', ns', names', hns', hnames', hsplit'⟩ := ih h
    rw [hname] at hsplit'
    refine ⟨hname'.trans hname, ns ++ ns', names ++ names', ?_, ?_, ?_⟩
    · rw [hns', hns, List.append_assoc]
    · rw [hnames', hnames, List.append_assoc]
    · rw [sitesIn]
      exact hsplit.append hsplit'

/-! ## 4. Files -/

/-- A class of an outline is a class of the file with the native methods that stand directly in it. -/
structure Keeps (t : TypeDecl) (c : ClassOutline) : Prop where
  name : c.name = t.head.name
  natives : List.Forall₂ (fun s n => nativeOf s.method = .ok n) (t.sites.filter (·.isOwn)) c.natives

/-- Whether a type is a class. -/
def TypeDecl.isClass (t : TypeDecl) : Bool := t.head.form == .classType

/-- An outline has a class for each class of the file, with the native methods that stand directly in it, and lists
under their paths those that stand elsewhere and are not hidden. -/
structure Reports (f : SourceFile) (o : FileOutline) : Prop where
  classes : List.Forall₂ Keeps (f.types.filter (·.isClass)) o.classes
  skipped : o.skipped = (f.sites.filter (·.isSkipped)).map NativeSite.path

/-- Every native method of a file is reported once: in the class of the file that it stands in directly, or else
under its path among those that are skipped. -/
structure ReportsAll (f : SourceFile) (o : FileOutline) : Prop where
  classes : List.Forall₂ Keeps (f.types.filter (·.isClass)) o.classes
  skipped : o.skipped.Perm ((f.sites.filter (!·.isOwn)).map NativeSite.path)

/-- What is added for a type of the file. -/
theorem reports_of_addType {o o' : FileOutline} {t : TypeDecl} (h : addType o t = .ok o') :
    ∃ cs, o'.classes = o.classes ++ cs ∧ List.Forall₂ Keeps ([t].filter (·.isClass)) cs ∧
      o'.skipped = o.skipped ++ (t.sites.filter (·.isSkipped)).map NativeSite.path := by
  unfold addType at h
  split at h
  · rename_i hform
    obtain ⟨⟨c, names⟩, hc, h⟩ := ok_of_bind h
    obtain rfl := Except.ok.inj h
    obtain ⟨hname, ns, more, hns, hmore, hsplit⟩ := split_of_addMembers hc
    have hsites : t.sites = sitesIn [.type .classType t.head.name] t.members := by
      rw [TypeDecl.sites, hform]
    have hkeeps : Keeps t c := ⟨hname, by rw [hsites, hns]; exact hsplit.natives⟩
    refine ⟨[c], rfl, ?_, ?_⟩
    · have hclass : t.isClass = true := beq_iff_eq.2 hform
      rw [List.filter_cons_of_pos hclass]
      exact .cons hkeeps .nil
    · rw [hsites, ← hsplit.skipped]
      exact hmore
  · rename_i hform
    obtain rfl := Except.ok.inj h
    have hall : ∀ s ∈ t.sites, s.isHidden = true := isHidden_of_mem_sitesIn (by rw [hform]; rfl)
    refine ⟨[], (List.append_nil _).symm, ?_, ?_⟩
    · rw [List.filter_cons_of_neg (by rw [TypeDecl.isClass, hform]; decide)]
      exact .nil
    · rw [List.filter_eq_nil_iff.2 fun s hs => by simp [NativeSite.isSkipped, hall s hs]]
      exact (List.append_nil _).symm
  · rename_i hclass hannotation
    obtain rfl := Except.ok.inj h
    have hshown : [Around.type t.head.form t.head.name].any Around.hides = false := by
      simpa [Around.hides] using hannotation
    have hother : ∀ s ∈ t.sites, s.isOwn = false := by
      intro s hs
      obtain ⟨more, hmore⟩ := around_of_mem_sitesIn _ t.members s hs
      rw [NativeSite.isOwn, ← hmore]
      cases more with
      | nil => exact beq_eq_false_iff_ne.2 hclass
      | cons => rfl
    refine ⟨[], (List.append_nil _).symm, ?_, ?_⟩
    · rw [List.filter_cons_of_neg (by simpa [TypeDecl.isClass] using hclass)]
      exact .nil
    · rw [← (split_of_not_isOwn hother).skipped]
      exact congrArg _ (skippedIn_eq hshown t.members)

theorem reports_of_addTypes {o o' : FileOutline} {ts : List TypeDecl} (h : ts.foldlM addType o = .ok o') :
    ∃ cs, o'.classes = o.classes ++ cs ∧ List.Forall₂ Keeps (ts.filter (·.isClass)) cs ∧
      o'.skipped = o.skipped ++ ((ts.flatMap TypeDecl.sites).filter (·.isSkipped)).map NativeSite.path := by
  induction ts generalizing o with
  | nil =>
    obtain rfl := Except.ok.inj h
    exact ⟨[], (List.append_nil _).symm, .nil, (List.append_nil _).symm⟩
  | cons t r ih =>
    rw [List.foldlM_cons] at h
    obtain ⟨o'', ht, h⟩ := ok_of_bind h
    obtain ⟨cs, hcs, hkept, hskipped⟩ := reports_of_addType ht
    obtain ⟨cs', hcs', hkept', hskipped'⟩ := ih h
    refine ⟨cs ++ cs', ?_, ?_, ?_⟩
    · rw [hcs', hcs, List.append_assoc]
    · rw [← List.singleton_append, List.filter_append]
      exact List.rel_append hkept hkept'
    · rw [hskipped', hskipped, List.flatMap_cons, List.filter_append, List.map_append, List.append_assoc]

/-- What stands directly in a class of the file is not hidden. -/
theorem not_isHidden_of_isOwn {s : NativeSite} (h : s.isOwn = true) : s.isHidden = false := by
  unfold NativeSite.isOwn at h
  split at h
  · rename_i form name haround
    rw [NativeSite.isHidden, haround, beq_iff_eq.1 h]
    rfl
  · cases h

/-- Every native method is reported exactly if none is hidden. -/
theorem reportsAll_iff {f : SourceFile} {o : FileOutline} (h : Reports f o) :
    ReportsAll f o ↔ ∀ s ∈ f.sites, s.isHidden = false := by
  have hskipped : f.sites.filter (·.isSkipped) = (f.sites.filter (!·.isOwn)).filter (!·.isHidden) := by
    rw [List.filter_filter]
    exact List.filter_congr fun s _ => Bool.and_comm _ _
  constructor
  · intro hall s hs
    have hlength := hall.skipped.length_eq
    rw [h.skipped, hskipped, List.length_map, List.length_map, List.length_filter_eq_length_iff] at hlength
    cases hown : s.isOwn with
    | true => exact not_isHidden_of_isOwn hown
    | false =>
      have hshown := hlength s (List.mem_filter.2 ⟨hs, by rw [hown]; rfl⟩)
      exact Bool.not_eq_true' _ ▸ hshown
  · intro hshown
    refine ⟨h.classes, ?_⟩
    rw [h.skipped, hskipped, List.filter_eq_self.2 fun s hs => by rw [hshown s (List.mem_of_mem_filter hs)]; rfl]

/-- An outline reports the native methods that are not hidden. -/
theorem Reports.of_outline {f : SourceFile} {o : FileOutline} (h : f.outline = .ok o) : Reports f o := by
  obtain ⟨cs, hcs, hkept, hskipped⟩ := reports_of_addTypes h
  exact ⟨by rw [hcs]; exact hkept, hskipped⟩

/-- **What an outline reports of native methods**: those that stand directly in a class of the file are in that class,
in order and each once, and the others are listed under the names of the types around them, in order and each once,
but for those that stand in a constant of an enumeration or in an annotation type. So every native method is
reported exactly if none stands there. It is the same for the bytes that the file is read from. -/
theorem reports_of_outline {f : SourceFile} {o : FileOutline} (h : f.outline = .ok o) :
    Reports f o ∧ (ReportsAll f o ↔ ∀ s ∈ f.sites, s.isHidden = false) ∧
      ∀ bytes, SourceFile.ofBytes? bytes = some f → FileOutline.ofBytes bytes = .ok o := by
  have hreports := Reports.of_outline h
  refine ⟨hreports, reportsAll_iff hreports, fun bytes hbytes => ?_⟩
  rw [FileOutline.ofBytes, hbytes]
  exact h

/-- A native method without parameters and result. -/
def plainNative (name : String) : Member :=
  .method { name, modifiers := ["native"], returnType := "void", parameters := [], line := 1 }

/-- An enumeration with native methods in a constant and beside it, an annotation type with a class inside, and a
class with an enumeration inside. -/
def nestedFile : SourceFile :=
  { package := ""
    types :=
      [ ⟨⟨.enumType, "E", 1, none⟩, [.constant "A" [plainNative "f"], plainNative "g"]⟩,
        ⟨⟨.annotationType, "N", 1, none⟩, [.type ⟨.classType, "C", 1, none⟩ [plainNative "h"]]⟩,
        ⟨⟨.classType, "K", 1, none⟩, [plainNative "k", .type ⟨.enumType, "M", 1, none⟩ [plainNative "m"]]⟩ ] }

theorem nestedFile_reports :
    ∃ o, nestedFile.outline = .ok o ∧ o.skipped = ["E.g", "K.M.m"] ∧
      nestedFile.sites.map NativeSite.path = ["E.f", "E.g", "N.C.h", "K.k", "K.M.m"] ∧ Reports nestedFile o := by
  have hread : ∃ o ∈ nestedFile.outline.toOption, o.skipped = ["E.g", "K.M.m"] := by decide +kernel
  obtain ⟨o, ho, hskipped⟩ := hread
  have ho := ok_of_toOption ho
  exact ⟨o, ho, hskipped, by decide +kernel, (reports_of_outline ho).1⟩

/-- A native method in a constant of an enumeration and one in a class in an annotation type are not reported. -/
theorem nestedFile_not_reportsAll :
    ∃ o, nestedFile.outline = .ok o ∧ o.skipped = ["E.g", "K.M.m"] ∧ ¬ReportsAll nestedFile o := by
  have hread : ∃ o ∈ nestedFile.outline.toOption, o.skipped = ["E.g", "K.M.m"] := by decide +kernel
  obtain ⟨o, ho, hskipped⟩ := hread
  refine ⟨o, ok_of_toOption ho, hskipped, fun hall => ?_⟩
  have hlength := hall.skipped.length_eq
  rw [hskipped] at hlength
  exact absurd hlength (by decide +kernel)

end NativeGlue.Java
