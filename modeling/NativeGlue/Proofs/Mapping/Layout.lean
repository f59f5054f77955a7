import Mathlib.Algebra.GroupWithZero.Divisibility
import Mathlib.Algebra.Order.Group.Unbundled.Int
import Mathlib.Algebra.Order.Ring.Int
import Mathlib.Algebra.Ring.Divisibility.Basic
import Mathlib.Data.List.Chain
import Mathlib.Order.Bounds.Basic
import NativeGlue.Proofs.Mapping.StandardRules

/-!
# Layouts

A field without an offset of its own starts at the next multiple of its alignment, one with an offset starts
there, whatever lies there already (`Laid`). So the layout of a struct whose fields give no offsets is the natural
one (`natural_of_layoutOf`): aligned, without overlaps, and padded such that arrays of it are aligned too. The
size of a layout is reckoned from its last field alone. It is a multiple of the alignment, but it covers all fields
only where none that is left for an explicit offset ends beyond it (`covers_iff`, `uncovered_overlaid`).
-/

namespace NativeGlue.Mapping

/-! ## 1. Multiples of an alignment -/

/-- An offset is the least multiple of an alignment that is not below a place. -/
def IsNext (alignment place offset : Int) : Prop := IsLeast {n | alignment ∣ n ∧ place ≤ n} offset

theorem isNext_alignUp {alignment : Int} (h : 0 < alignment) (place : Int) :
    IsNext alignment place (alignUp place alignment) := by
  unfold alignUp
  split
  · obtain rfl : alignment = 1 := by omega
    exact ⟨⟨one_dvd _, le_rfl⟩, fun n hn => hn.2⟩
  · rw [Int.fdiv_eq_ediv_of_nonneg _ h.le]
    have hdivision := Int.mul_ediv_add_emod (place + alignment - 1) alignment
    have hrest := Int.emod_nonneg (place + alignment - 1) h.ne'
    have hless := Int.emod_lt_of_pos (place + alignment - 1) h
    rw [mul_comm] at hdivision
    refine ⟨⟨dvd_mul_left _ _, by omega⟩, ?_⟩
    rintro n ⟨⟨c, rfl⟩, hn⟩
    rw [mul_comm alignment c]
    refine Int.mul_le_mul_of_nonneg_right ?_ h.le
    -- A smaller multiple would be below the place by a whole alignment.
    by_contra hc
    have hmul := Int.mul_le_mul_of_nonneg_left (show c + 1 ≤ (place + alignment - 1) / alignment by omega) h.le
    rw [mul_add, mul_one, mul_comm alignment (_ / _)] at hmul
    omega

theorem IsNext.le {alignment place offset : Int} (h : IsNext alignment place offset) : place ≤ offset := h.1.2

theorem IsNext.dvd {alignment place offset : Int} (h : IsNext alignment place offset) : alignment ∣ offset := h.1.1

theorem IsNext.unique {alignment place offset other : Int} (h : IsNext alignment place offset)
    (h' : IsNext alignment place other) : offset = other :=
  IsLeast.unique h h'

/-- Nothing has to be skipped at the beginning. -/
theorem isNext_zero {alignment offset : Int} (h : IsNext alignment 0 offset) : offset = 0 :=
  h.unique ⟨⟨dvd_zero _, le_rfl⟩, fun _ hn => hn.2⟩

/-! ## 2. Placed fields -/

/-- Where a placed field ends. -/
def PlacedField.finish (p : PlacedField) : Int := p.offset.bytes + p.mapping.size

/-- The alignment of a placed field; none counts as one. -/
def PlacedField.alignment (p : PlacedField) : Int := max p.mapping.alignment 1

/-- Where fields end that are placed from a place on. -/
def endFrom (place : Int) (ps : List PlacedField) : Int := (ps.getLast?.map (·.finish)).getD place

/-- Fields are laid from a place on: each at its own offset, or else at the next that its alignment admits. -/
def Laid (place : Int) : List PlacedField → Prop
  | [] => True
  | p :: ps => p.offset = p.field.offset.getD (.int (alignUp place p.alignment)) ∧ Laid p.finish ps

theorem endFrom_cons (place : Int) (p : PlacedField) (ps : List PlacedField) :
    endFrom place (p :: ps) = endFrom p.finish ps := by
  cases ps with
  | nil => rfl
  | cons q ps => rw [endFrom, endFrom, List.getLast?_cons_cons, List.getLast?_cons]; rfl

theorem PlacedField.alignment_pos (p : PlacedField) : 0 < p.alignment :=
  Int.lt_of_lt_of_le Int.one_pos (le_max_right _ _)

section

variable {e : Mapper} {fs : List StructMember} {place alignment : Int} {l : List PlacedField × Int × Int}

/-- Fields can be laid out exactly if each of them can be mapped, those of other platforms too. -/
theorem layoutOfFrom_ok_iff (place alignment : Int) :
    (∃ l, e.layoutOfFrom place alignment fs = .ok l) ↔ ∀ f ∈ fs, ∃ v, e.fieldMapping f = .ok v := by
  induction fs generalizing place alignment with
  | nil => exact ⟨fun _ => List.forall_mem_nil _, fun _ => ⟨_, rfl⟩⟩
  | cons f fs ih =>
    rw [List.forall_mem_cons, Mapper.layoutOfFrom]
    cases hf : e.fieldMapping f with
    | error x =>
      refine ⟨?_, ?_⟩
      · rintro ⟨l, hl⟩
        cases hl
      · rintro ⟨⟨v, hv⟩, -⟩
        cases hv
    | ok v =>
      rw [and_iff_right ⟨v, rfl⟩]
      change (∃ l, (if !presentOn f e.platform then _ else _) = _) ↔ _
      split
      · exact ih ..
      · rw [← ih]
        refine ⟨?_, ?_⟩
        · rintro ⟨l, hl⟩
          obtain ⟨l', hl', -⟩ := ok_of_bind hl
          exact ⟨l', hl'⟩
        · rintro ⟨l', hl'⟩
          rw [hl']
          exact ⟨_, rfl⟩

/-- The fields that are laid out are those that are there on the platform. -/
theorem placed_of_layoutOfFrom (h : e.layoutOfFrom place alignment fs = .ok l) :
    l.1.map (·.field) = fs.filter (presentOn · e.platform) := by
  induction fs generalizing place alignment l with
  | nil =>
    obtain rfl := Except.ok.inj h
    rfl
  | cons f fs ih =>
    obtain ⟨v, -, h⟩ := ok_of_bind h
    split at h
    · rename_i hf
      rw [List.filter_cons_of_neg (by simpa using hf)]
      exact ih h
    · rename_i hf
      obtain ⟨rest, hrest, h⟩ := ok_of_bind h
      obtain rfl := Except.ok.inj h
      rw [List.filter_cons_of_pos (by simpa using hf), List.map_cons, ih hrest]

/-- The fields that are laid out are fields of the struct, with their mappings. -/
theorem mapped_of_layoutOfFrom (h : e.layoutOfFrom place alignment fs = .ok l) :
    ∀ x ∈ l.1, x.field ∈ fs ∧ e.fieldMapping x.field = .ok x.mapping := by
  induction fs generalizing place alignment l with
  | nil =>
    obtain rfl := Except.ok.inj h
    exact List.forall_mem_nil _
  | cons f fs ih =>
    have later : ∀ {place alignment : Int} {l : List PlacedField × Int × Int},
        e.layoutOfFrom place alignment fs = .ok l →
          ∀ x ∈ l.1, x.field ∈ f :: fs ∧ e.fieldMapping x.field = .ok x.mapping :=
      fun h x hx => ⟨List.mem_cons_of_mem _ (ih h x hx).1, (ih h x hx).2⟩
    obtain ⟨v, hv, h⟩ := ok_of_bind h
    split at h
    · exact later h
    · obtain ⟨rest, hrest, h⟩ := ok_of_bind h
      obtain rfl := Except.ok.inj h
      exact List.forall_mem_cons.2 ⟨⟨List.mem_cons_self, hv⟩, later hrest⟩

/-- **Each field is laid behind the one before it.** The place that is reached in the end is the end of the last
field, and the alignment the largest that came up. -/
theorem laid_of_layoutOfFrom (h : e.layoutOfFrom place alignment fs = .ok l) :
    Laid place l.1 ∧ l.2.1 = endFrom place l.1 ∧ l.2.2 = (l.1.map (·.alignment)).foldl max alignment := by
  induction fs generalizing place alignment l with
  | nil =>
    obtain rfl := Except.ok.inj h
    exact ⟨trivial, rfl, rfl⟩
  | cons f fs ih =>
    obtain ⟨v, -, h⟩ := ok_of_bind h
    split at h
    · exact ih h
    · obtain ⟨rest, hrest, h⟩ := ok_of_bind h
      obtain rfl := Except.ok.inj h
      obtain ⟨hlaid, hend, halignment⟩ := ih hrest
      exact ⟨⟨rfl, hlaid⟩, hend.trans (endFrom_cons place ⟨f, v, _⟩ rest.1).symm, halignment⟩

end

section

variable {e : Mapper} {s : StructClass} {l : MemoryLayout}

theorem layoutOf_ok_iff : (∃ l, e.layoutOf s = .ok l) ↔ ∀ f ∈ s.fields, ∃ v, e.fieldMapping f = .ok v := by
  rw [← layoutOfFrom_ok_iff 0 1]
  refine ⟨?_, ?_⟩
  · rintro ⟨l, hl⟩
    obtain ⟨l', hl', -⟩ := ok_of_bind hl
    exact ⟨l', hl'⟩
  · rintro ⟨l', hl'⟩
    rw [Mapper.layoutOf, hl']
    exact ⟨_, rfl⟩

theorem mem_layoutOf_iff (h : e.layoutOf s = .ok l) {m : StructMember} (hm : m ∈ s.fields) :
    (∃ x ∈ l.fields, x.field = m) ↔ presentOn m e.platform = true := by
  obtain ⟨l', hl', h⟩ := ok_of_bind h
  obtain rfl := Except.ok.inj h
  rw [← List.mem_map (f := fun x : PlacedField => x.field), placed_of_layoutOfFrom hl', List.mem_filter,
    and_iff_right hm]

/-- What a layout is made of: the fields of the platform, laid from the beginning on with their mappings, under
the largest of their alignments, and padded behind the last one. -/
structure LaidOut (e : Mapper) (s : StructClass) (l : MemoryLayout) : Prop where
  struct : l.struct = s
  fields : l.fields.map (·.field) = s.fields.filter (presentOn · e.platform)
  mapped : ∀ p ∈ l.fields, e.fieldMapping p.field = .ok p.mapping
  laid : Laid 0 l.fields
  alignment : l.alignment = (l.fields.map (·.alignment)).foldl max 1
  size : l.size = alignUp (endFrom 0 l.fields) l.alignment

theorem laidOut_of_layoutOf (h : e.layoutOf s = .ok l) : LaidOut e s l := by
  obtain ⟨l', hl', h⟩ := ok_of_bind h
  obtain rfl := Except.ok.inj h
  obtain ⟨hlaid, hend, halignment⟩ := laid_of_layoutOfFrom hl'
  exact ⟨rfl, placed_of_layoutOfFrom hl', fun p hp => (mapped_of_layoutOfFrom hl' p hp).2, hlaid, halignment,
    congrArg (alignUp · l'.2.2) hend⟩

/-- What is folded up is not below the start, nor below any item. -/
theorem le_foldl_max_of_mem (as : List Int) (a : Int) : a ≤ as.foldl max a ∧ ∀ x ∈ as, x ≤ as.foldl max a := by
  induction as generalizing a with
  | nil => exact ⟨le_rfl, List.forall_mem_nil _⟩
  | cons b as ih =>
    obtain ⟨hstart, hrest⟩ := ih (max a b)
    exact ⟨(le_max_left a b).trans hstart, List.forall_mem_cons.2 ⟨(le_max_right a b).trans hstart, hrest⟩⟩

theorem foldl_max_mem (as : List Int) (a : Int) : as.foldl max a = a ∨ as.foldl max a ∈ as := by
  induction as generalizing a with
  | nil => exact .inl rfl
  | cons b as ih =>
    rw [List.foldl_cons]
    rcases ih (max a b) with h | h
    · rcases max_choice a b with hm | hm
      · exact .inl (h.trans hm)
      · rw [h, hm]
        exact .inr List.mem_cons_self
    · exact .inr (List.mem_cons_of_mem _ h)

/-- The alignment is one or that of a field, and no field has a larger one. -/
theorem LaidOut.isGreatest (h : LaidOut e s l) :
    IsGreatest (insert 1 {a | ∃ p ∈ l.fields, p.alignment = a}) l.alignment := by
  obtain ⟨hstart, hrest⟩ := le_foldl_max_of_mem (l.fields.map (·.alignment)) 1
  rw [h.alignment]
  refine ⟨?_, ?_⟩
  · rcases foldl_max_mem (l.fields.map (·.alignment)) 1 with hone | hmem
    · exact .inl hone
    · exact .inr (List.mem_map.1 hmem)
  · rintro a (rfl | ⟨p, hp, rfl⟩)
    · exact hstart
    · exact hrest _ (List.mem_map_of_mem hp)

/-- **The size is the least multiple of the alignment that is not below the end of the last field.** -/
theorem LaidOut.isNext_size (h : LaidOut e s l) : IsNext l.alignment (endFrom 0 l.fields) l.size := by
  have hpos : 1 ≤ l.alignment := h.isGreatest.2 (.inl rfl)
  rw [h.size]
  exact isNext_alignUp (by omega) _

end

/-! ## 3. Sizes -/

/-- A rule gives a size that is not negative and an alignment that is a power of two, or none. -/
structure Rule.Sized (r : Rule) : Prop where
  size : r.size ≠ 0 → 0 < r.size
  alignment : r.alignment = 0 ∨ ∃ k : Nat, r.alignment = 2 ^ k

theorem sized_of_mem_standardRules : ∀ r ∈ standardRules, r.Sized := by
  have hchecked : ∀ r ∈ standardRules, 0 ≤ r.size ∧ r.alignment ∈ [0, 2 ^ 0, 2 ^ 1, 2 ^ 2, 2 ^ 3] := by
    decide +kernel
  intro r hr
  obtain ⟨hsize, halignment⟩ := hchecked r hr
  refine ⟨fun hne => by omega, ?_⟩
  simp only [List.mem_cons, List.not_mem_nil, or_false] at halignment
  rcases halignment with h | h | h | h | h
  · exact .inl h
  · exact .inr ⟨0, h⟩
  · exact .inr ⟨1, h⟩
  · exact .inr ⟨2, h⟩
  · exact .inr ⟨3, h⟩

section

variable {target : Target} {rules : List Rule} {e : Mapper} {s : StructClass} {l : MemoryLayout}

/-- Pointers have four or eight bytes. -/
theorem pointerSize_of_ofRules (h : Mapper.ofRules target rules = .ok e) :
    e.pointerSize = 2 ^ 2 ∨ e.pointerSize = 2 ^ 3 := by
  have hsize : target.wordSize = 32 ∨ target.wordSize = 64 := by
    unfold Mapper.ofRules at h
    split at h
    · cases h
    · rename_i hword
      simpa [-not_and, not_and_or] using hword
  rw [eq_of_ofRules h, Target.pointerSize]
  rcases hsize with hword | hword
  · exact .inl (by rw [hword]; rfl)
  · exact .inr (by rw [hword]; rfl)

/-- A field is as large as its rule says. -/
theorem sizes_of_fieldMapping {f : StructMember} {v : ValueMapping} (h : e.fieldMapping f = .ok v) :
    ∃ r ∈ e.rules, v.size = (e.sizeOf r).1 ∧ v.alignment = (e.sizeOf r).2 := by
  obtain ⟨r, hr⟩ := exists_fieldMapped h
  exact ⟨r, (of_ruleFor? hr.rule).1, hr.size, hr.alignment⟩

/-- The size of a placed field is not negative, and its alignment a power of two. -/
theorem LaidOut.sized (h : LaidOut e s l) (he : Mapper.ofRules target rules = .ok e)
    (hrules : ∀ r ∈ rules, r.Sized) {p : PlacedField} (hp : p ∈ l.fields) :
    0 ≤ p.mapping.size ∧ ∃ k : Nat, p.alignment = 2 ^ k := by
  obtain ⟨r, hmem, hsize, halignment⟩ := sizes_of_fieldMapping (h.mapped p hp)
  rw [eq_of_ofRules he] at hmem
  rw [PlacedField.alignment, hsize, halignment]
  unfold Mapper.sizeOf
  split
  · exact ⟨le_rfl, 0, rfl⟩
  split
  · rcases pointerSize_of_ofRules he with hpointer | hpointer
    · rw [hpointer]
      exact ⟨by decide, 2, rfl⟩
    · rw [hpointer]
      exact ⟨by decide, 3, rfl⟩
  · rename_i hsized
    refine ⟨((hrules r hmem).size (by simpa [Rule.sizedAsPointer] using hsized)).le, ?_⟩
    dsimp only
    rcases (hrules r hmem).alignment with hnone | ⟨k, hk⟩
    · exact ⟨0, by rw [hnone]; rfl⟩
    · exact ⟨k, by rw [hk, max_eq_left (one_le_pow₀ (by decide))]⟩

end

/-! ## 4. The natural layout -/

section

variable {place : Int} {p : PlacedField} {ps : List PlacedField}

/-- A field without an offset of its own starts at the next multiple of its alignment. -/
theorem Laid.isNext (h : Laid place (p :: ps)) (hp : p.field.offset = none) :
    IsNext p.alignment place p.offset.bytes := by
  rw [h.1, hp]
  exact isNext_alignUp p.alignment_pos place

/-- **Fields that give no offsets follow each other**, each at the least multiple of its alignment that is not
below the end of the one before. -/
theorem Laid.isChain (h : Laid place ps) (hnone : ∀ p ∈ ps, p.field.offset = none) :
    ps.IsChain fun p q => IsNext q.alignment p.finish q.offset.bytes := by
  induction ps generalizing place with
  | nil => exact .nil
  | cons p ps ih =>
    rw [List.forall_mem_cons] at hnone
    have hrest := ih h.2 hnone.2
    cases ps with
    | nil => exact .singleton p
    | cons q ps => exact .cons_cons (Laid.isNext h.2 (hnone.2 q List.mem_cons_self)) hrest

theorem Laid.dvd (h : Laid place ps) (hp : p ∈ ps) (hnone : p.field.offset = none) :
    p.alignment ∣ p.offset.bytes := by
  induction ps generalizing place with
  | nil => cases hp
  | cons q ps ih =>
    rcases List.mem_cons.1 hp with rfl | hp
    · exact (h.isNext hnone).dvd
    · exact ih h.2 hp

/-- A field with an offset of its own starts there. -/
theorem Laid.offset_eq (h : Laid place ps) (hp : p ∈ ps) {o : Offset} (ho : p.field.offset = some o) :
    p.offset = o := by
  induction ps generalizing place with
  | nil => cases hp
  | cons q ps ih =>
    rcases List.mem_cons.1 hp with rfl | hp
    · rw [h.1, ho]
      rfl
    · exact ih h.2 hp

/-- Fields that give no offsets lie one behind the other, all of them behind the place where the first may
start. -/
theorem Laid.apart (h : Laid place ps) (hnone : ∀ p ∈ ps, p.field.offset = none)
    (hsize : ∀ p ∈ ps, 0 ≤ p.mapping.size) :
    (∀ p ∈ ps, place ≤ p.offset.bytes) ∧ ps.Pairwise fun p q => p.finish ≤ q.offset.bytes := by
  induction ps generalizing place with
  | nil => exact ⟨List.forall_mem_nil _, .nil⟩
  | cons p ps ih =>
    have hstart := (h.isNext (hnone p List.mem_cons_self)).le
    rw [List.forall_mem_cons] at hnone hsize
    obtain ⟨hbehind, hpairs⟩ := ih h.2 hnone.2 hsize.2
    refine ⟨List.forall_mem_cons.2 ⟨hstart, fun q hq => ?_⟩, .cons hbehind hpairs⟩
    have hfinish := hbehind q hq
    have hp := hsize.1
    unfold PlacedField.finish at hfinish
    omega

/-- **What covers the last field covers all fields**, if it covers every field that one with an offset of its own
follows and no such offset is negative. -/
theorem Laid.covered {size : Int} (h : Laid place ps) (hplace : 0 ≤ place)
    (hsize : ∀ p ∈ ps, 0 ≤ p.mapping.size) (hstart : ∀ p ∈ ps, ∀ o ∈ p.field.offset, 0 ≤ o.bytes)
    (hleft : ps.IsChain fun p q => q.field.offset.isSome → p.finish ≤ size) (hend : endFrom place ps ≤ size) :
    ∀ p ∈ ps, 0 ≤ p.offset.bytes ∧ p.finish ≤ size := by
  induction ps generalizing place with
  | nil => exact List.forall_mem_nil _
  | cons p ps ih =>
    rw [endFrom_cons] at hend
    have hp : 0 ≤ p.offset.bytes := by
      cases ho : p.field.offset with
      | none =>
        have hbehind := (h.isNext ho).le
        omega
      | some o =>
        rw [h.1, ho]
        exact hstart p List.mem_cons_self o ho
    rw [List.forall_mem_cons] at hsize hstart
    have hfinish : 0 ≤ p.finish := Int.add_nonneg hp hsize.1
    have hrest := ih h.2 hfinish hsize.2 hstart.2 hleft.of_cons hend
    refine List.forall_mem_cons.2 ⟨⟨hp, ?_⟩, hrest⟩
    cases ps with
    | nil => exact hend
    | cons q ps =>
      cases ho : q.field.offset with
      | some o => exact hleft.rel (by rw [ho]; rfl)
      | none =>
        -- The next field starts behind this one, and it is covered.
        have hbehind := (Laid.isNext h.2 ho).le
        have hcovered := (hrest q List.mem_cons_self).2
        have hq := hsize.2 q List.mem_cons_self
        unfold PlacedField.finish at hcovered
        omega

end

/-- Of powers of two the smaller ones divide the largest. -/
theorem LaidOut.alignment_dvd {e : Mapper} {s : StructClass} {l : MemoryLayout} (h : LaidOut e s l)
    (hpower : ∀ p ∈ l.fields, ∃ k : Nat, p.alignment = 2 ^ k) {p : PlacedField} (hp : p ∈ l.fields) :
    p.alignment ∣ l.alignment := by
  have hle : p.alignment ≤ l.alignment := h.isGreatest.2 (.inr ⟨p, hp, rfl⟩)
  have hpos := p.alignment_pos
  rcases h.isGreatest.1 with hone | ⟨q, hq, hlargest⟩
  · rw [show p.alignment = 1 by omega]
    exact one_dvd _
  · obtain ⟨j, hj⟩ := hpower p hp
    obtain ⟨k, hk⟩ := hpower q hq
    rw [← hlargest, hj, hk] at hle ⊢
    exact pow_dvd_pow 2 ((pow_le_pow_iff_right₀ (by decide)).1 hle)

/-- The fields of a platform laid out naturally: in source order from the beginning on, each at the least multiple
of its alignment that is not below the end of the one before, under the largest alignment, and padded to a multiple
of it. -/
structure NaturalLayout (e : Mapper) (platform : String) (s : StructClass) (l : MemoryLayout) : Prop where
  fields : l.fields.map (·.field) =
    s.fields.filter fun f => decide (f.platforms = [] ∨ platform ∈ f.platforms)
  mapped : ∀ p ∈ l.fields, e.fieldMapping p.field = .ok p.mapping
  first : ∀ p ∈ l.fields.head?, p.offset.bytes = 0
  next : l.fields.IsChain fun p q => IsNext q.alignment p.finish q.offset.bytes
  alignment : IsGreatest (insert 1 {a | ∃ p ∈ l.fields, p.alignment = a}) l.alignment
  size : IsNext l.alignment (endFrom 0 l.fields) l.size

section

variable {target : Target} {rules : List Rule} {e : Mapper} {s : StructClass} {l : MemoryLayout}

/-- **The layout of a struct whose fields give no offsets is the natural one.** So no two fields overlap, all of
them lie inside the struct, and every field of every struct in an array is aligned. -/
theorem natural_of_layoutOf (he : Mapper.ofRules target rules = .ok e)
    (hsize : ∀ r ∈ rules, r.size ≠ 0 → 0 < r.size)
    (halignment : ∀ r ∈ rules, r.alignment = 0 ∨ ∃ k : Nat, r.alignment = 2 ^ k)
    (hoffset : ∀ f ∈ s.fields, f.offset = none) (hl : e.layoutOf s = .ok l) :
    NaturalLayout e target.platform s l ∧
      (l.fields.Pairwise fun p q => p.finish ≤ q.offset.bytes) ∧
      (∀ p ∈ l.fields, 0 ≤ p.offset.bytes ∧ p.finish ≤ l.size) ∧
      ∀ p ∈ l.fields, ∀ i : Int, p.alignment ∣ i * l.size + p.offset.bytes := by
  have hlaid := laidOut_of_layoutOf hl
  have hsized : ∀ p ∈ l.fields, 0 ≤ p.mapping.size ∧ ∃ k : Nat, p.alignment = 2 ^ k := fun p hp =>
    hlaid.sized he (fun r hr => ⟨hsize r hr, halignment r hr⟩) hp
  have hnone : ∀ p ∈ l.fields, p.field.offset = none := by
    intro p hp
    have hmem : p.field ∈ l.fields.map (·.field) := List.mem_map_of_mem hp
    rw [hlaid.fields] at hmem
    exact hoffset _ (List.mem_of_mem_filter hmem)
  have halign : ∀ p ∈ l.fields, p.alignment ∣ p.offset.bytes := fun p hp => hlaid.laid.dvd hp (hnone p hp)
  refine ⟨⟨?_, hlaid.mapped, ?_, hlaid.laid.isChain hnone, hlaid.isGreatest, hlaid.isNext_size⟩,
    (hlaid.laid.apart hnone fun p hp => (hsized p hp).1).2, ?_, ?_⟩
  · rw [hlaid.fields, eq_of_ofRules he]
    refine List.filter_congr fun f _ => ?_
    rw [Bool.eq_iff_iff, decide_eq_true_eq, presentOn, Bool.or_eq_true, List.isEmpty_iff, List.contains_iff_mem]
  · intro p hp
    obtain ⟨ps, hps⟩ := List.head?_eq_some_iff.1 hp
    have hlaid' := hlaid.laid
    rw [hps] at hlaid'
    exact isNext_zero (hlaid'.isNext (hnone p (hps ▸ List.mem_cons_self)))
  · refine hlaid.laid.covered le_rfl (fun p hp => (hsized p hp).1) ?_ ?_ hlaid.isNext_size.le
    · intro p hp o ho
      rw [hnone p hp] at ho
      cases ho
    · refine List.Pairwise.isChain (List.pairwise_of_forall_mem_list fun p _ q hq hexplicit => ?_)
      rw [hnone q hq] at hexplicit
      cases hexplicit
  · intro p hp i
    have hwhole := hlaid.alignment_dvd (fun q hq => (hsized q hq).2) hp
    exact dvd_add ((hwhole.trans hlaid.isNext_size.dvd).mul_left i) (halign p hp)

end

/-- A field of a struct class for layouts. -/
def memberOf (name : String) (type : HostType) (platforms : List String := []) (offset : Option Offset := none) :
    StructMember :=
  { identity := { enclosing := "Widget", name := name, kind := .field }, type := type, accessor := name
    position := ⟨⟨.here, ["Widget.java"]⟩, 1⟩, platforms := platforms, offset := offset }

/-- A struct class of given fields. -/
def classWith (fields : List StructMember) : StructClass :=
  { identity := { enclosing := "Widget", name := "", kind := .struct }, qualified := "Widget", fields := fields
    nativeName := "Widget", position := ⟨⟨.here, ["Widget.java"]⟩, 1⟩ }

/-- A type that goes by a primitive name. -/
def primitiveType (name : String) : HostType := { kind := .primitive, name := name }

/-- A number that stands for a pointer. -/
def handleType : HostType := { kind := .handle, name := "long" }

/-- A target with a word size. -/
def targetOf (wordSize : Int) : Target :=
  { platform := "gtk", outputDir := ⟨.here, ["out"]⟩, sourceRoot := ⟨.here, ["src"]⟩, wordSize := wordSize }

/-- A struct of a truth value, a pointer of another platform, a pointer and a number. -/
def widgetClass : StructClass :=
  classWith [memberOf "visible" (primitiveType "boolean"), memberOf "hwnd" handleType ["win32"],
    memberOf "window" handleType ["cocoa", "gtk"], memberOf "x" (primitiveType "short")]

/-- A rule of its own for truth values, four bytes long and without an alignment. -/
def looseRule : Rule := { (default : Rule) with key := "boolean", fieldAccessor := "Boolean", size := 4 }

theorem natural_widgetClass : ∃ e l, Mapper.ofRules (targetOf 32) (standardRules ++ [looseRule]) = .ok e ∧
    e.layoutOf widgetClass = .ok l ∧ NaturalLayout e "gtk" widgetClass l ∧ l.size = 12 ∧
    ∀ p ∈ l.fields, ∀ i : Int, p.alignment ∣ i * l.size + p.offset.bytes := by
  have hmade : ∃ e ∈ (Mapper.ofRules (targetOf 32) (standardRules ++ [looseRule])).toOption,
      ∃ l ∈ (e.layoutOf widgetClass).toOption, l.size = 12 := by
    decide +kernel
  obtain ⟨e, he, l, hl, hsize⟩ := hmade
  have hsized : ∀ r ∈ standardRules ++ [looseRule], r.Sized := by
    intro r hr
    rcases List.mem_append.1 hr with hr | hr
    · exact sized_of_mem_standardRules r hr
    · rw [List.mem_singleton.1 hr]
      exact ⟨fun _ => by decide, .inl rfl⟩
  obtain ⟨hnatural, -, -, harray⟩ := natural_of_layoutOf (ok_of_toOption he) (fun r hr => (hsized r hr).size)
    (fun r hr => (hsized r hr).alignment) (by decide) (ok_of_toOption hl)
  exact ⟨e, l, ok_of_toOption he, ok_of_toOption hl, hnatural, hsize, harray⟩

/-! ## 5. Offsets of their own -/

/-- **When a layout covers its fields.** Under the standard rules the size of a layout is the least multiple of its
alignment that is not below the end of the last field. It covers all fields exactly if no offset is negative and
every field that one with an offset of its own follows ends below the size. -/
theorem covers_iff {target : Target} {e : Mapper} (he : Mapper.ofRules target standardRules = .ok e)
    {s : StructClass} {l : MemoryLayout} (hl : e.layoutOf s = .ok l) :
    IsNext l.alignment (endFrom 0 l.fields) l.size ∧
      ((∀ p ∈ l.fields, 0 ≤ p.offset.bytes ∧ p.finish ≤ l.size) ↔
        (∀ p ∈ l.fields, ∀ o ∈ p.field.offset, 0 ≤ o.bytes) ∧
          l.fields.IsChain fun p q => q.field.offset.isSome → p.finish ≤ l.size) := by
  have hlaid := laidOut_of_layoutOf hl
  refine ⟨hlaid.isNext_size, fun hcovered => ⟨fun p hp o ho => ?_, ?_⟩, fun ⟨hstart, hleft⟩ => ?_⟩
  · rw [← hlaid.laid.offset_eq hp ho]
    exact (hcovered p hp).1
  · exact List.Pairwise.isChain (List.pairwise_of_forall_mem_list fun p hp q _ _ => (hcovered p hp).2)
  · exact hlaid.laid.covered le_rfl (fun p hp => (hlaid.sized he sized_of_mem_standardRules hp).1) hstart hleft
      hlaid.isNext_size.le

/-- Two halves and the whole that they make up: the layout of such a union covers its fields. -/
theorem covers_unionClass : ∃ e l, Mapper.ofRules (targetOf 64) standardRules = .ok e ∧
    e.layoutOf (classWith [memberOf "low" (primitiveType "int"), memberOf "high" (primitiveType "int"),
      memberOf "whole" (primitiveType "long") [] (some (.int 0))]) = .ok l ∧
    ∀ p ∈ l.fields, 0 ≤ p.offset.bytes ∧ p.finish ≤ l.size := by
  have hmade : ∃ e ∈ (Mapper.ofRules (targetOf 64) standardRules).toOption,
      ∃ l ∈ (e.layoutOf (classWith [memberOf "low" (primitiveType "int"), memberOf "high" (primitiveType "int"),
        memberOf "whole" (primitiveType "long") [] (some (.int 0))])).toOption,
      (∀ p ∈ l.fields, ∀ o ∈ p.field.offset, 0 ≤ o.bytes) ∧ ∀ p ∈ l.fields, p.finish ≤ l.size := by
    decide +kernel
  obtain ⟨e, he, l, hl, hstart, hfinish⟩ := hmade
  obtain ⟨-, hcovers⟩ := covers_iff (ok_of_toOption he) (ok_of_toOption hl)
  refine ⟨e, l, ok_of_toOption he, ok_of_toOption hl, hcovers.2 ⟨hstart, ?_⟩⟩
  exact List.Pairwise.isChain (List.pairwise_of_forall_mem_list fun p hp q _ _ => hfinish p hp)

/-- **A union whose last field is not the longest is too small**: the size is that of the last field, and the field
before it reaches beyond. -/
theorem uncovered_overlaid : ∃ e ∈ (Mapper.ofRules (targetOf 64) standardRules).toOption,
    ∃ l ∈ (e.layoutOf (classWith [memberOf "low" (primitiveType "int"), memberOf "high" (primitiveType "int"),
      memberOf "first" (primitiveType "int") [] (some (.int 0))])).toOption,
    l.size = 4 ∧ ∃ p ∈ l.fields, p.field.name = "high" ∧ p.finish = 8 := by
  decide +kernel

end NativeGlue.Mapping
