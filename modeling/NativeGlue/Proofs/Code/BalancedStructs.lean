import NativeGlue.Proofs.Code.StructText

/-!
# Conditionals around struct classes

The header and the source of a unit about its struct classes are whole conditionals, whatever the fields are
(`even_structsHeader`, `even_structsSource`).
-/

namespace NativeGlue.Code

open NativeGlue.Java NativeGlue.Mapping NativeGlue.Text

/-! ## 1. Texts from outside -/

/-- What is said about a field from outside is inert: the member of the struct, the cast and the platforms. -/
structure InertMember (f : StructMember) : Prop where
  accessor : Inert f.accessor
  cast : ∀ k, f.cast = some k → Inert k
  platforms : ∀ q ∈ f.platforms, Inert q

instance (f : StructMember) : Decidable (InertMember f) :=
  decidable_of_iff (Inert f.accessor ∧ (∀ k ∈ f.cast, Inert k) ∧ ∀ q ∈ f.platforms, Inert q)
    ⟨fun h => ⟨h.1, h.2.1, h.2.2⟩, fun h => ⟨h.1, h.2, h.3⟩⟩

/-- What is said about a struct class from outside is inert: its C type, and what is said about its fields. -/
structure InertClass (s : StructClass) : Prop where
  nativeName : Inert s.nativeName
  fields : ∀ f ∈ s.fields, InertMember f

instance (s : StructClass) : Decidable (InertClass s) :=
  decidable_of_iff (Inert s.nativeName ∧ ∀ f ∈ s.fields, InertMember f) ⟨fun h => ⟨h.1, h.2⟩, fun h => ⟨h.1, h.2⟩⟩

theorem InertMember.writable {f : StructMember} (h : InertMember f) : WritableMember f :=
  ⟨h.accessor, h.cast, fun q hq => (h.platforms q hq).unbroken⟩

theorem InertClass.writable {s : StructClass} (h : InertClass s) : WritableClass s :=
  ⟨h.nativeName, fun f hf => (h.fields f hf).writable⟩

/-! ## 2. Files -/

theorem allOn_unset : AllOn fun _ => false := fun _ => rfl

/-- **The struct header of a unit holds whole conditionals.** -/
theorem even_structsHeader {e : Mapper} (he : Inert e.platform) {className : String} (hc : IsWord className)
    {rs : List RenderedStruct} (h : ∀ r ∈ rs, InertRendered r) : Even (structsHeader e className rs) := by
  rw [structsHeader_eq]
  have hparts := fun r hr => leaves_structHeaderPart (h r hr) he allOn_unset
  exact even_guarded (inert_headerGuard hc) (leaves_headerLines hc hparts).even

/-- **The struct source of a unit holds whole conditionals.** -/
theorem even_structsSource {className : String} (hc : IsWord className) {rs : List RenderedStruct}
    (h : ∀ r ∈ rs, InertRendered r) : Even (structsSource className rs) :=
  (leaves_structsSource hc h allOn_unset).even

end NativeGlue.Code
