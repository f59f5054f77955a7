import Mathlib.Data.List.TakeWhile
import NativeGlue.Mapping.Mapper
import NativeGlue.Proofs.Fallible

/-!
# Filling templates

What a template of texts and simple holes becomes: each hole gives way to its value, and nothing else
changes. `Fills` says so of a part of a template, whatever follows it, so that it can be put together
part by part (`Fills.append`).
-/

namespace NativeGlue.Template

open NativeGlue.Text

variable {values : List (String × String)}

/-- A part of a template becomes a text, whatever follows. -/
def Fills (values : List (String × String)) (template text : String) : Prop :=
  ∀ n rest, (template.toList ++ rest).length ≤ n → ∃ k, rest.length ≤ k ∧
    fillPieces values 2 (piecesFrom n (template.toList ++ rest)) =
      (fillPieces values 2 (piecesFrom k rest)).map (text.toList ++ ·)

/-! ## 1. Texts -/

theorem fillPieces_consChar (c : Char) (ps : List Piece) :
    fillPieces values 2 (consChar c ps) = (fillPieces values 2 ps).map (c :: ·) := by
  unfold consChar
  split
  · rename_i s r
    rw [fillPieces, fillHoles, fillHoles]
    cases fillHoles values _ r <;> rfl
  · rw [fillPieces, fillHoles]
    rfl

theorem piecesFrom_char {c : Char} (ho : c ≠ '\x7b') (hc : c ≠ '\x7d') (n : Nat) (r : List Char) :
    piecesFrom (n + 1) (c :: r) = consChar c (piecesFrom n r) := by
  rw [piecesFrom]
  · exact fun _ h => absurd h ho
  · exact fun _ h => absurd h hc
  · exact hc
  · exact ho

/-- A text without braces stays. -/
theorem fills_text {s : String} (h : ∀ c ∈ s.toList, c ≠ '\x7b' ∧ c ≠ '\x7d') : Fills values s s := by
  have chars : ∀ (l : List Char), (∀ c ∈ l, c ≠ '\x7b' ∧ c ≠ '\x7d') → ∀ n rest,
      (l ++ rest).length ≤ n → ∃ k, rest.length ≤ k ∧
        fillPieces values 2 (piecesFrom n (l ++ rest)) =
          (fillPieces values 2 (piecesFrom k rest)).map (l ++ ·) := by
    intro l
    induction l with
    | nil =>
      intro _ n rest hn
      refine ⟨n, hn, ?_⟩
      rw [List.nil_append]
      cases fillPieces values 2 (piecesFrom n rest) <;> rfl
    | cons c r ih =>
      intro hl n rest hn
      cases n with
      | zero => cases hn
      | succ n =>
        obtain ⟨k, hk, he⟩ := ih (fun d hd => hl d (List.mem_cons_of_mem _ hd)) n rest
          (Nat.le_of_succ_le_succ hn)
        have hc := hl c List.mem_cons_self
        refine ⟨k, hk, ?_⟩
        rw [List.cons_append, piecesFrom_char hc.1 hc.2, fillPieces_consChar, he]
        cases fillPieces values 2 (piecesFrom k rest) <;> rfl
  exact chars s.toList h

/-! ## 2. Holes -/

theorem readName_letters {name : List Char} (h : ∀ c ∈ name, c.isAlpha = true) (rest : List Char) :
    readName false (name ++ '\x7d' :: rest) = some (name, '\x7d', rest) := by
  induction name with
  | nil => rfl
  | cons c r ih =>
    have hc := h c List.mem_cons_self
    have ne : ∀ d : Char, d.isAlpha = false → (c == d) = false := by
      intro d hd
      refine beq_eq_false_iff_ne.2 fun e => ?_
      rw [e, hd] at hc
      cases hc
    rw [List.cons_append, readName]
    dsimp only
    rw [ih fun d hd => h d (List.mem_cons_of_mem _ hd), ne '[' rfl, ne '\x7b' rfl, ne '\x7d' rfl,
      ne ':' rfl, ne '!' rfl]
    rfl

/-- A name that asks for a value and nothing more. -/
def simpleName (name : String) : Bool :=
  !name.toList.isEmpty && name.toList.all Char.isAlpha && (position? name.toList).isNone

theorem letters_of_simpleName {name : String} (h : simpleName name = true) :
    name.toList ≠ [] ∧ ∀ c ∈ name.toList, c.isAlpha = true := by
  simp only [simpleName, Bool.and_eq_true, Bool.not_eq_true', List.all_eq_true] at h
  exact ⟨fun he => by simp [he] at h, h.1.2⟩

theorem facetOf_simple {name v : String} (h : simpleName name = true)
    (hv : values.lookup name = some v) : facetOf values name.toList = .ok (.ofString v) := by
  simp only [simpleName, Bool.and_eq_true, Bool.not_eq_true', Option.isNone_iff_eq_none,
    List.all_eq_true] at h
  obtain ⟨⟨hne, hletters⟩, hpos⟩ := h
  have hfirst : name.toList.takeWhile (!beginsStep ·) = name.toList := by
    rw [List.takeWhile_eq_self_iff]
    intro c hc
    have hletter := hletters c hc
    unfold beginsStep
    by_cases hd : c = '.' ∨ c = '['
    · rcases hd with rfl | rfl
      · cases hletter
      · cases hletter
    · rw [not_or] at hd
      simp [hd.1, hd.2]
  unfold facetOf
  dsimp only
  rw [hfirst, hne, hpos, String.ofList_toList, hv]
  dsimp only
  rw [List.drop_length]
  rfl

/-- **A simple hole gives way to its value.** -/
theorem fills_hole {name v : String} (h : simpleName name = true) (hv : values.lookup name = some v) :
    Fills values (Mapping.hole name) v := by
  intro n rest hn
  have hhole : (Mapping.hole name).toList ++ rest = '\x7b' :: (name.toList ++ '\x7d' :: rest) := by
    rw [Mapping.hole, String.toList_append, String.toList_append, List.append_assoc,
      List.append_assoc]
    rfl
  rw [hhole] at hn ⊢
  cases n with
  | zero => cases hn
  | succ n =>
    obtain ⟨hne, hletters⟩ := letters_of_simpleName h
    have hread : readHole (name.toList ++ '\x7d' :: rest) = some (.hole name.toList none [], rest) := by
      rw [readHole, readName_letters hletters]
      rfl
    have hpieces : piecesFrom (n + 1) ('\x7b' :: (name.toList ++ '\x7d' :: rest)) =
        .hole name.toList none [] :: piecesFrom n rest := by
      obtain ⟨c, r, hcr⟩ := List.exists_cons_of_ne_nil hne
      have hc : c ≠ '\x7b' := by
        rintro rfl
        have hbrace := hletters '\x7b' (hcr ▸ List.mem_cons_self)
        cases hbrace
      rw [piecesFrom, hread]
      intro r' h'
      rw [hcr] at h'
      exact hc (List.cons.inj h').1
    refine ⟨n, ?_, ?_⟩
    · simp only [List.length_cons, List.length_append] at hn
      omega
    · rw [hpieces, fillPieces, fillHoles, facetOf_simple h hv]
      rfl

/-! ## 3. Templates -/

theorem Fills.append {a b x y : String} (ha : Fills values a x) (hb : Fills values b y) :
    Fills values (a ++ b) (x ++ y) := by
  intro n rest hn
  rw [String.toList_append, List.append_assoc] at hn ⊢
  obtain ⟨k, hk, he⟩ := ha n _ hn
  obtain ⟨j, hj, hf⟩ := hb k rest hk
  refine ⟨j, hj, ?_⟩
  rw [he, hf, String.toList_append]
  cases fillPieces values 2 (piecesFrom j rest) with
  | error e => rfl
  | ok s =>
    show Except.ok (x.toList ++ (y.toList ++ s)) = Except.ok (x.toList ++ y.toList ++ s)
    rw [List.append_assoc]

/-- **A template is filled part by part.** -/
theorem fill_of_fills {template text : String} (h : Fills values template text) :
    fill values template = .ok text := by
  obtain ⟨k, -, he⟩ := h template.toList.length [] (by simp)
  have hnil : piecesFrom k [] = [] := by cases k <;> rfl
  have hend : fillPieces values 2 [] = .ok [] := rfl
  rw [List.append_nil, hnil, hend] at he
  rw [fill, pieces, he]
  show Except.ok (String.ofList (text.toList ++ [])) = _
  rw [List.append_nil, String.ofList_toList]

end NativeGlue.Template
