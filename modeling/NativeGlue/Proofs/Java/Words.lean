import Mathlib.Data.List.TakeWhile
import NativeGlue.Java.Token

/-!
# Tokens that are words

A token that is read as a name or as a word of the language, or may be read as one, is a word: every
character of it may stand inside a word (`word_of_nextToken`). So is the text of the file between the two
places that the token keeps.
-/

namespace NativeGlue.Java

variable {source : List (Char × Nat)} {c c' : Cursor} {usable : Terminal → Bool} {symbols : List String}

/-! ## 1. Cursors -/

/-- What is still to be read at a cursor is the rest of the file. -/
structure Cursor.In (source : List (Char × Nat)) (c : Cursor) : Prop where
  sized : c.sized = source.drop c.place.index
  plain : c.plain = c.sized.map (·.1)

theorem index_after (p : Place) (c : Char × Nat) : (p.after c).index = p.index + 1 := by
  unfold Place.after
  split
  · rfl
  · rfl

theorem index_foldl_after (p : Place) (cs : List (Char × Nat)) :
    (cs.foldl Place.after p).index = p.index + cs.length := by
  induction cs generalizing p with
  | nil => rfl
  | cons c r ih => rw [List.foldl_cons, ih, index_after, List.length_cons, Nat.add_assoc, Nat.add_comm 1]

theorem index_skip (c : Cursor) (n : Nat) :
    (c.skip n).place.index = c.place.index + min n c.sized.length := by
  rw [Cursor.skip, index_foldl_after, List.length_take]

theorem Cursor.In.skip (h : c.In source) (n : Nat) : (c.skip n).In source := by
  refine ⟨?_, ?_⟩
  · change c.sized.drop n = _
    rw [index_skip, ← List.drop_drop, ← h.sized, ← List.drop_eq_drop_min]
  · change c.plain.drop n = (c.sized.drop n).map (·.1)
    rw [h.plain, List.map_drop]

theorem in_ofSource (source : List (Char × Nat)) : (Cursor.ofSource source).In source := by
  have hstart : Cursor.In source ⟨{}, source.map (·.1), source⟩ := ⟨rfl, rfl⟩
  unfold Cursor.ofSource
  dsimp only
  split
  · exact hstart.skip 1
  · exact hstart

/-! ## 2. Lexemes -/

/-- Whether a terminal is a name or a word of the language. -/
def Terminal.isWord : Terminal → Bool
  | .name => true
  | .word _ => true
  | _ => false

/-- A lexeme that may be a word ends where the word ends. -/
def Lexeme.Worded (s : List Char) (l : Lexeme) : Prop :=
  l.terminal.isWord = true ∨ (∃ t, l.otherwise = some t ∧ t.isWord = true) → l.length = run isWordPart s

theorem worded_of_ne {s : List Char} {t : Terminal} {n : Nat} (h : t.isWord = false) :
    Lexeme.Worded s ⟨t, none, n⟩ := by
  rintro (h' | ⟨_, h', -⟩)
  · exact absurd h' (Bool.eq_false_iff.1 h)
  · cases h'

/-- A symbol is no word. -/
theorem symbol_of_symbol? {s : List Char} {t : Terminal} {n : Nat}
    (h : symbol? usable symbols s = some (t, n)) : ∃ w, t = .symbol w := by
  have hall : ∀ x ∈ symbol? usable symbols s, ∃ w, x.1 = Terminal.symbol w := by
    refine List.foldlRecOn (motive := fun best : Option (Terminal × Nat) =>
      ∀ x ∈ best, ∃ w, x.1 = Terminal.symbol w) _ _ nofun fun best hbest w _ x hx => ?_
    split at hx
    · cases hx
      exact ⟨w, rfl⟩
    · exact hbest x hx
  exact hall (t, n) h

theorem worded_of_wordLexeme {s : List Char} {l : Lexeme} (h : wordLexeme usable s = some l) :
    l.Worded s := by
  intro _
  unfold wordLexeme at h
  dsimp only at h
  split at h
  · cases h
    rfl
  split at h
  · cases h
    rfl
  · cases h

theorem worded_of_plainLexeme {s : List Char} {l : Lexeme}
    (h : plainLexeme usable symbols s = some l) : l.Worded s := by
  unfold plainLexeme at h
  split at h
  · split at h
    · cases h
      exact worded_of_ne rfl
    · cases h
  dsimp only at h
  split at h
  · split at h
    · rename_i hmark
      obtain ⟨w, rfl⟩ := symbol_of_symbol? hmark
      cases h
      exact worded_of_ne rfl
    · exact worded_of_wordLexeme h
  generalize (if usable .literal = true then _ else 0) = n at h
  split at h
  · rename_i hmark
    obtain ⟨w, rfl⟩ := symbol_of_symbol? hmark
    split at h
    · cases h
      exact worded_of_ne rfl
    · cases h
      exact worded_of_ne rfl
  · split at h
    · cases h
    · cases h
      exact worded_of_ne rfl

theorem worded_of_stringLexeme {s : List Char} {l : Lexeme} (h : stringLexeme s = some l) :
    l.Worded s := by
  unfold stringLexeme at h
  dsimp only at h
  split at h
  · cases h
    exact worded_of_ne rfl
  · cases h
    exact worded_of_ne rfl
  all_goals
    split at h
    · cases h
    · cases h
      exact worded_of_ne rfl

theorem worded_of_blockLexeme {s : List Char} {l : Lexeme} (h : blockLexeme s = some l) :
    l.Worded s := by
  unfold blockLexeme at h
  dsimp only at h
  split at h
  · cases h
    exact worded_of_ne rfl
  · cases h
    exact worded_of_ne rfl
  all_goals
    split at h
    · cases h
    · cases h
      exact worded_of_ne rfl

/-! ## 3. Tokens -/

/-- Every character of a file between two places may stand inside a word. -/
def WordAt (source : List (Char × Nat)) (start stop : Nat) : Prop :=
  ∀ c ∈ (source.map (·.1)).extract start stop, isWordPart c = true

/-- A token that may be a word is one. -/
def Token.Worded (source : List (Char × Nat)) (t : Token) : Prop :=
  t.terminal.isWord = true ∨ (∃ o, t.otherwise = some o ∧ o.isWord = true) →
    WordAt source t.start.index t.stop

/-- The token of a lexeme, and the cursor behind it. -/
theorem worded_of_lexeme (hc : c.In source) {o : Option Lexeme} {comments : List Comment} {t : Token}
    (ho : ∀ l, o = some l → l.Worded c.plain)
    (h : (o.bind fun l => some ((⟨l.terminal, l.otherwise, c.place, (c.skip l.length).place.index,
      comments⟩ : Token), c.skip l.length)) = some (t, c')) : t.Worded source ∧ c'.In source := by
  obtain ⟨l, hl, h⟩ := Option.bind_eq_some_iff.1 h
  cases h
  refine ⟨fun hname x hx => ?_, hc.skip _⟩
  have hlength := ho l hl hname
  rw [index_skip, hlength, List.extract_eq_take_drop, Nat.add_sub_cancel_left, ← List.map_drop, ← hc.sized,
    ← hc.plain, Nat.min_comm, ← List.take_take] at hx
  have hword : x ∈ c.plain.takeWhile isWordPart := by
    rw [List.prefix_iff_eq_take.1 (List.takeWhile_prefix isWordPart)]
    exact List.mem_of_mem_take hx
  exact List.mem_takeWhile_imp hword

/-- **A token that may be a word is one.** -/
theorem word_of_nextToken {n : Nat} {comments : List Comment} {t : Token} (hc : c.In source)
    (h : nextToken usable symbols n comments c = some (t, c')) : t.Worded source ∧ c'.In source := by
  induction n generalizing c comments with
  | zero => cases h
  | succ n ih =>
    rw [nextToken] at h
    dsimp only at h
    split at h
    · exact worded_of_lexeme hc (fun l => worded_of_stringLexeme) h
    split at h
    · split at h
      · split at h
        · exact ih ((hc.skip _).skip _) h
        · exact worded_of_lexeme hc (fun l => worded_of_blockLexeme) h
      · exact worded_of_lexeme hc (fun l => worded_of_blockLexeme) h
    split at h
    · exact ih (hc.skip _) h
    split at h
    · exact ih ((hc.skip _).skip _) h
    · exact worded_of_lexeme hc (fun l => worded_of_plainLexeme) h

end NativeGlue.Java
