import NativeGlue.Proofs.Run.Recorded
import NativeGlue.Proofs.Source.Independence
import NativeGlue.Proofs.Source.Spelling
import NativeGlue.Proofs.Symbol.Unique

/-!
# The constants of native methods

A native method counts its calls under a constant, its symbol with a mark behind it, which the statistics header
declares. The header declares a symbol once for every key that has it (`timesDeclared_headerText`). Methods of one
key have one symbol (`sameSymbol_of_modelFrom`), so every constant is declared, and it is declared once exactly if
no other key has its symbol (`declared_of_sameSymbol`). That is so where types are written without comments
(`distinguished_of_modelFrom`).
-/

namespace NativeGlue.Run

open NativeGlue.Code NativeGlue.Text

/-! ## 1. Declarations in a header -/

/-- How a line that declares the constant of a symbol begins. -/
def declarator (symbol : String) : String := s!"\t{symbol}_FUNC = "

/-- How many lines of a text declare the constant of a symbol. -/
def timesDeclared (symbol text : String) : Nat :=
  (splitAt '\n' text).countP fun l => startsWith l (declarator symbol)

theorem toList_declarator (symbol : String) : (declarator symbol).toList =
    ('\t' :: symbol.toList ++ "_FUNC".toList) ++ ' ' :: ['=', ' '] := by
  have htext : declarator symbol = "\t" ++ symbol ++ "_FUNC = " := rfl
  simp only [htext, String.toList_append, List.append_assoc]
  rfl

/-- The first word of a line holds no blank if neither what it is made of nor the mark behind that does. -/
theorem blank_not_mem_word {s mark : List Char} (hs : ' ' ∉ s) (hm : ' ' ∉ mark) :
    ' ' ∉ '\t' :: s ++ mark := by
  simp [hs, hm]

/-- The first word of a line that declares a constant is the constant. -/
theorem word_of_startsWith {l symbol : String} {w r : List Char} (hl : l.toList = w ++ ' ' :: r) (hw : ' ' ∉ w)
    (hs : ' ' ∉ symbol.toList) (h : startsWith l (declarator symbol) = true) :
    w = '\t' :: symbol.toList ++ "_FUNC".toList := by
  obtain ⟨rest, hrest⟩ := List.isPrefixOf_iff_prefix.1 h
  rw [hl, toList_declarator, List.append_assoc] at hrest
  have hmark : ' ' ∉ "_FUNC".toList := by decide
  exact (eq_of_append_cons hrest.symm hw (blank_not_mem_word hs hmark)).1

/-- A line that numbers a symbol declares its constant, and no other. -/
theorem startsWith_numberLine {s symbol : String} (hs : ' ' ∉ s.toList) (h : ' ' ∉ symbol.toList) (i : Int) :
    startsWith (numberLine s i) (declarator symbol) = (s == symbol) := by
  have hline : (numberLine s i).toList = ('\t' :: s.toList ++ "_FUNC".toList) ++
      ' ' :: ('=' :: ' ' :: ((toString i).toList ++ [','])) := by
    rw [toList_numberLine, List.append_assoc, List.append_assoc]
    rfl
  rw [Bool.eq_iff_iff, beq_iff_eq]
  constructor
  · intro hstarts
    have hword := word_of_startsWith hline (blank_not_mem_word hs (by decide)) h hstarts
    exact String.toList_injective (List.cons.inj (List.append_cancel_right hword)).2
  · rintro rfl
    refine List.isPrefixOf_iff_prefix.2 ⟨(toString i).toList ++ [','], ?_⟩
    rw [hline, toList_declarator, List.append_assoc]
    rfl

/-- The line that counts all symbols declares no constant of one. -/
theorem startsWith_countLine {pre symbol : String} (hp : ' ' ∉ pre.toList) (h : ' ' ∉ symbol.toList)
    (count : Int) : startsWith s!"\t{pre}_FUNC_COUNT = {count}" (declarator symbol) = false := by
  have hline : (s!"\t{pre}_FUNC_COUNT = {count}" : String).toList =
      ('\t' :: pre.toList ++ "_FUNC_COUNT".toList) ++ ' ' :: ('=' :: ' ' :: (toString count).toList) := by
    have htext : (s!"\t{pre}_FUNC_COUNT = {count}" : String) =
        "\t" ++ pre ++ "_FUNC_COUNT = " ++ toString count := rfl
    simp only [htext, String.toList_append, List.append_assoc]
    rfl
  refine Bool.eq_false_iff.2 fun hstarts => ?_
  have hword := word_of_startsWith hline (blank_not_mem_word hp (by decide)) h hstarts
  have hlast := congrArg List.getLast? hword
  rw [List.getLast?_append_of_ne_nil _ (by decide), List.getLast?_append_of_ne_nil _ (by decide)] at hlast
  exact absurd hlast (by decide)

/-- A line that does not begin with a tab declares no constant. -/
theorem startsWith_declarator_of_head {l : String} (h : l.toList.head? ≠ some '\t') (symbol : String) :
    startsWith l (declarator symbol) = false := by
  refine Bool.eq_false_iff.2 fun hstarts => h ?_
  obtain ⟨rest, hrest⟩ := List.isPrefixOf_iff_prefix.1 hstarts
  rw [← hrest, toList_declarator]
  rfl

/-- **A header declares the constants of its entries, each as often as an entry has its symbol.** -/
theorem timesDeclared_statsHeader {name symbol : String} (h : ' ' ∉ symbol.toList) (count : Int)
    {entries : List StatsEntry} (hentries : ∀ e ∈ entries, Unbroken e.symbol ∧ ' ' ∉ e.symbol.toList) :
    timesDeclared symbol (fileText (statsHeader (statsPrefix name) count entries)) =
      entries.countP (·.symbol == symbol) := by
  have hpre : ' ' ∉ (statsPrefix name).toList := fun hc => isPlain_statsPrefix name _ hc (by decide)
  have hunbroken := @unbroken_of_mem_statsHeader name count entries fun e he => (hentries e he).1
  obtain ⟨top, bottom, last, hheader, hhead, -, hlast⟩ := exists_statsHeader (statsPrefix name) count entries
  have none : ∀ ls : List String, (∀ l ∈ ls, l.toList.head? ≠ some '\t') →
      ls.countP (fun l => startsWith l (declarator symbol)) = 0 := fun ls hls =>
    List.countP_eq_zero.2 fun l hl => by
      rw [startsWith_declarator_of_head (hls l hl)]
      decide
  have hempty : ∀ l ∈ [""], l.toList.head? ≠ some '\t' := by decide
  have htop := none top fun l hl => hhead l (List.mem_append_left _ (List.mem_append_left _ hl))
  have hbottom := none (bottom ++ [last]) fun l hl => hhead l (by
    rw [List.append_assoc]
    exact List.mem_append_right _ hl)
  have hnumbered : (entries.map fun e => numberLine e.symbol e.index).countP
      (fun l => startsWith l (declarator symbol)) = entries.countP (·.symbol == symbol) := by
    rw [List.countP_map]
    exact List.countP_congr fun e he => by
      rw [Function.comp_apply, startsWith_numberLine (hentries e he).2 h]
  rw [← List.append_assoc] at hheader
  rw [hheader] at hunbroken ⊢
  rw [timesDeclared, splitAt_fileText hunbroken hlast, List.append_cons _ last [""], List.countP_append,
    none [""] hempty, Nat.add_zero, List.append_assoc, List.append_assoc, List.cons_append, List.countP_append,
    List.countP_append, List.countP_cons_of_neg (by rw [startsWith_countLine hpre h]; decide), htop, hbottom,
    hnumbered]
  omega

/-- **The statistics header of a model declares a symbol once for every key that has it.** -/
theorem timesDeclared_headerText (target : Target) (m : Model) (table : Statistics) (n : NativeMethod) :
    timesDeclared (methodSymbol n) (headerText target m table) =
      (statsSymbols m).countP (·.2 == methodSymbol n) := by
  have blank : ∀ k : NativeMethod, ' ' ∉ (methodSymbol k).toList := fun k hc =>
    isPlain_methodSymbol k _ hc (by decide)
  have hentries : ∀ e ∈ statsEntries m (statsTable m table), Unbroken e.symbol ∧ ' ' ∉ e.symbol.toList := by
    intro e he
    obtain ⟨x, hx, rfl⟩ := List.mem_map.1 he
    obtain ⟨k, -, -, hk⟩ := exists_native_of_mem_statsSymbols (Prod.eta x ▸ hx)
    dsimp only
    rw [← hk]
    exact ⟨unbroken_of_code fun c hc => .inr (code_methodSymbol k c hc), blank k⟩
  rw [headerText, timesDeclared_statsHeader (blank n) _ hentries, statsEntries, List.countP_map]
  rfl

/-- Without numbers from before, the numbers of the native methods can be written. -/
theorem isWritable_capacity {m : Model} (h : m.natives.length < unwritable) :
    isWritable (statsTable m {}).capacity = true := by
  obtain ⟨ks, he, hd, hk⟩ := Statistics.assignFrom_entries 0 [] [] ((storedSymbols m).map (·.1))
  have hentries : (statsTable m {}).entries = Statistics.numbered 0 ks := he
  have hlength : ks.length ≤ m.natives.length := by
    rw [← List.length_map fun n : NativeMethod => CodePoints.ofString n.identity.key]
    refine (List.subperm_of_subset hd fun k hmem => ?_).length_le
    obtain ⟨x, hx, rfl⟩ := List.mem_map.1 (hk k hmem).1
    obtain ⟨y, hy, rfl⟩ := List.mem_map.1 hx
    obtain ⟨n, hn, hkey, -⟩ := exists_native_of_mem_statsSymbols (Prod.eta y ▸ hy)
    exact List.mem_map.2 ⟨n, hn, congrArg CodePoints.ofString hkey⟩
  rw [isWritable, decide_eq_true_iff]
  by_cases hnone : (statsTable m {}).entries = []
  · rw [Statistics.capacity_of_nil hnone, Int.natAbs_zero]
    exact Nat.zero_lt_of_lt h
  · obtain ⟨e, hmem, hcapacity⟩ := Statistics.exists_capacity hnone
    rw [hentries] at hmem
    have hlow := Statistics.le_of_mem_numbered hmem
    have hhigh := Statistics.lt_of_mem_numbered hmem
    omega

/-! ## 2. Keys and symbols -/

/-- Native methods of one key have one symbol. -/
def SameSymbol (m : Model) : Prop :=
  ∀ n ∈ m.natives, ∀ k ∈ m.natives, n.identity.key = k.identity.key → methodSymbol n = methodSymbol k

/-- A key is taken apart at the first dot and at the first parenthesis behind it. -/
theorem identity_of_key {i j : Identity} (hi : i.kind = .method) (hj : j.kind = .method)
    (hword : Java.IsWord i.enclosing ∧ Java.IsWord i.name) (hword' : Java.IsWord j.enclosing ∧ Java.IsWord j.name)
    (h : i.key = j.key) : i.enclosing = j.enclosing ∧ i.name = j.name ∧ i.signature = j.signature := by
  have marks : ∀ {s : String}, Java.IsWord s → '.' ∉ s.toList ∧ '(' ∉ s.toList := fun hs =>
    ⟨fun hc => absurd (hs _ hc) (by decide), fun hc => absurd (hs _ hc) (by decide)⟩
  have hkey : ∀ {x : Identity}, x.kind = .method → x.key.toList =
      x.enclosing.toList ++ '.' :: (x.name.toList ++ '(' :: (x.signature.toList ++ [')'])) := by
    intro x hx
    rw [Identity.key, hx]
    simp [String.toList_append]
  have h := congrArg String.toList h
  rw [hkey hi, hkey hj] at h
  obtain ⟨henclosing, h⟩ := eq_of_append_cons h (marks hword.1).1 (marks hword'.1).1
  obtain ⟨hname, h⟩ := eq_of_append_cons h (marks hword.2).2 (marks hword'.2).2
  have hsignature := List.append_cancel_right h
  rw [String.toList_inj] at henclosing hname hsignature
  exact ⟨henclosing, hname, hsignature⟩

/-- The key of a native method. -/
theorem key_of_nativeFrom {scope : Source.Scope} {e : Source.DeclaredClass} {d : Java.NativeDecl}
    {n : NativeMethod} (hn : Source.NativeFrom scope e d n) :
    n.identity.key = e.name ++ "." ++ d.name ++ "(" ++ n.identity.signature ++ ")" := by
  rw [hn.identity]
  rfl

/-- An overload goes by its signature up to the first parenthesis that closes. -/
theorem symbol_of_overload {scope : Source.Scope} {e : Source.DeclaredClass} {d : Java.NativeDecl}
    {n : NativeMethod} (hn : Source.NativeFrom scope e d n) (hover : n.overloaded = true) :
    methodSymbol n = Symbol.methodSymbol e.name d.name
      (some (String.ofList (n.identity.signature.toList.takeWhile (· != ')')))) := by
  rw [methodSymbol, overloadSignature, hover, if_pos rfl, hn.descriptor, Symbol.signaturePart_descriptor,
    NativeMethod.name, hn.identity]
  rfl

section

variable {store : Overlay.Store} {files : List Source.OutlinedFile}
  {known : List (String × Source.DeclaredClass)} {es : List Source.DeclaredClass} {m : Model}
  (h : Source.ModelFrom store files known es m)

include h

/-- Units of one class name are the same. -/
theorem unit_of_className {u v : ClassUnit} (hu : u ∈ m.units) (hv : v ∈ m.units)
    (hname : u.className = v.className) : u = v := by
  have hnames : m.units.Pairwise fun u v => u.className ≠ v.className := by
    refine pairwise_of_forall₂ (fun {e e' u v} hu hv hne => ?_) h.units h.names
    rw [hu.className, hv.className]
    exact hne
  by_contra hne
  have : Std.Symm fun u v : ClassUnit => u.className ≠ v.className := ⟨fun _ _ hne => hne.symm⟩
  exact hnames.forall hu hv hne hname

/-- A native method is in the unit of its class. -/
theorem exists_unit_of_native {n : NativeMethod} (hn : n ∈ m.natives) :
    ∃ u ∈ m.units, n ∈ u.natives ∧ ∃ e ∈ es, u.className = e.name ∧ ∃ d ∈ e.outline.natives,
      Source.NativeFrom (Source.scopeOf store known) e d n := by
  obtain ⟨u, hu, hnu⟩ := List.mem_flatMap.1 hn
  obtain ⟨e, he, hue⟩ := exists_of_mem_forall₂ h.units hu
  obtain ⟨ds, hsub, hds⟩ := hue.natives
  obtain ⟨d, hd, hdn⟩ := exists_of_mem_forall₂ hds hnu
  exact ⟨u, hu, hnu, e, he, hue.className, d, hsub.subset hd, hdn⟩

/-- Different native methods of one name in a unit are overloads. -/
theorem overloads_of_ne {u : ClassUnit} (hu : u ∈ m.units) {n k : NativeMethod} (hn : n ∈ u.natives)
    (hk : k ∈ u.natives) (hne : n ≠ k) (hname : n.name = k.name) :
    n.overloaded = true ∧ k.overloaded = true := by
  obtain ⟨e, he, hue⟩ := exists_of_mem_forall₂ h.units hu
  obtain ⟨ds, hsub, hds⟩ := hue.natives
  have : Std.Symm fun n k : NativeMethod => n.name = k.name → n.overloaded = true ∧ k.overloaded = true :=
    ⟨fun _ _ hover he => (hover he.symm).symm⟩
  exact (Source.overloads_of_nativesFrom hsub hds).forall hn hk hne hname

/-- **Native methods of one key have one symbol** if the names of the sources are words. -/
theorem sameSymbol_of_modelFrom (hf : ∀ f ∈ files, f.outline.Spelled) : SameSymbol m := by
  intro n hn k hk hkey
  obtain ⟨u, hu, hnu, e, he, hue, d, hd, hdn⟩ := exists_unit_of_native h hn
  obtain ⟨v, hv, hkv, e', he', hve, d', hd', hdk⟩ := exists_unit_of_native h hk
  have words : ∀ {e d}, e ∈ es → d ∈ e.outline.natives → Java.IsWord e.name ∧ Java.IsWord d.name :=
    fun he hd => ⟨(h.spelled hf he).2.name, ((h.spelled hf he).2.natives _ hd).1⟩
  obtain ⟨henclosing, hname, hsignature⟩ : n.identity.enclosing = k.identity.enclosing ∧
      n.identity.name = k.identity.name ∧ n.identity.signature = k.identity.signature := by
    have hi := hdn.identity
    have hj := hdk.identity
    exact identity_of_key (hi ▸ rfl) (hj ▸ rfl) (hi ▸ words he hd) (hj ▸ words he' hd') hkey
  have henclosing : e.name = e'.name := by
    rwa [hdn.identity, hdk.identity] at henclosing
  have hname' : d.name = d'.name := by
    rwa [hdn.identity, hdk.identity] at hname
  obtain rfl := unit_of_className h hu hv (hue.trans (henclosing.trans hve.symm))
  by_cases hne : n = k
  · rw [hne]
  · obtain ⟨hover, hover'⟩ := overloads_of_ne h hu hnu hkv hne hname
    rw [symbol_of_overload hdn hover, symbol_of_overload hdk hover', henclosing, hname', hsignature]

/-- **Native methods of different keys have different symbols** if the names of the sources are identifiers and
the types of parameters are written without comments. -/
theorem distinguished_of_modelFrom (hf : ∀ f ∈ files, Symbol.WellNamed f.outline) : Distinguished m := by
  intro n hn k hk hsymbol
  obtain ⟨u, hu, hnu, e, -, hue, d, -, hdn⟩ := exists_unit_of_native h hn
  obtain ⟨v, hv, hkv, e', -, hve, d', -, hdk⟩ := exists_unit_of_native h hk
  have hlu := Symbol.legible_of_modelFrom h hf hu
  have hlv := Symbol.legible_of_modelFrom h hf hv
  rw [methodSymbol, methodSymbol, hlu.enclosing n hnu, hlv.enclosing k hkv] at hsymbol
  obtain ⟨hclass, hname, hshown⟩ := hlu.eq_of_methodSymbol hlv (Symbol.isDotted_singleton hlu.className)
    (Symbol.isDotted_singleton hlv.className) hnu hkv hsymbol
  have hclass : u.className = v.className := String.toList_injective (List.cons.inj hclass).1
  obtain rfl := unit_of_className h hu hv hclass
  by_cases hne : n = k
  · rw [hne]
  · have hsame := hlu.descriptors_of_overloads hnu hkv (overloads_of_ne h hu hnu hkv hne hname) hshown
    have hsignature : n.identity.signature = k.identity.signature := by
      rw [← hdn.signature, ← hdk.signature, hsame]
    have hname' : d.name = d'.name := by
      rwa [NativeMethod.name, NativeMethod.name, hdn.identity, hdk.identity] at hname
    rw [key_of_nativeFrom hdn, key_of_nativeFrom hdk, hue.symm.trans (hclass.trans hve), hname', hsignature]

end

/-! ## 3. What is declared -/

/-- **Every constant is declared, and it is declared once exactly if no other key has its symbol.** -/
theorem declared_of_sameSymbol {m : Model} (h : SameSymbol m) {n : NativeMethod} (hn : n ∈ m.natives)
    (target : Target) (table : Statistics) :
    0 < timesDeclared (methodSymbol n) (headerText target m table) ∧
      (timesDeclared (methodSymbol n) (headerText target m table) = 1 ↔
        ∀ k ∈ m.natives, methodSymbol k = methodSymbol n → k.identity.key = n.identity.key) := by
  have hmem : ∀ k ∈ m.natives, methodSymbol k = methodSymbol n →
      (k.identity.key, methodSymbol n) ∈ (statsSymbols m).filter (·.2 == methodSymbol n) := by
    intro k hk hsymbol
    obtain ⟨x, hlast, hkey⟩ := exists_isLast hk
    obtain ⟨before, after, hsplit, -⟩ := id hlast
    have hx : x ∈ m.natives := hsplit ▸ List.mem_append_right _ List.mem_cons_self
    have hfound := lookup_statsSymbols hlast
    rw [hkey, h x hx k hk hkey, hsymbol] at hfound
    exact List.mem_filter.2 ⟨mem_of_lookup hfound, beq_self_eq_true _⟩
  have hnodup : (((statsSymbols m).filter (·.2 == methodSymbol n)).map (·.1)).Nodup :=
    (nodup_statsSymbols m).sublist (List.filter_sublist.map _)
  rw [timesDeclared_headerText, List.countP_eq_length_filter]
  refine ⟨List.length_pos_of_mem (hmem n hn rfl), fun hone k hk hsymbol => ?_, fun hall => ?_⟩
  · obtain ⟨y, hy⟩ := List.length_eq_one_iff.1 hone
    have hkey := hy ▸ hmem k hk hsymbol
    have hself := hy ▸ hmem n hn rfl
    rw [List.mem_singleton] at hkey hself
    exact congrArg Prod.fst (hkey.trans hself.symm)
  · have hsame : ((statsSymbols m).filter (·.2 == methodSymbol n)).map (·.1) =
        List.replicate ((statsSymbols m).filter (·.2 == methodSymbol n)).length n.identity.key := by
      refine List.eq_replicate_iff.2 ⟨List.length_map _, fun k hk => ?_⟩
      obtain ⟨⟨k, s⟩, hx, rfl⟩ := List.mem_map.1 hk
      obtain ⟨hx, hs⟩ := List.mem_filter.1 hx
      obtain ⟨x, hxm, rfl, hsymbol⟩ := exists_native_of_mem_statsSymbols hx
      exact hall x hxm (hsymbol.trans (beq_iff_eq.1 hs))
    have hpos := List.length_pos_of_mem (hmem n hn rfl)
    rw [hsame, List.nodup_replicate] at hnodup
    omega

end NativeGlue.Run
