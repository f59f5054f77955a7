import NativeGlue.Proofs.Code.Discipline

/-!
# What is copied back into structs

The local of a struct is filled from its object before the call and copied back behind it, in the part of the
body that runs after a failure too. A parameter that is not read (`no_in`) has its local pointed at a struct
that nobody filled. Where a run is cut short, this struct is copied back like the others, although the native
function never saw it: what the object holds is lost. So a failed run leaves objects as they were (`Faithful`)
exactly if no such local was taken before the failure (`faithful_iff`).
-/

namespace NativeGlue.Code

open NativeGlue.Mapping

/-! ## 1. The lines of a struct -/

/-- The line that fills the local of a struct from its object. -/
def fillLine (p : Parameter) : String :=
  taken p ("get" ++ p.type.name ++ "Fields(env, " ++ p.arg ++ ", &_" ++ p.arg ++ ")")

/-- The line that points the local at a struct and does not fill it. -/
def pointLine (p : Parameter) : String := taken p ("&_" ++ p.arg)

/-- The line that copies the local of a struct back into its object. -/
def copyLine (p : Parameter) : String := given p (giveCall ("set" ++ p.type.name ++ "Fields") p "")

theorem taken_injective {p : Parameter} {s s' : String} (h : taken p s = taken p s') : s = s' := by
  unfold taken at h
  exact (String.append_right_inj _).1 ((String.append_left_inj _).1 h)

/-- A line that fills a local does something else than one that points it somewhere. -/
theorem fillLine_ne_pointLine (p : Parameter) : fillLine p ≠ pointLine p := by
  intro h
  have hfirst := congrArg (fun s : String => s.toList.head?) (taken_injective h)
  simp at hfirst

/-- The lines of a parameter that stands for a struct: its local is filled unless it is not read, and copied
back unless it belongs to somebody else. -/
structure StructLines (p : Parameter) (t : ValueMapping) : Prop where
  marshalIn : t.marshalIn = if p.flags.noIn then pointLine p else fillLine p
  release : t.release = if p.ownership = .borrowed then "" else copyLine p

theorem structLines_of_mapped {structs : List StructClass} {m : NativeMethod} {p : Parameter}
    {t : ValueMapping} {r : Rule} {c : Option StructClass} (h : Mapped standardRules structs m p t r c)
    (hkind : p.type.kind = .struct) (harray : p.type.isArray = false) : StructLines p t := by
  have hrule : ruleFor? standardRules "struct" = some structRule := by decide +kernel
  have hr := h.rule
  rw [key_of_struct hkind, hrule] at hr
  obtain rfl := Option.some.inj hr
  obtain ⟨s, rfl, hs⟩ := h.named hkind
  have hname : s.name = p.type.name := (of_structClassNamed? hs).2
  have hpinned : isPinned p m = false := by simp [isPinned, harray]
  have hnoIn : structRule.noIn.isEmpty = false := by decide
  have hin := h.marshalIn
  have hout := h.release
  simp only [marshalTemplates, hpinned, hnoIn, hkind, Bool.not_false, Bool.and_true, and_true,
    Bool.false_eq_true, if_false] at hin hout
  constructor
  · cases hflag : p.flags.noIn with
    | true =>
      rw [hflag, if_pos rfl, fill_structNoIn] at hin
      rw [if_pos rfl]
      exact (Except.ok.inj hin).symm
    | false =>
      rw [hflag, if_neg Bool.false_ne_true, fill_structIn] at hin
      rw [if_neg Bool.false_ne_true, fillLine, ← hname]
      exact (Except.ok.inj hin).symm
  · by_cases howned : p.ownership = .borrowed
    · rw [if_pos howned, fill_empty] at hout
      rw [if_pos howned]
      exact (Except.ok.inj hout).symm
    · rw [if_neg howned, fill_structOut] at hout
      rw [if_neg howned, copyLine, ← hname]
      exact (Except.ok.inj hout).symm

theorem taken_ne_empty (p : Parameter) (source : String) : taken p source ≠ "" := by
  intro h
  have hfirst := congrArg (fun s : String => s.toList.head?) h
  simp [taken] at hfirst

theorem copyLine_ne_empty (p : Parameter) : copyLine p ≠ "" := by
  intro h
  have hfirst := congrArg (fun s : String => s.toList.head?) h
  simp [copyLine, given] at hfirst

namespace StructLines

variable {p : Parameter} {t : ValueMapping}

theorem marshalIn_ne (h : StructLines p t) : t.marshalIn ≠ "" := by
  rw [h.marshalIn]
  split
  · exact taken_ne_empty p _
  · exact taken_ne_empty p _

/-- The local is filled just if the parameter is read. -/
theorem fills_iff (h : StructLines p t) : t.marshalIn = fillLine p ↔ p.flags.noIn = false := by
  rw [h.marshalIn]
  cases p.flags.noIn with
  | false => simp
  | true => simpa using (fillLine_ne_pointLine p).symm

/-- The local is copied back just if the parameter is not borrowed. -/
theorem release_isEmpty (h : StructLines p t) : t.release.isEmpty = decide (p.ownership = .borrowed) := by
  rw [h.release]
  by_cases howned : p.ownership = .borrowed
  · simp [howned]
  · simp [howned, copyLine_ne_empty]

end StructLines

/-! ## 2. Events of a run -/

section

variable {call : CallMapping} {c : Chance}

theorem mem_acquiring {x : Parameter × ValueMapping} (hx : x ∈ call.mapped) (hin : x.2.marshalIn ≠ "") :
    x ∈ call.acquiring := by
  have hitem : x ∈ call.mapped.filter fun x => !x.2.marshalIn.isEmpty || !x.2.release.isEmpty :=
    List.mem_filter.2 ⟨hx, by simp [hin]⟩
  unfold CallMapping.acquiring
  cases hp : x.2.pinned with
  | false => exact List.mem_append_left _ (List.mem_filter.2 ⟨hitem, by simp [hp]⟩)
  | true => exact List.mem_append_right _ (List.mem_filter.2 ⟨hitem, hp⟩)

/-- What is acquired for a parameter has to be given back just if there is a line that gives it back. -/
theorem givesBack_localOf (hn : (call.acquiring.map fun x => localOf x.1).Nodup)
    {x : Parameter × ValueMapping} (hx : x ∈ call.acquiring) :
    givesBack call (localOf x.1) = !x.2.release.isEmpty := by
  rw [Bool.eq_iff_iff, givesBack, List.any_eq_true]
  constructor
  · rintro ⟨y, hy, h⟩
    obtain ⟨hname, hr⟩ := Bool.and_eq_true _ _ ▸ h
    rwa [← List.inj_on_of_nodup_map hn hy hx (beq_iff_eq.1 hname)]
  · exact fun hr => ⟨x, hx, by simpa using hr⟩

/-- What a run does that is cut short: it takes, gives back, and does not call. -/
def cutShort (c : Chance) (call : CallMapping) : List Event :=
  .entered :: (c.acquiredBy call).map .acquired ++
    (((c.acquiredBy call).filter (givesBack call)).reverse.map .released ++ [.exited])

theorem called_not_mem_cutShort : .called ∉ cutShort c call := by
  simp [cutShort]

theorem acquired_mem_cutShort {l : String} : .acquired l ∈ cutShort c call ↔ l ∈ c.acquiredBy call := by
  simp [cutShort]

theorem released_mem_cutShort {l : String} :
    .released l ∈ cutShort c call ↔ l ∈ c.acquiredBy call ∧ givesBack call l = true := by
  simp [cutShort]

/-- Whatever is given back was taken before. -/
theorem acquired_mem_before {l : String} {before after : List Event}
    (h : cutShort c call = before ++ .released l :: after) : .acquired l ∈ before := by
  have hmem : .released l ∈ cutShort c call := by
    rw [h]
    simp
  have htaken := (released_mem_cutShort.1 hmem).1
  rcases List.append_eq_append_iff.1 h with ⟨more, hbefore, -⟩ | ⟨more, hfront, hback⟩
  · rw [hbefore]
    simp [htaken]
  · cases more with
    | nil =>
      rw [List.append_nil] at hfront
      rw [← hfront]
      simp [htaken]
    | cons e more =>
      -- nothing is given back as long as something is taken
      obtain rfl : Event.released l = e := (List.cons.inj hback).1
      have hin : Event.released l ∈ .entered :: (c.acquiredBy call).map .acquired := by
        rw [hfront]
        simp
      simp at hin

end

/-! ## 3. Objects after a failure -/

/-- What is copied back into an object was read from it before. -/
def Faithful (call : CallMapping) (events : List Event) : Prop :=
  ∀ x ∈ call.mapped, x.1.type.kind = .struct → ∀ before after,
    events = before ++ .released (localOf x.1) :: after →
      .acquired (localOf x.1) ∈ before ∧ x.2.marshalIn = fillLine x.1

section

variable {stats : String} {call : CallMapping} {c : Chance}

/-- A run that is cut short before the call. -/
theorem run_of_jump (hu : Unadorned call.method) (hn : (call.acquiring.map fun x => localOf x.1).Nodup)
    (hjump : (attempts call).any c.jumps = true) :
    c.run false [] (statementsOf stats call) = some (cutShort c call) := by
  rw [(run_statementsOf c hu hn).2, if_pos hjump]
  simp [cutShort]

/-- A struct is copied back after a failure just if its local was taken and it is not borrowed, filled or
not. -/
theorem copied_iff (hn : (call.acquiring.map fun x => localOf x.1).Nodup)
    {x : Parameter × ValueMapping} (hx : x ∈ call.mapped) (hl : StructLines x.1 x.2) :
    .released (localOf x.1) ∈ cutShort c call ↔
      .acquired (localOf x.1) ∈ cutShort c call ∧ x.1.ownership ≠ .borrowed := by
  rw [released_mem_cutShort, acquired_mem_cutShort,
    givesBack_localOf hn (mem_acquiring hx hl.marshalIn_ne), hl.release_isEmpty]
  simp

/-- **A failed run leaves objects as they were exactly if it took no local that was not filled.** -/
theorem faithful_cutShort_iff (hn : (call.acquiring.map fun x => localOf x.1).Nodup)
    (hl : ∀ x ∈ call.mapped, x.1.type.kind = .struct → StructLines x.1 x.2) :
    Faithful call (cutShort c call) ↔ ∀ x ∈ call.mapped, x.1.type.kind = .struct → x.1.flags.noIn = true →
      x.1.ownership ≠ .borrowed → .acquired (localOf x.1) ∉ cutShort c call := by
  constructor
  · intro hfaithful x hx hkind hno howned htaken
    obtain ⟨before, after, hsplit⟩ :=
      List.append_of_mem ((copied_iff hn hx (hl x hx hkind)).2 ⟨htaken, howned⟩)
    have hfilled := (hl x hx hkind).fills_iff.1 (hfaithful x hx hkind before after hsplit).2
    rw [hno] at hfilled
    cases hfilled
  · intro hnone x hx hkind before after hsplit
    have hcopied : .released (localOf x.1) ∈ cutShort c call := by
      rw [hsplit]
      simp
    obtain ⟨htaken, howned⟩ := (copied_iff hn hx (hl x hx hkind)).1 hcopied
    refine ⟨acquired_mem_before hsplit, (hl x hx hkind).fills_iff.2 ?_⟩
    exact Bool.eq_false_iff.2 fun hno => hnone x hx hkind hno howned htaken

end

/-- **What is copied back into objects where a run fails before the call.** For every native method of a model
that is mapped under the standard rules and without code of overrides, and whatever is null, fails or is too
short: a run that jumps does not call the native function, and it copies a struct back just if its local was
taken before the jump and it is not borrowed. All that is copied back was filled before exactly if no parameter
that is not read had its local taken, and is not borrowed. -/
theorem faithful_iff {store : Overlay.Store} {files : List Source.OutlinedFile} {model : Model}
    (hmodel : Source.modelOf store files = .ok model) {e : Mapper} (he : e.rules = standardRules)
    {n : NativeMethod} (hn : n ∈ model.natives) {structs : List StructClass} {call : CallMapping}
    (hcall : e.callMapping structs n = .ok call) (hu : Unadorned n) (stats : String) {c : Chance}
    (hjump : (attempts call).any c.jumps = true) :
    ∃ events, c.run false [] (statementsOf stats call) = some events ∧ .called ∉ events ∧
      (∀ x ∈ call.mapped, x.1.type.kind = .struct → StructLines x.1 x.2 ∧
        (.released (localOf x.1) ∈ events ↔
          .acquired (localOf x.1) ∈ events ∧ x.1.ownership ≠ .borrowed)) ∧
      (Faithful call events ↔ ∀ x ∈ call.mapped, x.1.type.kind = .struct → x.1.flags.noIn = true →
        x.1.ownership ≠ .borrowed → .acquired (localOf x.1) ∉ events) := by
  obtain ⟨known, es, hfrom⟩ := Source.modelFrom_of_modelOf hmodel
  obtain ⟨d, -, k, -, hnative⟩ := hfrom.native hn
  have hmapped := methodMapped he hcall
  have hlocals := nodup_localOf hmapped hnative.indices
  have hlines : ∀ x ∈ call.mapped, x.1.type.kind = .struct → StructLines x.1 x.2 := by
    intro x hx hkind
    obtain ⟨hp, r, s, hm⟩ := hmapped.of_mem_mapped hx
    obtain ⟨y, -, hy⟩ := exists_of_mem_forall₂ hnative.parameters hp
    exact structLines_of_mapped hm hkind (hy.isArray hkind)
  have hunadorned : Unadorned call.method := by rwa [hmapped.method]
  refine ⟨_, run_of_jump hunadorned hlocals hjump, called_not_mem_cutShort, fun x hx hkind => ?_,
    faithful_cutShort_iff hlocals hlines⟩
  exact ⟨hlines x hx hkind, copied_iff hlocals hx (hlines x hx hkind)⟩

/-- A file with a method that reads one struct, only writes another one, and takes an array. -/
def unreadFiles : List Source.OutlinedFile :=
  [ { path := ⟨.here, ["OS.java"]⟩
      outline :=
        { package := ""
          classes :=
            [ { name := "Point", line := 1, natives := [], fields := [⟨"x", "int", 2, none⟩] },
              { name := "OS", line := 4, fields := []
                natives :=
                  [ ⟨"locate", [⟨"from", "Point", 6⟩, ⟨"point", "Point", 6⟩, ⟨"data", "int[]", 6⟩], "void",
                      ["native"], 6, some ⟨"/** @param point flags=no_in */", 5⟩⟩ ] } ] } } ]

/-- The array cannot be had; the second struct is there, or it is null. -/
def arrayFails (isNull : Bool) : Chance :=
  ⟨fun p => p.index == 1 && isNull, fun p => p.index == 2, fun _ => false⟩

set_option synthInstance.maxSize 512 in
/-- The method can be mapped, and a run of it jumps whether the second struct is there or not. -/
theorem built_unreadFiles :
    ∃ m n call, Source.modelOf {} unreadFiles = .ok m ∧ n ∈ m.natives ∧ Unadorned n ∧
      Mapper.callMapping ⟨"linux", 64, 8, standardRules⟩ m.structs n = .ok call ∧
      (∀ isNull, (attempts call).any (arrayFails isNull).jumps = true) ∧
      (arrayFails false).run false [] (statementsOf "STATS" call) =
        some [.entered, .acquired "lparg0", .acquired "lparg1", .released "lparg1", .released "lparg0",
          .exited] ∧
      ∃ x ∈ call.mapped, x.1.type.kind = .struct ∧ x.2.marshalIn ≠ fillLine x.1 ∧
        (localOf x.1, x.2.marshalIn, x.2.release) =
          ("lparg1", "if (arg1) if ((lparg1 = &_arg1) == NULL) goto fail;",
            "if (arg1 && lparg1) setPointFields(env, arg1, lparg1);") := by
  have hbuilt : ∃ m ∈ (Source.modelOf {} unreadFiles).toOption, ∃ n ∈ m.natives,
      ∃ call ∈ (Mapper.callMapping ⟨"linux", 64, 8, standardRules⟩ m.structs n).toOption,
        n.fragments = {} ∧ (∀ isNull, (attempts call).any (arrayFails isNull).jumps = true) ∧
        (arrayFails false).run false [] (statementsOf "STATS" call) =
          some [.entered, .acquired "lparg0", .acquired "lparg1", .released "lparg1", .released "lparg0",
            .exited] ∧
        ∃ x ∈ call.mapped, x.1.type.kind = .struct ∧ x.2.marshalIn ≠ fillLine x.1 ∧
          (localOf x.1, x.2.marshalIn, x.2.release) =
            ("lparg1", "if (arg1) if ((lparg1 = &_arg1) == NULL) goto fail;",
              "if (arg1 && lparg1) setPointFields(env, arg1, lparg1);") := by
    decide +kernel
  obtain ⟨m, hm, n, hn, call, hcall, hfragments, hjump, hrun, hx⟩ := hbuilt
  have hunadorned : Unadorned n := by
    rw [Unadorned, hfragments]
    decide
  exact ⟨m, n, call, ok_of_toOption hm, hn, hunadorned, ok_of_toOption hcall, hjump, hrun, hx⟩

/-- Where the struct that is only written is null, the one that was filled is copied back, and no other. -/
theorem faithful_unreadFiles :
    ∃ m n call, Source.modelOf {} unreadFiles = .ok m ∧ n ∈ m.natives ∧
      Mapper.callMapping ⟨"linux", 64, 8, standardRules⟩ m.structs n = .ok call ∧
      (attempts call).any (arrayFails true).jumps = true ∧
      ∃ events, (arrayFails true).run false [] (statementsOf "STATS" call) = some events ∧
        .called ∉ events ∧
        (∀ x ∈ call.mapped, x.1.type.kind = .struct → StructLines x.1 x.2 ∧
          (.released (localOf x.1) ∈ events ↔
            .acquired (localOf x.1) ∈ events ∧ x.1.ownership ≠ .borrowed)) ∧
        (Faithful call events ↔ ∀ x ∈ call.mapped, x.1.type.kind = .struct → x.1.flags.noIn = true →
          x.1.ownership ≠ .borrowed → .acquired (localOf x.1) ∉ events) := by
  obtain ⟨m, n, call, hm, hn, hunadorned, hcall, hjump, -⟩ := built_unreadFiles
  exact ⟨m, n, call, hm, hn, hcall, hjump true, faithful_iff hm rfl hn hcall hunadorned "STATS" (hjump true)⟩

/-- **What nobody filled is copied back** where the array that is taken behind it cannot be had. -/
theorem not_faithful_unreadFiles :
    ∃ m n call, Source.modelOf {} unreadFiles = .ok m ∧ n ∈ m.natives ∧ Unadorned n ∧
      Mapper.callMapping ⟨"linux", 64, 8, standardRules⟩ m.structs n = .ok call ∧
      (attempts call).any (arrayFails false).jumps = true ∧
      ∃ events, (arrayFails false).run false [] (statementsOf "STATS" call) = some events ∧
        events = [.entered, .acquired "lparg0", .acquired "lparg1", .released "lparg1", .released "lparg0",
          .exited] ∧
        (∃ x ∈ call.mapped, localOf x.1 = "lparg1" ∧
          x.2.marshalIn = "if (arg1) if ((lparg1 = &_arg1) == NULL) goto fail;" ∧
          x.2.release = "if (arg1 && lparg1) setPointFields(env, arg1, lparg1);") ∧
        ¬Faithful call events := by
  obtain ⟨m, n, call, hm, hn, hunadorned, hcall, hjump, hrun, x, hx, hkind, hunfilled, htexts⟩ := built_unreadFiles
  rw [Prod.mk.injEq, Prod.mk.injEq] at htexts
  obtain ⟨hlocal, htexts⟩ := htexts
  refine ⟨m, n, call, hm, hn, hunadorned, hcall, hjump false, _, hrun, rfl, ⟨x, hx, hlocal, htexts⟩,
    fun hfaithful => hunfilled ?_⟩
  have hcopied := hfaithful x hx hkind [.entered, .acquired "lparg0", .acquired "lparg1"]
    [.released "lparg0", .exited]
  rw [hlocal] at hcopied
  exact (hcopied rfl).2

end NativeGlue.Code
