import EvidenceFlow.Proofs.Engine.Sessions
import EvidenceFlow.Proofs.Pipeline.Predecessors
import Mathlib.Data.List.Induction

/-!
# Which pipelines are built

A pipeline is built exactly if groups may have elements at all, no group is empty or too large, and every key
that an element requires is the key of an element of an earlier stage. Otherwise what is reported is the
settings, or else the first group of a wrong size, or else the first element that lacks something, with the
first key that it lacks. A pipeline that is built has all the elements in the order in which they were
declared, and finds the first one of a key.
-/

namespace EvidenceFlow.Pipeline

variable {υ : Type} {settings : PipelineSettings} {stages : List (Stage υ)} {stage : Stage υ}

/-! ## What is asked of stages -/

/-- The stage is an element on its own or a group of an allowed size. -/
def Fits (settings : PipelineSettings) : Stage υ → Prop
  | .single _ => True
  | .parallel group => 1 ≤ group.length ∧ group.length ≤ settings.maxParallel

/-- An element of one of the stages has the key. -/
def Provides (stages : List (Stage υ)) (key : String) : Prop :=
  ∃ element ∈ elementsOf stages, element.key = key

/-- Every key that an element requires is that of an element of a stage before its own. -/
def InOrder (stages : List (Stage υ)) : Prop :=
  ∀ before stage after, stages = before ++ stage :: after →
    ∀ element ∈ stage.elements, ∀ key ∈ element.requires, Provides before key

/-- The settings allow groups, each group has an allowed size, and predecessors come first. -/
structure WellFormed (settings : PipelineSettings) (stages : List (Stage υ)) : Prop where
  /-- A group may have an element. -/
  allowsGroups : 1 ≤ settings.maxParallel
  /-- Each group has an allowed size. -/
  fits : ∀ stage ∈ stages, Fits settings stage
  /-- Predecessors come first. -/
  inOrder : InOrder stages

/-- What is wrong with a group of a size that is not allowed. -/
def sizeFault (size : Nat) : SettingFault :=
  .invalid "parallel_group" (toString size)
    (if size = 0 then "a parallel group must contain at least one element"
      else "parallel group exceeds max_parallel_elements")

/-- The element is the first one of the stage that requires a key that the stages before do not provide, and it
is the first such key. -/
def LacksFirst (before : List (Stage υ)) (stage : Stage υ) (element : Element υ) (key : String) : Prop :=
  ∃ earlier later, stage.elements = earlier ++ element :: later ∧
    (∀ other ∈ earlier, ∀ required ∈ other.requires, Provides before required) ∧
    ∃ found rest, element.requires = found ++ key :: rest ∧
      (∀ required ∈ found, Provides before required) ∧ ¬Provides before key

/-- What is wrong with stages, and the first thing that is: the settings before the groups, and these before
the predecessors. -/
inductive Refuses (settings : PipelineSettings) (stages : List (Stage υ)) : SettingFault → Prop
  /-- No group may have an element. -/
  | settings : settings.maxParallel = 0 →
    Refuses settings stages (.invalid "max_parallel_elements" "0" "max_parallel_elements must be greater than 0")
  /-- A group has a wrong size, and all before it fit. -/
  | group {before : List (Stage υ)} {group : List (Element υ)} {after : List (Stage υ)} :
    1 ≤ settings.maxParallel → stages = before ++ .parallel group :: after →
      (∀ stage ∈ before, Fits settings stage) → ¬Fits settings (.parallel group) →
        Refuses settings stages (sizeFault group.length)
  /-- An element lacks a predecessor, and none before it does. -/
  | predecessor {before : List (Stage υ)} {stage : Stage υ} {after : List (Stage υ)} {element : Element υ}
      {key : String} :
    1 ≤ settings.maxParallel → (∀ stage ∈ stages, Fits settings stage) →
      stages = before ++ stage :: after → InOrder before → LacksFirst before stage element key →
        Refuses settings stages (.missingPredecessor element.key key)

/-! ## Groups -/

/-- The form in which a pipeline holds a stage: a group of one is an element on its own. -/
def reduced : Stage υ → Stage υ
  | .parallel [element] => .single element
  | stage => stage

/-- A stage has the same elements in the form in which it is held. -/
@[simp] theorem elements_reduced (stage : Stage υ) : (reduced stage).elements = stage.elements := by
  rw [reduced.eq_def]
  split <;> rfl

/-- A stage that fits passes the check. -/
theorem checkGroup_of_fits (h : Fits settings stage) : checkGroup settings stage = .ok (reduced stage) := by
  match stage with
  | .single element => rfl
  | .parallel [] => exact absurd h.1 (by simp)
  | .parallel [element] => simp only [checkGroup, if_neg (Nat.not_lt.mpr h.2), reduced]
  | .parallel (first :: second :: rest) => simp only [checkGroup, if_neg (Nat.not_lt.mpr h.2), reduced]

/-- A group that does not fit is reported with its size. -/
theorem checkGroup_of_not_fits {group : List (Element υ)} (h : ¬Fits settings (.parallel group)) :
    checkGroup settings (.parallel group) = .error (.setting (sizeFault group.length)) := by
  cases group with
  | nil =>
    have htext : toString (0 : Nat) = "0" := rfl
    simp only [checkGroup, sizeFault, List.length_nil, if_pos, htext]
  | cons element rest =>
    have hlarge : settings.maxParallel < (element :: rest).length := by simpa [Fits] using h
    have hsome : (element :: rest).length ≠ 0 := Nat.succ_ne_zero _
    simp only [checkGroup, if_pos hlarge, sizeFault, if_neg hsome]

/-- Stages that fit pass the check. -/
theorem mapM_checkGroup_of_fits (h : ∀ stage ∈ stages, Fits settings stage) :
    stages.mapM (checkGroup settings) = .ok (stages.map reduced) := by
  induction stages with
  | nil => rfl
  | cons stage rest ih =>
    rw [List.forall_mem_cons] at h
    rw [List.mapM_cons, checkGroup_of_fits h.1, ih h.2]
    rfl

/-- The first group that does not fit is reported. -/
theorem mapM_checkGroup_of_not_fits {before after : List (Stage υ)} {group : List (Element υ)}
    (hbefore : ∀ stage ∈ before, Fits settings stage) (h : ¬Fits settings (.parallel group)) :
    (before ++ .parallel group :: after).mapM (checkGroup settings) =
      .error (.setting (sizeFault group.length)) := by
  induction before with
  | nil =>
    rw [List.nil_append, List.mapM_cons, checkGroup_of_not_fits h]
    rfl
  | cons stage rest ih =>
    rw [List.forall_mem_cons] at hbefore
    rw [List.cons_append, List.mapM_cons, checkGroup_of_fits hbefore.1, ih hbefore.2]
    rfl

/-- Stages of which not all fit have a first group that does not. -/
theorem exists_first_not_fits (h : ¬∀ stage ∈ stages, Fits settings stage) :
    ∃ before group after, stages = before ++ .parallel group :: after ∧
      (∀ stage ∈ before, Fits settings stage) ∧ ¬Fits settings (.parallel group) := by
  induction stages with
  | nil => exact absurd (by simp) h
  | cons stage rest ih =>
    by_cases hstage : Fits settings stage
    · rw [List.forall_mem_cons, and_iff_right hstage] at h
      obtain ⟨before, group, after, rfl, hbefore, hgroup⟩ := ih h
      exact ⟨stage :: before, group, after, rfl, List.forall_mem_cons.mpr ⟨hstage, hbefore⟩, hgroup⟩
    · cases stage with
      | single element => exact absurd trivial hstage
      | parallel group => exact ⟨[], group, rest, rfl, by simp, hstage⟩

/-! ## Predecessors -/

/-- A key is provided by one of two lists of stages. -/
theorem provides_append {before later : List (Stage υ)} {key : String} :
    Provides (before ++ later) key ↔ Provides before key ∨ Provides later key := by
  simp only [Provides, elementsOf, List.flatMap_append, List.mem_append, or_and_right, exists_or]

/-- A stage provides the keys of its elements. -/
theorem provides_singleton {key : String} : Provides [stage] key ↔ key ∈ stage.elements.map (·.key) := by
  simp [Provides, elementsOf, eq_comm]

/-- Missing predecessors are sought in the elements of stages, whatever form these are held in. -/
theorem firstMissing_map_reduced (seen : List String) (stages : List (Stage υ)) :
    firstMissing seen (stages.map reduced) = firstMissing seen stages := by
  induction stages generalizing seen with
  | nil => rfl
  | cons stage rest ih => rw [List.map_cons, firstMissing, firstMissing, elements_reduced, ih]

/-- An element misses nothing if all that it requires has been seen. -/
theorem missingOf_eq_none_iff {seen : List String} {element : Element υ} :
    missingOf seen element = none ↔ ∀ key ∈ element.requires, key ∈ seen := by
  simp [missingOf, List.find?_eq_none]

/-- What an element misses is the first key that it requires and that has not been seen. -/
theorem missingOf_eq_some_iff {seen : List String} {element : Element υ} {fault : SettingFault} :
    missingOf seen element = some fault ↔
      ∃ found key rest, element.requires = found ++ key :: rest ∧
        (∀ required ∈ found, required ∈ seen) ∧
        key ∉ seen ∧ fault = .missingPredecessor element.key key := by
  simp only [missingOf, Option.map_eq_some_iff, List.find?_eq_some_iff_append, Bool.not_eq_true',
    Bool.not_not, List.contains_iff_mem, ← Bool.not_eq_true]
  constructor
  · rintro ⟨key, ⟨hkey, found, rest, hsplit, hfound⟩, rfl⟩
    exact ⟨found, key, rest, hsplit, hfound, hkey, rfl⟩
  · rintro ⟨found, key, rest, hsplit, hfound, hkey, rfl⟩
    exact ⟨key, ⟨hkey, found, rest, hsplit, hfound⟩, rfl⟩

/-- Nothing is missing exactly if every element finds the keys that it requires among those seen or in the
stages before its own. -/
theorem firstMissing_eq_none_iff {seen : List String} :
    firstMissing seen stages = none ↔
      ∀ before stage after, stages = before ++ stage :: after →
        ∀ element ∈ stage.elements, ∀ key ∈ element.requires, key ∈ seen ∨ Provides before key := by
  induction stages generalizing seen with
  | nil => simp [firstMissing]
  | cons stage rest ih =>
    rw [firstMissing_cons_eq_none_iff, ih]
    constructor
    · rintro ⟨hstage, hrest⟩ before other after hsplit element helement key hkey
      cases before with
      | nil =>
        obtain ⟨rfl, rfl⟩ := List.cons.inj hsplit
        exact .inl (hstage element helement key hkey)
      | cons first before =>
        obtain ⟨rfl, htail⟩ := List.cons.inj hsplit
        have hfound := hrest before other after htail element helement key hkey
        rw [← List.singleton_append, provides_append, provides_singleton, ← or_assoc, ← List.mem_append]
        exact hfound
    · intro h
      constructor
      · intro element helement key hkey
        have hnone : ¬Provides ([] : List (Stage υ)) key := by simp [Provides, elementsOf]
        exact (h [] stage rest rfl element helement key hkey).resolve_right hnone
      · intro before other after hsplit element helement key hkey
        have hfound := h (stage :: before) other after (by rw [hsplit]; rfl) element helement key hkey
        rwa [← List.singleton_append, provides_append, provides_singleton, ← or_assoc,
          ← List.mem_append] at hfound

/-- No predecessor is missing if the stages are in order. -/
theorem firstMissing_nil_eq_none_iff : firstMissing [] stages = none ↔ InOrder stages := by
  rw [firstMissing_eq_none_iff]
  simp only [List.not_mem_nil, false_or]
  rfl

/-- What is missing in the first stages is missing first. -/
theorem firstMissing_append (seen : List String) (before later : List (Stage υ)) :
    firstMissing seen (before ++ later) =
      (firstMissing seen before).or (firstMissing (seen ++ (elementsOf before).map (·.key)) later) := by
  induction before generalizing seen with
  | nil => simp [firstMissing, elementsOf]
  | cons stage rest ih =>
    have helements : elementsOf (stage :: rest) = stage.elements ++ elementsOf rest := List.flatMap_cons
    rw [List.cons_append, firstMissing, firstMissing, ih, Option.or_assoc, helements, List.map_append,
      List.append_assoc]

/-- The keys of elements of stages are those that the stages provide. -/
theorem mem_map_key_elementsOf {before : List (Stage υ)} {key : String} :
    key ∈ [] ++ (elementsOf before).map (·.key) ↔ Provides before key := by
  simp [Provides]

/-- What the elements of a stage miss is what the first one lacks that lacks anything. -/
theorem findSome?_missingOf_eq_some_iff {before : List (Stage υ)} {fault : SettingFault} :
    stage.elements.findSome? (missingOf ([] ++ (elementsOf before).map (·.key))) = some fault ↔
      ∃ element key, LacksFirst before stage element key ∧ fault = .missingPredecessor element.key key := by
  simp only [List.findSome?_eq_some_iff, missingOf_eq_some_iff, missingOf_eq_none_iff, mem_map_key_elementsOf,
    LacksFirst]
  constructor
  · rintro ⟨earlier, element, later, hstage, ⟨found, key, rest, hrequires, hfound, hkey, rfl⟩, hearlier⟩
    exact ⟨element, key, ⟨earlier, later, hstage, hearlier, found, rest, hrequires, hfound, hkey⟩, rfl⟩
  · rintro ⟨element, key, ⟨earlier, later, hstage, hearlier, found, rest, hrequires, hfound, hkey⟩, rfl⟩
    exact ⟨earlier, element, later, hstage, ⟨found, key, rest, hrequires, hfound, hkey, rfl⟩, hearlier⟩

/-- Behind stages in order, what a stage lacks first is what is missing. -/
theorem firstMissing_of_lacksFirst {before after : List (Stage υ)} (hsplit : stages = before ++ stage :: after)
    (hbefore : InOrder before) {element : Element υ} {key : String} (h : LacksFirst before stage element key) :
    firstMissing [] stages = some (.missingPredecessor element.key key) := by
  have hfirst := findSome?_missingOf_eq_some_iff.mpr ⟨element, key, h, rfl⟩
  rw [hsplit, firstMissing_append, firstMissing_nil_eq_none_iff.mpr hbefore, Option.none_or, firstMissing, hfirst,
    Option.some_or]

/-- Stages that are not in order have a first one that lacks something. -/
theorem exists_lacksFirst (h : ¬InOrder stages) :
    ∃ before stage after, stages = before ++ stage :: after ∧ InOrder before ∧
      ∃ element key, LacksFirst before stage element key := by
  induction stages using List.reverseRecOn with
  | nil => exact absurd (firstMissing_nil_eq_none_iff.mp rfl) h
  | append_singleton before stage ih =>
    by_cases hbefore : InOrder before
    · rw [← firstMissing_nil_eq_none_iff, firstMissing_append, firstMissing_nil_eq_none_iff.mpr hbefore,
        Option.none_or, firstMissing, firstMissing, Option.or_none, ← ne_eq, Option.ne_none_iff_exists'] at h
      obtain ⟨fault, hfault⟩ := h
      obtain ⟨element, key, hlacks, -⟩ := findSome?_missingOf_eq_some_iff.mp hfault
      exact ⟨before, stage, [], rfl, hbefore, element, key, hlacks⟩
    · obtain ⟨front, first, after, rfl, hfirst⟩ := ih hbefore
      exact ⟨front, first, after ++ [stage], by simp, hfirst⟩

/-! ## What is built -/

/-- Stages that are well-formed make a pipeline that holds them in their forms. -/
theorem build_of_wellFormed (h : WellFormed settings stages) :
    build settings stages = .ok { stages := stages.map reduced, settings } := by
  have hvalid : settings.validate = .ok () := if_neg (Nat.ne_of_gt h.allowsGroups)
  refine build_eq_ok_iff.mpr ⟨hvalid, _, mapM_checkGroup_of_fits h.fits, ?_, rfl⟩
  rw [firstMissing_map_reduced, firstMissing_nil_eq_none_iff]
  exact h.inOrder

/-- What is wrong first is what is reported. -/
theorem build_of_refuses {fault : SettingFault} (h : Refuses settings stages fault) :
    build settings stages = .error (.setting fault) := by
  have hvalid (hallows : 1 ≤ settings.maxParallel) : settings.validate = .ok () := if_neg (Nat.ne_of_gt hallows)
  cases h with
  | settings hnone =>
    have hinvalid : settings.validate = .error (.setting (.invalid "max_parallel_elements" "0"
        "max_parallel_elements must be greater than 0")) := if_pos hnone
    rw [build, hinvalid]
    rfl
  | group hallows hsplit hbefore hgroup =>
    rw [build, hvalid hallows, hsplit]
    simp only [bind, Except.bind]
    rw [mapM_checkGroup_of_not_fits hbefore hgroup]
  | predecessor hallows hfits hsplit hbefore hlacks =>
    have hmissing := firstMissing_of_lacksFirst hsplit hbefore hlacks
    rw [build, hvalid hallows, mapM_checkGroup_of_fits hfits]
    simp only [bind, Except.bind]
    rw [firstMissing_map_reduced, hmissing]
    rfl

/-- Stages are well-formed, or something is wrong with them first. -/
theorem wellFormed_or_refuses (settings : PipelineSettings) (stages : List (Stage υ)) :
    WellFormed settings stages ∨ ∃ fault, Refuses settings stages fault := by
  by_cases hallows : 1 ≤ settings.maxParallel
  · by_cases hfits : ∀ stage ∈ stages, Fits settings stage
    · by_cases horder : InOrder stages
      · exact .inl ⟨hallows, hfits, horder⟩
      · obtain ⟨before, stage, after, hsplit, hbefore, element, key, hlacks⟩ := exists_lacksFirst horder
        exact .inr ⟨_, .predecessor hallows hfits hsplit hbefore hlacks⟩
    · obtain ⟨before, group, after, hsplit, hbefore, hgroup⟩ := exists_first_not_fits hfits
      exact .inr ⟨_, .group hallows hsplit hbefore hgroup⟩
  · exact .inr ⟨_, .settings (by omega)⟩

/-! ## What is found -/

/-- A key has the first element that was put there. -/
theorem lookup_foldl_putNew (elements : List (Element υ)) (held : Table String (Element υ)) (key : String) :
    (elements.foldl (fun held element => held.putNew element.key element) held).lookup key =
      (held.lookup key).or (elements.find? fun element => element.key = key) := by
  induction elements generalizing held with
  | nil => simp
  | cons element rest ih =>
    rw [List.foldl_cons, ih, Table.lookup_putNew, Option.or_assoc, List.find?_cons]
    by_cases h : key = element.key
    · simp [h]
    · simp [h, Ne.symm h]

/-- The element of a key is the first one that has it. -/
theorem element?_eq_find? (p : Pipeline υ) (key : String) :
    p.element? key = p.elements.find? fun element => element.key = key := by
  rw [element?, byKey, lookup_foldl_putNew]
  rfl

/-- The element of a key has it, and none before it does. -/
theorem element?_eq_some_iff {p : Pipeline υ} {key : String} {element : Element υ} :
    p.element? key = some element ↔
      ∃ before after, p.elements = before ++ element :: after ∧ element.key = key ∧
        ∀ other ∈ before, other.key ≠ key := by
  rw [element?_eq_find?, List.find?_eq_some_iff_append]
  simp only [decide_eq_true_eq, Bool.not_eq_true', decide_eq_false_iff_not]
  constructor
  · rintro ⟨hkey, before, after, hsplit, hbefore⟩
    exact ⟨before, after, hsplit, hkey, hbefore⟩
  · rintro ⟨before, after, hsplit, hkey, hbefore⟩
    exact ⟨hkey, before, after, hsplit, hbefore⟩

/-- A pipeline is built exactly of well-formed settings and stages. Otherwise the fault that is reported is
the first thing that is wrong: the settings, or else the first group of a wrong size, or else the first element
that lacks a predecessor, with the first key that it lacks. A pipeline that is built has the elements of its
stages, in order, and finds the first of a key if there is one. -/
theorem build_iff_wellFormed (settings : PipelineSettings) (stages : List (Stage υ)) :
    ((∃ p, build settings stages = .ok p) ↔ WellFormed settings stages) ∧
    (∀ fault, build settings stages = .error fault ↔
      ∃ cause, Refuses settings stages cause ∧ fault = .setting cause) ∧
    ∀ p, build settings stages = .ok p →
      p.elements = elementsOf stages ∧
      (∀ key element, p.element? key = some element ↔
        ∃ before after, elementsOf stages = before ++ element :: after ∧ element.key = key ∧
          ∀ other ∈ before, other.key ≠ key) ∧
      ∀ key, p.element? key = none ↔ ∀ element ∈ elementsOf stages, element.key ≠ key := by
  refine ⟨⟨fun ⟨p, hbuild⟩ => ?_, fun h => ⟨_, build_of_wellFormed h⟩⟩,
    fun fault => ⟨fun hbuild => ?_, ?_⟩, ?_⟩
  · obtain h | ⟨cause, hcause⟩ := wellFormed_or_refuses settings stages
    · exact h
    · rw [build_of_refuses hcause] at hbuild
      cases hbuild
  · obtain h | ⟨cause, hcause⟩ := wellFormed_or_refuses settings stages
    · rw [build_of_wellFormed h] at hbuild
      cases hbuild
    · rw [build_of_refuses hcause] at hbuild
      cases hbuild
      exact ⟨cause, hcause, rfl⟩
  · rintro ⟨cause, hcause, rfl⟩
    exact build_of_refuses hcause
  · intro p hbuild
    have helements := elements_of_build hbuild
    refine ⟨helements, fun key element => ?_, fun key => ?_⟩
    · rw [element?_eq_some_iff, helements]
    · rw [element?_eq_find?, helements, List.find?_eq_none]
      simp only [decide_eq_true_eq, ne_eq]

/-- An element that does nothing. -/
def idle (number : Nat) (key : String) (requires : List String) : Element Unit :=
  { number, key, filter := .all, requires, process := pure () }

/-- Two elements of a group share a key that the last element requires. -/
def sharing : List (Stage Unit) :=
  [.single (idle 0 "first" []), .parallel [idle 1 "pair" ["first"], idle 2 "pair" []],
    .parallel [idle 3 "last" ["first", "pair"]]]

/-- The stages are built, and the first element of the shared key is found. They are refused if groups must be
smaller, and in the other order. -/
theorem build_iff_wellFormed_of_sharing :
    (∃ p, build { maxParallel := 2 } sharing = .ok p ∧
      p.element? "pair" = some (idle 1 "pair" ["first"])) ∧
    build { maxParallel := 1 } sharing =
      .error (.setting (.invalid "parallel_group" "2" "parallel group exceeds max_parallel_elements")) ∧
    build {} sharing.reverse = .error (.setting (.missingPredecessor "last" "first")) := by
  refine ⟨?_, ?_, ?_⟩
  · obtain ⟨hiff, -, hbuilt⟩ := build_iff_wellFormed { maxParallel := 2 } sharing
    obtain ⟨p, hbuild⟩ :=
      hiff.mpr ⟨by decide, by simp [sharing, Fits], firstMissing_nil_eq_none_iff.mp rfl⟩
    refine ⟨p, hbuild, ((hbuilt p hbuild).2.1 _ _).mpr ?_⟩
    exact ⟨[idle 0 "first" []], [idle 2 "pair" [], idle 3 "last" ["first", "pair"]], rfl, rfl,
      by simp [idle]⟩
  · have hsplit : sharing = [.single (idle 0 "first" [])] ++
        .parallel [idle 1 "pair" ["first"], idle 2 "pair" []] ::
          [.parallel [idle 3 "last" ["first", "pair"]]] := rfl
    have hrefused : Refuses { maxParallel := 1 } sharing (sizeFault 2) :=
      .group (by decide) hsplit (by simp [Fits]) (by simp [Fits])
    exact ((build_iff_wellFormed { maxParallel := 1 } sharing).2.1 _).mpr ⟨_, hrefused, rfl⟩
  · have hsplit : sharing.reverse = [] ++ .parallel [idle 3 "last" ["first", "pair"]] ::
        [.parallel [idle 1 "pair" ["first"], idle 2 "pair" []], .single (idle 0 "first" [])] := rfl
    have hlacks : LacksFirst [] (.parallel [idle 3 "last" ["first", "pair"]])
        (idle 3 "last" ["first", "pair"]) "first" :=
      ⟨[], [], rfl, by simp, [], ["pair"], rfl, by simp, by simp [Provides, elementsOf]⟩
    have hrefused : Refuses {} sharing.reverse (.missingPredecessor "last" "first") :=
      .predecessor (by decide) (by simp [sharing, Fits]) hsplit (firstMissing_nil_eq_none_iff.mp rfl) hlacks
    exact ((build_iff_wellFormed {} sharing.reverse).2.1 _).mpr ⟨_, hrefused, rfl⟩

end EvidenceFlow.Pipeline
