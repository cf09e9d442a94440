import EvidenceFlow.Proofs.Engine.AspectMerge
import Mathlib.Data.List.Basic

/-!
# The laws of merging

Engines and declarations are lists whose elements have different names: what is merged adds the elements whose
names are new, in order. The names of properties are such a list too, and their values are the last that were
given. So it does not matter in which of two ways three objects are merged, or whether one is merged once or
twice, or whether a copy without tasks is merged; and a new object takes over all that another one holds.
-/

namespace EvidenceFlow

/-! ## Lists of elements with different names -/

section Names

variable {α κ : Type} [DecidableEq κ] {name : α → κ}

/-- Adds an element at the end unless one of its name is there. -/
def addNew (name : α → κ) (held : List α) (x : α) : List α :=
  if name x ∈ held.map name then held else held ++ [x]

/-- Adds elements, one after the other, whose names are new. -/
def addAllNew (name : α → κ) (held xs : List α) : List α :=
  xs.foldl (addNew name) held

/-- The names that are held afterwards are those from before and the new one. -/
theorem mem_map_addNew {held : List α} {x : α} {n : κ} :
    n ∈ (addNew name held x).map name ↔ n ∈ held.map name ∨ n = name x := by
  rw [addNew]
  split
  · next hthere =>
    refine ⟨.inl, fun h => h.elim id fun heq => ?_⟩
    rwa [heq]
  · rw [List.map_append, List.mem_append, List.map_singleton, List.mem_singleton]

/-- The names of all the elements are there in the end. -/
theorem mem_map_addAllNew {held xs : List α} {n : κ} :
    n ∈ (addAllNew name held xs).map name ↔ n ∈ held.map name ∨ n ∈ xs.map name := by
  unfold addAllNew
  induction xs generalizing held with
  | nil => simp
  | cons x rest ih => rw [List.foldl_cons, ih, mem_map_addNew, or_assoc, List.map_cons, List.mem_cons]

/-- An element that is added to what is added is added in the end. -/
theorem addAllNew_addNew (held xs : List α) (x : α) :
    addAllNew name held (addNew name xs x) = addNew name (addAllNew name held xs) x := by
  by_cases h : name x ∈ xs.map name
  · rw [addNew, if_pos h, addNew, if_pos (mem_map_addAllNew.mpr (.inr h))]
  · rw [addNew, if_neg h, addAllNew, List.foldl_append]
    rfl

/-- It does not matter which of two additions is made first. -/
theorem addAllNew_assoc (xs ys zs : List α) :
    addAllNew name (addAllNew name xs ys) zs = addAllNew name xs (addAllNew name ys zs) := by
  induction zs generalizing ys with
  | nil => rfl
  | cons z rest ih =>
    calc addAllNew name (addNew name (addAllNew name xs ys) z) rest
        = addAllNew name (addAllNew name xs (addNew name ys z)) rest := by rw [addAllNew_addNew]
      _ = addAllNew name xs (addAllNew name (addNew name ys z) rest) := ih (addNew name ys z)

/-- Elements whose names are there are not added. -/
theorem addAllNew_of_subset {held xs : List α} (h : ∀ x ∈ xs, name x ∈ held.map name) :
    addAllNew name held xs = held := by
  unfold addAllNew
  induction xs with
  | nil => rfl
  | cons x rest ih =>
    rw [List.forall_mem_cons] at h
    rw [List.foldl_cons, addNew, if_pos h.1, ih h.2]

/-- Adding the same elements again changes nothing. -/
theorem addAllNew_self (xs ys : List α) : addAllNew name (addAllNew name xs ys) ys = addAllNew name xs ys :=
  addAllNew_of_subset fun _ hy => mem_map_addAllNew.mpr (.inr (List.mem_map_of_mem hy))

end Names

/-! ## Tables that are overwritten -/

namespace Table

variable {κ α : Type} [DecidableEq κ] {s t u : Table κ α}

/-- If each key stands in one place, the keys and the look-ups are all that there is. -/
theorem eq_filterMap_lookup (h : t.keys.Nodup) :
    t.keys.filterMap (fun key => (t.lookup key).map fun value => (key, value)) = t := by
  rw [keys, List.filterMap_map]
  refine (List.filterMap_congr fun entry hentry => ?_).trans List.filterMap_some
  rw [Function.comp_apply, (lookup_eq_some_iff h).mpr hentry]
  rfl

/-- A table is given by its keys in order and by what is under them. -/
theorem ext_of_keys (hs : s.keys.Nodup) (hkeys : s.keys = t.keys)
    (hlookup : ∀ key, s.lookup key = t.lookup key) : s = t := by
  calc s = s.keys.filterMap fun key => (s.lookup key).map fun value => (key, value) :=
        (eq_filterMap_lookup hs).symm
    _ = t.keys.filterMap fun key => (t.lookup key).map fun value => (key, value) := by
      simp only [hkeys, hlookup]
    _ = t := eq_filterMap_lookup (hkeys ▸ hs)

/-- New keys are added in order. -/
theorem keys_putAll (t : Table κ α) (entries : List (κ × α)) :
    (t.putAll entries).keys = addAllNew id t.keys (entries.map (·.1)) := by
  unfold putAll addAllNew
  induction entries generalizing t with
  | nil => rfl
  | cons entry rest ih =>
    rw [List.foldl_cons, ih, keys_put, List.map_cons, List.foldl_cons, addNew, List.map_id]
    rfl

/-- It does not matter which of two tables is put into the other first. -/
theorem putAll_assoc (hs : s.keys.Nodup) (ht : t.keys.Nodup) (u : Table κ α) :
    (s.putAll t).putAll u = s.putAll (t.putAll u) := by
  refine ext_of_keys (nodup_keys_putAll (nodup_keys_putAll hs t) u) ?_ fun key => ?_
  · have hkeys := keys_putAll t u
    rw [keys] at hkeys
    rw [keys_putAll, keys_putAll, keys_putAll, hkeys, addAllNew_assoc]
    rfl
  · rw [lookup_putAll, lookup_putAll, lookup_putAll, lookup_reverse (nodup_keys_putAll ht u), lookup_putAll,
      lookup_reverse ht, Option.or_assoc]

/-- Putting the same table again changes nothing. -/
theorem putAll_self (hs : s.keys.Nodup) (t : Table κ α) : (s.putAll t).putAll t = s.putAll t := by
  refine ext_of_keys (nodup_keys_putAll (nodup_keys_putAll hs t) t) ?_ fun key => ?_
  · rw [keys_putAll, keys_putAll, addAllNew_self]
  · rw [lookup_putAll, lookup_putAll, ← Option.or_assoc, Option.or_self]

end Table

namespace Aspect

open Text

variable {a b : Aspect}

/-! ## The parts of a merged object -/

/-- The name of a declaration, up to the case of ASCII letters. -/
def declaredName (property : Property) : List Char :=
  property.name.toList.map lowerAscii

/-- An engine is noted unless it is already. -/
theorem addEngine_eq (a : Aspect) (engine : String) :
    a.addEngine engine = { a with engines := addNew id a.engines engine } := by
  rw [addEngine, addNew, List.map_id]
  by_cases h : engine ∈ a.engines
  · rw [if_pos h, id_eq, if_pos h]
  · rw [if_neg h, id_eq, if_neg h]

/-- A property is declared unless its name is already. -/
theorem addProperty_eq (a : Aspect) (property : Property) :
    a.addProperty property = { a with declared := addNew declaredName a.declared property } := by
  have hthere : a.declared? property.name = none ↔ declaredName property ∉ a.declared.map declaredName := by
    simp only [declared?, List.find?_eq_none, eqUpToAsciiCase, beq_iff_eq, List.mem_map, declaredName, not_exists,
      not_and]
  rw [addProperty, addNew]
  by_cases h : declaredName property ∈ a.declared.map declaredName
  · obtain ⟨other, hother⟩ := Option.ne_none_iff_exists'.mp fun hnone => hthere.mp hnone h
    rw [if_pos h, hother]
  · rw [if_neg h, hthere.mpr h]

/-- What is merged overwrites values, and adds engines and declarations whose names are new. -/
theorem merge_eq (a b : Aspect) :
    a.merge b =
      { a with
        properties := a.properties.putAll b.properties
        engines := addAllNew id a.engines b.engines
        declared := addAllNew declaredName a.declared b.declared } := by
  have hengines (engines : List String) (a : Aspect) :
      engines.foldl addEngine a = { a with engines := addAllNew id a.engines engines } := by
    induction engines generalizing a with
    | nil => rfl
    | cons engine rest ih => rw [List.foldl_cons, ih, addEngine_eq]; rfl
  have hdeclared (properties : List Property) (a : Aspect) :
      a.addProperties properties = { a with declared := addAllNew declaredName a.declared properties } := by
    unfold addProperties
    induction properties generalizing a with
    | nil => rfl
    | cons property rest ih => rw [List.foldl_cons, ih, addProperty_eq]; rfl
  rw [merge, hengines, hdeclared]
  rfl

/-- It does not matter which of two objects is merged first. -/
theorem merge_assoc (ha : a.properties.keys.Nodup) (hb : b.properties.keys.Nodup) (c : Aspect) :
    (a.merge b).merge c = a.merge (b.merge c) := by
  simp only [merge_eq, Table.putAll_assoc ha hb, addAllNew_assoc]

/-- Merging the same object again changes nothing. -/
theorem merge_self (ha : a.properties.keys.Nodup) (b : Aspect) : (a.merge b).merge b = a.merge b := by
  simp only [merge_eq, Table.putAll_self ha, addAllNew_self]

/-- A new object takes over all that a tidy one holds but its tasks. -/
theorem Tidy.merge_into_new (h : a.Tidy) (key : String) :
    ({ key := key } : Aspect).merge a = { a with key := key, tasks := [] } := by
  rw [merge, foldl_put_of_nodup a.properties (by simpa using h.properties),
    foldl_addEngine_of_nodup a.engines (by simpa using h.engines),
    addProperties_of_pairwise a.declared (by simpa using h.declared)]
  rfl

/-! ## Objects that arise -/

/-- The object comes of new ones by values, engines, declarations and tasks that it is given, by merging and by
copying. -/
inductive Reachable : Aspect → Prop
  /-- A new object. -/
  | new (key : String) : Reachable { key := key }
  /-- A property gets a value. -/
  | set {a : Aspect} (name : String) (value : Json) : Reachable a → Reachable (a.set name value)
  /-- An engine is recorded. -/
  | addEngine {a : Aspect} (engine : String) : Reachable a → Reachable (a.addEngine engine)
  /-- Properties are declared. -/
  | addProperties {a : Aspect} (properties : List Property) :
    Reachable a → Reachable (a.addProperties properties)
  /-- A task is registered. -/
  | register {a : Aspect} (task : TaskId) (timeout : Duration) :
    Reachable a → Reachable (a.register task timeout)
  /-- Another object is merged. -/
  | merge {a b : Aspect} : Reachable a → Reachable b → Reachable (a.merge b)
  /-- A copy is made. -/
  | snapshot {a : Aspect} : Reachable a → Reachable a.snapshot

/-- An object into which another is merged stays tidy. -/
theorem Tidy.merge (ha : a.Tidy) (b : Aspect) : (a.merge b).Tidy := by
  have hvalues : Tidy { a with properties := a.properties.putAll b.properties } :=
    ⟨Table.nodup_keys_putAll ha.properties _, ha.engines, ha.declared⟩
  have hengines (engines : List String) {a : Aspect} (h : a.Tidy) : (engines.foldl Aspect.addEngine a).Tidy := by
    induction engines generalizing a with
    | nil => exact h
    | cons engine rest ih => exact ih (h.addEngine engine)
  exact (hengines b.engines hvalues).addProperties b.declared

/-- Whatever is built by the operations of an object is tidy. -/
theorem Reachable.tidy (h : a.Reachable) : a.Tidy := by
  induction h with
  | new key => exact tidy_new key
  | set name value _ ih => exact ih.set name value
  | addEngine engine _ ih => exact ih.addEngine engine
  | addProperties properties _ ih => exact ih.addProperties properties
  | register task timeout _ ih => exact ⟨ih.properties, ih.engines, ih.declared⟩
  | merge _ _ iha _ => exact iha.merge _
  | snapshot _ ih => exact ⟨ih.properties, ih.engines, ih.declared⟩

/-- Values are held under the lower case of names. -/
theorem Reachable.exists_lowercase (h : a.Reachable) :
    ∀ name ∈ a.properties.keys, ∃ spelling, name = lowercase spelling := by
  induction h with
  | new key => simp [Table.keys]
  | @set a spelling value _ ih =>
    intro name hname
    rw [Aspect.set, Table.keys_put] at hname
    split at hname
    · exact ih name hname
    · rcases List.mem_append.mp hname with hbefore | hnow
      · exact ih name hbefore
      · exact ⟨spelling, List.mem_singleton.mp hnow⟩
  | @addEngine a engine _ ih => rwa [properties_addEngine]
  | @addProperties a properties _ ih => rwa [properties_addProperties]
  | register task timeout _ ih => exact ih
  | @merge a b _ _ iha ihb =>
    intro name hname
    rw [properties_merge, Table.keys_putAll, ← List.map_id (addAllNew _ _ _), mem_map_addAllNew, List.map_id,
      List.map_id] at hname
    exact hname.elim (iha name) (ihb name)
  | snapshot _ ih => exact ih

/-- Objects may be merged in either of two ways, and twice as well as once; a copy may be merged in place of the
original; and a new object takes over all that the original holds but its tasks. Each engine is recorded once,
no two declarations have one name up to the case of ASCII letters, and values are held under the lower case of
names. -/
theorem merge_laws (ha : a.Reachable) (hb : b.Reachable) (c : Aspect) (key : String) :
    (a.merge b).merge c = a.merge (b.merge c) ∧
    (a.merge b).merge b = a.merge b ∧
    a.merge b.snapshot = a.merge b ∧
    ({ key := key } : Aspect).merge a = { a with key := key, tasks := [] } ∧
    a.engines.Nodup ∧
    (a.declared.Pairwise fun p q => eqUpToAsciiCase p.name q.name = false) ∧
    ∀ name ∈ a.properties.keys, ∃ spelling, name = lowercase spelling :=
  ⟨merge_assoc ha.tidy.properties hb.tidy.properties c, merge_self ha.tidy.properties b, rfl,
    ha.tidy.merge_into_new key, ha.tidy.engines, ha.tidy.declared, ha.exists_lowercase⟩

/-- An engine and a property that it declares as excluded, with a value all the same. -/
def measured : Aspect :=
  ((({ key := "device" } : Aspect).addEngine "a").addProperties [⟨"Model", "device", false⟩]).set "Model" (.int 1)

/-- The same property in capitals, of two engines, with another declaration and a task. -/
def remeasured : Aspect :=
  ((((({ key := "device" } : Aspect).addEngine "b").addEngine "a").addProperties
    [⟨"MODEL", "device", true⟩, ⟨"Width", "device", true⟩]).set "MODEL" (.int 2)).register 0 ⟨1⟩

/-- A declaration in small letters, and a value under a name with an accent. -/
def accented : Aspect :=
  (({ key := "device" } : Aspect).addProperties [⟨"width", "device", false⟩]).set "É" (.int 3)

/-- Either way the engines, names and declarations that came first stand in front. -/
theorem merge_laws_of_measured :
    (measured.merge remeasured).merge accented = measured.merge (remeasured.merge accented) ∧
      (measured.merge (remeasured.merge accented)).engines = ["a", "b"] ∧
      (measured.merge (remeasured.merge accented)).properties.keys = ["model", "é"] ∧
      (measured.merge (remeasured.merge accented)).declared =
        [⟨"Model", "device", false⟩, ⟨"Width", "device", true⟩] := by
  have hfirst : measured.Reachable := (((Reachable.new _).addEngine _).addProperties _).set _ _
  have hsecond : remeasured.Reachable :=
    (((((Reachable.new _).addEngine _).addEngine _).addProperties _).set _ _).register _ _
  exact ⟨(merge_laws hfirst hsecond accented "device").1, by decide +kernel⟩

end Aspect

end EvidenceFlow
