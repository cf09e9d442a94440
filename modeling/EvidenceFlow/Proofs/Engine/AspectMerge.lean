import EvidenceFlow.Aspect

/-!
# Merging result objects

Values that are merged overwrite those that are there. A result object holds each property, each engine
and each declaration once, so a result that is taken over by a new object of its key is rebuilt as it
was, in the same order.
-/

namespace EvidenceFlow

/-! ## Tables that are overwritten -/

namespace Table

variable {κ α : Type} [DecidableEq κ]

/-- Gives keys values, one after the other. -/
def putAll (table : Table κ α) (entries : List (κ × α)) : Table κ α :=
  entries.foldl (fun held p => held.put p.1 p.2) table

/-- The last value that a key is given counts, and then the value that it had. -/
theorem lookup_putAll (table : Table κ α) (entries : List (κ × α)) (key : κ) :
    (table.putAll entries).lookup key = (entries.reverse.lookup key).or (table.lookup key) := by
  unfold putAll
  induction entries generalizing table with
  | nil => simp
  | cons entry rest ih =>
    rw [List.foldl_cons, ih, lookup_put, List.reverse_cons, List.lookup_append, Option.or_assoc]
    congr 1
    by_cases h : key = entry.1
    · rw [h, if_pos rfl, List.lookup_cons_self, Option.some_or]
    · rw [if_neg h, lookup_cons_of_ne h, List.lookup_nil, Option.none_or]

/-- No key comes to stand in two places. -/
theorem nodup_keys_putAll {table : Table κ α} (h : table.keys.Nodup) (entries : List (κ × α)) :
    (table.putAll entries).keys.Nodup := by
  unfold putAll
  induction entries generalizing table with
  | nil => exact h
  | cons entry rest ih => exact ih (nodup_keys_put h entry.1 entry.2)

/-- If each key stands in one place, the first value of a key is the last. -/
theorem lookup_reverse {table : Table κ α} (h : table.keys.Nodup) (key : κ) :
    List.lookup key table.reverse = table.lookup key := by
  have hreverse : (Table.keys table.reverse).Nodup := by
    rw [keys, List.map_reverse]
    exact List.pairwise_reverse.mpr (h.imp Ne.symm)
  apply Option.ext
  intro value
  rw [lookup_eq_some_iff hreverse, lookup_eq_some_iff h, List.mem_reverse]

end Table

namespace Aspect

open Text

/-! ## Tidy result objects -/

/-- Each property has one value, each engine contributes once and no two declarations have one name. -/
structure Tidy (a : Aspect) : Prop where
  /-- Each property has one value. -/
  properties : a.properties.keys.Nodup
  /-- Each engine contributes once. -/
  engines : a.engines.Nodup
  /-- No two declarations have one name. -/
  declared : a.declared.Pairwise fun p q => eqUpToAsciiCase p.name q.name = false

/-- A new object is tidy. -/
theorem tidy_new (key : String) : Tidy { key } :=
  ⟨List.nodup_nil, List.nodup_nil, List.Pairwise.nil⟩

namespace Tidy

variable {a : Aspect}

/-- An engine is not recorded twice. -/
theorem addEngine (h : a.Tidy) (engine : String) : (a.addEngine engine).Tidy := by
  unfold Aspect.addEngine
  split
  · exact h
  · next hnew =>
    refine ⟨h.properties, ?_, h.declared⟩
    apply List.nodup_append.mpr
    refine ⟨h.engines, by simp, ?_⟩
    intro x hx y hy heq
    rw [List.mem_singleton] at hy
    exact hnew (by rwa [← hy, ← heq])

/-- A name is not declared twice. -/
theorem addProperty (h : a.Tidy) (property : Property) : (a.addProperty property).Tidy := by
  unfold Aspect.addProperty
  split
  · exact h
  · next hnew =>
    refine ⟨h.properties, h.engines, ?_⟩
    apply List.pairwise_append.mpr
    refine ⟨h.declared, by simp, ?_⟩
    intro p hp q hq
    rw [List.mem_singleton] at hq
    have hother := List.find?_eq_none.mp hnew p hp
    rw [hq]
    simpa using hother

/-- An object that gets declarations stays tidy. -/
theorem addProperties (h : a.Tidy) (properties : List Property) :
    (a.addProperties properties).Tidy := by
  unfold Aspect.addProperties
  induction properties generalizing a with
  | nil => exact h
  | cons property rest ih => exact ih (h.addProperty property)

/-- A property is not given two values. -/
theorem set (h : a.Tidy) (name : String) (value : Json) : (a.set name value).Tidy :=
  ⟨Table.nodup_keys_put h.properties _ _, h.engines, h.declared⟩

end Tidy

/-! ## What is merged -/

/-- Declarations give no values to properties. -/
theorem properties_addProperties (a : Aspect) (properties : List Property) :
    (a.addProperties properties).properties = a.properties := by
  unfold addProperties
  induction properties generalizing a with
  | nil => rfl
  | cons property rest ih =>
    rw [List.foldl_cons, ih, addProperty]
    split <;> rfl

/-- To record an engine gives no values to properties. -/
theorem properties_addEngine (a : Aspect) (engine : String) :
    (a.addEngine engine).properties = a.properties := by
  unfold addEngine
  split <;> rfl

/-- Values that are merged overwrite those that are there. -/
theorem properties_merge (a other : Aspect) :
    (a.merge other).properties = a.properties.putAll other.properties := by
  have hengines : ∀ (engines : List String) (a : Aspect),
      (engines.foldl addEngine a).properties = a.properties := by
    intro engines
    induction engines with
    | nil => exact fun a => rfl
    | cons engine rest ih => exact fun a => (ih _).trans (properties_addEngine a engine)
  rw [merge, properties_addProperties, hengines]
  rfl

/-! ## Rebuilding -/

/-- Values for new names come to stand behind those that are there. -/
theorem foldl_put_of_nodup (rest : Table String Json) {front : Table String Json}
    (h : (Table.keys (front ++ rest)).Nodup) :
    rest.foldl (fun held p => held.put p.1 p.2) front = front ++ rest := by
  induction rest generalizing front with
  | nil => simp
  | cons entry rest ih =>
    obtain ⟨name, value⟩ := entry
    have hnew : name ∉ front.keys := by
      intro hmem
      simp only [Table.keys, List.map_append, List.map_cons] at h hmem
      exact (List.nodup_append.mp h).2.2 name hmem name (by simp) rfl
    have hshift : front ++ (name, value) :: rest = (front ++ [(name, value)]) ++ rest := by simp
    rw [List.foldl_cons, Table.put_of_not_mem hnew, hshift]
    apply ih
    rwa [← hshift]

/-- New engines are recorded behind those that are there. -/
theorem foldl_addEngine_of_nodup (rest : List String) {a : Aspect}
    (h : (a.engines ++ rest).Nodup) :
    rest.foldl Aspect.addEngine a = { a with engines := a.engines ++ rest } := by
  induction rest generalizing a with
  | nil => simp
  | cons engine rest ih =>
    have hnew : engine ∉ a.engines := by
      intro hmem
      exact (List.nodup_append.mp h).2.2 engine hmem engine (by simp) rfl
    have hshift : a.engines ++ engine :: rest = (a.engines ++ [engine]) ++ rest := by simp
    rw [hshift] at h ⊢
    rw [List.foldl_cons, Aspect.addEngine, if_neg hnew]
    exact ih h

/-- New declarations come to stand behind those that are there. -/
theorem addProperties_of_pairwise (rest : List Property) {a : Aspect}
    (h : (a.declared ++ rest).Pairwise fun p q => eqUpToAsciiCase p.name q.name = false) :
    a.addProperties rest = { a with declared := a.declared ++ rest } := by
  unfold addProperties
  induction rest generalizing a with
  | nil => simp
  | cons property rest ih =>
    have hnew : a.declared? property.name = none := by
      apply List.find?_eq_none.mpr
      intro p hp
      rw [(List.pairwise_append.mp h).2.2 p hp property (by simp)]
      exact Bool.false_ne_true
    have hshift : a.declared ++ property :: rest = (a.declared ++ [property]) ++ rest := by simp
    rw [hshift] at h ⊢
    rw [List.foldl_cons, addProperty, hnew]
    exact ih h

/-- A result that is merged into a new object of its key is rebuilt as it was. -/
theorem Tidy.merge_new {a : Aspect} (h : a.Tidy) :
    ({ key := a.key } : Aspect).merge a.snapshot = a.snapshot := by
  simp only [merge, snapshot]
  rw [foldl_put_of_nodup a.properties (by simpa using h.properties),
    foldl_addEngine_of_nodup a.engines (by simpa using h.engines),
    addProperties_of_pairwise a.declared (by simpa using h.declared)]
  simp

end Aspect

end EvidenceFlow
