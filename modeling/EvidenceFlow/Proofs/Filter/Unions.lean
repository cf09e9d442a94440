import EvidenceFlow.Proofs.Filter.Names

/-!
# What a union of filters includes, and how much it weighs

A filter includes a name exactly if it gives the name a weight. A union includes what one of the filters
that were added to it includes, in whatever order the names of tables come when they are merged. But the
merged tables are asked before all other filters, so that the filter added first that has a name does not
always give it its weight: a table that ignores case overrules what was added before it and is kept apart.
-/

namespace EvidenceFlow

open Text

namespace Whitelist

variable {table merged : Whitelist} {keys order : List (String × Int)}

/-! ## Tables of names -/

/-- The table is put together from names and weights. -/
def IsTable (table : Whitelist) : Prop :=
  ∃ keys, table = weighted keys ∨ table = exactly keys

/-- A name that has its form keeps it. -/
theorem normalize_normalize (table : Whitelist) (key : String) :
    table.normalize (table.normalize key) = table.normalize key := by
  cases h : table.caseSensitive <;> simp [normalize, h, lowercase_lowercase]

/-- The form of a name depends on whether the table ignores case only. -/
theorem normalize_congr (h : merged.caseSensitive = table.caseSensitive) (key : String) :
    merged.normalize key = table.normalize key := by
  rw [normalize, normalize, h]

/-- Each name stands in the table once, and in the form in which the table holds names. -/
structure Tidy (table : Whitelist) : Prop where
  /-- Each name has one weight. -/
  nodup : table.entries.keys.Nodup
  /-- The names have their form. -/
  normal : ∀ name ∈ table.entries.keys, table.normalize name = name

/-- A table into which a name is inserted stays tidy. -/
theorem Tidy.insertIfNew (h : table.Tidy) (key : String) (weight : Int) :
    (table.insertIfNew key weight).Tidy := by
  rw [Whitelist.insertIfNew, Table.putNew]
  split
  · exact h
  · refine ⟨Table.nodup_keys_put h.nodup _ _, fun name hname => ?_⟩
    rw [Table.keys_put] at hname
    split at hname
    · exact h.normal name hname
    · rcases List.mem_append.mp hname with hbefore | hnow
      · exact h.normal name hbefore
      · rw [List.mem_singleton.mp hnow]
        exact table.normalize_normalize key

/-- A table into which names are inserted stays tidy. -/
theorem Tidy.insertAll (h : table.Tidy) (keys : List (String × Int)) : (table.insertAll keys).Tidy := by
  induction keys generalizing table with
  | nil => exact h
  | cons key rest ih => exact ih (h.insertIfNew key.1 key.2)

/-- A table that is put together from names and weights is tidy. -/
theorem IsTable.tidy (h : table.IsTable) : table.Tidy := by
  have hempty (caseSensitive : Bool) : ({ caseSensitive := caseSensitive } : Whitelist).Tidy :=
    ⟨List.nodup_nil, by simp [Table.keys]⟩
  obtain ⟨keys, rfl | rfl⟩ := h
  · exact (hempty false).insertAll keys
  · exact (hempty true).insertAll keys

/-- A name that is inserted gets the weight unless it has one. -/
theorem weight?_insertIfNew (table : Whitelist) (key : String) (weight : Int) (query : String) :
    (table.insertIfNew key weight).weight? query =
      (table.weight? query).or (if table.normalize query = table.normalize key then some weight else none) :=
  table.entries.lookup_putNew (table.normalize key) (table.normalize query) weight

/-- Names that are inserted get the first of their weights unless they have one. -/
theorem weight?_insertAll (table : Whitelist) (keys : List (String × Int)) (query : String) :
    (table.insertAll keys).weight? query =
      (table.weight? query).or
        ((keys.map fun key => (table.normalize key.1, key.2)).lookup (table.normalize query)) := by
  induction keys generalizing table with
  | nil => simp [insertAll]
  | cons key rest ih =>
    have hnormalize (name : String) :
        (table.insertIfNew key.1 key.2).normalize name = table.normalize name := rfl
    rw [insertAll, List.foldl_cons, ← insertAll, ih, weight?_insertIfNew, Option.or_assoc, List.map_cons]
    simp only [hnormalize]
    by_cases h : table.normalize query = table.normalize key.1
    · rw [if_pos h, h, List.lookup_cons_self, Option.some_or]
    · rw [if_neg h, Table.lookup_cons_of_ne h, Option.none_or]

/-- In whatever order the names of a table are merged, they keep their weights, and those that are there
stand. -/
theorem weight?_merged (hmerged : merged.caseSensitive = false) (htable : table.caseSensitive = false)
    (htidy : table.Tidy) (horder : order.Perm table.entries) (query : String) :
    (merged.insertAll order).weight? query = (merged.weight? query).or (table.weight? query) := by
  have hform := normalize_congr (hmerged.trans htable.symm)
  have hmap : (order.map fun key => (merged.normalize key.1, key.2)) = order := by
    refine (List.map_congr_left fun key hkey => ?_).trans (List.map_id order)
    have hname : key.1 ∈ table.entries.keys := List.mem_map_of_mem (horder.subset hkey)
    rw [hform, htidy.normal key.1 hname]
    rfl
  have hlookup (name : String) : List.lookup name order = table.entries.lookup name := by
    have hnodup : (Table.keys order).Nodup := (horder.map Prod.fst).nodup_iff.mpr htidy.nodup
    apply Option.ext
    intro weight
    rw [Table.lookup_eq_some_iff hnodup, Table.lookup_eq_some_iff htidy.nodup, horder.mem_iff]
  rw [weight?_insertAll, hmap, hlookup, hform]
  rfl

end Whitelist

namespace Filter

/-- The first weight is that of the first filter that gives one. -/
theorem firstWeight?_eq_findSome? (filters : List Filter) (key : String) :
    firstWeight? filters key = filters.findSome? (·.weight? key) := by
  induction filters with
  | nil => rfl
  | cons filter rest ih =>
    rw [firstWeight?, ih, List.findSome?_cons]
    cases filter.weight? key <;> rfl

/-! ## Additions -/

/-- What is added to a union. -/
inductive Addition where
  /-- A table, which is merged if it ignores case. -/
  | table (table : Whitelist)
  /-- A filter, which is kept apart. -/
  | filter (filter : Filter)

namespace Addition

/-- The filter that is added. -/
def added : Addition → Filter
  | table t => whitelist t
  | filter f => f

/-- Whether it is merged with the tables before. -/
def isMerged : Addition → Bool
  | table t => !t.caseSensitive
  | filter _ => false

/-- The weight that the added filter gives a name. -/
def weight? (addition : Addition) (key : String) : Option Int :=
  addition.added.weight? key

/-- The weight that it gives a name if it is merged. -/
def mergedWeight? (addition : Addition) (key : String) : Option Int :=
  if addition.isMerged then addition.weight? key else none

/-- The weight that it gives a name if it is kept apart. -/
def keptWeight? (addition : Addition) (key : String) : Option Int :=
  if addition.isMerged then none else addition.weight? key

/-- The weight that the first of the additions with one gives. -/
def first? (additions : List Addition) (key : String) : Option Int :=
  additions.findSome? (·.weight? key)

/-- The weight that the first of the merged tables with one gives. -/
def firstMerged? (additions : List Addition) (key : String) : Option Int :=
  additions.findSome? (·.mergedWeight? key)

/-- The weight that the first with one of those that are kept apart gives. -/
def firstKept? (additions : List Addition) (key : String) : Option Int :=
  additions.findSome? (·.keptWeight? key)

/-- What an addition brings into the merged table are its weights, if it is merged. -/
theorem mergedWeight?_eq_some_iff {addition : Addition} {key : String} {weight : Int} :
    addition.mergedWeight? key = some weight ↔
      addition.isMerged = true ∧ addition.weight? key = some weight := by
  cases h : addition.isMerged <;> simp [mergedWeight?, h]

/-- What is not merged is kept apart. -/
theorem keptWeight?_of_mergedWeight? {addition : Addition} {key : String}
    (h : addition.mergedWeight? key = none) : addition.keptWeight? key = addition.weight? key := by
  rw [mergedWeight?] at h
  rw [keptWeight?]
  split at h
  · next hmerged => rw [if_pos hmerged, h]
  · next hkept => rw [if_neg hkept]

/-- The addition that comes last is asked last among the merged ones. -/
theorem firstMerged?_concat (additions : List Addition) (addition : Addition) (key : String) :
    firstMerged? (additions ++ [addition]) key =
      (firstMerged? additions key).or (addition.mergedWeight? key) := by
  rw [firstMerged?, List.findSome?_append, List.findSome?_singleton]
  rfl

/-- The addition that comes last is asked last among those kept apart. -/
theorem firstKept?_concat (additions : List Addition) (addition : Addition) (key : String) :
    firstKept? (additions ++ [addition]) key = (firstKept? additions key).or (addition.keptWeight? key) := by
  rw [firstKept?, List.findSome?_append, List.findSome?_singleton]
  rfl

end Addition

/-- The union comes of additions one after the other. The names of a table that is merged come in any
order. -/
inductive Union.Collects : List Addition → Union → Prop
  /-- The union of nothing. -/
  | empty : Collects [] {}
  /-- A table of exact names is kept. -/
  | keepTable {additions : List Addition} {u : Union} (table : Whitelist) :
    Collects additions u → table.IsTable → table.caseSensitive = true →
      Collects (additions ++ [.table table]) (u.addWhitelist table)
  /-- A table that ignores case is merged. -/
  | mergeTable {additions : List Addition} {u : Union} (table : Whitelist) (order : List (String × Int)) :
    Collects additions u → table.IsTable → table.caseSensitive = false → order.Perm table.entries →
      Collects (additions ++ [.table table]) (u.addWhitelist { table with entries := order })
  /-- A filter is added. -/
  | addFilter {additions : List Addition} {u : Union} (filter : Filter) :
    Collects additions u → Collects (additions ++ [.filter filter]) (u.addFilter filter)

open Addition

/-- The union holds the weights of the tables that were merged, first ones first, and the others in order. -/
structure Union.Holds (additions : List Addition) (u : Union) : Prop where
  /-- The merged table ignores case. -/
  ignoresCase : u.merged.caseSensitive = false
  /-- It has the weights of the merged tables. -/
  merged : ∀ key, u.merged.weight? key = firstMerged? additions key
  /-- The others have the weights of those kept apart. -/
  kept : ∀ key, firstWeight? u.others key = firstKept? additions key

namespace Union

variable {additions : List Addition} {u : Union}

/-- An addition that is not merged is kept behind the others. -/
theorem Holds.keep (h : Holds additions u) (addition : Addition) (hkept : addition.isMerged = false) :
    Holds (additions ++ [addition]) { u with others := u.others ++ [addition.added] } := by
  have hapart : ¬addition.isMerged = true := Bool.eq_false_iff.mp hkept
  refine ⟨h.ignoresCase, fun key => ?_, fun key => ?_⟩
  · rw [firstMerged?_concat, mergedWeight?, if_neg hapart, Option.or_none, h.merged]
  · rw [firstKept?_concat, keptWeight?, if_neg hapart, ← h.kept, firstWeight?_eq_findSome?,
      List.findSome?_append, ← firstWeight?_eq_findSome?, List.findSome?_singleton]
    rfl

/-- A table that ignores case gives its weights to the names that have none. -/
theorem Holds.merge (h : Holds additions u) {table : Whitelist} {order : List (String × Int)}
    (htable : table.IsTable) (hignores : table.caseSensitive = false) (horder : order.Perm table.entries) :
    Holds (additions ++ [.table table]) { u with merged := u.merged.insertAll order } := by
  have hmerged : (Addition.table table).isMerged = true := by rw [isMerged, hignores]; rfl
  refine ⟨by simpa using h.ignoresCase, fun key => ?_, fun key => ?_⟩
  · rw [firstMerged?_concat, mergedWeight?, if_pos hmerged, ← h.merged,
      Whitelist.weight?_merged h.ignoresCase hignores htable.tidy horder]
    rfl
  · rw [firstKept?_concat, keptWeight?, if_pos hmerged, Option.or_none, h.kept]

/-- A union holds what it collects. -/
theorem Collects.holds (h : Collects additions u) : Holds additions u := by
  induction h with
  | empty => exact ⟨rfl, fun _ => rfl, fun _ => rfl⟩
  | keepTable table hbefore htable hexact ih =>
    rw [addWhitelist, if_pos hexact]
    exact ih.keep (.table table) (by rw [isMerged, hexact]; rfl)
  | mergeTable table order hbefore htable hignores horder ih =>
    rw [addWhitelist, if_neg (by simp [hignores])]
    exact ih.merge htable hignores horder
  | addFilter filter hbefore ih => exact ih.keep (.filter filter) rfl

/-- The merged tables are asked first, and then those kept apart, in order. -/
theorem Collects.weight?_toFilter (h : Collects additions u) (key : String) :
    u.toFilter.weight? key = (firstMerged? additions key).or (firstKept? additions key) := by
  rw [toFilter, Filter.weight?, h.holds.merged, h.holds.kept]

end Union

/-! ## What is included -/

/-- A union gives a name a weight if one of the filters that were added to it does. -/
theorem Union.Collects.isSome_weight?_iff {additions : List Addition} {u : Union} (h : Collects additions u)
    (key : String) :
    (u.toFilter.weight? key).isSome = true ↔
      ∃ addition ∈ additions, (addition.weight? key).isSome = true := by
  rw [h.weight?_toFilter, Option.isSome_or, Bool.or_eq_true, firstMerged?, firstKept?,
    List.findSome?_isSome_iff, List.findSome?_isSome_iff]
  constructor
  · rintro (⟨addition, hmem, hsome⟩ | ⟨addition, hmem, hsome⟩) <;> refine ⟨addition, hmem, ?_⟩
    · rw [mergedWeight?] at hsome
      split at hsome
      · exact hsome
      · cases hsome
    · rw [keptWeight?] at hsome
      split at hsome
      · cases hsome
      · exact hsome
  · rintro ⟨addition, hmem, hsome⟩
    cases hmerged : addition.isMerged with
    | true => exact .inl ⟨addition, hmem, by rwa [mergedWeight?, if_pos hmerged]⟩
    | false => exact .inr ⟨addition, hmem, by rwa [keptWeight?, if_neg (Bool.eq_false_iff.mp hmerged)]⟩

/-- Every filter includes just the names to which it gives a weight, and a union those that one of the filters
that were added to it includes, in whatever order the names of merged tables came. -/
theorem includes_iff_weighs (filter : Filter) (key : String) :
    (filter.includes key = true ↔ ∃ weight, filter.weight? key = some weight) ∧
    ∀ additions u, Union.Collects additions u → u.toFilter = filter →
      (filter.includes key = true ↔ ∃ addition ∈ additions, addition.added.includes key = true) := by
  constructor
  · rw [includes_eq_isSome, Option.isSome_iff_exists]
  · rintro additions u h rfl
    simp only [includes_eq_isSome]
    exact h.isSome_weight?_iff key

/-- Two tables that ignore case and share a name, one of exact names, and the session ahead of another such
table. -/
def mixture : List Addition :=
  [.table (.weighted [("Model", 1)]), .table (.exactly [("Exact", 3)]),
    .table (.weighted [("b", 2), ("MODEL", 9)]), .filter (.session (.whitelist (.exactly [("c", 4)])))]

/-- The union of the mixture, the names of its second table merged from the last one on. -/
def mixed : Union :=
  ((({} : Union).addWhitelist (.weighted [("Model", 1)])).addWhitelist (.exactly [("Exact", 3)])
    |>.addWhitelist { entries := [("model", 9), ("b", 2)] }).addFilter
      (.session (.whitelist (.exactly [("c", 4)])))

/-- The union collects the mixture. -/
theorem collects_mixed : Union.Collects mixture mixed := by
  have hfirst := Union.Collects.empty.mergeTable (.weighted [("Model", 1)]) _ ⟨_, .inl rfl⟩ rfl (.refl _)
  have hsecond := hfirst.keepTable (.exactly [("Exact", 3)]) ⟨_, .inr rfl⟩ rfl
  have hthird := hsecond.mergeTable (.weighted [("b", 2), ("MODEL", 9)]) [("model", 9), ("b", 2)]
    ⟨_, .inl rfl⟩ rfl (by decide +kernel)
  exact hthird.addFilter _

/-- The union includes names of its tables in the spellings that these allow, and the session. -/
theorem includes_iff_weighs_of_mixture :
    mixed.toFilter.includes "MoDeL" = true ∧ mixed.toFilter.includes "Session.ID" = true ∧
      mixed.toFilter.includes "exact" = false := by
  have hunion (key : String) := (includes_iff_weighs mixed.toFilter key).2 mixture mixed collects_mixed rfl
  refine ⟨(hunion _).mpr (by decide +kernel), (hunion _).mpr (by decide +kernel), ?_⟩
  rw [Bool.eq_false_iff, ne_eq, hunion]
  decide +kernel

/-! ## Which weight counts -/

/-- If no merged table has a name, the filters that are kept apart are all that give it a weight. -/
theorem firstKept?_of_firstMerged?_eq_none {additions : List Addition} {key : String}
    (h : firstMerged? additions key = none) : firstKept? additions key = first? additions key := by
  induction additions with
  | nil => rfl
  | cons addition rest ih =>
    rw [firstMerged?, List.findSome?_eq_none_iff, List.forall_mem_cons, ← List.findSome?_eq_none_iff] at h
    rw [firstKept?, first?, List.findSome?_cons, List.findSome?_cons, keptWeight?_of_mergedWeight? h.1]
    cases addition.weight? key with
    | none => exact ih h.2
    | some weight => rfl

/-- The filter added first that has the name is kept apart, and gives it another weight than the first merged
table that has it. -/
def Overruled (additions : List Addition) (key : String) : Prop :=
  ∃ before kept between table after weight other,
    additions = before ++ kept :: (between ++ table :: after) ∧
    (∀ addition ∈ before, addition.weight? key = none) ∧
    kept.isMerged = false ∧ kept.weight? key = some weight ∧
    (∀ addition ∈ between, addition.mergedWeight? key = none) ∧
    table.isMerged = true ∧ table.weight? key = some other ∧ weight ≠ other

/-- Where a name is overruled, the first weight and that of the first merged table differ. -/
theorem Overruled.weights {additions : List Addition} {key : String} (h : Overruled additions key) :
    ∃ weight other, first? additions key = some weight ∧ firstMerged? additions key = some other ∧
      weight ≠ other := by
  obtain ⟨before, kept, between, table, after, weight, other, rfl, hbefore, hkept, hweight, hbetween, htable,
    hother, hne⟩ := h
  refine ⟨weight, other, ?_, ?_, hne⟩
  · exact List.findSome?_eq_some_iff.mpr ⟨before, kept, _, rfl, hweight, hbefore⟩
  · refine List.findSome?_eq_some_iff.mpr ⟨before ++ kept :: between, table, after, by simp, ?_, ?_⟩
    · exact mergedWeight?_eq_some_iff.mpr ⟨htable, hother⟩
    · intro addition hmem
      rcases List.mem_append.mp hmem with hmem | hmem
      · rw [mergedWeight?, hbefore addition hmem, ite_self]
      · rcases List.mem_cons.mp hmem with rfl | hmem
        · rw [mergedWeight?, if_neg (Bool.eq_false_iff.mp hkept)]
        · exact hbetween addition hmem

/-- Where it is not, the first merged table that has the name gives it the first weight. -/
theorem first?_of_not_overruled {additions : List Addition} {key : String} (h : ¬Overruled additions key)
    {other : Int} (hmerged : firstMerged? additions key = some other) : first? additions key = some other := by
  obtain ⟨front, table, after, rfl, htable, hfront⟩ := List.findSome?_eq_some_iff.mp hmerged
  obtain ⟨htable, hother⟩ := mergedWeight?_eq_some_iff.mp htable
  rw [first?, List.findSome?_append, List.findSome?_cons, hother]
  cases hfirst : front.findSome? (·.weight? key) with
  | none => rfl
  | some weight =>
    -- the first filter that has the name stands before the merged tables that have it
    obtain ⟨before, kept, between, rfl, hweight, hbefore⟩ := List.findSome?_eq_some_iff.mp hfirst
    rw [List.forall_mem_append, List.forall_mem_cons] at hfront
    obtain ⟨-, hnotMerged, hbetween⟩ := hfront
    have hkept : kept.isMerged = false := by
      rw [Bool.eq_false_iff]
      intro hmerged
      rw [mergedWeight?, if_pos hmerged, hweight] at hnotMerged
      cases hnotMerged
    by_cases heq : weight = other
    · rw [heq]
      rfl
    · exact absurd ⟨before, kept, between, table, after, weight, other, by simp, hbefore, hkept, hweight,
        hbetween, htable, hother, heq⟩ h

/-- In a union the first merged table that has a name gives it its weight, or else the first of the filters
that are kept apart. This is the weight of the filter added first that has the name, exactly if no merged table
overrules it; none does if all tables that ignore case are added before all else. -/
theorem weight?_eq_first_iff {additions : List Addition} {u : Union} (h : Union.Collects additions u)
    (key : String) :
    u.toFilter.weight? key = (firstMerged? additions key).or (firstKept? additions key) ∧
    (u.toFilter.weight? key = first? additions key ↔ ¬Overruled additions key) ∧
    ((additions.Pairwise fun earlier later => later.isMerged = true → earlier.isMerged = true) →
      u.toFilter.weight? key = first? additions key) := by
  have hiff : u.toFilter.weight? key = first? additions key ↔ ¬Overruled additions key := by
    rw [h.weight?_toFilter]
    constructor
    · intro heq hoverruled
      obtain ⟨weight, other, hfirst, hmerged, hne⟩ := hoverruled.weights
      rw [hfirst, hmerged, Option.some_or] at heq
      exact hne (Option.some_inj.mp heq).symm
    · intro hstands
      cases hmerged : firstMerged? additions key with
      | none => rw [Option.none_or, firstKept?_of_firstMerged?_eq_none hmerged]
      | some other => rw [Option.some_or, first?_of_not_overruled hstands hmerged]
  refine ⟨h.weight?_toFilter key, hiff, fun hordered => hiff.mpr ?_⟩
  rintro ⟨before, kept, between, table, after, weight, other, rfl, -, hkept, -, -, htable, -⟩
  have hrest := List.rel_of_pairwise_cons (List.pairwise_append.mp hordered).2.1
    (List.mem_append_right between List.mem_cons_self)
  exact absurd (hrest htable) (Bool.eq_false_iff.mp hkept)

/-- Of two weights that merged tables give a name the first one counts. -/
theorem weight?_eq_first_iff_of_mixture : mixed.toFilter.weight? "MODEL" = some 1 := by
  refine (weight?_eq_first_iff collects_mixed "MODEL").1.trans ?_
  decide +kernel

/-- A table that is added behind a filter of everything gives its names their weights. -/
theorem weight?_ne_first_of_all :
    ∃ additions u, Union.Collects additions u ∧ u.toFilter.weight? "a" ≠ first? additions "a" := by
  have hfirst := Union.Collects.empty.addFilter .all
  have hsecond := hfirst.mergeTable (.weighted [("a", 5)]) _ ⟨_, .inl rfl⟩ rfl (.refl _)
  exact ⟨_, _, hsecond, by decide +kernel⟩

end Filter

end EvidenceFlow
