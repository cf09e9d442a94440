import EvidenceFlow.Filter
import EvidenceFlow.Proofs.Text.LowerCase

/-!
# Filters and names

A filter includes a name exactly if it gives it a weight. If it is put together from tables that ignore
case, it gives all spellings of a name the same weight: the session's name is recognised in ASCII capitals
only, but no other text has its lower case.
-/

namespace EvidenceFlow

open Text

/-- The session is recognised by its name in lower case. -/
theorem isSessionKey_iff (key : String) : isSessionKey key = true ↔ lowercase key = sessionKey := by
  rw [isSessionKey, lowercase_eq_iff (by decide)]

namespace Whitelist

/-- Inserting names does not change how a table compares them. -/
@[simp] theorem caseSensitive_insertAll (table : Whitelist) (keys : List (String × Int)) :
    (table.insertAll keys).caseSensitive = table.caseSensitive := by
  induction keys generalizing table with
  | nil => rfl
  | cons key rest ih => exact ih (table.insertIfNew key.1 key.2)

/-- A table that ignores case gives all spellings of a name one weight. -/
theorem weight?_congr {table : Whitelist} (h : table.caseSensitive = false) {key other : String}
    (hsame : lowercase key = lowercase other) : table.weight? key = table.weight? other := by
  have hform (name : String) : table.normalize name = lowercase name := if_neg (by simp [h])
  rw [weight?, weight?, hform, hform, hsame]

/-- A table has the names that have a weight in it. -/
theorem includes_eq_isSome_weight? (table : Whitelist) (key : String) :
    table.includes key = (table.weight? key).isSome := by
  rw [Bool.eq_iff_iff, includes, List.contains_iff_mem, weight?, Table.lookup_isSome_iff]

end Whitelist

namespace Filter

mutual

/-- A filter includes the names to which it gives a weight. -/
theorem includes_eq_isSome (filter : Filter) (key : String) :
    filter.includes key = (filter.weight? key).isSome := by
  cases filter with
  | whitelist table => exact table.includes_eq_isSome_weight? key
  | all => rfl
  | session inner =>
    rw [includes, weight?, includes_eq_isSome inner key]
    cases isSessionKey key <;> rfl
  | union merged others =>
    rw [includes, weight?, merged.includes_eq_isSome_weight?, anyIncludes_eq_isSome others key, Option.isSome_or]

/-- One of several filters includes a name if the first weight that they give is one. -/
theorem anyIncludes_eq_isSome (filters : List Filter) (key : String) :
    anyIncludes filters key = (firstWeight? filters key).isSome := by
  cases filters with
  | nil => rfl
  | cons filter rest =>
    rw [anyIncludes, firstWeight?, includes_eq_isSome filter key, anyIncludes_eq_isSome rest key,
      Option.isSome_or]

end

/-- A name that is not included has no weight. -/
theorem weight?_eq_none {filter : Filter} {key : String} (h : filter.includes key = false) :
    filter.weight? key = none := by
  rwa [includes_eq_isSome, Option.isSome_eq_false_iff, Option.isNone_iff_eq_none] at h

/-! ## How filters are put together -/

mutual

/-- The filter is put together, in any way, from tables of a kind. -/
inductive MadeOf (allowed : Whitelist → Prop) : Filter → Prop
  /-- A table. -/
  | whitelist {table : Whitelist} : allowed table → MadeOf allowed (whitelist table)
  /-- Everything. -/
  | all : MadeOf allowed all
  /-- The session ahead of another filter. -/
  | session {inner : Filter} : MadeOf allowed inner → MadeOf allowed (session inner)
  /-- A union. -/
  | union {u : Union} : UnionOf allowed u → MadeOf allowed u.toFilter

/-- The union is put together from such filters, one after the other. -/
inductive UnionOf (allowed : Whitelist → Prop) : Union → Prop
  /-- The union of nothing. -/
  | empty : UnionOf allowed {}
  /-- A table is added as a table. -/
  | addWhitelist {u : Union} {table : Whitelist} :
    UnionOf allowed u → allowed table → UnionOf allowed (u.addWhitelist table)
  /-- A filter is added. -/
  | addFilter {u : Union} {filter : Filter} :
    UnionOf allowed u → MadeOf allowed filter → UnionOf allowed (u.addFilter filter)

end

/-- The filter gives all spellings of a name one weight. -/
def IgnoresCase (filter : Filter) : Prop :=
  ∀ key other, lowercase key = lowercase other → filter.weight? key = filter.weight? other

/-- Filters that ignore case give the spellings of a name one weight. -/
theorem firstWeight?_congr {filters : List Filter} (h : ∀ filter ∈ filters, filter.IgnoresCase)
    {key other : String} (hsame : lowercase key = lowercase other) :
    firstWeight? filters key = firstWeight? filters other := by
  induction filters with
  | nil => rfl
  | cons filter rest ih =>
    rw [List.forall_mem_cons] at h
    rw [firstWeight?, firstWeight?, h.1 key other hsame, ih h.2]

variable {allowed : Whitelist → Prop}

mutual

/-- A filter that is put together from tables that ignore case ignores case. -/
theorem MadeOf.ignoresCase (hallowed : ∀ table, allowed table → table.caseSensitive = false)
    {filter : Filter} (h : MadeOf allowed filter) : filter.IgnoresCase := by
  match h with
  | .whitelist htable => exact fun _ _ => Whitelist.weight?_congr (hallowed _ htable)
  | .all => exact fun _ _ _ => rfl
  | .session hinner =>
    have ih := hinner.ignoresCase hallowed
    intro key other hsame
    have hsession : isSessionKey key = isSessionKey other := by
      rw [Bool.eq_iff_iff, isSessionKey_iff, isSessionKey_iff, hsame]
    rw [weight?, weight?, hsession, ih key other hsame]
  | .union hunion =>
    obtain ⟨hmerged, hothers⟩ := hunion.ignoresCase hallowed
    intro key other hsame
    rw [Union.toFilter, weight?, weight?, Whitelist.weight?_congr hmerged hsame,
      firstWeight?_congr hothers hsame]

/-- So do the merged table and the other filters of a union. -/
theorem UnionOf.ignoresCase (hallowed : ∀ table, allowed table → table.caseSensitive = false)
    {u : Union} (h : UnionOf allowed u) :
    u.merged.caseSensitive = false ∧ ∀ filter ∈ u.others, filter.IgnoresCase := by
  match h with
  | .empty => exact ⟨rfl, nofun⟩
  | .addWhitelist hunion htable =>
    obtain ⟨hmerged, hothers⟩ := hunion.ignoresCase hallowed
    rw [Union.addWhitelist, if_neg (by simp [hallowed _ htable])]
    exact ⟨by simpa using hmerged, hothers⟩
  | .addFilter hunion hfilter =>
    obtain ⟨hmerged, hothers⟩ := hunion.ignoresCase hallowed
    refine ⟨hmerged, fun filter hmem => ?_⟩
    rcases List.mem_append.mp hmem with hbefore | hnow
    · exact hothers filter hbefore
    · rw [List.mem_singleton.mp hnow]
      exact hfilter.ignoresCase hallowed

end

end Filter

end EvidenceFlow
