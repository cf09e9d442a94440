import EvidenceFlow.Proofs.Evidence.Restored
import Mathlib.Data.List.Perm.Subperm
import Mathlib.Data.List.TakeWhile

/-!
# Evidence with colliding names

A record may give several entries one name. The index then has fewer names than there are entries, however
often it is made again, so that look-ups keep going through the entries and take the first one that is spelled
as the name is, up to the case of ASCII letters. Additions go by the index all the same, and change the last
entry of the name. So what is added is read back unless another entry stands in front, or none is spelled so.
-/

namespace EvidenceFlow.Evidence

open Text

variable {e : Evidence}

/-! ## The index of entries -/

/-- An index is made entry by entry. -/
theorem indexFrom_append (position : Nat) (index : Table String Nat) (xs ys : List Entry) :
    indexFrom position index (xs ++ ys) = indexFrom (position + xs.length) (indexFrom position index xs) ys := by
  induction xs generalizing position index with
  | nil => rfl
  | cons x xs ih =>
    rw [List.cons_append, indexFrom, ih, List.length_cons, Nat.add_right_comm]
    rfl

/-- Entries leave other names where they are. -/
theorem lookup_indexFrom_of_absent {entries : List Entry} {name : String}
    (h : ∀ entry ∈ entries, lowercase entry.key ≠ name) (position : Nat) (index : Table String Nat) :
    (indexFrom position index entries).lookup name = index.lookup name := by
  induction entries generalizing position index with
  | nil => rfl
  | cons entry rest ih =>
    rw [indexFrom, ih fun other hother => h other (List.mem_cons_of_mem _ hother), Table.lookup_put,
      if_neg (h entry List.mem_cons_self).symm]

/-- The index leads to the last entry of a name. -/
theorem lookup_indexFrom_last {before after : List Entry} {last : Entry}
    (hlast : ∀ other ∈ after, lowercase other.key ≠ lowercase last.key) :
    (indexFrom 0 [] (before ++ last :: after)).lookup (lowercase last.key) = some before.length := by
  rw [indexFrom_append, indexFrom, lookup_indexFrom_of_absent hlast, Table.lookup_put, if_pos rfl,
    Nat.zero_add]

/-- An index with different keys gets no key twice. -/
theorem nodup_keys_indexFrom {position : Nat} {index : Table String Nat} {entries : List Entry}
    (h : index.keys.Nodup) : (indexFrom position index entries).keys.Nodup := by
  induction entries generalizing position index with
  | nil => exact h
  | cons entry rest ih => exact ih (Table.nodup_keys_put h _ _)

/-- The index holds names of entries only. -/
theorem keys_indexFrom_subset {position : Nat} {index : Table String Nat} {entries : List Entry}
    {names : List String} (hindex : index.keys ⊆ names)
    (hentries : (entries.map fun entry => lowercase entry.key) ⊆ names) :
    (indexFrom position index entries).keys ⊆ names := by
  induction entries generalizing position index with
  | nil => exact hindex
  | cons entry rest ih =>
    rw [List.map_cons, List.cons_subset] at hentries
    refine ih ?_ hentries.2
    rw [Table.keys_put]
    split
    · exact hindex
    · exact List.append_subset.mpr ⟨hindex, List.cons_subset.mpr ⟨hentries.1, List.nil_subset _⟩⟩

/-- An index with as many names as there are entries has all of them apart. -/
theorem nodup_of_length_indexFrom {entries : List Entry}
    (h : (indexFrom 0 [] entries).length = entries.length) :
    (entries.map fun entry => lowercase entry.key).Nodup := by
  have hkeys : (indexFrom 0 [] entries).keys.Nodup := nodup_keys_indexFrom List.nodup_nil
  have hsubset : (indexFrom 0 [] entries).keys ⊆ entries.map fun entry => lowercase entry.key :=
    keys_indexFrom_subset (List.nil_subset _) (List.Subset.refl _)
  have hlength : (entries.map fun entry => lowercase entry.key).length =
      (indexFrom 0 [] entries).keys.length := by
    rw [List.length_map, Table.keys, List.length_map, h]
  exact ((List.subperm_of_subset hkeys hsubset).perm_of_length_le (Nat.le_of_eq hlength)).nodup_iff.mp hkeys

/-! ## Additions that go by such an index -/

/-- An addition goes by the index that is made of the entries. -/
def GoesByEntries (e : Evidence) : Prop :=
  e.reindexed.index = indexFrom 0 [] e.entries

/-- Evidence of entries without an index goes by the entries. -/
theorem goesByEntries_ofEntries (entries : List Entry) : (ofEntries entries).GoesByEntries := by
  cases entries with
  | nil => rfl
  | cons entry rest =>
    have hbehind : (ofEntries (entry :: rest)).isIndexed = false := rfl
    rw [GoesByEntries, reindexed, if_neg (Bool.eq_false_iff.mp hbehind)]

/-- Evidence whose index is made of the entries goes by them. -/
theorem goesByEntries_of_index (h : e.index = indexFrom 0 [] e.entries) : e.GoesByEntries := by
  rw [GoesByEntries, reindexed]
  split
  · exact h
  · rfl

/-- Making the index leaves the entries alone. -/
theorem entries_reindexed (e : Evidence) : e.reindexed.entries = e.entries := by
  rw [reindexed]
  split <;> rfl

/-- The value at a place is that of the entry behind those before. -/
theorem setValue_append (before : List Entry) (entry : Entry) (after : List Entry) (value : Json) :
    setValue before.length value (before ++ entry :: after) = before ++ { entry with value } :: after := by
  induction before with
  | nil => rfl
  | cons first before ih =>
    rw [setValue] at ih ⊢
    rw [List.cons_append, List.length_cons, List.modify_succ_cons, ih]
    rfl

/-- A name that has an entry has a last one. -/
theorem exists_last_of_mem_names {entries : List Entry} {key : String}
    (h : lowercase key ∈ entries.map fun entry => lowercase entry.key) :
    ∃ before last after, entries = before ++ last :: after ∧ lowercase last.key = lowercase key ∧
      ∀ other ∈ after, lowercase other.key ≠ lowercase key := by
  induction entries using List.reverseRecOn with
  | nil => cases h
  | append_singleton entries entry ih =>
    by_cases hsame : lowercase entry.key = lowercase key
    · exact ⟨entries, entry, [], rfl, hsame, by simp⟩
    · have hbefore : lowercase key ∈ entries.map fun entry => lowercase entry.key := by
        rw [List.map_append, List.mem_append] at h
        exact h.resolve_right fun hlast => hsame (List.mem_singleton.mp hlast).symm
      obtain ⟨before, last, after, rfl, hname, hafter⟩ := ih hbefore
      refine ⟨before, last, after ++ [entry], by simp, hname, fun other hother => ?_⟩
      rcases List.mem_append.mp hother with hother | hother
      · exact hafter other hother
      · exact List.mem_singleton.mp hother ▸ hsame

namespace GoesByEntries

/-- The last entry of a name takes the value. -/
theorem add_of_last (h : e.GoesByEntries) {key : String} {before after : List Entry} {last : Entry}
    (hentries : e.entries = before ++ last :: after) (hname : lowercase last.key = lowercase key)
    (hafter : ∀ other ∈ after, lowercase other.key ≠ lowercase key) (value : Json) :
    e.add key value =
      { entries := before ++ { last with value } :: after, index := indexFrom 0 [] e.entries } := by
  have hposition : e.reindexed.index.lookup (lowercase key) = some before.length := by
    rw [h, hentries, ← hname]
    exact lookup_indexFrom_last (hname ▸ hafter)
  rw [add]
  simp only [hposition, entries_reindexed]
  rw [h, hentries, setValue_append]

/-- Under a new name there is a new entry. -/
theorem add_of_new (h : e.GoesByEntries) {key : String} (hnew : lowercase key ∉ e.names) (value : Json) :
    e.add key value =
      { entries := e.entries ++ [⟨key, value⟩]
        index := (indexFrom 0 [] e.entries).put (lowercase key) e.entries.length } := by
  have hposition : e.reindexed.index.lookup (lowercase key) = none := by
    rw [h]
    refine lookup_indexFrom_of_absent (fun entry hentry hsame => hnew ?_) 0 []
    exact List.mem_map.mpr ⟨entry, hentry, hsame⟩
  rw [add]
  simp only [hposition, entries_reindexed]
  rw [h]

/-- An addition makes the index of the entries that are there then. -/
theorem index_add (h : e.GoesByEntries) (key : String) (value : Json) :
    (e.add key value).index = indexFrom 0 [] (e.add key value).entries := by
  by_cases hnew : lowercase key ∈ e.names
  · obtain ⟨before, last, after, hentries, hname, hafter⟩ := exists_last_of_mem_names hnew
    rw [h.add_of_last hentries hname hafter, hentries]
    simp only [indexFrom_append]
    rfl
  · rw [h.add_of_new hnew]
    simp only [indexFrom_append, Nat.zero_add]
    rfl

/-- Evidence to which something is added goes by its entries. -/
theorem add (h : e.GoesByEntries) (key : String) (value : Json) : (e.add key value).GoesByEntries :=
  goesByEntries_of_index (h.index_add key value)

/-- Evidence to which pairs are added goes by its entries. -/
theorem addAll (h : e.GoesByEntries) (pairs : List (String × Json)) : (e.addAll pairs).GoesByEntries := by
  induction pairs generalizing e with
  | nil => exact h
  | cons pair rest ih => exact ih (h.add pair.1 pair.2)

/-- Additions neither make names collide nor keep them from it. -/
theorem nodup_names_add (h : e.GoesByEntries) (key : String) (value : Json) :
    (e.add key value).names.Nodup ↔ e.names.Nodup := by
  by_cases hnew : lowercase key ∈ e.names
  · obtain ⟨before, last, after, hentries, hname, hafter⟩ := exists_last_of_mem_names hnew
    rw [h.add_of_last hentries hname hafter, names, names, hentries, List.map_append, List.map_append]
    rfl
  · rw [h.add_of_new hnew, names, List.map_append, ← names, List.map_singleton, List.nodup_append]
    refine ⟨fun hnodup => hnodup.1, fun hnodup => ⟨hnodup, List.nodup_singleton _, ?_⟩⟩
    rintro name hmem other hother rfl
    exact hnew (List.mem_singleton.mp hother ▸ hmem)

/-- Additions in a row neither make names collide nor keep them from it. -/
theorem nodup_names_addAll (h : e.GoesByEntries) (pairs : List (String × Json)) :
    (e.addAll pairs).names.Nodup ↔ e.names.Nodup := by
  induction pairs generalizing e with
  | nil => exact Iff.rfl
  | cons pair rest ih => exact (ih (h.add pair.1 pair.2)).trans (h.nodup_names_add pair.1 pair.2)

/-! ## What is read back -/

/-- As long as no names collide, what is added is read back. -/
theorem reads_back_of_nodup (h : e.GoesByEntries) (hnodup : e.names.Nodup) (key : String) (value : Json) :
    (e.add key value).get? key = some value ∧ (e.add key value).contains key = true := by
  have hcoherent : e.reindexed.Coherent := by
    have hnames : e.reindexed.names = e.names := by rw [names, entries_reindexed, ← names]
    refine ⟨?_, hnames ▸ hnodup⟩
    rw [h, hnames]
    exact indexFrom_eq (by simpa [Table.keys, names] using hnodup)
  have hadd : e.add key value = e.reindexed.add key value := by
    have hsame : e.reindexed.reindexed = e.reindexed := if_pos hcoherent.isIndexed
    rw [Evidence.add, Evidence.add, hsame]
  have hget : (e.add key value).get? key = some value := by
    rw [hadd, hcoherent.get?_add, if_pos rfl]
  refine ⟨hget, ?_⟩
  rw [hadd, (hcoherent.add key value).get?_eq] at hget
  rw [hadd, (hcoherent.add key value).contains_eq, ← Option.isSome_map, hget, Option.isSome_some]

/-- If names collide, look-ups go through the entries after every addition. -/
theorem answers_add (h : e.GoesByEntries) (hcollision : ¬e.names.Nodup) (key : String) (value : Json)
    (query : String) :
    (e.add key value).get? query =
        ((e.add key value).entries.find? fun entry => eqUpToAsciiCase entry.key query).map (·.value) ∧
      (e.add key value).contains query =
        ((e.add key value).entries.find? fun entry => eqUpToAsciiCase entry.key query).isSome := by
  have hbehind : (e.add key value).isIndexed = false := by
    refine Bool.eq_false_iff.mpr fun hindexed => hcollision ?_
    rw [isIndexed, h.index_add, beq_iff_eq] at hindexed
    exact (h.nodup_names_add key value).mp (nodup_of_length_indexFrom hindexed)
  exact answers_of_position? (if_neg (Bool.eq_false_iff.mp hbehind))

end GoesByEntries

/-! ## The first entry of a spelling and the last one of a name -/

/-- The first entry that is spelled so, up to the case of ASCII letters, holds the value already or is the
last one of its name. -/
def Rereads (entries : List Entry) (key : String) (value : Json) : Prop :=
  ∃ found later, (entries.dropWhile fun entry => !eqUpToAsciiCase entry.key key) = found :: later ∧
    (found.value = value ∨ ∀ other ∈ later, lowercase other.key ≠ lowercase key)

/-- Entries of other names are not spelled so. -/
theorem find?_eq_none_of_names {entries : List Entry} {key : String}
    (h : ∀ entry ∈ entries, lowercase entry.key ≠ lowercase key) :
    (entries.find? fun entry => eqUpToAsciiCase entry.key key) = none :=
  List.find?_eq_none.mpr fun entry hentry hspelled => h entry hentry (lowercase_congr hspelled)

/-- When the last entry of a name has taken a value, the first one that is spelled so holds it if it is the
same one, or if it has held it before. -/
theorem find?_eq_some_value_iff {before after : List Entry} {last : Entry} {key : String}
    (hname : lowercase last.key = lowercase key)
    (hafter : ∀ other ∈ after, lowercase other.key ≠ lowercase key) (value : Json) :
    ((before ++ { last with value } :: after).find? fun entry => eqUpToAsciiCase entry.key key).map (·.value) =
        some value ↔
      Rereads (before ++ last :: after) key value := by
  rw [Rereads, List.find?_append, List.dropWhile_append, List.find?_eq_head?_dropWhile_not]
  cases before.dropWhile fun entry => !eqUpToAsciiCase entry.key key with
  | cons found more =>
    constructor
    · intro hvalue
      exact ⟨found, more ++ last :: after, rfl, .inl (Option.some_inj.mp hvalue)⟩
    · rintro ⟨first, later, hsplit, hfirst⟩
      obtain ⟨rfl, rfl⟩ := List.cons_eq_cons.mp hsplit
      refine congrArg some (hfirst.resolve_right fun hnone => ?_)
      exact hnone last (List.mem_append_right _ List.mem_cons_self) hname
  | nil =>
    cases hspelled : eqUpToAsciiCase last.key key with
    | true => exact iff_of_true (by simp [hspelled]) ⟨last, after, by simp [hspelled], .inr hafter⟩
    | false =>
      have hnone := find?_eq_none_of_names hafter
      have hrest : (after.dropWhile fun entry => !eqUpToAsciiCase entry.key key) = [] := by
        rwa [List.find?_eq_head?_dropWhile_not, List.head?_eq_none_iff] at hnone
      simp [hspelled, hnone, hrest]

namespace GoesByEntries

/-- If names collide, what is added under one of them is read back if the first entry of the spelling is the
last one of the name. -/
theorem reads_back_of_collision_iff (h : e.GoesByEntries) (hcollision : ¬e.names.Nodup) (key : String)
    (value : Json) :
    ((e.add key value).get? key = some value ↔
        lowercase key ∉ e.names ∨ Rereads e.entries key value) ∧
      ((e.add key value).contains key = true ↔
        lowercase key ∉ e.names ∨ ∃ entry ∈ e.entries, eqUpToAsciiCase entry.key key = true) := by
  obtain ⟨hget, hcontains⟩ := h.answers_add hcollision key value key
  rw [hget, hcontains]
  by_cases hnew : lowercase key ∈ e.names
  · obtain ⟨before, last, after, hentries, hname, hafter⟩ := exists_last_of_mem_names hnew
    have hnot : ¬lowercase key ∉ e.names := not_not_intro hnew
    rw [h.add_of_last hentries hname hafter, or_iff_right hnot, or_iff_right hnot, hentries]
    refine ⟨find?_eq_some_value_iff hname hafter value, ?_⟩
    rw [List.find?_isSome]
    simp [or_and_right, exists_or]
  · have hnone := find?_eq_none_of_names fun entry hentry hsame =>
      hnew (List.mem_map.mpr ⟨entry, hentry, hsame⟩)
    rw [h.add_of_new hnew, List.find?_append, hnone, Option.none_or]
    simp [hnew, eqUpToAsciiCase_refl]

end GoesByEntries

/-- Evidence is read back from a record without an index. -/
theorem exists_ofEntries_of_ofRecord? {record : Json} {back : Evidence} (h : ofRecord? record = some back) :
    ∃ entries, back = ofEntries entries := by
  rw [ofRecord?, Option.bind_eq_bind, Option.bind_eq_some_iff] at h
  obtain ⟨fields, -, h⟩ := h
  split at h
  · simp only [Option.bind_eq_bind, Option.bind_eq_some_iff] at h
    obtain ⟨items, -, entries, -, h⟩ := h
    exact ⟨entries, (Option.some_inj.mp h).symm⟩
  · cases h

/-- After any additions to evidence that was empty or read back from a record, what is added last is read back
exactly if the names of the entries are different, or the name is new, or the first entry that is spelled so
holds the value already or is the last one of the name. There is a value of the name exactly if the names are
different, or the name is new, or an entry is spelled so. Additions do not change whether the names are
different. -/
theorem reads_back_iff {back : Evidence} (hback : back = empty ∨ ∃ record, ofRecord? record = some back)
    (pairs : List (String × Json)) (key : String) (value : Json) :
    let e := back.addAll pairs
    ((e.add key value).get? key = some value ↔
      e.names.Nodup ∨ lowercase key ∉ e.names ∨ Rereads e.entries key value) ∧
    ((e.add key value).contains key = true ↔
      e.names.Nodup ∨ lowercase key ∉ e.names ∨ ∃ entry ∈ e.entries, eqUpToAsciiCase entry.key key = true) ∧
    (e.names.Nodup ↔ back.names.Nodup) := by
  intro e
  obtain ⟨entries, rfl⟩ : ∃ entries, back = ofEntries entries := by
    rcases hback with rfl | ⟨record, hrecord⟩
    · exact ⟨[], rfl⟩
    · exact exists_ofEntries_of_ofRecord? hrecord
  have hstart := goesByEntries_ofEntries entries
  have h : e.GoesByEntries := hstart.addAll pairs
  rw [← and_assoc]
  refine ⟨?_, hstart.nodup_names_addAll pairs⟩
  by_cases hnodup : e.names.Nodup
  · obtain ⟨hget, hcontains⟩ := h.reads_back_of_nodup hnodup key value
    exact ⟨iff_of_true hget (.inl hnodup), iff_of_true hcontains (.inl hnodup)⟩
  · rw [or_iff_right hnodup, or_iff_right hnodup]
    exact h.reads_back_of_collision_iff hnodup key value

/-- A record that gives one name twice. -/
def repeated : Json :=
  .obj [("entries", .arr
    [.obj [("key", .str "a"), ("value", .int 1)], .obj [("key", .str "A"), ("value", .int 2)]])]

/-- A new name is read back even so. -/
theorem reads_back_iff_of_repeated :
    ∃ back, ofRecord? repeated = some back ∧ ¬back.names.Nodup ∧
      ((back.addAll [("a", .int 3)]).add "b" (.int 4)).get? "b" = some (.int 4) := by
  refine ⟨ofEntries [⟨"a", .int 1⟩, ⟨"A", .int 2⟩], rfl, by decide +kernel, ?_⟩
  refine (reads_back_iff (.inr ⟨repeated, rfl⟩) [("a", .int 3)] "b" (.int 4)).1.mpr (.inr (.inl ?_))
  decide +kernel

/-- The second entry of the name takes the value, and the first one is read. -/
theorem not_reads_back_of_repeated :
    ∃ back, ofRecord? repeated = some back ∧ (back.add "a" (.int 3)).get? "a" ≠ some (.int 3) := by
  refine ⟨ofEntries [⟨"a", .int 1⟩, ⟨"A", .int 2⟩], rfl, fun heq => ?_⟩
  have htext := congrArg (Option.map Json.compact) heq
  revert htext
  decide +kernel

end EvidenceFlow.Evidence
