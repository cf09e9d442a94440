import EvidenceFlow.Evidence
import Mathlib.Data.List.Induction
import Mathlib.Data.List.Nodup

/-!
# Evidence by its names

Evidence that is built by additions has one entry for each name in lower case, and its index leads to
these entries. So it is told by what was given under each name: the spelling is that of the first pair
under the name, the value that of the last, and the entries stand in the order of the first ones.
-/

namespace EvidenceFlow.Evidence

open Text

variable {e : Evidence}

/-! ## Entries by name -/

/-- The names of the entries in lower case. -/
def names (e : Evidence) : List String := e.entries.map fun entry => lowercase entry.key

/-- The first entry of a name. -/
def entryOf? (e : Evidence) (key : String) : Option Entry :=
  e.entries.find? fun entry => lowercase entry.key = lowercase key

/-- The entry after a value is given to a name: it takes the value if the name is its own. -/
def Entry.receive (key : String) (value : Json) (entry : Entry) : Entry :=
  if lowercase entry.key = lowercase key then { entry with value } else entry

/-- An entry that receives a value keeps its key. -/
@[simp] theorem Entry.key_receive (key : String) (value : Json) (entry : Entry) :
    (entry.receive key value).key = entry.key := by
  rw [receive]
  split <;> rfl

/-- An entry receives the value of its name. -/
theorem Entry.value_receive (key : String) (value : Json) (entry : Entry) :
    (entry.receive key value).value =
      if lowercase entry.key = lowercase key then value else entry.value := by
  rw [receive]
  split <;> rfl

/-- The index leads from each name to its one entry. -/
structure Coherent (e : Evidence) : Prop where
  /-- The index holds the names and their positions. -/
  index_eq : e.index = e.names.zipIdx
  /-- No name has two entries. -/
  nodup : e.names.Nodup

/-- The number of a name in a numbered list is its place, counted from the first number. -/
theorem lookup_zipIdx (names : List String) (start : Nat) (name : String) :
    (names.zipIdx start).lookup name = (names.idxOf? name).map (· + start) := by
  induction names generalizing start with
  | nil => rfl
  | cons first rest ih =>
    rw [List.zipIdx_cons, List.idxOf?_cons]
    by_cases hsame : first = name
    · rw [hsame, List.lookup_cons_self, if_pos BEq.rfl, Option.map_some, Nat.zero_add]
    · rw [Table.lookup_cons_of_ne (Ne.symm hsame), ih, if_neg (by simpa using hsame), Option.map_map]
      congr 1
      funext position
      rw [Function.comp_apply, Nat.add_assoc, Nat.add_comm 1 start]

/-- If the position of a name is that of the first entry that passes a test, the answers are those of the
entry. -/
theorem answers_of_position? {key : String} {passes : Entry → Bool}
    (h : e.position? key = e.entries.findIdx? passes) :
    e.get? key = (e.entries.find? passes).map (·.value) ∧
      e.contains key = (e.entries.find? passes).isSome := by
  constructor
  · rw [get?, h, List.find?_eq_bind_findIdx?_getElem?, Option.map_bind]
    rfl
  · rw [contains, h, List.findIdx?_isSome, Bool.eq_iff_iff, List.any_eq_true, List.find?_isSome]

namespace Coherent

/-- The empty evidence is coherent. -/
theorem empty : Coherent empty := ⟨rfl, List.nodup_nil⟩

/-- Coherent evidence has an index. -/
theorem isIndexed (h : e.Coherent) : e.isIndexed = true := by
  rw [Evidence.isIndexed, h.index_eq, List.length_zipIdx, names, List.length_map, beq_self_eq_true]

/-- The index of coherent evidence leads to the place of a name. -/
theorem lookup_index (h : e.Coherent) (name : String) : e.index.lookup name = e.names.idxOf? name := by
  rw [h.index_eq, lookup_zipIdx]
  exact Option.map_id'

/-- The index leads to the first entry of a name. -/
theorem lookup_lowercase (h : e.Coherent) (key : String) :
    e.index.lookup (lowercase key) =
      e.entries.findIdx? fun entry => lowercase entry.key = lowercase key := by
  rw [h.lookup_index, names]
  exact List.findIdx?_map

/-- A key is found at the first entry of its name. -/
theorem position?_eq (h : e.Coherent) (key : String) :
    e.position? key = e.entries.findIdx? fun entry => lowercase entry.key = lowercase key := by
  rw [position?, if_pos h.isIndexed, h.lookup_lowercase]

/-- A look-up finds the entry of the name. -/
theorem get?_eq (h : e.Coherent) (key : String) : e.get? key = (e.entryOf? key).map (·.value) :=
  (answers_of_position? (h.position?_eq key)).1

/-- A key is there if an entry has its name. -/
theorem contains_eq (h : e.Coherent) (key : String) : e.contains key = (e.entryOf? key).isSome :=
  (answers_of_position? (h.position?_eq key)).2

/-- A name with an entry has one position only. -/
theorem findIdx?_eq_some_iff (h : e.Coherent) {key : String} {position : Nat} :
    (e.entries.findIdx? fun entry => lowercase entry.key = lowercase key) = some position ↔
      ∃ entry, e.entries[position]? = some entry ∧ lowercase entry.key = lowercase key := by
  rw [List.findIdx?_eq_some_iff_getElem]
  constructor
  · rintro ⟨hlt, hsame, -⟩
    exact ⟨_, List.getElem?_eq_getElem hlt, of_decide_eq_true hsame⟩
  · rintro ⟨entry, hentry, hsame⟩
    obtain ⟨hlt, rfl⟩ := List.getElem?_eq_some_iff.mp hentry
    refine ⟨hlt, decide_eq_true hsame, fun earlier hearlier hother => ?_⟩
    have hlength : earlier < e.names.length := by
      rw [names, List.length_map]
      exact Nat.lt_trans hearlier hlt
    have hnames : e.names[earlier]? = e.names[position]? := by
      rw [names, List.getElem?_map, List.getElem?_map, List.getElem?_eq_getElem hlt,
        List.getElem?_eq_getElem (Nat.lt_trans hearlier hlt), Option.map_some, Option.map_some,
        of_decide_eq_true hother, hsame]
    exact absurd ((List.getElem?_inj hlength h.nodup).mp hnames) (Nat.ne_of_lt hearlier)

/-- The entries and the index after a value is given. -/
theorem add_eq (h : e.Coherent) (key : String) (value : Json) :
    e.add key value =
      if lowercase key ∈ e.names then
        { e with entries := e.entries.map (Entry.receive key value) }
      else
        { entries := e.entries ++ [⟨key, value⟩]
          index := e.index ++ [(lowercase key, e.entries.length)] } := by
  have hsame : e.reindexed = e := if_pos h.isIndexed
  rw [add, hsame]
  cases hposition : e.index.lookup (lowercase key) with
  | none =>
    rw [h.lookup_lowercase, List.findIdx?_eq_none_iff] at hposition
    have habsent : lowercase key ∉ e.names := by
      rw [names, List.mem_map]
      rintro ⟨entry, hentry, hname⟩
      exact of_decide_eq_false (hposition entry hentry) hname
    have hkey : lowercase key ∉ e.index.keys := by
      rwa [h.index_eq, Table.keys, List.zipIdx_map_fst]
    rw [if_neg habsent, Table.put_of_not_mem hkey]
  | some position =>
    rw [h.lookup_lowercase, h.findIdx?_eq_some_iff] at hposition
    obtain ⟨found, hfound, hname⟩ := hposition
    have hpresent : lowercase key ∈ e.names :=
      List.mem_map.mpr ⟨found, List.mem_of_getElem? hfound, hname⟩
    have hentries : setValue position value e.entries = e.entries.map (Entry.receive key value) := by
      refine List.ext_getElem? fun other => ?_
      rw [setValue, List.getElem?_modify, List.getElem?_map]
      cases hother : e.entries[other]? with
      | none => rfl
      | some entry =>
        have hsole : position = other ↔ lowercase entry.key = lowercase key := by
          rw [← Option.some_inj, ← h.findIdx?_eq_some_iff.mpr ⟨found, hfound, hname⟩,
            h.findIdx?_eq_some_iff, hother]
          simp
        simp only [Option.map_eq_map, Option.map_some, hsole, Entry.receive]
    rw [if_pos hpresent]
    exact congrArg (fun entries => { e with entries }) hentries

/-- The spellings after a value is given: the first one of each name. -/
theorem keys_add (h : e.Coherent) (key : String) (value : Json) :
    (e.add key value).keys = if lowercase key ∈ e.names then e.keys else e.keys ++ [key] := by
  rw [h.add_eq, keys]
  split
  · rw [keys, List.map_map]
    exact List.map_congr_left fun entry _ => entry.key_receive key value
  · rw [List.map_append]
    rfl

/-- The names are the keys in lower case. -/
theorem names_eq_keys (e : Evidence) : e.names = e.keys.map lowercase := by
  rw [names, keys, List.map_map]
  rfl

/-- Additions keep the index in step with the entries. -/
theorem add (h : e.Coherent) (key : String) (value : Json) : (e.add key value).Coherent := by
  have hnames : (e.add key value).names =
      if lowercase key ∈ e.names then e.names else e.names ++ [lowercase key] := by
    rw [names_eq_keys, h.keys_add]
    split
    · exact (names_eq_keys e).symm
    · rw [List.map_append, ← names_eq_keys]
      rfl
  constructor
  · rw [hnames, h.add_eq]
    split
    · exact h.index_eq
    · rw [List.zipIdx_append, ← h.index_eq, names, List.length_map, Nat.zero_add]
      rfl
  · rw [hnames]
    split
    · exact h.nodup
    · next habsent =>
      rw [List.nodup_append]
      refine ⟨h.nodup, by simp, ?_⟩
      rintro name hname other hother rfl
      exact habsent (List.mem_singleton.mp hother ▸ hname)

end Coherent

/-- A name has an entry if it is among the names. -/
theorem isSome_entryOf? (e : Evidence) (key : String) :
    (e.entryOf? key).isSome = true ↔ lowercase key ∈ e.names := by
  rw [entryOf?, List.find?_isSome, names, List.mem_map]
  simp only [decide_eq_true_eq]

/-- The entry of a name has it. -/
theorem lowercase_of_entryOf? {key : String} {entry : Entry} (h : e.entryOf? key = some entry) :
    lowercase entry.key = lowercase key := by
  simpa using List.find?_some h

/-- The entry of a name is the only one that has it. -/
theorem Coherent.entryOf?_eq_some_iff (h : e.Coherent) {key : String} {entry : Entry} :
    e.entryOf? key = some entry ↔ entry ∈ e.entries ∧ lowercase entry.key = lowercase key := by
  refine ⟨fun hfound => ⟨List.mem_of_find?_eq_some hfound, lowercase_of_entryOf? hfound⟩, ?_⟩
  rintro ⟨hentry, hname⟩
  have hsome : (e.entryOf? key).isSome = true :=
    (isSome_entryOf? e key).mpr (List.mem_map.mpr ⟨entry, hentry, hname⟩)
  obtain ⟨found, hfound⟩ := Option.isSome_iff_exists.mp hsome
  rw [hfound, Option.some_inj]
  exact List.inj_on_of_nodup_map h.nodup (List.mem_of_find?_eq_some hfound) hentry
    ((lowercase_of_entryOf? hfound).trans hname.symm)

/-- A name has one spelling. -/
theorem Coherent.eq_of_lowercase_eq (h : e.Coherent) {key other : String} (hkey : key ∈ e.keys)
    (hother : other ∈ e.keys) (hsame : lowercase key = lowercase other) : key = other :=
  List.inj_on_of_nodup_map (names_eq_keys e ▸ h.nodup) hkey hother hsame

/-- A value given to a name in any spelling is the value of the name. -/
theorem Coherent.get?_add (h : e.Coherent) (key query : String) (value : Json) :
    (e.add key value).get? query =
      if lowercase query = lowercase key then some value else e.get? query := by
  rw [(h.add key value).get?_eq, h.get?_eq, h.add_eq]
  by_cases hpresent : lowercase key ∈ e.names
  · have hchanged : Evidence.entryOf? { e with entries := e.entries.map (Entry.receive key value) } query =
        (e.entryOf? query).map (Entry.receive key value) := by
      rw [entryOf?, List.find?_map]
      simp only [Function.comp_def, Entry.key_receive]
      rfl
    rw [if_pos hpresent, hchanged, Option.map_map]
    cases hentry : e.entryOf? query with
    | none =>
      have hother : lowercase query ≠ lowercase key := by
        intro hsame
        rw [← hsame, ← isSome_entryOf?, hentry] at hpresent
        cases hpresent
      rw [if_neg hother]
      rfl
    | some entry =>
      rw [Option.map_some, Function.comp_apply, Entry.value_receive, lowercase_of_entryOf? hentry]
      split <;> rfl
  · have happended : Evidence.entryOf?
          { entries := e.entries ++ [⟨key, value⟩], index := e.index ++ [(lowercase key, e.entries.length)] }
          query =
        (e.entryOf? query).or (if lowercase key = lowercase query then some ⟨key, value⟩ else none) := by
      rw [entryOf?, List.find?_append, List.find?_singleton]
      simp only [decide_eq_true_eq]
      rfl
    rw [if_neg hpresent, happended]
    by_cases hsame : lowercase query = lowercase key
    · have hnone : e.entryOf? query = none := by
        rw [← Option.not_isSome_iff_eq_none, isSome_entryOf?, hsame]
        exact hpresent
      rw [hnone, if_pos hsame.symm, if_pos hsame]
      rfl
    · rw [if_neg (Ne.symm hsame), if_neg hsame, Option.or_none]

/-! ## Evidence that is given pair by pair -/

/-- What is given under a name, in any spelling. -/
def given (pairs : List (String × Json)) (key : String) : List (String × Json) :=
  pairs.filter fun pair => lowercase pair.1 = lowercase key

/-- What is given under a key are the pairs with its name. -/
theorem mem_given {pairs : List (String × Json)} {key : String} {pair : String × Json} :
    pair ∈ given pairs key ↔ pair ∈ pairs ∧ lowercase pair.1 = lowercase key := by
  rw [given, List.mem_filter, decide_eq_true_eq]

/-- A name may be spelled in any way. -/
theorem given_congr {key other : String} (h : lowercase key = lowercase other)
    (pairs : List (String × Json)) : given pairs key = given pairs other := by
  rw [given, given, h]

/-- The pair that comes last is added last. -/
theorem ofList_concat (pairs : List (String × Json)) (pair : String × Json) :
    ofList (pairs ++ [pair]) = (ofList pairs).add pair.1 pair.2 := by
  rw [ofList, addAll, List.foldl_concat]
  rfl

/-- Evidence that is added to none is coherent. -/
theorem coherent_ofList (pairs : List (String × Json)) : (ofList pairs).Coherent := by
  induction pairs using List.reverseRecOn with
  | nil => exact .empty
  | append_singleton pairs pair ih =>
    rw [ofList_concat]
    exact ih.add pair.1 pair.2

/-- Pairs under different names become entries as they are. -/
theorem entries_ofList {pairs : List (String × Json)}
    (hnodup : (pairs.map fun pair => lowercase pair.1).Nodup) :
    (ofList pairs).entries = pairs.map fun pair => ⟨pair.1, pair.2⟩ := by
  induction pairs using List.reverseRecOn with
  | nil => rfl
  | append_singleton pairs pair ih =>
    rw [List.map_append, List.map_singleton, List.nodup_append] at hnodup
    obtain ⟨hbefore, -, hnew⟩ := hnodup
    have habsent : lowercase pair.1 ∉ (ofList pairs).names := by
      rw [names, ih hbefore, List.map_map]
      exact fun hmem => hnew _ hmem _ (List.mem_singleton_self _) rfl
    rw [ofList_concat, (coherent_ofList pairs).add_eq, if_neg habsent, List.map_append, ← ih hbefore]
    rfl

/-- The last element is filtered by itself. -/
theorem filter_concat {α : Type} (keeps : α → Bool) (before : List α) (last : α) :
    (before ++ [last]).filter keeps =
      if keeps last then before.filter keeps ++ [last] else before.filter keeps := by
  rw [List.filter_append]
  split
  · next hkeeps => rw [List.filter_cons_of_pos hkeeps, List.filter_nil]
  · next hdrops => rw [List.filter_cons_of_neg hdrops, List.filter_nil, List.append_nil]

/-- The pair that comes last is given under its name. -/
theorem given_concat (pairs : List (String × Json)) (pair : String × Json) (key : String) :
    given (pairs ++ [pair]) key =
      if lowercase pair.1 = lowercase key then given pairs key ++ [pair] else given pairs key := by
  simp only [given, filter_concat, decide_eq_true_eq]

/-- The value of a name is the last one given under it. -/
theorem get?_ofList (pairs : List (String × Json)) (key : String) :
    (ofList pairs).get? key = (given pairs key).getLast?.map (·.2) := by
  induction pairs using List.reverseRecOn with
  | nil => rfl
  | append_singleton pairs pair ih =>
    rw [ofList_concat, (coherent_ofList pairs).get?_add, ih, given_concat]
    by_cases hsame : lowercase key = lowercase pair.1
    · rw [if_pos hsame, if_pos hsame.symm, List.getLast?_concat]
      rfl
    · rw [if_neg hsame, if_neg (Ne.symm hsame)]

/-- The names are those under which something was given. -/
theorem mem_names_ofList (pairs : List (String × Json)) (key : String) :
    lowercase key ∈ (ofList pairs).names ↔ given pairs key ≠ [] := by
  rw [← isSome_entryOf?, ← Option.isSome_map, ← (coherent_ofList pairs).get?_eq, get?_ofList,
    Option.isSome_map, List.getLast?_isSome]

/-- Under a new name the spelling is kept. -/
theorem keys_ofList_concat (pairs : List (String × Json)) (pair : String × Json) :
    (ofList (pairs ++ [pair])).keys =
      if given pairs pair.1 = [] then (ofList pairs).keys ++ [pair.1] else (ofList pairs).keys := by
  rw [ofList_concat, (coherent_ofList pairs).keys_add]
  by_cases hnone : given pairs pair.1 = []
  · rw [if_neg (by rw [mem_names_ofList]; exact not_not_intro hnone), if_pos hnone]
  · rw [if_pos ((mem_names_ofList pairs pair.1).mpr hnone), if_neg hnone]

/-- The spelling of a name is the first one given. -/
theorem mem_keys_ofList (pairs : List (String × Json)) (key : String) :
    key ∈ (ofList pairs).keys ↔ (given pairs key).head?.map (·.1) = some key := by
  induction pairs using List.reverseRecOn with
  | nil => simp [ofList, addAll, empty, keys, given]
  | append_singleton pairs pair ih =>
    rw [keys_ofList_concat, given_concat]
    by_cases hsame : lowercase pair.1 = lowercase key
    · rw [given_congr hsame, if_pos hsame]
      cases hgiven : given pairs key with
      | nil =>
        rw [hgiven] at ih
        simp [ih, eq_comm]
      | cons first rest =>
        rw [hgiven] at ih
        simpa using ih
    · rw [if_neg hsame, ← ih]
      split
      · have hother : key ≠ pair.1 := fun heq => hsame (congrArg lowercase heq.symm)
        simp [hother]
      · rfl

end EvidenceFlow.Evidence
