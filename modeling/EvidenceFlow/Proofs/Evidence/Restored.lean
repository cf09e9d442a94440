import EvidenceFlow.Records
import EvidenceFlow.Proofs.Evidence.Additions
import EvidenceFlow.Proofs.Text.AsciiCase

/-!
# Evidence that is read back

A record holds the entries of evidence, without the index. Until the next addition the evidence that is
read back finds an entry by its spelling up to the case of ASCII letters only, where the evidence that was
recorded goes by lower case. The addition makes the index again, and from then on the two are the same.
-/

namespace EvidenceFlow.Evidence

open Text

variable {e : Evidence}

/-! ## The record -/

/-- An entry comes back from its record. -/
theorem Entry.ofRecord?_toRecord (entry : Entry) : Entry.ofRecord? entry.toRecord = some entry := rfl

/-- Evidence is read back with its entries and no index. -/
theorem ofRecord?_toRecord (e : Evidence) : ofRecord? e.toRecord = some (ofEntries e.entries) := by
  have hentries : (e.entries.map Entry.toRecord).mapM Entry.ofRecord? = some e.entries := by
    induction e.entries with
    | nil => rfl
    | cons entry rest ih =>
      rw [List.map_cons, List.mapM_cons, Entry.ofRecord?_toRecord, ih]
      rfl
  change (do return ofEntries (← (e.entries.map Entry.toRecord).mapM Entry.ofRecord?)) = _
  rw [hentries]
  rfl

/-! ## The index -/

/-- New names take the positions behind the others. -/
theorem indexFrom_eq {entries : List Entry} {index : Table String Nat} {position : Nat}
    (hnodup : (index.keys ++ entries.map fun entry => lowercase entry.key).Nodup) :
    indexFrom position index entries =
      index ++ (entries.map fun entry => lowercase entry.key).zipIdx position := by
  induction entries generalizing index position with
  | nil => exact (List.append_nil index).symm
  | cons entry rest ih =>
    rw [List.map_cons] at hnodup ⊢
    have hnew : lowercase entry.key ∉ index.keys := fun hmem =>
      (List.nodup_append.mp hnodup).2.2 _ hmem _ List.mem_cons_self rfl
    rw [indexFrom, Table.put_of_not_mem hnew, ih, List.append_assoc]
    · rfl
    · rwa [Table.keys, List.map_append, List.append_assoc]

namespace Coherent

/-- The index that is made again is the one that was left out. -/
theorem reindexed_ofEntries (h : e.Coherent) : (ofEntries e.entries).reindexed = e := by
  obtain ⟨entries, index⟩ := e
  have hindex : indexFrom 0 [] entries = index :=
    (indexFrom_eq (by simpa [Table.keys, names] using h.nodup)).trans h.index_eq.symm
  cases entries with
  | nil => exact congrArg (Evidence.mk []) hindex
  | cons entry rest =>
    have hbehind : (ofEntries (entry :: rest)).isIndexed = false := rfl
    rw [reindexed, if_neg (Bool.eq_false_iff.mp hbehind)]
    exact congrArg (Evidence.mk (entry :: rest)) hindex

/-- An addition makes the evidence that is read back and the evidence that was recorded the same. -/
theorem add_ofEntries (h : e.Coherent) (key : String) (value : Json) :
    (ofEntries e.entries).add key value = e.add key value := by
  have hsame : e.reindexed = e := if_pos h.isIndexed
  rw [Evidence.add, Evidence.add, h.reindexed_ofEntries, hsame]

/-! ## Look-ups -/

/-- The entry that has a spelling up to the case of ASCII letters is the entry of its name, if that has. -/
theorem find?_eqUpToAsciiCase (h : e.Coherent) (key : String) :
    (e.entries.find? fun entry => eqUpToAsciiCase entry.key key) =
      (e.entryOf? key).filter fun entry => eqUpToAsciiCase entry.key key := by
  have hname {entry : Entry} (hspelled : eqUpToAsciiCase entry.key key = true) (hentry : entry ∈ e.entries) :
      e.entryOf? key = some entry :=
    h.entryOf?_eq_some_iff.mpr ⟨hentry, lowercase_congr hspelled⟩
  refine Option.ext fun entry => ?_
  rw [Option.filter_eq_some_iff]
  refine ⟨fun hfound => ?_, fun ⟨hentry, hspelled⟩ => ?_⟩
  · have hspelled : eqUpToAsciiCase entry.key key = true := by simpa using List.find?_some hfound
    exact ⟨hname hspelled (List.mem_of_find?_eq_some hfound), hspelled⟩
  · have hsome : (e.entries.find? fun entry => eqUpToAsciiCase entry.key key).isSome = true :=
      List.find?_isSome.mpr ⟨entry, (h.entryOf?_eq_some_iff.mp hentry).1, hspelled⟩
    obtain ⟨found, hfound⟩ := Option.isSome_iff_exists.mp hsome
    have hfirst : eqUpToAsciiCase found.key key = true := by simpa using List.find?_some hfound
    rw [hfound, ← hentry, hname hfirst (List.mem_of_find?_eq_some hfound)]

end Coherent

/-- Without an index look-ups go through the entries. -/
theorem position?_ofEntries (entries : List Entry) (key : String) :
    (ofEntries entries).position? key = entries.findIdx? fun entry => eqUpToAsciiCase entry.key key := by
  cases entries with
  | nil => rfl
  | cons entry rest => exact if_neg (Bool.eq_false_iff.mp rfl)

/-- Before an addition, the evidence that is read back has the value of a name if the entry is spelled so up
to the case of ASCII letters, and else none. -/
theorem Coherent.answers_ofEntries (h : e.Coherent) (key : String) :
    ((ofEntries e.entries).get? key =
        ((e.entryOf? key).filter fun entry => eqUpToAsciiCase entry.key key).map (·.value)) ∧
      (ofEntries e.entries).contains key =
        ((e.entryOf? key).filter fun entry => eqUpToAsciiCase entry.key key).isSome := by
  rw [← h.find?_eqUpToAsciiCase]
  exact answers_of_position? (position?_ofEntries e.entries key)

/-- The entry of a name is spelled as the name was when it was first given. -/
theorem key_entryOf?_ofList (pairs : List (String × Json)) (key : String) :
    ((ofList pairs).entryOf? key).map (·.key) = (given pairs key).head?.map (·.1) := by
  cases hentry : (ofList pairs).entryOf? key with
  | none =>
    have hnone : lowercase key ∉ (ofList pairs).names := by
      rw [← isSome_entryOf?, hentry]
      exact Bool.false_ne_true
    rw [mem_names_ofList, not_not] at hnone
    rw [hnone]
    rfl
  | some entry =>
    have hkey : entry.key ∈ (ofList pairs).keys := List.mem_map_of_mem (List.mem_of_find?_eq_some hentry)
    rw [mem_keys_ofList, given_congr (lowercase_of_entryOf? hentry)] at hkey
    exact hkey.symm

/-- The name is spelled, up to the case of ASCII letters, as it was when it was first given, if it was. -/
def SpelledAsFirst (pairs : List (String × Json)) (key : String) : Prop :=
  ∀ first ∈ (given pairs key).head?, eqUpToAsciiCase first.1 key = true

/-- A key is spelled as the first of its name if the entry that is kept has its spelling. -/
theorem spelledAsFirst_iff (pairs : List (String × Json)) (key : String) :
    SpelledAsFirst pairs key ↔
      ∀ entry ∈ (ofList pairs).entryOf? key, eqUpToAsciiCase entry.key key = true := by
  have hspelling :
      (∀ spelling ∈ ((ofList pairs).entryOf? key).map (·.key), eqUpToAsciiCase spelling key = true) ↔
        ∀ spelling ∈ (given pairs key).head?.map (·.1), eqUpToAsciiCase spelling key = true := by
    rw [key_entryOf?_ofList]
  simpa [SpelledAsFirst] using hspelling.symm

/-- Evidence that is built by additions, recorded and read back has the same entries. It answers for a name
as it did before exactly if the name is spelled, up to the case of ASCII letters, as it was when it was first
given; for other spellings it has no value. After any additions the entries are the same, and after the first
one so is the rest. -/
theorem restored_answers_iff (pairs : List (String × Json)) :
    ∃ back, ofRecord? (ofList pairs).toRecord = some back ∧
      (∀ key, (back.get? key = (ofList pairs).get? key ↔ SpelledAsFirst pairs key) ∧
        (back.contains key = (ofList pairs).contains key ↔ SpelledAsFirst pairs key) ∧
        (¬SpelledAsFirst pairs key → back.get? key = none ∧ back.contains key = false)) ∧
      ∀ more, (back.addAll more).entries = ((ofList pairs).addAll more).entries ∧
        (more ≠ [] → back.addAll more = (ofList pairs).addAll more) := by
  have hcoherent := coherent_ofList pairs
  refine ⟨ofEntries (ofList pairs).entries, ofRecord?_toRecord _, fun key => ?_, fun more => ?_⟩
  · rw [spelledAsFirst_iff]
    obtain ⟨hget, hcontains⟩ := hcoherent.answers_ofEntries key
    rw [hget, hcontains, hcoherent.get?_eq, hcoherent.contains_eq]
    cases (ofList pairs).entryOf? key with
    | none => simp
    | some entry => cases hsame : eqUpToAsciiCase entry.key key <;> simp [hsame]
  · cases more with
    | nil => exact ⟨rfl, fun hne => absurd rfl hne⟩
    | cons pair rest =>
      have hsame : (ofEntries (ofList pairs).entries).addAll (pair :: rest) =
          (ofList pairs).addAll (pair :: rest) :=
        congrArg (fun e => e.addAll rest) (hcoherent.add_ofEntries pair.1 pair.2)
      exact ⟨congrArg entries hsame, fun _ => hsame⟩

/-- An accented capital is not found under its small letter in evidence that is read back. -/
theorem restored_answers_ne_of_accent :
    ∃ back, ofRecord? (ofList [("É", .int 1)]).toRecord = some back ∧
      back.get? "é" ≠ (ofList [("É", .int 1)]).get? "é" ∧
      back.contains "é" ≠ (ofList [("É", .int 1)]).contains "é" := by
  refine ⟨ofEntries [⟨"É", .int 1⟩], rfl, fun heq => ?_, by decide +kernel⟩
  have hsome := congrArg Option.isSome heq
  revert hsome
  decide +kernel

end EvidenceFlow.Evidence
