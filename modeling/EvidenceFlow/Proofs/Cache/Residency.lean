import EvidenceFlow.Proofs.Cache.RecencyHistory
import EvidenceFlow.Proofs.Cache.StoreRuns

/-!
# What stays in a store

As long as nothing is removed, a store with one segment holds the keys that were touched last, as many as
it has room for. A key is touched when it is put and new, when a value replaces the one held under it, and
when a look-up finds it. All other uses, such as a look-up that finds nothing or a value that is put and
not taken, leave no trace in what is held and in what is pushed out later.
-/

namespace EvidenceFlow

variable {κ ν : Type}

/-- Whether the command takes entries away that have room. -/
def StoreCommand.drops : StoreCommand κ ν → Bool
  | remove _ | reset => true
  | get _ | put _ _ | putIfAbsent _ _ | contains _ | size | keys _ => false

namespace Lru

/-- A store of one segment has room for an entry. -/
theorem Alone.room {c : Lru κ ν} {update : Bool} {r : Recency κ ν} (h : c.Alone update r) : 0 < r.capacity :=
  h.holds.room 0 (h.single ▸ Nat.one_pos)

variable [DecidableEq κ]

/-! ## Touches -/

/-- The key that a command touches in the store. -/
def touched? (c : Lru κ ν) : StoreCommand κ ν → Option κ
  | .get key => if (c.get key).1.isSome then some key else none
  | .put key _ => if c.contains key && !c.updateExisting then none else some key
  | .putIfAbsent key _ => if c.contains key then none else some key
  | .remove _ | .contains _ | .reset | .size | .keys _ => none

/-- The keys that a run touches, the latest touch first. -/
def touches (c : Lru κ ν) : List (StoreCommand κ ν) → List κ
  | [] => []
  | command :: rest => (c.answer command).2.touches rest ++ (c.touched? command).toList

namespace Alone

variable {c : Lru κ ν} {update : Bool} {r : Recency κ ν}

/-- A key is there if the list has a value for it. -/
theorem contains_eq (h : c.Alone update r) (key : κ) : c.contains key = (r.peek? key).isSome :=
  h.holds.contains_eq key

/-- A command touches no key and changes nothing of the list, or the key that it touches comes to the
front. -/
theorem answer_cases (h : c.Alone update r) {command : StoreCommand κ ν} (hkeeps : command.drops = false) :
    (c.touched? command = none ∧ (r.answer update command).2 = r) ∨
      ∃ key, c.touched? command = some key ∧
        ∀ past, r.Recalls past → (r.answer update command).2.Recalls (key :: past) := by
  cases command with
  | get key =>
    rw [touched?, (h.get key).1]
    cases hpeek : r.peek? key with
    | none =>
      refine Or.inl ⟨rfl, ?_⟩
      simp only [Recency.answer, Recency.get, hpeek]
    | some value => exact Or.inr ⟨key, rfl, fun past hpast => hpast.get (hpeek ▸ rfl)⟩
  | put key value =>
    rw [touched?, h.contains_eq, h.updates]
    cases hpeek : r.peek? key with
    | none => exact Or.inr ⟨key, rfl, fun past hpast => hpast.insert h.room hpeek update value⟩
    | some held =>
      cases update with
      | true => exact Or.inr ⟨key, rfl, fun past hpast => hpast.replace (hpeek ▸ rfl) value⟩
      | false =>
        refine Or.inl ⟨rfl, ?_⟩
        simp [Recency.answer, Recency.put, hpeek]
  | putIfAbsent key value =>
    have hlist : (r.answer update (.putIfAbsent key value)).2 = r.put false key value :=
      (r.put_false key value).symm
    rw [touched?, h.contains_eq, hlist]
    cases hpeek : r.peek? key with
    | none => exact Or.inr ⟨key, rfl, fun past hpast => hpast.insert h.room hpeek false value⟩
    | some held =>
      refine Or.inl ⟨rfl, ?_⟩
      simp [Recency.put, hpeek]
  | remove key => cases hkeeps
  | reset => cases hkeeps
  | contains key => exact Or.inl ⟨rfl, rfl⟩
  | size => exact Or.inl ⟨rfl, rfl⟩
  | keys i => exact Or.inl ⟨rfl, rfl⟩

/-- After a run that removes nothing, the list recalls what the run has touched. -/
theorem recalls_answers (h : c.Alone update r) {past : List κ} (hpast : r.Recalls past)
    {commands : List (StoreCommand κ ν)} (hkeeps : ∀ command ∈ commands, command.drops = false) :
    (EvidenceFlow.answers (Recency.answer update) commands r).2.Recalls (c.touches commands ++ past) := by
  induction commands generalizing c r past with
  | nil => exact hpast
  | cons command rest ih =>
    obtain ⟨hfirst, hrest⟩ := List.forall_mem_cons.mp hkeeps
    have halone := (h.answer command).2
    rw [touches, List.append_assoc]
    refine ih halone ?_ hrest
    rcases h.answer_cases hfirst with ⟨hnone, hsame⟩ | ⟨key, hkey, htouch⟩
    · rw [hnone, hsame]
      exact hpast
    · rw [hkey]
      exact htouch past hpast

end Alone

/-! ## Runs from the empty store -/

/-- Made with valid settings that ask for one segment, a store on which nothing is removed holds the keys
touched last, as many as there is room for and the latest in front. So a key is there exactly if it was
touched and fewer other keys than there is room for have been touched since; and a use that touches no key
changes no later answer. -/
theorem segmentKeys_eq_recent (place : κ → Nat) {settings : LruSettings}
    (hvalid : settings.validate = .ok ()) (hone : settings.segmentCount = 1) :
    ∃ c : Lru κ ν, make place settings = .ok c ∧ c.segmentCount = 1 ∧
      ∀ commands : List (StoreCommand κ ν), (∀ command ∈ commands, command.drops = false) →
        let store := (answers answer commands c).2
        store.segmentKeys 0 = Recency.recent settings.capacity (c.touches commands) ∧
        (∀ key, store.contains key = true ↔
          key ∈ c.touches commands ∧
            ((c.touches commands).takeWhile (· ≠ key)).toFinset.card < settings.capacity) ∧
        ∀ command, command.drops = false → store.touched? command = none →
          ∀ later,
            (answers answer later (store.answer command).2).1 = (answers answer later store).1 ∧
            (answers answer later (store.answer command).2).2.segmentKeys 0 =
              (answers answer later store).2.segmentKeys 0 := by
  have halone := Alone.ofSettings (ν := ν) place hvalid hone
  refine ⟨ofSettings place settings, ?_, halone.single, fun commands hkeeps => ?_⟩
  · rw [make, hvalid]
    rfl
  intro store
  have hstore := (halone.answers commands).2
  have hrecalls := halone.recalls_answers (.empty settings.capacity) hkeeps
  rw [List.append_nil] at hrecalls
  have hroom : (answers (Recency.answer settings.updateExisting) commands
      (.empty settings.capacity)).2.capacity = settings.capacity := Recency.capacity_answers _ _ _
  refine ⟨?_, fun key => ?_, fun command hcommand hnone later => ?_⟩
  · rw [hstore.segmentKeys_eq 0, if_pos rfl, hrecalls, hroom]
  · rw [hstore.contains_eq, hrecalls.isSome_peek?_iff, hroom]
  · have hafter := (hstore.answer command).2
    rcases hstore.answer_cases hcommand with ⟨-, hsame⟩ | ⟨key, hkey, -⟩
    · rw [hsame] at hafter
      obtain ⟨hanswers, hend⟩ := hafter.answers later
      obtain ⟨hanswers', hend'⟩ := hstore.answers later
      exact ⟨hanswers.trans hanswers'.symm, by rw [hend.segmentKeys_eq, hend'.segmentKeys_eq]⟩
    · rw [hnone] at hkey
      cases hkey

/-- Where values stay, a value that is not taken, a look-up that finds nothing and a question do not keep a
key from being pushed out, and a look-up that finds the other one does. -/
theorem segmentKeys_eq_recent_of_two :
    ∃ c : Lru Nat Nat, make id { capacity := 2, updateExisting := false } = .ok c ∧
      let commands : List (StoreCommand Nat Nat) :=
        [.put 1 10, .put 2 20, .get 1, .put 2 21, .contains 2, .get 3, .putIfAbsent 3 30]
      (∀ command ∈ commands, command.drops = false) ∧
        (answers answer commands c).2.segmentKeys 0 = [3, 1] := by
  obtain ⟨c, hmake, -, hruns⟩ :=
    segmentKeys_eq_recent (κ := Nat) (ν := Nat) id
      (show LruSettings.validate { capacity := 2, updateExisting := false } = .ok () from rfl) rfl
  refine ⟨c, hmake, ?_⟩
  intro commands
  have hkeeps : ∀ command ∈ commands, command.drops = false := by decide
  refine ⟨hkeeps, (hruns commands hkeeps).1.trans ?_⟩
  cases hmake
  decide +kernel

end Lru

end EvidenceFlow
