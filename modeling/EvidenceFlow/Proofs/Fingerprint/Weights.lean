import EvidenceFlow.Fingerprint
import Mathlib.Data.List.Basic

/-!
# Fingerprints weight by weight

A fingerprint puts heavier parts first and keeps the parts of one weight in the order in which they were
given. So it tells just this order, weight by weight: what has different weights may be given in any order,
and two different parts of one weight may not change places.
-/

namespace EvidenceFlow.Fingerprint

open Text

/-! ## Parts in order -/

/-- The parts of one weight. -/
def atWeight (weight : Int) (parts : List Part) : List Part :=
  parts.filter fun part => part.weight = weight

/-- The parts of one weight are those that have it. -/
theorem mem_atWeight {weight : Int} {parts : List Part} {part : Part} :
    part ∈ atWeight weight parts ↔ part ∈ parts ∧ part.weight = weight := by
  rw [atWeight, List.mem_filter, decide_eq_true_eq]

/-- The first part is among those of its own weight. -/
theorem atWeight_cons (weight : Int) (part : Part) (parts : List Part) :
    atWeight weight (part :: parts) =
      if part.weight = weight then part :: atWeight weight parts else atWeight weight parts := by
  rw [atWeight, List.filter_cons]
  simp only [decide_eq_true_eq]
  rfl

/-- Heavier parts come first. -/
def Descending (parts : List Part) : Prop :=
  parts.Pairwise fun a b => b.weight ≤ a.weight

/-- To be no heavier is passed on. -/
theorem weight_le_trans (a b c : Part) (hab : decide (b.weight ≤ a.weight) = true)
    (hbc : decide (c.weight ≤ b.weight) = true) : decide (c.weight ≤ a.weight) = true := by
  rw [decide_eq_true_eq] at *
  exact Int.le_trans hbc hab

/-- Of two parts one is no heavier than the other. -/
theorem weight_le_total (a b : Part) :
    (decide (b.weight ≤ a.weight) || decide (a.weight ≤ b.weight)) = true := by
  rw [Bool.or_eq_true, decide_eq_true_eq, decide_eq_true_eq]
  exact Int.le_total b.weight a.weight

/-- The parts of a fingerprint stand in the order of their weights. -/
theorem descending_ofParts (parts : List Part) : Descending (ofParts parts).parts :=
  (List.pairwise_mergeSort weight_le_trans weight_le_total parts).imp of_decide_eq_true

/-- Parts of one weight keep their order. -/
theorem atWeight_ofParts (weight : Int) (parts : List Part) :
    atWeight weight (ofParts parts).parts = atWeight weight parts := by
  have hordered : (atWeight weight parts).Pairwise fun a b => decide (b.weight ≤ a.weight) = true := by
    refine List.pairwise_of_forall_mem_list fun a ha b hb => decide_eq_true ?_
    exact Int.le_of_eq ((mem_atWeight.mp hb).2.trans (mem_atWeight.mp ha).2.symm)
  have hsublist : (atWeight weight parts).Sublist (ofParts parts).parts :=
    List.sublist_mergeSort weight_le_trans weight_le_total hordered List.filter_sublist
  have hkept : (atWeight weight parts).Sublist (atWeight weight (ofParts parts).parts) := by
    have hfiltered := hsublist.filter fun part => decide (part.weight = weight)
    rwa [atWeight, List.filter_filter, funext fun part => Bool.and_self _] at hfiltered
  have hlength : (atWeight weight (ofParts parts).parts).length = (atWeight weight parts).length :=
    ((List.mergeSort_perm parts _).filter _).length_eq
  exact (hkept.eq_of_length hlength.symm).symm

/-- The first part is the heaviest. -/
theorem Descending.weight_le {part first : Part} {rest : List Part} (h : Descending (first :: rest))
    (hpart : part ∈ first :: rest) : part.weight ≤ first.weight := by
  rcases List.mem_cons.mp hpart with rfl | hrest
  · exact Int.le_refl _
  · exact List.rel_of_pairwise_cons h hrest

/-- Lists with the same parts of each weight have the same parts. -/
theorem mem_iff_of_atWeight {xs ys : List Part} (h : ∀ weight, atWeight weight xs = atWeight weight ys)
    (part : Part) : part ∈ xs ↔ part ∈ ys := by
  have hclass : part ∈ atWeight part.weight xs ↔ part ∈ atWeight part.weight ys := by rw [h]
  simpa only [mem_atWeight, and_true] using hclass

/-- Parts in order of weight are told by those of each weight. -/
theorem Descending.eq_of_atWeight {xs ys : List Part} (hxs : Descending xs) (hys : Descending ys)
    (h : ∀ weight, atWeight weight xs = atWeight weight ys) : xs = ys := by
  induction xs generalizing ys with
  | nil =>
    refine (List.eq_nil_iff_forall_not_mem.mpr fun part hpart => ?_).symm
    exact List.not_mem_nil ((mem_iff_of_atWeight h part).mpr hpart)
  | cons x xs ih =>
    cases ys with
    | nil => exact absurd ((mem_iff_of_atWeight h x).mp List.mem_cons_self) List.not_mem_nil
    | cons y ys =>
      have hweight : x.weight = y.weight :=
        Int.le_antisymm (hys.weight_le ((mem_iff_of_atWeight h x).mp List.mem_cons_self))
          (hxs.weight_le ((mem_iff_of_atWeight h y).mpr List.mem_cons_self))
      obtain rfl : x = y := by
        have hfirst := h x.weight
        rw [atWeight_cons, atWeight_cons, if_pos rfl, if_pos hweight.symm] at hfirst
        exact (List.cons_eq_cons.mp hfirst).1
      have hrest (weight : Int) : atWeight weight xs = atWeight weight ys := by
        have hall := h weight
        rw [atWeight_cons, atWeight_cons] at hall
        split at hall
        · exact (List.cons_eq_cons.mp hall).2
        · exact hall
      exact congrArg (List.cons x) (ih hxs.tail hys.tail hrest)

/-- Parts make one fingerprint if those of each weight are the same in the same order. -/
theorem ofParts_eq_iff (xs ys : List Part) :
    ofParts xs = ofParts ys ↔ ∀ weight, atWeight weight xs = atWeight weight ys := by
  constructor
  · intro heq weight
    rw [← atWeight_ofParts, heq, atWeight_ofParts]
  · intro h
    have hparts : (ofParts xs).parts = (ofParts ys).parts := by
      refine (descending_ofParts xs).eq_of_atWeight (descending_ofParts ys) fun weight => ?_
      rw [atWeight_ofParts, atWeight_ofParts, h]
    exact congrArg Fingerprint.mk hparts

/-! ## Values that are given with their weights -/

/-- The name in lower case and the text of a weighted value. -/
def named (value : Int × String × Json) : String × String :=
  (lowercase value.2.1, value.2.2.canonicalText)

/-- What is given with one weight: the names in lower case and the texts of the values, in order. -/
def weighing (weight : Int) (values : List (Int × String × Json)) : List (String × String) :=
  (values.filter fun value => value.1 = weight).map named

/-- What is given later comes later among what has one weight. -/
theorem weighing_append (weight : Int) (xs ys : List (Int × String × Json)) :
    weighing weight (xs ++ ys) = weighing weight xs ++ weighing weight ys := by
  rw [weighing, List.filter_append, List.map_append]
  rfl

/-- The first value is among those of its own weight. -/
theorem weighing_cons (weight : Int) (value : Int × String × Json) (values : List (Int × String × Json)) :
    weighing weight (value :: values) =
      if value.1 = weight then named value :: weighing weight values else weighing weight values := by
  rw [weighing, List.filter_cons]
  simp only [decide_eq_true_eq]
  split <;> rfl

/-- Nothing is given with a weight that no value has. -/
theorem weighing_eq_nil_iff {weight : Int} {values : List (Int × String × Json)} :
    weighing weight values = [] ↔ ∀ value ∈ values, value.1 ≠ weight := by
  simp only [weighing, List.map_eq_nil_iff, List.filter_eq_nil_iff, decide_eq_true_eq, ne_eq]

/-- The parts of one weight are what is given with it. -/
theorem atWeight_ofWeighted (weight : Int) (values : List (Int × String × Json)) :
    atWeight weight (ofWeighted values).parts =
      (weighing weight values).map fun pair => ⟨weight, pair.1, pair.2⟩ := by
  rw [ofWeighted, atWeight_ofParts, atWeight, List.filter_map, weighing, List.map_map]
  refine List.map_congr_left fun value hvalue => ?_
  have hweight : value.1 = weight := of_decide_eq_true (List.mem_filter.mp hvalue).2
  exact congrArg (Part.mk · _ _) hweight

/-- Values make one fingerprint if what is given with each weight is the same. -/
theorem ofWeighted_eq_iff_weighing (xs ys : List (Int × String × Json)) :
    ofWeighted xs = ofWeighted ys ↔ ∀ weight, weighing weight xs = weighing weight ys := by
  have hinjective (weight : Int) :
      Function.Injective fun pair : String × String => Part.mk weight pair.1 pair.2 := by
    rintro ⟨name, text⟩ ⟨name', text'⟩ hsame
    cases hsame
    rfl
  constructor
  · intro heq weight
    refine List.map_injective_iff.mpr (hinjective weight) ?_
    rw [← atWeight_ofWeighted, heq, atWeight_ofWeighted]
  · intro h
    refine (ofParts_eq_iff _ _).mpr fun weight => ?_
    have hparts := atWeight_ofWeighted weight xs
    rw [h, ← atWeight_ofWeighted] at hparts
    rwa [ofWeighted, ofWeighted, atWeight_ofParts, atWeight_ofParts] at hparts

/-- Of values with different weights those that come first do not matter. -/
theorem weighing_append_comm {xs ys : List (Int × String × Json)} (h : ∀ x ∈ xs, ∀ y ∈ ys, x.1 ≠ y.1)
    (weight : Int) : weighing weight (ys ++ xs) = weighing weight (xs ++ ys) := by
  rw [weighing_append, weighing_append]
  by_cases hnone : weighing weight xs = []
  · rw [hnone, List.append_nil, List.nil_append]
  · have hother : weighing weight ys = [] := by
      rw [weighing_eq_nil_iff] at hnone ⊢
      intro y hy hweight
      exact hnone fun x hx heq => h x hx y hy (heq.trans hweight.symm)
    rw [hother, List.append_nil, List.nil_append]

/-- Fingerprints of weighted values are equal exactly if what is given with each weight is the same, element
by element, in lower-case names and texts. So values with different weights may be given in any order, and two
of one weight may change places just if their names and texts are the same. Heavier parts come first. -/
theorem ofWeighted_eq_iff (values : List (Int × String × Json)) :
    ((ofWeighted values).parts.Pairwise fun a b => b.weight ≤ a.weight) ∧
    (∀ others, ofWeighted values = ofWeighted others ↔
      ∀ weight, weighing weight values = weighing weight others) ∧
    (∀ before xs ys after, values = before ++ (xs ++ ys) ++ after → (∀ x ∈ xs, ∀ y ∈ ys, x.1 ≠ y.1) →
      ofWeighted (before ++ (ys ++ xs) ++ after) = ofWeighted values) ∧
    (∀ before x between y after, values = before ++ x :: (between ++ y :: after) → x.1 = y.1 →
      (ofWeighted (before ++ y :: (between ++ x :: after)) = ofWeighted values ↔ named x = named y)) := by
  refine ⟨descending_ofParts _, ofWeighted_eq_iff_weighing values, ?_, ?_⟩
  · rintro before xs ys after rfl hweights
    refine (ofWeighted_eq_iff_weighing _ _).mpr fun weight => ?_
    rw [weighing_append, weighing_append weight before, weighing_append_comm hweights, ← weighing_append,
      ← weighing_append]
  · rintro before x between y after rfl hweight
    constructor
    · intro heq
      have hgiven := (ofWeighted_eq_iff_weighing _ _).mp heq x.1
      rw [weighing_append, weighing_append, weighing_cons, weighing_cons, if_pos rfl, if_pos hweight.symm,
        List.append_cancel_left_eq] at hgiven
      exact (List.cons_eq_cons.mp hgiven).1.symm
    · intro hsame
      refine (ofWeighted_eq_iff_weighing _ _).mpr fun weight => ?_
      simp only [weighing_append, weighing_cons, hweight, hsame]

/-- A value with the least weight between two with the greatest. -/
def extremes : List (Int × String × Json) :=
  [(2147483647, "Model", .int 1), (-2147483648, "b", .null), (2147483647, "model", .str "2")]

/-- The light value may come first, but the heavy ones may not change places. -/
theorem ofWeighted_eq_iff_of_extremes :
    ofWeighted [(-2147483648, "b", .null), (2147483647, "Model", .int 1), (2147483647, "model", .str "2")] =
      ofWeighted extremes ∧
    ofWeighted [(2147483647, "model", .str "2"), (-2147483648, "b", .null), (2147483647, "Model", .int 1)] ≠
      ofWeighted extremes := by
  obtain ⟨-, -, hmoves, hswaps⟩ := ofWeighted_eq_iff extremes
  refine ⟨?_, fun heq => ?_⟩
  · refine hmoves [] [(2147483647, "Model", .int 1)] [(-2147483648, "b", .null)]
      [(2147483647, "model", .str "2")] rfl ?_
    simp
  · have hsame := (hswaps [] (2147483647, "Model", .int 1) [(-2147483648, "b", .null)]
      (2147483647, "model", .str "2") [] rfl rfl).mp heq
    exact absurd hsame (by decide +kernel)

end EvidenceFlow.Fingerprint
