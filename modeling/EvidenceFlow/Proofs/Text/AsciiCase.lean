import EvidenceFlow.Text.LowerCase

/-!
# The case of ASCII letters

Texts that are equal up to the case of their ASCII letters have one lower case. Beyond ASCII only a capital
sigma looks at its neighbours, and it looks for letters, whatever their case.
-/

namespace EvidenceFlow.Text

/-! ## Characters -/

/-- A character stays or is a capital, whose small letter lies behind all of them. -/
theorem lowerAscii_cases (c : Char) :
    lowerAscii c = c ∨ 0x41 ≤ c.toNat ∧ c.toNat ≤ 0x5A ∧ (lowerAscii c).toNat = c.toNat + 32 := by
  by_cases hcapital : 'A' ≤ c ∧ c ≤ 'Z'
  · have hfirst : 0x41 ≤ c.toNat := hcapital.1
    have hlast : c.toNat ≤ 0x5A := hcapital.2
    have hvalid : (c.toNat + 32).isValidChar := Or.inl (by omega)
    refine Or.inr ⟨hfirst, hlast, ?_⟩
    rw [lowerAscii, if_pos hcapital, Char.ofNat, dif_pos hvalid]
    rfl
  · exact Or.inl (if_neg hcapital)

/-- A small letter stays as it is. -/
@[simp] theorem lowerAscii_lowerAscii (c : Char) : lowerAscii (lowerAscii c) = lowerAscii c := by
  rcases lowerAscii_cases c with hsame | ⟨hfirst, -, hsmall⟩
  · rw [hsame, hsame]
  · refine (lowerAscii_cases (lowerAscii c)).resolve_right fun hcapital => ?_
    omega

/-- No character that is looked through is an ASCII letter. -/
theorem misses_of_mem_caseIgnorableRanges : ∀ range ∈ caseIgnorableRanges,
    range.2 < 0x41 ∨ 0x5A < range.1 ∧ range.2 < 0x61 ∨ 0x7A < range.1 := by
  decide +kernel

/-- Whether a character is ignored by the rule for sigma does not depend on the case of ASCII letters. -/
@[simp] theorem isCaseIgnorable_lowerAscii (c : Char) : isCaseIgnorable (lowerAscii c) = isCaseIgnorable c := by
  rcases lowerAscii_cases c with hsame | ⟨hfirst, hlast, hsmall⟩
  · rw [hsame]
  · have houtside {code : Nat} (hcode : 0x41 ≤ code ∧ code ≤ 0x5A ∨ 0x61 ≤ code ∧ code ≤ 0x7A) :
        inRanges caseIgnorableRanges code = false := by
      rw [← Bool.not_eq_true, inRanges_eq_true]
      rintro ⟨range, hrange, hcovers⟩
      have := misses_of_mem_caseIgnorableRanges range hrange
      omega
    rw [isCaseIgnorable, isCaseIgnorable, houtside (by omega), houtside (by omega)]

/-- Whether a character is cased does not depend on the case of ASCII letters. -/
@[simp] theorem isCased_lowerAscii (c : Char) : isCased (lowerAscii c) = isCased c := by
  rcases lowerAscii_cases c with hsame | ⟨hfirst, hlast, hsmall⟩
  · rw [hsame]
  · have hcapital : isCased c = true :=
      inRanges_eq_true.mpr ⟨(0x41, 0x5A), List.mem_cons_self, hfirst, hlast⟩
    have hletter : isCased (lowerAscii c) = true := by
      refine inRanges_eq_true.mpr ⟨(0x61, 0x7A), List.mem_cons_of_mem _ List.mem_cons_self, ?_⟩
      dsimp only
      omega
    rw [hcapital, hletter]

/-! ## Texts -/

/-- Whether the nearest character that counts is a letter does not depend on the case of ASCII letters. -/
theorem letterNext_map_lowerAscii (chars : List Char) :
    letterNext (chars.map lowerAscii) = letterNext chars := by
  have hlook : isCaseIgnorable ∘ lowerAscii = isCaseIgnorable := funext isCaseIgnorable_lowerAscii
  rw [letterNext, letterNext, List.dropWhile_map, hlook]
  cases chars.dropWhile isCaseIgnorable with
  | nil => rfl
  | cons c rest => exact isCased_lowerAscii c

/-- The lower case of a character does not depend on the case of ASCII letters around it. -/
theorem lowerChar_lowerAscii (before : List Char) (c : Char) (after : List Char) :
    lowerChar (before.map lowerAscii) (lowerAscii c) (after.map lowerAscii) = lowerChar before c after := by
  simp only [lowerChar, letterNext_map_lowerAscii, lowerAscii_lowerAscii]
  rcases lowerAscii_cases c with hsame | ⟨-, hlast, hsmall⟩
  · rw [hsame]
  · rw [if_pos (by omega), if_pos (by omega)]

/-- The lower case of a text does not depend on the case of its ASCII letters. -/
theorem lowerFrom_map_lowerAscii (before chars : List Char) :
    lowerFrom (before.map lowerAscii) (chars.map lowerAscii) = lowerFrom before chars := by
  induction chars generalizing before with
  | nil => rfl
  | cons c after ih =>
    rw [List.map_cons, lowerFrom, lowerFrom, lowerChar_lowerAscii, ← List.map_cons, ih]

/-- Texts that are equal up to the case of ASCII letters have one lower case. -/
theorem lowercase_congr {a b : String} (h : eqUpToAsciiCase a b = true) : lowercase a = lowercase b := by
  rw [eqUpToAsciiCase, beq_iff_eq] at h
  rw [lowercase, lowercase, ← lowerFrom_map_lowerAscii [] a.toList, h, lowerFrom_map_lowerAscii]

end EvidenceFlow.Text
