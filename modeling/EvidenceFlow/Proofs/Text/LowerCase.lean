import EvidenceFlow.Text.LowerCase

/-!
# Lower case is final

A text in lower case stays as it is when it is put in lower case again: no small letter is a capital of
the table, and the characters that depend on their neighbours are capitals. Of all texts, only those that
are spelled in ASCII become a word of ASCII letters in lower case, the letter k aside.
-/

namespace EvidenceFlow.Text

namespace CaseRun

/-- Whether the small letters of the run lie before the capitals of the other one, behind them, or
between them. -/
-- Over all pairs of runs this is evaluated in a proof, where `Nat.blt` and `Nat.beq` are fast.
def misses (run other : CaseRun) : Bool :=
  (run.lower run.last).blt other.first || other.last.blt (run.lower run.first) ||
    (other.stride.beq 2 && (run.stride.beq 2 || run.first.beq run.last) &&
      Nat.blt 0 (run.lower run.first) && ((run.lower run.first + other.first) % 2).beq 1)

/-- The small letters of the run are characters other than the dotted capital I, and those of capitals
beyond ASCII are beyond ASCII, but for the letter k. -/
def IsPlaced (run : CaseRun) : Prop :=
  (run.lower run.last < 0xD800 ∨ 0xDFFF < run.lower run.first ∧ run.lower run.last < 0x110000) ∧
    (run.lower run.last < 0x130 ∨ 0x130 < run.lower run.first) ∧
    (run.last < 0x80 ∨ 0x80 ≤ run.lower run.first ∨
      run.lower run.first = 0x6B ∧ run.first = run.last)

instance (run : CaseRun) : Decidable run.IsPlaced := inferInstanceAs (Decidable (_ ∧ _))

/-- The capitals of a run are those between its ends that stand in its stride. -/
theorem covers_iff {run : CaseRun} {code : Nat} :
    run.covers code = true ↔
      run.first ≤ code ∧ code ≤ run.last ∧ (code - run.first) % run.stride = 0 := by
  simp [covers, and_assoc]

/-- A run misses another one if they lie apart, or if its small letters fall between the capitals of that one.
-/
theorem misses_iff {run other : CaseRun} :
    run.misses other = true ↔
      run.lower run.last < other.first ∨ other.last < run.lower run.first ∨
        other.stride = 2 ∧ (run.stride = 2 ∨ run.first = run.last) ∧ 0 < run.lower run.first ∧
          (run.lower run.first + other.first) % 2 = 1 := by
  simp [misses, and_assoc, or_assoc, Nat.blt_eq]

/-- The small letters of a run stand in the order of their capitals. -/
theorem lower_mono (run : CaseRun) {code other : Nat} (h : code ≤ other) :
    run.lower code ≤ run.lower other := by
  rw [lower, lower]
  omega

/-- A small letter of the run is no capital of one that it misses. -/
theorem covers_lower_of_misses {run other : CaseRun} (h : run.misses other = true) {code : Nat}
    (hcode : run.covers code = true) : other.covers (run.lower code) = false := by
  obtain ⟨hfirst, hlast, hstep⟩ := covers_iff.mp hcode
  have hlow := run.lower_mono hfirst
  have hhigh := run.lower_mono hlast
  rw [← Bool.not_eq_true, covers_iff]
  rintro ⟨hbegin, hend, hother⟩
  rcases misses_iff.mp h with hbefore | hbehind | ⟨htwo, hpairs, hpos, hodd⟩
  · omega
  · omega
  · rw [htwo] at hother
    have hparity : (run.lower code + run.lower run.first) % 2 = 0 := by
      rcases hpairs with hpairs | hsole
      · rw [hpairs] at hstep
        rw [lower] at hpos hlow hhigh ⊢
        rw [lower]
        omega
      · obtain rfl : code = run.first := by omega
        omega
    omega

/-- The small letter of a capital beyond ASCII is beyond ASCII or the letter k. -/
theorem IsPlaced.lower_spec {run : CaseRun} (h : run.IsPlaced) {code : Nat}
    (hcode : run.covers code = true) :
    (run.lower code).isValidChar ∧ run.lower code ≠ 0x130 ∧
      (0x80 ≤ code → 0x80 ≤ run.lower code ∨ run.lower code = 0x6B) := by
  obtain ⟨hfirst, hlast, -⟩ := covers_iff.mp hcode
  have hlow := run.lower_mono hfirst
  have hhigh := run.lower_mono hlast
  obtain ⟨hvalid, hdotted, hascii⟩ := h
  refine ⟨?_, by omega, fun hbeyond => ?_⟩
  · rw [Nat.isValidChar]
    omega
  · rcases hascii with hascii | hbeyond' | ⟨hk, hsole⟩
    · omega
    · omega
    · obtain rfl : code = run.first := by omega
      exact Or.inr hk

end CaseRun

/-- No small letter of the table is a capital of the table. -/
theorem misses_of_mem :
    (caseRuns.all fun run => caseRuns.all fun other => run.misses other) = true := by decide +kernel

/-- The small letters of the table are characters. -/
theorem isPlaced_of_mem : ∀ run ∈ caseRuns, run.IsPlaced := by decide +kernel

/-- The run of the ASCII capitals. -/
def latinRun : CaseRun := ⟨0x41, 0x5A, 1, 32⟩

/-- The ASCII capitals are a run of the table. -/
theorem latinRun_mem : latinRun ∈ caseRuns := List.mem_cons_self

/-- All other capitals of the table are beyond ASCII. -/
theorem eq_latinRun_or_of_mem : ∀ run ∈ caseRuns, run = latinRun ∨ 0x80 ≤ run.first := by
  decide +kernel

/-- The capital sigma is a capital of the table as well. -/
theorem sigmaRun_mem : ⟨0x3A3, 0x3AB, 1, 32⟩ ∈ caseRuns := by decide +kernel

/-! ## Characters -/

/-- The character is no capital. -/
def IsSmall (c : Char) : Prop := c ≠ 'İ' ∧ ∀ run ∈ caseRuns, run.covers c.toNat = false

instance (c : Char) : Decidable (IsSmall c) := inferInstanceAs (Decidable (_ ∧ _))

/-- The run of the ASCII capitals holds just these. -/
theorem covers_latinRun {c : Char} : latinRun.covers c.toNat = true ↔ 'A' ≤ c ∧ c ≤ 'Z' := by
  rw [CaseRun.covers_iff]
  exact ⟨fun h => ⟨h.1, h.2.1⟩, fun h => ⟨h.1, h.2, Nat.mod_one _⟩⟩

/-- Among ASCII characters the capitals are those of the alphabet. -/
theorem lowerAscii_of_isSmall {c : Char} (h : IsSmall c) : lowerAscii c = c := by
  rw [lowerAscii, if_neg]
  intro hcapital
  rw [← covers_latinRun, h.2 _ latinRun_mem] at hcapital
  cases hcapital

/-- In ASCII the table says the same. -/
theorem lowerByTable_of_ascii {c : Char} (h : c.toNat < 0x80) : lowerByTable c = lowerAscii c := by
  rw [lowerByTable, lowerAscii]
  cases hfind : caseRuns.find? (·.covers c.toNat) with
  | none =>
    rw [List.find?_eq_none] at hfind
    rw [if_neg fun hcapital => hfind _ latinRun_mem (covers_latinRun.mpr hcapital)]
  | some run =>
    have hcovers : run.covers c.toNat = true := by simpa using List.find?_some hfind
    dsimp only
    obtain rfl : run = latinRun := by
      refine (eq_latinRun_or_of_mem run (List.mem_of_find?_eq_some hfind)).resolve_right ?_
      have hfirst := (CaseRun.covers_iff.mp hcovers).1
      omega
    rw [if_pos (covers_latinRun.mp hcovers)]
    rfl

/-- A character that is no capital stays as it is, wherever it stands. -/
theorem lowerChar_of_isSmall {c : Char} (h : IsSmall c) (before after : List Char) :
    lowerChar before c after = [c] := by
  have hsigma : c ≠ 'Σ' := by
    rintro rfl
    exact absurd (h.2 _ sigmaRun_mem) (by decide)
  have hnone : caseRuns.find? (·.covers c.toNat) = none := by
    rw [List.find?_eq_none]
    intro run hrun
    rw [h.2 run hrun]
    decide
  rw [lowerChar, if_neg h.1, if_neg hsigma, lowerAscii_of_isSmall h, lowerByTable, hnone, ite_self]

/-- The table gives small letters; beyond ASCII, those in ASCII are the letter k. -/
theorem lowerByTable_spec {c : Char} (hdotted : c ≠ 'İ') :
    IsSmall (lowerByTable c) ∧
      (0x80 ≤ c.toNat → 0x80 ≤ (lowerByTable c).toNat ∨ lowerByTable c = 'k') := by
  rw [lowerByTable]
  cases hfind : caseRuns.find? (·.covers c.toNat) with
  | none =>
    rw [List.find?_eq_none] at hfind
    exact ⟨⟨hdotted, fun run hrun => Bool.eq_false_iff.mpr (hfind run hrun)⟩, Or.inl⟩
  | some run =>
    have hrun := List.mem_of_find?_eq_some hfind
    have hcovers : run.covers c.toNat = true := by simpa using List.find?_some hfind
    obtain ⟨hvalid, hother, hbeyond⟩ := (isPlaced_of_mem run hrun).lower_spec hcovers
    have hcode : (Char.ofNat (run.lower c.toNat)).toNat = run.lower c.toNat := by
      rw [Char.ofNat, dif_pos hvalid]
      rfl
    dsimp only
    refine ⟨⟨?_, ?_⟩, ?_⟩
    · intro heq
      apply hother
      rw [← hcode, heq]
      rfl
    · intro other hmem
      have hmisses := List.all_eq_true.mp (List.all_eq_true.mp misses_of_mem run hrun) other hmem
      rw [hcode]
      exact CaseRun.covers_lower_of_misses hmisses hcovers
    · intro hfar
      rw [hcode]
      refine (hbeyond hfar).imp_right fun hk => ?_
      rw [hk]

/-- The small letters that the dotted capital I and the capital sigma become. -/
theorem isSmall_of_special : ∀ c ∈ ['i', '\u0307', 'ς', 'σ'], IsSmall c := by
  have hall : (['i', '\u0307', 'ς', 'σ'].all fun c => decide (IsSmall c)) = true := by decide +kernel
  exact fun c hc => of_decide_eq_true (List.all_eq_true.mp hall c hc)

/-- Every character in lower case is small. -/
theorem isSmall_of_mem_lowerChar {before after : List Char} {c d : Char}
    (hd : d ∈ lowerChar before c after) : IsSmall d := by
  rw [lowerChar] at hd
  split at hd
  · next hascii =>
    have hdotted : c ≠ 'İ' := by
      rintro rfl
      exact absurd hascii (by decide)
    rw [← lowerByTable_of_ascii hascii, List.mem_singleton] at hd
    exact hd ▸ (lowerByTable_spec hdotted).1
  · split at hd
    · exact isSmall_of_special d (List.mem_append_left ['ς', 'σ'] hd)
    · split at hd
      · apply isSmall_of_special
        rw [List.mem_singleton] at hd
        rw [hd]
        split <;> simp
      · next hdotted _ =>
        rw [List.mem_singleton] at hd
        exact hd ▸ (lowerByTable_spec hdotted).1

/-! ## Texts -/

/-- Small characters stay as they are. -/
theorem lowerFrom_of_isSmall {chars : List Char} (h : ∀ c ∈ chars, IsSmall c) (before : List Char) :
    lowerFrom before chars = chars := by
  induction chars generalizing before with
  | nil => rfl
  | cons c after ih =>
    rw [List.forall_mem_cons] at h
    rw [lowerFrom, lowerChar_of_isSmall h.1, ih h.2]
    rfl

/-- A text in lower case has small letters only. -/
theorem isSmall_of_mem_lowerFrom {before chars : List Char} {d : Char}
    (hd : d ∈ lowerFrom before chars) : IsSmall d := by
  induction chars generalizing before with
  | nil => cases hd
  | cons c after ih =>
    rcases List.mem_append.mp hd with hfirst | hrest
    · exact isSmall_of_mem_lowerChar hfirst
    · exact ih hrest

/-- A text in lower case stays as it is. -/
theorem lowercase_lowercase (text : String) : lowercase (lowercase text) = lowercase text := by
  rw [lowercase, lowercase, String.toList_ofList,
    lowerFrom_of_isSmall fun d hd => isSmall_of_mem_lowerFrom hd]

/-! ## Words of ASCII letters -/

/-- Beyond ASCII a character does not become one of ASCII, the letter k aside. -/
theorem exists_mem_lowerChar {c : Char} (h : 0x80 ≤ c.toNat) (before after : List Char) :
    ∃ d ∈ lowerChar before c after, 0x80 ≤ d.toNat ∨ d = 'k' := by
  rw [lowerChar, if_neg (by omega)]
  split
  · exact ⟨'\u0307', by simp, by decide⟩
  · next hdotted =>
    split
    · split
      · exact ⟨'ς', by simp, by decide⟩
      · exact ⟨'σ', by simp, by decide⟩
    · exact ⟨lowerByTable c, by simp, (lowerByTable_spec hdotted).2 h⟩

/-- What becomes ASCII without the letter k is ASCII. -/
theorem ascii_of_lowerFrom {before chars : List Char}
    (h : ∀ d ∈ lowerFrom before chars, d.toNat < 0x80 ∧ d ≠ 'k') : ∀ c ∈ chars, c.toNat < 0x80 := by
  induction chars generalizing before with
  | nil => nofun
  | cons c after ih =>
    rw [lowerFrom, List.forall_mem_append] at h
    rw [List.forall_mem_cons]
    refine ⟨?_, ih h.2⟩
    rw [← Nat.not_le]
    intro hfar
    obtain ⟨d, hd, hbeyond⟩ := exists_mem_lowerChar hfar before after
    obtain ⟨hascii, hk⟩ := h.1 d hd
    rcases hbeyond with hbeyond | rfl
    · omega
    · exact hk rfl

/-- ASCII is put in lower case letter by letter. -/
theorem lowerFrom_of_ascii {chars : List Char} (h : ∀ c ∈ chars, c.toNat < 0x80)
    (before : List Char) : lowerFrom before chars = chars.map lowerAscii := by
  induction chars generalizing before with
  | nil => rfl
  | cons c after ih =>
    rw [List.forall_mem_cons] at h
    rw [lowerFrom, lowerChar, if_pos h.1, ih h.2]
    rfl

/-- A character whose small letter is ASCII by the rule for ASCII is ASCII. -/
theorem ascii_of_lowerAscii {c : Char} (h : (lowerAscii c).toNat < 0x80) : c.toNat < 0x80 := by
  rw [lowerAscii] at h
  split at h
  · next hcapital =>
    have hlast : c.toNat ≤ 0x5A := hcapital.2
    omega
  · exact h

/-- The word has ASCII characters only, none of them a capital or the letter k. -/
def isPlain (word : String) : Bool :=
  word.toList.all fun c => decide (c.toNat < 0x80 ∧ c ≠ 'k' ∧ lowerAscii c = c)

/-- A text becomes a plain word exactly if it is the word up to the case of ASCII letters. -/
theorem lowercase_eq_iff {word : String} (hplain : isPlain word = true) (text : String) :
    lowercase text = word ↔ eqUpToAsciiCase text word = true := by
  have hword : ∀ c ∈ word.toList, c.toNat < 0x80 ∧ c ≠ 'k' ∧ lowerAscii c = c := by
    simpa [isPlain] using hplain
  have hsame : word.toList.map lowerAscii = word.toList :=
    List.map_congr_left (fun c hc => (hword c hc).2.2) |>.trans (List.map_id _)
  rw [eqUpToAsciiCase, beq_iff_eq, hsame, lowercase]
  constructor
  · intro h
    have hchars : lowerFrom [] text.toList = word.toList := by
      rw [← h, String.toList_ofList]
    have hsmall : ∀ d ∈ lowerFrom [] text.toList, d.toNat < 0x80 ∧ d ≠ 'k' := by
      intro d hd
      rw [hchars] at hd
      exact ⟨(hword d hd).1, (hword d hd).2.1⟩
    have hascii : ∀ c ∈ text.toList, c.toNat < 0x80 := ascii_of_lowerFrom hsmall
    rw [← lowerFrom_of_ascii hascii [], hchars]
  · intro h
    have hascii : ∀ c ∈ text.toList, c.toNat < 0x80 := by
      intro c hc
      apply ascii_of_lowerAscii
      exact (hword _ (h ▸ List.mem_map_of_mem hc)).1
    rw [lowerFrom_of_ascii hascii, h, String.ofList_toList]

end EvidenceFlow.Text
