import EvidenceFlow.Proofs.Aspect.LazyReads
import EvidenceFlow.Proofs.Aspect.MergeLaws
import EvidenceFlow.Proofs.Text.AsciiCase
import EvidenceFlow.Proofs.Text.LowerCase

/-!
# Names in reads

Values are held under the lower case of names, so that all spellings of a name have one value. Declarations are
compared up to the case of ASCII letters, which tells spellings apart that have one lower case. So why a property
has no value may be told of one spelling and unknown of another. It is told alike of all of them if each is
declared, and all as available or all as excluded, which is so whenever the lower case is in ASCII and without
the letter k.
-/

namespace EvidenceFlow

open Text

namespace Text

/-- Spellings of a name whose lower case is plain are equal up to the case of ASCII letters. -/
theorem eqUpToAsciiCase_of_isPlain {name other : String} (hplain : isPlain (lowercase name) = true)
    (hsame : lowercase other = lowercase name) : eqUpToAsciiCase other name = true := by
  have hotherEq := (lowercase_eq_iff hplain other).mp hsame
  have hnameEq := (lowercase_eq_iff hplain name).mp rfl
  rw [eqUpToAsciiCase, beq_iff_eq] at hotherEq hnameEq ⊢
  rw [hotherEq, hnameEq]

end Text

namespace Aspect

variable {a : Aspect} {tasks : Tasks} {name other : String}

/-! ## Declarations -/

/-- Names that are equal up to the case of ASCII letters have one declaration. -/
theorem declared?_congr (hsame : eqUpToAsciiCase name other = true) : a.declared? name = a.declared? other := by
  rw [eqUpToAsciiCase, beq_iff_eq] at hsame
  simp only [declared?, eqUpToAsciiCase, hsame]

/-- What declares a name is declared, and has the name up to the case of ASCII letters. -/
theorem mem_of_declared? {property : Property} (hdeclared : a.declared? name = some property) :
    property ∈ a.declared ∧ eqUpToAsciiCase property.name name = true :=
  ⟨List.mem_of_find?_eq_some hdeclared, by simpa using List.find?_some hdeclared⟩

/-- In a tidy object it is the only one. -/
theorem Tidy.declared?_eq_some_iff (htidy : a.Tidy) {property : Property} :
    a.declared? name = some property ↔
      property ∈ a.declared ∧ eqUpToAsciiCase property.name name = true := by
  refine ⟨mem_of_declared?, fun ⟨hthere, hnamed⟩ => ?_⟩
  obtain ⟨before, after, hsplit⟩ := List.append_of_mem hthere
  have hapart := htidy.declared
  rw [hsplit, List.pairwise_append] at hapart
  rw [declared?, List.find?_eq_some_iff_append]
  refine ⟨hnamed, before, after, hsplit, fun first hthere => ?_⟩
  -- one before it that had the name would have the property's name
  have hne : eqUpToAsciiCase first.name property.name = false :=
    hapart.2.2 first hthere property List.mem_cons_self
  rw [eqUpToAsciiCase, beq_iff_eq] at hnamed
  rw [eqUpToAsciiCase, hnamed] at hne
  simpa [eqUpToAsciiCase] using hne

/-- Why a declared property has no value. -/
def reasonOf (property : Property) : MissingReason :=
  if property.available then .notInResults else .excluded

/-- A declared property is never missing as an unknown one. -/
theorem reasonOf_ne_unknown (property : Property) : reasonOf property ≠ .unknown := by
  rw [reasonOf]
  split <;> nofun

/-- Two declared properties are missing for the same reason if both or none are available. -/
theorem reasonOf_eq_iff {p q : Property} : reasonOf p = reasonOf q ↔ p.available = q.available := by
  rw [reasonOf, reasonOf]
  cases p.available <;> cases q.available <;> simp

/-- What is declared is missing for the reason of its declaration. -/
theorem missingReason_of_some {property : Property} (hdeclared : a.declared? name = some property) :
    a.missingReason name = reasonOf property := by
  rw [missingReason, hdeclared]
  rfl

/-- The reason is unknown exactly if nothing declares the name up to the case of ASCII letters. -/
theorem missingReason_eq_unknown_iff : a.missingReason name = .unknown ↔ a.declared? name = none := by
  cases hdeclared : a.declared? name with
  | some property =>
    rw [missingReason_of_some hdeclared]
    exact iff_of_false (reasonOf_ne_unknown property) nofun
  | none =>
    rw [missingReason, hdeclared]
    exact iff_of_true rfl rfl

/-! ## Reads -/

/-- Without tasks a read is a look at the values. -/
theorem get_of_idle (hidle : a.tasks = []) (tasks : Tasks) (name : String) :
    a.get tasks name = a.lookUp name :=
  get_of_nil (by rw [hidle, List.filterMap_nil])

/-- A read of either name finds one value, or misses it for one reason. -/
def ReadsAlike (a : Aspect) (tasks : Tasks) (name other : String) : Prop :=
  ∃ found : Except MissingReason Json,
    a.get tasks name = found.mapError (.propertyMissing a.key name) ∧
    a.get tasks other = found.mapError (.propertyMissing a.key other)

/-- A read does not take a name for unknown that has the lower case of a declared one. -/
def KnowsDeclared (a : Aspect) (tasks : Tasks) (name : String) : Prop :=
  a.get tasks name = .error (.propertyMissing a.key name .unknown) →
    ∀ property ∈ a.declared, lowercase property.name ≠ lowercase name

/-- Reads go by the lower case of names. -/
structure ReadsByLowercase (a : Aspect) (tasks : Tasks) : Prop where
  /-- Spellings of one name are read alike. -/
  alike : ∀ name other, lowercase name = lowercase other → a.ReadsAlike tasks name other
  /-- A name is unknown only if no spelling of it is declared. -/
  known : ∀ name, a.KnowsDeclared tasks name

/-- Every spelling of a declared property that has no value is declared, and as available as the property. -/
def SpellingsDeclared (a : Aspect) : Prop :=
  ∀ property ∈ a.declared, a.value? property.name = none →
    ∀ name, lowercase name = lowercase property.name →
      ∃ spelling ∈ a.declared, eqUpToAsciiCase spelling.name name = true ∧
        spelling.available = property.available

/-- Spellings of one name have one value. -/
theorem value?_congr (hsame : lowercase name = lowercase other) : a.value? name = a.value? other := by
  rw [value?, value?, hsame]

/-- Reads of two spellings are alike if there is a value, or the reasons are the same. -/
theorem readsAlike_iff (hidle : a.tasks = []) (hsame : lowercase name = lowercase other) :
    a.ReadsAlike tasks name other ↔ a.value? name = none → a.missingReason name = a.missingReason other := by
  rw [ReadsAlike, get_of_idle hidle, get_of_idle hidle, lookUp, lookUp, ← value?_congr hsame]
  cases a.value? name with
  | some value =>
    exact iff_of_true ⟨.ok value, rfl, rfl⟩ fun hmissing => absurd hmissing (Option.some_ne_none value)
  | none =>
    constructor
    · rintro ⟨_ | _, hfirst, hsecond⟩ -
      · exact (Fault.propertyMissing.inj (Except.error.inj hfirst)).2.2.trans
          (Fault.propertyMissing.inj (Except.error.inj hsecond)).2.2.symm
      · cases hfirst
    · intro hreasons
      exact ⟨.error (a.missingReason name), rfl, by rw [hreasons rfl]; rfl⟩

/-- Without tasks a read knows what is declared if no declaration spells the name otherwise. -/
theorem knowsDeclared_iff (hidle : a.tasks = []) :
    a.KnowsDeclared tasks name ↔ a.value? name = none → a.declared? name = none →
      ∀ property ∈ a.declared, lowercase property.name ≠ lowercase name := by
  rw [KnowsDeclared, get_of_idle hidle, lookUp]
  cases a.value? name with
  | some value => simp
  | none => simp [missingReason_eq_unknown_iff]

/-- Names that are equal up to the case of ASCII letters are read alike. -/
theorem readsAlike_of_eqUpToAsciiCase (hidle : a.tasks = []) (hsame : eqUpToAsciiCase name other = true) :
    a.ReadsAlike tasks name other := by
  refine (readsAlike_iff hidle (lowercase_congr hsame)).mpr fun _ => ?_
  rw [missingReason, missingReason, declared?_congr hsame]

/-- A name with a plain lower case is unknown only if no spelling of it is declared. -/
theorem knowsDeclared_of_isPlain (hidle : a.tasks = []) (hplain : isPlain (lowercase name) = true) :
    a.KnowsDeclared tasks name := by
  refine (knowsDeclared_iff hidle).mpr fun _ hundeclared property hthere hsame => ?_
  exact List.find?_eq_none.mp hundeclared property hthere (eqUpToAsciiCase_of_isPlain hplain hsame)

/-- If reads go by lower case, the spellings of a declared property that has no value miss it for its reason. -/
theorem ReadsByLowercase.spellingsDeclared (hreads : a.ReadsByLowercase tasks) (htidy : a.Tidy)
    (hidle : a.tasks = []) :
    a.SpellingsDeclared := by
  intro property hthere hmissing name hsame
  have hdeclared : a.declared? property.name = some property :=
    htidy.declared?_eq_some_iff.mpr ⟨hthere, eqUpToAsciiCase_refl property.name⟩
  have hreasons : a.missingReason name = a.missingReason property.name :=
    (readsAlike_iff hidle hsame).mp (hreads.alike name property.name hsame) ((value?_congr hsame).trans hmissing)
  rw [missingReason_of_some hdeclared] at hreasons
  cases hspelled : a.declared? name with
  | none =>
    rw [missingReason_eq_unknown_iff.mpr hspelled] at hreasons
    exact absurd hreasons.symm (reasonOf_ne_unknown property)
  | some spelling =>
    rw [missingReason_of_some hspelled, reasonOf_eq_iff] at hreasons
    obtain ⟨hspellingThere, hnamed⟩ := mem_of_declared? hspelled
    exact ⟨spelling, hspellingThere, hnamed, hreasons⟩

namespace SpellingsDeclared

/-- Then spellings of a declared property without a value are missed for the property's reason. -/
theorem missingReason_eq (hspellings : a.SpellingsDeclared) (htidy : a.Tidy) {property : Property}
    (hthere : property ∈ a.declared) (hmissing : a.value? name = none)
    (hsame : lowercase name = lowercase property.name) : a.missingReason name = reasonOf property := by
  obtain ⟨spelling, hspellingThere, hnamed, havailable⟩ :=
    hspellings property hthere ((value?_congr hsame).symm.trans hmissing) name hsame
  rw [missingReason_of_some (htidy.declared?_eq_some_iff.mpr ⟨hspellingThere, hnamed⟩), reasonOf_eq_iff]
  exact havailable

/-- If each spelling is declared, an object without tasks is read by names in lower case. -/
theorem readsByLowercase (hspellings : a.SpellingsDeclared) (htidy : a.Tidy) (hidle : a.tasks = []) :
    a.ReadsByLowercase tasks where
  alike name other hsame := by
    refine (readsAlike_iff hidle hsame).mpr fun hmissing => ?_
    have hotherMissing : a.value? other = none := (value?_congr hsame).symm.trans hmissing
    by_cases hdeclared : ∃ property ∈ a.declared, lowercase name = lowercase property.name
    · obtain ⟨property, hthere, hnamed⟩ := hdeclared
      rw [hspellings.missingReason_eq htidy hthere hmissing hnamed,
        hspellings.missingReason_eq htidy hthere hotherMissing (hsame.symm.trans hnamed)]
    · -- no spelling is declared, so that all of them are unknown
      have hunknown {spelling : String} (hspelled : lowercase name = lowercase spelling) :
          a.missingReason spelling = .unknown := by
        refine missingReason_eq_unknown_iff.mpr (List.find?_eq_none.mpr fun property hthere hnamed => ?_)
        exact hdeclared ⟨property, hthere, hspelled.trans (lowercase_congr hnamed).symm⟩
      rw [hunknown rfl, hunknown hsame]
  known name := by
    refine (knowsDeclared_iff hidle).mpr fun hmissing hundeclared property hthere hsame => ?_
    have hreason := hspellings.missingReason_eq htidy hthere hmissing hsame.symm
    rw [missingReason_eq_unknown_iff.mpr hundeclared] at hreason
    exact reasonOf_ne_unknown property hreason.symm

end SpellingsDeclared

/-- When reads go by the lower case of names. Of every object that arises and has no tasks, spellings of one name
have one value. They are missed for one reason, which is unknown only if no spelling is declared, exactly if every
spelling of a declared property without a value is declared and as available as the property. Names that are
equal up to the case of ASCII letters are read alike anyhow, and so are all spellings of a name with a plain lower
case, of which a read knows whether one of them is declared. -/
theorem readsByLowercase_iff (hreachable : a.Reachable) (hidle : a.tasks = []) (tasks : Tasks) :
    (a.ReadsByLowercase tasks ↔ a.SpellingsDeclared) ∧
    (∀ name other value, lowercase name = lowercase other →
      a.get tasks name = .ok value → a.get tasks other = .ok value) ∧
    (∀ name other, eqUpToAsciiCase name other = true → a.ReadsAlike tasks name other) ∧
    ∀ name, isPlain (lowercase name) = true →
      (∀ other, lowercase other = lowercase name → a.ReadsAlike tasks other name) ∧
        a.KnowsDeclared tasks name := by
  have htidy := hreachable.tidy
  refine ⟨⟨fun hreads => hreads.spellingsDeclared htidy hidle,
      fun hspellings => hspellings.readsByLowercase htidy hidle⟩,
    fun name other value hsame hfound => ?_, fun name other hsame => readsAlike_of_eqUpToAsciiCase hidle hsame,
    fun name hplain => ⟨fun other hsame => ?_, knowsDeclared_of_isPlain hidle hplain⟩⟩
  · rw [get_of_idle hidle, lookUp] at hfound ⊢
    rw [← value?_congr hsame]
    cases held : a.value? name with
    | some _ => rwa [held] at hfound
    | none => rw [held] at hfound; cases hfound
  · exact readsAlike_of_eqUpToAsciiCase hidle (eqUpToAsciiCase_of_isPlain hplain hsame)

/-- A property in ASCII is declared as excluded, and one with an accent has a value. -/
def labelled : Aspect :=
  (({ key := "device" } : Aspect).addProperties
    [⟨"Width", "device", false⟩, ⟨"É", "device", true⟩]).set "é" (.int 3)

/-- Every spelling of either property is read alike. -/
theorem readsByLowercase_iff_of_labelled :
    labelled.Reachable ∧ labelled.ReadsByLowercase {} ∧ labelled.get {} "É" = .ok (.int 3) ∧
      labelled.get {} "WIDTH" = .error (.propertyMissing "device" "WIDTH" .excluded) := by
  have hreachable : labelled.Reachable := ((Reachable.new _).addProperties _).set _ _
  have hdeclared : labelled.declared = [⟨"Width", "device", false⟩, ⟨"É", "device", true⟩] := by decide +kernel
  have haccent : labelled.value? "é" = some (.int 3) := List.lookup_cons_self
  have hsameAccent : lowercase "É" = lowercase "é" := by decide +kernel
  have hspellings : labelled.SpellingsDeclared := by
    intro property hthere hmissing name hsame
    rw [hdeclared] at hthere ⊢
    obtain rfl | rfl : property = ⟨"Width", "device", false⟩ ∨ property = ⟨"É", "device", true⟩ := by
      simpa using hthere
    · have hplain : isPlain (lowercase "Width") = true := by decide +kernel
      refine ⟨_, List.mem_cons_self, ?_, rfl⟩
      rw [eqUpToAsciiCase_comm]
      exact eqUpToAsciiCase_of_isPlain hplain hsame
    · rw [value?_congr hsameAccent, haccent] at hmissing
      cases hmissing
  obtain ⟨hlaw, hvalues, -⟩ := readsByLowercase_iff hreachable rfl {}
  have hsmall : labelled.get {} "é" = .ok (.int 3) := by
    rw [get_of_idle rfl, lookUp, haccent]
  exact ⟨hreachable, hlaw.mpr hspellings, hvalues "é" "É" _ hsameAccent.symm hsmall, rfl⟩

/-- One spelling of a name is declared and has no value. -/
def halfDeclared : Aspect :=
  ({ key := "device" } : Aspect).addProperties [⟨"É", "device", true⟩]

/-- The other spelling is unknown. -/
theorem not_readsByLowercase_of_halfDeclared :
    halfDeclared.Reachable ∧ halfDeclared.tasks = [] ∧ lowercase "É" = lowercase "é" ∧
      halfDeclared.get {} "É" = .error (.propertyMissing "device" "É" .notInResults) ∧
      halfDeclared.get {} "é" = .error (.propertyMissing "device" "é" .unknown) ∧
      ¬halfDeclared.ReadsByLowercase {} := by
  have hsame : lowercase "É" = lowercase "é" := by decide +kernel
  refine ⟨(Reachable.new _).addProperties _, rfl, hsame, rfl, rfl, fun hreads => ?_⟩
  exact hreads.known "é" rfl ⟨"É", "device", true⟩ List.mem_cons_self hsame

end Aspect

end EvidenceFlow
