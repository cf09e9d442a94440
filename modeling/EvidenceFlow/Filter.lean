import EvidenceFlow.Table
import EvidenceFlow.Text.LowerCase
import EvidenceFlow.Text.Quoted

/-!
# Filters

A filter says which evidence an element consumes, and how much each name weighs in a fingerprint. A
table of names, everything, the session ahead of another filter, and unions of filters are the four
kinds. In a union the tables that ignore case are merged into one, which is asked first; of two
weights for a name the table keeps the one that came first.
-/

namespace EvidenceFlow

open Text

/-- The weight of the session's name: more than any other. -/
def sessionWeight : Int := 2147483647

/-- The name under which the session comes. -/
def sessionKey : String := "session.id"

/-- Whether the name is that of the session, in any spelling with ASCII capitals. -/
def isSessionKey (key : String) : Bool :=
  eqUpToAsciiCase key sessionKey

/-- A table of names and weights, each name once. -/
structure Whitelist where
  /-- The names, in lower case unless the table is case-sensitive, and their weights. -/
  entries : Table String Int := []
  /-- Whether names must match exactly. -/
  caseSensitive : Bool := false
deriving DecidableEq, Repr, Inhabited

namespace Whitelist

/-- The form in which the table holds a name. -/
def normalize (table : Whitelist) (key : String) : String :=
  if table.caseSensitive then key else lowercase key

/-- Adds a name unless it is there. -/
def insertIfNew (table : Whitelist) (key : String) (weight : Int) : Whitelist :=
  { table with entries := table.entries.putNew (table.normalize key) weight }

/-- Adds names one after the other. -/
def insertAll (table : Whitelist) (keys : List (String × Int)) : Whitelist :=
  keys.foldl (fun table key => table.insertIfNew key.1 key.2) table

/-- The table that ignores case. -/
def weighted (keys : List (String × Int)) : Whitelist :=
  insertAll {} keys

/-- The table of names that all weigh nothing and ignore case. -/
def ofKeys (keys : List String) : Whitelist :=
  weighted (keys.map fun key => (key, 0))

/-- The table that matches names exactly. -/
def exactly (keys : List (String × Int)) : Whitelist :=
  insertAll { caseSensitive := true } keys

/-- The weight of a name in the table. -/
def weight? (table : Whitelist) (key : String) : Option Int :=
  table.entries.lookup (table.normalize key)

/-- Whether the table has the name. -/
def includes (table : Whitelist) (key : String) : Bool :=
  table.entries.keys.contains (table.normalize key)

/-- How the table is shown. -/
def shown (table : Whitelist) : String :=
  shownRecord "WhitelistFilter"
    [("whitelist",
        "\x7b" ++ ", ".intercalate
          (table.entries.map fun entry => quoted entry.1 ++ ": " ++ toString entry.2) ++ "\x7d"),
      ("case_sensitive", shownBool table.caseSensitive)]

end Whitelist

/-- Which evidence an element consumes. -/
inductive Filter where
  /-- The names of a table. -/
  | whitelist (table : Whitelist)
  /-- Every name, without weight. -/
  | all
  /-- The session ahead of the names of another filter. -/
  | session (inner : Filter)
  /-- The names of a merged table or else of the first of several filters that has them. -/
  | union (merged : Whitelist) (others : List Filter)
deriving Inhabited

namespace Filter

mutual

/-- Whether the element consumes the evidence of the name. -/
def includes : Filter → String → Bool
  | whitelist table, key => table.includes key
  | all, _ => true
  | session inner, key => isSessionKey key || inner.includes key
  | union merged others, key => merged.includes key || anyIncludes others key

/-- Whether one of the filters includes the name. -/
def anyIncludes : List Filter → String → Bool
  | [], _ => false
  | filter :: rest, key => filter.includes key || anyIncludes rest key

end

mutual

/-- The weight of a name in fingerprints, if the filter gives one. -/
def weight? : Filter → String → Option Int
  | whitelist table, key => table.weight? key
  | all, _ => some 0
  | session inner, key => if isSessionKey key then some sessionWeight else inner.weight? key
  | union merged others, key => (merged.weight? key).or (firstWeight? others key)

/-- The weight that the first of the filters with one gives. -/
def firstWeight? : List Filter → String → Option Int
  | [], _ => none
  | filter :: rest, key => (filter.weight? key).or (firstWeight? rest key)

end

mutual

/-- How the filter is shown. -/
def shown : Filter → String
  | whitelist table => table.shown
  | all => "IncludeAll"
  | session inner => shownRecord "SessionKeyFilter" [("inner", inner.shown)]
  | union merged others =>
    shownRecord "FilterAggregator" [("merged", merged.shown), ("filters", shownList (shownAll others))]

/-- How each of the filters is shown. -/
def shownAll : List Filter → List String
  | [] => []
  | filter :: rest => filter.shown :: shownAll rest

end

/-- A union of filters that is being put together. -/
structure Union where
  /-- The merged tables. -/
  merged : Whitelist := {}
  /-- The other filters, in order. -/
  others : List Filter := []
deriving Inhabited

namespace Union

/-- Adds a table: its names go into the merged table if it ignores case. -/
def addWhitelist (union : Union) (table : Whitelist) : Union :=
  if table.caseSensitive then { union with others := union.others ++ [.whitelist table] }
  else { union with merged := union.merged.insertAll table.entries }

/-- Adds any filter, kept apart. -/
def addFilter (union : Union) (filter : Filter) : Union :=
  { union with others := union.others ++ [filter] }

/-- The number of merged names and other filters. -/
def size (union : Union) : Nat :=
  union.merged.entries.length + union.others.length

/-- The union as a filter. -/
def toFilter (u : Union) : Filter :=
  union u.merged u.others

end Union

end Filter

end EvidenceFlow
