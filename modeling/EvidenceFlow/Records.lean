import EvidenceFlow.Cache.Stats
import EvidenceFlow.Evidence
import EvidenceFlow.Json.Printer
import EvidenceFlow.Property
import EvidenceFlow.Settings.Pipeline
import EvidenceFlow.Settings.Tracker

/-!
# Records

The form in which evidence, properties, counts and settings are kept as values. A record is an object
with all its fields, where others are passed over, or a sequence of exactly the values of its fields.
Nothing is converted: a number with a point is no integer. Fields are written in the order in which
they are declared.
-/

namespace EvidenceFlow

namespace Json

/-- The values of the named fields of a record. -/
def fields? (names : List String) : Json → Option (List Json)
  | obj fields => names.mapM fun name => fields.lookup name
  | arr items => if items.length = names.length then some items else none
  | _ => none

/-- Whether an object has no fields but the named ones; other values pass. -/
def hasOnly (names : List String) : Json → Bool
  | obj fields => fields.all fun field => names.contains field.1
  | _ => true

/-- The natural number up to a limit. -/
def natUpTo? (limit : Nat) : Json → Option Nat
  | int n => if 0 ≤ n ∧ n ≤ limit then some n.toNat else none
  | _ => none

/-- The natural number of at most 64 bits. -/
def count? : Json → Option Nat := natUpTo? maxUnsigned

/-- The truth value. -/
def truth? : Json → Option Bool
  | bool b => some b
  | _ => none

/-- The items of a sequence. -/
def items? : Json → Option (List Json)
  | arr items => some items
  | _ => none

end Json

/-- Reads a span of time: seconds, and nanoseconds of which whole seconds are carried over. -/
def Duration.ofRecord? (value : Json) : Option Duration := do
  guard (value.hasOnly ["secs", "nanos"])
  let [secs, nanos] ← value.fields? ["secs", "nanos"] | none
  let secs ← secs.count?
  let nanos ← nanos.natUpTo? 4294967295
  guard (secs + nanos / 1000000000 ≤ Json.maxUnsigned)
  return ⟨secs * 1000000000 + nanos⟩

/-- A span of time as a record. -/
def Duration.toRecord (d : Duration) : Json :=
  .obj [("secs", .int d.seconds), ("nanos", .int d.subsecond)]

/-- Reads one entry of evidence. -/
def Evidence.Entry.ofRecord? (value : Json) : Option Evidence.Entry := do
  let [key, value] ← value.fields? ["key", "value"] | none
  return ⟨← key.asText?, value⟩

/-- An entry of evidence as a record. -/
def Evidence.Entry.toRecord (entry : Evidence.Entry) : Json :=
  .obj [("key", .str entry.key), ("value", entry.value)]

/-- Reads evidence; the index is not part of the record. -/
def Evidence.ofRecord? (value : Json) : Option Evidence := do
  let [entries] ← value.fields? ["entries"] | none
  return .ofEntries (← (← entries.items?).mapM Evidence.Entry.ofRecord?)

/-- Evidence as a record. -/
def Evidence.toRecord (e : Evidence) : Json :=
  .obj [("entries", .arr (e.entries.map Evidence.Entry.toRecord))]

/-- Reads a property. -/
def Property.ofRecord? (value : Json) : Option Property := do
  let [name, elementKey, available] ← value.fields? ["name", "element_data_key", "available"] | none
  return ⟨← name.asText?, ← elementKey.asText?, ← available.truth?⟩

/-- A property as a record. -/
def Property.toRecord (p : Property) : Json :=
  .obj [("name", .str p.name), ("element_data_key", .str p.elementKey), ("available", .bool p.available)]

/-- The fields of counts. -/
def CacheStats.fieldNames : List String :=
  ["hits", "misses", "entry_count", "evictions", "loads", "load_failures"]

/-- Reads counts. -/
def CacheStats.ofRecord? (value : Json) : Option CacheStats := do
  let [hits, misses, entries, evictions, loads, failures] ← value.fields? fieldNames | none
  return ⟨← hits.count?, ← misses.count?, ← entries.count?, ← evictions.count?, ← loads.count?,
    ← failures.count?⟩

/-- Counts as a record. -/
def CacheStats.toRecord (stats : CacheStats) : Json :=
  .obj (fieldNames.zip
    ([stats.hits, stats.misses, stats.entryCount, stats.evictions, stats.loads, stats.loadFailures].map
      fun n : Nat => Json.int n))

/-- Reads the settings of a segmented store. -/
def LruSettings.ofRecord? (value : Json) : Option LruSettings := do
  let [capacity, concurrency, update] ←
    value.fields? ["capacity", "concurrency", "update_existing"] | none
  return ⟨← capacity.count?, ← concurrency.count?, ← update.truth?⟩

/-- The settings of a segmented store as a record. -/
def LruSettings.toRecord (settings : LruSettings) : Json :=
  .obj [("capacity", .int settings.capacity), ("concurrency", .int settings.concurrency),
    ("update_existing", .bool settings.updateExisting)]

/-- Reads the settings of a pipeline. -/
def PipelineSettings.ofRecord? (value : Json) : Option PipelineSettings := do
  let [suppress, close, max] ←
    value.fields? ["suppress_process_errors", "auto_close_elements", "max_parallel_elements"] | none
  return ⟨← suppress.truth?, ← close.truth?, ← max.count?⟩

/-- The settings of a pipeline as a record. -/
def PipelineSettings.toRecord (settings : PipelineSettings) : Json :=
  .obj [("suppress_process_errors", .bool settings.suppressIncidents),
    ("auto_close_elements", .bool settings.closeElements),
    ("max_parallel_elements", .int settings.maxParallel)]

/-- Reads the settings of a result store. -/
def CacheSettings.ofRecord? (value : Json) : Option CacheSettings := do
  let [builder, size, concurrency, update] ←
    value.fields? ["builder", "size", "concurrency", "update_existing"] | none
  return ⟨← builder.asText?, ← size.count?, .exactly (← concurrency.count?), ← update.truth?⟩

/-- The settings of a result store as a record, on a machine with that many processors. -/
def CacheSettings.toRecord (settings : CacheSettings) (processors : Nat) : Json :=
  .obj [("builder", .str settings.builder), ("size", .int settings.size),
    ("concurrency", .int (settings.concurrency.count processors)),
    ("update_existing", .bool settings.updateExisting)]

/-- Reads the settings of an interval tracker. -/
def TrackerSettings.ofRecord? (value : Json) : Option TrackerSettings := do
  let [cache, interval, perSession, stop] ←
    value.fields? ["cache", "interval", "per_session", "stop_on_repeat"] | none
  return ⟨← CacheSettings.ofRecord? cache, ← Duration.ofRecord? interval, ← perSession.truth?,
    ← stop.truth?⟩

/-- The settings of an interval tracker as a record, on a machine with that many processors. -/
def TrackerSettings.toRecord (settings : TrackerSettings) (processors : Nat) : Json :=
  .obj [("cache", settings.cache.toRecord processors), ("interval", settings.interval.toRecord),
    ("per_session", .bool settings.perSession), ("stop_on_repeat", .bool settings.stopOnRepeat)]

end EvidenceFlow
