import EvidenceFlow.Json.Token

/-!
# Reading values

Tokens are put together into a value in one pass over a stack of unfinished sequences and objects.
-/

namespace EvidenceFlow.Json

/-- An unfinished sequence or object; what it holds so far stands in reverse. -/
inductive Frame where
  /-- A sequence. -/
  | items (read : List Json)
  /-- An object whose next value belongs to `name`. -/
  | fields (read : List (String × Json)) (name : String)

/-- What the pass expects next. -/
inductive Reading where
  /-- A value. -/
  | value
  /-- A value, or the end of a sequence that has just begun. -/
  | valueOrEnd
  /-- A name. -/
  | name (read : List (String × Json))
  /-- A name, or the end of an object that has just begun. -/
  | nameOrEnd
  /-- The colon after a name. -/
  | colon (read : List (String × Json)) (name : String)
  /-- What may follow a finished value. -/
  | after (value : Json)

/-- Begins a value, or ends it if it is a single token. -/
def beginValue? (stack : List Frame) : Token → Option (Reading × List Frame)
  | .text s => some (.after (.str s), stack)
  | .word w => (ofWord? w).map fun value => (.after value, stack)
  | .mark c =>
    if c = '[' then some (.valueOrEnd, .items [] :: stack)
    else if c = '\x7b' then some (.nameOrEnd, stack)
    else none

/-- One token of the pass. -/
def readToken? (reading : Reading) (stack : List Frame) (token : Token) :
    Option (Reading × List Frame) :=
  match reading with
  | .value => beginValue? stack token
  | .valueOrEnd =>
    match token, stack with
    | .mark ']', .items _ :: rest => some (.after (.arr []), rest)
    | token, stack => beginValue? stack token
  | .nameOrEnd =>
    match token with
    | .mark '\x7d' => some (.after (.obj []), stack)
    | .text name => some (.colon [] name, stack)
    | _ => none
  | .name read =>
    match token with
    | .text name => some (.colon read name, stack)
    | _ => none
  | .colon read name =>
    match token with
    | .mark ':' => some (.value, .fields read name :: stack)
    | _ => none
  | .after value =>
    match token, stack with
    | .mark ',', .items read :: rest => some (.value, .items (value :: read) :: rest)
    | .mark ']', .items read :: rest => some (.after (.arr (value :: read).reverse), rest)
    | .mark ',', .fields read name :: rest => some (.name ((name, value) :: read), rest)
    | .mark '\x7d', .fields read name :: rest =>
      some (.after (object ((name, value) :: read).reverse), rest)
    | _, _ => none

/-- The rest of the pass. -/
def readTokens? (reading : Reading) (stack : List Frame) : List Token → Option Json
  | [] =>
    match reading, stack with
    | .after value, [] => some value
    | _, _ => none
  | token :: rest => (readToken? reading stack token).bind fun next => readTokens? next.1 next.2 rest

/-- The value that the text writes, if it writes one. -/
def parse? (text : String) : Option Json :=
  (Token.scan text.toList).bind (readTokens? .value [])

end EvidenceFlow.Json
