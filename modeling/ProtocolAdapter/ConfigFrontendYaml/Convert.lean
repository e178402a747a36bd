/-
This file models how the YAML front end turns a parsed tree into a JSON text and records, for each
node, its JSON pointer and its place in the source. The parser is a parameter: it gives the tree
of an input, with the locations of its nodes, or fails.
-/

import ProtocolAdapter.ConfigFrontendYaml.Integers
import ProtocolAdapter.ConfigFrontendYaml.Utf8
import ProtocolAdapter.Foundation.Validation

namespace ProtocolAdapter.ConfigFrontendYaml

open Foundation Foundation.ByteText

/-! ### Outcomes and limits -/

inductive Status where
  | ok
  | inputLimit
  | parserBudget
  | auxiliaryBudget
  | outputLimit
  | allocationFailed
  | invalidYaml
  | profileRejected
  deriving DecidableEq

/-- Why a conversion stopped. -/
structure Failure where
  status : Status
  reason : String
  refused : status ≠ .ok := by decide
  deriving DecidableEq

/-- How the parser fails: it asks for more memory than its budget or than there is, it rejects the
input, or it ends in some other way. -/
inductive ParserFailure where
  | budget
  | overflow
  | allocation
  | invalid
  | unhandled
  deriving DecidableEq

def ParserFailure.failure : ParserFailure → Failure
  | .budget => { status := .parserBudget, reason := "parser allocation budget exceeded" }
  | .overflow => { status := .parserBudget, reason := "parser allocation overflow" }
  | .allocation => { status := .allocationFailed, reason := "frontend allocation failed" }
  | .invalid => { status := .invalidYaml, reason := "YAML parser error" }
  | .unhandled => { status := .invalidYaml, reason := "unhandled YAML conversion error" }

structure Limits where
  inputBytes : Nat := 16 * 1024
  parserBytes : Nat := 128 * 1024
  auxiliaryBytes : Nat := 128 * 1024
  jsonBytes : Nat := 32 * 1024
  nodes : Nat := 512
  depth : Nat := 16
  scalarBytes : Nat := 4 * 1024

/-- Whether each array of a conversion can be allocated. -/
structure Storage where
  entries : Bool := true
  pointers : Bool := true
  path : Bool := true
  json : Bool := true

def require (ok : Prop) [Decidable ok] (status : Status) (reason : String)
    (refused : status ≠ .ok := by decide) : Except Failure Unit :=
  rejectIf (¬ok) { status := status, reason := reason, refused := refused }

@[simp] theorem require_bind_eq_ok {ok : Prop} [Decidable ok] {status : Status} {reason : String}
    {refused : status ≠ .ok} {α : Type} {next : Unit → Except Failure α} {result : α} :
    (require ok status reason refused >>= next) = .ok result ↔ ok ∧ next () = .ok result := by
  rw [require, rejectIf_bind_eq_ok, not_not]

@[simp] theorem require_eq_ok {ok : Prop} [Decidable ok] {status : Status} {reason : String}
    {refused : status ≠ .ok} {done : Unit} :
    require ok status reason refused = .ok done ↔ ok := by
  rw [require, rejectIf_eq_ok, not_not]

def fits (used additional limit : Nat) : Bool := used ≤ limit ∧ additional ≤ limit - used

/-! ### The parsed tree -/

/-- A place in the source; there is none without a line. -/
structure Location where
  offset : Option Nat := none
  line : Option Nat := none
  col : Nat := 0

/-- A decoded scalar. -/
structure Scalar where
  text : List UInt8
  quoted : Bool

/-- What the parser knows of a node besides its contents. -/
structure NodeHead where
  key : Option Scalar := none
  keyTag : Bool := false
  valTag : Bool := false
  anchor : Bool := false
  reference : Bool := false
  /-- Where the node is. -/
  location : Location := {}
  /-- Where its scalar is, when the scalar lies in the source. -/
  scalarLocation : Option Location := none

inductive YamlNode where
  | map (head : NodeHead) (children : List YamlNode)
  | seq (head : NodeHead) (children : List YamlNode)
  | scalar (head : NodeHead) (value : Option Scalar)

namespace YamlNode

def head : YamlNode → NodeHead
  | map head _ | seq head _ | scalar head _ => head

def isMap : YamlNode → Bool
  | map _ _ => true
  | seq _ _ | scalar _ _ => false

/-- The scalar of a node that has one. -/
def value : YamlNode → Option Scalar
  | scalar _ value => value
  | map _ _ | seq _ _ => none

end YamlNode

/-- The root of a tree is a document, or a stream of documents. -/
inductive YamlRoot where
  | stream (documents : List YamlNode)
  | document (node : YamlNode)

structure YamlTree where
  /-- The text that the locations are about. -/
  source : List UInt8
  tagDirectives : Nat
  root : YamlRoot

/-! ### Scalars -/

def lowerCase (byte : UInt8) : UInt8 := if byte ≥ 0x41 ∧ byte ≤ 0x5a then byte + 0x20 else byte

def equalsIgnoreCase (value expected : List UInt8) : Bool :=
  value.map lowerCase = expected.map lowerCase

/-- Whether a plain scalar is meant for a number. -/
def numericLooking : List UInt8 → Bool
  | [] => false
  | first :: rest =>
    if digitAt first then true
    else if first = 0x2b ∨ first = 0x2d then
      match rest with
      | [] => false
      | second :: _ => digitAt second ∨ second = 0x2e
    else
      match rest with
      | [] => false
      | second :: _ => first = 0x2e ∧ (digitAt second ∨
          equalsIgnoreCase (first :: rest) (utf8 ".inf") ∨
          equalsIgnoreCase (first :: rest) (utf8 ".nan"))

/-! ### Directives -/

def isBlank (byte : UInt8) : Bool := byte = 0x20 ∨ byte = 0x09

/-- Checks the lines in front of the document. -/
def checkDirectives : List (List UInt8) → Except Failure Unit
  | [] => pure ()
  | whole :: rest =>
    let line := if whole.getLast? = some 0x0d then whole.dropLast else whole
    if line = [] ∨ line.head? = some 0x23 then checkDirectives rest
    else if line.take 5 = utf8 "%YAML" then do
      let directive := line.drop 5
      require (directive.head?.any isBlank) .profileRejected "invalid YAML version directive"
      let version := directive.dropWhile isBlank
      require (version.take 3 = utf8 "1.2" ∧
          (version.length = 3 ∨ version[3]?.any fun byte => isBlank byte ∨ byte = 0x23))
        .profileRejected "unsupported YAML version"
      let behind := (version.drop 3).dropWhile isBlank
      require (behind = [] ∨ behind.head? = some 0x23) .profileRejected
        "invalid YAML version directive"
      checkDirectives rest
    else if line.head? = some 0x25 then
      .error { status := .profileRejected, reason := "YAML directive forbidden" }
    else if line = utf8 "---" then checkDirectives rest
    else pure ()

/-! ### Source entries -/

structure SourceEntry where
  pointerOffset : Nat := 0
  pointerLength : Nat := 0
  keyLine : Nat := 0
  keyColumn : Nat := 0
  keyApproximate : Bool := false
  valueLine : Nat := 0
  valueColumn : Nat := 0
  valueApproximate : Bool := false
  deriving DecidableEq

def sourceEntryBytes : Nat := 64

def isQuote (byte : UInt8) : Bool := byte = 0x22 ∨ byte = 0x27

/-- Whether a location is at the start of a quoted node. The parser may point one byte behind the
quote; the location is then moved back. -/
def atQuotedNodeStart (source : List UInt8) (location : Location) : Bool × Location :=
  match location.offset with
  | none => (false, location)
  | some offset =>
    match source[offset]? with
    | none => (false, location)
    | some current =>
      if isQuote current then (true, location)
      else if offset = 0 ∨ location.col = 0 then (false, location)
      else if source[offset - 1]?.any isQuote then
        (true, { location with offset := some (offset - 1), col := location.col - 1 })
      else (false, location)

/-- A location that is checked when its scalar is quoted, and whether it is approximate. -/
def quotedLocation (source : List UInt8) (quoted : Bool) (location : Location) : Bool × Location :=
  if quoted then
    let (atStart, location) := atQuotedNodeStart source location
    (!atStart, location)
  else (false, location)

/-- Where the value of a node is, and whether that is only where the node is. -/
def valueLocation (node : YamlNode) : Bool × Location :=
  let value : Location :=
    match node.value with
    | some _ => node.head.scalarLocation.getD {}
    | none => if node.head.key.isSome then {} else node.head.location
  if value.line.isNone then (true, node.head.location) else (false, value)

/-- The fields of an entry that locate the key of a node. -/
def locateKey (source : List UInt8) (node : YamlNode) (entry : SourceEntry) : SourceEntry :=
  match node.head.key with
  | none => entry
  | some key =>
    match node.head.location.line with
    | none => entry
    | some line =>
      let (approximate, location) := quotedLocation source key.quoted node.head.location
      { entry with
        keyApproximate := approximate
        keyLine := line + 1
        keyColumn := location.col + 1 }

/-- The fields of an entry that locate the value of a node. -/
def locateValue (source : List UInt8) (node : YamlNode) (entry : SourceEntry) : SourceEntry :=
  let (fallback, value) := valueLocation node
  match value.line with
  | none => { entry with valueApproximate := fallback }
  | some line =>
    let (approximate, location) :=
      quotedLocation source (node.value.any fun scalar => scalar.quoted) value
    { entry with
      valueApproximate := fallback ∨ approximate
      valueLine := line + 1
      valueColumn := location.col + 1 }

/-- The entry of a node whose pointer lies in the given part of the pool. -/
def sourceEntry (source : List UInt8) (node : YamlNode) (offset length : Nat) : SourceEntry :=
  locateValue source node
    (locateKey source node { pointerOffset := offset, pointerLength := length })

/-! ### The writer -/

/-- What a writer works with. -/
structure WriterContext where
  limits : Limits
  source : List UInt8
  pointerCapacity : Nat
  pathCapacity : Nat

/-- What a writer has written. -/
structure Writer where
  json : List UInt8 := []
  pointerStorage : List UInt8 := []
  entries : List SourceEntry := []
  path : List UInt8 := []
  nodeCount : Nat := 0

section Writing

variable (context : WriterContext)

def writeBytes (bytes : List UInt8) (writer : Writer) : Except Failure Writer := do
  require (fits writer.json.length bytes.length context.limits.jsonBytes) .outputLimit
    "JSON output limit exceeded"
  pure { writer with json := writer.json ++ bytes }

def writeChar (byte : UInt8) (writer : Writer) : Except Failure Writer :=
  writeBytes context [byte] writer

def hexLower (digit : UInt8) : UInt8 := (utf8 "0123456789abcdef").getD digit.toNat 0

/-- Writes a byte of a string. -/
def writeStringByte (byte : UInt8) (writer : Writer) : Except Failure Writer :=
  if byte = 0x22 ∨ byte = 0x5c then do
    let writer ← writeChar context 0x5c writer
    writeChar context byte writer
  else if byte < 0x20 then do
    let writer ← writeBytes context (utf8 "\\u00") writer
    let writer ← writeChar context (hexLower (byte >>> 4)) writer
    writeChar context (hexLower (byte &&& 0x0f)) writer
  else writeChar context byte writer

def writeStringBytes : List UInt8 → Writer → Except Failure Writer
  | [], writer => pure writer
  | byte :: rest, writer => do
    let writer ← writeStringByte context byte writer
    writeStringBytes rest writer

def writeString (value : List UInt8) (writer : Writer) : Except Failure Writer := do
  let writer ← writeChar context 0x22 writer
  let writer ← writeStringBytes context value writer
  writeChar context 0x22 writer

def pathChar (byte : UInt8) (writer : Writer) : Except Failure Writer := do
  require (fits writer.path.length 1 context.pathCapacity) .auxiliaryBudget
    "source path limit exceeded"
  pure { writer with path := writer.path ++ [byte] }

/-- Appends a byte of a segment to the path. -/
def pathSegmentByte (byte : UInt8) (writer : Writer) : Except Failure Writer :=
  if byte = 0x7e then do
    let writer ← pathChar context 0x7e writer
    pathChar context 0x30 writer
  else if byte = 0x2f then do
    let writer ← pathChar context 0x7e writer
    pathChar context 0x31 writer
  else pathChar context byte writer

def pathSegmentBytes : List UInt8 → Writer → Except Failure Writer
  | [], writer => pure writer
  | byte :: rest, writer => do
    let writer ← pathSegmentByte context byte writer
    pathSegmentBytes rest writer

def pathSegment (segment : List UInt8) (writer : Writer) : Except Failure Writer := do
  let writer ← pathChar context 0x2f writer
  pathSegmentBytes context segment writer

/-- Records the source entry of a node under the current path. -/
def record (node : YamlNode) (writer : Writer) : Except Failure Writer := do
  require (writer.entries.length < context.limits.nodes) .auxiliaryBudget
    "source entry limit exceeded"
  require (fits writer.pointerStorage.length writer.path.length context.pointerCapacity)
    .auxiliaryBudget "source pointer pool exceeded"
  let entry := sourceEntry context.source node writer.pointerStorage.length writer.path.length
  pure { writer with
    entries := writer.entries ++ [entry]
    pointerStorage := writer.pointerStorage ++ writer.path }

/-- Whether a key stands for a string. -/
def isStringKey (key : Scalar) : Bool :=
  key.quoted ∨ (key.text ≠ [] ∧ key.text ≠ utf8 "<<" ∧ ¬numericLooking key.text ∧
    ¬equalsIgnoreCase key.text (utf8 "true") ∧ ¬equalsIgnoreCase key.text (utf8 "false") ∧
    ¬equalsIgnoreCase key.text (utf8 "null"))

/-- The key of a member. -/
def memberKey (child : YamlNode) : Except Failure Scalar :=
  match child.head.key with
  | none => .error { status := .profileRejected, reason := "non-scalar YAML key" }
  | some key => pure key

/-- Checks a key against those of the members in front of it. -/
def checkDistinct (key : List UInt8) : List YamlNode → Except Failure Unit
  | [] => pure ()
  | previous :: rest => do
    let other ← memberKey previous
    require (other.text ≠ key) .profileRejected "decoded duplicate YAML key"
    checkDistinct key rest

/-- Checks a decoded scalar. -/
def checkScalar (text : List UInt8) (invalid : String) : Except Failure Unit := do
  require (text.length ≤ context.limits.scalarBytes) .profileRejected "YAML scalar limit exceeded"
  require (isUtf8 text) .profileRejected invalid

/-- Checks the key of a member and gives its text. -/
def checkKey (previous : List YamlNode) (child : YamlNode) : Except Failure (List UInt8) := do
  let key ← memberKey child
  checkScalar context key.text "invalid decoded YAML key UTF-8"
  require (isStringKey key) .profileRejected "non-string or merge YAML key"
  checkDistinct key.text previous
  pure key.text

def writePlain (value : List UInt8) (writer : Writer) : Except Failure Writer := do
  require (value ≠ []) .profileRejected "implicit empty YAML scalar"
  if value = utf8 "null" ∨ value = utf8 "true" ∨ value = utf8 "false" then
    writeBytes context value writer
  else if numericLooking value then do
    require (canonicalInteger value) .profileRejected "noncanonical or out-of-range YAML number"
    writeBytes context value writer
  else do
    require (¬equalsIgnoreCase value (utf8 "null") ∧ ¬equalsIgnoreCase value (utf8 "true") ∧
        ¬equalsIgnoreCase value (utf8 "false"))
      .profileRejected "noncanonical YAML boolean or null"
    writeString context value writer

def writeScalar (value : Option Scalar) (writer : Writer) : Except Failure Writer :=
  match value with
  | none => .error { status := .profileRejected, reason := "implicit empty YAML scalar" }
  | some value => do
    checkScalar context value.text "invalid decoded YAML value UTF-8"
    if value.quoted then writeString context value.text writer
    else writePlain context value.text writer

/-- Admits a node and records its entry. -/
def enterNode (node : YamlNode) (depth : Nat) (writer : Writer) : Except Failure Writer := do
  require (depth ≤ context.limits.depth) .profileRejected "YAML depth limit exceeded"
  require (writer.nodeCount + 1 ≤ context.limits.nodes) .profileRejected "YAML node limit exceeded"
  let writer := { writer with nodeCount := writer.nodeCount + 1 }
  require (node.head.keyTag = false ∧ node.head.valTag = false) .profileRejected
    "YAML tag forbidden"
  require (node.head.anchor = false ∧ node.head.reference = false) .profileRejected
    "YAML anchor or alias forbidden"
  record context node writer

/-- Writes a comma in front of every part but the first. -/
def separate (first : Bool) (writer : Writer) : Except Failure Writer :=
  if first then pure writer else writeChar context 0x2c writer

mutual

def writeNode : YamlNode → Nat → Writer → Except Failure Writer
  | .map head children, depth, writer => do
    let writer ← enterNode context (.map head children) depth writer
    let writer ← writeChar context 0x7b writer
    let writer ← writeMembers [] children depth writer
    writeChar context 0x7d writer
  | .seq head children, depth, writer => do
    let writer ← enterNode context (.seq head children) depth writer
    let writer ← writeChar context 0x5b writer
    let writer ← writeElements 0 children depth writer
    writeChar context 0x5d writer
  | .scalar head value, depth, writer => do
    let writer ← enterNode context (.scalar head value) depth writer
    writeScalar context value writer

/-- Writes the members of a mapping behind those already written. -/
def writeMembers (previous : List YamlNode) :
    List YamlNode → Nat → Writer → Except Failure Writer
  | [], _, writer => pure writer
  | child :: rest, depth, writer => do
    let key ← checkKey context previous child
    let writer ← separate context previous.isEmpty writer
    let writer ← writeString context key writer
    let writer ← writeChar context 0x3a writer
    let inside ← pathSegment context key writer
    let after ← writeNode child (depth + 1) inside
    writeMembers (previous ++ [child]) rest depth { after with path := writer.path }

/-- Writes the elements of a sequence from an index on. -/
def writeElements (index : Nat) : List YamlNode → Nat → Writer → Except Failure Writer
  | [], _, writer => pure writer
  | child :: rest, depth, writer => do
    let writer ← separate context (index == 0) writer
    let inside ← pathSegment context (decimal index) writer
    let after ← writeNode child (depth + 1) inside
    writeElements (index + 1) rest depth { after with path := writer.path }

end

end Writing

/-! ### Conversions -/

/-- The document of a root. -/
def selectRoot : YamlRoot → Except Failure YamlNode
  | .document node => pure node
  | .stream [document] => pure document
  | .stream _ =>
    .error { status := .profileRejected, reason := "multiple YAML documents forbidden" }

/-- Converts a parsed tree. -/
def convertTree (limits : Limits) (pointerCapacity pathCapacity : Nat)
    (sourceIdentity : List UInt8) (tree : YamlTree) : Except Failure Writer := do
  require (tree.tagDirectives = 0) .profileRejected "YAML tag directive forbidden"
  let root ← selectRoot tree.root
  require root.isMap .profileRejected "YAML root must be mapping"
  writeNode
    { limits := limits
      source := tree.source
      pointerCapacity := pointerCapacity
      pathCapacity := pathCapacity }
    root 1 { pointerStorage := sourceIdentity }

/-- The mark that no input may start with. -/
def byteOrderMark : List UInt8 := [0xEF, 0xBB, 0xBF]

/-- Checks an input, parses it and converts the tree. -/
def conversion (parse : Nat → List UInt8 → Except ParserFailure YamlTree) (storage : Storage)
    (input sourceIdentity : List UInt8) (limits : Limits) : Except Failure Writer := do
  require (input.length ≤ limits.inputBytes) .inputLimit "YAML input limit exceeded"
  require (input.take 3 ≠ byteOrderMark) .profileRejected "UTF-8 BOM forbidden"
  require (isUtf8 input) .profileRejected "invalid UTF-8"
  checkDirectives (input.splitOn 0x0a)
  require (limits.nodes ≤ maxUint64 / sourceEntryBytes) .auxiliaryBudget
    "source entry size overflow"
  require (limits.nodes ≠ 0) .auxiliaryBudget "zero source entry capacity"
  require (limits.jsonBytes ≠ 0) .outputLimit "zero JSON output capacity"
  let entryBytes := limits.nodes * sourceEntryBytes
  require (entryBytes ≤ limits.auxiliaryBytes) .auxiliaryBudget "source entry budget exceeded"
  let remaining := limits.auxiliaryBytes - entryBytes
  let pathCapacity := remaining / 2
  let pointerCapacity := remaining - pathCapacity
  require (pathCapacity ≠ 0 ∧ pointerCapacity ≠ 0) .auxiliaryBudget
    "zero source path or pointer capacity"
  require (sourceIdentity.length ≤ pointerCapacity) .auxiliaryBudget
    "source identity limit exceeded"
  require storage.entries .allocationFailed "source entry allocation failed"
  require storage.pointers .allocationFailed "source pointer allocation failed"
  require storage.path .allocationFailed "source path allocation failed"
  require storage.json .allocationFailed "JSON output allocation failed"
  let tree ← (parse limits.parserBytes input).mapError ParserFailure.failure
  convertTree limits pointerCapacity pathCapacity sourceIdentity tree

/-- What a conversion hands over. A failed one drops what it had written. -/
structure Result where
  status : Status := .invalidYaml
  reason : String := "not converted"
  jsonStorage : List UInt8 := []
  pointerStorage : List UInt8 := []
  sourceIdentityLength : Nat := 0
  entries : List SourceEntry := []

def convert (parse : Nat → List UInt8 → Except ParserFailure YamlTree) (storage : Storage)
    (input sourceIdentity : List UInt8) (limits : Limits) : Result :=
  match conversion parse storage input sourceIdentity limits with
  | .error failure =>
    { status := failure.status
      reason := failure.reason }
  | .ok writer =>
    { status := .ok
      reason := "ok"
      jsonStorage := writer.json
      pointerStorage := writer.pointerStorage
      sourceIdentityLength := sourceIdentity.length
      entries := writer.entries }

/-! ### Looking an entry up -/

/-- The index of the last byte of a value. -/
def rfind (byte : UInt8) : List UInt8 → Option Nat
  | [] => none
  | first :: rest =>
    match rfind byte rest with
    | some index => some (index + 1)
    | none => if first = byte then some 0 else none

theorem rfind_lt {byte : UInt8} : ∀ {bytes : List UInt8} {index : Nat},
    rfind byte bytes = some index → index < bytes.length
  | first :: rest, index, found => by
    rw [rfind] at found
    split at found
    · rename_i shorter later
      obtain rfl := Option.some.inj found
      exact Nat.succ_lt_succ (rfind_lt later)
    · split at found
      · obtain rfl := Option.some.inj found
        exact Nat.succ_pos _
      · cases found

namespace Result

variable (result : Result)

def Succeeded : Prop := result.status = .ok

instance : Decidable result.Succeeded := inferInstanceAs (Decidable (_ = _))

def json : List UInt8 := if result.Succeeded then result.jsonStorage else []

def pointer (entry : SourceEntry) : List UInt8 :=
  (result.pointerStorage.drop entry.pointerOffset).take entry.pointerLength

def sourceIdentity : List UInt8 :=
  if result.Succeeded then result.pointerStorage.take result.sourceIdentityLength else []

/-- The first entry recorded for a pointer. -/
def find (pointer : List UInt8) : Option SourceEntry :=
  if result.Succeeded then result.entries.find? fun entry => result.pointer entry = pointer
  else none

/-- Looks a pointer up, and behind that what stands in front of its last slash. -/
def nearest (pointer : List UInt8) : Option SourceEntry :=
  match result.find pointer with
  | some entry => some entry
  | none =>
    match _ : rfind 0x2f pointer with
    | none => none
    | some slash => nearest (pointer.take slash)
termination_by pointer.length
decreasing_by
  rename_i found
  rw [List.length_take]
  exact lt_of_le_of_lt (Nat.min_le_left _ _) (rfind_lt found)

/-- The entry of a pointer, or of the closest value around it that has one. -/
def findNearest (pointer : List UInt8) : Option SourceEntry :=
  if result.Succeeded then result.nearest pointer else none

end Result

end ProtocolAdapter.ConfigFrontendYaml
