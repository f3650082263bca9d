import NatsClient.Header
import NatsClient.Lib.Utf8
import NatsClient.Validate

-- The checks of names and subjects on any Go string, a string of bytes that need not be UTF-8.
namespace NatsClient.Validate

def dot : UInt8 := 0x2e
def star : UInt8 := 0x2a
def gt : UInt8 := 0x3e

-- The %q verb: a byte at which no rune starts is written as \x and its two digits.
def quotedUnit : Except UInt8 Char → String
  | .ok c => c.quoteCore true
  | .error b => "\\x" ++ String.ofList [Nat.digitChar (b.toNat / 16), Nat.digitChar (b.toNat % 16)]

def quoted (s : Bytes) : String :=
  "\"" ++ String.join ((Lib.Utf8.units s).map quotedUnit) ++ "\""

-- The range loop decodes the string.
def hasWhitespace (s : Bytes) : Bool := (Lib.Utf8.runes s).any isSpace

def hasTokensAfter (subject : Bytes) : GoError :=
  .foreign ("subject " ++ quoted subject ++ " has tokens after '>'") []

def hasEmptyToken (subject : Bytes) : GoError :=
  .foreign ("subject " ++ quoted subject ++ " has empty token") []

-- The checks of one token; `last` is i == len(subject). The result is fullWildcardSeen, which
-- is still false here: the loop has returned where it was true.
def checkToken (subject : Bytes) (allowWildcards : Bool) (token : Bytes) (last : Bool) :
    Except GoError Bool :=
  let reject (detail : String) : Except GoError Bool :=
    .error (.foreign ("subject " ++ quoted subject ++ detail) [])
  let literal : Except GoError Bool :=
    .error (.foreign ("publish subject " ++ quoted subject ++ " must not contain wildcards") [])
  if hasWhitespace token then reject (" has whitespace in token " ++ quoted token)
  else if token = [gt] then
    if !allowWildcards then literal
    else if !last then reject ": '>' must be the final token"
    else .ok true
  else if token = [star] then
    if !allowWildcards then literal else .ok false
  else if token.any (· ∈ [star, gt]) then reject ": wildcards must be standalone tokens"
  else .ok false

-- The variables of the loop.
structure Scan where
  start : Nat
  fullWildcardSeen : Bool
  deriving DecidableEq, Repr

-- One turn of the loop.
def scanStep (subject : Bytes) (allowWildcards : Bool) (scan : Scan) (i : Nat) :
    Except GoError Scan :=
  if i < subject.length ∧ subject[i]? ≠ some dot then .ok scan
  else if scan.fullWildcardSeen then .error (hasTokensAfter subject)
  else if scan.start = i then .error (hasEmptyToken subject)
  else
    let token := (subject.drop scan.start).take (i - scan.start)
    match checkToken subject allowWildcards token (i = subject.length) with
    | .error e => .error e
    | .ok fullWildcardSeen => .ok ⟨i + 1, fullWildcardSeen⟩

def validateSubject (subject : Bytes) (allowWildcards : Bool) : Option GoError :=
  if subject = [] then some (.foreign "subject is empty" [])
  else if maxNameLen * maxSubjectLenMultiplier < subject.length then
    some (.foreign "subject exceeds maximum length" [])
  else
    match (List.range (subject.length + 1)).foldlM (scanStep subject allowWildcards) ⟨0, false⟩ with
    | .error e => some e
    | .ok _ => none

-- ValidateSubject, with wildcards allowed.
def validateAnySubject (subject : Bytes) : Option GoError :=
  (validateSubject subject true).map fun e => .join "" (.sentinel .errInvalidSubject) ": " e ""

def validateSubjects (subjects : List Bytes) : Option GoError :=
  subjects.findSome? validateAnySubject

def validatePublishSubject (subject : Bytes) : Option GoError :=
  (validateSubject subject false).map fun e => .join "" (.sentinel .errInvalidSubject) ": " e ""

-- The check of a name against a character class; `what` is what the texts call it. The regexp
-- looks at the runes of the name.
def checkName (sentinel : Sentinel) (what : String) (isNameChar : Char → Bool) (pattern : String)
    (name : Bytes) : Option GoError :=
  let reject (detail : String) : Option GoError :=
    some (.wrap "" (.sentinel sentinel) (": " ++ what ++ detail))
  if name = [] then reject " is empty"
  else if maxNameLen < name.length then
    reject (" exceeds " ++ toString maxNameLen ++ " characters")
  else if !(Lib.Utf8.runes name).all isNameChar then
    reject (" " ++ quoted name ++ " must match " ++ pattern)
  else none

-- The class of validBucketRe.
def isBucketChar (c : Char) : Bool := c ∈ ['_', '-'] || c.isAlphanum

def validateBucketName : Bytes → Option GoError :=
  checkName .errInvalidBucketName "bucket name" isBucketChar "^[a-zA-Z0-9_-]+$"

def validateKVKey : Bytes → Option GoError :=
  checkName .errInvalidKVKey "key" isKVKeyChar "^[-/_=.a-zA-Z0-9]+$"

def validateAssetName (name : Bytes) (kind : String) : Option GoError :=
  let reject (detail : String) : Option GoError := some (.foreign (kind ++ " name " ++ detail) [])
  if name = [] then reject "is empty"
  else if maxNameLen < name.length then
    reject ("exceeds " ++ toString maxNameLen ++ " characters")
  else if (Lib.Utf8.runes name).any
      (· ∈ [' ', '\t', '\r', '\n', '\x0c', '.', '*', '>', '\\', '/']) then
    reject (quoted name ++ " contains forbidden characters (whitespace . * > / \\)")
  else if (Lib.Utf8.runes name).any (fun r => r.toNat < 32 || r.toNat == 127) then
    reject (quoted name ++ " contains non-printable characters")
  else none

def validateStreamName (name : Bytes) : Option GoError :=
  (validateAssetName name "stream").map fun e =>
    .join "" (.sentinel .errInvalidStreamName) ": " e ""

def validateDurableName (name : Bytes) : Option GoError :=
  (validateAssetName name "durable").map fun e =>
    .join "" (.sentinel .errInvalidDurableName) ": " e ""

end NatsClient.Validate
