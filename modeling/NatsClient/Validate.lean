import NatsClient.Text
import NatsClient.GoError

namespace NatsClient

def maxNameLen : Nat := 255
def maxSubjectLenMultiplier : Nat := 4

-- The class of validKVKeyRe.
def isKVKeyChar (c : Char) : Bool :=
  c ∈ ['-', '/', '_', '=', '.'] || c.isAlphanum

def validateKVKey (key : String) : Option GoError :=
  let reject (detail : String) : Option GoError :=
    some (.wrap "" (.sentinel .errInvalidKVKey) (": " ++ detail))
  if key = "" then reject "key is empty"
  else if maxNameLen < key.utf8ByteSize then
    reject ("key exceeds " ++ toString maxNameLen ++ " characters")
  else if !key.toList.all isKVKeyChar then
    reject ("key " ++ quoted key ++ " must match ^[-/_=.a-zA-Z0-9]+$")
  else none

def validateAssetName (name kind : String) : Option GoError :=
  let reject (detail : String) : Option GoError := some (.foreign (kind ++ " name " ++ detail) [])
  if name = "" then reject "is empty"
  else if maxNameLen < name.utf8ByteSize then
    reject ("exceeds " ++ toString maxNameLen ++ " characters")
  else if name.toList.any (· ∈ [' ', '\t', '\r', '\n', '\x0c', '.', '*', '>', '\\', '/']) then
    reject (quoted name ++ " contains forbidden characters (whitespace . * > / \\)")
  else if name.toList.any (fun r => r.toNat < 32 || r.toNat == 127) then
    reject (quoted name ++ " contains non-printable characters")
  else none

def validateStreamName (name : String) : Option GoError :=
  (validateAssetName name "stream").map fun e =>
    .join "" (.sentinel .errInvalidStreamName) ": " e ""

def validateDurableName (name : String) : Option GoError :=
  (validateAssetName name "durable").map fun e =>
    .join "" (.sentinel .errInvalidDurableName) ": " e ""

def validateQueueName (name : String) : Option GoError :=
  (validateAssetName name "queue").map fun e =>
    .join "" (.sentinel .errInvalidQueueName) ": " e ""

-- The loop of validateSubject over the tokens between dots.
def checkTokens (subject : String) (allowWildcards : Bool) :
    Bool → List (List Char) → Option GoError
  | _, [] => none
  | fullWildcardSeen, token :: rest =>
    let reject (detail : String) : Option GoError :=
      some (.foreign ("subject " ++ quoted subject ++ detail) [])
    let literal : Option GoError :=
      some (.foreign ("publish subject " ++ quoted subject ++ " must not contain wildcards") [])
    if fullWildcardSeen then reject " has tokens after '>'"
    else if token = [] then reject " has empty token"
    else if token.any isSpace then
      reject (" has whitespace in token " ++ quoted (String.ofList token))
    else if token = ['>'] then
      if !allowWildcards then literal
      else if rest ≠ [] then reject ": '>' must be the final token"
      else checkTokens subject allowWildcards true rest
    else if token = ['*'] then
      if !allowWildcards then literal
      else checkTokens subject allowWildcards fullWildcardSeen rest
    else if token.any (· ∈ ['*', '>']) then reject ": wildcards must be standalone tokens"
    else checkTokens subject allowWildcards fullWildcardSeen rest

def validateSubject (subject : String) (allowWildcards : Bool) : Option GoError :=
  if subject = "" then some (.foreign "subject is empty" [])
  else if maxNameLen * maxSubjectLenMultiplier < subject.utf8ByteSize then
    some (.foreign "subject exceeds maximum length" [])
  else checkTokens subject allowWildcards false (subject.toList.splitOn '.')

-- ValidateSubject, with wildcards allowed.
def validateAnySubject (subject : String) : Option GoError :=
  (validateSubject subject true).map fun e => .join "" (.sentinel .errInvalidSubject) ": " e ""

def validateSubjects (subjects : List String) : Option GoError :=
  subjects.findSome? validateAnySubject

def validatePublishSubject (subject : String) : Option GoError :=
  (validateSubject subject false).map fun e => .join "" (.sentinel .errInvalidSubject) ": " e ""

end NatsClient
