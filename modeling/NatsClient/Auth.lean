import NatsClient.Text

namespace NatsClient.Auth

-- An alphanumeric word.
def isWord (w : List Char) : Bool := w ≠ [] && w.all Char.isAlphanum

-- A scheme as getScheme of net/url wants it.
def isScheme (s : List Char) : Bool :=
  match s with
  | [] => false
  | c :: rest => c.isAlpha && rest.all fun c => c.isAlphanum || c ∈ ['+', '-', '.']

-- Host and port, up to what ends them and what cannot be in a list of addresses. What is a host
-- beyond that is left to net/url.
def isHost (h : List Char) : Bool :=
  h ≠ [] && h.all fun c => c ∉ ['@', '/', '?', '#', ','] && !isSpace c

structure Userinfo where
  name : List Char
  password : Option (List Char)
  name_word : isWord name = true
  password_word : ∀ p, password = some p → isWord p = true

-- scheme://[user[:password]@]host[:port]
structure Url where
  scheme : List Char
  user : Option Userinfo
  host : List Char

def userinfo? (info : List Char) : Option Userinfo :=
  match info.splitOn ':' with
  | [name] =>
    if hname : isWord name = true then some ⟨name, none, hname, by simp⟩ else none
  | [name, password] =>
    if hname : isWord name = true then
      if hpassword : isWord password = true then
        some ⟨name, some password, hname, by rintro p ⟨⟩; exact hpassword⟩
      else none
    else none
  | _ => none

def authority? (authority : List Char) : Option (Option Userinfo × List Char) :=
  match authority.splitOn '@' with
  | [host] => if isHost host then some (none, host) else none
  | [info, host] =>
    if isHost host then (userinfo? info).map fun user => (some user, host) else none
  | _ => none

def absolute? (text : List Char) : Option Url :=
  match text.dropWhile (· ≠ ':') with
  | ':' :: '/' :: '/' :: authority =>
    let scheme := text.takeWhile (· ≠ ':')
    if isScheme scheme then
      (authority? authority).map fun (user, host) => ⟨scheme, user, host⟩
    else none
  | _ => none

-- What the callers of url.Parse look at: the username, if there is a User, and what String
-- returns once User is nil.
structure Parsed where
  username : Option (List Char)
  withoutUser : List Char
  deriving DecidableEq, Repr

-- The package net/url: whether Parse takes a host, and how String writes it; and Parse on all
-- texts that are not of the form above.
structure NetUrl where
  host : List Char → Option (List Char)
  other : List Char → Option Parsed
  -- without scheme:// there is no User
  other_user : ∀ text parsed, other text = some parsed → ¬ "://".toList <:+: text →
    parsed.username = none

def NetUrl.parse (net : NetUrl) (text : List Char) : Option Parsed :=
  match absolute? text with
  | some url =>
    (net.host url.host).map fun shown =>
      ⟨url.user.map Userinfo.name, url.scheme.map Char.toLower ++ "://".toList ++ shown⟩
  | none => net.other text

-- strings.Split with a comma, and strings.TrimSpace.
def parts (raw : String) : List (List Char) := raw.toList.splitOn ','

def trimmed (part : List Char) : List Char := (trimSpace (String.ofList part)).toList

def addressHasUserinfo (net : NetUrl) (address : String) : Bool :=
  if address = "" then false
  else (parts address).any fun part =>
    match net.parse (trimmed part) with
    | some ⟨some username, _⟩ => username ≠ []
    | _ => false

def redactPart (net : NetUrl) (part : List Char) : List Char :=
  match net.parse (trimmed part) with
  | some ⟨some _, withoutUser⟩ => withoutUser
  | _ => trimmed part

def redactURLString (net : NetUrl) (raw : String) : String :=
  if raw = "" then raw
  else String.ofList ([','].intercalate ((parts raw).map (redactPart net)))

end NatsClient.Auth
