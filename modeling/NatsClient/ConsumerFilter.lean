import NatsClient.Validate.Bytes

namespace NatsClient.ConsumerFilter

open Validate (dot star gt)

-- strings.Split at the dots.
def split (s : Bytes) : List Bytes := s.splitOn dot

-- The loop over the token positions below minLen. It is left at the first position at which
-- not all subjects agree; `common` and i are the same until then.
def commonLoop (first : List Bytes) (others : List (List Bytes)) : Nat → Nat → Nat
  | 0, common => common
  | remaining + 1, common =>
    if others.all fun t => t[common]? = first[common]? then
      commonLoop first others remaining (common + 1)
    else common

def minLen (tokens : List (List Bytes)) : Int :=
  tokens.foldl (fun minLen t => if minLen < 0 ∨ t.length < minLen then t.length else minLen) (-1)

def commonWildcardSubject (subjects : List Bytes) : Bytes :=
  match subjects.map split with
  | [] => []
  | first :: others =>
    let minLen := minLen (first :: others)
    if minLen ≤ 0 then []
    else
      let common := commonLoop first others minLen.toNat 0
      if common = 0 then []
      else
        let shared := [dot].intercalate (first.take common)
        if (first :: others).all fun t => t.length = common then shared
        else shared ++ [dot, gt]

def consumerFilterSubjects : List Bytes → Bytes
  | [] => [gt]
  | [subject] => subject
  | subjects =>
    let wild := commonWildcardSubject subjects
    if wild ≠ [] then wild else [gt]

end NatsClient.ConsumerFilter
