import NatsClient.Validate.Bytes

namespace NatsClient.Shard

open Validate (dot)

def itoaBufLen : Nat := 20

def fnvOffset32 : UInt32 := 2166136261
def fnvPrime32 : UInt32 := 16777619

def fnv32aString (s : Bytes) : UInt32 :=
  s.foldl (fun hash b => (hash ^^^ b.toUInt32) * fnvPrime32) fnvOffset32

-- None stands for the panic of a division by zero.
def index (key : Bytes) (numShards : Int64) : Option Int :=
  if numShards ≤ 0 then some 0
  else
    let divisor := numShards.toUInt64.toUInt32
    if divisor = 0 then none else some (fnv32aString key % divisor).toNat

-- The loop of itoa. None stands for the panic of an index out of range.
def itoaLoop : Nat → Int → Bytes → Option Bytes
  | 0, n, buf => if 0 < n then none else some buf
  | i + 1, n, buf =>
    if 0 < n then itoaLoop i (n / 10) (buf.set i (UInt8.ofNat (48 + (n % 10).toNat)))
    else some (buf.drop (i + 1))

def itoa (n : Int) : Option Bytes :=
  if n = 0 then some [48] else itoaLoop itoaBufLen n (List.replicate itoaBufLen 0)

-- Subject, with `base` for the parameter of a name that is a keyword here.
def subject (base key : Bytes) (numShards : Int64) (action : Bytes) : Option Bytes :=
  (index key numShards).bind fun idx =>
    (itoa idx).map fun digits =>
      if action = [] then base ++ dot :: digits else base ++ dot :: (digits ++ dot :: action)

end NatsClient.Shard
