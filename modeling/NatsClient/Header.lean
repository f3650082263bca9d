import Mathlib.Data.Finmap

namespace NatsClient

abbrev Bytes := List UInt8

-- A header map, map[string][]string.
abbrev Header := Finmap (fun _ : String => List String)

def headerContentType := "Nats-Content-Type"
def headerMsgID := "Nats-Msg-Id"
def headerTraceID := "Trace-Id"
def headerContentEncoding := "Content-Encoding"

def contentTypeJSON := "json"
def contentTypeProto := "protobuf"
def contentTypeMsgPack := "msgpack"

namespace Header

-- Header.Get of nats.go: the first value stored under the key, case-sensitive.
def get (h : Header) (key : String) : String :=
  ((h.lookup key).getD []).headD ""

@[simp] theorem get_insert_self (h : Header) (key value : String) (rest : List String) :
    get (h.insert key (value :: rest)) key = value := by
  simp [get]

theorem get_eq_of_lookup {h g : Header} {key : String} (hl : h.lookup key = g.lookup key) :
    get h key = get g key := by
  simp [get, hl]

theorem get_insert_of_ne {key other : String} (hne : key ≠ other) (h : Header)
    (values : List String) : get (h.insert other values) key = get h key :=
  get_eq_of_lookup (Finmap.lookup_insert_of_ne _ hne)

end Header

end NatsClient
