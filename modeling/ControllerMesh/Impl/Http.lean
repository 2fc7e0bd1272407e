import ControllerMesh.Framework.Container
import ControllerMesh.Framework.Wire

/-!
# Requests and their queries

The part of `http.Request` that the proxy reads and rewrites, and
`util/http/request_util.go`, which takes a raw query apart and puts it together
again by hand.

Texts that come over the wire are bytes: raw queries and header values need not
be UTF-8.
-/

namespace CtrlMesh

open Framework Framework.Wire

/-- The bytes of a text. -/
def textBytes (s : String) : Bytes := s.toUTF8.data.toList

/-- The text of bytes that are UTF-8. -/
def bytesText (bs : Bytes) : Option String := String.fromUTF8? ⟨bs.toArray⟩

theorem bytesText_textBytes (s : String) : bytesText (textBytes s) = some s := by
  unfold bytesText textBytes String.fromUTF8?
  exact dif_pos s.isValidUTF8

/-! ## Requests -/

/-- The rest of a body: what it still yields, and what the reads end with if it is
not `io.EOF`. -/
structure Body where
  bytes : Bytes
  err : Option String
  deriving DecidableEq, Repr

/-- `http.Header`, with the keys in canonical form. -/
abbrev Header := StringMap (List Bytes)

namespace Header

/-- `Header.Get`: the first value, or the empty text. -/
def get (h : Header) (key : String) : Bytes := ((h[key]?.getD []).head?).getD []

/-- `Header.Set`. -/
def set (h : Header) (key : String) (value : Bytes) : Header := h.insert key [value]

/-- `Header.Add`. -/
def add (h : Header) (key : String) (value : Bytes) : Header :=
  h.insert key (h[key]?.getD [] ++ [value])

end Header

structure Url where
  path : String
  rawQuery : Bytes
  deriving DecidableEq, Repr

structure HttpRequest where
  url : Url
  header : Header
  contentLength : Int
  /-- Nil, or a reader. -/
  body : Option Body
  deriving DecidableEq

/-- The bytes that the body of a request still yields. -/
def HttpRequest.yields (r : HttpRequest) : Bytes := (r.body.map (·.bytes)).getD []

/-! ## Raw queries -/

/-- `map[string]string` on raw texts: entries with distinct keys, in no order that
matters. -/
structure RawParams where
  entries : List (Bytes × Bytes)
  nodup : (entries.map (·.1)).Nodup

namespace RawParams

def empty : RawParams := ⟨[], List.nodup_nil⟩

def get? (m : RawParams) (key : Bytes) : Option Bytes := (m.entries.find? (·.1 = key)).map (·.2)

theorem nodup_insert (m : RawParams) (key value : Bytes) :
    (((key, value) :: m.entries.filter (·.1 ≠ key)).map (·.1)).Nodup := by
  rw [List.map_cons, List.nodup_cons]
  constructor
  · simp
  · exact m.nodup.sublist (List.filter_sublist.map _)

/-- `m[key] = value`. -/
def insert (m : RawParams) (key value : Bytes) : RawParams :=
  ⟨(key, value) :: m.entries.filter (·.1 ≠ key), m.nodup_insert key value⟩

end RawParams

/-- An order in which a `range` loop visits the entries of a map. -/
structure EntryOrder where
  visit : List (Bytes × Bytes) → List (Bytes × Bytes)
  perm (entries : List (Bytes × Bytes)) : (visit entries).Perm entries

/-- `&` and `=`. -/
def ampersand : UInt8 := 38

def equalsSign : UInt8 := 61

/-- The loop of `ParseRawQuery` over the pairs: the parameters, or `none` at the
first pair that is not split in two by `=`. -/
def parseRawPairs : List Bytes → RawParams → Option RawParams
  | [], result => some result
  | pair :: pairs, result =>
    match pair.splitOn equalsSign with
    | [key, value] => parseRawPairs pairs (result.insert key value)
    | _ => none

/-- `ParseRawQuery`; the error is `invalid url query` with the query. -/
def parseRawQuery (rawQuery : Bytes) : Except Bytes RawParams :=
  if rawQuery = [] then .ok .empty
  else match parseRawPairs (rawQuery.splitOn ampersand) .empty with
    | some result => .ok result
    | none => .error (textBytes "invalid url query: " ++ rawQuery)

/-- One pair as `MarshalRawQuery` writes it. -/
def marshalPair (kv : Bytes × Bytes) : Bytes := kv.1 ++ [equalsSign] ++ kv.2

/-- `MarshalRawQuery`. -/
def marshalRawQuery (order : EntryOrder) (queryParm : RawParams) : Bytes :=
  (order.visit queryParm.entries).foldl
    (fun result kv =>
      if result.length = 0 then result ++ marshalPair kv
      else result ++ [ampersand] ++ marshalPair kv)
    []

end CtrlMesh
