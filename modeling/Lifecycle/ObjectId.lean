import Lifecycle.Text.Inspect

/-! Identities of managed instances: 128-bit numbers, ordered as numbers. -/
namespace Lifecycle

structure ObjectId where
  word : BitVec 128
  deriving DecidableEq

namespace ObjectId

def ofNat (n : Nat) : ObjectId :=
  ⟨BitVec.ofNat 128 n⟩

def toNat (i : ObjectId) : Nat :=
  i.word.toNat

instance : LT ObjectId := ⟨fun a b => a.toNat < b.toNat⟩

instance (a b : ObjectId) : Decidable (a < b) :=
  inferInstanceAs (Decidable (a.toNat < b.toNat))

def bytes (i : ObjectId) : List UInt8 :=
  (List.range 16).map fun k => UInt8.ofBitVec (i.word.extractLsb' (8 * (15 - k)) 8)

def ofBytes? (bs : List UInt8) : Option ObjectId :=
  if bs.length = 16 then some (ofNat (bs.foldl (fun n b => 256 * n + b.toNat) 0)) else none

def hex (i : ObjectId) : String :=
  String.ofList (Text.hexDigits 32 i.toNat)

def grouped (i : ObjectId) : String :=
  let digits := Text.hexDigits 32 i.toNat
  "-".intercalate
    ([(0, 8), (8, 4), (12, 4), (16, 4), (20, 12)].map fun (start, count) =>
      String.ofList ((digits.drop start).take count))

def text (i : ObjectId) : String :=
  "oid:" ++ i.grouped

def inspect (i : ObjectId) : String :=
  "ObjectId(" ++ i.grouped ++ ")"

end ObjectId

/-- A supply of identities: the ones it will give, in order, and how many it gave. -/
structure IdSource where
  stream : Nat → ObjectId
  drawn : Nat

namespace IdSource

def peek (s : IdSource) : ObjectId :=
  s.stream s.drawn

def advance (s : IdSource) : IdSource :=
  { s with drawn := s.drawn + 1 }

/-- Identities in the form of version 4 identifiers whose last 48 bits count up from one. -/
def counting : IdSource where
  stream n := .ofNat (0x40008000000000000000 + (n + 1) % 0x1000000000000)
  drawn := 0

end IdSource

end Lifecycle
