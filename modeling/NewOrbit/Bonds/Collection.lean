import NewOrbit.Bonds.Document

/-!
# `Bonds.Collection` — the `bonds` collection in Mongo

What the two programs ask of Mongo: the documents in insertion order, the first one with an ISIN, a `$set` on
it, and an insert. Every document in a collection has an `_id`; Mongo returns it as the first field.
-/

namespace NewOrbit.Bonds

/-- A document in the collection: its `_id`, and its other fields. -/
structure Stored where
  id     : Value
  fields : Document
  no_id  : "_id" ∉ fields.keys

namespace Stored

/-- The document as a query returns it. -/
def read (s : Stored) : Document := LinkedMap.cons "_id" s.id s.fields s.no_id

@[simp] theorem size_read (s : Stored) : s.read.size = s.fields.size + 1 := rfl

@[simp] theorem get_read (s : Stored) (key : String) :
    s.read.get key = if key = "_id" then some s.id else s.fields.get key :=
  LinkedMap.get_cons "_id" s.id s.fields s.no_id key

/-- An inserted document. The driver makes an `_id` where it has none. -/
def ofDocument (newId : BitVec 96) (d : Document) : Stored where
  id     := ((d.get "_id").getD (.objectId newId)).stored
  fields := (d.erase "_id").map Value.stored
  no_id  := LinkedMap.notMem_keys_erase d "_id"

/-- `$set` with a document: each of its fields is set. The `_id` cannot be changed. -/
def set (s : Stored) (d : Document) : Stored where
  id     := s.id
  fields := s.fields.putAll ((d.erase "_id").map Value.stored)
  no_id  := by
    rw [← LinkedMap.get_eq_none_iff, LinkedMap.get_putAll, LinkedMap.get_of_notMem s.no_id, LinkedMap.get_map,
      LinkedMap.get_of_notMem (LinkedMap.notMem_keys_erase d "_id")]
    rfl

/-- The field `isin` matches the query `{isin: q}` for a string or null: it is `q`, or an array with `q` in it;
    a missing field is as good as a null one. -/
def matchesIsin : Option Value → Option Value → Bool
  | some (.string s), some (.string t)  => s == t
  | some (.string s), some (.array _ f) => (List.finRange _).any fun i => match f i with
      | .string t => s == t
      | _         => false
  | none,             none              => true
  | none,             some .null        => true
  | none,             some (.array _ f) => (List.finRange _).any fun i => match f i with
      | .null => true
      | _     => false
  | _,                _                 => false

def hasIsin (q : Option Value) (s : Stored) : Bool := matchesIsin q (s.fields.get "isin")

theorem ofDocument_fields {d : Document} (hid : "_id" ∉ d.keys) (newId : BitVec 96) :
    (ofDocument newId d).fields = d.map Value.stored := by
  change (d.erase "_id").map Value.stored = d.map Value.stored
  rw [LinkedMap.erase_of_notMem hid]

/-- A document with a string as its ISIN, or with none, is found by the query for that ISIN and no other. -/
theorem matchesIsin_iff {q v : Option Value} (hq : ∀ w, q = some w → ∃ s, w = .string s)
    (hv : ∀ w, v = some w → ∃ s, w = .string s) : matchesIsin q v = true ↔ q = v := by
  cases q with
  | none =>
      cases v with
      | none => simp [matchesIsin]
      | some w =>
          obtain ⟨t, rfl⟩ := hv w rfl
          simp [matchesIsin]
  | some u =>
      obtain ⟨s, rfl⟩ := hq u rfl
      cases v with
      | none => simp [matchesIsin]
      | some w =>
          obtain ⟨t, rfl⟩ := hv w rfl
          simp [matchesIsin]

end Stored

/-- A Mongo server and its driver: the `_id` of the next insert, and the message of the `MongoException` a write
    ends with, if it does. -/
structure Mongo where
  newObjectId : List Stored → BitVec 96
  refuses     : List Stored → Document → Option String

/-- `updateOne({isin: q}, {$set: d})`: the first document with the ISIN is changed. -/
def updateOne (q : Option Value) (d : Document) : List Stored → List Stored
  | []     => []
  | s :: c => if s.hasIsin q then s.set d :: c else s :: updateOne q d c

/-- `insertOne(d)`. -/
def insertOne (mongo : Mongo) (d : Document) (c : List Stored) : List Stored :=
  c ++ [Stored.ofDocument (mongo.newObjectId c) d]

/-- A document goes to the first one with its ISIN, or is inserted. -/
def upsert (mongo : Mongo) (c : List Stored) (d : Document) : List Stored :=
  if c.any (Stored.hasIsin (d.get "isin")) then updateOne (d.get "isin") d c else insertOne mongo d c

end NewOrbit.Bonds
