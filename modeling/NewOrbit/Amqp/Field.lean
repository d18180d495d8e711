import NewOrbit.Lib.CString
import NewOrbit.Lib.SortedMap
import NewOrbit.Lib.Wire

/-!
# `Amqp.Field` — the values of AMQP field tables

AMQP-CPP's `Field` and its subclasses: how many octets a value takes (`size`), what it writes into an `OutBuffer`
(`fill`), and how it is built again from a `ReceivedFrame` (`Field::decode`, the constructors). A table is a
`std::map`, so its entries stand in key order.

The constructors of `Table` and `Array` count down the announced size in a `uint32_t` by the *sizes* of what they
have built; a field of an unknown type builds nothing.
-/

namespace NewOrbit.Amqp
open CString Framing Wire

/-! ## Fields -/

/-- The instances of `NumericField`. -/
inductive NumericType
  | octet | uOctet | short | uShort | long | uLong | longLong | uLongLong | timestamp | float | double
  deriving DecidableEq, Repr

/-- `sizeof(T)`. -/
def NumericType.width : NumericType → Nat
  | .octet     => 1
  | .uOctet    => 1
  | .short     => 2
  | .uShort    => 2
  | .long      => 4
  | .uLong     => 4
  | .longLong  => 8
  | .uLongLong => 8
  | .timestamp => 8
  | .float     => 4
  | .double    => 8

def NumericType.typeID : NumericType → UInt8
  | .octet     => 98   -- 'b'
  | .uOctet    => 66   -- 'B'
  | .short     => 85   -- 'U'
  | .uShort    => 117  -- 'u'
  | .long      => 73   -- 'I'
  | .uLong     => 105  -- 'i'
  | .longLong  => 76   -- 'L'
  | .uLongLong => 108  -- 'l'
  | .timestamp => 84   -- 'T'
  | .float     => 102  -- 'f'
  | .double    => 100  -- 'd'

/-- A number stands as its octets, highest first: an integer in network order, a `float` or `double` as it lies in
    memory (`OutBuffer::add` and `nextFloat` copy it without conversion). -/
inductive Field
  | booleanSet (byte : UInt8)
  | numeric (type : NumericType) (value : Fin (256 ^ type.width))
  | decimal (places : Fin 256) (number : Fin (256 ^ 4))
  | shortString (data : Bytes)
  | longString (data : Bytes)
  | array (fields : List Field)
  | table (fields : List (Bytes × Field))

def Field.typeID : Field → UInt8
  | .booleanSet _   => 116  -- 't'
  | .numeric type _ => type.typeID
  | .decimal _ _    => 68   -- 'D'
  | .shortString _  => 115  -- 's'
  | .longString _   => 83   -- 'S'
  | .array _        => 65   -- 'A'
  | .table _        => 70   -- 'F'

mutual

/-- The octets a field takes, its type not counted. -/
def Field.size : Field → Nat
  | .booleanSet _     => 1
  | .numeric type _   => type.width
  | .decimal _ _      => 5
  | .shortString data => 1 + data.length
  | .longString data  => 4 + data.length
  | .array fields     => 4 + sizeItems fields
  | .table fields     => 4 + sizeEntries fields

/-- The loop of `Array::size`: a type and a value each. -/
def sizeItems : List Field → Nat
  | []             => 0
  | field :: items => 1 + field.size + sizeItems items

/-- The loop of `Table::size`: a name, a type and a value each. -/
def sizeEntries : List (Bytes × Field) → Nat
  | []                       => 0
  | (name, field) :: entries => 1 + name.length + 1 + field.size + sizeEntries entries

end

mutual

/-- The octets a field writes. The size of a string is cut to the octets it has. -/
def Field.fill : Field → Bytes
  | .booleanSet byte       => [byte]
  | .numeric type value    => be type.width value
  | .decimal places number => be 1 places ++ be 4 number
  | .shortString data      => be 1 data.length ++ data
  | .longString data       => be 4 data.length ++ data
  | .array fields          => be 4 (sizeItems fields) ++ fillItems fields
  | .table fields          => be 4 (sizeEntries fields) ++ fillEntries fields

def fillItems : List Field → Bytes
  | []             => []
  | field :: items => field.typeID :: (field.fill ++ fillItems items)

def fillEntries : List (Bytes × Field) → Bytes
  | []                       => []
  | (name, field) :: entries => be 1 name.length ++ name ++ (field.typeID :: (field.fill ++ fillEntries entries))

end

/-! ## Reading a frame -/

/-- `ProtocolException`, with its text. -/
structure ProtocolException where
  what : String
  deriving DecidableEq, Repr

/-- Reading on in a `ReceivedFrame`: what is left of its buffer is passed along. -/
abbrev Received (α : Type) := Reader ProtocolException α

/-- What `FrameCheck` throws when fewer octets are left than are asked for. -/
def outOfRange : ProtocolException := ⟨"frame out of range"⟩

/-- `nextUint8`, `nextUint16`, `nextUint32`, `nextUint64`. -/
def nextUint (width : Nat) : Received Nat := unsigned outOfRange width

def nextData (size : Nat) : Received Bytes := octets outOfRange size

/-- `ShortString(frame)` and `LongString(frame)`: a size of `width` octets, then the data. -/
def stringField (width : Nat) : Received Bytes := do
  let size ← nextUint width
  nextData size

def cut (width n : Nat) : Fin (256 ^ width) := ⟨n % 256 ^ width, Nat.mod_lt n (Nat.pow_pos (by decide))⟩

/-- The constructors `Field::decode` chooses from. -/
inductive FieldType
  | booleanSet
  | numeric (type : NumericType)
  | decimal
  | shortString
  | longString
  | array
  | table

/-- The switch of `Field::decode`; an unknown type gives a null pointer. -/
def FieldType.ofTypeID : Nat → Option FieldType
  | 116 => some .booleanSet
  | 98  => some (.numeric .octet)
  | 66  => some (.numeric .uOctet)
  | 85  => some (.numeric .short)
  | 117 => some (.numeric .uShort)
  | 73  => some (.numeric .long)
  | 105 => some (.numeric .uLong)
  | 76  => some (.numeric .longLong)
  | 108 => some (.numeric .uLongLong)
  | 102 => some (.numeric .float)
  | 100 => some (.numeric .double)
  | 68  => some .decimal
  | 115 => some .shortString
  | 83  => some .longString
  | 65  => some .array
  | 84  => some (.numeric .timestamp)
  | 70  => some .table
  | _   => none

mutual

/-- `Field::decode`. -/
def decodeFuel : Nat → Received (Option Field)
  | 0        => throw outOfRange
  | fuel + 1 => do
    let type ← nextUint 1
    match FieldType.ofTypeID type with
    | none                  => pure none
    | some .booleanSet      => (fun n => some (.booleanSet (UInt8.ofNat n))) <$> nextUint 1
    | some (.numeric type)  => (fun n => some (.numeric type (cut type.width n))) <$> nextUint type.width
    | some .decimal         => do
      let places ← nextUint 1
      (fun number => some (.decimal (cut 1 places) (cut 4 number))) <$> nextUint 4
    | some .shortString     => (fun data => some (.shortString data)) <$> stringField 1
    | some .longString      => (fun data => some (.longString data)) <$> stringField 4
    | some .array           => do
      let charsToRead ← nextUint 4
      (fun fields => some (.array fields)) <$> arrayFuel fuel (UInt32.ofNat charsToRead) []
    | some .table           => do
      let bytesToRead ← nextUint 4
      (fun fields => some (.table fields)) <$> tableFuel fuel (UInt32.ofNat bytesToRead) []

/-- The loop of `Array(frame)`. -/
def arrayFuel : Nat → UInt32 → List Field → Received (List Field)
  | 0,        _,           _      => throw outOfRange
  | fuel + 1, charsToRead, fields =>
    if charsToRead = 0 then pure fields
    else do
      -- one byte less for the field type
      let charsToRead := charsToRead - 1
      match ← decodeFuel fuel with
      | none       => arrayFuel fuel charsToRead fields
      | some field => arrayFuel fuel (charsToRead - UInt32.ofNat field.size) (fields ++ [field])

/-- The loop of `Table(frame)`. -/
def tableFuel : Nat → UInt32 → List (Bytes × Field) → Received (List (Bytes × Field))
  | 0,        _,           _      => throw outOfRange
  | fuel + 1, bytesToRead, fields =>
    if bytesToRead = 0 then pure fields
    else do
      let name ← stringField 1
      let bytesToRead := bytesToRead - UInt32.ofNat (1 + name.length + 1)
      match ← decodeFuel fuel with
      | none       => tableFuel fuel bytesToRead fields
      | some field => tableFuel fuel (bytesToRead - UInt32.ofNat field.size) (SortedMap.put fields name field)

end

/-- Every round reads at least one octet, so the octets that are left bound the rounds. -/
def Field.decode : Received (Option Field) := fun bs => decodeFuel (bs.length + 1) bs

/-- `Array(frame)`. -/
def arrayOfFrame : Received (List Field) := do
  let charsToRead ← nextUint 4
  fun bs => arrayFuel (bs.length + 1) (UInt32.ofNat charsToRead) [] bs

/-- `Table(frame)`. -/
def tableOfFrame : Received (List (Bytes × Field)) := do
  let bytesToRead ← nextUint 4
  fun bs => tableFuel (bs.length + 1) (UInt32.ofNat bytesToRead) [] bs

/-! ## Members of a known class -/

/-- What a member of the class holds. -/
def FieldType.Value : FieldType → Type
  | .booleanSet   => UInt8
  | .numeric type => Fin (256 ^ type.width)
  | .decimal      => Fin 256 × Fin (256 ^ 4)
  | .shortString  => Bytes
  | .longString   => Bytes
  | .array        => List Field
  | .table        => List (Bytes × Field)

/-- What a member is constructed as. -/
def FieldType.zero : (t : FieldType) → t.Value
  | .booleanSet   => (0 : UInt8)
  | .numeric type => (⟨0, Nat.pow_pos (by decide)⟩ : Fin (256 ^ type.width))
  | .decimal      => (⟨0, by decide⟩, ⟨0, by decide⟩)
  | .shortString  => ([] : Bytes)
  | .longString   => ([] : Bytes)
  | .array        => ([] : List Field)
  | .table        => ([] : List (Bytes × Field))

/-- The member as the `Field` it is. -/
def FieldType.field : (t : FieldType) → t.Value → Field
  | .booleanSet,   byte             => .booleanSet byte
  | .numeric type, value            => .numeric type value
  | .decimal,      (places, number) => .decimal places number
  | .shortString,  data             => .shortString data
  | .longString,   data             => .longString data
  | .array,        fields           => .array fields
  | .table,        fields           => .table fields

/-- The constructor of the class, from a frame. -/
def FieldType.read : (t : FieldType) → Received t.Value
  | .booleanSet   => UInt8.ofNat <$> nextUint 1
  | .numeric type => cut type.width <$> nextUint type.width
  | .decimal      => do
    let places ← nextUint 1
    (fun number => (cut 1 places, cut 4 number)) <$> nextUint 4
  | .shortString  => stringField 1
  | .longString   => stringField 4
  | .array        => arrayOfFrame
  | .table        => tableOfFrame

end NewOrbit.Amqp
