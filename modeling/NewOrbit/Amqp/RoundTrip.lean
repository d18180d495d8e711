import NewOrbit.Amqp.Field

/-!
# `Amqp.RoundTrip` — a field is read back as it was written

`Fits` is what the wire format can carry: short strings and names of at most 255 octets, sizes below 2^32, the
entries of a table in key order (as `std::map` keeps them). Such a field, tables and arrays inside it included, is
read back by `Field::decode`, and what stands behind it is left alone (`reads_decodeFuel`, `Field.decode_fill`).
-/

namespace NewOrbit.Amqp
open CString Framing Wire

mutual

/-- The field can be carried: what `fill` cuts to an octet or to four is small enough. -/
def Field.Fits : Field → Prop
  | .booleanSet _     => True
  | .numeric _ _      => True
  | .decimal _ _      => True
  | .shortString data => data.length < 256
  | .longString data  => data.length < 256 ^ 4
  | .array fields     => sizeItems fields < 256 ^ 4 ∧ FitsItems fields
  | .table fields     => sizeEntries fields < 256 ^ 4 ∧ SortedMap.Ascending fields ∧ FitsEntries fields

def FitsItems : List Field → Prop
  | []             => True
  | field :: items => field.Fits ∧ FitsItems items

def FitsEntries : List (Bytes × Field) → Prop
  | []                       => True
  | (name, field) :: entries => name.length < 256 ∧ field.Fits ∧ FitsEntries entries

end

/-! ## Sizes

`fill` writes as many octets as `size` says, which the decoders of arrays and tables count down. -/

mutual

/-- `size` is what `fill` writes, for every field. -/
theorem Field.length_fill : (f : Field) → f.fill.length = f.size
  | .booleanSet _     => by simp [Field.fill, Field.size]
  | .numeric _ _      => by simp [Field.fill, Field.size]
  | .decimal _ _      => by simp [Field.fill, Field.size]
  | .shortString data => by simp [Field.fill, Field.size]
  | .longString data  => by simp [Field.fill, Field.size]
  | .array fields     => by simp [Field.fill, Field.size, length_fillItems fields]
  | .table fields     => by simp [Field.fill, Field.size, length_fillEntries fields]

theorem length_fillItems : (items : List Field) → (fillItems items).length = sizeItems items
  | []             => by simp [fillItems, sizeItems]
  | field :: items => by
      simp [fillItems, sizeItems, Field.length_fill field, length_fillItems items]
      omega

theorem length_fillEntries : (entries : List (Bytes × Field)) → (fillEntries entries).length = sizeEntries entries
  | []                       => by simp [fillEntries, sizeEntries]
  | (name, field) :: entries => by
      simp [fillEntries, sizeEntries, Field.length_fill field, length_fillEntries entries]
      omega

end

/-! ## The parts of a field

A number, a text and the octet of a type are each read back as written. A field is these put together, so that its
round trip follows by `Reads.bind`. -/

theorem be_one (n : Nat) : be 1 n = [UInt8.ofNat n] := rfl

theorem reads_octet (b : UInt8) : Reads (nextUint 1) [b] b.toNat := by
  have hread : Reads (nextUint 1) (be 1 b.toNat) b.toNat := reads_unsigned outOfRange 1 b.toNat_lt
  rwa [be_one, UInt8.ofNat_toNat] at hread

theorem reads_stringField {width : Nat} {data : Bytes} (h : data.length < 256 ^ width) :
    Reads (stringField width) (be width data.length ++ data) data :=
  (reads_unsigned outOfRange _ h).bind (reads_octets outOfRange data)

theorem cut_val (width : Nat) (value : Fin (256 ^ width)) : cut width value = value :=
  Fin.ext (Nat.mod_eq_of_lt value.isLt)

def Field.type : Field → FieldType
  | .booleanSet _   => .booleanSet
  | .numeric type _ => .numeric type
  | .decimal _ _    => .decimal
  | .shortString _  => .shortString
  | .longString _   => .longString
  | .array _        => .array
  | .table _        => .table

/-- The switch knows the type of every field. -/
theorem ofTypeID_typeID (f : Field) : FieldType.ofTypeID f.typeID.toNat = some f.type := by
  cases f with
  | numeric type _ => cases type <;> rfl
  | _ => rfl

/-- The count goes down by what was read, and back to nothing. -/
theorem ofNat_sub_ofNat (a b : Nat) : UInt32.ofNat (a + b) - UInt32.ofNat a = UInt32.ofNat b := by
  rw [UInt32.ofNat_add, UInt32.add_comm, UInt32.add_sub_cancel]

theorem ofNat_ne_zero {n : Nat} (hpos : 0 < n) (hlt : n < 256 ^ 4) : UInt32.ofNat n ≠ 0 := by
  intro h
  have hn : (UInt32.ofNat n).toNat = 0 := by rw [h]; rfl
  rw [UInt32.toNat_ofNat'] at hn
  omega

/-! ## Reading back

By induction on the field, together with the lists of an array and of a table. The fuel has to exceed the size of what
is read, and each round of a list takes at least an octet of it. -/

mutual

theorem reads_decodeFuel : (f : Field) → f.Fits → (fuel : Nat) → f.size < fuel →
    Reads (decodeFuel fuel) (f.typeID :: f.fill) (some f)
  | f, hfits, fuel + 1, hfuel => by
      have htype : Reads (nextUint 1) [f.typeID] f.typeID.toNat := reads_octet f.typeID
      show Reads (decodeFuel (fuel + 1)) ([f.typeID] ++ f.fill) (some f)
      rw [decodeFuel]
      refine htype.bind ?_
      rw [ofTypeID_typeID]
      match f, hfits, hfuel with
      | .booleanSet byte, _, _ =>
          have hread := (reads_octet byte).map fun n => some (Field.booleanSet (UInt8.ofNat n))
          rwa [UInt8.ofNat_toNat] at hread
      | .numeric type value, _, _ =>
          have hread := (reads_unsigned outOfRange _ value.isLt).map fun n => some (Field.numeric type (cut type.width n))
          rwa [cut_val] at hread
      | .decimal places number, _, _ =>
          have hplaces : Reads (nextUint 1) (be 1 places.val) places.val := reads_unsigned outOfRange 1 places.isLt
          have hnumber : Reads (nextUint 4) (be 4 number.val) number.val := reads_unsigned outOfRange 4 number.isLt
          have hvalue : some (Field.decimal (cut 1 places.val) (cut 4 number.val)) = some (.decimal places number) := by
            rw [cut_val 4 number, show cut 1 places.val = places from cut_val 1 places]
          exact hplaces.bind ((hnumber.map _).of_eq hvalue)
      | .shortString data, hdata, _ =>
          exact (reads_stringField hdata).map _
      | .longString data, hdata, _ =>
          exact (reads_stringField hdata).map _
      | .array fields, hfields, hsize =>
          have hcount : Reads (nextUint 4) (be 4 (sizeItems fields)) (sizeItems fields) :=
            reads_unsigned outOfRange 4 hfields.1
          have hle : sizeItems fields < fuel := by
            simp only [Field.size] at hsize
            omega
          exact hcount.bind ((reads_arrayFuel fields hfields.2 fuel hle hfields.1 []).map _)
      | .table fields, hfields, hsize =>
          have hcount : Reads (nextUint 4) (be 4 (sizeEntries fields)) (sizeEntries fields) :=
            reads_unsigned outOfRange 4 hfields.1
          have hle : sizeEntries fields < fuel := by
            simp only [Field.size] at hsize
            omega
          have hread := reads_tableFuel fields hfields.2.2 fuel hle hfields.1 []
          rw [SortedMap.foldl_put_entries hfields.2.1] at hread
          exact hcount.bind (hread.map _)

theorem reads_arrayFuel : (items : List Field) → FitsItems items → (fuel : Nat) → sizeItems items < fuel →
    sizeItems items < 256 ^ 4 → (fields : List Field) →
    Reads (arrayFuel fuel (UInt32.ofNat (sizeItems items)) fields) (fillItems items) (fields ++ items)
  | [], _, fuel + 1, _, _, fields => by
      rw [List.append_nil, arrayFuel]
      exact Reads.pure fields
  | field :: items, hfits, fuel + 1, hfuel, hlt, fields => by
      have hpos : 0 < sizeItems (field :: items) := by
        simp only [sizeItems]
        omega
      simp only [sizeItems] at hfuel hlt
      rw [arrayFuel, if_neg (ofNat_ne_zero hpos (by simpa only [sizeItems] using hlt))]
      have hfield := reads_decodeFuel field hfits.1 fuel (by omega)
      have hitems := reads_arrayFuel items hfits.2 fuel (by omega) (by omega) (fields ++ [field])
      have hcount : UInt32.ofNat (sizeItems (field :: items)) - 1 - UInt32.ofNat field.size =
          UInt32.ofNat (sizeItems items) := by
        rw [sizeItems, Nat.add_assoc]
        rw [show (1 : UInt32) = UInt32.ofNat 1 from rfl, ofNat_sub_ofNat, ofNat_sub_ofNat]
      rw [List.append_assoc] at hitems
      rw [fillItems, ← List.cons_append]
      refine hfield.bind ?_
      show Reads (arrayFuel fuel (UInt32.ofNat (sizeItems (field :: items)) - 1 - UInt32.ofNat field.size) _) _ _
      rw [hcount]
      exact hitems

theorem reads_tableFuel : (entries : List (Bytes × Field)) → FitsEntries entries → (fuel : Nat) →
    sizeEntries entries < fuel → sizeEntries entries < 256 ^ 4 → (fields : List (Bytes × Field)) →
    Reads (tableFuel fuel (UInt32.ofNat (sizeEntries entries)) fields) (fillEntries entries)
      (entries.foldl (fun m p => SortedMap.put m p.1 p.2) fields)
  | [], _, fuel + 1, _, _, fields => by
      rw [tableFuel]
      exact Reads.pure fields
  | (name, field) :: entries, hfits, fuel + 1, hfuel, hlt, fields => by
      have hpos : 0 < sizeEntries ((name, field) :: entries) := by
        simp only [sizeEntries]
        omega
      simp only [sizeEntries] at hfuel hlt
      rw [tableFuel, if_neg (ofNat_ne_zero hpos (by simpa only [sizeEntries] using hlt))]
      have hname : Reads (stringField 1) (be 1 name.length ++ name) name := reads_stringField hfits.1
      have hfield := reads_decodeFuel field hfits.2.1 fuel (by omega)
      have hentries := reads_tableFuel entries hfits.2.2 fuel (by omega) (by omega) (SortedMap.put fields name field)
      have hcount : UInt32.ofNat (sizeEntries ((name, field) :: entries)) - UInt32.ofNat (1 + name.length + 1) -
          UInt32.ofNat field.size = UInt32.ofNat (sizeEntries entries) := by
        rw [sizeEntries, Nat.add_assoc, ofNat_sub_ofNat, ofNat_sub_ofNat]
      rw [fillEntries, ← List.cons_append]
      refine hname.bind (hfield.bind ?_)
      show Reads (tableFuel fuel (UInt32.ofNat (sizeEntries ((name, field) :: entries)) -
        UInt32.ofNat (1 + name.length + 1) - UInt32.ofNat field.size) _) _ _
      rw [hcount]
      exact hentries

end

/-! ## What a decoder accepts

The other direction: whatever octets a decoder takes, the field it returns fits, provided that fewer than 2^32 octets
were taken. The loops count down in 32 bits and may wrap, so what is said of them is how much they counted, which is
no more than what they took. -/

theorem yields_nextUint (width : Nat) : Yields (nextUint width) fun n used => n < 256 ^ width ∧ used.length = width := by
  refine (yields_unsigned outOfRange width).mono ?_
  rintro n used ⟨rfl, hlen⟩
  exact ⟨hlen ▸ ofBe_lt used, hlen⟩

theorem yields_stringField (width : Nat) :
    Yields (stringField width) fun data used => data.length < 256 ^ width ∧ used.length = width + data.length := by
  refine (yields_nextUint width).bind fun n used hn => (yields_octets outOfRange n).mono ?_
  rintro data more ⟨rfl, hlen⟩
  refine ⟨hlen ▸ hn.1, ?_⟩
  rw [List.length_append, hn.2]

theorem eq_ofNat_add {count : UInt32} {a b : Nat} (h : count - UInt32.ofNat a = UInt32.ofNat b) :
    count = UInt32.ofNat (a + b) := by
  rw [UInt32.ofNat_add, ← h, UInt32.add_comm, UInt32.sub_add_cancel]

theorem sizeItems_append_singleton (items : List Field) (f : Field) :
    sizeItems (items ++ [f]) = sizeItems items + (1 + f.size) := by
  induction items with
  | nil => simp [sizeItems]
  | cons g items ih =>
      simp only [List.cons_append, sizeItems, ih]
      omega

theorem fitsItems_append_singleton {items : List Field} {f : Field} (h : FitsItems items) (hf : f.Fits) :
    FitsItems (items ++ [f]) := by
  induction items with
  | nil => exact ⟨hf, trivial⟩
  | cons g items ih => exact ⟨h.1, ih h.2⟩

/-- A name that was there before loses its old value. -/
theorem sizeEntries_put (entries : List (Bytes × Field)) (name : Bytes) (f : Field) :
    sizeEntries (SortedMap.put entries name f) ≤ sizeEntries entries + (1 + name.length + 1 + f.size) := by
  induction entries with
  | nil => simp [SortedMap.put, sizeEntries]
  | cons p entries ih =>
      obtain ⟨k, g⟩ := p
      rw [SortedMap.put]
      split
      · simp only [sizeEntries]
        omega
      · split
        · simp only [sizeEntries]
          omega
        · simp only [sizeEntries]
          omega

theorem fitsEntries_put {entries : List (Bytes × Field)} {name : Bytes} {f : Field} (h : FitsEntries entries)
    (hname : name.length < 256) (hf : f.Fits) : FitsEntries (SortedMap.put entries name f) := by
  induction entries with
  | nil => exact ⟨hname, hf, trivial⟩
  | cons p entries ih =>
      obtain ⟨k, g⟩ := p
      rw [SortedMap.put]
      split
      · exact ⟨hname, hf, h⟩
      · split
        · exact ⟨hname, hf, h.2.2⟩
        · exact ⟨h.1, h.2.1, ih h.2.2⟩

/-- What was taken for a field: at least the field and its type, and the field fits. -/
def Decoded : Option Field → Bytes → Prop
  | none,   used => 1 ≤ used.length
  | some f, used => 1 + f.size ≤ used.length ∧ (used.length < 256 ^ 4 → f.Fits)

/-- What was taken by the loop of an array: it was counted down to nothing by no more than what was taken. -/
def DecodedItems (count : UInt32) (fields items : List Field) (used : Bytes) : Prop :=
  ∃ counted, count = UInt32.ofNat counted ∧ counted ≤ used.length ∧
    sizeItems items ≤ sizeItems fields + counted ∧ (used.length < 256 ^ 4 → FitsItems fields → FitsItems items)

def DecodedEntries (count : UInt32) (fields entries : List (Bytes × Field)) (used : Bytes) : Prop :=
  ∃ counted, count = UInt32.ofNat counted ∧ counted ≤ used.length ∧
    sizeEntries entries ≤ sizeEntries fields + counted ∧
    (SortedMap.Ascending fields → SortedMap.Ascending entries) ∧
    (used.length < 256 ^ 4 → FitsEntries fields → FitsEntries entries)

theorem decoded_some {f : Field} {used more : Bytes} (htype : used.length = 1) (hsize : f.size ≤ more.length)
    (hfits : more.length < 256 ^ 4 → f.Fits) : Decoded (some f) (used ++ more) := by
  have hlen : (used ++ more).length = 1 + more.length := by rw [List.length_append, htype]
  refine ⟨by omega, fun hlt => hfits (by omega)⟩

/-! The three functions call each other with less fuel; each is looked at with what the others are known to do. -/

section Fuel
variable {fuel : Nat}

/-- The rounds of an array. A value that is not known has taken an octet all the same. -/
theorem yields_items (hfield : Yields (decodeFuel fuel) Decoded)
    (hitems : ∀ count fields, Yields (arrayFuel fuel count fields) (DecodedItems count fields)) (count : UInt32)
    (fields : List Field) : Yields (arrayFuel (fuel + 1) count fields) (DecodedItems count fields) := by
  rw [arrayFuel]
  split
  · rename_i hzero
    exact Yields.pure ⟨0, hzero, Nat.zero_le _, Nat.le_refl _, fun _ h => h⟩
  · refine hfield.bind fun r used hr => ?_
    cases r with
    | none =>
        refine (hitems _ _).mono ?_
        rintro items more ⟨counted, hcount, hle, hsize, hfits⟩
        have hlen := @List.length_append _ used more
        simp only [Decoded] at hr
        refine ⟨1 + counted, eq_ofNat_add hcount, by omega, by omega, fun hlt => hfits (by omega)⟩
    | some f =>
        refine (hitems _ _).mono ?_
        rintro items more ⟨counted, hcount, hle, hsize, hfits⟩
        have hlen := @List.length_append _ used more
        rw [sizeItems_append_singleton] at hsize
        refine ⟨1 + (f.size + counted), eq_ofNat_add (eq_ofNat_add hcount), ?_, by omega, fun hlt hfields => ?_⟩
        · have hr' := hr.1
          omega
        · exact hfits (by omega) (fitsItems_append_singleton hfields (hr.2 (by omega)))

/-- The rounds of a table: a name before each value. -/
theorem yields_entries (hfield : Yields (decodeFuel fuel) Decoded)
    (hentries : ∀ count fields, Yields (tableFuel fuel count fields) (DecodedEntries count fields)) (count : UInt32)
    (fields : List (Bytes × Field)) : Yields (tableFuel (fuel + 1) count fields) (DecodedEntries count fields) := by
  rw [tableFuel]
  split
  · rename_i hzero
    exact Yields.pure ⟨0, hzero, Nat.zero_le _, Nat.le_refl _, id, fun _ h => h⟩
  · refine (yields_stringField 1).bind fun name octets hname => hfield.bind fun r used hr => ?_
    cases r with
    | none =>
        refine (hentries _ _).mono ?_
        rintro entries more ⟨counted, hcount, hle, hsize, hascending, hfits⟩
        have hlen : (octets ++ (used ++ more)).length = octets.length + (used.length + more.length) := by simp
        simp only [Decoded] at hr
        refine ⟨1 + name.length + 1 + counted, eq_ofNat_add hcount, by omega, by omega, hascending,
          fun hlt => hfits (by omega)⟩
    | some f =>
        refine (hentries _ _).mono ?_
        rintro entries more ⟨counted, hcount, hle, hsize, hascending, hfits⟩
        have hlen : (octets ++ (used ++ more)).length = octets.length + (used.length + more.length) := by simp
        have hput := sizeEntries_put fields name f
        refine ⟨1 + name.length + 1 + (f.size + counted), eq_ofNat_add (eq_ofNat_add hcount), ?_, by omega,
          fun h => hascending (h.put name f), fun hlt hfields => ?_⟩
        · have hr' := hr.1
          omega
        · exact hfits (by omega) (fitsEntries_put hfields hname.1 (hr.2 (by omega)))

/-- A nested array: its size, and what its rounds took. -/
theorem decoded_array {type four more : Bytes} {count : UInt32} {items : List Field} (htype : type.length = 1)
    (hfour : four.length = 4) (hitems : DecodedItems count [] items more) :
    Decoded (some (.array items)) (type ++ (four ++ more)) := by
  obtain ⟨counted, -, hle, hsize, hfits⟩ := hitems
  have hlen : (four ++ more).length = 4 + more.length := by rw [List.length_append, hfour]
  simp only [sizeItems, Nat.zero_add] at hsize
  refine decoded_some htype ?_ fun hlt => ⟨by omega, hfits (by omega) trivial⟩
  simp only [Field.size]
  omega

theorem decoded_table {type four more : Bytes} {count : UInt32} {entries : List (Bytes × Field)}
    (htype : type.length = 1) (hfour : four.length = 4) (hentries : DecodedEntries count [] entries more) :
    Decoded (some (.table entries)) (type ++ (four ++ more)) := by
  obtain ⟨counted, -, hle, hsize, hascending, hfits⟩ := hentries
  have hlen : (four ++ more).length = 4 + more.length := by rw [List.length_append, hfour]
  simp only [sizeEntries, Nat.zero_add] at hsize
  refine decoded_some htype ?_ fun hlt => ⟨by omega, hascending List.Pairwise.nil, hfits (by omega) trivial⟩
  simp only [Field.size]
  omega

theorem yields_field (hitems : ∀ count fields, Yields (arrayFuel fuel count fields) (DecodedItems count fields))
    (hentries : ∀ count fields, Yields (tableFuel fuel count fields) (DecodedEntries count fields)) :
    Yields (decodeFuel (fuel + 1)) Decoded := by
  rw [decodeFuel]
  refine (yields_nextUint 1).bind fun type used htype => ?_
  cases FieldType.ofTypeID type with
  | none =>
      refine Yields.pure ?_
      show 1 ≤ (used ++ []).length
      rw [List.append_nil, htype.2]
  | some t =>
      cases t with
      | booleanSet =>
          refine (yields_nextUint 1).map _ fun n more hn => decoded_some htype.2 ?_ fun _ => trivial
          exact hn.2.ge
      | numeric type =>
          refine (yields_nextUint type.width).map _ fun n more hn => decoded_some htype.2 ?_ fun _ => trivial
          exact hn.2.ge
      | decimal =>
          refine (yields_nextUint 1).bind fun places one hone => (yields_nextUint 4).map _ fun n four hfour => ?_
          refine decoded_some htype.2 ?_ fun _ => trivial
          simp [Field.size, hone.2, hfour.2]
      | shortString =>
          refine (yields_stringField 1).map _ fun data more hdata => decoded_some htype.2 ?_ fun _ => hdata.1
          exact hdata.2.ge
      | longString =>
          refine (yields_stringField 4).map _ fun data more hdata => decoded_some htype.2 ?_ fun _ => hdata.1
          exact hdata.2.ge
      | array =>
          refine (yields_nextUint 4).bind fun n four hfour => (hitems _ _).map _ fun items more hmore => ?_
          exact decoded_array htype.2 hfour.2 hmore
      | table =>
          refine (yields_nextUint 4).bind fun n four hfour => (hentries _ _).map _ fun entries more hmore => ?_
          exact decoded_table htype.2 hfour.2 hmore

end Fuel

theorem yields_fuel (fuel : Nat) : Yields (decodeFuel fuel) Decoded ∧
    (∀ count fields, Yields (arrayFuel fuel count fields) (DecodedItems count fields)) ∧
    ∀ count fields, Yields (tableFuel fuel count fields) (DecodedEntries count fields) := by
  induction fuel with
  | zero =>
      refine ⟨?_, fun count fields => ?_, fun count fields => ?_⟩
      · rw [decodeFuel]; exact Yields.throw
      · rw [arrayFuel]; exact Yields.throw
      · rw [tableFuel]; exact Yields.throw
  | succ fuel ih =>
      obtain ⟨hfield, hitems, hentries⟩ := ih
      exact ⟨yields_field hitems hentries, yields_items hfield hitems, yields_entries hfield hentries⟩

/-! ## The bound on the rounds

Each call takes an octet or fails, so a decoder with more fuel than octets never runs out of it, and any two such
amounts of fuel agree. `Field.decode` may therefore start with the length of its input. -/

theorem yields_decodeFuel_taken (fuel : Nat) : Yields (decodeFuel fuel) fun _ used => 1 ≤ used.length := by
  refine (yields_fuel fuel).1.mono fun r used h => ?_
  cases r with
  | none => exact h
  | some f =>
      have hle := h.1
      omega

theorem decodeFuel_nil (fuel : Nat) : decodeFuel fuel [] = .error outOfRange := by
  cases fuel with
  | zero => rfl
  | succ fuel => rfl

/-- More rounds than there are octets change nothing. -/
theorem agree_fuel (n : Nat) : ∀ m m', n ≤ m → n ≤ m' → Agree (n + 1) (decodeFuel m) (decodeFuel m') ∧
    (∀ count fields, Agree n (arrayFuel m count fields) (arrayFuel m' count fields)) ∧
    ∀ count fields, Agree n (tableFuel m count fields) (tableFuel m' count fields) := by
  induction n with
  | zero =>
      refine fun m m' _ _ => ⟨fun bs hbs => ?_, fun _ _ bs hbs => absurd hbs (Nat.not_lt_zero _),
        fun _ _ bs hbs => absurd hbs (Nat.not_lt_zero _)⟩
      obtain rfl : bs = [] := List.eq_nil_of_length_eq_zero (by omega)
      rw [decodeFuel_nil, decodeFuel_nil]
  | succ n ih =>
      intro m m' hm hm'
      obtain ⟨m, rfl⟩ := Nat.exists_eq_add_of_lt hm
      obtain ⟨m', rfl⟩ := Nat.exists_eq_add_of_lt hm'
      obtain ⟨ihField, ihItems, ihEntries⟩ := ih (n + m) (n + m') (Nat.le_add_right n m) (Nat.le_add_right n m')
      have hcount : Yields (nextUint 4) fun _ used => 1 ≤ used.length :=
        (yields_nextUint 4).mono fun _ used h => by omega
      refine ⟨?_, fun count fields => ?_, fun count fields => ?_⟩
      · rw [decodeFuel, decodeFuel]
        refine (Agree.refl (n + 1 + 1) (nextUint 1)).bind ((yields_nextUint 1).mono fun _ _ h => h.2.ge) fun type => ?_
        cases FieldType.ofTypeID type with
        | none => exact Agree.refl (n + 1) _
        | some t =>
            cases t with
            | array => exact (Agree.refl (n + 1) (nextUint 4)).bind hcount fun k => (ihItems _ _).map _
            | table => exact (Agree.refl (n + 1) (nextUint 4)).bind hcount fun k => (ihEntries _ _).map _
            | _ => exact Agree.refl (n + 1) _
      · rw [arrayFuel, arrayFuel]
        split
        · exact Agree.refl (n + 1) _
        · refine ihField.bind (yields_decodeFuel_taken (n + m)) fun r => ?_
          cases r with
          | none => exact ihItems _ _
          | some f => exact ihItems _ _
      · rw [tableFuel, tableFuel]
        split
        · exact Agree.refl (n + 1) _
        · have hname : Yields (stringField 1) fun _ used => 1 ≤ used.length :=
            (yields_stringField 1).mono fun _ used h => by omega
          have htaken : Yields (decodeFuel (n + m)) fun _ used => 0 ≤ used.length :=
            (yields_decodeFuel_taken (n + m)).mono fun _ _ _ => Nat.zero_le _
          refine (Agree.refl (n + 1) (stringField 1)).bind hname fun name => ?_
          refine (ihField.mono (Nat.le_succ n)).bind (k := 0) htaken fun r => ?_
          cases r with
          | none => exact ihEntries _ _
          | some f => exact ihEntries _ _

/-! ## Fields and tables of a frame

Here the fuel is gone: the round trip, and what an accepted table is, are said of the functions the frames call. -/

theorem Field.decode_fill {f : Field} (h : f.Fits) : Reads Field.decode (f.typeID :: f.fill) (some f) := by
  intro rest
  have hlen := Field.length_fill f
  refine reads_decodeFuel f h _ ?_ rest
  simp only [List.cons_append, List.length_cons, List.length_append]
  omega

theorem reads_tableOfFrame {fields : List (Bytes × Field)} (h : (Field.table fields).Fits) :
    Reads tableOfFrame (Field.table fields).fill fields := by
  have hcount : Reads (nextUint 4) (be 4 (sizeEntries fields)) (sizeEntries fields) := reads_unsigned outOfRange 4 h.1
  rw [Field.fill]
  refine hcount.bind fun rest => ?_
  have hlen := length_fillEntries fields
  have hread := reads_tableFuel fields h.2.2 ((fillEntries fields ++ rest).length + 1)
    (by rw [List.length_append]; omega) h.1 [] rest
  rwa [SortedMap.foldl_put_entries h.2.1] at hread

theorem reads_arrayOfFrame {fields : List Field} (h : (Field.array fields).Fits) :
    Reads arrayOfFrame (Field.array fields).fill fields := by
  have hcount : Reads (nextUint 4) (be 4 (sizeItems fields)) (sizeItems fields) := reads_unsigned outOfRange 4 h.1
  rw [Field.fill]
  refine hcount.bind fun rest => ?_
  have hlen := length_fillItems fields
  exact reads_arrayFuel fields h.2 ((fillItems fields ++ rest).length + 1) (by rw [List.length_append]; omega) h.1 [] rest

/-- A member is read back as it was written. -/
theorem FieldType.reads {t : FieldType} {value : t.Value} (h : (t.field value).Fits) :
    Reads t.read (t.field value).fill value := by
  cases t with
  | booleanSet => exact ((reads_octet value).map UInt8.ofNat).of_eq UInt8.ofNat_toNat
  | numeric type => exact ((reads_unsigned outOfRange _ value.isLt).map (cut type.width)).of_eq (cut_val _ value)
  | decimal =>
      obtain ⟨places, number⟩ := value
      have hplaces : Reads (nextUint 1) (be 1 places.val) places.val := reads_unsigned outOfRange 1 places.isLt
      have hnumber : Reads (nextUint 4) (be 4 number.val) number.val := reads_unsigned outOfRange 4 number.isLt
      have hvalue : (cut 1 places.val, cut 4 number.val) = (places, number) := by
        rw [cut_val 4 number, show cut 1 places.val = places from cut_val 1 places]
      exact hplaces.bind ((hnumber.map _).of_eq hvalue)
  | shortString => exact reads_stringField h
  | longString => exact reads_stringField h
  | array => exact reads_arrayOfFrame h
  | table => exact reads_tableOfFrame h

/-- **A field table comes back from the wire.** Whatever stands behind it, the constructor reads a table that fits
    back as it was, tables and arrays inside it included, and takes nothing of what follows. -/
theorem tableOfFrame_fill (fields : List (Bytes × Field)) (h : (Field.table fields).Fits) :
    Reads tableOfFrame (Field.table fields).fill fields := reads_tableOfFrame h

/-- A table with an array and a table inside it. -/
def headersOne : List (Bytes × Field) :=
  [([97], .array [.shortString [1, 2], .numeric .timestamp ⟨77, by decide⟩]), ([98], .table [])]

theorem tableOfFrame_fill_one : Reads tableOfFrame (Field.table headersOne).fill headersOne := by
  have hdata : [1, 2].length < 256 := by decide
  refine tableOfFrame_fill headersOne ⟨by decide, by decide, by decide, ⟨by decide, hdata, trivial, trivial⟩, by decide,
    ⟨by decide, List.Pairwise.nil, trivial⟩, trivial⟩

theorem yields_tableOfFrame : Yields tableOfFrame fun fields used => ∃ announced body, used = be 4 announced ++ body ∧
    announced < 256 ^ 4 ∧ DecodedEntries (UInt32.ofNat announced) [] fields body := by
  refine (yields_unsigned outOfRange 4).bind fun n used hn bs fields rest hok => ?_
  obtain ⟨body, hbs, hbody⟩ := (yields_fuel (bs.length + 1)).2.2 _ _ bs fields rest hok
  refine ⟨body, hbs, n, body, ?_, ?_, hbody⟩
  · rw [hn.1, ← hn.2, be_ofBe]
  · rw [hn.1, ← hn.2]
    exact ofBe_lt used

/-- **A table that overruns its size is refused, and what is accepted is well formed.** Of any octets received
    (fewer than 2^32) the constructor either throws or builds a table with ascending names whose parts all fit; it
    has then taken at least the octets announced, and the table takes no more than these. So written again the
    table is read back as itself. -/
theorem tableOfFrame_sound (bs rest : Bytes) (fields : List (Bytes × Field)) (hlen : bs.length < 256 ^ 4)
    (h : tableOfFrame bs = .ok (fields, rest)) :
    ∃ announced body, bs = be 4 announced ++ body ++ rest ∧ announced ≤ body.length ∧
      (Field.table fields).size ≤ 4 + announced ∧ (Field.table fields).Fits ∧
      Reads tableOfFrame (Field.table fields).fill fields := by
  obtain ⟨used, hbs, announced, body, rfl, hannounced, counted, hcount, hle, hsize, hascending, hfits⟩ :=
    yields_tableOfFrame bs fields rest h
  have hbody : body.length < 256 ^ 4 := by
    rw [hbs, List.length_append, List.length_append] at hlen
    omega
  -- The count is taken modulo 2^32, but no more octets than that were there to be counted.
  have hcounted : counted = announced := by
    have hnat := congrArg UInt32.toNat hcount
    rw [UInt32.toNat_ofNat', UInt32.toNat_ofNat'] at hnat
    omega
  simp only [sizeEntries, Nat.zero_add] at hsize
  have hwell : (Field.table fields).Fits := ⟨by omega, hascending List.Pairwise.nil, hfits hbody trivial⟩
  refine ⟨announced, body, hbs, by omega, ?_, hwell, reads_tableOfFrame hwell⟩
  simp only [Field.size]
  omega

/-- One name twice: the second value stands. -/
theorem tableOfFrame_sound_one : ∃ announced body,
    ([0, 0, 0, 8, 1, 97, 116, 1, 1, 97, 116, 0, 9] : Bytes) = be 4 announced ++ body ++ [9] ∧ announced ≤ body.length ∧
      (Field.table [([97], .booleanSet 0)]).size ≤ 4 + announced ∧ (Field.table [([97], .booleanSet 0)]).Fits ∧
      Reads tableOfFrame (Field.table [([97], .booleanSet 0)]).fill [([97], .booleanSet 0)] :=
  tableOfFrame_sound _ [9] _ (by decide) rfl

end NewOrbit.Amqp
