import NewOrbit.Amqp.RoundTrip

/-!
# `Amqp.MetaData` — the properties of a message

Fourteen optional properties, each with a bit in one of two `BooleanSet`s and a value. Only the properties whose bit
is set are written, in an order of their own (`order`), and only those are read again. A property that is not set
has its default, for every `MetaData` there is (`unset`), so reading back what was written gives the same properties
(`MetaData.reads_ofFrame`).
-/

namespace NewOrbit.Amqp
open CString Framing Wire

/-! ## `BooleanSet` -/

/-- `BooleanSet::get`. -/
def getBit (byte : UInt8) (index : Fin 8) : Bool := byte.toNat.testBit index

/-- `BooleanSet::set` to `true`. -/
def setBit (byte : UInt8) (index : Fin 8) : UInt8 := byte ||| UInt8.ofNat (1 <<< index.val)

/-- `BooleanSet::set` to `false`. -/
def clearBit (byte : UInt8) (index : Fin 8) : UInt8 := byte &&& ~~~ UInt8.ofNat (1 <<< index.val)

theorem toNat_mask (i : Fin 8) : (UInt8.ofNat (1 <<< i.val)).toNat = 2 ^ i.val := by
  revert i
  decide

theorem getBit_setBit (byte : UInt8) (i j : Fin 8) : getBit (setBit byte i) j = (getBit byte j || decide (i = j)) := by
  rw [getBit, setBit, UInt8.toNat_or, Nat.testBit_or, toNat_mask, Nat.testBit_two_pow]
  simp [getBit, Fin.ext_iff]

theorem getBit_clearBit (byte : UInt8) (i j : Fin 8) :
    getBit (clearBit byte i) j = (getBit byte j && !decide (i = j)) := by
  have hmask : (~~~ UInt8.ofNat (1 <<< i.val)).toNat.testBit j = !decide (i = j) := by
    revert i j
    decide
  rw [getBit, clearBit, UInt8.toNat_and, Nat.testBit_and, hmask]
  rfl

/-! ## Properties -/

inductive Property
  | expiration | replyTo | correlationID | priority | deliveryMode | headers | contentEncoding | contentType
  | clusterID | appID | userID | typeName | timestamp | messageID
  deriving DecidableEq, Repr

/-- The class of the property. -/
def Property.type : Property → FieldType
  | .priority     => .numeric .uOctet
  | .deliveryMode => .numeric .uOctet
  | .timestamp    => .numeric .timestamp
  | .headers      => .table
  | _             => .shortString

/-- Is the property's bit in the second set? -/
def Property.second : Property → Bool
  | .clusterID | .appID | .userID | .typeName | .timestamp | .messageID => true
  | _                                                                  => false

def Property.index : Property → Fin 8
  | .expiration      => 0
  | .replyTo         => 1
  | .correlationID   => 2
  | .priority        => 3
  | .deliveryMode    => 4
  | .headers         => 5
  | .contentEncoding => 6
  | .contentType     => 7
  | .clusterID       => 2
  | .appID           => 3
  | .userID          => 4
  | .typeName        => 5
  | .timestamp       => 6
  | .messageID       => 7

/-- The order of `fill` and of `MetaData(frame)`. -/
def order : List Property :=
  [.contentType, .contentEncoding, .headers, .deliveryMode, .priority, .correlationID, .replyTo, .expiration,
    .messageID, .timestamp, .typeName, .userID, .appID, .clusterID]

theorem mem_order (p : Property) : p ∈ order := by
  cases p <;> decide

/-- No two properties share a bit. -/
theorem bit_inj {p q : Property} (hset : p.second = q.second) (hindex : p.index = q.index) : p = q := by
  revert hset hindex
  cases p <;> cases q <;> decide

/-! ## `MetaData` -/

def hasBit (bools1 bools2 : UInt8) (p : Property) : Bool := getBit (if p.second then bools2 else bools1) p.index

/-- The properties of a message: the two sets of bits and a value for each property, at its default while the
    property's bit is not set. -/
@[ext] structure MetaData where
  bools1 : UInt8
  bools2 : UInt8
  value  : (p : Property) → p.type.Value
  unset  : ∀ p, hasBit bools1 bools2 p = false → value p = p.type.zero

theorem hasBit_set {bools1 bools2 : UInt8} (p q : Property) :
    hasBit (if p.second then bools1 else setBit bools1 p.index) (if p.second then setBit bools2 p.index else bools2) q =
      (hasBit bools1 bools2 q || decide (p = q)) := by
  unfold hasBit
  by_cases hset : p.second = q.second
  · have hindex : (p.index = q.index) ↔ p = q := ⟨bit_inj hset, fun h => h ▸ rfl⟩
    cases hp : p.second <;> simp [← hset, hp, getBit_setBit, hindex]
  · have hne : p ≠ q := fun h => hset (h ▸ rfl)
    cases hp : p.second <;> cases hq : q.second <;> simp_all

theorem hasBit_clear {bools1 bools2 : UInt8} (p q : Property) :
    hasBit (if p.second then bools1 else clearBit bools1 p.index)
      (if p.second then clearBit bools2 p.index else bools2) q = (hasBit bools1 bools2 q && !decide (p = q)) := by
  unfold hasBit
  by_cases hset : p.second = q.second
  · have hindex : (p.index = q.index) ↔ p = q := ⟨bit_inj hset, fun h => h ▸ rfl⟩
    cases hp : p.second <;> simp [← hset, hp, getBit_clearBit, hindex]
  · have hne : p ≠ q := fun h => hset (h ▸ rfl)
    cases hp : p.second <;> cases hq : q.second <;> simp_all

namespace MetaData

def has (m : MetaData) (p : Property) : Bool := hasBit m.bools1 m.bools2 p

/-- `MetaData()`. -/
def init : MetaData := ⟨0, 0, fun p => p.type.zero, fun _ _ => rfl⟩

/-- The setters: `_x = value; _bools.set(i, true)`. -/
def set (m : MetaData) (p : Property) (value : p.type.Value) : MetaData where
  bools1 := if p.second then m.bools1 else setBit m.bools1 p.index
  bools2 := if p.second then setBit m.bools2 p.index else m.bools2
  value  := Function.update m.value p value
  unset q h := by
    rw [hasBit_set, Bool.or_eq_false_iff, decide_eq_false_iff_not] at h
    rw [Function.update_of_ne (Ne.symm h.2)]
    exact m.unset q h.1

def setExpiration (m : MetaData) (value : Bytes) : MetaData := m.set .expiration value
def setReplyTo (m : MetaData) (value : Bytes) : MetaData := m.set .replyTo value
def setCorrelationID (m : MetaData) (value : Bytes) : MetaData := m.set .correlationID value
def setPriority (m : MetaData) (value : Fin 256) : MetaData := m.set .priority value
def setDeliveryMode (m : MetaData) (value : Fin 256) : MetaData := m.set .deliveryMode value
def setHeaders (m : MetaData) (value : List (Bytes × Field)) : MetaData := m.set .headers value
def setContentEncoding (m : MetaData) (value : Bytes) : MetaData := m.set .contentEncoding value
def setContentType (m : MetaData) (value : Bytes) : MetaData := m.set .contentType value
def setClusterID (m : MetaData) (value : Bytes) : MetaData := m.set .clusterID value
def setAppID (m : MetaData) (value : Bytes) : MetaData := m.set .appID value
def setUserID (m : MetaData) (value : Bytes) : MetaData := m.set .userID value
def setTypeName (m : MetaData) (value : Bytes) : MetaData := m.set .typeName value
def setTimestamp (m : MetaData) (value : Fin (256 ^ 8)) : MetaData := m.set .timestamp value
def setMessageID (m : MetaData) (value : Bytes) : MetaData := m.set .messageID value

/-- A property taken out again. -/
def clear (m : MetaData) (p : Property) : MetaData where
  bools1 := if p.second then m.bools1 else clearBit m.bools1 p.index
  bools2 := if p.second then clearBit m.bools2 p.index else m.bools2
  value  := Function.update m.value p p.type.zero
  unset q h := by
    rw [hasBit_clear] at h
    by_cases hq : p = q
    · subst hq
      exact Function.update_self ..
    · rw [Function.update_of_ne (Ne.symm hq)]
      refine m.unset q ?_
      simpa [hq] using h

def setPersistent (m : MetaData) (value : Bool) : MetaData :=
  if value then m.setDeliveryMode 2 else m.clear .deliveryMode

/-- What is written for one property. -/
def written (m : MetaData) (p : Property) : Bytes := if m.has p then (p.type.field (m.value p)).fill else []

def fill (m : MetaData) : Bytes := m.bools1 :: m.bools2 :: order.flatMap m.written

def size (m : MetaData) : Nat :=
  order.foldl (fun result p => if m.has p then result + (p.type.field (m.value p)).size else result) 2

/-- A property that was sent is taken over. -/
def receive (m : MetaData) (p : Property) (value : p.type.Value) : MetaData :=
  if h : m.has p then
    { m with
      value := Function.update m.value p value
      unset := fun q hq => by
        have hne : q ≠ p := fun he => by rw [he] at hq; exact absurd h (by rw [has, hq]; decide)
        rw [Function.update_of_ne hne]
        exact m.unset q hq }
  else m

/-- One line of `MetaData(frame)`. -/
def readProperty (m : MetaData) (p : Property) : Received MetaData :=
  if m.has p then m.receive p <$> p.type.read else pure m

/-- `MetaData(frame)`. -/
def ofFrame : Received MetaData := do
  let bools1 ← nextUint 1
  let bools2 ← nextUint 1
  order.foldlM readProperty ⟨UInt8.ofNat bools1, UInt8.ofNat bools2, fun p => p.type.zero, fun _ _ => rfl⟩

/-- Every property that is sent fits its class. -/
def Fits (m : MetaData) : Prop := ∀ p, m.has p = true → (p.type.field (m.value p)).Fits

/-! ## What the setters do

A setter sets the bit of its property and its value, and `clear` the bit and the default. Other properties keep both,
since no two share a bit (`bit_inj`). -/

theorem has_set (m : MetaData) (p q : Property) (value : p.type.Value) :
    (m.set p value).has q = (m.has q || decide (p = q)) := hasBit_set p q

theorem has_clear (m : MetaData) (p q : Property) : (m.clear p).has q = (m.has q && !decide (p = q)) := hasBit_clear p q

theorem value_set_self (m : MetaData) (p : Property) (value : p.type.Value) : (m.set p value).value p = value :=
  Function.update_self ..

theorem value_set_of_ne (m : MetaData) {p q : Property} (value : p.type.Value) (h : q ≠ p) :
    (m.set p value).value q = m.value q :=
  Function.update_of_ne h ..

theorem Fits.set {m : MetaData} (h : m.Fits) {p : Property} {value : p.type.Value} (hv : (p.type.field value).Fits) :
    (m.set p value).Fits := by
  intro q hq
  by_cases hp : p = q
  · subst hp
    rw [value_set_self]
    exact hv
  · rw [value_set_of_ne m value (Ne.symm hp)]
    refine h q ?_
    rw [has_set] at hq
    simpa [hp] using hq

theorem init_fits : init.Fits := by
  intro p hp
  have hnone : init.has p = false := by
    show hasBit 0 0 p = false
    cases p <;> decide
  rw [hnone] at hp
  cases hp

/-! ## Reading back

By induction on the order: a property whose bit is set is read as it was written, and one whose bit is not set keeps
the default it starts with. -/

theorem length_fill (m : MetaData) : m.fill.length = m.size := by
  have hprops : ∀ (props : List Property) (result : Nat), result + (props.flatMap m.written).length =
      props.foldl (fun result p => if m.has p then result + (p.type.field (m.value p)).size else result) result := by
    intro props
    induction props with
    | nil => exact fun _ => rfl
    | cons p props ih =>
        intro result
        rw [List.flatMap_cons, List.length_append, List.foldl_cons, ← ih, written]
        split
        · rw [Field.length_fill]
          omega
        · simp
  rw [size, ← hprops, fill, List.length_cons, List.length_cons]
  omega

/-- The lines of `MetaData(frame)` for the properties that are still to come: what was read before is right. -/
theorem reads_properties {m : MetaData} (hfits : m.Fits) :
    ∀ (props : List Property) (m' : MetaData), m'.bools1 = m.bools1 → m'.bools2 = m.bools2 →
      (∀ p, p ∉ props → m'.value p = m.value p) →
      Reads (props.foldlM readProperty m') (props.flatMap m.written) m := by
  intro props
  induction props with
  | nil =>
      intro m' h1 h2 hvalue
      obtain rfl : m' = m := MetaData.ext h1 h2 (funext fun p => hvalue p List.not_mem_nil)
      exact Reads.pure m'
  | cons p props ih =>
      intro m' h1 h2 hvalue
      have hhas : m'.has p = m.has p := by rw [has, has, h1, h2]
      rw [List.foldlM_cons, List.flatMap_cons]
      cases hp : m.has p with
      | true =>
          have hread : Reads (m'.readProperty p) (m.written p) (m'.receive p (m.value p)) := by
            rw [readProperty, if_pos (hhas.trans hp), written, if_pos hp]
            exact (FieldType.reads (hfits p hp)).map _
          refine hread.bind (ih _ ?_ ?_ fun q hq => ?_)
          · rw [receive, dif_pos (hhas.trans hp)]
            exact h1
          · rw [receive, dif_pos (hhas.trans hp)]
            exact h2
          · rw [receive, dif_pos (hhas.trans hp)]
            by_cases hqp : q = p
            · subst hqp
              exact Function.update_self ..
            · show Function.update m'.value p (m.value p) q = m.value q
              rw [Function.update_of_ne hqp]
              exact hvalue q (by simp [hqp, hq])
      | false =>
          have hread : Reads (m'.readProperty p) (m.written p) m' := by
            rw [readProperty, if_neg (by rw [hhas, hp]; decide), written, if_neg (by rw [hp]; decide)]
            exact Reads.pure m'
          refine hread.bind (ih m' h1 h2 fun q hq => ?_)
          by_cases hqp : q = p
          · subst hqp
            rw [m.unset q hp, m'.unset q (hhas.trans hp)]
          · exact hvalue q (by simp [hqp, hq])

/-- The properties are read back as they were, those that are not set at their defaults. -/
theorem reads_ofFrame {m : MetaData} (h : m.Fits) : Reads ofFrame m.fill m := by
  have hread := reads_properties h order
    ⟨UInt8.ofNat m.bools1.toNat, UInt8.ofNat m.bools2.toNat, fun p => p.type.zero, fun _ _ => rfl⟩
    UInt8.ofNat_toNat UInt8.ofNat_toNat fun p hp => absurd (mem_order p) hp
  exact (reads_octet m.bools1).bind ((reads_octet m.bools2).bind hread)

end MetaData

end NewOrbit.Amqp
