import NewOrbit.Amqp.MetaData

/-!
# `Amqp.Method` — the frames and their layout

A method frame is its class and method number and its arguments, in a fixed `layout`. Each class of frames announces
a payload size worked out by hand in its constructor: a `constant`, and the lengths of its strings and tables. The
other frames are headers, bodies and heartbeats. What is announced is what is written, for every frame
(`FrameContent.length_payload`), and what is written is read back (`FrameContent.reads`).
-/

namespace NewOrbit.Amqp
open CString Framing Wire

/-! ## Method frames

The class and the method number, the members in their order and the constant of the constructor are a table, from the
headers of the frames. The switches of `processMethodFrame` are a second one, and find each frame by its numbers. -/

inductive MethodID
  | connectionStart | connectionStartOK | connectionSecure | connectionSecureOK | connectionTune | connectionTuneOK
  | connectionOpen | connectionOpenOK | connectionClose | connectionCloseOK
  | channelOpen | channelOpenOK | channelFlow | channelFlowOK | channelClose | channelCloseOK
  | exchangeDeclare | exchangeDeclareOK | exchangeDelete | exchangeDeleteOK | exchangeBind | exchangeBindOK
  | exchangeUnbind | exchangeUnbindOK
  | queueDeclare | queueDeclareOK | queueBind | queueBindOK | queuePurge | queuePurgeOK | queueDelete | queueDeleteOK
  | queueUnbind | queueUnbindOK
  | basicQos | basicQosOK | basicConsume | basicConsumeOK | basicCancel | basicCancelOK | basicPublish | basicReturn
  | basicDeliver | basicGet | basicGetOK | basicGetEmpty | basicAck | basicReject | basicRecoverAsync | basicRecover
  | basicRecoverOK | basicNack
  | transactionSelect | transactionSelectOK | transactionCommit | transactionCommitOK | transactionRollback
  | transactionRollbackOK
  deriving DecidableEq, Repr

/-- The switch of `processConnectionFrame`. -/
def connectionFrame : Nat → Option MethodID
  | 10 => some .connectionStart
  | 11 => some .connectionStartOK
  | 20 => some .connectionSecure
  | 21 => some .connectionSecureOK
  | 30 => some .connectionTune
  | 31 => some .connectionTuneOK
  | 40 => some .connectionOpen
  | 41 => some .connectionOpenOK
  | 50 => some .connectionClose
  | 51 => some .connectionCloseOK
  | _  => none

/-- The switch of `processChannelFrame`. -/
def channelFrame : Nat → Option MethodID
  | 10 => some .channelOpen
  | 11 => some .channelOpenOK
  | 20 => some .channelFlow
  | 21 => some .channelFlowOK
  | 40 => some .channelClose
  | 41 => some .channelCloseOK
  | _  => none

/-- The switch of `processExchangeFrame`; the answer to an unbind is 51. -/
def exchangeFrame : Nat → Option MethodID
  | 10 => some .exchangeDeclare
  | 11 => some .exchangeDeclareOK
  | 20 => some .exchangeDelete
  | 21 => some .exchangeDeleteOK
  | 30 => some .exchangeBind
  | 31 => some .exchangeBindOK
  | 40 => some .exchangeUnbind
  | 51 => some .exchangeUnbindOK
  | _  => none

/-- The switch of `processQueueFrame`. -/
def queueFrame : Nat → Option MethodID
  | 10 => some .queueDeclare
  | 11 => some .queueDeclareOK
  | 20 => some .queueBind
  | 21 => some .queueBindOK
  | 30 => some .queuePurge
  | 31 => some .queuePurgeOK
  | 40 => some .queueDelete
  | 41 => some .queueDeleteOK
  | 50 => some .queueUnbind
  | 51 => some .queueUnbindOK
  | _  => none

/-- The switch of `processBasicFrame`. -/
def basicFrame : Nat → Option MethodID
  | 10  => some .basicQos
  | 11  => some .basicQosOK
  | 20  => some .basicConsume
  | 21  => some .basicConsumeOK
  | 30  => some .basicCancel
  | 31  => some .basicCancelOK
  | 40  => some .basicPublish
  | 50  => some .basicReturn
  | 60  => some .basicDeliver
  | 70  => some .basicGet
  | 71  => some .basicGetOK
  | 72  => some .basicGetEmpty
  | 80  => some .basicAck
  | 90  => some .basicReject
  | 100 => some .basicRecoverAsync
  | 110 => some .basicRecover
  | 111 => some .basicRecoverOK
  | 120 => some .basicNack
  | _   => none

/-- The switch of `processTransactionFrame`. -/
def transactionFrame : Nat → Option MethodID
  | 10 => some .transactionSelect
  | 11 => some .transactionSelectOK
  | 20 => some .transactionCommit
  | 21 => some .transactionCommitOK
  | 30 => some .transactionRollback
  | 31 => some .transactionRollbackOK
  | _  => none

/-- The switch of `processMethodFrame`: the name of the class in the errors, and its methods. -/
def methodClass : Nat → Option (String × (Nat → Option MethodID))
  | 10 => some ("connection", connectionFrame)
  | 20 => some ("channel", channelFrame)
  | 40 => some ("exchange", exchangeFrame)
  | 50 => some ("queue", queueFrame)
  | 60 => some ("basic", basicFrame)
  | 90 => some ("transaction", transactionFrame)
  | _  => none

namespace MethodID

def classID : MethodID → Nat
  | connectionStart | connectionStartOK | connectionSecure | connectionSecureOK | connectionTune | connectionTuneOK
  | connectionOpen | connectionOpenOK | connectionClose | connectionCloseOK                                         => 10
  | channelOpen | channelOpenOK | channelFlow | channelFlowOK | channelClose | channelCloseOK                       => 20
  | exchangeDeclare | exchangeDeclareOK | exchangeDelete | exchangeDeleteOK | exchangeBind | exchangeBindOK
  | exchangeUnbind | exchangeUnbindOK                                                                               => 40
  | queueDeclare | queueDeclareOK | queueBind | queueBindOK | queuePurge | queuePurgeOK | queueDelete
  | queueDeleteOK | queueUnbind | queueUnbindOK                                                                     => 50
  | basicQos | basicQosOK | basicConsume | basicConsumeOK | basicCancel | basicCancelOK | basicPublish | basicReturn
  | basicDeliver | basicGet | basicGetOK | basicGetEmpty | basicAck | basicReject | basicRecoverAsync | basicRecover
  | basicRecoverOK | basicNack                                                                                      => 60
  | transactionSelect | transactionSelectOK | transactionCommit | transactionCommitOK | transactionRollback
  | transactionRollbackOK                                                                                           => 90

def methodID : MethodID → Nat
  | connectionStart | channelOpen | exchangeDeclare | queueDeclare | basicQos | transactionSelect               => 10
  | connectionStartOK | channelOpenOK | exchangeDeclareOK | queueDeclareOK | basicQosOK | transactionSelectOK   => 11
  | connectionSecure | channelFlow | exchangeDelete | queueBind | basicConsume | transactionCommit              => 20
  | connectionSecureOK | channelFlowOK | exchangeDeleteOK | queueBindOK | basicConsumeOK | transactionCommitOK  => 21
  | connectionTune | exchangeBind | queuePurge | basicCancel | transactionRollback                              => 30
  | connectionTuneOK | exchangeBindOK | queuePurgeOK | basicCancelOK | transactionRollbackOK                    => 31
  | connectionOpen | channelClose | exchangeUnbind | queueDelete | basicPublish                                 => 40
  | connectionOpenOK | channelCloseOK | queueDeleteOK                                                           => 41
  | connectionClose | queueUnbind | basicReturn                                                                 => 50
  | connectionCloseOK | exchangeUnbindOK | queueUnbindOK                                                        => 51
  | basicDeliver                                                                                                => 60
  | basicGet                                                                                                    => 70
  | basicGetOK                                                                                                  => 71
  | basicGetEmpty                                                                                               => 72
  | basicAck                                                                                                    => 80
  | basicReject                                                                                                 => 90
  | basicRecoverAsync                                                                                           => 100
  | basicRecover                                                                                                => 110
  | basicRecoverOK                                                                                              => 111
  | basicNack                                                                                                   => 120

/-- The members, in the order in which the constructor reads them and `fill` writes them. The strings that
    `ChannelOpenFrame` and `ChannelOpenOKFrame` call unused are members here too. -/
def layout : MethodID → List FieldType
  | connectionStart   => [.numeric .uOctet, .numeric .uOctet, .table, .longString, .longString]
  | connectionStartOK => [.table, .shortString, .longString, .shortString]
  | connectionSecure | connectionSecureOK => [.longString]
  | connectionTune | connectionTuneOK => [.numeric .uShort, .numeric .uLong, .numeric .uShort]
  | connectionOpen    => [.shortString, .shortString, .booleanSet]
  | connectionOpenOK  => [.shortString]
  | connectionClose   => [.numeric .uShort, .shortString, .numeric .uShort, .numeric .uShort]
  | channelOpen       => [.shortString]
  | channelOpenOK     => [.longString]
  | channelFlow | channelFlowOK => [.booleanSet]
  | channelClose      => [.numeric .short, .shortString, .numeric .short, .numeric .short]
  | exchangeDeclare   => [.numeric .uShort, .shortString, .shortString, .booleanSet, .table]
  | exchangeDelete    => [.numeric .uShort, .shortString, .booleanSet]
  | exchangeBind | exchangeUnbind =>
    [.numeric .uShort, .shortString, .shortString, .shortString, .booleanSet, .table]
  | queueDeclare      => [.numeric .short, .shortString, .booleanSet, .table]
  | queueDeclareOK    => [.shortString, .numeric .long, .numeric .long]
  | queueBind         => [.numeric .uShort, .shortString, .shortString, .shortString, .booleanSet, .table]
  | queuePurge | queueDelete => [.numeric .short, .shortString, .booleanSet]
  | queuePurgeOK | queueDeleteOK => [.numeric .long]
  | queueUnbind       => [.numeric .short, .shortString, .shortString, .shortString, .table]
  | basicQos          => [.numeric .long, .numeric .short, .booleanSet]
  | basicConsume      => [.numeric .uShort, .shortString, .shortString, .booleanSet, .table]
  | basicConsumeOK | basicCancelOK => [.shortString]
  | basicCancel       => [.shortString, .booleanSet]
  | basicPublish      => [.numeric .short, .shortString, .shortString, .booleanSet]
  | basicReturn       => [.numeric .short, .shortString, .shortString, .shortString]
  | basicDeliver      => [.shortString, .numeric .uLongLong, .booleanSet, .shortString, .shortString]
  | basicGet          => [.numeric .uShort, .shortString, .booleanSet]
  | basicGetOK        => [.numeric .uLongLong, .booleanSet, .shortString, .shortString, .numeric .uLong]
  | basicGetEmpty     => [.shortString]
  | basicAck | basicNack => [.numeric .uLongLong, .booleanSet]
  | basicReject       => [.numeric .longLong, .booleanSet]
  | basicRecoverAsync | basicRecover => [.booleanSet]
  | connectionCloseOK | channelCloseOK | exchangeDeclareOK | exchangeDeleteOK | exchangeBindOK | exchangeUnbindOK
  | queueBindOK | queueUnbindOK | basicQosOK | basicRecoverOK | transactionSelect | transactionSelectOK
  | transactionCommit | transactionCommitOK | transactionRollback | transactionRollbackOK => []

/-- The number in the size that the constructor announces. -/
def constant : MethodID → Nat
  | connectionStart                         => 10
  | connectionStartOK                       => 6
  | connectionSecure | connectionSecureOK   => 4
  | connectionTune | connectionTuneOK       => 8
  | connectionOpen                          => 3
  | connectionOpenOK                        => 1
  | connectionClose | channelClose          => 7
  | channelOpen | channelFlow | channelFlowOK => 1
  | channelOpenOK                           => 4
  | exchangeDeclare                         => 5
  | exchangeDelete                          => 4
  | exchangeBind | exchangeUnbind           => 6
  | queueDeclare | queuePurge | queueDelete => 4
  | queueDeclareOK                          => 9
  | queueBind                               => 6
  | queuePurgeOK | queueDeleteOK            => 4
  | queueUnbind                             => 5
  | basicQos                                => 7
  | basicConsume                            => 5
  | basicConsumeOK | basicCancelOK          => 1
  | basicCancel                             => 2
  | basicPublish | basicReturn              => 5
  | basicDeliver                            => 12
  | basicGet                                => 4
  | basicGetOK                              => 15
  | basicGetEmpty                           => 1
  | basicAck | basicReject | basicNack      => 9
  | basicRecoverAsync | basicRecover        => 1
  | connectionCloseOK | channelCloseOK | exchangeDeclareOK | exchangeDeleteOK | exchangeBindOK | exchangeUnbindOK
  | queueBindOK | queueUnbindOK | basicQosOK | basicRecoverOK | transactionSelect | transactionSelectOK
  | transactionCommit | transactionCommitOK | transactionRollback | transactionRollbackOK => 0

end MethodID

/-- The switches find every method frame by its numbers. -/
theorem methodClass_classID (m : MethodID) : ∃ name methods, methodClass m.classID = some (name, methods) ∧
    methods m.methodID = some m := by
  cases m <;> exact ⟨_, _, rfl, rfl⟩

/-! ## Arguments

A layout is read and written member by member, so that the length and the round trip of any frame follow by induction
on its layout. Only that the constants are right is a matter of each frame (`constant_eq`). -/

/-- A value for each member of the layout. -/
def Arguments : List FieldType → Type
  | []      => Unit
  | t :: ts => t.Value × Arguments ts

def fillArguments : (ts : List FieldType) → Arguments ts → Bytes
  | [],      _       => []
  | t :: ts, (v, vs) => (t.field v).fill ++ fillArguments ts vs

def readArguments : (ts : List FieldType) → Received (Arguments ts)
  | []      => pure ()
  | t :: ts => do
    let v ← t.read
    (fun vs => (v, vs)) <$> readArguments ts

def FitsArguments : (ts : List FieldType) → Arguments ts → Prop
  | [],      _       => True
  | t :: ts, (v, vs) => (t.field v).Fits ∧ FitsArguments ts vs

/-- What the constructors add for a member: the length of a string, the size of a table. -/
def FieldType.counted : (t : FieldType) → t.Value → Nat
  | .shortString, data   => data.length
  | .longString,  data   => data.length
  | .array,       fields => (Field.array fields).size
  | .table,       fields => (Field.table fields).size
  | _,            _      => 0

/-- The octets of a member that do not depend on its value. -/
def FieldType.fixed : FieldType → Nat
  | .booleanSet   => 1
  | .numeric type => type.width
  | .decimal      => 5
  | .shortString  => 1
  | .longString   => 4
  | .array        => 0
  | .table        => 0

def fixedArguments : List FieldType → Nat
  | []      => 0
  | t :: ts => t.fixed + fixedArguments ts

def countedArguments : (ts : List FieldType) → Arguments ts → Nat
  | [],      _       => 0
  | t :: ts, (v, vs) => t.counted v + countedArguments ts vs

/-- The constants in the constructors are right. -/
theorem constant_eq (m : MethodID) : m.constant = fixedArguments m.layout := by
  cases m <;> rfl

theorem size_field (t : FieldType) (v : t.Value) : (t.field v).size = t.fixed + t.counted v := by
  cases t with
  | decimal => cases v; rfl
  | _ => simp [FieldType.field, FieldType.fixed, FieldType.counted, Field.size]

theorem length_fillArguments : (ts : List FieldType) → (vs : Arguments ts) →
    (fillArguments ts vs).length = fixedArguments ts + countedArguments ts vs
  | [],      _       => rfl
  | t :: ts, (v, vs) => by
      have hfirst : (t.field v).fill.length = t.fixed + t.counted v := (Field.length_fill _).trans (size_field t v)
      simp only [fillArguments, fixedArguments, countedArguments, List.length_append, hfirst,
        length_fillArguments ts vs]
      omega

theorem reads_readArguments : (ts : List FieldType) → (vs : Arguments ts) → FitsArguments ts vs →
    Reads (readArguments ts) (fillArguments ts vs) vs
  | [],      _,       _ => Reads.pure ()
  | _ :: ts, (_, vs), h => (FieldType.reads h.1).bind ((reads_readArguments ts vs h.2).map _)

/-! ## Frames

The other frames have no layout of this kind: a content header goes by its property flags, and a body is what is left
of the payload. -/

structure MethodFrame where
  method    : MethodID
  arguments : Arguments method.layout

namespace MethodFrame

def payload (f : MethodFrame) : Bytes :=
  be 2 f.method.classID ++ (be 2 f.method.methodID ++ fillArguments f.method.layout f.arguments)

/-- The size the constructor of the class announces, with the four octets of `MethodFrame`. -/
def size (f : MethodFrame) : Nat := f.method.constant + countedArguments f.method.layout f.arguments + 4

/-- `processMethodFrame` and the constructor it chooses. -/
def read : Received MethodFrame := do
  let classID ← nextUint 2
  match methodClass classID with
  | none                 => throw ⟨"unrecognized method frame class " ++ toString classID⟩
  | some (name, methods) => do
    let methodID ← nextUint 2
    match methods methodID with
    | none        => throw ⟨"unrecognized " ++ name ++ " frame method " ++ toString methodID⟩
    | some method => (fun arguments => ⟨method, arguments⟩) <$> readArguments method.layout

def Fits (f : MethodFrame) : Prop := FitsArguments f.method.layout f.arguments

theorem length_payload (f : MethodFrame) : f.payload.length = f.size := by
  simp only [payload, size, List.length_append, length_be, length_fillArguments, constant_eq]
  omega

theorem reads {f : MethodFrame} (h : f.Fits) : Reads read f.payload f := by
  obtain ⟨method, arguments⟩ := f
  have hclassID : method.classID < 256 ^ 2 := by cases method <;> decide
  have hmethodID : method.methodID < 256 ^ 2 := by cases method <;> decide
  obtain ⟨name, methods, hclass, hmethod⟩ := methodClass_classID method
  refine (reads_unsigned outOfRange 2 hclassID).bind ?_
  rw [hclass]
  refine (reads_unsigned outOfRange 2 hmethodID).bind ?_
  simp only [hmethod]
  exact (reads_readArguments method.layout arguments h).map _

end MethodFrame

/-- What a frame is about. A header has the size of the body and the properties; its weight is 0 when sent and not
    looked at when received. A heartbeat has nothing. -/
inductive FrameContent
  | method (f : MethodFrame)
  | header (bodySize : Fin (256 ^ 8)) (metadata : MetaData)
  | body (payload : Bytes)
  | heartbeat

namespace FrameContent

def type : FrameContent → UInt8
  | method _   => 1
  | header _ _ => 2
  | body _     => 3
  | heartbeat  => 8

def payload : FrameContent → Bytes
  | method f                 => f.payload
  | header bodySize metadata => be 2 60 ++ (be 2 0 ++ (be 8 bodySize ++ metadata.fill))
  | body payload             => payload
  | heartbeat                => []

/-- The payload size the constructors announce. -/
def size : FrameContent → Nat
  | method f          => f.size
  | header _ metadata => 10 + metadata.size + 2
  | body payload      => payload.length
  | heartbeat         => 0

/-- What `ReceivedFrame::process` makes of a frame of this type: the constructor it chooses. -/
def read (type payloadSize : Nat) : Received FrameContent :=
  match type with
  | 1 => method <$> MethodFrame.read
  | 2 => do
    let classID ← nextUint 2
    match classID with
    | 60 => do
      let _weight ← nextUint 2
      let bodySize ← nextUint 8
      header (cut 8 bodySize) <$> MetaData.ofFrame
    | _  => throw ⟨"unrecognized header frame class " ++ toString classID⟩
  | 3 => body <$> nextData payloadSize
  | 4 => pure heartbeat
  | 8 => pure heartbeat
  | _ => throw ⟨"unrecognized frame type " ++ toString type⟩

def Fits : FrameContent → Prop
  | method f          => f.Fits
  | header _ metadata => metadata.Fits
  | body _            => True
  | heartbeat         => True

/-- **Every frame writes the octets it announces.** -/
theorem length_payload (f : FrameContent) : f.payload.length = f.size := by
  cases f with
  | method f => exact f.length_payload
  | header bodySize metadata =>
      simp only [payload, size, List.length_append, length_be, metadata.length_fill]
      omega
  | body payload => rfl
  | heartbeat => rfl

/-- **Every frame is read back.** -/
theorem reads {f : FrameContent} (h : f.Fits) : Reads (read f.type.toNat f.size) f.payload f := by
  cases f with
  | method f => exact (MethodFrame.reads h).map method
  | header bodySize metadata =>
      have hclass : Reads (nextUint 2) (be 2 60) 60 := reads_unsigned outOfRange 2 (by decide)
      have hweight : Reads (nextUint 2) (be 2 0) 0 := reads_unsigned outOfRange 2 (by decide)
      have hsize : Reads (nextUint 8) (be 8 bodySize) bodySize.val := reads_unsigned outOfRange 8 bodySize.isLt
      refine hclass.bind (hweight.bind (hsize.bind (((MetaData.reads_ofFrame h).map _).of_eq ?_)))
      rw [cut_val]
  | body payload => exact (reads_octets outOfRange payload).map body
  | heartbeat => exact Reads.pure heartbeat

end FrameContent

end NewOrbit.Amqp
