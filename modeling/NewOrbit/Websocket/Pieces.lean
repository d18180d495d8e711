import NewOrbit.Lib.Turns
import NewOrbit.Websocket.Hybi13

/-!
# `Websocket.Pieces` — a stream that comes in pieces

The connection calls `consume` and `getMessage` in turn while octets are left. What a turn of that does is said once
(`turn_read`), and so it is that a turn that takes less than is needed is continued by the next (`turn_short`). So
the messages and the error do not depend on the pieces the stream comes in (`readPieces_eq`).
-/

namespace NewOrbit.Websocket
open CString Octets Turns

namespace Hybi13

/-! ## What every turn keeps

The state says how many octets the processor waits for and where they go: to the basic header, behind the cursor of
the extended header, or into the message at hand, which there must be one of. The masking key of a message is a
prepared one, and stays one when it is rotated by what was unmasked. -/

/-- The key of a message is a prepared one. -/
def Keyed (little : Bool) (m : Option Metadata) : Prop := ∀ x, m = some x → ∃ ks, Prepared little x.preparedKey ks

/-- The octets that are needed belong to the field that is being read, and where one is being read there is a
    message. -/
def Reading (bytesNeeded cursor : Nat) (message : Prop) : State → Prop
  | .HEADER_BASIC             => bytesNeeded = 1 ∨ bytesNeeded = 2
  | .HEADER_EXTENDED          => cursor + bytesNeeded ≤ 12
  | .APPLICATION | .READY     => message
  | .EXTENSION | .FATAL_ERROR => False

/-- What holds between two turns. -/
structure Sound (h : Hybi13) : Prop where
  field   : Reading h.bytesNeeded h.cursor (h.current.isSome = true) h.state
  data    : Keyed h.little h.dataMsg
  control : Keyed h.little h.controlMsg

theorem sound_init (server little : Bool) (maxMessageSize : Nat) : Sound (init server little maxMessageSize) :=
  ⟨.inr rfl, (fun _ h => by cases h), (fun _ h => by cases h)⟩

variable {h h' : Hybi13} {buf : Bytes} {p q : Nat}

@[simp] theorem current_setCurrent (h : Hybi13) (m : Option Metadata) : (h.setCurrent m).current = m := by
  rw [setCurrent]
  cases h.currentMsg <;> rfl

/-- Storing a message changes nothing else. -/
theorem setCurrent_frame (h : Hybi13) (m : Option Metadata) :
    (h.setCurrent m).state = h.state ∧ (h.setCurrent m).bytesNeeded = h.bytesNeeded ∧
      (h.setCurrent m).little = h.little ∧ (h.setCurrent m).basicHeader = h.basicHeader := by
  rw [setCurrent]
  cases h.currentMsg <;> exact ⟨rfl, rfl, rfl, rfl⟩

theorem Sound.keyed_current (hs : h.Sound) : Keyed h.little h.current := by
  rw [current]
  cases h.currentMsg with
  | data => exact hs.data
  | control => exact hs.control

theorem Sound.resetHeaders (hs : h.Sound) : h.resetHeaders.Sound := ⟨.inr rfl, hs.data, hs.control⟩

theorem getHeaderLen_le (b : BasicHeader) : getHeaderLen b - 2 ≤ 12 := by
  have hoffset : getMaskingKeyOffset b ≤ 8 := by
    rw [getMaskingKeyOffset]
    split
    · decide
    · split <;> decide
  rw [getHeaderLen]
  split <;> omega

theorem Sound.basicRead (hdata : Keyed h.little h.dataMsg) (hcontrol : Keyed h.little h.controlMsg)
    (hread : h.basicRead p = (h', q, none)) : h'.Sound := by
  rw [Hybi13.basicRead] at hread
  split at hread
  · cases hread
  · cases hread
    exact ⟨by show 0 + _ ≤ 12; rw [Nat.zero_add]; exact getHeaderLen_le _, hdata, hcontrol⟩

theorem keyed_newMetadata (h : Hybi13) : Keyed h.little (some h.newMetadata) := by
  rintro _ ⟨⟩
  exact ⟨_, prepared_key _⟩

theorem Sound.extendedRead (hdata : Keyed h.little h.dataMsg) (hcontrol : Keyed h.little h.controlMsg)
    (hread : h.extendedRead p = (h', q, none)) : h'.Sound := by
  rw [Hybi13.extendedRead] at hread
  split at hread
  · cases hread
  · dsimp only at hread
    split at hread
    · cases hread
      exact ⟨rfl, hdata, keyed_newMetadata _⟩
    · split at hread
      · split at hread
        · cases hread
        · cases hread
          exact ⟨rfl, keyed_newMetadata _, hcontrol⟩
      · split at hread
        · cases hread
        · cases hread
          refine ⟨rfl, ?_, hcontrol⟩
          rintro _ ⟨⟩
          exact ⟨_, prepared_key _⟩

theorem Sound.setCurrent {m : Metadata} (hdata : Keyed h.little h.dataMsg) (hcontrol : Keyed h.little h.controlMsg)
    (hm : Keyed h.little (some m)) :
    Keyed h.little (h.setCurrent (some m)).dataMsg ∧ Keyed h.little (h.setCurrent (some m)).controlMsg := by
  rw [Hybi13.setCurrent]
  cases h.currentMsg with
  | data => exact ⟨hm, hcontrol⟩
  | control => exact ⟨hdata, hm⟩

theorem preparedKey_absorb (m : Metadata) (little masked : Bool) (buf : Bytes) :
    (m.absorb little masked buf).1.preparedKey =
      if masked then (byteMaskCirc little buf m.preparedKey).2 else m.preparedKey := by
  rw [Metadata.absorb]
  dsimp only
  cases masked <;> split <;> rfl

/-- The key of a message that octets went into is a prepared one again. -/
theorem keyed_absorb {m : Metadata} {little masked : Bool} (hm : Keyed little (some m)) (buf : Bytes) :
    Keyed little (some (m.absorb little masked buf).1) := by
  rintro _ ⟨⟩
  obtain ⟨ks, hks⟩ := hm m rfl
  rw [preparedKey_absorb]
  cases masked with
  | false => exact ⟨ks, hks⟩
  | true => exact ⟨_, (byteMaskCirc_eq hks buf).2⟩

/-- What the octets of a payload do. -/
theorem processPayloadBytes_eq {m : Metadata} (hm : h.current = some m) (buf : Bytes) :
    h.processPayloadBytes buf =
      if (m.absorb h.little (getMasked h.basicHeader) buf).2 then
        ({ h.setCurrent (some (m.absorb h.little (getMasked h.basicHeader) buf).1) with
            bytesNeeded := h.bytesNeeded - buf.length }, buf.length, none)
      else (h.setCurrent (some (m.absorb h.little (getMasked h.basicHeader) buf).1), 0, some .invalid_utf8) := by
  rw [processPayloadBytes, hm]
  dsimp only
  cases (m.absorb h.little (getMasked h.basicHeader) buf).2 <;> rfl

/-- At the end of a frame the message is ready, or goes on in another frame. -/
theorem applicationRead_eq {m : Metadata} (hm : h.current = some m) (p : Nat) :
    h.applicationRead p =
      if getFin h.basicHeader then
        if getOpcode h.basicHeader = .text && !m.validator.complete then (h, p, some .invalid_utf8)
        else ({ h with state := .READY }, p, none)
      else (h.resetHeaders, p, none) := by
  rw [applicationRead, finalizeMessage, hm]
  dsimp only
  split
  · split <;> rfl
  · rfl

theorem Sound.applicationRead (hs : h.Sound) (hcur : h.current.isSome) (hread : h.applicationRead p = (h', q, none)) :
    h'.Sound := by
  obtain ⟨m, hm⟩ := Option.isSome_iff_exists.mp hcur
  rw [applicationRead_eq hm] at hread
  split at hread
  · split at hread
    · cases hread
    · cases hread
      exact ⟨hcur, hs.data, hs.control⟩
  · cases hread
    exact hs.resetHeaders

/-! ## The three fields

Each turn takes what is there of a field, and goes on once nothing of it is needed. -/

theorem turn_basic (hstate : h.state = .HEADER_BASIC) (buf : Bytes) :
    h.turn buf = if 0 < (h.copyBasicHeaderBytes buf).1.bytesNeeded then
        ((h.copyBasicHeaderBytes buf).1, (h.copyBasicHeaderBytes buf).2, none)
      else (h.copyBasicHeaderBytes buf).1.basicRead (h.copyBasicHeaderBytes buf).2 := by
  rw [turn, hstate]

theorem turn_extended (hstate : h.state = .HEADER_EXTENDED) (buf : Bytes) :
    h.turn buf = if 0 < h.bytesNeeded - min h.bytesNeeded buf.length then
        ((h.copyExtendedHeaderBytes buf).1, min h.bytesNeeded buf.length, none)
      else (h.copyExtendedHeaderBytes buf).1.extendedRead (min h.bytesNeeded buf.length) := by
  rw [turn, hstate]
  rfl

/-- The message with the next octets in it. -/
def withPayload (h : Hybi13) (m : Metadata) (buf : Bytes) : Hybi13 :=
  { h.setCurrent (some (m.absorb h.little (getMasked h.basicHeader) buf).1) with
      bytesNeeded := h.bytesNeeded - buf.length }

theorem turn_application {m : Metadata} (hstate : h.state = .APPLICATION) (hm : h.current = some m) (buf : Bytes) :
    h.turn buf =
      if min h.bytesNeeded buf.length = 0 then
        if 0 < h.bytesNeeded then (h, 0, none) else h.applicationRead 0
      else if (m.absorb h.little (getMasked h.basicHeader) (buf.take (min h.bytesNeeded buf.length))).2 then
        if 0 < h.bytesNeeded - min h.bytesNeeded buf.length then
          (h.withPayload m (buf.take (min h.bytesNeeded buf.length)), min h.bytesNeeded buf.length, none)
        else
          (h.withPayload m (buf.take (min h.bytesNeeded buf.length))).applicationRead (min h.bytesNeeded buf.length)
      else
        (h.setCurrent (some (m.absorb h.little (getMasked h.basicHeader) (buf.take (min h.bytesNeeded buf.length))).1),
          0, some .invalid_utf8) := by
  have hlen : (buf.take (min h.bytesNeeded buf.length)).length = min h.bytesNeeded buf.length := by
    rw [List.length_take]; omega
  rw [turn, hstate]
  dsimp only
  by_cases h0 : min h.bytesNeeded buf.length = 0
  · have hneg : ¬ 0 < min h.bytesNeeded buf.length := by omega
    simp only [if_pos h0, if_neg hneg, Option.isSome_none, Bool.false_eq_true, if_false]
  · have hpos : 0 < min h.bytesNeeded buf.length := by omega
    rw [if_neg h0, if_pos hpos, processPayloadBytes_eq hm]
    cases (m.absorb h.little (getMasked h.basicHeader) (buf.take (min h.bytesNeeded buf.length))).2 with
    | false => rfl
    | true => simp only [if_true, hlen, withPayload, Option.isSome_none, Bool.false_eq_true, if_false]

theorem turn_basic_two (hstate : h.state = .HEADER_BASIC) (hneed : h.bytesNeeded = 2) (b0 b1 : UInt8) (rest : Bytes) :
    h.turn (b0 :: b1 :: rest) = basicRead { h with basicHeader := ⟨b0, b1⟩, bytesNeeded := 0 } 2 := by
  rw [turn_basic hstate, copyBasicHeaderBytes, hneed]
  rfl

theorem turn_basic_first (hstate : h.state = .HEADER_BASIC) (hneed : h.bytesNeeded = 2) (b : UInt8) :
    h.turn [b] = ({ h with basicHeader := ⟨b, h.basicHeader.b1⟩, bytesNeeded := 1 }, 1, none) := by
  rw [turn_basic hstate, copyBasicHeaderBytes, hneed]
  rfl

theorem turn_basic_second (hstate : h.state = .HEADER_BASIC) (hneed : h.bytesNeeded = 1) (b : UInt8) (rest : Bytes) :
    h.turn (b :: rest) = basicRead { h with basicHeader := ⟨h.basicHeader.b0, b⟩, bytesNeeded := 0 } 1 := by
  rw [turn_basic hstate]
  cases rest <;> rw [copyBasicHeaderBytes, hneed] <;> rfl

/-! ## In pieces

A turn is compared with the turn on more octets. Where enough is there, more changes nothing (`turn_enough`); where
less is, all of it is taken and the next turn goes on from there, or the turn fails already (`turn_short`). Unmasking
and the check of the text go octet by octet, which is why a payload may be cut anywhere (`absorb_append`). The weight
of a state bounds the turns that are left: a turn that takes no octet goes to a state of lower rank. -/

/-- How a turn of `consume` ends. -/
def outcome : Hybi13 × Nat × Option ProcessorError → Turn Hybi13 Message ProcessorError
  | (h', p, none)   => .read h' p
  | (_, _, some ec) => .fail ec

/-- The turns of the loop in which the connection calls `consume` and `getMessage`. -/
def next (h : Hybi13) (buf : Bytes) : Turn Hybi13 Message ProcessorError :=
  if h.ready then
    match h.getMessage with
    | (some m, h') => .emit m h'
    | (none, h')   => .read h' 0
  else if buf.length = 0 ∧ h.bytesNeeded ≠ 0 then .wait
  else outcome (h.turn buf)

/-- A result, with `n` more octets taken. -/
def further (n : Nat) (r : Hybi13 × Nat × Option ProcessorError) : Hybi13 × Nat × Option ProcessorError :=
  (r.1, n + r.2.1, r.2.2)

theorem basicRead_further (h : Hybi13) (n p : Nat) : h.basicRead (n + p) = further n (h.basicRead p) := by
  rw [Hybi13.basicRead, Hybi13.basicRead]
  split <;> rfl

theorem extendedRead_further (h : Hybi13) (n p : Nat) : h.extendedRead (n + p) = further n (h.extendedRead p) := by
  rw [Hybi13.extendedRead, Hybi13.extendedRead]
  split
  · rfl
  · dsimp only
    split
    · rfl
    · split <;> split <;> rfl

theorem applicationRead_further (h : Hybi13) (n p : Nat) : h.applicationRead (n + p) = further n (h.applicationRead p) := by
  rw [Hybi13.applicationRead, Hybi13.applicationRead]
  split <;> rfl

theorem basicRead_inv (hread : h.basicRead p = (h', q, none)) : q = p ∧ h'.state = .HEADER_EXTENDED := by
  rw [Hybi13.basicRead] at hread
  split at hread <;> cases hread
  exact ⟨rfl, rfl⟩

theorem extendedRead_inv (hread : h.extendedRead p = (h', q, none)) : q = p ∧ h'.state = .APPLICATION := by
  rw [Hybi13.extendedRead] at hread
  split at hread
  · cases hread
  · dsimp only at hread
    split at hread
    · cases hread
      exact ⟨rfl, rfl⟩
    · split at hread <;> split at hread <;> cases hread <;> exact ⟨rfl, rfl⟩

theorem applicationRead_inv {m : Metadata} (hm : h.current = some m) (hread : h.applicationRead p = (h', q, none)) :
    q = p ∧ (h'.state = .READY ∨ h'.state = .HEADER_BASIC ∧ h'.bytesNeeded = 2) := by
  rw [applicationRead_eq hm] at hread
  split at hread
  · split at hread
    · cases hread
    · cases hread
      exact ⟨rfl, .inl rfl⟩
  · cases hread
    exact ⟨rfl, .inr ⟨rfl, rfl⟩⟩

/-- A message takes two pieces as it takes them together. -/
theorem absorb_append {m : Metadata} {little masked : Bool} (hm : Keyed little (some m)) (xs ys : Bytes) :
    ((m.absorb little masked xs).2 = true →
        m.absorb little masked (xs ++ ys) = (m.absorb little masked xs).1.absorb little masked ys) ∧
      ((m.absorb little masked xs).2 = false → (m.absorb little masked (xs ++ ys)).2 = false) := by
  obtain ⟨ks, hks⟩ := hm m rfl
  -- What is unmasked, and the key that is left.
  obtain ⟨out, hout⟩ : ∃ out : Bytes → UInt64 → Bytes × UInt64,
      (if masked then byteMaskCirc little else fun buf key => (buf, key)) = out := ⟨_, rfl⟩
  have habsorb : ∀ (x : Metadata) buf, x.absorb little masked buf =
      let m := { x with
        preparedKey := (out buf x.preparedKey).2, msg := { x.msg with payload := x.msg.payload ++ (out buf x.preparedKey).1 } }
      if m.msg.opcode = .text then
        ({ m with validator := (m.validator.decode (out buf x.preparedKey).1).1 },
          (m.validator.decode (out buf x.preparedKey).1).2)
      else (m, true) := by
    intro x buf
    rw [Metadata.absorb, ← hout]
    cases masked <;> rfl
  have happend : out (xs ++ ys) m.preparedKey =
      ((out xs m.preparedKey).1 ++ (out ys (out xs m.preparedKey).2).1, (out ys (out xs m.preparedKey).2).2) := by
    rw [← hout]
    cases masked with
    | false => rfl
    | true => exact byteMaskCirc_append hks xs ys
  rw [habsorb, habsorb, habsorb, happend]
  dsimp only
  by_cases htext : m.msg.opcode = .text
  · rw [if_pos htext, if_pos htext, if_pos htext, Validator.decode_append]
    refine ⟨fun hok => ?_, fun hok => ?_⟩
    · rw [if_pos hok, List.append_assoc]
    · rw [if_neg (by rw [hok]; exact Bool.false_ne_true)]
      exact hok
  · rw [if_neg htext, if_neg htext, if_neg htext]
    exact ⟨fun _ => by rw [List.append_assoc], fun hok => by cases hok⟩

/-- How many turns a state may take that read nothing. -/
def rank (bytesNeeded : Nat) : State → Nat
  | .HEADER_BASIC    => if bytesNeeded = 0 then 4 else 0
  | .HEADER_EXTENDED => 3
  | .EXTENSION       => 3
  | .APPLICATION     => 2
  | .READY           => 1
  | .FATAL_ERROR     => 0

/-- An upper bound of the turns that are left, with `n` octets to read. -/
def weight (h : Hybi13) (n : Nat) : Nat := 5 * n + rank h.bytesNeeded h.state

theorem Sound.field_of_state (hs : h.Sound) {s : State} (hstate : h.state = s) :
    Reading h.bytesNeeded h.cursor (h.current.isSome = true) s := hstate ▸ hs.field

theorem Sound.withPayload {m : Metadata} (hs : h.Sound) (hstate : h.state = .APPLICATION) (hm : h.current = some m)
    (buf : Bytes) : (h.withPayload m buf).Sound := by
  have hkey : Keyed h.little (some m) := hm ▸ hs.keyed_current
  have hkey' : Keyed h.little (some (m.absorb h.little (getMasked h.basicHeader) buf).1) := keyed_absorb hkey buf
  obtain ⟨hdata, hcontrol⟩ := Sound.setCurrent hs.data hs.control hkey'
  obtain ⟨hstate', _, hlittle, _⟩ := setCurrent_frame h (some (m.absorb h.little (getMasked h.basicHeader) buf).1)
  refine ⟨?_, ?_, ?_⟩
  · have hcur : (h.withPayload m buf).current.isSome := congrArg Option.isSome (current_setCurrent h _)
    have hsame : (h.withPayload m buf).state = .APPLICATION := hstate'.trans hstate
    rw [hsame]
    exact hcur
  · show Keyed (h.setCurrent _).little (h.setCurrent _).dataMsg
    rw [hlittle]
    exact hdata
  · show Keyed (h.setCurrent _).little (h.setCurrent _).controlMsg
    rw [hlittle]
    exact hcontrol

/-- The step from `h` to `h'`, of `n` octets `p`: it keeps the processor sound, takes no more than there is, and leaves
    less to do. -/
def Advances (h h' : Hybi13) (n p : Nat) : Prop := h'.Sound ∧ p ≤ n ∧ h'.weight (n - p) < h.weight n

/-! The turn is looked at field by field. In each, a part of the field moves on by its octets, and its last octet by
the rank of the state. -/

/-- The second octet completes the header. -/
theorem advances_basicRead (hs : h.Sound) {b : BasicHeader} {k n : Nat} (hk : 0 < k) (hkn : k ≤ n)
    (hread : basicRead { h with basicHeader := b, bytesNeeded := 0 } k = (h', p, none)) :
    h.Advances h' n p := by
  obtain ⟨rfl, hstate'⟩ := basicRead_inv hread
  refine ⟨Sound.basicRead (h := { h with basicHeader := b, bytesNeeded := 0 }) hs.data hs.control hread, hkn, ?_⟩
  rw [weight, hstate', rank, weight]
  omega

theorem turn_read_basic (hs : h.Sound) (hstate : h.state = .HEADER_BASIC) (hguard : 0 < buf.length ∨ h.bytesNeeded = 0)
    (hturn : h.turn buf = (h', p, none)) : h.Advances h' buf.length p := by
  obtain hneed | hneed := hs.field_of_state hstate
  · cases buf with
    | nil => simp [hneed] at hguard
    | cons b rest =>
        rw [turn_basic_second hstate hneed] at hturn
        exact advances_basicRead hs Nat.one_pos (by simp) hturn
  · match buf, hturn with
    | [], _ => simp [hneed] at hguard
    | [b], hturn =>
        rw [turn_basic_first hstate hneed] at hturn
        cases hturn
        refine ⟨⟨?_, hs.data, hs.control⟩, Nat.le_refl 1, ?_⟩
        · show Reading 1 h.cursor _ h.state
          rw [hstate]
          exact .inl rfl
        · show 5 * 0 + rank 1 h.state < 5 * 1 + rank h.bytesNeeded h.state
          rw [hstate, hneed]
          decide
    | b0 :: b1 :: rest, hturn =>
        rw [turn_basic_two hstate hneed] at hturn
        exact advances_basicRead hs Nat.two_pos (by simp) hturn

theorem turn_read_extended (hs : h.Sound) (hstate : h.state = .HEADER_EXTENDED)
    (hguard : 0 < buf.length ∨ h.bytesNeeded = 0) (hturn : h.turn buf = (h', p, none)) :
    h.Advances h' buf.length p := by
  have hfield : h.cursor + h.bytesNeeded ≤ 12 := hs.field_of_state hstate
  have hrank : h.weight buf.length = 5 * buf.length + 3 := by rw [weight, hstate, rank]
  rw [turn_extended hstate] at hturn
  split at hturn
  · rename_i hmore
    cases hturn
    refine ⟨⟨?_, hs.data, hs.control⟩, Nat.min_le_right _ _, ?_⟩
    · show Reading (h.bytesNeeded - min h.bytesNeeded buf.length) (h.cursor + min h.bytesNeeded buf.length) _ h.state
      rw [hstate]
      show _ + _ ≤ 12
      omega
    · rw [hrank]
      show 5 * (buf.length - min h.bytesNeeded buf.length) + rank _ h.state < _
      rw [hstate, rank]
      omega
  · obtain ⟨rfl, hstate'⟩ := extendedRead_inv hturn
    refine ⟨Sound.extendedRead (h := (h.copyExtendedHeaderBytes buf).1) hs.data hs.control hturn,
      Nat.min_le_right _ _, ?_⟩
    rw [hrank, weight, hstate', rank]
    omega

/-- The last octet completes the frame. -/
theorem advances_applicationRead {g : Hybi13} {x : Metadata} {k n : Nat} (hstate : h.state = .APPLICATION) (hg : g.Sound)
    (hx : g.current = some x) (hkn : k ≤ n) (hread : g.applicationRead k = (h', p, none)) : h.Advances h' n p := by
  obtain ⟨rfl, hstate'⟩ := applicationRead_inv hx hread
  refine ⟨hg.applicationRead (by rw [hx]; rfl) hread, hkn, ?_⟩
  have hrank : h.weight n = 5 * n + 2 := by rw [weight, hstate, rank]
  rw [hrank, weight]
  obtain hstate' | ⟨hstate', hneed⟩ := hstate'
  · rw [hstate', rank]
    omega
  · rw [hstate', hneed]
    show 5 * (n - p) + 0 < 5 * n + 2
    omega

theorem turn_read_application (hs : h.Sound) (hstate : h.state = .APPLICATION)
    (hguard : 0 < buf.length ∨ h.bytesNeeded = 0) (hturn : h.turn buf = (h', p, none)) :
    h.Advances h' buf.length p := by
  obtain ⟨m, hm⟩ := Option.isSome_iff_exists.mp (hs.field_of_state hstate)
  rw [turn_application hstate hm] at hturn
  split at hturn
  · split at hturn
    · omega
    · exact advances_applicationRead hstate hs hm (Nat.zero_le _) hturn
  · rename_i hpos
    have hg := hs.withPayload hstate hm (buf.take (min h.bytesNeeded buf.length))
    split at hturn
    · split at hturn
      · cases hturn
        refine ⟨hg, Nat.min_le_right _ _, ?_⟩
        obtain ⟨hstate', _⟩ := setCurrent_frame h (some (m.absorb h.little (getMasked h.basicHeader)
          (buf.take (min h.bytesNeeded buf.length))).1)
        show 5 * (buf.length - min h.bytesNeeded buf.length) + rank _ (h.setCurrent _).state < h.weight buf.length
        rw [weight, hstate', hstate, rank, rank]
        omega
      · exact advances_applicationRead hstate hg (current_setCurrent h _) (Nat.min_le_right _ _) hturn
    · cases hturn

/-- **A turn** keeps the processor sound, takes no more than there is, and leaves less to do. -/
theorem turn_read (hs : h.Sound) (hready : h.state ≠ .READY) (hguard : 0 < buf.length ∨ h.bytesNeeded = 0)
    (hturn : h.turn buf = (h', p, none)) :
    h'.Sound ∧ p ≤ buf.length ∧ h'.weight (buf.drop p).length < h.weight buf.length := by
  rw [List.length_drop]
  cases hstate : h.state with
  | HEADER_BASIC => exact turn_read_basic hs hstate hguard hturn
  | HEADER_EXTENDED => exact turn_read_extended hs hstate hguard hturn
  | APPLICATION => exact turn_read_application hs hstate hguard hturn
  | EXTENSION => exact (hs.field_of_state hstate).elim
  | READY => exact absurd hstate hready
  | FATAL_ERROR => exact (hs.field_of_state hstate).elim

/-- The octets that are needed are there: more behind them change nothing. -/
theorem turn_enough (hs : h.Sound) {xs : Bytes} (hle : h.bytesNeeded ≤ xs.length) (ys : Bytes) :
    h.turn (xs ++ ys) = h.turn xs := by
  have hmin : min h.bytesNeeded (xs ++ ys).length = min h.bytesNeeded xs.length := by
    rw [List.length_append]
    omega
  have htake : (xs ++ ys).take (min h.bytesNeeded xs.length) = xs.take (min h.bytesNeeded xs.length) :=
    List.take_append_of_le_length (Nat.min_le_right _ _)
  cases hstate : h.state with
  | HEADER_BASIC =>
      obtain hneed | hneed := hs.field_of_state hstate
      · cases xs with
        | nil => simp [hneed] at hle
        | cons b rest => rw [List.cons_append, turn_basic_second hstate hneed, turn_basic_second hstate hneed]
      · match xs, hle with
        | [], hle => simp [hneed] at hle
        | [b], hle => simp [hneed] at hle
        | b0 :: b1 :: rest, _ =>
            rw [List.cons_append, List.cons_append, turn_basic_two hstate hneed, turn_basic_two hstate hneed]
  | HEADER_EXTENDED =>
      rw [turn_extended hstate, turn_extended hstate, copyExtendedHeaderBytes, copyExtendedHeaderBytes, hmin, htake]
  | APPLICATION =>
      obtain ⟨m, hm⟩ := Option.isSome_iff_exists.mp (hs.field_of_state hstate)
      rw [turn_application hstate hm, turn_application hstate hm, hmin, htake]
  | EXTENSION => exact (hs.field_of_state hstate).elim
  | READY => rw [turn, turn, hstate]
  | FATAL_ERROR => exact (hs.field_of_state hstate).elim

/-- Two pieces go into the message as they do together. -/
theorem withPayload_append {m : Metadata} {xs : Bytes} (hm : Keyed h.little (some m))
    (hok : (m.absorb h.little (getMasked h.basicHeader) xs).2 = true) (ys : Bytes) :
    h.withPayload m (xs ++ ys) =
      (h.withPayload m xs).withPayload (m.absorb h.little (getMasked h.basicHeader) xs).1 ys := by
  have happend := (absorb_append hm xs ys).1 hok
  obtain ⟨_, _, hlittle, hbasic⟩ := setCurrent_frame h (some (m.absorb h.little (getMasked h.basicHeader) xs).1)
  have hneed : h.bytesNeeded - (xs ++ ys).length = h.bytesNeeded - xs.length - ys.length := by
    rw [List.length_append, Nat.sub_sub]
  rw [withPayload, withPayload, withPayload, happend, hneed, hlittle, hbasic, setCurrent, setCurrent]
  cases hcur : h.currentMsg <;> simp [setCurrent, hcur]

theorem outcome_further (n : Nat) (r : Hybi13 × Nat × Option ProcessorError) : outcome (further n r) = (outcome r).shift n := by
  obtain ⟨h', p, ec⟩ := r
  cases ec <;> rfl

/-- What is there is less than needed: the turn takes all of it and the next goes on from there, or it fails already. -/
def Continues (h : Hybi13) (xs : Bytes) : Prop :=
  (∃ g : Hybi13, h.turn xs = (g, xs.length, none) ∧ g.state ≠ .READY ∧ g.bytesNeeded ≠ 0 ∧
      ∀ ys : Bytes, 0 < ys.length → outcome (h.turn (xs ++ ys)) = (outcome (g.turn ys)).shift xs.length) ∨
    ∃ ec, outcome (h.turn xs) = .fail ec ∧ ∀ ys, outcome (h.turn (xs ++ ys)) = .fail ec

section Short
variable {xs : Bytes} {need : Nat}

/-- With more behind it all of the first piece is taken, and of the rest what is still needed. -/
theorem take_short (hlt : xs.length < need) (ys : Bytes) :
    (xs ++ ys).take (min need (xs ++ ys).length) = xs ++ ys.take (min (need - xs.length) ys.length) := by
  rw [List.take_append, List.length_append, List.take_of_length_le (by omega)]
  congr 2
  omega

theorem min_short (hlt : xs.length < need) (ys : Bytes) :
    min need (xs ++ ys).length = xs.length + min (need - xs.length) ys.length := by
  rw [List.length_append]
  omega

theorem turn_short_basic (hs : h.Sound) (hstate : h.state = .HEADER_BASIC) (hpos : 0 < xs.length)
    (hlt : xs.length < h.bytesNeeded) : h.Continues xs := by
  obtain hneed | hneed := hs.field_of_state hstate
  · omega
  · match xs, hpos, hlt with
    | [b], _, _ =>
        refine .inl ⟨_, turn_basic_first hstate hneed b, by rw [hstate]; decide, Nat.one_ne_zero, fun ys hys => ?_⟩
        cases ys with
        | nil => exact absurd hys (by decide)
        | cons y ys =>
            rw [List.singleton_append, turn_basic_two hstate hneed, turn_basic_second (by exact hstate) (by rfl)]
            rw [List.length_singleton, ← outcome_further, ← basicRead_further]
    | _ :: _ :: _, _, hlt => rw [hneed] at hlt; exact absurd hlt (by simp)

/-- The extended header is copied piece by piece. -/
theorem copyExtendedHeaderBytes_append (hcursor : h.cursor + h.bytesNeeded ≤ 12) (hlt : xs.length < h.bytesNeeded)
    (ys : Bytes) : (h.copyExtendedHeaderBytes (xs ++ ys)).1 =
      ((h.copyExtendedHeaderBytes xs).1.copyExtendedHeaderBytes ys).1 := by
  have hall : xs.take (min h.bytesNeeded xs.length) = xs := List.take_of_length_le (by omega)
  rw [copyExtendedHeaderBytes, copyExtendedHeaderBytes, copyExtendedHeaderBytes]
  dsimp only
  rw [take_short hlt, min_short hlt, hall, Nat.min_eq_right (Nat.le_of_lt hlt), ExtendedHeader.copy_append,
    ← Nat.add_assoc, Nat.sub_sub]
  rw [List.length_take]
  omega

theorem turn_short_extended (hs : h.Sound) (hstate : h.state = .HEADER_EXTENDED) (hlt : xs.length < h.bytesNeeded) :
    h.Continues xs := by
  refine .inl ⟨(h.copyExtendedHeaderBytes xs).1, ?_, ?_, ?_, fun ys hys => ?_⟩
  · rw [turn_extended hstate, if_pos (by omega), Nat.min_eq_right (Nat.le_of_lt hlt)]
  · show h.state ≠ _
    rw [hstate]
    decide
  · show h.bytesNeeded - min h.bytesNeeded xs.length ≠ 0
    omega
  · have hneed : (h.copyExtendedHeaderBytes xs).1.bytesNeeded = h.bytesNeeded - xs.length := by
      show h.bytesNeeded - min h.bytesNeeded xs.length = _
      rw [Nat.min_eq_right (Nat.le_of_lt hlt)]
    rw [turn_extended hstate, turn_extended (h := (h.copyExtendedHeaderBytes xs).1) hstate,
      copyExtendedHeaderBytes_append (hs.field_of_state hstate) hlt, ← outcome_further, min_short hlt, hneed, Nat.sub_sub]
    split
    · rfl
    · rw [extendedRead_further]

section Payload
variable {m : Metadata} (hs : h.Sound) (hstate : h.state = .APPLICATION) (hm : h.current = some m)
  (hpos : 0 < xs.length) (hlt : xs.length < h.bytesNeeded)
include hs hstate hm hpos hlt

/-- The payload read so far may be the front of a text: the next turn goes on with the same message. -/
theorem turn_short_valid (hok : (m.absorb h.little (getMasked h.basicHeader) xs).2 = true) : h.Continues xs := by
  have hkey : Keyed h.little (some m) := hm ▸ hs.keyed_current
  have hall : xs.take (min h.bytesNeeded xs.length) = xs := List.take_of_length_le (by omega)
  have hturn := turn_application hstate hm xs
  rw [if_neg (by omega), hall, if_pos hok, if_pos (by omega), Nat.min_eq_right (Nat.le_of_lt hlt)] at hturn
  obtain ⟨hstate', hneed', hlittle, hbasic⟩ :=
    setCurrent_frame h (some (m.absorb h.little (getMasked h.basicHeader) xs).1)
  have hgstate : (h.withPayload m xs).state = .APPLICATION := hstate'.trans hstate
  have hgneed : (h.withPayload m xs).bytesNeeded = h.bytesNeeded - xs.length := rfl
  refine .inl ⟨_, hturn, by rw [hgstate]; decide, by rw [hgneed]; omega, fun ys hys => ?_⟩
  have hglittle : (h.withPayload m xs).little = h.little := hlittle
  have hgbasic : (h.withPayload m xs).basicHeader = h.basicHeader := hbasic
  have happend := (absorb_append hkey xs (ys.take (min (h.bytesNeeded - xs.length) ys.length))).1 hok
  have hk : ¬ min (h.bytesNeeded - xs.length) ys.length = 0 := by omega
  have hxk : ¬ xs.length + min (h.bytesNeeded - xs.length) ys.length = 0 := by omega
  rw [turn_application hstate hm (xs ++ ys), turn_application hgstate (current_setCurrent h _), take_short hlt,
    min_short hlt, hgneed, hglittle, hgbasic, if_neg hk, if_neg hxk, happend, withPayload_append hkey hok, Nat.sub_sub]
  split
  · split
    · rfl
    · rw [applicationRead_further, outcome_further]
  · rfl

/-- It is not the front of any text: what follows does not mend it. -/
theorem turn_short_invalid (hbad : (m.absorb h.little (getMasked h.basicHeader) xs).2 = false) : h.Continues xs := by
  have hkey : Keyed h.little (some m) := hm ▸ hs.keyed_current
  have hall : xs.take (min h.bytesNeeded xs.length) = xs := List.take_of_length_le (by omega)
  have hturn := turn_application hstate hm xs
  rw [if_neg (by omega), hall, hbad, if_neg Bool.false_ne_true] at hturn
  refine .inr ⟨.invalid_utf8, by rw [hturn]; rfl, fun ys => ?_⟩
  have hfail := (absorb_append hkey xs (ys.take (min (h.bytesNeeded - xs.length) ys.length))).2 hbad
  rw [turn_application hstate hm (xs ++ ys), take_short hlt, min_short hlt, if_neg (by omega), hfail,
    if_neg Bool.false_ne_true]
  rfl

end Payload

/-- A turn that takes less than is needed fails already, or is continued by the next turn. -/
theorem turn_short (hs : h.Sound) (hready : h.state ≠ .READY) (hpos : 0 < xs.length)
    (hlt : xs.length < h.bytesNeeded) : h.Continues xs := by
  cases hstate : h.state with
  | HEADER_BASIC => exact turn_short_basic hs hstate hpos hlt
  | HEADER_EXTENDED => exact turn_short_extended hs hstate hlt
  | APPLICATION =>
      obtain ⟨m, hm⟩ := Option.isSome_iff_exists.mp (hs.field_of_state hstate)
      cases hok : (m.absorb h.little (getMasked h.basicHeader) xs).2 with
      | true => exact turn_short_valid hs hstate hm hpos hlt hok
      | false => exact turn_short_invalid hs hstate hm hpos hlt hok
  | EXTENSION => exact (hs.field_of_state hstate).elim
  | READY => exact absurd hstate hready
  | FATAL_ERROR => exact (hs.field_of_state hstate).elim

end Short

/-! ## The loop

The two lemmas on turns are what `Lib.Turns` asks of a machine whose input may be cut (`cuttable`), so what a stream
yields does not depend on the pieces. The loops of the program have a bound on their turns, which the weight says is
never reached. -/

theorem ready_iff : h.ready = true ↔ h.state = .READY := decide_eq_true_iff

/-- A message that is ready is handed out, and the processor waits for another frame. -/
theorem getMessage_eq (hs : h.Sound) (hready : h.state = .READY) :
    ∃ m, h.current = some m ∧ h.getMessage = (some m.msg, h.getMessage.2) ∧ h.getMessage.2.Sound ∧
      (∃ g : Hybi13, h.getMessage.2 = g.resetHeaders) ∧ ∀ n, h.getMessage.2.weight n < h.weight n := by
  obtain ⟨m, hm⟩ := Option.isSome_iff_exists.mp (hs.field_of_state hready)
  have hget : h.getMessage = (some m.msg, (if m.msg.opcode.isControl then { h.setCurrent none with controlMsg := none }
      else { h.setCurrent none with dataMsg := none }).resetHeaders) := by
    rw [getMessage, ready_iff.mpr hready, hm]
    rfl
  have hkeyed : ∀ little, Keyed little none := fun _ _ h => by cases h
  have hsound : (if m.msg.opcode.isControl then { h.setCurrent none with controlMsg := none }
      else { h.setCurrent none with dataMsg := none }).resetHeaders.Sound := by
    cases hcur : h.currentMsg with
    | data =>
        rw [setCurrent, hcur]
        split
        · exact ⟨.inr rfl, hkeyed _, hkeyed _⟩
        · exact ⟨.inr rfl, hkeyed _, hs.control⟩
    | control =>
        rw [setCurrent, hcur]
        split
        · exact ⟨.inr rfl, hs.data, hkeyed _⟩
        · exact ⟨.inr rfl, hkeyed _, hkeyed _⟩
  refine ⟨m, hm, by rw [hget], by rw [hget]; exact hsound, ⟨_, congrArg Prod.snd hget⟩, fun n => ?_⟩
  rw [hget, weight, weight, hready]
  exact Nat.add_lt_add_left (show 0 < 1 from Nat.one_pos) _

theorem next_ready (hs : h.Sound) (hready : h.state = .READY) :
    ∃ m, h.current = some m ∧ ∀ buf, h.next buf = .emit m.msg h.getMessage.2 := by
  obtain ⟨m, hm, hget, _⟩ := getMessage_eq hs hready
  refine ⟨m, hm, fun buf => ?_⟩
  rw [next, if_pos (ready_iff.mpr hready), hget]

theorem next_wait (hready : h.state ≠ .READY) (hempty : buf.length = 0) (hneed : h.bytesNeeded ≠ 0) :
    h.next buf = .wait := by
  rw [next, if_neg (mt ready_iff.mp hready), if_pos ⟨hempty, hneed⟩]

theorem next_turn (hready : h.state ≠ .READY) (hguard : 0 < buf.length ∨ h.bytesNeeded = 0) :
    h.next buf = outcome (h.turn buf) := by
  rw [next, if_neg (mt ready_iff.mp hready), if_neg (by omega)]

/-- What a turn of the loop that is not the last one was. -/
theorem next_read_inv (hs : h.Sound) (hread : h.next buf = .read h' p) :
    h.state ≠ .READY ∧ (0 < buf.length ∨ h.bytesNeeded = 0) ∧ h.turn buf = (h', p, none) := by
  by_cases hready : h.state = .READY
  · obtain ⟨m, _, hnext⟩ := next_ready hs hready
    rw [hnext] at hread
    cases hread
  · by_cases hguard : 0 < buf.length ∨ h.bytesNeeded = 0
    · rw [next_turn hready hguard] at hread
      rcases hturn : h.turn buf with ⟨h'', q, ec⟩
      rw [hturn] at hread
      cases ec <;> cases hread
      exact ⟨hready, hguard, rfl⟩
    · rw [next_wait hready (by omega) (by omega)] at hread
      cases hread

theorem next_fail_inv {ec : ProcessorError} (hs : h.Sound) (hfail : h.next buf = .fail ec) :
    h.state ≠ .READY ∧ (0 < buf.length ∨ h.bytesNeeded = 0) ∧ outcome (h.turn buf) = .fail ec := by
  by_cases hready : h.state = .READY
  · obtain ⟨m, _, hnext⟩ := next_ready hs hready
    rw [hnext] at hfail
    cases hfail
  · by_cases hguard : 0 < buf.length ∨ h.bytesNeeded = 0
    · rw [next_turn hready hguard] at hfail
      exact ⟨hready, hguard, hfail⟩
    · rw [next_wait hready (by omega) (by omega)] at hfail
      cases hfail

theorem next_emit_inv {m : Message} (hs : h.Sound) (hemit : h.next buf = .emit m h') :
    h.state = .READY ∧ h' = h.getMessage.2 := by
  by_cases hready : h.state = .READY
  · obtain ⟨_, _, hnext⟩ := next_ready hs hready
    rw [hnext] at hemit
    cases hemit
    exact ⟨hready, rfl⟩
  · by_cases hguard : 0 < buf.length ∨ h.bytesNeeded = 0
    · rw [next_turn hready hguard] at hemit
      rcases hturn : h.turn buf with ⟨h'', q, ec⟩
      rw [hturn] at hemit
      cases ec <;> cases hemit
    · rw [next_wait hready (by omega) (by omega)] at hemit
      cases hemit

/-- **The turns do not depend on the pieces** in which the stream comes. -/
theorem cuttable : Cuttable next Sound where
  good_emit hs hemit := by
    obtain ⟨hready, rfl⟩ := next_emit_inv hs hemit
    obtain ⟨_, _, _, hsound, _⟩ := getMessage_eq hs hready
    exact hsound
  good_read hs hread := by
    obtain ⟨hready, hguard, hturn⟩ := next_read_inv hs hread
    exact (turn_read hs hready hguard hturn).1
  emit_any hs hemit ys := by
    obtain ⟨hready, rfl⟩ := next_emit_inv hs hemit
    obtain ⟨m, _, hnext⟩ := next_ready hs hready
    rw [hnext] at hemit ⊢
    exact hemit
  wait_nil {h buf} hs hwait := by
    by_cases hready : h.state = .READY
    · obtain ⟨m, _, hnext⟩ := next_ready hs hready
      rw [hnext] at hwait
      cases hwait
    · by_cases hguard : 0 < buf.length ∨ h.bytesNeeded = 0
      · rw [next_turn hready hguard] at hwait
        rcases hturn : h.turn buf with ⟨h'', q, ec⟩
        rw [hturn] at hwait
        cases ec <;> cases hwait
      · exact List.length_eq_zero_iff.mp (by omega)
  fail_more {h ec xs} hs hfail ys := by
    obtain ⟨hready, hguard, hturn⟩ := next_fail_inv hs hfail
    have hguard' : 0 < (xs ++ ys).length ∨ h.bytesNeeded = 0 := by
      rw [List.length_append]
      omega
    rw [next_turn hready hguard']
    by_cases hle : h.bytesNeeded ≤ xs.length
    · rw [turn_enough hs hle]
      exact hturn
    · have hpos : 0 < xs.length := by omega
      obtain ⟨g, hg, _⟩ | ⟨ec', hec, hmore⟩ := turn_short hs hready hpos (by omega)
      · rw [hg] at hturn
        cases hturn
      · rw [hec] at hturn
        rw [hmore]
        exact hturn
  read_le hs hread := by
    obtain ⟨hready, hguard, hturn⟩ := next_read_inv hs hread
    exact (turn_read hs hready hguard hturn).2.1
  read_more {h h' p xs} hs hread ys hys := by
    obtain ⟨hready, hguard, hturn⟩ := next_read_inv hs hread
    have hpos : 0 < ys.length := List.length_pos_iff.mpr hys
    have hguard' : 0 < (xs ++ ys).length ∨ h.bytesNeeded = 0 := by
      rw [List.length_append]
      omega
    rw [next_turn hready hguard']
    by_cases hle : h.bytesNeeded ≤ xs.length
    · rw [turn_enough hs hle, hturn]
      exact .inl rfl
    · have hpos' : 0 < xs.length := by omega
      obtain ⟨g, hg, hgready, hgneed, hmore⟩ | ⟨ec, hec, _⟩ := turn_short hs hready hpos' (by omega)
      · rw [hg] at hturn
        cases hturn
        refine .inr ⟨rfl, next_wait hgready rfl hgneed, ?_⟩
        rw [hmore ys hpos, next_turn hgready (.inl hpos)]
      · rw [hturn] at hec
        cases hec

theorem runs_total (hs : h.Sound) (bs : Bytes) : ∃ ms r, Runs next h bs ms r := by
  refine cuttable.total weight ?_ ?_ hs bs
  · intro h h' m bs hs hemit
    obtain ⟨hready, rfl⟩ := next_emit_inv hs hemit
    obtain ⟨_, _, _, _, _, hweight⟩ := getMessage_eq hs hready
    exact hweight bs.length
  · intro h h' p bs hs hread
    obtain ⟨hready, hguard, hturn⟩ := next_read_inv hs hread
    exact (turn_read hs hready hguard hturn).2.2

/-- **A call of `consume`** fails as the turns do, or stops at a message that is ready or at the end of the octets,
    and the turns go on from there. -/
theorem runs_consume (hs : h.Sound) {r : Hybi13 × Nat × Option ProcessorError} (hr : h.consume buf = r) :
    (∀ ec, r.2.2 = some ec → Runs next h buf [] (.error ec)) ∧
      (r.2.2 = none → r.1.Sound ∧ r.2.1 ≤ buf.length ∧ (r.1.state = .READY ∨ r.2.1 = buf.length ∧ r.1.next [] = .wait) ∧
        ∀ ms q, Runs next r.1 (buf.drop r.2.1) ms q → Runs next h buf ms q) := by
  have hfuel : h.weight buf.length < 5 * buf.length + 5 := by
    rw [weight]
    have hrank : rank h.bytesNeeded h.state < 5 := by
      cases h.state <;> rw [rank] <;> first | decide | (split <;> decide)
    omega
  rw [consume] at hr
  generalize 5 * buf.length + 5 = fuel at hr hfuel
  induction fuel generalizing h buf r with
  | zero => omega
  | succ fuel ih =>
      rw [consumeFuel] at hr
      by_cases hgo : h.state ≠ .READY ∧ h.state ≠ .FATAL_ERROR ∧ (0 < buf.length ∨ h.bytesNeeded = 0)
      · have hready := hgo.1
        have hguard := hgo.2.2
        rw [if_pos hgo] at hr
        have hnext := next_turn hready hguard
        rcases hturn : h.turn buf with ⟨h', p, ec⟩
        rw [hturn] at hr hnext
        cases ec with
        | some ec =>
            subst hr
            exact ⟨fun _ hec => Option.some.inj hec ▸ .fail hnext, fun h => by cases h⟩
        | none =>
            obtain ⟨hs', hle, hweight⟩ := turn_read hs hready hguard hturn
            rcases hrest : consumeFuel fuel h' (buf.drop p) with ⟨h'', q, ec⟩
            dsimp only at hr
            rw [hrest] at hr
            obtain ⟨hfail, hgoon⟩ := ih hs' hrest (by omega)
            subst hr
            refine ⟨fun ec hec => .read hnext (hfail ec hec), fun hec => ?_⟩
            obtain ⟨hsound, hused, hstop, hgo'⟩ := hgoon hec
            dsimp only at hused hstop
            rw [List.length_drop] at hused hstop
            refine ⟨hsound, by show p + q ≤ _; omega, ?_, fun ms r hrun => ?_⟩
            · refine hstop.imp_right fun ⟨hall, hwait⟩ => ⟨?_, hwait⟩
              show p + q = _
              omega
            · refine .read hnext (hgo' ms r ?_)
              rw [List.drop_drop]
              exact hrun
      · rw [if_neg hgo] at hr
        subst hr
        refine ⟨fun ec hec => by (cases hec), fun _ => ⟨hs, Nat.zero_le _, ?_, fun ms q hrun => hrun⟩⟩
        by_cases hready : h.state = .READY
        · exact .inl hready
        · have hfatal : h.state ≠ .FATAL_ERROR := fun hstate => hs.field_of_state hstate
          have hstop : ¬ (0 < buf.length ∨ h.bytesNeeded = 0) := fun hguard => hgo ⟨hready, hfatal, hguard⟩
          have hneed : h.bytesNeeded ≠ 0 := fun h0 => hstop (.inr h0)
          exact .inr ⟨by show 0 = buf.length; omega, next_wait hready rfl hneed⟩

/-- A call of `consume` leaves no more to do, and less if there is anything to do. -/
theorem weight_consumeFuel (hs : h.Sound) {fuel : Nat} (hread : h.consumeFuel fuel buf = (h', p, none)) :
    h'.weight (buf.drop p).length ≤ h.weight buf.length ∧
      (fuel ≠ 0 → h.state ≠ .READY → 0 < buf.length → h'.weight (buf.drop p).length < h.weight buf.length) := by
  induction fuel generalizing h buf h' p with
  | zero =>
      cases hread
      exact ⟨Nat.le_refl _, fun h0 => absurd rfl h0⟩
  | succ fuel ih =>
      rw [consumeFuel] at hread
      by_cases hgo : h.state ≠ .READY ∧ h.state ≠ .FATAL_ERROR ∧ (0 < buf.length ∨ h.bytesNeeded = 0)
      · rw [if_pos hgo] at hread
        rcases hturn : h.turn buf with ⟨g, q, ec⟩
        rw [hturn] at hread
        cases ec with
        | some ec => cases hread
        | none =>
            obtain ⟨hg, _, hweight⟩ := turn_read hs hgo.1 hgo.2.2 hturn
            dsimp only at hread
            rcases hrest : consumeFuel fuel g (buf.drop q) with ⟨g', q', ec⟩
            rw [hrest] at hread
            cases hread
            obtain ⟨hle, _⟩ := ih hg hrest
            rw [List.drop_drop] at hle
            exact ⟨by dsimp only; omega, fun _ _ _ => by dsimp only; omega⟩
      · rw [if_neg hgo] at hread
        cases hread
        refine ⟨Nat.le_refl _, fun _ hready hpos => absurd ⟨hready, ?_, .inl hpos⟩ hgo⟩
        exact fun hstate => hs.field_of_state hstate

/-! ## The loop of the connection

`readFrames` is one read of the connection: `consume` until nothing is left, handing out each message that is ready.
It yields what the turns yield, so a list of reads yields what the stream does that they make up. -/

/-- The loop of `handle_read_frame`: the messages that are ready one after the other, and the error it stops at. -/
def readLoop : Nat → Hybi13 → Bytes → List Message × Except ProcessorError Hybi13
  | 0,        h, _   => ([], .ok h)
  | fuel + 1, h, buf =>
    if 0 < buf.length then
      match h.consume buf with
      | (_, _, some ec) => ([], .error ec)
      | (h', p, none)   =>
        if h'.ready then
          let (m, h'') := h'.getMessage
          let (ms, r) := readLoop fuel h'' (buf.drop p)
          (m.toList ++ ms, r)
        else readLoop fuel h' (buf.drop p)
    else ([], .ok h)

/-- What comes of the octets of one read. -/
def readFrames (h : Hybi13) (buf : Bytes) : List Message × Except ProcessorError Hybi13 :=
  readLoop (5 * buf.length + 5) h buf

/-- What comes of one read after the other, up to an error. -/
def readPieces : Hybi13 → List Bytes → List Message × Except ProcessorError Hybi13
  | h, []              => ([], .ok h)
  | h, piece :: pieces =>
    match h.readFrames piece with
    | (ms, .error ec) => (ms, .error ec)
    | (ms, .ok h')    =>
      let (ms', r) := h'.readPieces pieces
      (ms ++ ms', r)

theorem weight_lt (h : Hybi13) (n : Nat) : h.weight n < 5 * n + 5 := by
  have hrank : rank h.bytesNeeded h.state < 5 := by
    cases h.state <;> rw [rank] <;> first | decide | (split <;> decide)
  rw [weight]
  omega

theorem next_resetHeaders (h : Hybi13) : h.resetHeaders.next [] = .wait :=
  next_wait (h := h.resetHeaders) (fun hstate => by cases hstate) rfl (Nat.succ_ne_zero 1)

theorem runs_readLoop {fuel : Nat} (hs : h.Sound) (hwait : h.next [] = .wait) (hfuel : h.weight buf.length < fuel) :
    Runs next h buf (h.readLoop fuel buf).1 (h.readLoop fuel buf).2 := by
  induction fuel generalizing h buf with
  | zero => omega
  | succ fuel ih =>
      rw [readLoop]
      by_cases hpos : 0 < buf.length
      · rw [if_pos hpos]
        have hready : h.state ≠ .READY := by
          intro hready
          obtain ⟨_, _, hnext⟩ := next_ready hs hready
          rw [hnext] at hwait
          cases hwait
        rcases hcons : h.consume buf with ⟨h', p, ec⟩
        obtain ⟨hfail, hgo⟩ := runs_consume hs hcons
        cases ec with
        | some ec => exact hfail ec rfl
        | none =>
            obtain ⟨hs', _, hstop, hrest⟩ := hgo rfl
            have hless := (weight_consumeFuel hs hcons).2 (Nat.succ_ne_zero _) hready hpos
            dsimp only at hs' hstop hrest ⊢
            by_cases hr : h'.state = .READY
            · obtain ⟨m, hm, hget, hsound, ⟨g, hg⟩, hweight⟩ := getMessage_eq hs' hr
              obtain ⟨_, hm', hnext⟩ := next_ready hs' hr
              rw [hm] at hm'
              cases hm'
              have hless' := hweight (buf.drop p).length
              rw [if_pos (ready_iff.mpr hr), hget]
              exact hrest _ _ (.emit (hnext _) (ih hsound (by rw [hg]; exact next_resetHeaders g) (by omega)))
            · obtain hr' | ⟨_, hwait'⟩ := hstop
              · exact absurd hr' hr
              · rw [if_neg (mt ready_iff.mp hr)]
                exact hrest _ _ (ih hs' hwait' (by omega))
      · rw [if_neg hpos]
        obtain rfl := List.length_eq_zero_iff.mp (Nat.eq_zero_of_not_pos hpos)
        exact .wait hwait

theorem runs_readFrames (hs : h.Sound) (hwait : h.next [] = .wait) (buf : Bytes) :
    Runs next h buf (h.readFrames buf).1 (h.readFrames buf).2 := runs_readLoop hs hwait (weight_lt h _)

/-- One read after the other comes to the turns of all of it. -/
theorem runs_readPieces (hs : h.Sound) (hwait : h.next [] = .wait) (pieces : List Bytes) :
    Runs next h pieces.flatten (h.readPieces pieces).1 (h.readPieces pieces).2 := by
  suffices hall : RunsAll next h pieces (h.readPieces pieces).1 (h.readPieces pieces).2 from cuttable.pieces hs hwait hall
  induction pieces generalizing h with
  | nil => exact .nil
  | cons piece pieces ih =>
      have hrun := runs_readFrames hs hwait piece
      rw [readPieces]
      rcases hread : h.readFrames piece with ⟨ms, ec | h'⟩
      · rw [hread] at hrun
        exact .error hrun
      · rw [hread] at hrun
        exact .cons hrun (ih (cuttable.good_run hs hrun rfl) (hrun.waits rfl))

/-- **The pieces do not matter.** However a stream of octets is cut into reads, the processor hands on the same
    messages, stops at the same error, and is left in the same state. -/
theorem readPieces_eq (server little : Bool) (maxMessageSize : Nat) (pieces : List Bytes) :
    (init server little maxMessageSize).readPieces pieces = (init server little maxMessageSize).readFrames pieces.flatten := by
  have hs := sound_init server little maxMessageSize
  have hwait : (init server little maxMessageSize).next [] = .wait := next_resetHeaders _
  obtain ⟨hmsgs, hend⟩ := (runs_readPieces hs hwait pieces).det (runs_readFrames hs hwait pieces.flatten)
  exact Prod.ext hmsgs hend

end Hybi13
end NewOrbit.Websocket
