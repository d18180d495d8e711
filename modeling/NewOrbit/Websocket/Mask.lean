import NewOrbit.Lib.CString
import NewOrbit.Lib.Octets

/-!
# `Websocket.Mask` — masking a payload

A payload is masked by a key of four octets, over and over. `byte_mask` does that octet by octet; the circular
routines take a payload piece by piece, with the key doubled to a word and turned by as many octets as were masked,
and one of them goes word by word. On either kind of machine they all do the same (`masked_in_pieces`), and do it
backwards too (`unmasked_in_pieces`).
-/

namespace NewOrbit.Websocket
open CString Octets

/-- `masking_key_type`: a number, whose octets in memory are the key. -/
structure MaskingKey where
  i : UInt32
  deriving DecidableEq, Repr

/-- The octets of the key, on a machine that is little-endian or not. -/
def MaskingKey.c (little : Bool) (key : MaskingKey) : Bytes := store little 4 key.i.toNat

def prepareMaskingKey (key : MaskingKey) : UInt64 := (key.i.toUInt64 <<< 32) ||| key.i.toUInt64

/-- Where `offset` is 0 one shift is by the width of the word, which C++ leaves undefined; it is taken modulo the
    width, and then the key stays as it is. -/
def circshiftPreparedKey (little : Bool) (prepared : UInt64) (offset : Nat) : UInt64 :=
  if little then
    let temp := prepared <<< UInt64.ofNat ((8 - offset) * 8)
    (prepared >>> UInt64.ofNat (offset * 8)) ||| temp
  else
    let temp := prepared >>> UInt64.ofNat ((8 - offset) * 8)
    (prepared <<< UInt64.ofNat (offset * 8)) ||| temp

/-- The loop of `byte_mask`. -/
def byteMaskLoop (c : Bytes) : Nat → Bytes → Bytes
  | _,         []        => []
  | key_index, b :: rest => (b ^^^ c.getD key_index 0) :: byteMaskLoop c ((key_index + 1) % 4) rest

def byteMask (little : Bool) (input : Bytes) (key : MaskingKey) (key_offset : Nat) : Bytes :=
  byteMaskLoop (key.c little) (key_offset % 4) input

def byteMaskCirc (little : Bool) (input : Bytes) (prepared : UInt64) : Bytes × UInt64 :=
  let key : MaskingKey := ⟨prepared.toUInt32⟩
  (input.mapIdx fun i b => b ^^^ (key.c little).getD (i % 4) 0,
    circshiftPreparedKey little prepared (input.length % 4))

/-- The first `n` words of the input, each with the key added to it. -/
def maskWords (little : Bool) (prepared : UInt64) : Nat → Bytes → Bytes
  | 0,     _     => []
  | n + 1, input =>
    store little 8 (load little (input.take 8) ^^^ prepared.toNat) ++ maskWords little prepared n (input.drop 8)

def wordMaskCirc (little : Bool) (input : Bytes) (prepared : UInt64) : Bytes × UInt64 :=
  let n := input.length / 8
  let l := input.length - n * 8
  let start := input.length - l
  let byte_key := store little 8 prepared.toNat
  (maskWords little prepared n input ++ (input.drop start).mapIdx fun i b => b ^^^ byte_key.getD i 0,
    circshiftPreparedKey little prepared l)

def wordMaskExact (little : Bool) (input : Bytes) (key : MaskingKey) : Bytes :=
  let n := input.length / 8
  maskWords little (prepareMaskingKey key) n input ++
    (input.drop (n * 8)).mapIdx fun i b => b ^^^ (key.c little).getD ((n * 8 + i) % 4) 0

/-! ## Prepared keys

A key stands for a stream of octets of period four. A word is `Prepared` for the stream if it holds its next eight
octets, and turning the word by as many octets as were masked prepares it for the rest. -/

/-- The octets that the key gives, over and over. -/
def MaskingKey.stream (little : Bool) (key : MaskingKey) (i : Nat) : UInt8 := (key.c little).getD (i % 4) 0

/-- The prepared key has the octets of the stream, from here on. -/
structure Prepared (little : Bool) (prepared : UInt64) (ks : Nat → UInt8) : Prop where
  periodic : Periodic 4 ks
  octets   : ∀ k < 8, (store little 8 prepared.toNat)[k]? = some (ks k)

variable {little : Bool} {prepared : UInt64} {ks : Nat → UInt8}

theorem MaskingKey.periodic (key : MaskingKey) : Periodic 4 (key.stream little) := by
  intro i
  rw [MaskingKey.stream, MaskingKey.stream, Nat.add_mod_right]

theorem MaskingKey.getElem?_c (key : MaskingKey) {k : Nat} (hk : k < 4) : (key.c little)[k]? = some (key.stream little k) := by
  have hlen : k < (key.c little).length := by rw [MaskingKey.c, length_store]; exact hk
  rw [MaskingKey.stream, Nat.mod_eq_of_lt hk, List.getD_eq_getElem?_getD, List.getElem?_eq_getElem hlen]
  rfl

theorem toNat_prepareMaskingKey (key : MaskingKey) :
    (prepareMaskingKey key).toNat = key.i.toNat * 256 ^ 4 + key.i.toNat := by
  have hlt : key.i.toNat < 2 ^ 32 := key.i.toNat_lt
  rw [prepareMaskingKey, UInt64.toNat_or, UInt64.toNat_shiftLeft, UInt32.toNat_toUInt64]
  show key.i.toNat <<< 32 % 2 ^ 64 ||| key.i.toNat = _
  have hfit : key.i.toNat <<< 32 % 2 ^ 64 = key.i.toNat <<< 32 := by
    rw [Nat.shiftLeft_eq]
    exact Nat.mod_eq_of_lt (by omega)
  rw [hfit, ← Nat.shiftLeft_add_eq_or_of_lt hlt, Nat.shiftLeft_eq]
  rfl

/-- A key is doubled. -/
theorem store_prepareMaskingKey (key : MaskingKey) :
    store little 8 (prepareMaskingKey key).toNat = key.c little ++ key.c little := by
  have hlt : key.i.toNat < 256 ^ 4 := key.i.toNat_lt
  have hbe : Framing.be 8 (prepareMaskingKey key).toNat = Framing.be 4 key.i.toNat ++ Framing.be 4 key.i.toNat := by
    rw [toNat_prepareMaskingKey]
    exact be_append (m := 4) (n := 4) hlt
  cases little with
  | false => exact hbe
  | true =>
      show (Framing.be 8 _).reverse = (Framing.be 4 _).reverse ++ (Framing.be 4 _).reverse
      rw [hbe, List.reverse_append]

theorem prepared_key (key : MaskingKey) : Prepared little (prepareMaskingKey key) (key.stream little) := by
  refine ⟨key.periodic, fun k hk => ?_⟩
  have hlen : (key.c little).length = 4 := by rw [MaskingKey.c, length_store]
  rw [store_prepareMaskingKey]
  by_cases hk4 : k < 4
  · rw [List.getElem?_append_left (by omega), key.getElem?_c hk4]
  · rw [List.getElem?_append_right (by omega), hlen, key.getElem?_c (by omega), ← key.periodic (k - 4),
      Nat.sub_add_cancel (by omega)]

/-- The shifts turn the word. -/
theorem toNat_circshiftPreparedKey {o : Nat} (ho : o < 8) :
    (circshiftPreparedKey little prepared o).toNat = turn little 8 o prepared.toNat := by
  have hlt : prepared.toNat < 2 ^ 64 := prepared.toNat_lt
  have hpow : ∀ k, 256 ^ k = 2 ^ (k * 8) := fun k => by rw [Nat.mul_comm, Nat.pow_mul]
  by_cases h0 : o = 0
  · subst h0
    have hleft : prepared <<< 64 = prepared := by
      apply UInt64.toNat_inj.mp
      rw [UInt64.toNat_shiftLeft]
      exact Nat.mod_eq_of_lt hlt
    have hright : prepared >>> 64 = prepared := by
      apply UInt64.toNat_inj.mp
      rw [UInt64.toNat_shiftRight]
      rfl
    have hword : circshiftPreparedKey little prepared 0 = prepared := by
      cases little <;> simp [circshiftPreparedKey, hleft, hright]
    have hturn : turn little 8 0 prepared.toNat = prepared.toNat := by
      cases little with
      | false =>
          show prepared.toNat % 2 ^ 64 * 1 + prepared.toNat / 2 ^ 64 = prepared.toNat
          omega
      | true =>
          show prepared.toNat % 1 * 2 ^ 64 + prepared.toNat / 1 = prepared.toNat
          omega
    rw [hword, hturn]
  · -- Both counts are less than the width, and what one shift takes in is what the other leaves out.
    have hcount : ∀ k ≤ 7, (UInt64.ofNat (k * 8)).toNat % 64 = k * 8 := by
      intro k hk
      rw [UInt64.toNat_ofNat', Nat.mod_eq_of_lt (by omega), Nat.mod_eq_of_lt (by omega)]
    have hshifts : ∀ a b, a + b = 8 → prepared.toNat / 256 ^ a ||| prepared.toNat * 256 ^ b % 2 ^ 64 =
        prepared.toNat % 256 ^ a * 256 ^ b + prepared.toNat / 256 ^ a := by
      intro a b hab
      have hwidth : 2 ^ 64 = 256 ^ a * 256 ^ b := by
        rw [← Nat.pow_add, hab]
        rfl
      have hfit : prepared.toNat / 256 ^ a < 2 ^ (b * 8) := by
        apply Nat.div_lt_of_lt_mul
        rwa [← hpow, ← hwidth]
      rw [hwidth, Nat.mul_mod_mul_right, Nat.or_comm, hpow b, ← Nat.shiftLeft_eq, ← Nat.shiftLeft_add_eq_or_of_lt hfit]
    cases little with
    | false =>
        have h := hshifts (8 - o) o (by omega)
        rw [circshiftPreparedKey, if_neg Bool.false_ne_true, turn, if_neg Bool.false_ne_true, UInt64.toNat_or,
          UInt64.toNat_shiftLeft, UInt64.toNat_shiftRight, hcount o (by omega), hcount (8 - o) (by omega),
          Nat.shiftLeft_eq, Nat.shiftRight_eq_div_pow, ← hpow, ← hpow, Nat.or_comm, h]
    | true =>
        have h := hshifts o (8 - o) (by omega)
        rw [circshiftPreparedKey, if_pos rfl, turn, if_pos rfl, UInt64.toNat_or, UInt64.toNat_shiftLeft,
          UInt64.toNat_shiftRight, hcount o (by omega), hcount (8 - o) (by omega), Nat.shiftLeft_eq,
          Nat.shiftRight_eq_div_pow, ← hpow, ← hpow, h]

/-- A key that is turned goes on where the masking stopped. -/
theorem Prepared.circshift {o : Nat} (h : Prepared little prepared ks) (ho : o < 8) :
    Prepared little (circshiftPreparedKey little prepared o) fun i => ks (o + i) := by
  refine ⟨h.periodic.shift o, fun k hk => ?_⟩
  have hmod : (k + o) % 8 < 8 := Nat.mod_lt _ (by decide)
  have hks : ks ((k + o) % 8) = ks (o + k) := by
    rw [Nat.add_comm k o, ← h.periodic.mod (o + k), ← h.periodic.mod ((o + k) % 8)]
    congr 1
    omega
  rw [toNat_circshiftPreparedKey ho, store_turn (Nat.le_of_lt ho) prepared.toNat_lt,
    List.getElem?_rotate (by rw [length_store]; exact hk), length_store, h.octets _ hmod, hks]

/-- A key may be turned by the rest of the count, as it repeats itself. -/
theorem Prepared.advance {n o : Nat} (h : Prepared little prepared ks) (ho : o < 8) (hn : n % 4 = o % 4) :
    Prepared little (circshiftPreparedKey little prepared o) fun i => ks (n + i) := by
  have heq : (fun i => ks (n + i)) = fun i => ks (o + i) := by
    funext i
    rw [← h.periodic.mod (n + i), ← h.periodic.mod (o + i)]
    congr 1
    omega
  rw [heq]
  exact h.circshift ho

/-! ## The routines add the stream

Each routine adds the stream to its input (`mask`), and leaves a key that is prepared for what comes next. The octets
of a word are added all at once. -/

theorem byteMask_eq (input : Bytes) (key : MaskingKey) (key_offset : Nat) :
    byteMask little input key key_offset = mask (fun i => key.stream little (key_offset + i)) input := by
  have hloop : ∀ n, byteMaskLoop (key.c little) (n % 4) input = mask (fun i => key.stream little (n + i)) input := by
    induction input with
    | nil => exact fun _ => rfl
    | cons b input ih =>
        intro n
        have hnext : (n % 4 + 1) % 4 = (n + 1) % 4 := by omega
        rw [byteMaskLoop, hnext, ih (n + 1), mask_cons]
        simp only [Nat.add_assoc, Nat.add_zero]
        rfl
  exact hloop key_offset

/-- The low half of a prepared key has the octets of the stream. -/
theorem Prepared.low (h : Prepared little prepared ks) (i : Nat) :
    (MaskingKey.c little ⟨prepared.toUInt32⟩).getD (i % 4) 0 = ks i := by
  have hk : i % 4 < 4 := Nat.mod_lt i (by decide)
  have hsplit := be_eq_append (m := 4) (n := 4) (k := prepared.toNat)
  have hlow : prepared.toUInt32.toNat = prepared.toNat % 256 ^ 4 := UInt64.toNat_toUInt32 prepared
  have hoctet : (MaskingKey.c little ⟨prepared.toUInt32⟩)[i % 4]? = some (ks (i % 4)) := by
    cases little with
    | false =>
        have hfour := h.octets (4 + i % 4) (by omega)
        rw [Nat.add_comm, h.periodic] at hfour
        show (Framing.be 4 prepared.toUInt32.toNat)[i % 4]? = _
        change (Framing.be (4 + 4) prepared.toNat)[i % 4 + 4]? = _ at hfour
        rw [hsplit, List.getElem?_append_right (by rw [Framing.length_be]; omega), Framing.length_be,
          Nat.add_sub_cancel] at hfour
        rw [hlow, hfour]
    | true =>
        have hfour := h.octets (i % 4) (by omega)
        show (Framing.be 4 prepared.toUInt32.toNat).reverse[i % 4]? = _
        change (Framing.be (4 + 4) prepared.toNat).reverse[i % 4]? = _ at hfour
        rw [hsplit, List.reverse_append, List.getElem?_append_left (by simpa using hk)] at hfour
        rw [hlow, hfour]
  rw [List.getD_eq_getElem?_getD, hoctet, h.periodic.mod]
  rfl

/-- **Octet by octet, and the key goes on.** -/
theorem byteMaskCirc_eq (h : Prepared little prepared ks) (input : Bytes) :
    (byteMaskCirc little input prepared).1 = mask ks input ∧
      Prepared little (byteMaskCirc little input prepared).2 fun i => ks (input.length + i) := by
  refine ⟨?_, h.advance (by omega) (Nat.mod_mod _ _).symm⟩
  show input.mapIdx _ = input.mapIdx _
  congr 1
  funext i b
  rw [h.low]

/-- The octets of the stream determine the prepared key. -/
theorem Prepared.unique {other : UInt64} (h : Prepared little prepared ks) (h' : Prepared little other ks) :
    prepared = other := by
  have hstore : store little 8 prepared.toNat = store little 8 other.toNat := by
    apply List.ext_getElem?
    intro k
    by_cases hk : k < 8
    · rw [h.octets k hk, h'.octets k hk]
    · rw [List.getElem?_eq_none (by rw [length_store]; omega), List.getElem?_eq_none (by rw [length_store]; omega)]
  have hload := congrArg (load little) hstore
  rw [load_store prepared.toNat_lt, load_store other.toNat_lt] at hload
  exact UInt64.toNat_inj.mp hload

/-- Two pieces one after the other are masked as they are together. -/
theorem byteMaskCirc_append (h : Prepared little prepared ks) (xs ys : Bytes) :
    byteMaskCirc little (xs ++ ys) prepared =
      ((byteMaskCirc little xs prepared).1 ++ (byteMaskCirc little ys (byteMaskCirc little xs prepared).2).1,
        (byteMaskCirc little ys (byteMaskCirc little xs prepared).2).2) := by
  obtain ⟨hall, hkey⟩ := byteMaskCirc_eq h (xs ++ ys)
  obtain ⟨hfront, hmid⟩ := byteMaskCirc_eq h xs
  obtain ⟨hback, hend⟩ := byteMaskCirc_eq hmid ys
  apply Prod.ext
  · show _ = (byteMaskCirc little xs prepared).1 ++ _
    rw [hall, hfront, hback, mask_append]
  · refine hkey.unique ?_
    have hstream : (fun i => ks ((xs ++ ys).length + i)) = fun i => ks (xs.length + (ys.length + i)) := by
      funext i
      rw [List.length_append, Nat.add_assoc]
    rw [hstream]
    exact hend

theorem maskWords_eq (h : Prepared little prepared ks) {n : Nat} {input : Bytes} (hn : n * 8 ≤ input.length) :
    maskWords little prepared n input = mask ks (input.take (n * 8)) := by
  induction n generalizing input with
  | zero => simp [maskWords]
  | succ n ih =>
      have hlen : (input.take 8).length = 8 := by rw [List.length_take]; omega
      have hword : store little 8 (load little (input.take 8) ^^^ prepared.toNat) = mask ks (input.take 8) := by
        have hstore : store little (input.take 8).length (load little (input.take 8)) = input.take 8 := store_load _
        rw [hlen] at hstore
        rw [store_xor, hstore]
        exact zipWith_xor (by rw [length_store, hlen]) fun k hk => h.octets k (by rwa [hlen] at hk)
      have hdrop : n * 8 ≤ (input.drop 8).length := by
        rw [List.length_drop]
        omega
      have hrest := ih hdrop
      have hsplit : input.take ((n + 1) * 8) = input.take 8 ++ (input.drop 8).take (n * 8) := by
        rw [← List.take_add]
        congr 1
        omega
      have hperiod : (fun i => ks (8 + i)) = ks := by
        funext i
        rw [Nat.add_comm, show i + 8 = i + 4 + 4 from rfl, h.periodic, h.periodic]
      rw [maskWords, hword, hrest, hsplit, mask_append, hlen, hperiod]

/-- **Word by word, and the key goes on.** -/
theorem wordMaskCirc_eq (h : Prepared little prepared ks) (input : Bytes) :
    (wordMaskCirc little input prepared).1 = mask ks input ∧
      Prepared little (wordMaskCirc little input prepared).2 fun i => ks (input.length + i) := by
  have hl : input.length - input.length / 8 * 8 = input.length % 8 := by omega
  refine ⟨?_, h.advance (o := input.length - input.length / 8 * 8) (by omega) (by omega)⟩
  have hstart : input.length - (input.length - input.length / 8 * 8) = input.length / 8 * 8 := by omega
  have htail : (input.drop (input.length / 8 * 8)).mapIdx (fun i b => b ^^^ (store little 8 prepared.toNat).getD i 0) =
      mask ks (input.drop (input.length / 8 * 8)) := by
    apply mask_congr
    intro i hi
    rw [List.length_drop] at hi
    rw [List.getD_eq_getElem?_getD, h.octets i (by omega)]
    rfl
  have hperiod : (fun i => ks (input.length / 8 * 8 + i)) = ks := by
    funext i
    rw [← h.periodic.mod (input.length / 8 * 8 + i), ← h.periodic.mod i]
    congr 1
    omega
  show maskWords little prepared (input.length / 8) input ++ (input.drop (input.length -
    (input.length - input.length / 8 * 8))).mapIdx _ = _
  rw [hstart, htail, maskWords_eq h (by omega)]
  conv_rhs => rw [← List.take_append_drop (input.length / 8 * 8) input, mask_append, List.length_take,
    Nat.min_eq_left (by omega), hperiod]

theorem wordMaskExact_eq (key : MaskingKey) (input : Bytes) :
    wordMaskExact little input key = mask (key.stream little) input := by
  have htail : (input.drop (input.length / 8 * 8)).mapIdx
        (fun i b => b ^^^ (key.c little).getD ((input.length / 8 * 8 + i) % 4) 0) =
      mask (fun i => key.stream little (input.length / 8 * 8 + i)) (input.drop (input.length / 8 * 8)) := rfl
  show maskWords little (prepareMaskingKey key) (input.length / 8) input ++ _ = _
  rw [htail, maskWords_eq (prepared_key key) (by omega)]
  conv_rhs => rw [← List.take_append_drop (input.length / 8 * 8) input, mask_append, List.length_take,
    Nat.min_eq_left (by omega)]

/-! ## In pieces

As every routine hands on a prepared key, a payload may be cut anywhere, and to add the stream twice is to add
nothing. -/

/-- Masks a payload that comes in pieces, each by one of the two circular routines. -/
def maskPieces (little : Bool) : List (Bool × Bytes) → UInt64 → Bytes
  | [],                     _        => []
  | (words, input) :: rest, prepared =>
    let (output, prepared') :=
      if words then wordMaskCirc little input prepared else byteMaskCirc little input prepared
    output ++ maskPieces little rest prepared'

theorem maskPieces_eq (h : Prepared little prepared ks) (pieces : List (Bool × Bytes)) :
    maskPieces little pieces prepared = mask ks (pieces.flatMap Prod.snd) := by
  induction pieces generalizing prepared ks with
  | nil => rfl
  | cons piece pieces ih =>
      obtain ⟨words, input⟩ := piece
      have hpiece : ∀ out : Bytes × UInt64, out.1 = mask ks input ∧ Prepared little out.2 (fun i => ks (input.length + i)) →
          out.1 ++ maskPieces little pieces out.2 = mask ks (input ++ pieces.flatMap Prod.snd) := by
        rintro ⟨output, prepared'⟩ ⟨rfl, hnext⟩
        rw [ih hnext, mask_append]
      cases words with
      | false => exact hpiece _ (byteMaskCirc_eq h input)
      | true => exact hpiece _ (wordMaskCirc_eq h input)

/-- **All routines do the same.** Masked in any pieces, each octet by octet or word by word, a payload comes out as
    `byte_mask` and `word_mask_exact` mask it as a whole. -/
theorem masked_in_pieces (little : Bool) (key : MaskingKey) (pieces : List (Bool × Bytes)) :
    maskPieces little pieces (prepareMaskingKey key) = byteMask little (pieces.flatMap Prod.snd) key 0 ∧
      wordMaskExact little (pieces.flatMap Prod.snd) key = byteMask little (pieces.flatMap Prod.snd) key 0 := by
  have hwhole : byteMask little (pieces.flatMap Prod.snd) key 0 = mask (key.stream little) (pieces.flatMap Prod.snd) := by
    rw [byteMask_eq]
    simp only [Nat.zero_add]
  exact ⟨(maskPieces_eq (prepared_key key) pieces).trans hwhole.symm, (wordMaskExact_eq key _).trans hwhole.symm⟩

/-- **The masking is undone** by masking again, in any other pieces. -/
theorem unmasked_in_pieces (little : Bool) (key : MaskingKey) (payload : Bytes) (pieces : List (Bool × Bytes))
    (h : pieces.flatMap Prod.snd = byteMask little payload key 0) :
    maskPieces little pieces (prepareMaskingKey key) = payload := by
  rw [maskPieces_eq (prepared_key key), h, byteMask_eq]
  simp only [Nat.zero_add]
  exact mask_mask _ _

/-- One octet by itself, and two of a word. -/
theorem unmasked_in_pieces_two :
    maskPieces true [(false, [0xF3]), (true, [0xF3, 0xF3])] (prepareMaskingKey ⟨0xF6F0F1F2⟩) = [1, 2, 3] :=
  unmasked_in_pieces true ⟨0xF6F0F1F2⟩ [1, 2, 3] _ (by decide +kernel)

end NewOrbit.Websocket
