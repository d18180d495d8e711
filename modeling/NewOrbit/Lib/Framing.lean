import Mathlib.Algebra.Group.Nat.Defs
import Mathlib.Data.List.Infix

/-!
# `Lib.Framing` — frames on a byte stream

A stream carries frames one after another; a decoder takes the next frame off the front, or waits for more
bytes. `Code` is what the decoder must satisfy: it inverts the encoder, and more bytes behind a frame change
nothing. Then whatever prefix of an encoded stream has arrived, the frames read off it are a prefix of the
frames sent (`Code.split_prefix_of_sent`), and a stream that arrives in pieces is read in pieces, each time from
what was left (`Code.split_append`). Numbers inside frames are big-endian (`be`, `ofBe`).
-/

namespace Framing

/-! ## Big-endian numbers -/

/-- The low `width` bytes of a number, the highest first. -/
def be : Nat → Nat → List UInt8
  | 0,         _ => []
  | width + 1, n => be width (n / 256) ++ [UInt8.ofNat n]

def ofBe (bs : List UInt8) : Nat := bs.foldl (fun acc b => 256 * acc + b.toNat) 0

@[simp] theorem length_be (width n : Nat) : (be width n).length = width := by
  induction width generalizing n with
  | zero => rfl
  | succ width ih => simp [be, ih]

theorem ofBe_be {width n : Nat} (h : n < 256 ^ width) : ofBe (be width n) = n := by
  induction width generalizing n with
  | zero =>
      obtain rfl : n = 0 := by simpa using h
      rfl
  | succ width ih =>
      have hdiv : n / 256 < 256 ^ width := Nat.div_lt_of_lt_mul (by rw [Nat.mul_comm, ← Nat.pow_succ]; exact h)
      have hih : ofBe (be width (n / 256)) = n / 256 := ih hdiv
      have hlow : (UInt8.ofNat n).toNat = n % 256 := by simp
      rw [be, ofBe, List.foldl_append]
      show 256 * ofBe (be width (n / 256)) + (UInt8.ofNat n).toNat = n
      rw [hih, hlow]
      exact Nat.div_add_mod n 256

/-- Numbers that fit are told apart. -/
theorem be_inj {width m n : Nat} (hm : m < 256 ^ width) (hn : n < 256 ^ width) (h : be width m = be width n) :
    m = n := by
  rw [← ofBe_be hm, h, ofBe_be hn]

/-! ## Splitting a stream

Each frame takes an octet at least, so the length of the stream is enough fuel, and a proof about `split` goes by
induction on the frames (`induct`). -/

variable {F B : Type*} (dec : List B → Option (F × List B))

/-- Take frames off the front, at most `fuel` of them. -/
def splitFuel : Nat → List B → List F
  | 0,        _  => []
  | fuel + 1, bs =>
    match dec bs with
    | none           => []
    | some (f, rest) => f :: splitFuel fuel rest

/-- The complete frames at the front of the stream. -/
def split (bs : List B) : List F := splitFuel dec bs.length bs

/-- What is left once at most `fuel` frames are taken off the front. -/
def restFuel : Nat → List B → List B
  | 0,        bs => bs
  | fuel + 1, bs =>
    match dec bs with
    | none           => bs
    | some (_, rest) => restFuel fuel rest

/-- What is left behind the complete frames at the front of the stream. -/
def rest (bs : List B) : List B := restFuel dec bs.length bs

/-- The decoder inverts the encoder on the frames that are `Ok`, and never looks behind the frame it takes. -/
structure Code (enc : F → List B) (dec : List B → Option (F × List B)) (Ok : F → Prop) : Prop where
  dec_enc     : ∀ f, Ok f → ∀ rest, dec (enc f ++ rest) = some (f, rest)
  dec_append  : ∀ bs f rest, dec bs = some (f, rest) → ∀ more, dec (bs ++ more) = some (f, rest ++ more)
  dec_shorter : ∀ bs f rest, dec bs = some (f, rest) → rest.length < bs.length

namespace Code
variable {enc : F → List B} {dec : List B → Option (F × List B)} {Ok : F → Prop} (hc : Code enc dec Ok)
include hc

/-- Induction along the frames at the front of a stream. -/
theorem induct {motive : List B → Prop} (waits : ∀ bs, dec bs = none → motive bs)
    (frame : ∀ bs f rest, dec bs = some (f, rest) → motive rest → motive bs) (bs : List B) : motive bs := by
  -- The induction is on a bound for the length, as a frame may take any number of elements.
  suffices hlen : ∀ n (bs : List B), bs.length < n → motive bs from hlen _ bs (Nat.lt_succ_self _)
  intro n
  induction n with
  | zero => exact fun bs h => absurd h (Nat.not_lt_zero _)
  | succ n ih =>
      intro bs h
      cases hdec : dec bs with
      | none => exact waits bs hdec
      | some fr =>
          have hlt := hc.dec_shorter bs fr.1 fr.2 hdec
          exact frame bs fr.1 fr.2 hdec (ih fr.2 (by omega))

/-- Any amount of fuel that covers the stream will do: each frame takes at least one element. -/
theorem fuel_eq (bs : List B) : ∀ m n, bs.length ≤ m → bs.length ≤ n →
    splitFuel dec m bs = splitFuel dec n bs ∧ restFuel dec m bs = restFuel dec n bs := by
  induction bs using hc.induct with
  | waits bs hdec =>
      intro m n _ _
      cases m <;> cases n <;> simp [splitFuel, restFuel, hdec]
  | frame bs f rest hdec ih =>
      intro m n hm hn
      have hlt := hc.dec_shorter bs f rest hdec
      obtain ⟨m, rfl⟩ := Nat.exists_eq_succ_of_ne_zero (show m ≠ 0 by omega)
      obtain ⟨n, rfl⟩ := Nat.exists_eq_succ_of_ne_zero (show n ≠ 0 by omega)
      obtain ⟨hsplit, hrest⟩ := ih m n (by omega) (by omega)
      simp [splitFuel, restFuel, hdec, hsplit, hrest]

theorem splitFuel_eq {fuel : Nat} {bs : List B} (h : bs.length ≤ fuel) : splitFuel dec fuel bs = split dec bs :=
  (hc.fuel_eq bs fuel bs.length h (Nat.le_refl _)).1

theorem restFuel_eq {fuel : Nat} {bs : List B} (h : bs.length ≤ fuel) : restFuel dec fuel bs = rest dec bs :=
  (hc.fuel_eq bs fuel bs.length h (Nat.le_refl _)).2

theorem split_of_some {bs rest : List B} {f : F} (h : dec bs = some (f, rest)) :
    split dec bs = f :: split dec rest := by
  have hlt := hc.dec_shorter bs f rest h
  cases hlen : bs.length with
  | zero => omega
  | succ n =>
      rw [split, hlen, splitFuel, h]
      exact congrArg (f :: ·) (hc.splitFuel_eq (by omega))

omit hc in
theorem split_of_none {bs : List B} (h : dec bs = none) : split dec bs = [] := by
  unfold split
  cases bs.length with
  | zero => rfl
  | succ n => simp [splitFuel, h]

theorem rest_of_some {bs bs' : List B} {f : F} (h : dec bs = some (f, bs')) : rest dec bs = rest dec bs' := by
  have hlt := hc.dec_shorter bs f bs' h
  cases hlen : bs.length with
  | zero => omega
  | succ n =>
      rw [rest, hlen, restFuel, h]
      exact hc.restFuel_eq (by omega)

omit hc in
theorem rest_of_none {bs : List B} (h : dec bs = none) : rest dec bs = bs := by
  unfold rest
  cases bs.length with
  | zero => rfl
  | succ n => simp [restFuel, h]

/-- **Splitting goes on where it stopped.** The frames of a longer stream are the frames of its first part, then
    those of what that part left with the second part behind it. -/
theorem split_append (p q : List B) : split dec (p ++ q) = split dec p ++ split dec (rest dec p ++ q) := by
  induction p using hc.induct with
  | waits p hdec => rw [split_of_none hdec, rest_of_none hdec, List.nil_append]
  | frame p f p' hdec ih =>
      rw [hc.split_of_some (hc.dec_append p f p' hdec q), ih, hc.split_of_some hdec, hc.rest_of_some hdec,
        List.cons_append]

theorem rest_append (p q : List B) : rest dec (p ++ q) = rest dec (rest dec p ++ q) := by
  induction p using hc.induct with
  | waits p hdec => rw [rest_of_none hdec]
  | frame p f p' hdec ih => rw [hc.rest_of_some (hc.dec_append p f p' hdec q), ih, hc.rest_of_some hdec]

/-- What holds of every frame the decoder takes holds of every frame of a stream. -/
theorem forall_mem_split {P : F → Prop} (hP : ∀ bs f bs', dec bs = some (f, bs') → P f) (bs : List B) :
    ∀ f ∈ split dec bs, P f := by
  induction bs using hc.induct with
  | waits bs hdec =>
      rw [split_of_none hdec]
      exact fun f hf => absurd hf List.not_mem_nil
  | frame bs f bs' hdec ih =>
      rw [hc.split_of_some hdec]
      exact List.forall_mem_cons.mpr ⟨hP bs f bs' hdec, ih⟩

/-- The frames and what is left are the stream, where the decoder takes the bytes of its frame and no others. -/
theorem flatMap_split_append_rest (hbytes : ∀ bs f bs', dec bs = some (f, bs') → bs = enc f ++ bs') (bs : List B) :
    (split dec bs).flatMap enc ++ rest dec bs = bs := by
  induction bs using hc.induct with
  | waits bs hdec => rw [split_of_none hdec, rest_of_none hdec, List.flatMap_nil, List.nil_append]
  | frame bs f bs' hdec ih =>
      rw [hc.split_of_some hdec, hc.rest_of_some hdec, List.flatMap_cons, List.append_assoc, ih,
        ← hbytes bs f bs' hdec]

/-- The frames taken are no longer than the stream, where each takes as much as its encoding has. -/
theorem length_flatMap_split_le (hlen : ∀ bs f bs', dec bs = some (f, bs') → (enc f).length + bs'.length ≤ bs.length)
    (bs : List B) : ((split dec bs).flatMap enc).length ≤ bs.length := by
  induction bs using hc.induct with
  | waits bs hdec => rw [split_of_none hdec, List.flatMap_nil]; exact Nat.zero_le _
  | frame bs f bs' hdec ih =>
      have hf := hlen bs f bs' hdec
      rw [hc.split_of_some hdec, List.flatMap_cons, List.length_append]
      omega

/-- More bytes only add frames. -/
theorem split_mono {p q : List B} (h : p <+: q) : split dec p <+: split dec q := by
  obtain ⟨more, rfl⟩ := h
  rw [hc.split_append]
  exact List.prefix_append _ _

/-- The frames of an encoded stream. -/
theorem split_flatMap {fs : List F} (hok : ∀ f ∈ fs, Ok f) : split dec (fs.flatMap enc) = fs := by
  induction fs with
  | nil => rfl
  | cons f fs ih =>
      rw [List.flatMap_cons, hc.split_of_some (hc.dec_enc f (hok f List.mem_cons_self) _),
        ih fun f' hf' => hok f' (List.mem_cons_of_mem _ hf')]

/-- **Whatever part of the stream has arrived, its frames are the first frames sent.** -/
theorem split_prefix_of_sent {fs : List F} (hok : ∀ f ∈ fs, Ok f) {p : List B} (h : p <+: fs.flatMap enc) :
    split dec p <+: fs := by
  have hmono := hc.split_mono h
  rwa [hc.split_flatMap hok] at hmono

end Code

/-! ## Marked blocks -/

/-- In a sequence of blocks that each end in a mark, a mark is preceded by the whole of its block. -/
theorem take_of_mark {E : Type*} {block body : E → List F} {mark : E → F} (hblock : ∀ e, block e = body e ++ [mark e])
    {x : F} (hx : ∀ e, x ∉ body e) {es : List E} {i : Nat} (h : (es.flatMap block)[i]? = some x) :
    ∃ es₁ e es₂, es = es₁ ++ e :: es₂ ∧ mark e = x ∧ (es.flatMap block).take i = es₁.flatMap block ++ body e := by
  induction es generalizing i with
  | nil => cases h
  | cons e es ih =>
      rw [List.flatMap_cons] at h ⊢
      have hlen : (block e).length = (body e).length + 1 := by rw [hblock, List.length_append]; rfl
      rcases Nat.lt_trichotomy i (body e).length with hlt | heq | hgt
      · -- Inside the body, where no mark is.
        rw [hblock, List.append_assoc, List.getElem?_append_left hlt] at h
        exact absurd (List.mem_of_getElem? h) (hx e)
      · -- The mark of this block.
        subst heq
        rw [hblock, List.append_assoc, List.getElem?_append_right (Nat.le_refl _), Nat.sub_self] at h
        refine ⟨[], e, es, rfl, Option.some.inj h, ?_⟩
        rw [hblock, List.append_assoc, List.take_left]
        rfl
      · -- In a later block.
        rw [List.getElem?_append_right (by omega)] at h
        obtain ⟨es₁, e', es₂, rfl, hmark, htake⟩ := ih h
        refine ⟨e :: es₁, e', es₂, rfl, hmark, ?_⟩
        rw [List.take_append, List.take_of_length_le (by omega), htake, List.flatMap_cons, List.append_assoc]

end Framing
