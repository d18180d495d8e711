import NewOrbit.Lib.Framing

/-!
# `Lib.Wire` — readers of octets and what they read back

A reader takes a value off the front of the octets that are left, or refuses them. `Reads p bs a` says that `p`
takes exactly `bs` and gives `a`, whatever follows; it composes along `bind`, so what a writer put down field by
field is read back field by field. `Yields p Q` is the other direction: whatever a successful `p` took and gave,
`Q` holds of them.
-/

namespace Wire
open Framing

/-- Takes a value off the front of the octets, or refuses them. -/
abbrev Reader (ε α : Type) := StateT (List UInt8) (Except ε) α

variable {ε α β : Type}

/-- `p` takes exactly `bs`, giving `a`. -/
def Reads (p : Reader ε α) (bs : List UInt8) (a : α) : Prop := ∀ rest, p (bs ++ rest) = .ok (a, rest)

/-- Whatever `p` takes and gives satisfies `Q`. -/
def Yields (p : Reader ε α) (Q : α → List UInt8 → Prop) : Prop :=
  ∀ bs a rest, p bs = .ok (a, rest) → ∃ used, bs = used ++ rest ∧ Q a used

/-! ## Reading back -/

theorem Reads.pure (a : α) : Reads (pure a : Reader ε α) [] a := fun _ => rfl

theorem Reads.bind {p : Reader ε α} {f : α → Reader ε β} {bs cs : List UInt8} {a : α} {b : β} (hp : Reads p bs a)
    (hf : Reads (f a) cs b) : Reads (p >>= f) (bs ++ cs) b := by
  intro rest
  show (p ((bs ++ cs) ++ rest) >>= fun x => f x.1 x.2) = .ok (b, rest)
  rw [List.append_assoc, hp]
  exact hf rest

theorem Reads.map {p : Reader ε α} {bs : List UInt8} {a : α} (hp : Reads p bs a) (g : α → β) :
    Reads (g <$> p) bs (g a) := by
  intro rest
  show (p (bs ++ rest) >>= fun x => Pure.pure (g x.1, x.2)) = .ok (g a, rest)
  rw [hp]
  rfl

theorem Reads.of_eq {p : Reader ε α} {bs : List UInt8} {a b : α} (hp : Reads p bs a) (h : a = b) : Reads p bs b :=
  h ▸ hp

/-- Read back with nothing behind. -/
theorem Reads.run {p : Reader ε α} {bs : List UInt8} {a : α} (hp : Reads p bs a) : p bs = .ok (a, []) := by
  have h := hp []
  rwa [List.append_nil] at h

/-! ## What a success says -/

theorem Yields.pure {a : α} {Q : α → List UInt8 → Prop} (h : Q a []) : Yields (pure a : Reader ε α) Q := by
  intro bs b rest hok
  obtain ⟨rfl, rfl⟩ : a = b ∧ bs = rest := by
    injection hok with hok
    exact Prod.mk.inj hok
  exact ⟨[], rfl, h⟩

theorem Yields.bind {p : Reader ε α} {f : α → Reader ε β} {Q : α → List UInt8 → Prop} {R : β → List UInt8 → Prop}
    (hp : Yields p Q) (hf : ∀ a used, Q a used → Yields (f a) fun b more => R b (used ++ more)) :
    Yields (p >>= f) R := by
  intro bs b rest hok
  change (p bs >>= fun x => f x.1 x.2) = .ok (b, rest) at hok
  cases hpb : p bs with
  | error e => rw [hpb] at hok; cases hok
  | ok x =>
      obtain ⟨a, mid⟩ := x
      rw [hpb] at hok
      obtain ⟨used, rfl, hQ⟩ := hp bs a mid hpb
      obtain ⟨more, rfl, hR⟩ := hf a used hQ mid b rest hok
      exact ⟨used ++ more, (List.append_assoc used more rest).symm, hR⟩

theorem Yields.mono {p : Reader ε α} {Q R : α → List UInt8 → Prop} (hp : Yields p Q) (h : ∀ a used, Q a used → R a used) :
    Yields p R := by
  intro bs a rest hok
  obtain ⟨used, hbs, hQ⟩ := hp bs a rest hok
  exact ⟨used, hbs, h a used hQ⟩

theorem Yields.map {p : Reader ε α} {Q : α → List UInt8 → Prop} (hp : Yields p Q) (g : α → β)
    {R : β → List UInt8 → Prop} (h : ∀ a used, Q a used → R (g a) used) : Yields (g <$> p) R := by
  refine Yields.bind (f := fun a => Pure.pure (g a)) hp fun a used hQ => Yields.pure ?_
  rw [List.append_nil]
  exact h a used hQ

theorem Yields.throw {e : ε} {Q : α → List UInt8 → Prop} : Yields (throw e : Reader ε α) Q := by
  intro bs a rest hok
  cases hok

/-! ## Octets and numbers -/

/-- The next `n` octets. -/
def octets (refuse : ε) (n : Nat) : Reader ε (List UInt8) := fun bs =>
  if n ≤ bs.length then .ok (bs.take n, bs.drop n) else .error refuse

/-- The next `width` octets as a number, the highest first. -/
def unsigned (refuse : ε) (width : Nat) : Reader ε Nat := ofBe <$> octets refuse width

theorem reads_octets (refuse : ε) (bs : List UInt8) : Reads (octets refuse bs.length) bs bs := by
  intro rest
  have hle : bs.length ≤ (bs ++ rest).length := by simp
  rw [octets, if_pos hle, List.take_left, List.drop_left]

theorem reads_unsigned (refuse : ε) (width : Nat) {n : Nat} (h : n < 256 ^ width) : Reads (unsigned refuse width) (be width n) n := by
  have hread : Reads (octets refuse width) (be width n) (be width n) := by
    have h' := reads_octets refuse (be width n)
    rwa [length_be] at h'
  have hmap := hread.map ofBe
  rwa [ofBe_be h] at hmap

theorem yields_octets (refuse : ε) (n : Nat) : Yields (octets refuse n) fun a used => a = used ∧ used.length = n := by
  intro bs a rest hok
  rw [octets] at hok
  split at hok
  · rename_i hle
    obtain ⟨rfl, rfl⟩ := Prod.mk.inj (Except.ok.inj hok)
    exact ⟨bs.take n, (List.take_append_drop n bs).symm, rfl, List.length_take_of_le hle⟩
  · cases hok

theorem ofBe_lt (bs : List UInt8) : ofBe bs < 256 ^ bs.length := by
  induction bs using List.reverseRecOn with
  | nil => exact Nat.one_pos
  | append_singleton bs b ih =>
      have hlow : b.toNat < 256 := b.toNat_lt
      rw [ofBe, List.foldl_append, List.length_append, List.length_singleton, Nat.pow_succ]
      show 256 * ofBe bs + b.toNat < 256 ^ bs.length * 256
      omega

theorem be_ofBe (bs : List UInt8) : be bs.length (ofBe bs) = bs := by
  induction bs using List.reverseRecOn with
  | nil => rfl
  | append_singleton bs b ih =>
      have hlow : b.toNat < 256 := b.toNat_lt
      have hvalue : ofBe (bs ++ [b]) = 256 * ofBe bs + b.toNat := by rw [ofBe, List.foldl_append]; rfl
      have hdiv : (256 * ofBe bs + b.toNat) / 256 = ofBe bs := by omega
      have hmod : UInt8.ofNat (256 * ofBe bs + b.toNat) = b := by
        apply UInt8.toNat_inj.mp
        rw [UInt8.toNat_ofNat']
        omega
      rw [List.length_append, List.length_singleton, hvalue, be, hdiv, ih, hmod]

theorem yields_unsigned (refuse : ε) (width : Nat) :
    Yields (unsigned refuse width) fun n used => n = ofBe used ∧ used.length = width := by
  refine (yields_octets refuse width).map ofBe ?_
  rintro a used ⟨rfl, hlen⟩
  exact ⟨rfl, hlen⟩

/-! ## Readers that agree on short inputs

Two readers may differ in a bound on their rounds. They agree up to a length if they do the same on every shorter
input; a reader behind another one has less input, by what the other must have taken. -/

/-- The two readers do the same on fewer than `n` octets. -/
def Agree (n : Nat) (p q : Reader ε α) : Prop := ∀ bs : List UInt8, bs.length < n → p bs = q bs

theorem Agree.refl (n : Nat) (p : Reader ε α) : Agree n p p := fun _ _ => rfl

theorem Agree.mono {m n : Nat} {p q : Reader ε α} (h : Agree n p q) (hle : m ≤ n) : Agree m p q :=
  fun bs hbs => h bs (Nat.lt_of_lt_of_le hbs hle)

/-- What `p` takes is no longer there for what follows. -/
theorem Agree.bind {k n : Nat} {p p' : Reader ε α} {f f' : α → Reader ε β} (hp : Agree (n + k) p p')
    (htake : Yields p fun _ used => k ≤ used.length) (hf : ∀ a, Agree n (f a) (f' a)) :
    Agree (n + k) (p >>= f) (p' >>= f') := by
  intro bs hbs
  show (p bs >>= fun x => f x.1 x.2) = (p' bs >>= fun x => f' x.1 x.2)
  rw [← hp bs hbs]
  cases hok : p bs with
  | error e => rfl
  | ok x =>
      obtain ⟨used, hused, hk⟩ := htake bs x.1 x.2 hok
      have hlen : x.2.length < n := by
        rw [hused, List.length_append] at hbs
        omega
      exact hf x.1 x.2 hlen

theorem Agree.map {n : Nat} {p p' : Reader ε α} (hp : Agree n p p') (g : α → β) : Agree n (g <$> p) (g <$> p') := by
  intro bs hbs
  show (p bs >>= fun x => Pure.pure (g x.1, x.2)) = (p' bs >>= fun x => Pure.pure (g x.1, x.2))
  rw [hp bs hbs]

end Wire
