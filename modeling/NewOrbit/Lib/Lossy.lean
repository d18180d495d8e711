import NewOrbit.Lib.Machine

/-!
# `Lib.Lossy` — streams that drop what does not fit

A machine appends data to a stream step by step, but of the data of a step it may take only as much as it has
room for at that moment. A byte that is dropped is never made up for: the stream is what was offered exactly
when every step had the room for what it was offered (`Takes.stream_eq_iff`).
-/

namespace Lossy

variable {S A B : Type*}

/-- Every step appends to `stream` the first `room` elements of its `data`. -/
def Takes (step : S → A → Option S) (stream : S → List B) (data : A → List B) (room : S → A → Nat) : Prop :=
  ∀ s a t, step s a = some t → stream t = stream s ++ (data a).take (room s a)

/-- Two streams, the first no longer than the second, after one more offer. -/
theorem append_take_eq_iff {xs ys zs : List B} {n : Nat} (h : xs.length ≤ ys.length) :
    xs ++ zs.take n = ys ++ zs ↔ xs = ys ∧ zs.length ≤ n := by
  constructor
  · intro heq
    have hlen := congrArg List.length heq
    rw [List.length_append, List.length_append, List.length_take] at hlen
    exact ⟨(List.append_inj heq (by omega)).1, by omega⟩
  · rintro ⟨rfl, hn⟩
    rw [List.take_of_length_le hn]

variable {step : S → A → Option S} {stream : S → List B} {data : A → List B} {room : S → A → Nat}

/-- Nothing is in the stream that was not offered. -/
theorem Takes.length_le (h : Takes step stream data room) {tr : List A} {s t : S}
    (hrun : Machine.exec step tr s = some t) :
    (stream t).length ≤ (stream s).length + (tr.flatMap data).length := by
  refine Machine.exec_trace (I := fun tr t => (stream t).length ≤ (stream s).length + (tr.flatMap data).length)
    (Nat.le_refl _) (fun tr t a u ih ha => ?_) hrun
  rw [h t a u ha, List.flatMap_append, List.length_append, List.length_append, List.length_take,
    List.flatMap_singleton]
  omega

/-- **The stream is what was offered exactly when every offer fitted.** -/
theorem Takes.stream_eq_iff (h : Takes step stream data room) {tr : List A} {s t : S}
    (hrun : Machine.exec step tr s = some t) :
    stream t = stream s ++ tr.flatMap data ↔ Machine.Each step (fun s a => (data a).length ≤ room s a) tr s := by
  induction tr using List.reverseRecOn generalizing t with
  | nil =>
      obtain rfl : s = t := Option.some.inj hrun
      exact iff_of_true (List.append_nil _).symm (Machine.each_nil s)
  | append_singleton tr a ih =>
      obtain ⟨m, hm, ha⟩ := Machine.exec_snoc_iff.mp hrun
      have hle : (stream m).length ≤ (stream s ++ tr.flatMap data).length := by
        rw [List.length_append]
        exact h.length_le hm
      rw [h m a t ha, List.flatMap_append, List.flatMap_singleton, ← List.append_assoc, append_take_eq_iff hle, ih hm,
        Machine.each_snoc_iff hm]

end Lossy
