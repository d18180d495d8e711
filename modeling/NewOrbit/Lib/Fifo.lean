import Mathlib.Data.List.Basic

/-!
# `Lib.Fifo` — bookkeeping of FIFO channels

Messages travel over channels, `chan m` being the channel of `m`; a channel hands its messages out in the
order they came in. `Flow chan q sent recvd q'` is what a run from the queues `q` to the queues `q'` leaves
behind once it has sent `sent` and received `recvd`: channel by channel, what came out followed by what is
still queued is what was queued followed by what was sent. The runs in between may interleave the channels
in any way. Once all queues are empty, sent and received messages agree on every class of messages that
lies within one channel (`Flow.drained`).
-/

namespace Fifo

variable {M C K : Type*} [DecidableEq C]

/-- Append `m` to its channel. -/
def enqueue (chan : M → C) (q : C → List M) (m : M) : C → List M :=
  fun c => if c = chan m then q c ++ [m] else q c

/-- Drop the head of channel `c`. -/
def dequeue (q : C → List M) (c : C) : C → List M :=
  fun d => if d = c then (q d).tail else q d

/-- Channel by channel: received, then still queued, is queued before, then sent. -/
def Flow (chan : M → C) (q : C → List M) (sent recvd : List M) (q' : C → List M) : Prop :=
  ∀ c, recvd.filter (chan · = c) ++ q' c = q c ++ sent.filter (chan · = c)

/-- Every message is queued on its own channel. -/
def Sorted (chan : M → C) (q : C → List M) : Prop := ∀ c, ∀ m ∈ q c, chan m = c

variable {chan : M → C} {q q' : C → List M} {sent recvd : List M}

theorem Flow.refl : Flow chan q [] [] q := fun c => by simp

/-- A run that starts with sending `m`. -/
theorem Flow.send {m : M} (h : Flow chan (enqueue chan q m) sent recvd q') :
    Flow chan q (m :: sent) recvd q' := by
  intro c
  rw [h c]
  by_cases hc : chan m = c
  · simp [enqueue, hc]
  · simp [enqueue, hc, Ne.symm hc]

/-- A run that starts with receiving the head of channel `c`. -/
theorem Flow.recv {c : C} {m : M} {ms : List M} (hs : Sorted chan q) (hq : q c = m :: ms)
    (h : Flow chan (dequeue q c) sent recvd q') : Flow chan q sent (m :: recvd) q' := by
  intro d
  have hm : chan m = c := hs c m (by rw [hq]; exact List.mem_cons_self)
  by_cases hd : d = c
  · subst hd
    rw [List.filter_cons_of_pos (by simpa using hm), List.cons_append, h d]
    simp [dequeue, hq]
  · rw [List.filter_cons_of_neg (by simpa [hm] using Ne.symm hd), h d]
    simp [dequeue, hd]

omit [DecidableEq C] in
theorem Sorted.empty : Sorted chan (fun _ => []) := fun _ _ hm => absurd hm List.not_mem_nil

theorem Sorted.enqueue (h : Sorted chan q) (m : M) : Sorted chan (enqueue chan q m) := by
  intro c x hx
  unfold Fifo.enqueue at hx
  split at hx
  · next hc =>
      rcases List.mem_append.mp hx with hx | hx
      · exact h c x hx
      · rw [List.mem_singleton.mp hx, hc]
  · exact h c x hx

theorem Sorted.dequeue (h : Sorted chan q) (c : C) : Sorted chan (dequeue q c) := by
  intro d x hx
  unfold Fifo.dequeue at hx
  split at hx
  · exact h d x (List.mem_of_mem_tail hx)
  · exact h d x hx

/-- **Drained channels.** From empty queues to empty queues, the messages of one class — a class whose
    members share a channel — come out exactly as they were sent. -/
theorem Flow.drained [DecidableEq K] {key : M → K} {g : K → C} (h : Flow chan (fun _ => []) sent recvd (fun _ => []))
    (hs : ∀ m ∈ sent, chan m = g (key m)) (hr : ∀ m ∈ recvd, chan m = g (key m)) (k : K) :
    recvd.filter (key · = k) = sent.filter (key · = k) := by
  -- A class lies within one channel, so filtering by the channel first loses nothing of it.
  have hsplit : ∀ l : List M, (∀ m ∈ l, chan m = g (key m)) →
      (l.filter (chan · = g k)).filter (key · = k) = l.filter (key · = k) := by
    intro l hl
    rw [List.filter_filter]
    apply List.filter_congr
    intro m hm
    by_cases hk : key m = k
    · simp [hk, hl m hm]
    · simp [hk]
  have hc : recvd.filter (chan · = g k) = sent.filter (chan · = g k) := by simpa using h (g k)
  rw [← hsplit recvd hr, ← hsplit sent hs, hc]

/-- Nothing is received that was not sent. -/
theorem Flow.mem_sent {m : M} (h : Flow chan (fun _ => []) sent recvd q') (hm : m ∈ recvd) : m ∈ sent := by
  have hf : m ∈ recvd.filter (chan · = chan m) ++ q' (chan m) := by simp [hm]
  rw [h (chan m)] at hf
  simpa using hf

end Fifo
