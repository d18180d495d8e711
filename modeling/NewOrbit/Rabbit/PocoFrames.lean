import NewOrbit.Rabbit.PocoLoop

/-!
# `Rabbit.PocoFrames` — the frames that reach the connection

The connection consumes the complete frames at the front of the buffer it is given (`takeFrame`: envelope and
payload are there), so a frame is handed over in the round in which its last byte arrives. As long as every
arrival fits, the loop reads the stream in pieces, and the pieces do not matter (`frames_eq`): two ways of cutting
one stream hand over the same frames and leave the same bytes (`frames_of_cut`).
-/

namespace NewOrbit.Rabbit
open CString Framing

/-! ## Frames in their envelope -/

/-- The payload length in the header of the frame at the front: bytes 4 to 7, the highest first. -/
def payloadLength (bs : Bytes) : Nat := ofBe ((bs.drop 3).take 4)

/-- The frame at the front, once the 8 bytes of its envelope and its payload are there. -/
def takeFrame (bs : Bytes) : Option (Bytes × Bytes) :=
  let size := 8 + payloadLength bs
  if size ≤ bs.length then some (bs.take size, bs.drop size) else none

theorem payloadLength_append {bs : Bytes} (h : 7 ≤ bs.length) (more : Bytes) :
    payloadLength (bs ++ more) = payloadLength bs := by
  have hlen : 4 ≤ (bs.drop 3).length := by
    rw [List.length_drop]
    omega
  unfold payloadLength
  rw [List.drop_append_of_le_length (by omega), List.take_append_of_le_length hlen]

theorem takeFrame_eq_some_iff {bs f rest : Bytes} :
    takeFrame bs = some (f, rest) ↔ bs = f ++ rest ∧ f.length = 8 + payloadLength f := by
  unfold takeFrame
  dsimp only
  constructor
  · intro h
    split at h
    · rename_i hlen
      obtain ⟨rfl, rfl⟩ := Prod.mk.inj (Option.some.inj h)
      have hbs := List.take_append_drop (8 + payloadLength bs) bs
      refine ⟨hbs.symm, ?_⟩
      have hsize : (bs.take (8 + payloadLength bs)).length = 8 + payloadLength bs := by
        rw [List.length_take]
        omega
      have hpayload : payloadLength bs = payloadLength (bs.take (8 + payloadLength bs)) := by
        have happend := payloadLength_append (show 7 ≤ (bs.take (8 + payloadLength bs)).length by omega)
          (bs.drop (8 + payloadLength bs))
        rwa [hbs] at happend
      rw [hsize, ← hpayload]
    · cases h
  · rintro ⟨rfl, hsize⟩
    rw [payloadLength_append (by omega), ← hsize, if_pos (by rw [List.length_append]; omega), List.take_left,
      List.drop_left]

/-- A whole frame and nothing else. -/
def IsFrame (f : Bytes) : Prop := f.length = 8 + payloadLength f

/-- Frames in their envelope are a code, each frame being its own encoding. -/
theorem frameCode : Code (fun f : Bytes => f) takeFrame IsFrame where
  dec_enc f hf rest := takeFrame_eq_some_iff.mpr ⟨rfl, hf⟩
  dec_append bs f rest h more := by
    obtain ⟨rfl, hf⟩ := takeFrame_eq_some_iff.mp h
    exact takeFrame_eq_some_iff.mpr ⟨List.append_assoc _ _ _, hf⟩
  dec_shorter bs f rest h := by
    obtain ⟨rfl, hf⟩ := takeFrame_eq_some_iff.mp h
    rw [List.length_append]
    omega

/-- The complete frames at the front of the stream. -/
def frames (bs : Bytes) : List Bytes := split takeFrame bs

/-- What is left behind them. -/
def leftover (bs : Bytes) : Bytes := rest takeFrame bs

theorem flatten_frames_append (bs : Bytes) : (frames bs).flatten ++ leftover bs = bs := by
  have h := frameCode.flatMap_split_append_rest (fun bs f rest h => (takeFrame_eq_some_iff.mp h).1) bs
  rwa [List.flatMap_id'] at h

theorem take_frames (bs : Bytes) : bs.take (frames bs).flatten.length = (frames bs).flatten :=
  (List.prefix_iff_eq_take.mp ⟨leftover bs, flatten_frames_append bs⟩).symm

theorem drop_frames (bs : Bytes) : bs.drop (frames bs).flatten.length = leftover bs := by
  have h := List.take_append_drop (frames bs).flatten.length bs
  rw [take_frames] at h
  exact List.append_cancel_left (h.trans (flatten_frames_append bs).symm)

/-- Whole frames are told apart again. -/
theorem frames_flatten_frames (bs : Bytes) : frames (frames bs).flatten = frames bs := by
  have hframes := frameCode.forall_mem_split (fun bs f rest h => (takeFrame_eq_some_iff.mp h).2) bs
  have h := frameCode.split_flatMap hframes
  rwa [List.flatMap_id'] at h

/-! ## Reading in pieces -/

namespace Poco

/-- What a round finds: a connection, an arrival that fits, and a `parse` that consumes the complete frames at the
    front of what it is given. -/
def Fair (s : Poco) : Action → Prop
  | .call _                  => True
  | .round ⟨arrival, none⟩   => s.connection = true ∧ arrival.length ≤ s.inputBuffer.free
  | .round ⟨arrival, some p⟩ => s.connection = true ∧ arrival.length ≤ s.inputBuffer.free ∧
      p.count = (frames (s.receive arrival).inputBuffer.data).flatten.length

instance (s : Poco) : (a : Action) → Decidable (s.Fair a)
  | .call _             => inferInstanceAs (Decidable True)
  | .round ⟨_, none⟩   => inferInstanceAs (Decidable (_ ∧ _))
  | .round ⟨_, some _⟩ => inferInstanceAs (Decidable (_ ∧ _ ∧ _))

/-- The frames handed to the connection so far: in each call of `parse`, those it consumed. -/
def handed (s : Poco) : List Bytes := s.consumed.flatMap frames

/-- What is kept of a run: the frames of what was received are handed over, and the input buffer has what is left
    behind them. -/
structure Reads (received : Bytes) (s : Poco) : Prop where
  handed : s.handed = frames received
  left   : s.inputBuffer.data = leftover received

/-- What the connection is given in a round, when the arrival fits. -/
theorem Reads.incoming {received arrival : Bytes} {s : Poco} (h : Reads received s)
    (hfits : arrival.length ≤ s.inputBuffer.free) : s.incoming arrival = leftover received ++ arrival := by
  rw [Poco.incoming, h.left, List.take_of_length_le hfits]

/-- **A step reads on.** -/
theorem Reads.step {received : Bytes} {s t : Poco} {a : Action} (h : Reads received s) (hfair : s.Fair a)
    (hstep : step s a = some t) : Reads (received ++ a.arrival) t := by
  rcases step_cases hstep with ⟨c, rfl, rfl⟩ | ⟨arrival, p, rfl, -, -, b, u, rfl, hb, rfl⟩ | ⟨arrival, rfl, hidle, rfl⟩
  · obtain ⟨hbuffer, hconsumed, -⟩ := s.callback_input c
    have hreceived : received ++ (Action.call c).arrival = received := List.append_nil _
    rw [hreceived]
    exact ⟨by rw [Poco.handed, hconsumed]; exact h.handed, by rw [hbuffer]; exact h.left⟩
  · obtain ⟨-, hfits, hparses⟩ := hfair
    rw [data_receive] at hparses
    have hincoming := h.incoming hfits
    refine ⟨?_, ?_⟩
    · show (s.consumed ++ [(s.incoming arrival).take p.count]).flatMap frames = frames (received ++ arrival)
      have hhanded : s.consumed.flatMap frames = frames received := h.handed
      rw [hparses, take_frames, List.flatMap_append, List.flatMap_singleton, frames_flatten_frames, hhanded, hincoming]
      exact (frameCode.split_append received arrival).symm
    · show b.data = leftover (received ++ arrival)
      rw [hb, hparses, drop_frames, hincoming]
      exact (frameCode.rest_append received arrival).symm
  · -- With a connection there, nothing is left to parse: nothing was left before, and nothing arrived.
    obtain ⟨hconn, hfits⟩ := hfair
    have hnone : leftover received ++ arrival = [] := (h.incoming hfits).symm.trans (hidle hconn)
    obtain ⟨hleft, rfl⟩ := List.append_eq_nil_iff.mp hnone
    have hreceived : received ++ (Action.round ⟨[], none⟩).arrival = received := List.append_nil _
    rw [hreceived]
    exact ⟨h.handed, h.left⟩

/-- **What a run hands over**: the frames of what was received, whatever the pieces. -/
theorem exec_reads {tr : List Action} {t : Poco} (h : Machine.exec Poco.step tr init = some t)
    (hfair : Machine.Each Poco.step Fair tr init) : Reads (tr.flatMap Action.arrival) t := by
  refine Machine.exec_trace_each (I := fun tr t => Reads (tr.flatMap Action.arrival) t) ⟨rfl, rfl⟩
    (fun tr t a u _ ih hP ha => ?_) h hfair
  rw [List.flatMap_append, List.flatMap_singleton]
  exact ih.step hP ha

/-- The assertion in `shl` holds in every run, whatever `parse` does. -/
theorem exec_not_aborted {tr : List Action} {t : Poco} (h : Machine.exec Poco.step tr init = some t) :
    t.aborted = false := by
  refine Machine.exec_invariant (I := fun s => s.aborted = false) (fun t a u ht ha => ?_) rfl h
  rcases step_cases ha with ⟨c, rfl, rfl⟩ | ⟨arrival, p, rfl, -, -, b, v, rfl, -, rfl⟩ | ⟨arrival, rfl, -, rfl⟩
  · exact (t.callback_input c).2.2.trans ht
  · show (p.callbacks.foldl callback (t.receive arrival)).aborted = false
    rw [((t.receive arrival).callbacks_input p.callbacks).2.2, aborted_receive]
    exact ht
  · rw [aborted_sendDataFromBuffer, aborted_receive]
    exact ht

/-- **The cut does not matter.** Two runs that receive one stream, in arrivals that fit, hand the connection the same
    frames and end with the same bytes in the input buffer; and in no run does the assertion in `shl` fail. -/
theorem frames_of_cut (tr₁ tr₂ : List Action) (t₁ t₂ : Poco) (h₁ : Machine.exec Poco.step tr₁ init = some t₁)
    (h₂ : Machine.exec Poco.step tr₂ init = some t₂) (hfair₁ : Machine.Each Poco.step Fair tr₁ init)
    (hfair₂ : Machine.Each Poco.step Fair tr₂ init)
    (hstream : tr₁.flatMap Action.arrival = tr₂.flatMap Action.arrival) :
    t₁.handed = t₂.handed ∧ t₁.inputBuffer.data = t₂.inputBuffer.data ∧
      ∀ (tr : List Action) (t : Poco), Machine.exec Poco.step tr init = some t → t.aborted = false := by
  have hreads₁ := exec_reads h₁ hfair₁
  have hreads₂ := exec_reads h₂ hfair₂
  rw [hstream] at hreads₁
  exact ⟨hreads₁.handed.trans hreads₂.handed.symm, hreads₁.left.trans hreads₂.left.symm,
    fun tr t h => exec_not_aborted h⟩

/-- A frame with one byte of payload and the first byte of the next frame, at once. -/
def atOnce : List Action := [.call (.onData [65]), .round ⟨[1, 0, 1, 0, 0, 0, 1, 66, 206, 1], some ⟨9, []⟩⟩]

/-- The same bytes, cut inside the length of the payload. -/
def inPieces : List Action :=
  [.call (.onData [65]), .round ⟨[1, 0, 1, 0], some ⟨0, []⟩⟩, .round ⟨[0, 0, 1, 66, 206, 1], some ⟨9, []⟩⟩]

theorem frames_of_cut_one :
    ((Machine.exec Poco.step atOnce init).get (by decide +kernel)).handed
      = ((Machine.exec Poco.step inPieces init).get (by decide +kernel)).handed :=
  (frames_of_cut atOnce inPieces _ _ (Option.some_get _).symm (Option.some_get _).symm (by decide +kernel)
    (by decide +kernel) rfl).1

end Poco

end NewOrbit.Rabbit
