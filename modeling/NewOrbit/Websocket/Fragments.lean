import NewOrbit.Websocket.Receive

/-!
# `Websocket.Fragments` — messages in more than one frame

Control frames may come between the frames of a message, and change nothing for it (`acceptAll_controls`). What is
handed on is a text only if nothing in it is ill-formed, but the end of a text is looked at only when the text was
sent in one frame (`text_received`).
-/

namespace NewOrbit.Websocket
open CString Octets Turns Utf8

/-- The frames of a message: only the last one has the bit, and those behind the first are continuations. -/
inductive Fragments : Opcode → List Frame → Prop
  | last {op : Opcode} {f : Frame} (hop : f.opcode = op) (hfin : f.fin = true) : Fragments op [f]
  | more {op : Opcode} {f : Frame} {fs : List Frame} (hop : f.opcode = op) (hfin : f.fin = false)
      (rest : Fragments .continuation fs) : Fragments op (f :: fs)

/-- The frames of messages that are not control messages. -/
def dataFrames (fs : List Frame) : List Frame := fs.filter (!·.opcode.isControl)

/-- The payloads, one behind the other. -/
def joined (fs : List Frame) : Bytes := fs.flatMap Frame.payload

/-- A frame as the side that reads it wants it. -/
structure Frame.Plain (server : Bool) (f : Frame) : Prop where
  rsv     : f.rsv1 = false ∧ f.rsv2 = false ∧ f.rsv3 = false
  opcode  : f.opcode.reserved = false
  masked  : f.key.isSome = server
  control : f.opcode.isControl = true → f.fin = true ∧ f.payload.length ≤ payloadSizeBasic

section Fragments
variable {server fresh : Bool} {max : Nat} {f : Frame} {fs : List Frame} {op : Opcode} {present : Bytes}
  {unfinished : Unfinished}

theorem dataFrames_control (hctl : f.opcode.isControl = true) : dataFrames (f :: fs) = dataFrames fs :=
  List.filter_cons_of_neg (by simp [hctl])

theorem dataFrames_data (hctl : f.opcode.isControl = false) : dataFrames (f :: fs) = f :: dataFrames fs :=
  List.filter_cons_of_pos (by simp [hctl])

theorem joined_cons (f : Frame) (fs : List Frame) : joined (f :: fs) = f.payload ++ joined fs := List.flatMap_cons

theorem joined_singleton (f : Frame) : joined [f] = f.payload := List.append_nil _

/-- Such a frame is refused only for being, or not being, a continuation. -/
theorem Frame.Plain.refused_eq (hf : f.Plain server) :
    f.refused server fresh = if ¬f.opcode.isControl ∧ (f.opcode = .continuation ↔ fresh) then some .invalid_continuation
      else none := by
  obtain ⟨hrsv1, hrsv2, hrsv3⟩ := hf.rsv
  have hsize : ¬(f.opcode.isControl = true ∧ payloadSizeBasic < f.payload.length) := fun h =>
    Nat.not_lt_of_le (hf.control h.1).2 h.2
  have hfragment : ¬(f.opcode.isControl = true ∧ ¬f.fin = true) := fun h => h.2 (hf.control h.1).1
  have hmasked := hf.masked
  rw [Frame.refused, if_neg hsize, hrsv1, hrsv2, hrsv3, if_neg (by simp), hf.opcode, if_neg Bool.false_ne_true,
    if_neg hfragment]
  split
  · rfl
  · cases server <;> cases hk : f.key <;> simp_all

/-- The message of a frame that is one. -/
def Frame.message (f : Frame) : Message := { Message.new f.opcode with payload := f.payload }

theorem accept_control (hf : f.Plain server) (hctl : f.opcode.isControl = true) :
    accept server max unfinished f = .ok (unfinished, some f.message) := by
  rw [accept, hf.refused_eq, if_neg (by simp [hctl])]
  dsimp only
  rw [if_pos hctl]
  rfl

/-- A frame that goes into a message leaves it unfinished, or completes it. -/
theorem Frame.extend_ok {done : Option Message} (h : f.extend op present = .ok (unfinished, done)) :
    f.fin = false ∧ unfinished = some (op, present ++ f.payload) ∧ done = none ∨
      unfinished = none ∧ done = some { Message.new op with payload := present ++ f.payload } := by
  rw [Frame.extend] at h
  dsimp only at h
  split at h
  · cases h
  split at h
  · rename_i hfin
    cases h
    exact .inl ⟨Bool.eq_false_iff.mpr hfin, rfl, rfl⟩
  split at h
  · cases h
  · cases h
    exact .inr ⟨rfl, rfl⟩

/-- Nothing but the message of a control frame is one. -/
theorem accept_data {done : Option Message} {unfinished' : Unfinished} (hctl : f.opcode.isControl = false)
    (hdata : ∀ u, unfinished = some u → u.1.isControl = false)
    (haccept : accept server max unfinished f = .ok (unfinished', done)) :
    (∀ u, unfinished' = some u → u.1.isControl = false) ∧ ∀ m ∈ done, m.opcode.isControl = false := by
  have hop : (unfinished.getD (f.opcode, [])).1.isControl = false := by
    cases unfinished with
    | none => exact hctl
    | some u => exact hdata u rfl
  rw [accept] at haccept
  split at haccept
  · cases haccept
  · rw [hctl, if_neg Bool.false_ne_true] at haccept
    dsimp only at haccept
    split at haccept
    · cases haccept
    · obtain ⟨_, rfl, rfl⟩ | ⟨rfl, rfl⟩ := Frame.extend_ok haccept
      · exact ⟨by rintro _ ⟨⟩; exact hop, by simp⟩
      · exact ⟨(fun _ h => by cases h), by rintro _ ⟨⟩; exact hop⟩

/-- **Control frames come between the frames of a message** and change nothing for it. -/
theorem acceptAll_controls (hplain : ∀ f ∈ fs, f.Plain server) (hdata : ∀ u, unfinished = some u → u.1.isControl = false) :
    (acceptAll server max unfinished fs).1.filter (!·.opcode.isControl) =
        (acceptAll server max unfinished (dataFrames fs)).1 ∧
      (acceptAll server max unfinished fs).2 = (acceptAll server max unfinished (dataFrames fs)).2 ∧
      (acceptAll server max unfinished fs).1.filter (·.opcode.isControl) <+:
        (fs.filter (·.opcode.isControl)).map Frame.message := by
  induction fs generalizing unfinished with
  | nil => exact ⟨rfl, rfl, List.prefix_refl _⟩
  | cons f fs ih =>
      have hf := hplain f (List.mem_cons_self ..)
      have hfs : ∀ g ∈ fs, g.Plain server := fun g hg => hplain g (List.mem_cons_of_mem _ hg)
      cases hctl : f.opcode.isControl with
      | true =>
          have hmsg : f.message.opcode.isControl = true := hctl
          obtain ⟨hmsgs, hend, hcontrols⟩ := ih hfs hdata
          rw [dataFrames_control hctl, List.filter_cons_of_pos (by simp [hctl]), acceptAll, accept_control hf hctl]
          dsimp only
          rw [Option.toList_some, List.singleton_append, List.filter_cons_of_neg (by simp [hmsg]),
            List.filter_cons_of_pos (p := fun m : Message => m.opcode.isControl) hmsg, List.map_cons]
          exact ⟨hmsgs, hend, (List.prefix_cons_inj _).mpr hcontrols⟩
      | false =>
          rw [dataFrames_data hctl, List.filter_cons_of_neg (by simp [hctl]), acceptAll, acceptAll]
          rcases haccept : accept server max unfinished f with ec | ⟨unfinished', done⟩
          · exact ⟨rfl, rfl, List.nil_prefix⟩
          · obtain ⟨hdata', hdone⟩ := accept_data hctl hdata haccept
            obtain ⟨hmsgs, hend, hcontrols⟩ := ih hfs hdata'
            dsimp only
            have hnone : done.toList.filter (·.opcode.isControl) = [] := by
              cases done with
              | none => rfl
              | some m => exact List.filter_cons_of_neg (by rw [hdone m rfl]; exact Bool.false_ne_true)
            have hall : done.toList.filter (!·.opcode.isControl) = done.toList := by
              cases done with
              | none => rfl
              | some m => exact List.filter_cons_of_pos (by rw [hdone m rfl]; rfl)
            rw [List.filter_append, List.filter_append, hnone, hall, hmsgs, hend, List.nil_append]
            exact ⟨rfl, rfl, hcontrols⟩

/-- A continuation of a text that is there so far. -/
theorem accept_continuation (hf : f.Plain server) (hop : f.opcode = .continuation)
    (hsize : present.length + f.payload.length ≤ max) (hmax : max < 2 ^ 64) :
    accept server max (some (op, present)) f = f.extend op present := by
  have hctl : f.opcode.isControl = false := by rw [hop]; rfl
  have hfits : (present.length + f.payload.length) % 2 ^ 64 = present.length + f.payload.length :=
    Nat.mod_eq_of_lt (Nat.lt_of_le_of_lt hsize hmax)
  rw [accept, hf.refused_eq, if_neg (by simp [hop])]
  dsimp only [Option.getD_some]
  rw [hctl, if_neg Bool.false_ne_true, if_neg (by omega)]

/-- The continuations of a text, up to the one that makes it ill-formed. -/
theorem acceptAll_continuations (hfs : Fragments .continuation fs) (hplain : ∀ f ∈ fs, f.Plain server)
    (hsize : present.length + (joined fs).length ≤ max) (hmax : max < 2 ^ 64) :
    acceptAll server max (some (.text, present)) fs =
      if Utf8.read start (present ++ joined fs) = none then ([], .error .invalid_utf8)
      else ([{ Message.new .text with payload := present ++ joined fs }], .ok none) := by
  generalize hcont : Opcode.continuation = op at hfs
  induction hfs generalizing present with
  | @last op f hop hfin =>
      subst hcont
      rw [joined_singleton] at hsize ⊢
      have hntext : ¬(f.opcode = .text ∧ Utf8.read start (present ++ f.payload) ≠ some start) := fun h => by
        rw [hop] at h
        cases h.1
      rw [acceptAll, accept_continuation (hplain f (List.mem_cons_self ..)) hop hsize hmax, Frame.extend]
      dsimp only
      by_cases hbad : Utf8.read start (present ++ f.payload) = none
      · rw [if_pos ⟨rfl, hbad⟩, if_pos hbad]
      · rw [if_neg (fun h => hbad h.2), if_neg (not_not.mpr hfin), if_neg hntext, if_neg hbad]
        rfl
  | @more op f fs hop hfin rest ih =>
      subst hcont
      rw [joined_cons, List.length_append] at hsize
      have hsize' : (present ++ f.payload).length + (joined fs).length ≤ max := by
        rw [List.length_append]
        omega
      have hmore := ih (fun g hg => hplain g (List.mem_cons_of_mem _ hg)) hsize' rfl
      rw [acceptAll, accept_continuation (hplain f (List.mem_cons_self ..)) hop (by omega) hmax, Frame.extend,
        joined_cons, ← List.append_assoc]
      dsimp only
      by_cases hbad : Utf8.read start (present ++ f.payload) = none
      · rw [if_pos ⟨rfl, hbad⟩, if_pos (by rw [read_append, hbad, Option.bind_none])]
      · rw [if_neg (fun h => hbad h.2), if_pos (by rw [hfin]; exact Bool.false_ne_true)]
        dsimp only
        rw [hmore]
        split <;> rfl

/-- The frames of a text: one frame is looked at to its end, more are not. -/
theorem acceptAll_text (hfs : Fragments .text fs) (hplain : ∀ f ∈ fs, f.Plain server)
    (hsize : (joined fs).length ≤ max) (hmax : max < 2 ^ 64) :
    acceptAll server max none fs =
      if Utf8.read start (joined fs) = none ∨
          fs.length = 1 ∧ Utf8.read start (joined fs) ≠ some start then ([], .error .invalid_utf8)
      else ([{ Message.new .text with payload := joined fs }], .ok none) := by
  -- The first frame of a text.
  have hfirst : ∀ f : Frame, f.Plain server → f.opcode = .text → f.payload.length ≤ max →
      accept server max none f = f.extend .text [] := by
    intro f hf hop hle
    have hfits : (([] : Bytes).length + f.payload.length) % 2 ^ 64 = f.payload.length := by
      rw [List.length_nil, Nat.zero_add]
      exact Nat.mod_eq_of_lt f.fits
    have hctl : f.opcode.isControl = false := by rw [hop]; rfl
    rw [accept, hf.refused_eq, if_neg (by simp [hop])]
    dsimp only [Option.getD_none]
    rw [hctl, if_neg Bool.false_ne_true, if_neg (by rw [hfits]; omega), hop]
  cases hfs with
  | last hop hfin =>
      rename_i f
      rw [joined_singleton] at hsize ⊢
      rw [acceptAll, hfirst f (hplain f (List.mem_cons_self ..)) hop hsize, Frame.extend]
      simp only [List.nil_append, true_and, hop, List.length_singleton, hfin, not_true_eq_false, if_false]
      by_cases hnone : Utf8.read start f.payload = none
      · rw [if_pos hnone, if_pos (.inl hnone)]
      · rw [if_neg hnone]
        by_cases hend : Utf8.read start f.payload ≠ some start
        · rw [if_pos hend, if_pos (.inr hend)]
        · rw [if_neg hend, if_neg (not_or.mpr ⟨hnone, hend⟩)]
          rfl
  | more hop hfin rest =>
      rename_i f fs
      have hpos : fs ≠ [] := by
        rintro rfl
        cases rest
      have hlen : (f :: fs).length ≠ 1 := fun h => hpos (List.length_eq_zero_iff.mp (Nat.succ.inj h))
      rw [joined_cons, List.length_append] at hsize
      have hmore := acceptAll_continuations rest
        (fun g hg => hplain g (List.mem_cons_of_mem _ hg)) hsize hmax
      rw [acceptAll, hfirst f (hplain f (List.mem_cons_self ..)) hop (by omega), Frame.extend, joined_cons]
      simp only [List.nil_append, true_and, hfin, Bool.false_eq_true, not_false_eq_true, if_true, hlen, false_and,
        or_false]
      by_cases hbad : Utf8.read start f.payload = none
      · rw [if_pos hbad, if_pos (by rw [read_append, hbad, Option.bind_none])]
      · rw [if_neg hbad]
        dsimp only
        rw [hmore]
        split <;> rfl

end Fragments

/-- **When a text is handed on.** The frames of a text come with control frames between them, cut into reads anyhow.
    The text is handed on, once and with all that its frames hold, unless an octet of it cannot follow those before;
    that it ends with a character is asked only of a text in one frame. -/
theorem text_received (server little : Bool) (max : Nat) (hmax : max < 2 ^ 64) (fs : List Frame)
    (hplain : ∀ f ∈ fs, f.Plain server) (hfs : Fragments .text (dataFrames fs))
    (hsize : (joined (dataFrames fs)).length ≤ max) (pieces : List Bytes)
    (hpieces : pieces.flatten = fs.flatMap (·.octets little)) :
    ((Hybi13.init server little max).readPieces pieces).1.filter (!·.opcode.isControl) =
      if Utf8.read start (joined (dataFrames fs)) = none ∨
          (dataFrames fs).length = 1 ∧ ¬WellFormed (joined (dataFrames fs)) then []
      else [{ Message.new .text with payload := joined (dataFrames fs) }] := by
  have hplain' : ∀ f ∈ dataFrames fs, f.Plain server := fun f hf => hplain f (List.mem_filter.mp hf).1
  have hiff : Utf8.read start (joined (dataFrames fs)) = none ∨
        (dataFrames fs).length = 1 ∧ Utf8.read start (joined (dataFrames fs)) ≠ some start ↔
      Utf8.read start (joined (dataFrames fs)) = none ∨
        (dataFrames fs).length = 1 ∧ ¬WellFormed (joined (dataFrames fs)) := by rw [wellFormed_iff]
  have hi := Hybi13.idle_init server little max
  obtain ⟨r, hrun, _⟩ := Hybi13.runs_frames_init server little max fs
  have hpiece := Hybi13.runs_readPieces hi.sound hi.waits pieces
  rw [hpieces] at hpiece
  rw [(hpiece.det hrun).1, (acceptAll_controls hplain (fun _ h => by cases h)).1,
    acceptAll_text hfs hplain' hsize hmax]
  by_cases hbad : Utf8.read start (joined (dataFrames fs)) = none ∨
      (dataFrames fs).length = 1 ∧ Utf8.read start (joined (dataFrames fs)) ≠ some start
  · rw [if_pos hbad, if_pos (hiff.mp hbad)]
  · rw [if_neg hbad, if_neg (mt hiff.mpr hbad)]

/-- A character of three octets, of which the last one is missing, in two frames and with a ping between them. -/
def halfACharacter : List Frame :=
  [⟨false, false, false, false, .text, none, [0xE2], by decide⟩, ⟨true, false, false, false, .ping, none, [], by decide⟩,
    ⟨true, false, false, false, .continuation, none, [0x82], by decide⟩]

theorem text_received_half :
    ((Hybi13.init false true 100).readPieces [halfACharacter.flatMap (·.octets true)]).1.filter (!·.opcode.isControl) =
      [{ Message.new .text with payload := [0xE2, 0x82] }] := by
  have hplain : ∀ f ∈ halfACharacter, f.Plain false := by
    intro f hf
    simp only [halfACharacter, List.mem_cons, List.not_mem_nil, or_false] at hf
    obtain rfl | rfl | rfl := hf <;> exact ⟨by decide, rfl, rfl, by decide⟩
  have hdata : dataFrames halfACharacter = [⟨false, false, false, false, .text, none, [0xE2], by decide⟩,
      ⟨true, false, false, false, .continuation, none, [0x82], by decide⟩] := rfl
  have hfs : Fragments .text (dataFrames halfACharacter) := hdata ▸ .more rfl rfl (.last rfl rfl)
  exact (text_received false true 100 (by decide) halfACharacter hplain hfs (by decide) _ (List.append_nil _)).trans
    (by decide)

end NewOrbit.Websocket
