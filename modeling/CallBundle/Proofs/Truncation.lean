import Mathlib
import CallBundle.Proofs.Script

/-!
Where the bytes of a script stop making sense. Frames are read as long as they are complete, and
what is missing from the next one says how reading fails. Main statement:
`ofBytes_breaks_behind_frames`.
-/

namespace CallBundle

namespace Script

/-- The length that a frame at an offset declares for its data. -/
def declaredLength (bytes : Bytes) (offset : Nat) : Nat :=
  Bytes.toNat ((bytes.drop (offset + 20)).take 4)

/-- Where complete frames end that stand one behind the other from the header on. -/
inductive FrameEnd (bytes : Bytes) : Nat → Prop
  | header : FrameEnd bytes 4
  | frame {c : Nat} : FrameEnd bytes c → c + 24 + declaredLength bytes c ≤ bytes.length →
      FrameEnd bytes (c + 24 + declaredLength bytes c)

/-- What is missing from a frame at an offset that is not complete. -/
def shortage (bytes : Bytes) (c : Nat) : ScriptFault :=
  if bytes.length < c + 20 then .truncatedAddress c
  else if bytes.length < c + 24 then .truncatedLength (c + 20)
  else .truncatedPayload (declaredLength bytes c) (c + 24)

variable {bytes : Bytes} {c : Nat}

theorem FrameEnd.le_length (h : FrameEnd bytes c) (hheader : 4 ≤ bytes.length) :
    c ≤ bytes.length := by
  cases h with
  | header => exact hheader
  | frame _ hle => exact hle

theorem exists_frame_of_le (h : c + 24 + declaredLength bytes c ≤ bytes.length) :
    ∃ frame : Frame, frame.Fits ∧ frame.data.length = declaredLength bytes c ∧
      bytes.drop c = frame.bytes ++ bytes.drop (c + 24 + declaredLength bytes c) := by
  have htarget : ((bytes.drop c).take 20).length = 20 := by
    rw [List.length_take, List.length_drop]
    omega
  have hfield : ¬ (((bytes.drop c).drop 20).take 4).length < 4 := by
    rw [List.length_take, List.length_drop, List.length_drop]
    omega
  have hlength : declaredLength bytes c = Bytes.toNat (((bytes.drop c).drop 20).take 4) := by
    rw [declaredLength, List.drop_drop]
  have hdata : (((bytes.drop c).drop 24).take (declaredLength bytes c)).length =
      declaredLength bytes c := by
    rw [List.length_take, List.length_drop, List.length_drop]
    omega
  obtain ⟨hfits, hbytes⟩ :=
    Frame.fits_and_eq_bytes_append htarget hfield hlength (Nat.not_lt.mpr hdata.ge)
  have hrest : (bytes.drop c).drop (24 + declaredLength bytes c) =
      bytes.drop (c + 24 + declaredLength bytes c) := by
    rw [List.drop_drop, Nat.add_assoc]
  rw [hrest] at hbytes
  exact ⟨_, hfits, hdata, hbytes⟩

/-- Frames up to an end are the bytes of frames. -/
theorem FrameEnd.exists_frames (h : FrameEnd bytes c) :
    ∃ frames, (∀ frame ∈ frames, frame.Fits) ∧ c = 4 + (framesBytes frames).length ∧
      bytes.drop 4 = framesBytes frames ++ bytes.drop c := by
  induction h with
  | header => exact ⟨[], nofun, rfl, rfl⟩
  | @frame c _ hle ih =>
    obtain ⟨frames, hfits, hc, hbytes⟩ := ih
    obtain ⟨frame, hframe, hlength, hrest⟩ := exists_frame_of_le hle
    have hconcat : framesBytes (frames ++ [frame]) = framesBytes frames ++ frame.bytes := by
      rw [framesBytes_append, framesBytes_cons]
      exact congrArg (framesBytes frames ++ ·) (List.append_nil frame.bytes)
    refine ⟨frames ++ [frame], ?_, ?_, ?_⟩
    · rw [List.forall_mem_append, List.forall_mem_singleton]
      exact ⟨hfits, hframe⟩
    · rw [hconcat, List.length_append, Frame.length_bytes]
      omega
    · rw [hconcat, List.append_assoc, ← hrest]
      exact hbytes

/-- Reading gets to each end of a frame and goes on from there. -/
theorem FrameEnd.exists_ofBytes (h : FrameEnd bytes c) (hheader : 4 ≤ bytes.length) :
    ∃ frames, ofBytes bytes = do
      let more ← readFrames c (bytes.drop c)
      return ⟨UInt32.ofNat (Bytes.toNat (bytes.take 4)), frames ++ more⟩ := by
  obtain ⟨frames, hfits, hc, hbytes⟩ := h.exists_frames
  refine ⟨frames, ?_⟩
  rw [ofBytes, if_neg (Nat.not_lt.mpr hheader), hbytes, readFrames_framesBytes_append hfits, ← hc,
    bind_assoc]
  simp only [pure_bind]

theorem readFrames_of_incomplete (hc : c < bytes.length)
    (h : bytes.length < c + 24 + declaredLength bytes c) :
    readFrames c (bytes.drop c) = .error (.malformedScript (shortage bytes c)) := by
  have hne : bytes.drop c ≠ [] := by
    rw [Ne, List.drop_eq_nil_iff]
    omega
  rw [readFrames, if_neg hne, shortage]
  by_cases haddress : bytes.length < c + 20
  · rw [if_pos haddress, dif_neg]
    rw [List.length_take, List.length_drop]
    omega
  · rw [if_neg haddress, dif_pos (by rw [List.length_take, List.length_drop]; omega)]
    simp only [List.drop_drop, List.length_take, List.length_drop]
    by_cases hlength : bytes.length < c + 24
    · rw [if_pos hlength, if_pos (by omega)]
    · rw [if_neg hlength, if_neg (by omega)]
      exact if_pos (by rw [← declaredLength]; omega)

theorem exists_isGreatest_frameEnd (hheader : 4 ≤ bytes.length) :
    ∃ c, IsGreatest {c | FrameEnd bytes c} c := by
  have hbounded : BddAbove {c | FrameEnd bytes c} :=
    ⟨bytes.length, fun c hc => FrameEnd.le_length hc hheader⟩
  exact ⟨_, Nat.sSup_mem ⟨4, .header⟩ hbounded, fun c hc => le_csSup hbounded hc⟩

/-- Where the longest run of complete frames ends, there is no other one. -/
theorem length_lt_of_isGreatest (h : IsGreatest {c | FrameEnd bytes c} c) :
    bytes.length < c + 24 + declaredLength bytes c := by
  refine Nat.lt_of_not_le fun hle => ?_
  have hmore := h.2 (FrameEnd.frame h.1 hle)
  omega

/-- Reading breaks at the end of the last complete frame, unless that is the end of the bytes. -/
theorem ofBytes_of_isGreatest (hheader : 4 ≤ bytes.length)
    (h : IsGreatest {c | FrameEnd bytes c} c) :
    (c = bytes.length ∧ ∃ script, ofBytes bytes = .ok script) ∨
      c < bytes.length ∧ ofBytes bytes = .error (.malformedScript (shortage bytes c)) := by
  obtain ⟨frames, hread⟩ := FrameEnd.exists_ofBytes h.1 hheader
  obtain hc | hc := (FrameEnd.le_length h.1 hheader).eq_or_lt
  · refine .inl ⟨hc, ?_⟩
    rw [hread, List.drop_eq_nil_of_le hc.ge, readFrames_nil]
    exact ⟨_, rfl⟩
  · refine .inr ⟨hc, ?_⟩
    rw [hread, readFrames_of_incomplete hc (length_lt_of_isGreatest h)]
    rfl

theorem specId_eq_of_ofNat_eq {specId specId' : UInt32}
    (h : Bytes.ofNat 4 specId.toNat = Bytes.ofNat 4 specId'.toNat) : specId = specId' := by
  have hnumber := congrArg Bytes.toNat h
  rw [Bytes.toNat_ofNat_of_lt specId.toNat_lt, Bytes.toNat_ofNat_of_lt specId'.toNat_lt] at hnumber
  exact UInt32.toNat_inj.mp hnumber

/-- Frames whose bytes the bytes of others start with are the first of these. -/
theorem isPrefix_of_framesBytes_append {frames frames' : List Frame} {rest : Bytes}
    (hfits : ∀ frame ∈ frames, frame.Fits) (hfits' : ∀ frame ∈ frames', frame.Fits)
    (h : framesBytes frames ++ rest = framesBytes frames') : frames <+: frames' := by
  have hread : readFrames 0 (framesBytes frames ++ rest) = .ok frames' :=
    readFrames_eq_ok_iff.mpr ⟨hfits', h⟩
  rw [readFrames_framesBytes_append hfits] at hread
  obtain ⟨more, -, hmore⟩ := bind_eq_ok.mp hread
  exact ⟨more, Except.ok.inj hmore⟩

/-- Of the bytes of a script, those parts are read that end where a frame does. -/
theorem ofBytes_take_eq_ok_iff {script part : Script} {k : Nat} (h : script.toBytes = .ok bytes)
    (hk : k ≤ bytes.length) :
    ofBytes (bytes.take k) = .ok part ↔
      part.specId = script.specId ∧ part.frames <+: script.frames ∧
        k = 4 + (framesBytes part.frames).length := by
  obtain ⟨hfits, hbytes⟩ := toBytes_eq_ok_iff.mp h
  have hfour := fun specId : UInt32 => Bytes.length_ofNat 4 specId.toNat
  rw [ofBytes_eq_ok_iff, toBytes_eq_ok_iff]
  constructor
  · rintro ⟨hpart, htake⟩
    have hsplit : Bytes.ofNat 4 part.specId.toNat ++ (framesBytes part.frames ++ bytes.drop k) =
        Bytes.ofNat 4 script.specId.toNat ++ framesBytes script.frames := by
      rw [← List.append_assoc, ← htake, List.take_append_drop, hbytes]
    obtain ⟨hspecId, hframes⟩ := List.append_inj hsplit (by rw [hfour, hfour])
    refine ⟨specId_eq_of_ofNat_eq hspecId, isPrefix_of_framesBytes_append hpart hfits hframes, ?_⟩
    have hlength := congrArg List.length htake
    rwa [List.length_take_of_le hk, List.length_append, hfour] at hlength
  · rintro ⟨hspecId, ⟨more, hmore⟩, rfl⟩
    constructor
    · intro frame hframe
      exact hfits frame (hmore ▸ List.mem_append_left _ hframe)
    · rw [hbytes, ← hmore, framesBytes_append, hspecId, ← List.append_assoc]
      exact List.take_left' (by rw [List.length_append, hfour])

theorem ofBytes_take_ofActions_eq_ok_iff {specId : UInt32} {actions : List Action} {script : Script}
    {k : Nat} (h : (ofActions specId actions).toBytes = .ok bytes) (hk : k ≤ bytes.length) :
    ofBytes (bytes.take k) = .ok script ↔
      ∃ j ≤ actions.length,
        k = 4 + ((actions.take j).map fun action => 24 + action.data.length).sum ∧
          script = ofActions specId (actions.take j) := by
  have hlength : ∀ j, (framesBytes ((actions.take j).map .ofAction)).length =
      ((actions.take j).map fun action => 24 + action.data.length).sum := by
    intro j
    rw [length_framesBytes, List.map_map]
    rfl
  rw [ofBytes_take_eq_ok_iff h hk]
  constructor
  · rintro ⟨hspecId, hframes, hend⟩
    have htake : script.frames = (actions.take script.frames.length).map .ofAction := by
      rw [List.map_take]
      exact List.prefix_iff_eq_take.mp hframes
    refine ⟨script.frames.length, ?_, ?_, ?_⟩
    · exact hframes.length_le.trans_eq (List.length_map _)
    · rw [← hlength, ← htake]
      exact hend
    · have hspecId : script.specId = specId := hspecId
      rw [ofActions, ← htake, ← hspecId]
  · rintro ⟨j, -, hend, rfl⟩
    exact ⟨rfl, (List.take_prefix j actions).map _, hend.trans (congrArg (4 + ·) (hlength j).symm)⟩

/-- Reading fails with the fault, for the reason given. -/
def Reports (bytes : Bytes) (fault : ScriptFault) (reason : String) : Prop :=
  ofBytes bytes = .error (.malformedScript fault) ∧ fault.message = reason

/-- How reading ends where no complete frame is left, by what is left instead. -/
structure BreaksAt (bytes : Bytes) (c : Nat) : Prop where
  succeeds_iff : (∃ script, ofBytes bytes = .ok script) ↔ c = bytes.length
  address : c < bytes.length → bytes.length < c + 20 →
    Reports bytes (.truncatedAddress c) s!"truncated address at offset {c}"
  length : c + 20 ≤ bytes.length → bytes.length < c + 24 →
    Reports bytes (.truncatedLength (c + 20)) s!"truncated length at offset {c + 20}"
  payload : c + 24 ≤ bytes.length →
    bytes.length < c + 24 + declaredLength bytes c ∧
      Reports bytes (.truncatedPayload (declaredLength bytes c) (c + 24))
        s!"payload of {declaredLength bytes c} bytes at offset {c + 24} runs past end of script"

theorem breaksAt_of_isGreatest (hheader : 4 ≤ bytes.length)
    (h : IsGreatest {c | FrameEnd bytes c} c) : BreaksAt bytes c := by
  have hlt := length_lt_of_isGreatest h
  obtain ⟨hend, hread⟩ | ⟨hleft, herror⟩ := ofBytes_of_isGreatest hheader h
  · exact
      { succeeds_iff := iff_of_true hread hend
        address := by omega
        length := by omega
        payload := by omega }
  · rw [shortage] at herror
    have hnot : ¬ ∃ script, ofBytes bytes = .ok script := by
      rintro ⟨script, hscript⟩
      cases hscript.symm.trans herror
    refine ⟨iff_of_false hnot hleft.ne, fun _ haddress => ?_, fun hle hlength => ?_,
      fun hle => ⟨hlt, ?_⟩⟩
    · rw [if_pos haddress] at herror
      exact ⟨herror, rfl⟩
    · rw [if_neg (by omega), if_pos hlength] at herror
      exact ⟨herror, rfl⟩
    · rw [if_neg (by omega), if_neg (by omega)] at herror
      exact ⟨herror, rfl⟩

/-- Bytes are read up to the end of the last frame that is complete. Reading succeeds if nothing is
left there, and otherwise says which part of the next frame is cut off and at which offset. So the
bytes of a script may be cut where a frame ends, and nowhere else. -/
theorem ofBytes_breaks_behind_frames :
    (∀ bytes, bytes.length < 4 →
      Reports bytes (.noHeader bytes.length)
        s!"script of {bytes.length} bytes is shorter than the spec id header") ∧
    (∀ bytes, 4 ≤ bytes.length →
      ∃ c, IsGreatest {c | FrameEnd bytes c} c ∧ BreaksAt bytes c) ∧
    ∀ specId actions bytes k script, (ofActions specId actions).toBytes = .ok bytes →
      k ≤ bytes.length →
        (ofBytes (bytes.take k) = .ok script ↔
          ∃ j ≤ actions.length,
            k = 4 + ((actions.take j).map fun action => 24 + action.data.length).sum ∧
              script = ofActions specId (actions.take j)) := by
  refine ⟨?_, ?_, ?_⟩
  · intro bytes hlength
    exact ⟨if_pos hlength, rfl⟩
  · intro bytes hheader
    obtain ⟨c, hc⟩ := exists_isGreatest_frameEnd hheader
    exact ⟨c, hc, breaksAt_of_isGreatest hheader hc⟩
  · intro specId actions bytes k script hbytes hk
    exact ofBytes_take_ofActions_eq_ok_iff hbytes hk

theorem ofBytes_breaks_behind_frames_cut :
    let actions : List Action := [⟨.zero, [1, 2, 3], 0⟩, ⟨.zero, Bytes.zeros 24, 0⟩]
    Reports [0, 0] (.noHeader 2) "script of 2 bytes is shorter than the spec id header" ∧
      (∃ c, IsGreatest {c | FrameEnd [0, 0, 0, 1, 9] c} c ∧ BreaksAt [0, 0, 0, 1, 9] c) ∧
      ∃ bytes, (ofActions 1 actions).toBytes = .ok bytes ∧ bytes.length = 79 ∧
        ofBytes (bytes.take 31) = .ok (ofActions 1 (actions.take 1)) ∧
        ¬ ∃ script, ofBytes (bytes.take 55) = .ok script := by
  intro actions
  obtain ⟨hshort, hbreaks, hcut⟩ := ofBytes_breaks_behind_frames
  refine ⟨hshort [0, 0] (by decide), hbreaks [0, 0, 0, 1, 9] (by decide), ?_⟩
  have hfits : (ofActions 1 actions).Fits := fits_ofActions (by decide)
  obtain ⟨bytes, hbytes⟩ := hfits.exists_toBytes
  have hlength : bytes.length = 79 := by
    rw [(toBytes_eq_ok_iff.mp hbytes).2, List.length_append, length_framesBytes, Bytes.length_ofNat]
    rfl
  refine ⟨bytes, hbytes, hlength, ?_, ?_⟩
  · exact (hcut 1 actions bytes 31 _ hbytes (by omega)).mpr ⟨1, by decide, rfl, rfl⟩
  · rintro ⟨script, hscript⟩
    obtain ⟨j, hj, hend, -⟩ := (hcut 1 actions bytes 55 script hbytes (by omega)).mp hscript
    have hnowhere : ∀ j ≤ 2,
        55 ≠ 4 + ((actions.take j).map fun action => 24 + action.data.length).sum := by decide
    exact hnowhere j hj hend

end Script

end CallBundle
