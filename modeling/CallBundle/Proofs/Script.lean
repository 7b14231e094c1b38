import Mathlib
import CallBundle.Frame
import CallBundle.Proofs.Bytes
import CallBundle.Proofs.Run

/-!
Call scripts as bytes and back. What can be written is said once, in `framesToBytes_eq_ok_iff`, and
what can be read once, in `readFrames_eq_ok_iff`; the two conditions are the same. Main statement:
`toBytes_ofBytes_inverse`.
-/

namespace CallBundle

namespace Frame

/-- The length of the data goes into a field of four bytes. -/
def Fits (frame : Frame) : Prop := frame.data.length < 2 ^ 32

def bytes (frame : Frame) : Bytes :=
  frame.target.bytes ++ (Bytes.ofNat 4 frame.data.length ++ frame.data)

@[simp] theorem length_bytes (frame : Frame) : frame.bytes.length = 24 + frame.data.length := by
  simp only [bytes, List.length_append, frame.target.length_bytes, Bytes.length_ofNat]
  omega

theorem bytes_append_ne_nil (frame : Frame) (rest : Bytes) : frame.bytes ++ rest ≠ [] := by
  intro h
  have hlen := congrArg List.length h
  simp only [List.length_append, length_bytes, List.length_nil] at hlen
  omega

/-- Bytes that hold a frame are its bytes and what follows them. -/
theorem fits_and_eq_bytes_append {bytes : Bytes} {length : Nat}
    (htarget : (bytes.take 20).length = 20) (hfield : ¬ ((bytes.drop 20).take 4).length < 4)
    (hlength : length = Bytes.toNat ((bytes.drop 20).take 4))
    (hdata : ¬ ((bytes.drop 24).take length).length < length) :
    (Frame.mk ⟨bytes.take 20, htarget⟩ ((bytes.drop 24).take length)).Fits ∧
      bytes = (Frame.mk ⟨bytes.take 20, htarget⟩ ((bytes.drop 24).take length)).bytes ++
        bytes.drop (24 + length) := by
  have hfour : ((bytes.drop 20).take 4).length = 4 := by
    have := List.length_take_le 4 (bytes.drop 20)
    omega
  have hdataLength : ((bytes.drop 24).take length).length = length := by
    have := List.length_take_le length (bytes.drop 24)
    omega
  have hwritten : Bytes.ofNat 4 length = (bytes.drop 20).take 4 := by
    rw [hlength]
    exact Bytes.ofNat_toNat_of_length hfour
  constructor
  · have hlt := Bytes.toNat_lt ((bytes.drop 20).take 4)
    rw [hfour, ← hlength] at hlt
    rw [Fits, hdataLength]
    exact hlt
  · rw [Frame.bytes, hdataLength, hwritten, List.append_assoc, List.append_assoc,
      ← List.drop_drop, List.take_append_drop, show (24 : Nat) = 20 + 4 from rfl,
      ← List.drop_drop, List.take_append_drop, List.take_append_drop]

theorem toBytes?_eq_some_iff {frame : Frame} {bytes : Bytes} :
    frame.toBytes? = some bytes ↔ frame.Fits ∧ bytes = frame.bytes := by
  rw [toBytes?, List.append_assoc]
  split
  · rename_i h
    rw [Option.some.injEq]
    exact ⟨fun heq => ⟨h, heq.symm⟩, fun heq => heq.2.symm⟩
  · rename_i h
    exact ⟨nofun, fun hfits => absurd hfits.1 h⟩

end Frame

namespace Script

/-- Scripts all of whose frames have bytes. -/
def Fits (script : Script) : Prop := ∀ frame ∈ script.frames, frame.Fits

def framesBytes (frames : List Frame) : Bytes := frames.flatMap Frame.bytes

@[simp] theorem framesBytes_cons (frame : Frame) (frames : List Frame) :
    framesBytes (frame :: frames) = frame.bytes ++ framesBytes frames := rfl

theorem framesBytes_append (frames frames' : List Frame) :
    framesBytes (frames ++ frames') = framesBytes frames ++ framesBytes frames' :=
  List.flatMap_append

theorem length_framesBytes (frames : List Frame) :
    (framesBytes frames).length = (frames.map fun frame => 24 + frame.data.length).sum := by
  rw [framesBytes, List.length_flatMap]
  simp only [Frame.length_bytes]

theorem framesToBytes_eq_ok_iff {index : Nat} {frames : List Frame} {bytes : Bytes} :
    framesToBytes index frames = .ok bytes ↔
      (∀ frame ∈ frames, frame.Fits) ∧ bytes = framesBytes frames := by
  induction frames generalizing index bytes with
  | nil =>
    simp only [framesToBytes, pure, Except.pure, Except.ok.injEq]
    simp [framesBytes, eq_comm]
  | cons frame frames ih =>
    rw [framesToBytes, List.forall_mem_cons]
    cases h : frame.toBytes? with
    | none =>
      have hno : ¬ frame.Fits := fun hfits => by
        simpa [h] using Frame.toBytes?_eq_some_iff.mpr ⟨hfits, rfl⟩
      simp [hno]
    | some written =>
      obtain ⟨hfits, rfl⟩ := Frame.toBytes?_eq_some_iff.mp h
      simp only [bind_eq_ok, ih, pure, Except.pure, Except.ok.injEq]
      constructor
      · rintro ⟨_, ⟨hrest, rfl⟩, rfl⟩
        exact ⟨⟨hfits, hrest⟩, rfl⟩
      · rintro ⟨⟨_, hrest⟩, rfl⟩
        exact ⟨_, ⟨hrest, rfl⟩, rfl⟩

theorem toBytes_eq_ok_iff {script : Script} {bytes : Bytes} :
    script.toBytes = .ok bytes ↔
      script.Fits ∧ bytes = Bytes.ofNat 4 script.specId.toNat ++ framesBytes script.frames := by
  simp only [toBytes, bind_eq_ok, framesToBytes_eq_ok_iff, pure, Except.pure, Except.ok.injEq]
  constructor
  · rintro ⟨_, ⟨hfits, rfl⟩, rfl⟩
    exact ⟨hfits, rfl⟩
  · rintro ⟨hfits, rfl⟩
    exact ⟨_, ⟨hfits, rfl⟩, rfl⟩

theorem Fits.exists_toBytes {script : Script} (h : script.Fits) :
    ∃ bytes, script.toBytes = .ok bytes :=
  ⟨_, toBytes_eq_ok_iff.mpr ⟨h, rfl⟩⟩

theorem readFrames_nil (offset : Nat) : readFrames offset [] = .ok [] := by
  rw [readFrames, if_pos rfl]

theorem readFrames_bytes_append {frame : Frame} (hfits : frame.Fits) (offset : Nat)
    (rest : Bytes) :
    readFrames offset (frame.bytes ++ rest) = do
      let frames ← readFrames (offset + 24 + frame.data.length) rest
      return frame :: frames := by
  have htarget : (frame.bytes ++ rest).take 20 = frame.target.bytes := by
    rw [Frame.bytes, List.append_assoc]
    exact List.take_left' frame.target.length_bytes
  have hfield : ((frame.bytes ++ rest).drop 20).take 4 = Bytes.ofNat 4 frame.data.length := by
    rw [Frame.bytes, List.append_assoc, List.drop_left' frame.target.length_bytes,
      List.append_assoc]
    exact List.take_left' (Bytes.length_ofNat ..)
  have hlength : Bytes.toNat (Bytes.ofNat 4 frame.data.length) = frame.data.length :=
    Bytes.toNat_ofNat_of_lt hfits
  have hrest : (frame.bytes ++ rest).drop (24 + frame.data.length) = rest :=
    List.drop_left' frame.length_bytes
  have hdata : ((frame.bytes ++ rest).drop 24).take frame.data.length = frame.data := by
    have hfront : (frame.target.bytes ++ Bytes.ofNat 4 frame.data.length).length = 24 := by
      simp [frame.target.length_bytes]
    rw [Frame.bytes, ← List.append_assoc, List.append_assoc _ frame.data,
      List.drop_left' hfront]
    exact List.take_left' rfl
  rw [readFrames, if_neg (frame.bytes_append_ne_nil rest),
    dif_pos (htarget ▸ frame.target.length_bytes)]
  simp only [hfield, hlength, htarget, hdata, hrest, Bytes.length_ofNat, Nat.lt_irrefl, if_false]

/-- Frames are read off the front of what they are written before. -/
theorem readFrames_framesBytes_append {frames : List Frame} (h : ∀ frame ∈ frames, frame.Fits)
    (offset : Nat) (rest : Bytes) :
    readFrames offset (framesBytes frames ++ rest) = do
      let more ← readFrames (offset + (framesBytes frames).length) rest
      return frames ++ more := by
  induction frames generalizing offset with
  | nil =>
    have hnil : framesBytes [] = [] := rfl
    rw [hnil, List.nil_append, List.length_nil, Nat.add_zero]
    exact (bind_pure _).symm
  | cons frame frames ih =>
    rw [List.forall_mem_cons] at h
    rw [framesBytes_cons, List.append_assoc, readFrames_bytes_append h.1, ih h.2, bind_assoc,
      List.length_append, Frame.length_bytes, ← Nat.add_assoc, ← Nat.add_assoc]
    simp only [pure_bind, List.cons_append]

theorem readFrames_eq_ok_iff {offset : Nat} {bytes : Bytes} {frames : List Frame} :
    readFrames offset bytes = .ok frames ↔
      (∀ frame ∈ frames, frame.Fits) ∧ bytes = framesBytes frames := by
  constructor
  · intro h
    fun_induction readFrames offset bytes generalizing frames with
    | case1 =>
      cases h
      simp [framesBytes]
    | case2 | case3 | case5 => cases h
    | case4 offset bytes _ htarget _ _ _ hfield hdata =>
      rename_i ih
      obtain ⟨rest, hrest, hframes⟩ := bind_eq_ok.mp h
      obtain ⟨hfits, hbytes⟩ := ih hrest
      obtain ⟨hframe, hsplit⟩ := Frame.fits_and_eq_bytes_append htarget hfield rfl hdata
      cases hframes
      refine ⟨List.forall_mem_cons.mpr ⟨hframe, hfits⟩, ?_⟩
      rw [framesBytes_cons, ← hbytes]
      exact hsplit
  · rintro ⟨hfits, rfl⟩
    have hall := readFrames_framesBytes_append hfits offset []
    rw [List.append_nil, readFrames_nil] at hall
    rw [hall]
    exact congrArg Except.ok (List.append_nil frames)

theorem ofBytes_eq_ok_iff {bytes : Bytes} {script : Script} :
    ofBytes bytes = .ok script ↔ script.toBytes = .ok bytes := by
  rw [toBytes_eq_ok_iff, ofBytes]
  constructor
  · intro h
    split at h
    · cases h
    · rename_i hheader
      obtain ⟨frames, hframes, hscript⟩ := bind_eq_ok.mp h
      obtain ⟨hfits, hbytes⟩ := readFrames_eq_ok_iff.mp hframes
      have hfour : (bytes.take 4).length = 4 := List.length_take_of_le (by omega)
      have hlt := Bytes.toNat_lt (bytes.take 4)
      rw [hfour] at hlt
      cases hscript
      refine ⟨hfits, ?_⟩
      rw [← hbytes, UInt32.toNat_ofNat_of_lt' hlt, Bytes.ofNat_toNat_of_length hfour,
        List.take_append_drop]
  · rintro ⟨hfits, rfl⟩
    have hfour := Bytes.length_ofNat 4 script.specId.toNat
    have hframes : readFrames 4 (framesBytes script.frames) = .ok script.frames :=
      readFrames_eq_ok_iff.mpr ⟨hfits, rfl⟩
    rw [if_neg (by rw [List.length_append, hfour]; omega), List.drop_left' hfour,
      List.take_left' hfour, hframes, Bytes.toNat_ofNat_of_lt script.specId.toNat_lt]
    simp only [UInt32.ofNat_toNat]
    rfl

theorem fits_ofActions {specId : UInt32} {actions : List Action}
    (h : ∀ action ∈ actions, action.data.length < 2 ^ 32) : (ofActions specId actions).Fits := by
  intro frame hframe
  obtain ⟨action, haction, rfl⟩ := List.mem_map.mp hframe
  exact h action haction

theorem exists_ofActions_eq (script : Script) :
    ∃ actions, ofActions script.specId actions = script := by
  refine ⟨script.frames.map fun frame => ⟨frame.target, frame.data, 0⟩, ?_⟩
  simp [ofActions, Frame.ofAction, Function.comp_def]

/-- Writing and reading are inverse to each other: actions with short data come back in order and
without their values, bytes that are read at all are written again as they were, and no others are
written. -/
theorem toBytes_ofBytes_inverse :
    (∀ (specId : UInt32) (actions : List Action),
      (∀ action ∈ actions, action.data.length < 2 ^ 32) →
        ∃ bytes, (ofActions specId actions).toBytes = .ok bytes ∧
          ofBytes bytes = .ok ⟨specId, actions.map .ofAction⟩) ∧
    (∀ bytes script, ofBytes bytes = .ok script →
      script.toBytes = .ok bytes ∧ ∃ actions, ofActions script.specId actions = script) ∧
    (∀ bytes, (∃ script, ofBytes bytes = .ok script) ↔
      ∃ specId actions, (ofActions specId actions).toBytes = .ok bytes) ∧
    ∀ specId specId' actions actions' bytes,
      (ofActions specId actions).toBytes = .ok bytes →
      (ofActions specId' actions').toBytes = .ok bytes →
        specId = specId' ∧ actions.map Frame.ofAction = actions'.map Frame.ofAction := by
  refine ⟨?_, ?_, ?_, ?_⟩
  · intro specId actions h
    have hfits : (ofActions specId actions).Fits := fits_ofActions h
    have hwritten := toBytes_eq_ok_iff.mpr ⟨hfits, rfl⟩
    exact ⟨_, hwritten, ofBytes_eq_ok_iff.mpr hwritten⟩
  · intro bytes script h
    exact ⟨ofBytes_eq_ok_iff.mp h, exists_ofActions_eq script⟩
  · intro bytes
    constructor
    · rintro ⟨script, h⟩
      obtain ⟨actions, hactions⟩ := exists_ofActions_eq script
      refine ⟨script.specId, actions, ?_⟩
      rw [hactions]
      exact ofBytes_eq_ok_iff.mp h
    · rintro ⟨specId, actions, h⟩
      exact ⟨_, ofBytes_eq_ok_iff.mpr h⟩
  · intro specId specId' actions actions' bytes h h'
    have hread := ofBytes_eq_ok_iff.mpr h
    rw [ofBytes_eq_ok_iff.mpr h', Except.ok.injEq] at hread
    exact ⟨congrArg Script.specId hread.symm, congrArg Script.frames hread.symm⟩

/-- The data of the second action looks like a frame. -/
theorem toBytes_ofBytes_inverse_framed_data :
    (∃ bytes, (ofActions 1 [⟨.zero, [], 5⟩, ⟨.zero, Bytes.zeros 24, 0⟩]).toBytes = .ok bytes ∧
      ofBytes bytes = .ok ⟨1, [⟨.zero, []⟩, ⟨.zero, Bytes.zeros 24⟩]⟩) ∧
    (Script.mk 7 []).toBytes = .ok [0, 0, 0, 7] := by
  constructor
  · exact toBytes_ofBytes_inverse.1 1 _ (by decide)
  · have hread : ofBytes [0, 0, 0, 7] = .ok ⟨7, []⟩ := by
      rw [ofBytes, readFrames]
      rfl
    exact (toBytes_ofBytes_inverse.2.1 _ _ hread).1

end Script

end CallBundle
