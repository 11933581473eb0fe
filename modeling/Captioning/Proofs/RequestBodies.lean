import Captioning.Model.Service
import Captioning.Proofs.Base64
import Captioning.Proofs.JsonFields
import Captioning.Proofs.Utf8
import Mathlib.Data.List.Basic
/-!
# Request bodies read back

The body of a request is a text in UTF-8, which holds a value on one line, in which the frames stand in base64. Each of the
three is undone (`partsOf?`), so what is read from a body are the instruction and behind it the frames, in order and with
their bytes, and bodies are as different as these (`request_read_back`).
-/

namespace Captioning

namespace Json

/-! ## Reading objects of one member, and arrays -/

variable {depth : Nat} {k : String} {v w : Value} {vs ws : List Value}

theorem readValue_member (h : 1 < depth) (hv : readValue (depth - 1) v.draft = .ok w) :
    readValue depth (Value.object [(k, v)]).draft = .ok (.object [(k, w)]) := by
  simp [Value.draft, memberDrafts, readValue, readPairs, putMember, openBracket_of_lt h, hv, Closing.wantingMembers, bind,
    Except.bind, pure, Except.pure]

theorem readValue_items (h : 1 < depth) (hvs : readValues (depth - 1) (itemDrafts vs) = .ok ws) :
    readValue depth (Value.array vs).draft = .ok (.array ws) := by
  simp [Value.draft, readValue, openBracket_of_lt h, hvs, Closing.wantingItems, bind, Except.bind, pure, Except.pure]

theorem readValues_cons (hv : readValue depth v.draft = .ok w) (hvs : readValues depth (itemDrafts vs) = .ok ws) :
    readValues depth (itemDrafts (v :: vs)) = .ok (w :: ws) := by
  simp [itemDrafts, readValues, hv, hvs, bind, Except.bind, pure, Except.pure]

theorem readValue_string (depth : Nat) (s : String) : readValue depth (Value.string s).draft = .ok (.string s) := by
  simp [Value.draft, readValue, Except.map]

end Json

namespace Service

open Json

/-! ## Reading parts -/

/-- A part of a content as it is read. -/
inductive Part
  | text (s : String)
  | inline (mediaType : String) (data : Bytes)

/-- The part that a value holds, if it holds just that. A reader leaves members sorted by name. -/
def Part.ofValue? : Value → Option Part
  | .object [("text", .string s)] => some (.text s)
  | .object [("inlineData", .object [("data", .string d), ("mimeType", .string m)])] =>
    (Base64.decode? d.toList).map (.inline m)
  | _ => none

/-- The parts of the one content that a body holds, if it holds just that. -/
def partsOf? (body : Bytes) : Option (List Part) := do
  let text ← Utf8.toString? body
  match Json.readText readValue text with
  | .ok (.object [("contents", .array [.object [("parts", .array parts)]])]) => parts.mapM Part.ofValue?
  | _ => none

/-! ## Parts as they are read -/

/-- The part for a frame with its members sorted. -/
def framePartSorted (f : Frame) : Value :=
  .object [("inlineData", .object [("data", .string (String.ofList (Base64.encode f.data))),
    ("mimeType", .string Frame.mediaType)])]

theorem readValue_framePart (f : Frame) {depth : Nat} (h : 2 < depth) :
    readValue depth (framePart f).draft = .ok (framePartSorted f) := by
  have hopen : openBracket (depth - 1) = .ok (depth - 1 - 1) := openBracket_of_lt (by omega)
  have hname : ("data" == "mimeType") = false := by decide
  have hlt : "data" < "mimeType" := by decide
  refine readValue_member (by omega) ?_
  simp [Value.draft, memberDrafts, readValue, readPairs, putMember, hopen, hname, hlt, Closing.wantingMembers, Except.map,
    bind, Except.bind, pure, Except.pure]

theorem readValues_frameParts (frames : FrameSet) {depth : Nat} (h : 2 < depth) :
    readValues depth (itemDrafts (frames.map framePart)) = .ok (frames.map framePartSorted) := by
  induction frames with
  | nil => rfl
  | cons f frames ih => exact readValues_cons (readValue_framePart f h) ih

/-- What the body of a request is read as. -/
def requestValueSorted (instruction : String) (frames : FrameSet) : Value :=
  .object [("contents", .array [
    .object [("parts", .array (textPart instruction :: frames.map framePartSorted))]])]

theorem readValue_requestValue (instruction : String) (frames : FrameSet) :
    readValue maxDepth (requestValue instruction frames).draft = .ok (requestValueSorted instruction frames) := by
  -- four brackets stand around the parts, two of objects and two of arrays
  have hparts : readValues (maxDepth - 1 - 1 - 1 - 1) (itemDrafts (textPart instruction :: frames.map framePart))
      = .ok (textPart instruction :: frames.map framePartSorted) :=
    readValues_cons (readValue_member (by decide) (readValue_string _ _)) (readValues_frameParts frames (by decide))
  have hcontent := readValue_member (k := "parts") (by decide) (readValue_items (by decide) hparts)
  exact readValue_member (by decide) (readValue_items (by decide) (readValues_cons hcontent rfl))

/-- No number stands in the body of a request. -/
theorem integral_requestValue (instruction : String) (frames : FrameSet) : (requestValue instruction frames).Integral := by
  have hframes : IntegralItems (frames.map framePart) := by
    refine integralItems_iff.2 fun v hv => ?_
    obtain ⟨f, -, rfl⟩ := List.mem_map.1 hv
    simp [framePart, Value.Integral, IntegralMembers]
  simp [requestValue, textPart, Value.Integral, IntegralItems, IntegralMembers, hframes]

/-- A frame is read from its part with its bytes. -/
theorem ofValue?_framePartSorted (f : Frame) : Part.ofValue? (framePartSorted f) = some (.inline Frame.mediaType f.data) := by
  simp [framePartSorted, Part.ofValue?, Base64.decode?_encode]

theorem mapM_framePartSorted (frames : FrameSet) : (frames.map framePartSorted).mapM Part.ofValue?
    = some (frames.map fun f => .inline Frame.mediaType f.data) := by
  induction frames with
  | nil => rfl
  | cons f frames ih => simp [ofValue?_framePartSorted, ih]

theorem partsOf?_request (s : Service) (instruction : String) (frames : FrameSet) :
    partsOf? (s.request instruction frames).body
      = some (.text instruction :: frames.map fun f => .inline Frame.mediaType f.data) := by
  have hread := readText_line (integral_requestValue instruction frames) (readValue_requestValue instruction frames)
  have htext : Part.ofValue? (textPart instruction) = some (.text instruction) := rfl
  rw [partsOf?, request, Utf8.toString?_ofString]
  simp only [Option.bind_eq_bind, Option.bind_some, hread, requestValueSorted]
  rw [List.mapM_cons, htext, mapM_framePartSorted]
  rfl

/-- What is in the body of a request of the frames are their bytes. -/
theorem map_framePart (frames : FrameSet) : frames.map framePart = (frames.map (·.data)).map fun data =>
    .object [("inlineData", .object [("mimeType", .string Frame.mediaType),
      ("data", .string (String.ofList (Base64.encode data)))])] := by
  rw [List.map_map]
  rfl

/-- What is read from the body of a request is the instruction and behind it each frame in order, as a picture with the
bytes of the frame. So the bodies of two requests are equal just if the instructions are and the frames have the same
bytes. -/
theorem request_read_back (s : Service) (instruction : String) (frames : FrameSet) :
    partsOf? (s.request instruction frames).body
      = some (.text instruction :: frames.map fun f => .inline "image/png" f.data)
    ∧ ∀ (t : Service) (instruction' : String) (frames' : FrameSet),
      (s.request instruction frames).body = (t.request instruction' frames').body
        ↔ instruction = instruction' ∧ frames.map (·.data) = frames'.map (·.data) := by
  refine ⟨s.partsOf?_request instruction frames, fun t instruction' frames' => ⟨fun h => ?_, ?_⟩⟩
  · have hparts := s.partsOf?_request instruction frames
    rw [h, t.partsOf?_request, Option.some.injEq, List.cons.injEq, Part.text.injEq] at hparts
    obtain ⟨rfl, hframes⟩ := hparts
    have hinj : Function.Injective (Part.inline Frame.mediaType) := fun _ _ h => (Part.inline.inj h).2
    refine ⟨rfl, List.map_injective_iff.2 hinj ?_⟩
    rw [List.map_map, List.map_map]
    exact hframes.symm
  · rintro ⟨rfl, hframes⟩
    have hvalue : requestValue instruction frames = requestValue instruction frames' := by
      rw [requestValue, requestValue, map_framePart, map_framePart, hframes]
    simp only [request, hvalue]

end Service

end Captioning
