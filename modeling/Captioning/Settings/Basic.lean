import Captioning.Files.Path
import Captioning.Locate.Address
import Captioning.Time.Span
/-!
# Settings

What can be set for a run, with its defaults, and which settings make no sense.

Main statement: `fault?_eq_none_iff` (settings are accepted exactly when every count is positive and a
deadline, if there is one, leaves some time).
-/

namespace Captioning

/-- What can be set for a run. -/
structure Settings where
  frameCount : Nat
  maxFrameDimension : Nat
  workers : Nat
  parseRetries : Nat
  retryBackoffMillis : Nat
  progressInterval : Nat
  fetchTimeoutSeconds : Nat
  decodeTimeoutSeconds : Nat
  jobTimeoutSeconds : Option Nat
  userAgent : String
  model : String
  apiBaseUrl : String
  apiKeyPath : String
  removalMarkers : List String
  relocations : List Relocation
  ffmpegPath : String
  ffprobePath : String
deriving Repr, DecidableEq

namespace Settings

/-- Hosts that media has moved away from, to the one that has it now. -/
def defaultRelocations : List Relocation :=
  ["38.media.tumblr.com", "33.media.tumblr.com", "31.media.tumblr.com"].map fun old =>
    ⟨old, "64.media.tumblr.com"⟩

/-- The settings where nothing is set, for a user with the given home directory. -/
def default (home : String) : Settings where
  frameCount := 5
  maxFrameDimension := 512
  workers := 20
  parseRetries := 1
  retryBackoffMillis := 0
  progressInterval := 10
  fetchTimeoutSeconds := 30
  decodeTimeoutSeconds := 60
  jobTimeoutSeconds := none
  userAgent := "Mozilla/5.0"
  model := "gemini-2.0-flash-lite"
  apiBaseUrl := "https://generativelanguage.googleapis.com/v1beta"
  apiKeyPath := Path.join (Path.join home ".tokens") "gemini_api_key"
  removalMarkers := ["assets.tumblr.com/images/media_violation/"]
  relocations := defaultRelocations
  ffmpegPath := "ffmpeg"
  ffprobePath := "ffprobe"

/-- The first objection to settings. -/
def fault? (s : Settings) : Option String :=
  if s.frameCount == 0 then some "Frame count must be greater than 0"
  else if s.maxFrameDimension == 0 then some "Max frame dimension must be greater than 0"
  else if s.workers == 0 then some "Worker count must be greater than 0"
  else if s.progressInterval == 0 then some "Progress interval must be greater than 0"
  else if s.jobTimeoutSeconds == some 0 then some "Job timeout must be greater than 0 when set"
  else none

/-- How long a fetch may take. -/
def fetchTimeout (s : Settings) : Span := .ofSeconds s.fetchTimeoutSeconds

/-- How long a decoder may take. -/
def decodeTimeout (s : Settings) : Span := .ofSeconds s.decodeTimeoutSeconds

/-- How long a job may take. -/
def jobTimeout (s : Settings) : Option Span := s.jobTimeoutSeconds.map .ofSeconds

/-- The pause before the first retry. -/
def retryBackoff (s : Settings) : Span := .ofMillis s.retryBackoffMillis

theorem fault?_eq_none_iff (s : Settings) :
    s.fault? = none ↔ 0 < s.frameCount ∧ 0 < s.maxFrameDimension ∧ 0 < s.workers ∧ 0 < s.progressInterval
      ∧ s.jobTimeoutSeconds ≠ some 0 := by
  unfold fault?
  repeat' split
  all_goals simp_all <;> omega

end Settings

end Captioning
