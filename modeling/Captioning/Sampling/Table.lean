import Captioning.Item
import Captioning.Text.Quoted
/-!
# Samplers by format

Which sampler is used for which format. A format has one sampler, the one registered last; formats stay in
the order in which they first got one.

Main statements: `get?_register_same`, `get?_register_other`.
-/

namespace Captioning

/-- Samplers of some kind by format. -/
structure SamplerTable (σ : Type) where
  entries : List (MediaFormat × σ)

namespace SamplerTable

variable {σ : Type}

/-- No samplers. -/
def empty : SamplerTable σ := ⟨[]⟩

/-- The sampler of a format. -/
def get? (t : SamplerTable σ) (format : MediaFormat) : Option σ :=
  (t.entries.find? fun e => e.1 == format).map (·.2)

/-- The entries with one put in place of another or at the end. -/
def putEntry (format : MediaFormat) (s : σ) : List (MediaFormat × σ) → List (MediaFormat × σ)
  | [] => [(format, s)]
  | e :: more => if e.1 == format then (format, s) :: more else e :: putEntry format s more

/-- The table with a sampler for a format. -/
def register (t : SamplerTable σ) (format : MediaFormat) (s : σ) : SamplerTable σ :=
  ⟨putEntry format s t.entries⟩

/-- The formats that have a sampler, in order. -/
def formats (t : SamplerTable σ) : List MediaFormat :=
  t.entries.map (·.1)

/-- The table in messages. -/
def text (name : σ → String) (t : SamplerTable σ) : String :=
  "\x7b" ++ ", ".intercalate (t.entries.map fun (f, s) => Text.quoted f.name ++ ": " ++ Text.quoted (name s))
    ++ "\x7d"

/-! ## Small facts -/

theorem find?_putEntry_same (format : MediaFormat) (s : σ) (es : List (MediaFormat × σ)) :
    (putEntry format s es).find? (fun e => e.1 == format) = some (format, s) := by
  induction es with
  | nil => simp [putEntry]
  | cons e es ih =>
    by_cases h : e.1 == format
    · simp [putEntry, h]
    · simp [putEntry, h, ih]

theorem find?_putEntry_other {format other : MediaFormat} (hne : other ≠ format) (s : σ)
    (es : List (MediaFormat × σ)) :
    (putEntry format s es).find? (fun e => e.1 == other) = es.find? (fun e => e.1 == other) := by
  induction es with
  | nil => simp [putEntry, Ne.symm hne]
  | cons e es ih =>
    by_cases h : e.1 == format
    · have he : e.1 = format := by simpa using h
      simp [putEntry, he, Ne.symm hne]
    · by_cases ho : e.1 == other
      · simp [putEntry, h, ho]
      · simp [putEntry, h, ho, ih]

theorem get?_register_same (t : SamplerTable σ) (format : MediaFormat) (s : σ) :
    (t.register format s).get? format = some s := by
  simp [get?, register, find?_putEntry_same]

theorem get?_register_other {t : SamplerTable σ} {format other : MediaFormat} (h : other ≠ format) (s : σ) :
    (t.register format s).get? other = t.get? other := by
  simp [get?, register, find?_putEntry_other h]

end SamplerTable

end Captioning
