import Captioning.Model.Client
import Mathlib.Data.List.DropRight
/-!
# Fenced answers undone

A `Fencing` is all that a model may put around an answer: blanks, an opening line, a closing line. Trimming takes the
blanks around it away and nothing of the marks (`trim_around`), the first line end is that of the opening line
(`behindFirstLine_append`), and the last one is that in front of the closing line (`dropClosing_append`), whatever the
answer itself holds. So one fence is undone, and what is inside is left alone (`stripFence_around`). A closing line that
is not there is not missed (`dropClosing_eq_self`).
-/

namespace Captioning

namespace Text

variable {c : Char} {s : List Char}

theorem trimEnd_trimEnd (s : List Char) : trimEnd (trimEnd s) = trimEnd s :=
  List.rdropWhile_idempotent isBlank s

end Text

/-! ## Lines of an answer -/

/-- A text behind its first line. -/
def behindFirstLine (s : List Char) : List Char := (s.dropWhile (· != '\n')).tail

/-- The last line of a text. -/
def lastLine (s : List Char) : List Char := s.rtakeWhile (· != '\n')

section Lines

variable {front last s : List Char}

theorem behindFirstLine_append (h : '\n' ∉ front) (s : List Char) : behindFirstLine (front ++ '\n' :: s) = s := by
  unfold behindFirstLine
  rw [List.dropWhile_append_of_pos fun c hc => bne_iff_ne.2 (ne_of_mem_of_not_mem hc h)]
  simp

theorem lastLine_append (h : '\n' ∉ last) (s : List Char) : lastLine (s ++ '\n' :: last) = last := by
  unfold lastLine List.rtakeWhile
  rw [List.reverse_append, List.reverse_cons, List.append_assoc, List.takeWhile_append_of_pos]
  · simp
  · exact fun c hc => bne_iff_ne.2 (ne_of_mem_of_not_mem (List.mem_reverse.1 hc) h)

theorem lastLine_suffix (s : List Char) : lastLine s <:+ s := List.rtakeWhile_suffix _ s

theorem splitLastLine_eq (s : List Char) : splitLastLine s = if (lastLine s).length == s.length then (none, s)
    else (some (s.take (s.length - (lastLine s).length - 1)), lastLine s) := rfl

theorem startsWithFence_iff : startsWithFence s = true ↔ fence <+: s := List.isPrefixOf_iff_prefix

theorem startsWithFence_append (s : List Char) : startsWithFence (fence ++ s) = true :=
  startsWithFence_iff.2 (List.prefix_append fence s)

/-- A closing line is dropped with the line end in front of it. -/
theorem dropClosing_append (hl : '\n' ∉ last) (h : startsWithFence (Text.trimStart last) = true) (s : List Char) :
    dropClosing (s ++ '\n' :: last) = s := by
  have hmore : ¬ (last.length == (s ++ '\n' :: last).length) = true := by
    rw [beq_iff_eq, List.length_append, List.length_cons]
    omega
  have hlength : (s ++ '\n' :: last).length - last.length - 1 = s.length := by
    rw [List.length_append, List.length_cons]
    omega
  unfold dropClosing
  rw [splitLastLine_eq, lastLine_append hl, if_neg hmore, hlength, List.take_left]
  exact if_pos h

/-- Without a closing line nothing is dropped. -/
theorem dropClosing_eq_self (h : startsWithFence (Text.trimStart (lastLine s)) = false) : dropClosing s = s := by
  unfold dropClosing
  rw [splitLastLine_eq]
  by_cases hone : (lastLine s).length == s.length
  · rw [(lastLine_suffix s).eq_of_length (beq_iff_eq.1 hone)] at h
    rw [if_pos hone]
    exact if_neg (Bool.eq_false_iff.1 h)
  · rw [if_neg hone]
    exact if_neg (Bool.eq_false_iff.1 h)

/-- Of an answer that starts with a fence, what stands behind its first line counts. -/
theorem stripFence_of_fenced (h : startsWithFence (Text.trim s) = true) :
    stripFence s = dropClosing (Text.trimEnd (behindFirstLine (Text.trim s))) := by
  unfold stripFence behindFirstLine
  rw [if_pos h]
  split
  · rename_i hs
    rw [hs]
    rfl
  · rename_i hs
    rw [hs]
    rfl

end Lines

/-! ## Answers between fences -/

/-- A fence around a text: blanks in front of it, what its opening line says, the blanks that its closing line starts
with, what that line says, and blanks behind it. -/
structure Fencing where
  before : List Char
  info : List Char
  indent : List Char
  suffix : List Char
  behind : List Char
  blank_before : Text.allBlank before = true
  line_info : '\n' ∉ info
  blank_indent : Text.allBlank indent = true
  line_indent : '\n' ∉ indent
  line_suffix : '\n' ∉ suffix
  blank_behind : Text.allBlank behind = true

namespace Fencing

/-- The text with the fence around it. -/
def around (f : Fencing) (body : List Char) : List Char :=
  f.before ++ (fence ++ f.info ++ '\n' :: (body ++ '\n' :: (f.indent ++ fence ++ f.suffix))) ++ f.behind

/-- The closing line without the blanks behind it. -/
def closing (f : Fencing) : List Char := f.indent ++ fence ++ Text.trimEnd f.suffix

theorem trimEnd_fence (s : List Char) : Text.trimEnd (s ++ fence) = s ++ fence := by
  have h := Text.trimEnd_append_of_not (c := '\x60') (by decide) (s ++ ['\x60', '\x60'])
  rwa [List.append_assoc] at h

theorem trimEnd_fence_append (s t : List Char) : Text.trimEnd (s ++ fence ++ t) = s ++ fence ++ Text.trimEnd t :=
  Text.trimEnd_append (trimEnd_fence s) t

theorem trimStart_fence (s : List Char) : Text.trimStart (fence ++ s) = fence ++ s :=
  Text.trimStart_cons_of_not (by decide) _

theorem trim_around (f : Fencing) (body : List Char) :
    Text.trim (f.around body) = fence ++ f.info ++ '\n' :: (body ++ '\n' :: f.closing) := by
  have hstart : Text.trimStart (f.around body)
      = fence ++ f.info ++ '\n' :: (body ++ '\n' :: (f.indent ++ fence ++ f.suffix)) ++ f.behind := by
    rw [around, List.append_assoc, Text.trimStart_append_of_all f.blank_before, List.append_assoc, List.append_assoc,
      trimStart_fence]
  have hshape : ∀ t, fence ++ f.info ++ '\n' :: (body ++ '\n' :: (f.indent ++ fence ++ t))
      = fence ++ f.info ++ '\n' :: (body ++ '\n' :: f.indent) ++ fence ++ t := by simp
  rw [Text.trim, hstart, Text.trimEnd_append_of_all f.blank_behind, hshape, trimEnd_fence_append, ← hshape, closing]

theorem line_closing (f : Fencing) : '\n' ∉ f.closing := by
  simp only [closing, List.mem_append, not_or]
  exact ⟨⟨f.line_indent, by decide⟩, fun h => f.line_suffix ((Text.trimEnd_prefix f.suffix).subset h)⟩

theorem trimEnd_closing (f : Fencing) (s : List Char) : Text.trimEnd (s ++ '\n' :: f.closing) = s ++ '\n' :: f.closing := by
  have hshape : ∀ t, s ++ '\n' :: (f.indent ++ fence ++ t) = s ++ '\n' :: f.indent ++ fence ++ t := by simp
  rw [closing, hshape, trimEnd_fence_append, Text.trimEnd_trimEnd]

theorem startsWithFence_closing (f : Fencing) : startsWithFence (Text.trimStart f.closing) = true := by
  rw [closing, List.append_assoc, Text.trimStart_append_of_all f.blank_indent, trimStart_fence]
  exact startsWithFence_append _

/-- A fence is undone once. -/
theorem stripFence_around (f : Fencing) (body : List Char) : stripFence (f.around body) = body := by
  have hline : '\n' ∉ fence ++ f.info := by
    rw [List.mem_append, not_or]
    exact ⟨by decide, f.line_info⟩
  have hfenced : startsWithFence (Text.trim (f.around body)) = true := by
    rw [trim_around, List.append_assoc]
    exact startsWithFence_append _
  rw [stripFence_of_fenced hfenced, trim_around, behindFirstLine_append hline, trimEnd_closing,
    dropClosing_append f.line_closing f.startsWithFence_closing]

end Fencing

/-- A fence around an answer is undone, once, and the description is read from what is inside. Without a fence in front
an answer is trimmed only; without one on its last line it loses its first line and the blanks at its end. The fence of a
last line may be indented. -/
theorem fence_undone : (∀ (f : Fencing) (body : List Char), stripFence (f.around body) = body)
    ∧ (∀ (f : Fencing) (body : List Char),
      Client.parse (String.ofList (f.around body)) = Description.ofText (String.ofList body))
    ∧ (∀ s, ¬ fence <+: Text.trim s → stripFence s = Text.trim s)
    ∧ ∀ s, fence <+: Text.trim s →
      ¬ fence <+: Text.trimStart (lastLine (Text.trimEnd (behindFirstLine (Text.trim s)))) →
      stripFence s = Text.trimEnd (behindFirstLine (Text.trim s)) := by
  refine ⟨Fencing.stripFence_around, fun f body => ?_, fun s h => ?_, fun s hopen hlast => ?_⟩
  · rw [Client.parse, String.toList_ofList, Fencing.stripFence_around]
  · exact stripFence_of_not_fenced (Bool.eq_false_iff.2 fun hs => h (startsWithFence_iff.1 hs))
  · rw [stripFence_of_fenced (startsWithFence_iff.2 hopen)]
    exact dropClosing_eq_self (Bool.eq_false_iff.2 fun hs => hlast (startsWithFence_iff.1 hs))

/-- A fence with something on all of its lines. -/
def wordyFence : Fencing where
  before := [' ', '\u3000', '\n']
  info := "json x".toList
  indent := ['\t', ' ']
  suffix := " end ".toList
  behind := ['\n', ' ']
  blank_before := by decide
  line_info := by decide
  blank_indent := by decide
  line_indent := by decide
  line_suffix := by decide
  blank_behind := by decide

/-- A fence in a fence stays; so do quotes that are no fence, and an answer without a closing line is kept to its end. -/
theorem fence_undone_once : stripFence (wordyFence.around (wordyFence.around "```".toList)) = wordyFence.around "```".toList
    ∧ ¬ fence <+: Text.trim " ``x``` ".toList ∧ stripFence " ``x``` ".toList = "``x```".toList
    ∧ fence <+: Text.trim "```\nx ```\n ``\n".toList
    ∧ ¬ fence <+: Text.trimStart (lastLine (Text.trimEnd (behindFirstLine (Text.trim "```\nx ```\n ``\n".toList))))
    ∧ stripFence "```\nx ```\n ``\n".toList = "x ```\n ``".toList := by
  have hbare : ¬ fence <+: Text.trim " ``x``` ".toList := by decide
  have hopen : fence <+: Text.trim "```\nx ```\n ``\n".toList := by decide
  have hlast : ¬ fence <+: Text.trimStart
      (lastLine (Text.trimEnd (behindFirstLine (Text.trim "```\nx ```\n ``\n".toList)))) := by decide
  obtain ⟨haround, -, htrimmed, hkept⟩ := fence_undone
  exact ⟨haround _ _, hbare, (htrimmed _ hbare).trans (by decide), hopen, hlast, (hkept _ hopen hlast).trans (by decide)⟩

end Captioning
