import Captioning.Text.Blank
/-!
# Fenced answers

A model likes to put its answer between two lines of three backquotes. `stripFence` drops one such line in
front, whatever else stands on it, and one at the end. A text that does not start with a fence is only
trimmed.

Main statement: `stripFence_of_not_fenced`.
-/

namespace Captioning

/-- Three backquotes. -/
def fence : List Char := ['\x60', '\x60', '\x60']

/-- Whether a text starts with a fence. -/
def startsWithFence (s : List Char) : Bool :=
  fence.isPrefixOf s

/-- The last line of a text, and what stands in front of it; none if the text has one line. -/
def splitLastLine (s : List Char) : Option (List Char) × List Char :=
  let last := (s.reverse.takeWhile (· != '\n')).reverse
  if last.length == s.length then (none, s) else (some (s.take (s.length - last.length - 1)), last)

/-- The lines behind the opening fence, without a fence at their end. -/
def dropClosing (body : List Char) : List Char :=
  match splitLastLine body with
  | (some front, last) => if startsWithFence (Text.trimStart last) then front else body
  | (none, last) => if startsWithFence (Text.trimStart last) then [] else body

/-- A text without the fence around it. -/
def stripFence (s : List Char) : List Char :=
  let s := Text.trim s
  if startsWithFence s then
    match s.dropWhile (· != '\n') with
    | [] => []
    | _ :: body => dropClosing (Text.trimEnd body)
  else s

theorem stripFence_of_not_fenced {s : List Char} (h : startsWithFence (Text.trim s) = false) :
    stripFence s = Text.trim s := by
  simp [stripFence, h]

end Captioning
