/-!
# UTF-8

Encoding characters as bytes and reading them back. Reading is strict: overlong forms, surrogates and
numbers past the last code point are refused. `decodeLossy` puts U+FFFD for each longest ill-formed
piece instead.

Main statements: `encode_append`, `front_char_length` and `front_illFormed_length` (each step leaves fewer
bytes).
-/

namespace Captioning

/-- The contents of a file, or a message body. -/
abbrev Bytes := List UInt8

namespace Utf8

/-- The bytes of a text. -/
def encode (s : List Char) : Bytes :=
  s.flatMap String.utf8EncodeChar

/-- A continuation byte has the form 10xxxxxx. -/
def isTail (b : UInt8) : Bool :=
  0x80 ≤ b && b ≤ 0xBF

/-- The payload of a continuation byte. -/
def tailBits (b : UInt8) : Nat :=
  b.toNat - 0x80

/-- Whether `b` may follow the leading byte `lead` of a longer form. -/
def secondOk (lead b : UInt8) : Bool :=
  if lead == 0xE0 then 0xA0 ≤ b && b ≤ 0xBF
  else if lead == 0xED then 0x80 ≤ b && b ≤ 0x9F
  else if lead == 0xF0 then 0x90 ≤ b && b ≤ 0xBF
  else if lead == 0xF4 then 0x80 ≤ b && b ≤ 0x8F
  else isTail b

/-- What stands at the front of some bytes: nothing, a character, an ill-formed piece of some size, or the
beginning of a character that the bytes end in. -/
inductive Front
  | finished
  | char (c : Char) (rest : Bytes)
  | illFormed (size : Nat) (rest : Bytes)
  | cut

/-- Reads what stands in front. -/
def front : Bytes → Front
  | [] => .finished
  | a :: r =>
    if a < 0x80 then .char (Char.ofNat a.toNat) r
    else if a < 0xC2 || 0xF4 < a then .illFormed 1 r
    else match r with
      | [] => .cut
      | b :: r2 =>
        if !secondOk a b then .illFormed 1 (b :: r2)
        else if a < 0xE0 then .char (Char.ofNat ((a.toNat - 0xC0) * 64 + tailBits b)) r2
        else match r2 with
          | [] => .cut
          | c :: r3 =>
            if !isTail c then .illFormed 2 (c :: r3)
            else if a < 0xF0 then
              .char (Char.ofNat (((a.toNat - 0xE0) * 64 + tailBits b) * 64 + tailBits c)) r3
            else match r3 with
              | [] => .cut
              | d :: r4 =>
                if !isTail d then .illFormed 3 (d :: r4)
                else .char (Char.ofNat ((((a.toNat - 0xF0) * 64 + tailBits b) * 64 + tailBits c) * 64
                  + tailBits d)) r4

theorem front_char_length {s r : Bytes} {c : Char} (h : front s = .char c r) :
    r.length < s.length := by
  unfold front at h
  repeat' split at h
  all_goals first
    | (injection h with _ h; subst h; simp +arith)
    | simp at h

theorem front_illFormed_length {s r : Bytes} {n : Nat} (h : front s = .illFormed n r) :
    r.length < s.length := by
  unfold front at h
  repeat' split at h
  all_goals first
    | (injection h with _ h; subst h; simp +arith)
    | simp at h

/-- Why some bytes spell no text: an ill-formed piece of `size` bytes, or none if the bytes end inside a
character, behind `index` well-formed bytes. -/
structure Fault where
  index : Nat
  size : Option Nat
deriving Repr, DecidableEq

/-- The text that the bytes spell, or where they go wrong, if `index` bytes precede them. -/
def decodeFrom (index : Nat) (s : Bytes) : Except Fault (List Char) :=
  match h : front s with
  | .finished => .ok []
  | .char c r =>
    have := front_char_length h
    (decodeFrom (index + (s.length - r.length)) r).map (c :: ·)
  | .illFormed n _ => .error ⟨index, some n⟩
  | .cut => .error ⟨index, none⟩
termination_by s.length

/-- The text that the bytes spell, if they are well formed. -/
def decode? (s : Bytes) : Option (List Char) :=
  (decodeFrom 0 s).toOption

/-- The text that the bytes spell, with a mark for each ill-formed piece. -/
def decodeWith (mark : Char) (s : Bytes) : List Char :=
  match h : front s with
  | .finished => []
  | .char c r =>
    have := front_char_length h
    c :: decodeWith mark r
  | .illFormed _ r =>
    have := front_illFormed_length h
    mark :: decodeWith mark r
  | .cut => [mark]
termination_by s.length

/-- The text that the bytes spell, with U+FFFD for each ill-formed piece. -/
def decodeLossy (s : Bytes) : List Char :=
  decodeWith '\uFFFD' s

/-- The text that the bytes spell; a mark of the byte order in front does not belong to it. -/
def decodeUnmarked (s : Bytes) : List Char :=
  decodeLossy (if s.take 3 == [0xEF, 0xBB, 0xBF] then s.drop 3 else s)

/-- The bytes of a string. -/
def ofString (s : String) : Bytes :=
  encode s.toList

/-- The string that the bytes spell, if they are well formed. -/
def toString? (s : Bytes) : Option String :=
  (decode? s).map String.ofList

/-! ## Small facts -/

@[simp] theorem encode_nil : encode [] = [] := rfl

@[simp] theorem encode_append (s t : List Char) : encode (s ++ t) = encode s ++ encode t := by
  simp [encode]

end Utf8

end Captioning
