import Captioning.Image.PrefixCode
import Captioning.Image.Raster
/-!
# Entropy-coded pictures

A lossless picture is a row of pixels from the top left to the bottom right. Each step of it is written in
one of a group of five prefix codes: a pixel part by part, a repetition of earlier pixels, or a pixel that
was seen before and is named by its place in a cache. Larger pictures use different groups in different
blocks.
-/

namespace Captioning.Image.Webp

/-- The five codes of a group: green parts, lengths and cache places; red; blue; opacity; distances. -/
structure Group where
  green : PrefixCode
  red : PrefixCode
  blue : PrefixCode
  alpha : PrefixCode
  distance : PrefixCode
deriving Inhabited

/-- The order in which the lengths of the code of lengths are given. -/
def lengthOrder : List Nat := [17, 18, 0, 1, 2, 3, 4, 5, 16, 6, 7, 8, 9, 10, 11, 12, 13, 14, 15]

/-- The code in which symbols have the given lengths. A single symbol has the empty code. -/
def codeOfLengths (lengths : List Nat) : Except Fault PrefixCode :=
  match (lengths.zipIdx.filter fun p => 0 < p.1) with
  | [(_, symbol)] => .ok (.leaf symbol)
  | [] => .error (.malformed "prefix code")
  | _ => PrefixCode.ofLengthsComplete lengths

/-- Reads code lengths, latest first. `limit` is how many symbols may still be read, `before` the last
length that was not zero. `fuel` bounds the number of symbols. -/
def readLengths (code : PrefixCode) (total : Nat) : Nat → Nat → Nat → List Nat → BitReader (List Nat)
  | 0, _, _, found => return found
  | fuel + 1, limit, before, found => do
    if total ≤ found.length || limit == 0 then return found
    let symbol ← code.read
    if symbol < 16 then
      readLengths code total fuel (limit - 1) (if symbol == 0 then before else symbol) (symbol :: found)
    else
      let (value, count) ← match symbol with
        | 16 => pure (before, 3 + (← BitReader.bits 2))
        | 17 => pure (0, 3 + (← BitReader.bits 3))
        | _ => pure (0, 11 + (← BitReader.bits 7))
      if total < found.length + count then throw (.malformed "code lengths")
      readLengths code total fuel (limit - 1) before (List.replicate count value ++ found)

/-- Reads a code over `total` symbols. -/
def readCode (total : Nat) : BitReader PrefixCode := do
  if ← BitReader.flag then
    let two ← BitReader.flag
    let first ← if ← BitReader.flag then BitReader.bits 8 else BitReader.bit
    if total ≤ first then throw (.malformed "symbol")
    if two then
      let second ← BitReader.bits 8
      if total ≤ second then throw (.malformed "symbol")
      return .node (.leaf first) (.leaf second)
    else return .leaf first
  else
    let count := 4 + (← BitReader.bits 4)
    let given ← (lengthOrder.take count).mapM fun symbol => return (symbol, ← BitReader.bits 3)
    let code ← codeOfLengths ((List.range 19).map fun symbol => (given.lookup symbol).getD 0)
    let limit ← if ← BitReader.flag then
        let n ← BitReader.bits (2 + 2 * (← BitReader.bits 3))
        if total < n + 2 then throw (.malformed "code lengths")
        pure (n + 2)
      else pure total
    let found ← readLengths code total total limit 8 []
    codeOfLengths (List.replicate (total - found.length) 0 ++ found).reverse

/-- Reads a group of codes. -/
def readGroup (cacheSize : Nat) : BitReader Group := do
  return ⟨← readCode (280 + cacheSize), ← readCode 256, ← readCode 256, ← readCode 256, ← readCode 40⟩

/-- Reads groups. -/
def readGroups (cacheSize : Nat) : Nat → Array Group → BitReader (Array Group)
  | 0, groups => return groups
  | n + 1, groups => do readGroups cacheSize n (groups.push (← readGroup cacheSize))

/-- Reads the number that a symbol of lengths or distances stands for. -/
def readNumber (symbol : Nat) : BitReader Nat := do
  if symbol < 4 then return symbol + 1
  let extra := (symbol - 2) / 2
  return (2 + symbol % 2) * Nat.pow 2 extra + (← BitReader.bits extra) + 1

/-- The short distances, as steps to the left and up. -/
def nearSteps : List (Int × Nat) := [
  (0, 1), (1, 0), (1, 1), (-1, 1), (0, 2), (2, 0), (1, 2), (-1, 2), (2, 1), (-2, 1), (2, 2), (-2, 2),
  (0, 3), (3, 0), (1, 3), (-1, 3), (3, 1), (-3, 1), (2, 3), (-2, 3), (3, 2), (-3, 2), (0, 4), (4, 0),
  (1, 4), (-1, 4), (4, 1), (-4, 1), (3, 3), (-3, 3), (2, 4), (-2, 4), (4, 2), (-4, 2), (0, 5), (3, 4),
  (-3, 4), (4, 3), (-4, 3), (5, 0), (1, 5), (-1, 5), (5, 1), (-5, 1), (2, 5), (-2, 5), (5, 2), (-5, 2),
  (4, 4), (-4, 4), (3, 5), (-3, 5), (5, 3), (-5, 3), (0, 6), (6, 0), (1, 6), (-1, 6), (6, 1), (-6, 1),
  (2, 6), (-2, 6), (6, 2), (-6, 2), (4, 5), (-4, 5), (5, 4), (-5, 4), (3, 6), (-3, 6), (6, 3), (-6, 3),
  (0, 7), (7, 0), (1, 7), (-1, 7), (5, 5), (-5, 5), (7, 1), (-7, 1), (4, 6), (-4, 6), (6, 4), (-6, 4),
  (2, 7), (-2, 7), (7, 2), (-7, 2), (3, 7), (-3, 7), (7, 3), (-7, 3), (5, 6), (-5, 6), (6, 5), (-6, 5),
  (8, 0), (4, 7), (-4, 7), (7, 4), (-7, 4), (8, 1), (8, 2), (6, 6), (-6, 6), (8, 3), (5, 7), (-5, 7),
  (7, 5), (-7, 5), (8, 4), (6, 7), (-6, 7), (7, 6), (-7, 6), (8, 5), (7, 7), (-7, 7), (8, 6), (8, 7)]

/-- How many pixels back a distance is in a picture of some width. -/
def pixelsBack (width distance : Nat) : Nat :=
  match nearSteps[distance - 1]? with
  | some (x, y) => max 1 (x + (y * width : Nat)).toNat
  | none => distance - nearSteps.length

/-- The number of a pixel whose parts are written one after the other. -/
def pixelNumber (p : Pixel) : UInt32 :=
  (p.alpha.toUInt32 <<< 24) ||| (p.red.toUInt32 <<< 16) ||| (p.green.toUInt32 <<< 8) ||| p.blue.toUInt32

/-- The place of a pixel in a cache of 2 ^ `bits` places. -/
def cachePlace (bits : Nat) (p : Pixel) : Nat :=
  ((0x1E35A7BD * pixelNumber p) >>> UInt32.ofNat (32 - bits)).toNat

/-- What the steps of a picture need. -/
structure Plan where
  width : Nat
  count : Nat
  cacheBits : Option Nat
  groups : Array Group
  /-- The number of the group for a pixel. -/
  groupAt : Nat → Nat

/-- The pixels so far, and the cache. -/
structure Progress where
  pixels : Array Pixel
  cache : Array Pixel

/-- One more pixel. -/
def Progress.push (plan : Plan) (s : Progress) (p : Pixel) : Progress :=
  ⟨s.pixels.push p, match plan.cacheBits with
    | some bits => s.cache.setIfInBounds (cachePlace bits p) p
    | none => s.cache⟩

/-- Repeats `n` pixels from `distance` back. -/
def Progress.repeatPixels (plan : Plan) (distance : Nat) : Nat → Progress → Progress
  | 0, s => s
  | n + 1, s => repeatPixels plan distance n (s.push plan (s.pixels.getD (s.pixels.size - distance) .clear))

/-- Reads pixels until the picture is complete. `fuel` bounds the number of steps. -/
def readSteps (plan : Plan) : Nat → Progress → BitReader (Array Pixel)
  | 0, s => return s.pixels
  | fuel + 1, s => do
    if plan.count ≤ s.pixels.size then return s.pixels
    let group := plan.groups.getD (plan.groupAt s.pixels.size) default
    let symbol ← group.green.read
    if symbol < 256 then
      let red ← group.red.read
      let blue ← group.blue.read
      let alpha ← group.alpha.read
      readSteps plan fuel
        (s.push plan ⟨UInt8.ofNat red, UInt8.ofNat symbol, UInt8.ofNat blue, UInt8.ofNat alpha⟩)
    else if symbol < 280 then
      let length ← readNumber (symbol - 256)
      let distance := pixelsBack plan.width (← readNumber (← group.distance.read))
      if s.pixels.size < distance || plan.count < s.pixels.size + length then
        throw (.malformed "repetition")
      readSteps plan fuel (s.repeatPixels plan distance length)
    else
      readSteps plan fuel (s.push plan (s.cache.getD (symbol - 280) .clear))

/-- Reads the size of a cache, if there is one. -/
def readCacheBits : BitReader (Option Nat) := do
  if ← BitReader.flag then
    let n ← BitReader.bits 4
    if n == 0 || 11 < n then throw (.malformed "cache size")
    return some n
  else return none

/-- The number of places in a cache. -/
def cacheSize (bits : Option Nat) : Nat :=
  match bits with
  | some n => Nat.pow 2 n
  | none => 0

/-- The number of blocks of 2 ^ `bits` pixels along a side. -/
def blocks (bits side : Nat) : Nat :=
  (side + Nat.pow 2 bits - 1) / Nat.pow 2 bits

/-- The number of the block that a pixel of a picture is in. -/
def blockAt (bits width x y : Nat) : Nat :=
  y / Nat.pow 2 bits * blocks bits width + x / Nat.pow 2 bits

/-- Reads a picture that uses one group of codes. -/
def readPlain (width height : Nat) : BitReader (Array Pixel) := do
  let cacheBits ← readCacheBits
  let groups ← readGroups (cacheSize cacheBits) 1 #[]
  let plan : Plan := ⟨width, width * height, cacheBits, groups, fun _ => 0⟩
  readSteps plan plan.count ⟨#[], Array.replicate (cacheSize cacheBits) .clear⟩

/-- The number that the red and green parts of a pixel spell. -/
def groupNumber (p : Pixel) : Nat :=
  p.red.toNat * 256 + p.green.toNat

/-- Reads a picture that may use several groups of codes. -/
def readGrouped (width height : Nat) : BitReader (Array Pixel) := do
  let cacheBits ← readCacheBits
  let (count, groupAt) ← if ← BitReader.flag then
      let bits := 2 + (← BitReader.bits 3)
      let numbers := (← readPlain (blocks bits width) (blocks bits height)).map groupNumber
      pure (numbers.foldl max 0 + 1, fun n => numbers.getD (blockAt bits width (n % width) (n / width)) 0)
    else pure (1, fun _ => 0)
  let groups ← readGroups (cacheSize cacheBits) count #[]
  let plan : Plan := ⟨width, width * height, cacheBits, groups, groupAt⟩
  readSteps plan plan.count ⟨#[], Array.replicate (cacheSize cacheBits) .clear⟩

end Captioning.Image.Webp
