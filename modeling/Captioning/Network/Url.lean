import Captioning.Network.Host
/-!
# Addresses on the network

An address is written in many ways and has one canonical form, in which it is used and reported: small
letters in the host, no number of the service where it is the usual one, no dots that stand for directories,
and all that cannot stand in an address as escaped bytes. A name and a password in front of the host are not
part of it.
-/

namespace Captioning

/-- An address in its canonical form. -/
structure Url where
  secure : Bool
  host : List Char
  /-- The number of the service at the host, unless it is the usual one. -/
  service : Option Nat
  /-- The names of the path. -/
  path : List (List Char)
  query : Option (List Char)
  fragment : Option (List Char)
deriving Repr, DecidableEq

namespace Url

/-- A byte as an escape. -/
def escapeByte (b : UInt8) : List Char :=
  let digit := fun (n : Nat) => n.digitChar.toUpper
  ['%', digit (b.toNat / 16), digit (b.toNat % 16)]

/-- A text with those of its characters escaped that are not printable ASCII or are among `others`. -/
def escape (others : List Char) (s : List Char) : List Char :=
  s.flatMap fun c =>
    if c.toNat < 0x20 || 0x7E < c.toNat || others.contains c then (Utf8.encode [c]).flatMap escapeByte
    else [c]

/-- What is escaped in a fragment. -/
def inFragment : List Char := " \"<>`".toList

/-- What is escaped in a path. -/
def inPath : List Char := inFragment ++ "#?\x7b\x7d".toList

/-- What is escaped in a query. -/
def inQuery : List Char := " \"#<>'".toList

/-- Whether a character separates the names of a path. -/
def isSlash (c : Char) : Bool :=
  c == '/' || c == '\\'

/-- Whether a character ends the host and the path. -/
def endsAuthority (c : Char) : Bool :=
  isSlash c || c == '?' || c == '#'

/-- The text without line ends and tabs, and without controls and blanks around it. -/
def cleaned (s : List Char) : List Char :=
  let outer := fun (s : List Char) => s.dropWhile fun c => c.toNat ≤ 0x20
  (outer (outer s).reverse).reverse.filter fun c => c != '\t' && c != '\n' && c != '\r'

/-- Whether a name stands for the directory itself. -/
def isHere (name : List Char) : Bool :=
  [".", "%2e"].contains (String.ofList (Decimal.asciiLower name))

/-- Whether a name stands for the directory above. -/
def isAbove (name : List Char) : Bool :=
  ["..", ".%2e", "%2e.", "%2e%2e"].contains (String.ofList (Decimal.asciiLower name))

/-- The names of a path with dots followed, behind the names in front. -/
def resolve (front : List (List Char)) : List (List Char) → List (List Char)
  | [] => front
  | name :: more =>
    let last := if more.isEmpty then [[]] else []
    if isAbove name then resolve (front.dropLast ++ last) more
    else if isHere name then resolve (front ++ last) more
    else resolve (front ++ [escape inPath name]) more

/-- The names in a path, which starts with a slash unless it is empty. -/
def namesOf (path : List Char) : List (List Char) :=
  match path with
  | [] => [[]]
  | _ :: r => (r.map fun c => if isSlash c then '/' else c).splitOn '/'

/-- The number of the usual service. -/
def usualService (secure : Bool) : Nat :=
  if secure then 443 else 80

/-- The number of a service, if there is one and it is not the usual one. -/
def service? (secure : Bool) (s : List Char) : Option (Option Nat) :=
  if s.isEmpty then some none
  else if s.all Char.isDigit then
    (Decimal.readNat? 65536 s).map fun n => if n == usualService secure then none else some n
  else none

/-- The host and the service of an authority, which a colon outside of brackets separates. -/
def splitService (s : List Char) : List Char × List Char :=
  match s with
  | '[' :: _ =>
    let inside := s.takeWhile (· != ']') ++ (s.dropWhile (· != ']')).take 1
    let behind := (s.dropWhile (· != ']')).drop 1
    (inside ++ behind.takeWhile (· != ':'), (behind.dropWhile (· != ':')).drop 1)
  | _ => (s.takeWhile (· != ':'), (s.dropWhile (· != ':')).drop 1)

/-- An authority without a name and a password. -/
def withoutUser (s : List Char) : List Char :=
  (s.reverse.takeWhile (· != '@')).reverse

/-- What a mark starts, if it is there. -/
def behind? (mark : Char) (s : List Char) : Option (List Char) :=
  match s with
  | c :: r => if c == mark then some r else none
  | [] => none

/-- The text behind a scheme, and whether it is the secure one. -/
def scheme? (s : List Char) : Option (Bool × List Char) := do
  let name := String.ofList (Decimal.asciiLower (s.takeWhile (· != ':')))
  let rest ← behind? ':' (s.dropWhile (· != ':'))
  if name == "https" then some (true, rest) else if name == "http" then some (false, rest) else none

/-- Reads an address; none if it cannot be one. -/
def ofText? (s : String) : Option Url := do
  let (secure, s) ← scheme? (cleaned s.toList)
  let s := s.dropWhile isSlash
  let (host, service) := splitService (withoutUser (s.takeWhile fun c => !endsAuthority c))
  let s := s.dropWhile fun c => !endsAuthority c
  let path := s.takeWhile fun c => c != '?' && c != '#'
  let s := s.dropWhile fun c => c != '?' && c != '#'
  let query := (behind? '?' s).map fun r => escape inQuery (r.takeWhile (· != '#'))
  let fragment := (behind? '#' (s.dropWhile (· != '#'))).map (escape inFragment)
  return ⟨secure, ← Host.canonical? host, ← service? secure service, resolve [] (namesOf path), query, fragment⟩

/-- A mark and what it starts, if there is anything. -/
def marked (mark : Char) : Option (List Char) → List Char
  | some s => mark :: s
  | none => []

/-- The text of an address. -/
def text (u : Url) : String :=
  String.ofList ((if u.secure then "https://" else "http://").toList ++ u.host
    ++ marked ':' (u.service.map Decimal.digitsOf) ++ u.path.flatMap (fun n => '/' :: n)
    ++ marked '?' u.query ++ marked '#' u.fragment)

end Url

end Captioning
