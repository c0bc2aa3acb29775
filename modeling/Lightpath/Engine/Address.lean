import Lightpath.Json.Writer
import Lightpath.Text.Blank

/-!
# Addresses of the engine

An address is put into normal form before it is used: scheme and host in lower case, no dots as segments of
the path, and every character that an address cannot hold as the hexadecimal digits of its bytes. An address
that cannot be used is refused with a text.
-/

namespace Lightpath.Engine

open Lightpath.Text

/-! ## Characters -/

/-- A Latin letter or digit. -/
def isPlain (c : Char) : Bool :=
  c.isAlphanum

/-- Whether a character stands for itself anywhere in an address. -/
def isUnreserved (c : Char) : Bool :=
  isPlain c || "._-~".toList.contains c

/-- The characters of users and passwords. -/
def isUserChar (c : Char) : Bool :=
  isUnreserved c || "!$&'()*+,;=:".toList.contains c

/-- The characters of paths. -/
def isPathChar (c : Char) : Bool :=
  isUserChar c || "@/".toList.contains c

/-- The characters of queries and of fragments. -/
def isQueryChar (c : Char) : Bool :=
  isPathChar c || c == '?'

/-- The characters that stay as they are in a finished address. -/
def isAddressChar (c : Char) : Bool :=
  isUnreserved c || "!#$%&'()*+,/:;=?@[]".toList.contains c

/-! ## Bytes in hexadecimal digits -/

/-- A byte behind a percent sign. -/
def percentByte (b : UInt8) : List Char :=
  let digits := (Nat.toDigits 16 b.toNat).map Char.toUpper
  '%' :: (List.replicate (2 - digits.length) '0' ++ digits)

/-- The bytes of a character, each behind a percent sign. -/
def percentChar (c : Char) : List Char :=
  (String.singleton c).toUTF8.toList.flatMap percentByte

/-- The value of a hexadecimal digit. -/
def hexValue? (c : Char) : Option Nat :=
  if c.isDigit then some (c.toNat - 48)
  else if 'a' ≤ c ∧ c ≤ 'f' then some (c.toNat - 87)
  else if 'A' ≤ c ∧ c ≤ 'F' then some (c.toNat - 55)
  else none

/-- Whether each percent sign stands in front of two hexadecimal digits. -/
def wellCoded : List Char → Bool
  | [] => true
  | '%' :: a :: b :: rest => (hexValue? a).isSome && (hexValue? b).isSome && wellCoded rest
  | '%' :: _ => false
  | _ :: rest => wellCoded rest

/-- Writes the digits behind percent signs in upper case. -/
def upperCoded : List Char → List Char
  | '%' :: a :: b :: rest =>
    if (hexValue? a).isSome && (hexValue? b).isSome then '%' :: a.toUpper :: b.toUpper :: upperCoded rest
    else '%' :: upperCoded (a :: b :: rest)
  | c :: rest => c :: upperCoded rest
  | [] => []

/-- Puts characters that are not allowed behind percent signs. Percent signs stay if all of them are
followed by two digits. -/
def coded (allowed : Char → Bool) (cs : List Char) : List Char :=
  let keep := wellCoded cs
  (upperCoded cs).flatMap fun c => if allowed c || (keep && c == '%') then [c] else percentChar c

/-- Takes percent signs off characters that stand for themselves. -/
def uncoded : List Char → List Char
  | '%' :: a :: b :: rest =>
    match hexValue? a, hexValue? b with
    | some x, some y =>
      let c := Char.ofNat (x * 16 + y)
      if isUnreserved c then c :: uncoded rest else '%' :: a :: b :: uncoded rest
    | _, _ => '%' :: uncoded (a :: b :: rest)
  | c :: rest => c :: uncoded rest
  | [] => []

/-- The bytes of a coded text: a percent sign with two hexadecimal digits is a byte. -/
def plainBytes : List Char → List UInt8
  | '%' :: a :: b :: rest =>
    match hexValue? a, hexValue? b with
    | some x, some y => UInt8.ofNat (x * 16 + y) :: plainBytes rest
    | _, _ => 37 :: plainBytes (a :: b :: rest)
  | c :: rest => (String.singleton c).toUTF8.toList ++ plainBytes rest
  | [] => []

/-- The text of some bytes; bytes that are no text leave a mark. -/
def textOfBytes (bytes : List UInt8) : String :=
  match String.fromUTF8? ⟨bytes.toArray⟩ with
  | some s => s
  | none => String.ofList (bytes.map fun b => if b < 128 then Char.ofNat b.toNat else '\uFFFD')

/-- The text that a coded text stands for. -/
def plainText (cs : List Char) : String :=
  textOfBytes (plainBytes cs)

/-! ## Parts -/

/-- Splits a text in front of the first character of a kind. -/
def splitAt (p : Char → Bool) (cs : List Char) : List Char × List Char :=
  cs.span fun c => !p c

/-- The parts of an address. -/
structure Address where
  scheme : List Char
  user : Option (List Char)
  host : List Char
  port : Option Nat
  path : List Char
  query : Option (List Char)
  fragment : Option (List Char)
  deriving Repr

/-- The segments of a path. -/
def segments : List Char → List (List Char)
  | [] => [[]]
  | c :: rest =>
    match segments rest with
    | [] => [[c]]
    | s :: ss => if c = '/' then [] :: s :: ss else (c :: s) :: ss

/-- Takes segments of one dot out, and segments of two dots together with the one in front. -/
def withoutDots (done : List (List Char)) : List (List Char) → List (List Char)
  | [] => done.reverse
  | s :: ss =>
    if s = ['.'] then withoutDots done ss
    else if s = ['.', '.'] then withoutDots done.tail ss
    else withoutDots (s :: done) ss

/-- The path without segments of dots. -/
def plainPath (path : List Char) : List Char :=
  let all := segments path
  let kept := withoutDots [] all
  let front := match kept with
    | [] => [[]]
    | [] :: _ => []
    | _ :: _ => if path.head? = some '/' then [[]] else []
  let back := match all.getLast? with
    | some s => if all.length ≠ 1 ∧ (s = ['.'] ∨ s = ['.', '.']) then [[]] else []
    | none => []
  ['/'].intercalate (front ++ kept ++ back)

/-- Whether a host may be written without brackets. -/
def isHostName (cs : List Char) : Bool :=
  cs.all (fun c => !"[]:/?#".toList.contains c) && wellCoded cs

/-- Whether a host is a number of the longer kind in brackets. -/
def isBracketed (cs : List Char) : Bool :=
  cs.head? == some '[' && cs.getLast? == some ']' && 2 < cs.length
    && (cs.drop 1).dropLast.all (fun c => (hexValue? c).isSome || c == ':' || c == '.')

/-- The host and the port of an address. A port has at most five digits behind its leading zeros, and is
at most 65535. -/
def hostAndPort? (cs : List Char) : Option (List Char × Option Nat) :=
  let (digits, rest) := (cs.reverse.takeWhile Char.isDigit, cs.reverse.dropWhile Char.isDigit)
  match rest with
  | ':' :: host =>
    let host := host.reverse
    let digits := digits.reverse
    let n := digits.foldl (fun n c => n * 10 + (c.toNat - 48)) 0
    if !(isHostName host || isBracketed host) || 65535 < n then none
    else some (host, if digits.isEmpty then none else some n)
  | _ => if isHostName cs || isBracketed cs then some (cs, none) else none

/-- The parts of an address, whose scheme ends at the first colon. -/
def Address.parse? (cs : List Char) : Option Address := do
  let (scheme, rest) := splitAt (· == ':') cs
  let rest ← match rest with
    | ':' :: '/' :: '/' :: rest => some rest
    | _ => none
  let (authority, rest) := splitAt (fun c => "\\/?#".toList.contains c) rest
  let (path, rest) := splitAt (fun c => c == '?' || c == '#') rest
  let (query, fragment) := match rest with
    | '?' :: rest => let (q, f) := splitAt (· == '#') rest; (some q, f)
    | rest => (none, rest)
  let (user, place) := match splitAt (· == '@') authority.reverse with
    | (place, _ :: user) => (some user.reverse, place.reverse)
    | (_, []) => (none, authority)
  let (host, port) ← hostAndPort? place
  return ⟨scheme.map Char.toLower, user, host, port, path, query, match fragment with
    | _ :: f => some f
    | [] => none⟩

/-- The text of an address in normal form. The port is left out if it is zero. -/
def Address.text (a : Address) : List Char :=
  let optional (mark : Char) (allowed : Char → Bool) : Option (List Char) → List Char
    | none => []
    | some [] => []
    | some cs => mark :: coded allowed cs
  let user := match a.user with
    | none => []
    | some [] => []
    | some cs => coded isUserChar cs ++ ['@']
  let port := match a.port with
    | none => []
    | some 0 => []
    | some n => ':' :: (toString n).toList
  let path := if a.path.isEmpty then ['/'] else coded isPathChar (plainPath a.path)
  let path := match path with
    | '/' :: _ => path
    | _ => '/' :: path
  let whole := a.scheme ++ "://".toList ++ user ++ a.host.map Char.toLower ++ port ++ path
    ++ optional '?' isQueryChar a.query ++ optional '#' isQueryChar a.fragment
  (uncoded whole).flatMap fun c => if isAddressChar c then [c] else percentChar c

/-! ## Use -/

/-- Whether a text stands at the front of another, whatever the case of its letters. -/
def startsLike (front : String) (cs : List Char) : Bool :=
  front.toList.isPrefixOf (cs.map Char.toLower)

/-- A text between quotes. -/
def quoted (cs : List Char) : String :=
  String.ofList (Json.quoteInText (String.ofList cs))

/-- The normal form of an address, or why there is none. An address of another protocol is left as it is. -/
def normalForm (url : String) : Except String String :=
  let cs := url.toList.dropWhile isBlank
  if !startsLike "http" cs then .ok (String.ofList cs)
  else
    match Address.parse? cs with
    | none => .error ("Failed to parse: " ++ String.ofList cs)
    | some a =>
      if a.host.isEmpty then .error ("Invalid URL " ++ quoted cs ++ ": No host supplied")
      else if a.host.head? = some '*' ∨ a.host.head? = some '.' then .error "URL has an invalid label."
      else .ok (String.ofList a.text)

/-- Why no request can be sent to an address, if none can: its protocol is not spoken. -/
def refusal? (address : String) : Option String :=
  let cs := address.toList
  if startsLike "http://" cs || startsLike "https://" cs then none
  else some ("No connection adapters were found for " ++ quoted cs)

end Lightpath.Engine
