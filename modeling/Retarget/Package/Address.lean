import Retarget.Text.Case

/-
  This file reads the addresses of feeds as far as a search
  needs them: the host that names a feed, and the target of
  a request to it.

  Key definitions include:
    * `Address.host?`
    * `Address.feedName`
    * `Address.pathOf`
    * `Address.requestTarget`
-/

namespace Retarget.Address

------------------------------------------------------------
-- Schemes
------------------------------------------------------------

/- What stands around an address or is broken across lines. -/
def clean (text : String) : List Char :=
  let isOuter := fun (c : Char) => c.toNat ≤ 0x20
  let cs := Text.dropEndWhile isOuter (text.toList.dropWhile isOuter)
  cs.filter fun c => c != '\t' && c != '\n' && c != '\r'

def isSchemeChar (c : Char) : Bool :=
  Text.isAsciiAlphanumeric c || c == '+' || c == '-' || c == '.'

/- The scheme in lower case, and what follows its colon. -/
def scheme? (cs : List Char) : Option (String × List Char) :=
  let scheme := cs.takeWhile isSchemeChar
  match scheme, cs.drop scheme.length with
  | c :: _, ':' :: rest =>
    if Text.isAsciiLetter c then
      some (Text.lowerAscii (String.ofList scheme), rest)
    else none
  | _, _ => none

/- The schemes whose addresses always have a host. -/
def isNetworkScheme (scheme : String) : Bool :=
  ["http", "https", "ws", "wss", "ftp"].contains scheme

------------------------------------------------------------
-- Numeric hosts
------------------------------------------------------------

def digitIn? (base : Nat) (c : Char) : Option Nat :=
  let n :=
    if Text.isAsciiDigit c then some (c.toNat - '0'.toNat)
    else if 'a' ≤ c && c ≤ 'f' then some (c.toNat - 'a'.toNat + 10)
    else none
  n.filter (· < base)

def numberIn? (base : Nat) (cs : List Char) : Option Nat :=
  cs.foldlM (fun n c => (digitIn? base c).map fun d => base * n + d) 0

/- A part of a numeric host: hexadecimal, octal or decimal. -/
def numericPart? (text : String) : Option Nat :=
  match text.toList with
  | [] => none
  | '0' :: 'x' :: r => numberIn? 16 r
  | '0' :: c :: r => numberIn? 8 (c :: r)
  | cs => numberIn? 10 cs

/- The parts of a host; a dot at its end does not count. -/
def hostParts (host : String) : List String :=
  let parts := Text.splitAt '.' host
  if parts.length > 1 && parts.getLast? == some "" then parts.dropLast
  else parts

def endsInNumber (host : String) : Bool :=
  match (hostParts host).getLast? with
  | some last =>
    (!last.isEmpty && last.toList.all Text.isAsciiDigit) ||
      (Text.hasStart "0x" last && (numericPart? last).isSome)
  | none => false

/- The number that the parts of a numeric host stand for. -/
def ofNumericParts? (parts : List Nat) : Option Nat :=
  match parts.getLast? with
  | none => none
  | some last =>
    let first := parts.dropLast
    if parts.length > 4 || first.any (255 < ·) ||
        last ≥ Nat.pow 256 (5 - parts.length) then none
    else
      let weighted := first.mapIdx fun i n => n * Nat.pow 256 (3 - i)
      some (weighted.foldl (· + ·) last)

/- The usual form of an address of four bytes. -/
def showBytes (n : Nat) : String :=
  Text.join "." <| [3, 2, 1, 0].map fun i =>
    toString (n / Nat.pow 256 i % 256)

def numericHost? (host : String) : Option String := do
  let parts ← (hostParts host).mapM numericPart?
  return showBytes (← ofNumericParts? parts)

------------------------------------------------------------
-- Hosts in brackets
------------------------------------------------------------

/- A group of up to four hexadecimal digits. -/
def group? (text : String) : Option Nat :=
  if text.isEmpty || text.length > 4 then none
  else numberIn? 16 (text.toList.map Text.lowerAsciiChar)

/- Groups with colons between them; the last may be four bytes. -/
def groups? (text : String) : Option (List Nat) :=
  if text.isEmpty then some []
  else
    let parts := Text.splitAt ':' text
    let last := parts.getLast?.getD ""
    if last.toList.contains '.' then do
      let bytes ← (Text.splitAt '.' last).mapM fun s =>
        if s.length > 1 && Text.hasStart "0" s then none
        else if s.isEmpty then none
        else (numberIn? 10 s.toList).filter (· < 256)
      let front ← parts.dropLast.mapM group?
      match bytes with
      | [a, b, c, d] => return front ++ [256 * a + b, 256 * c + d]
      | _ => none
    else parts.mapM group?

/- The eight groups of a host in brackets. -/
def eightGroups? (text : String) : Option (List Nat) := do
  match Text.splitOnceAt "::" text with
  | some (front, back) =>
    let front ← groups? front
    let back ← groups? back
    let missing := 8 - (front.length + back.length)
    if missing = 0 then none
    else return front ++ List.replicate missing 0 ++ back
  | none =>
    let all ← groups? text
    if all.length = 8 then return all else none

/- How many zeros a list starts with. -/
def zerosAt (groups : List Nat) : Nat :=
  (groups.takeWhile (· == 0)).length

/- The place and the length of the first longest run of zeros. -/
def longestZeros (groups : List Nat) : Nat × Nat :=
  (List.range groups.length).foldl
    (fun best i =>
      let n := zerosAt (groups.drop i)
      if n > best.2 then (i, n) else best)
    (0, 0)

def showGroups (groups : List Nat) : String :=
  let hex := fun (ns : List Nat) =>
    Text.join ":" (ns.map fun n => String.ofList (Nat.toDigits 16 n))
  let (place, length) := longestZeros groups
  if length < 2 then hex groups
  else hex (groups.take place) ++ "::" ++ hex (groups.drop (place + length))

def bracketHost? (inner : String) : Option String :=
  (eightGroups? inner).map fun groups => "[" ++ showGroups groups ++ "]"

------------------------------------------------------------
-- Names with letters beyond ASCII
------------------------------------------------------------

/- The bias for the next number of an encoded name. -/
def adaptBias (delta count : Nat) (isFirst : Bool) : Nat :=
  let start := if isFirst then delta / 700 else delta / 2
  let start := start + start / count
  let rec reduce (fuel delta k : Nat) : Nat :=
    match fuel with
    | 0 => k
    | fuel + 1 =>
      if delta > 455 then reduce fuel (delta / 35) (k + 36)
      else k + 36 * delta / (delta + 38)
  reduce 64 start 0

def baseDigit (n : Nat) : Char :=
  if n < 26 then Char.ofNat ('a'.toNat + n)
  else Char.ofNat ('0'.toNat + (n - 26))

/- The digits of a number, with limits that depend on the bias. -/
def variableDigits : Nat → Nat → Nat → Nat → List Char
  | 0, _, _, _ => []
  | fuel + 1, k, bias, q =>
    let t := if k ≤ bias then 1 else if k ≥ bias + 26 then 26 else k - bias
    if q < t then [baseDigit q]
    else
      baseDigit (t + (q - t) % (36 - t)) ::
        variableDigits fuel (k + 36) bias ((q - t) / (36 - t))

/- What is known while the letters of a name are encoded. -/
structure Encoding where
  delta : Nat
  bias : Nat
  handled : Nat
  isFirst : Bool
  output : List Char

/- Encode all letters with one code point, in their places. -/
def encodeLetter (cs : List Char) (n : Nat) (e : Encoding) : Encoding :=
  cs.foldl
    (fun e c =>
      if c.toNat < n then { e with delta := e.delta + 1 }
      else if c.toNat == n then
        { delta := 0
          bias := adaptBias e.delta (e.handled + 1) e.isFirst
          handled := e.handled + 1
          isFirst := false
          output := e.output ++ variableDigits 64 36 e.bias e.delta }
      else e)
    e

/- The ASCII form of one part of a name. -/
def encodeLabel (label : String) : String :=
  let cs := label.toList
  let basic := cs.filter fun c => c.toNat < 0x80
  let letters := (cs.filter fun c => c.toNat ≥ 0x80).map Char.toNat
  if letters.isEmpty then label
  else
    let ordered := letters.mergeSort.eraseDups
    let start : Encoding :=
      ⟨0, 72, basic.length, true,
        if basic.isEmpty then [] else basic ++ ['-']⟩
    let (_, e) := ordered.foldl
      (fun (next, e) n =>
        let skipped := (n - next) * (e.handled + 1)
        let e := encodeLetter cs n { e with delta := e.delta + skipped }
        (n + 1, { e with delta := e.delta + 1 }))
      (0x80, start)
    "xn--" ++ String.ofList e.output

------------------------------------------------------------
-- Hosts
------------------------------------------------------------

/- The bytes that are written as hexadecimal digits. -/
def percentBytes : List Char → List UInt8
  | '%' :: a :: b :: r =>
    match digitIn? 16 (Text.lowerAsciiChar a),
        digitIn? 16 (Text.lowerAsciiChar b) with
    | some x, some y => (16 * x + y).toUInt8 :: percentBytes r
    | _, _ => '%'.toNat.toUInt8 :: percentBytes (a :: b :: r)
  | c :: r => (String.singleton c).toUTF8.toList ++ percentBytes r
  | [] => []
termination_by cs => cs.length

def percentDecode? (text : String) : Option String :=
  String.fromUTF8? ⟨(percentBytes text.toList).toArray⟩

/- The characters that no name of a host may hold. -/
def isForbidden (c : Char) : Bool :=
  c.toNat ≤ 0x20 || c.toNat == 0x7F ||
    "#/:<>?@[\\]^|%".toList.contains c

def namedHost? (text : String) : Option String := do
  let decoded ← percentDecode? text
  let host := Text.join "."
    ((Text.splitAt '.' (Text.lower decoded)).map encodeLabel)
  if host.isEmpty || host.toList.any isForbidden then none
  if endsInNumber host then numericHost? host else return host

def networkHost? (text : String) : Option String :=
  match Text.stripStart? "[" text with
  | some rest => (Text.stripEnd? "]" rest).bind bracketHost?
  | none => namedHost? text

/- A host without rules of its own keeps its spelling. -/
def plainHost? (text : String) : Option String :=
  match Text.stripStart? "[" text with
  | some rest => (Text.stripEnd? "]" rest).bind bracketHost?
  | none =>
    if text.isEmpty || text.toList.any fun c => c != '%' && isForbidden c then
      none
    else some text

------------------------------------------------------------
-- Authorities
------------------------------------------------------------

/- A host and what stands behind it; brackets may hold colons. -/
def splitHost (cs : List Char) : List Char × List Char :=
  match cs with
  | '[' :: r =>
    let inner := r.takeWhile (· != ']')
    let host := '[' :: r.take (inner.length + 1)
    (host, cs.drop host.length)
  | cs => (cs.takeWhile (· != ':'), cs.dropWhile (· != ':'))

/- Nothing, or a colon and perhaps the number of a service. -/
def isService (cs : List Char) : Bool :=
  match cs with
  | [] => true
  | ':' :: digits =>
    digits.all Text.isAsciiDigit &&
      (numberIn? 10 digits).any (· < 65536)
  | _ => false

/- The host of an authority, which may name a user and a service. -/
def authorityHost?
    (host? : String → Option String)
    (authority : List Char) : Option String :=
  let place := (authority.reverse.takeWhile (· != '@')).reverse
  let (host, service) := splitHost place
  if isService service then host? (String.ofList host) else none

def isPathStart (isNetwork : Bool) (c : Char) : Bool :=
  c == '/' || c == '?' || c == '#' || (isNetwork && c == '\\')

def isSlash (c : Char) : Bool :=
  c == '/' || c == '\\'

/- The host of an address, if it is an address and has one. -/
def host? (text : String) : Option String := do
  let (scheme, rest) ← scheme? (clean text)
  if isNetworkScheme scheme then
    let rest := rest.dropWhile isSlash
    authorityHost? networkHost?
      (rest.takeWhile fun c => !isPathStart true c)
  else if scheme == "file" then
    match rest with
    | a :: b :: r =>
      if isSlash a && isSlash b then
        let host := String.ofList (r.takeWhile fun c => !isPathStart true c)
        (networkHost? host).filter (· != "localhost")
      else none
    | _ => none
  else
    match rest with
    | '/' :: '/' :: r =>
      authorityHost? plainHost?
        (r.takeWhile fun c => !isPathStart false c)
    | _ => none

/- A feed is named by its host, or by its whole address. -/
def feedName (address : String) : String :=
  (host? address).getD address

------------------------------------------------------------
-- Requests
------------------------------------------------------------

/- What follows the host of an address on a network. -/
def pathOf (address : String) : String :=
  match scheme? (clean address) with
  | some (scheme, rest) =>
    let isNetwork := isNetworkScheme scheme
    String.ofList <|
      (rest.dropWhile isSlash).dropWhile fun c => !isPathStart isNetwork c
  | none => address

/- No part of a request can hold these as they are. -/
def isUnsafe (c : Char) : Bool :=
  c.toNat ≤ 0x20 || c.toNat ≥ 0x7F || "\"#<>".toList.contains c

def isUnsafeInPath (c : Char) : Bool :=
  isUnsafe c || "?^\x60\x7b\x7d".toList.contains c

def isUnsafeInQuery (c : Char) : Bool :=
  isUnsafe c || c == '\''

def escapeByte (b : UInt8) : List Char :=
  let digits := (Nat.toDigits 16 b.toNat).map fun c =>
    if Text.isAsciiLower c then Char.ofNat (c.toNat - 32) else c
  '%' :: (if digits.length = 1 then '0' :: digits else digits)

def escape (mustEscape : Char → Bool) (text : String) : String :=
  String.ofList <| text.toList.flatMap fun c =>
    if mustEscape c then (String.singleton c).toUTF8.toList.flatMap escapeByte
    else [c]

/- A segment that stays where it is; its dot may be escaped. -/
def isOneDot (segment : String) : Bool :=
  [".", "%2e"].contains (Text.lowerAscii segment)

/- A segment that goes up. -/
def isTwoDots (segment : String) : Bool :=
  ["..", ".%2e", "%2e.", "%2e%2e"].contains (Text.lowerAscii segment)

/- Go on from the segments of a path, of which the last is first. -/
def addSegment (walked : List String) (segment : String) : List String :=
  if isOneDot segment then walked
  else if isTwoDots segment then walked.drop 1
  else segment :: walked

/- The target of a request for a path, which may have a query. -/
def requestTarget (path : String) : String :=
  let path := Text.before '#' path
  let (path, query) :=
    match Text.splitOnce '?' path with
    | some (path, query) => (path, "?" ++ escape isUnsafeInQuery query)
    | none => (path, "")
  let segments := (Text.splitWhere isSlash path).map (escape isUnsafeInPath)
  let walked := (segments.drop 1).foldl addSegment []
  "/" ++ Text.join "/" walked.reverse ++ query

/- The address of the index of a package below that of a feed. -/
def indexAddress (feed package : String) : String :=
  String.ofList (Text.dropEndWhile (· == '/') feed.toList) ++ "/" ++
    Text.lower package ++ "/index.json"

end Retarget.Address
