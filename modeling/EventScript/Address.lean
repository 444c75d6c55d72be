import EventScript.OrderedMap

/-!
# Network addresses

The addresses that requests go to, in the standard form of URLs: `Address.parse?` reads one,
leniently as the standard prescribes, and `Address.text` writes it in its normal form, with the
scheme and the host in lower case, without the number of the scheme's usual service, without dot
segments, and with special characters percent-encoded. Hosts are ASCII.
-/

namespace EventScript

/-- A network address. -/
structure Address where
  scheme : String
  /-- Name and password, as written. -/
  user : Option String := none
  host : Option String := none
  /-- The number after the host, which tells the services of a host apart. -/
  service : Option Nat := none
  path : String
  query : Option String := none
  fragment : Option String := none
deriving DecidableEq, Inhabited

namespace Address

/-- The digits of percent-encoding. -/
def hexDigit (digit : Nat) : Char := "0123456789ABCDEF".toList.getD digit '0'

/-- A byte in percent-encoding. -/
def encodeByte (byte : UInt8) : List Char :=
  ['%', hexDigit (byte.toNat / 16), hexDigit (byte.toNat % 16)]

/-- Percent-encodes the controls, all that is not ASCII, and the given characters. -/
def encode (special : String) (text : List Char) : String :=
  String.ofList (text.flatMap fun c =>
    if c.toNat < 32 ∨ 126 < c.toNat ∨ c ∈ special.toList then
      (String.singleton c).toUTF8.toList.flatMap encodeByte
    else [c])

/-- Characters that a fragment encodes. -/
def fragmentSpecial : String := " \"<>`"

/-- Characters that a path encodes. -/
def pathSpecial : String := " \"<>`#?\x7b\x7d"

/-- Characters that a query encodes. -/
def querySpecial : String := " \"<>#"

/-- Characters that a name or password encodes. -/
def userSpecial : String := " \"<>`#?\x7b\x7d/:;=@[\\]^|"

/-- The number of the usual service of a scheme. -/
def usualService? : String → Option Nat
  | "http" | "ws" => some 80
  | "https" | "wss" => some 443
  | "ftp" => some 21
  | _ => none

/-- Whether addresses of the scheme always name a host and treat both slashes alike. -/
def isSpecial (scheme : String) : Bool :=
  (usualService? scheme).isSome || scheme == "file"

/-- Reads a scheme up to its colon. -/
def takeScheme? (text : List Char) : Option (String × List Char) :=
  let letters := text.takeWhile fun c => c.isAlphanum || c == '+' || c == '-' || c == '.'
  match letters, text.drop letters.length with
  | first :: _, ':' :: rest =>
    if first.isAlpha then some (String.ofList (letters.map Char.toLower), rest) else none
  | _, _ => none

/-- The value of a digit, up to base sixteen. -/
def digitValue (c : Char) : Nat :=
  if c.isDigit then c.toNat - 48
  else if 'a' ≤ c ∧ c ≤ 'f' then c.toNat - 87
  else if 'A' ≤ c ∧ c ≤ 'F' then c.toNat - 55
  else 99

/-- The number that digits denote in a base. -/
def ofDigits? (base : Nat) (digits : List Char) : Option Nat :=
  digits.foldl (fun total c => total.bind fun total =>
    if digitValue c < base then some (total * base + digitValue c) else none) (some 0)

/-- A part of a numeric host: `0x` stands before sixteen as base, and `0` before eight. -/
def hostNumber? : List Char → Option Nat
  | '0' :: 'x' :: digits => ofDigits? 16 digits
  | '0' :: digits => ofDigits? 8 digits
  | [] => none
  | digits => ofDigits? 10 digits

/-- The parts of a host between its dots, without an empty last one. -/
def hostParts (host : String) : List String :=
  let parts := host.splitOn "."
  if 1 < parts.length ∧ parts.getLast? = some "" then parts.dropLast else parts

/-- Whether a host is numeric: its last part is a number. -/
def isNumericHost (host : String) : Bool :=
  match (hostParts host).getLast? with
  | some last =>
    !last.isEmpty && (last.toList.all Char.isDigit ||
      (last.toList.take 2 == ['0', 'x'] && (hostNumber? last.toList).isSome))
  | none => false

/-- The dotted form of a host number of four bytes. -/
def dotted (number : Nat) : String :=
  ".".intercalate ([3, 2, 1, 0].map fun place => toString (number / Nat.pow 256 place % 256))

/-- The normal form of a numeric host. Each part but the last is a byte, and the last fills the
rest. -/
def numericHost? (host : String) : Option String := do
  let numbers ← (hostParts host).mapM fun part => hostNumber? part.toList
  let last ← numbers.getLast?
  let bytes := numbers.dropLast
  if 4 < numbers.length ∨ bytes.any (255 < ·) ∨ Nat.pow 256 (5 - numbers.length) ≤ last then none
  else
    let number :=
      bytes.zipIdx.foldl (fun total (byte, index) => total + byte * Nat.pow 256 (3 - index)) last
    return dotted number

/-- Characters that no host contains. -/
def isForbiddenInHost (c : Char) : Bool :=
  c.toNat ≤ 32 || 126 < c.toNat || "#/:<>?@[\\]^|%".toList.contains c

/-- The normal form of a host. -/
def host? (special : Bool) (host : List Char) : Option String :=
  match host with
  | '[' :: rest =>
    if rest.getLast? = some ']' ∧
      rest.dropLast.all (fun c => digitValue c < 16 || c == ':' || c == '.') then
      some (String.ofList (host.map Char.toLower))
    else none
  | _ =>
    if host.any isForbiddenInHost then none
    else if !special then some (String.ofList host)
    else
      let lower := String.ofList (host.map Char.toLower)
      if host.isEmpty then none
      else if isNumericHost lower then numericHost? lower
      else some lower

/-- Splits a host from the service number after it. A colon inside brackets belongs to the host. -/
def splitService (authority : List Char) : List Char × List Char :=
  match authority with
  | '[' :: _ =>
    let host := authority.takeWhile (· ≠ ']')
    (host ++ (authority.drop host.length).take 1, authority.drop (host.length + 1))
  | _ => (authority.takeWhile (· ≠ ':'), authority.dropWhile (· ≠ ':'))

/-- The service number after a host, `none` inside for the usual one. -/
def service? (scheme : String) (text : List Char) : Option (Option Nat) :=
  match text with
  | [] | [':'] => some none
  | ':' :: digits => do
    let service ← ofDigits? 10 digits
    if 65535 < service then none
    else return if usualService? scheme = some service then none else some service
  | _ => none

/-- Splits off what is before the last `@`. -/
def splitUser (authority : List Char) : Option (List Char) × List Char :=
  let host := (authority.reverse.takeWhile (· ≠ '@')).reverse
  if host.length = authority.length then (none, authority)
  else (some (authority.take (authority.length - host.length - 1)), host)

/-- Whether a path segment stands for the segment's own level. -/
def isDot (segment : String) : Bool :=
  segment == "." || segment.toLower == "%2e"

/-- Whether a path segment goes one level up. -/
def isDoubleDot (segment : String) : Bool :=
  [".." , ".%2e", "%2e.", "%2e%2e"].contains segment.toLower

/-- Resolves dot segments. A dot segment at the end leaves an empty segment. -/
def resolveDots : List String → List String → List String
  | resolved, [] => resolved.reverse
  | resolved, segment :: rest =>
    let last := rest.isEmpty
    if isDoubleDot segment then
      resolveDots (if last then "" :: resolved.tail else resolved.tail) rest
    else if isDot segment then resolveDots (if last then "" :: resolved else resolved) rest
    else resolveDots (segment :: resolved) rest

/-- The normal form of the path after a host. -/
def normalPath (special : Bool) (path : List Char) : String :=
  let slashed := if special then path.map fun c => if c == '\\' then '/' else c else path
  match slashed with
  | [] => if special then "/" else ""
  | '/' :: rest =>
    let segments := (String.ofList rest).splitOn "/"
    "/" ++ "/".intercalate (resolveDots [] (segments.map fun segment =>
      encode pathSpecial segment.toList))
  | other => encode pathSpecial other

/-- Splits a text before its first character of the given ones. -/
def splitBefore (stops : String) (text : List Char) : List Char × List Char :=
  (text.takeWhile (! stops.toList.contains ·), text.dropWhile (! stops.toList.contains ·))

/-- Reads an address from the scheme's colon on. -/
def parseAfterScheme? (scheme : String) (rest : List Char) : Option Address := do
  let special := isSpecial scheme
  let (main, fragment) := splitBefore "#" rest
  let (main, query) := splitBefore "?" main
  let querySpecial := if special then querySpecial ++ "'" else querySpecial
  let query := query.head?.map fun _ => encode querySpecial query.tail
  let fragment := fragment.head?.map fun _ => encode fragmentSpecial fragment.tail
  let isSlash : Char → Bool := fun c => c == '/' || (special && c == '\\')
  let slashes := main.takeWhile isSlash
  if special && scheme != "file" || !special && 2 ≤ slashes.length ||
      scheme == "file" && slashes.length == 2 then
    let main := main.drop (if special && scheme != "file" then slashes.length else 2)
    let (authority, path) := splitBefore (if special then "/\\" else "/") main
    let (user, authority) := splitUser authority
    let (host, service) := splitService authority
    let service ← service? scheme service
    let host ← if host.isEmpty && !special then some "" else host? special host
    return { scheme, user := user.map (encode (userSpecial.replace ":" "")), host := some host,
             service, path := normalPath special path, query, fragment }
  else if scheme == "file" then
    let path := main.drop (min 2 (slashes.length - 1))
    let path := if slashes.isEmpty then '/' :: path else path
    return { scheme, path := normalPath special path, query, fragment }
  else
    let path := if slashes.isEmpty then encode "" main else normalPath special main
    return { scheme, path, query, fragment }

/-- Whether a character is dropped at the ends of an address. -/
def isMargin (c : Char) : Bool := c.toNat ≤ 32

/-- Reads an absolute address. -/
def parse? (text : String) : Option Address := do
  let inner := ((text.toList.dropWhile isMargin).reverse.dropWhile isMargin).reverse
  let (scheme, rest) ← takeScheme? (inner.filter fun c => ! ['\t', '\n', '\r'].contains c)
  parseAfterScheme? scheme rest

/-- The normal form. A name and password are not part of it. -/
def text (address : Address) : String :=
  let authority := match address.host with
    | some host => "//" ++ host ++ (match address.service with
      | some service => ":" ++ toString service
      | none => "")
    | none => if address.scheme == "file" then "//" else ""
  let query := match address.query with
    | some query => "?" ++ query
    | none => ""
  let fragment := match address.fragment with
    | some fragment => "#" ++ fragment
    | none => ""
  address.scheme ++ ":" ++ authority ++ address.path ++ query ++ fragment

end Address

end EventScript
