import Scenario.Http.Percent
import Scenario.Http.Punycode
import Scenario.Power
import Scenario.Text.Blank
import Scenario.Text.Case
import Scenario.Text.Category

/-!
# URLs

`Url.ofText` reads an absolute URL and brings it into its normal form: scheme and host in lower case,
dots in the path resolved, the default port left out, and what may not stand in a part escaped.
`Url.join` reads a reference relative to a URL.

The scheme decides the form of the rest. For `http` and the other special schemes a backslash is a
slash and there is always a host.
-/

namespace Scenario

namespace Http

/-- A URL in normal form. `path` begins with a slash if there is a host. -/
structure Url where
  scheme : String
  username : String
  password : String
  host : String
  port : Option Nat
  path : String
  query : Option String
  fragment : Option String
deriving DecidableEq, Repr

namespace Url

/-- Why a text is no URL. -/
inductive Flaw where
  | emptyHost
  | invalidDomainName
  | invalidPort
  | invalidIpv4
  | invalidIpv6
  | invalidDomainCharacter
  | relativeWithoutBase
deriving DecidableEq, Repr

/-- The wording of a flaw. -/
def Flaw.message : Flaw → String
  | emptyHost => "empty host"
  | invalidDomainName => "invalid international domain name"
  | invalidPort => "invalid port number"
  | invalidIpv4 => "invalid IPv4 address"
  | invalidIpv6 => "invalid IPv6 address"
  | invalidDomainCharacter => "invalid domain character"
  | relativeWithoutBase => "relative URL without a base"

/-- The port of a scheme where none is given. -/
def defaultPort? : String → Option Nat
  | "http" => some 80
  | "https" => some 443
  | "ws" => some 80
  | "wss" => some 443
  | "ftp" => some 21
  | _ => none

/-! ### Hosts -/

/-- A number in an address: decimal, hexadecimal after `0x`, octal after `0`. -/
def addressNumber? (digits : List Char) : Option Nat :=
  let (base, body) :=
    match digits with
    | '0' :: 'x' :: rest => (16, rest)
    | '0' :: 'X' :: rest => (16, rest)
    | '0' :: d :: rest => (8, d :: rest)
    | other => (10, other)
  let value (c : Char) : Option Nat := (Percent.hexValue? c).filter (· < base)
  (body.mapM value).map fun ds => ds.foldl (fun n d => base * n + d) 0

/-- The parts of a host without an empty last part. -/
def hostParts (host : List Char) : List (List Char) :=
  let parts := Text.splitOnChar '.' host
  if parts.getLast? = some [] && 1 < parts.length then parts.dropLast else parts

/-- Whether a host ends in a number and so has to be an address of four bytes. -/
def endsInNumber (host : List Char) : Bool :=
  match (hostParts host).getLast? with
  | none => false
  | some last =>
    (!last.isEmpty && last.all Char.isDigit) ||
      (match last with
        | '0' :: x :: rest =>
          (x = 'x' || x = 'X') && rest.all fun c => (Percent.hexValue? c).isSome
        | _ => false)

/-- The value of an address: all numbers but the last are bytes, the last fills the rest. -/
def addressValue? (numbers : List Nat) : Option Nat :=
  let bytes := numbers.dropLast
  match numbers.getLast? with
  | none => none
  | some last =>
    if 4 < numbers.length || bytes.any (255 < ·) || 256 ^ (5 - numbers.length) ≤ last then none
    else
      some (last + (bytes.zipIdx.map fun (b, i) => b * 256 ^ (3 - i)).foldl (· + ·) 0)

/-- An address of four bytes in its usual form. -/
def addressText (value : Nat) : String :=
  ".".intercalate
    ([value / 2 ^ 24 % 256, value / 2 ^ 16 % 256, value / 2 ^ 8 % 256, value % 256].map toString)

/-- The pieces of an address between colons. -/
def wordOf? (text : List Char) : Option Nat :=
  if text.isEmpty || 4 < text.length then none
  else (text.mapM Percent.hexValue?).map fun ds => ds.foldl (fun n d => 16 * n + d) 0

/-- The words of one side of an address; four bytes may stand for the last two words. -/
def wordsOf? (text : List Char) : Option (List Nat) :=
  if text.isEmpty then some []
  else
    let parts := Text.splitOnChar ':' text
    match parts.getLast? with
    | none => none
    | some last =>
      if '.' ∈ last then
        let bytes := (Text.splitOnChar '.' last).map fun digits =>
          -- a byte is a decimal number without leading zeros
          if digits.isEmpty || 3 < digits.length || !digits.all Char.isDigit ||
              (1 < digits.length && digits.head? = some '0') then none
          else
            some (digits.foldl (fun n c => 10 * n + (c.toNat - 48)) 0) |>.filter (· < 256)
        match bytes with
        | [some a, some b, some c, some d] =>
          (parts.dropLast.mapM wordOf?).map (· ++ [256 * a + b, 256 * c + d])
        | _ => none
      else parts.mapM wordOf?

/-- The text before and after the first pair of colons. -/
def splitDouble : List Char → Option (List Char × List Char)
  | ':' :: ':' :: rest => some ([], rest)
  | c :: rest => (splitDouble rest).map fun (before, after) => (c :: before, after)
  | [] => none

/-- The eight words of an address. -/
def longAddress? (text : List Char) : Option (List Nat) :=
  match splitDouble text with
  | none => (wordsOf? text).filter (·.length = 8)
  | some (before, after) =>
    if (splitDouble after).isSome || after.head? = some ':' || '.' ∈ before then none
    else
      match wordsOf? before, wordsOf? after with
      | some left, some right =>
        if left.length + right.length < 8 then
          some (left ++ List.replicate (8 - left.length - right.length) 0 ++ right)
        else none
      | _, _ => none

/-- The longest run of zero words: where it starts and how long it is. -/
def zeroRun (words : List Nat) : Nat × Nat :=
  let starts := (List.range words.length).map fun i => (i, ((words.drop i).takeWhile (· = 0)).length)
  starts.foldl (fun best run => if best.2 < run.2 then run else best) (0, 0)

/-- An address of eight words in its usual form. -/
def longAddressText (words : List Nat) : String :=
  let shown (ws : List Nat) : String :=
    ":".intercalate (ws.map fun w => String.ofList (Nat.toDigits 16 w))
  let (start, length) := zeroRun words
  if length < 2 then shown words
  else shown (words.take start) ++ "::" ++ shown (words.drop (start + length))

/-- Whether a character may not stand in a host name. -/
def isForbidden (c : Char) : Bool :=
  Percent.isControl c || c ∈ [' ', '#', '/', ':', '<', '>', '?', '@', '[', '\\', ']', '^', '|', '%']

/-- Labels in their written form: lower case, and in Punycode if they leave ASCII. -/
def asciiLabel (label : List Char) : List Char :=
  let lowered := (Text.lowercase (String.ofList label)).toList
  if lowered.all fun c => c.toNat < 0x80 then lowered
  else ['x', 'n', '-', '-'] ++ Punycode.encode lowered

/-- Characters that separate labels besides the full stop. -/
def plainDot (c : Char) : Char :=
  if c = '\u3002' || c = '\uff0e' || c = '\uff61' then '.' else c

/-- Characters that are left out of a host name. -/
def isIgnored (c : Char) : Bool :=
  c = '\u00ad' || c = '\u200b' || c = '\u2060' || c = '\ufeff'

/-- A host in brackets, without the first one: an address of eight words. -/
def readBracketed (rest : List Char) : Except Flaw String :=
  if rest.getLast? ≠ some ']' then .error .invalidIpv6
  else
    match longAddress? rest.dropLast with
    | some words => .ok ("[" ++ longAddressText words ++ "]")
    | none => .error .invalidIpv6

/-- The host of a special URL. -/
def readHost (raw : List Char) : Except Flaw String :=
  match raw with
  | '[' :: rest => readBracketed rest
  | _ =>
    -- the escapes come first: what they spell is a part of the name like any other
    match String.fromUTF8? ⟨(Percent.decodeBytes raw).toArray⟩ with
    | none => .error .invalidDomainName
    | some decoded =>
      let kept := (decoded.toList.map plainDot).filter fun c => !isIgnored c
      let chars := ((Text.splitOnChar '.' kept).map asciiLabel).intersperse ['.'] |>.flatten
      if chars.any isForbidden then .error .invalidDomainName
      else if chars.isEmpty then .error .emptyHost
      -- a name that ends in a number has to be an address
      else if endsInNumber chars then
        match ((hostParts chars).mapM addressNumber?).bind addressValue? with
        | some value => .ok (addressText value)
        | none => .error .invalidIpv4
      else .ok (String.ofList chars)

/-- Whether a character may not stand in the host of a URL that is not special. -/
def isForbiddenOpaque (c : Char) : Bool :=
  c ∈ ['\x00', '\t', '\n', '\r', ' ', '#', '/', ':', '<', '>', '?', '@', '[', '\\', ']', '^', '|']

/-- The host of a URL that is not special; it may be empty. -/
def readOpaqueHost : List Char → Except Flaw String
  | '[' :: rest => readBracketed rest
  | raw =>
    if raw.any isForbiddenOpaque then .error .invalidDomainCharacter
    else .ok (String.ofList (Percent.encodeChars Percent.isControl raw))

/-! ### Authority -/

/-- Whether a character ends the authority. -/
def endsAuthority (special : Bool) (c : Char) : Bool :=
  c = '/' || c = '?' || c = '#' || (special && c = '\\')

/-- The text before and after the last `@`. -/
def splitUser (text : List Char) : Option (List Char × List Char) :=
  if '@' ∈ text then
    let after := (text.reverse.takeWhile (· ≠ '@')).reverse
    some (text.take (text.length - after.length - 1), after)
  else none

/-- The host and the port, split at the last colon outside brackets. -/
def splitPort (text : List Char) : List Char × Option (List Char) :=
  let rec go (inside : Bool) : List Char → List Char × Option (List Char)
    | [] => ([], none)
    | c :: rest =>
      if c = ':' && !inside then ([], some rest)
      else
        let (host, port) := go (if c = '[' then true else if c = ']' then false else inside) rest
        (c :: host, port)
  go false text

/-- The port of a scheme; the default port is left out. -/
def readPort (scheme : String) : Option (List Char) → Except Flaw (Option Nat)
  | none => .ok none
  | some digits =>
    if digits.isEmpty then .ok none
    else if !digits.all Char.isDigit then .error .invalidPort
    else
      let n := digits.foldl (fun n c => 10 * n + (c.toNat - 48)) 0
      if 65535 < n then .error .invalidPort
      else .ok (if defaultPort? scheme = some n then none else some n)

/-- User name and password, split at the first colon. -/
def readUser (text : List Char) : String × String :=
  let name := text.takeWhile (· ≠ ':')
  (String.ofList name, String.ofList (text.drop (name.length + 1)))

/-! ### Paths -/

/-- Whether a segment is one dot, perhaps escaped. -/
def isDot (segment : List Char) : Bool :=
  String.ofList (segment.map Char.toLower) ∈ [".", "%2e"]

/-- Whether a segment is two dots, perhaps escaped. -/
def isDoubleDot (segment : List Char) : Bool :=
  String.ofList (segment.map Char.toLower) ∈ ["..", ".%2e", "%2e.", "%2e%2e"]

/-- Appends segments to a path, given in reverse, and resolves the dots. A dot at the end leaves an
empty segment. -/
def resolveDots (path : List (List Char)) : List (List Char) → List (List Char)
  | [] => path
  | [last] =>
    if isDoubleDot last then [] :: path.tail
    else if isDot last then [] :: path
    else last :: path
  | segment :: rest =>
    if isDoubleDot segment then resolveDots path.tail rest
    else if isDot segment then resolveDots path rest
    else resolveDots (segment :: path) rest

/-- The segments of a path. -/
def segments (special : Bool) (path : List Char) : List (List Char) :=
  Text.splitOnChar '/' (if special then path.map fun c => if c = '\\' then '/' else c else path)

/-- The segments as a path. -/
def pathText (reversed : List (List Char)) : String :=
  String.ofList (reversed.reverse.flatMap fun s => '/' :: Percent.encodeChars Percent.inPath s)

/-- A path under a base path, whose segments are given in reverse. -/
def readPath (base : List (List Char)) (special : Bool) (path : List Char) : String :=
  pathText (resolveDots base (segments special path))

/-- Path, query and fragment of what follows the authority. -/
def splitTail (text : List Char) : List Char × Option (List Char) × Option (List Char) :=
  let body := text.takeWhile (· ≠ '#')
  let fragment := if '#' ∈ text then some (text.drop (body.length + 1)) else none
  let path := body.takeWhile (· ≠ '?')
  let query := if '?' ∈ body then some (body.drop (path.length + 1)) else none
  (path, query, fragment)

/-- A query as it is written. -/
def readQuery (query : Option (List Char)) : Option String :=
  query.map fun q => String.ofList (Percent.encodeChars Percent.inQuery q)

/-- A fragment as it is written. -/
def readFragment (fragment : Option (List Char)) : Option String :=
  fragment.map fun f => String.ofList (Percent.encodeChars Percent.inFragment f)

/-! ### Whole URLs -/

/-- A text without blanks at both ends and without line breaks and tabs. -/
def cleaned (text : String) : List Char :=
  let edge (c : Char) : Bool := c.toNat ≤ 0x20
  (Text.trimEndList edge (Text.trimStartList edge text.toList)).filter fun c =>
    c ≠ '\t' && c ≠ '\n' && c ≠ '\r'

/-- The scheme in lower case, and the text after its colon. -/
def splitScheme (text : List Char) : Option (String × List Char) :=
  let name := text.takeWhile fun c => c.isAlphanum || c = '+' || c = '-' || c = '.'
  match name, text.drop name.length with
  | c :: _, ':' :: rest =>
    if c.isAlpha then some (String.ofList (name.map Char.toLower), rest) else none
  | _, _ => none

/-- What follows the slashes of a special URL. -/
def readAuthority (scheme : String) (text : List Char) : Except Flaw Url := do
  let authority := text.takeWhile (! endsAuthority true ·)
  let tail := text.drop authority.length
  let (username, password, place) ←
    match splitUser authority with
    | none => pure ("", "", authority)
    | some (user, place) =>
      if place.isEmpty then throw Flaw.emptyHost
      else
        let (name, secret) := readUser user
        pure (name, secret, place)
  let (rawHost, rawPort) := splitPort place
  if rawHost.isEmpty then throw Flaw.emptyHost
  let host ← readHost rawHost
  -- a backslash does not end an authority here, but it ends the digits of a port
  let port ← readPort scheme rawPort
  let (path, query, fragment) := splitTail tail
  -- the first slash is no part of a directory
  let inner :=
    match path with
    | '/' :: rest => rest
    | '\\' :: rest => rest
    | rest => rest
  return ⟨scheme, username, password, host, port, readPath [] true inner, readQuery query,
    readFragment fragment⟩

/-- What follows the slashes of a URL whose scheme is not special. Without a host there is neither a
port nor a user. -/
def readOpaque (scheme : String) (text : List Char) : Except Flaw Url := do
  let authority := text.takeWhile (! endsAuthority false ·)
  let tail := text.drop authority.length
  let (user, place) := (splitUser authority).getD ([], authority)
  let (rawHost, rawPort) := splitPort place
  let host ← readOpaqueHost rawHost
  let named := user ≠ [] && user ≠ [':']
  let cutOff := authority = ['@'] && !tail.isEmpty
  if rawHost.isEmpty && (rawPort.isSome || named || cutOff) then throw Flaw.emptyHost
  let port ← readPort scheme (rawPort.map fun digits => digits.takeWhile (· ≠ '\\'))
  let (name, secret) := readUser user
  let (path, query, fragment) := splitTail tail
  return ⟨scheme, name, secret, host, port, String.ofList path, readQuery query,
    readFragment fragment⟩

/-- A URL whose scheme is not special: what is not needed of its path is left as it is. -/
def readOther (scheme : String) (text : List Char) : Except Flaw Url :=
  match text with
  | '/' :: '/' :: rest => readOpaque scheme rest
  | _ =>
    let (path, query, fragment) := splitTail text
    .ok ⟨scheme, "", "", "", none, String.ofList path, readQuery query, readFragment fragment⟩

/-- Whether a character is a slash of either kind. -/
def isSlash (c : Char) : Bool := c = '/' || c = '\\'

/-- Whether a text is the letter of a drive. -/
def isDrive : List Char → Bool
  | [letter, mark] => letter.isAlpha && (mark = ':' || mark = '|')
  | _ => false

/-- The URL of a file. There may be a host after two slashes; a drive is none. -/
def readFile (text : List Char) : Except Flaw Url := do
  let place :=
    match text with
    | c :: d :: rest =>
      if isSlash c && isSlash d then rest.takeWhile (! endsAuthority true ·) else []
    | _ => []
  let host ← if place.isEmpty || isDrive place then pure "" else readHost place
  let (path, query, fragment) := splitTail text
  return ⟨"file", "", "", host, none, String.ofList path, readQuery query, readFragment fragment⟩

/-- The text after any slashes. -/
def afterSlashes (text : List Char) : List Char :=
  text.dropWhile fun c => c = '/' || c = '\\'

/-- **Reading an absolute URL.** -/
def ofText (text : String) : Except Flaw Url :=
  match splitScheme (cleaned text) with
  | none => .error .relativeWithoutBase
  | some (scheme, rest) =>
    if (defaultPort? scheme).isSome then readAuthority scheme (afterSlashes rest)
    else if scheme = "file" then readFile rest
    else readOther scheme rest

/-- The segments of a path in reverse, without the last one. -/
def directory (path : String) : List (List Char) :=
  ((Text.splitOnChar '/' path.toList).drop 1).reverse.tail

/-- **Reading a reference** relative to a URL. -/
def join (base : Url) (text : String) : Except Flaw Url :=
  let chars := cleaned text
  let relative (chars : List Char) : Except Flaw Url :=
    let (path, query, fragment) := splitTail chars
    let fragment := readFragment fragment
    match path with
    | [] =>
      if query.isSome then .ok { base with query := readQuery query, fragment := fragment }
      else .ok { base with fragment := fragment }
    | c :: rest =>
      if c = '/' || c = '\\' then
        match rest with
        | d :: _ =>
          if d = '/' || d = '\\' then readAuthority base.scheme (afterSlashes chars)
          else
            .ok { base with
              path := readPath [] true rest, query := readQuery query, fragment := fragment }
        | [] =>
          .ok { base with path := "/", query := readQuery query, fragment := fragment }
      else
        .ok { base with
          path := readPath (directory base.path) true (c :: rest)
          query := readQuery query
          fragment := fragment }
  -- a scheme of the same name without slashes behind it is no scheme at all
  match splitScheme chars with
  | none => relative chars
  | some (scheme, rest) =>
    if scheme = base.scheme && !(rest.head?.any fun c => c = '/' || c = '\\') then relative rest
    else ofText (String.ofList chars)

/-- The host with its port. -/
def authority (url : Url) : String :=
  match url.port with
  | none => url.host
  | some port => url.host ++ ":" ++ toString port

/-- The URL as it is sent: without user and fragment. -/
def target (url : Url) : String :=
  url.scheme ++ "://" ++ url.authority ++ url.path ++
    (match url.query with
      | none => ""
      | some q => "?" ++ q)

/-- The URL with its fragment. -/
def text (url : Url) : String :=
  url.target ++
    (match url.fragment with
      | none => ""
      | some f => "#" ++ f)

/-- The URL with pairs appended to its query. -/
def withPairs (url : Url) (pairs : List (String × String)) : Url :=
  match pairs with
  | [] => if url.query = some "" then { url with query := none } else url
  | _ =>
    let added := Percent.formEncode pairs
    match url.query with
    | none => { url with query := some added }
    | some "" => { url with query := some added }
    | some old => { url with query := some (old ++ "&" ++ added) }

end Url

end Http

end Scenario
