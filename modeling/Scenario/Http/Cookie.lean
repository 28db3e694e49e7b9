import Scenario.Clock
import Scenario.Http.Url
import Scenario.Text.Blank
import Scenario.Text.Integer

/-!
# Cookies

A server sets a cookie with a header; the client keeps it in a `Jar` and sends it back to the hosts
and paths it is meant for.

* `SetCookie.ofText?` reads the header.
* `Jar.store` keeps a cookie, unless its domain does not cover the host that sent it. A cookie that
  has expired takes the place of the old one and vanishes.
* `Jar.header?` is the header with the cookies for a URL.
-/

namespace Scenario

namespace Http

/-- A cookie as a server sets it. -/
structure SetCookie where
  name : String
  value : String
  domain : Option String := none
  path : Option String := none
  /-- Seconds until the cookie expires. -/
  maxAge : Option Nat := none
  expires : Option Instant := none
  secure : Bool := false
deriving DecidableEq, Repr

/-! ### Reading the header -/

/-- The months in their short form. -/
def monthNames : List String :=
  ["jan", "feb", "mar", "apr", "may", "jun", "jul", "aug", "sep", "oct", "nov", "dec"]

/-- The number of days before a day of a year and month, counted from the first day of 1970; the
inverse of the reading of days as dates. -/
def dayCount (year month day : Nat) : Nat :=
  let shifted := if month ≤ 2 then year - 1 else year
  let era := shifted / 400
  let yearOfEra := shifted % 400
  let ofYear := (153 * (if month ≤ 2 then month + 9 else month - 3) + 2) / 5 + day - 1
  era * 146097 + yearOfEra * 365 + yearOfEra / 4 - yearOfEra / 100 + ofYear - 719468

/-- Hours, minutes and seconds as seconds. -/
def clockSeconds? (text : String) : Option Nat :=
  match (Text.split ':' text).map fun part => Text.digitsValue? part.toList with
  | [some h, some m, some s] => if h < 24 && m < 60 && s < 61 then some (h * 3600 + m * 60 + s) else none
  | _ => none

/-- The full year of a year with two digits. -/
def fullYear (digits : String) (year : Nat) : Nat :=
  if digits.length = 2 then (if year < 70 then year + 2000 else year + 1900) else year

/-- The instant of a date with day, month, year and time of day. -/
def instantOf? (day month year time : String) : Option Instant := do
  let d ← Text.digitsValue? day.toList
  let m ← monthNames.findIdx? (· = Text.asciiLower month)
  let y ← Text.digitsValue? year.toList
  let seconds ← clockSeconds? time
  if 1 ≤ d && d ≤ 31 then some ((dayCount (fullYear year y) (m + 1) d * 86400 + seconds) * 1000)
  else none

/-- A date as it stands in a header. -/
def dateOfText? (text : String) : Option Instant :=
  let parts := (text.toList.splitBy fun a b => a ≠ ' ' && b ≠ ' ' && a ≠ '-' && b ≠ '-').filter
    fun part => part ≠ [' '] && part ≠ ['-']
  match parts.map String.ofList with
  | [_, day, month, year, time, "GMT"] => instantOf? day month year time
  | [_, month, day, time, year] => instantOf? day month year time
  | _ => none

/-- The seconds of a maximal age; a negative age has passed already. -/
def maxAgeOf? (text : String) : Option Nat :=
  match text.toList with
  | '-' :: digits => if digits.all Char.isDigit then some 0 else none
  | digits => if digits = [] then some (2 ^ 63 - 1) else Text.digitsValue? digits

/-- One attribute of a cookie. -/
def SetCookie.withAttribute (cookie : SetCookie) (part : String) : SetCookie :=
  match Text.splitOnce? '=' part with
  | none =>
    if Text.asciiLower (Text.trim part) = "secure" then { cookie with secure := true }
    else cookie
  | some (key, value) =>
    let value := Text.trim value
    match Text.asciiLower (Text.trim key) with
    | "secure" => { cookie with secure := true }
    | "max-age" =>
      match maxAgeOf? value with
      -- what cannot be read is passed over; it does not undo an attribute before it
      | some age => { cookie with maxAge := some age }
      | none => cookie
    | "domain" =>
      let domain := Text.asciiLower (String.ofList (value.toList.dropWhile (· = '.')))
      if domain = "" then cookie else { cookie with domain := some domain }
    | "path" => { cookie with path := some value }
    | "expires" =>
      match dateOfText? value with
      | some t => { cookie with expires := some t }
      | none => cookie
    | _ => cookie

/-- **Reading a header that sets a cookie.** The name must not be empty. -/
def SetCookie.ofText? (text : String) : Option SetCookie :=
  match Text.split ';' text with
  | [] => none
  | pair :: attributes =>
    match Text.splitOnce? '=' pair with
    | none => none
    | some (name, value) =>
      if Text.trim name = "" then none
      else some (attributes.foldl SetCookie.withAttribute
        { name := Text.trim name, value := Text.trim value })

/-! ### The jar -/

/-- A cookie in the jar. -/
structure Cookie where
  name : String
  value : String
  domain : String
  /-- Whether the cookie is meant for the host `domain` alone. -/
  hostOnly : Bool
  path : String
  expires : Option Instant
  secure : Bool
deriving DecidableEq, Repr

/-- The cookies of a client. -/
abbrev Jar := List Cookie

/-- Whether a host belongs to a domain. -/
def inDomain (domain host : String) : Bool :=
  domain = host ||
    (Text.startsWith ('.' :: domain.toList).reverse host.toList.reverse &&
      !Url.endsInNumber host.toList)

/-- The path of a cookie that names none: that of the URL up to its last slash. -/
def defaultPath (path : String) : String :=
  let upToSlash := (path.toList.reverse.dropWhile (· ≠ '/')).tail.reverse
  if upToSlash = [] then "/" else String.ofList upToSlash

/-- Whether a path lies under the path of a cookie. -/
def underPath (cookiePath path : String) : Bool :=
  cookiePath = path ||
    match Text.after? cookiePath.toList path.toList with
    | some rest => cookiePath.toList.getLast? = some '/' || rest.head? = some '/'
    | none => false

/-- Whether a cookie has expired. -/
def Cookie.isExpired (now : Instant) (cookie : Cookie) : Bool :=
  cookie.expires.any (· ≤ now)

/-- Whether a cookie is meant for a URL. -/
def Cookie.fits (url : Url) (cookie : Cookie) : Bool :=
  (if cookie.hostOnly then cookie.domain = url.host else inDomain cookie.domain url.host) &&
    underPath cookie.path url.path && (!cookie.secure || url.scheme = "https")

/-- The cookie that a server sets with an answer from a URL, if it may. -/
def SetCookie.from? (set : SetCookie) (url : Url) (now : Instant) : Option Cookie :=
  let path := match set.path with
    | some path => if path.toList.head? = some '/' then path else defaultPath url.path
    | none => defaultPath url.path
  let expires := match set.maxAge with
    | some age => some (if age = 0 then 0 else now + age * 1000)
    | none => set.expires
  match set.domain with
  | none => some ⟨set.name, set.value, url.host, true, path, expires, set.secure⟩
  | some domain =>
    if inDomain domain url.host then
      some ⟨set.name, set.value, domain, false, path, expires, set.secure⟩
    else none

/-- Whether two cookies stand for the same entry of a jar. -/
def Cookie.sameEntry (a b : Cookie) : Bool :=
  a.name = b.name && a.domain = b.domain && a.path = b.path

/-- **Keeping what an answer sets.** -/
def Jar.store (jar : Jar) (url : Url) (now : Instant) (header : String) : Jar :=
  match (SetCookie.ofText? header).bind fun set => set.from? url now with
  | none => jar
  | some cookie =>
    let others := jar.filter fun old => !old.sameEntry cookie
    if cookie.isExpired now then others else others ++ [cookie]

/-- **The cookies for a URL,** as the value of a header. -/
def Jar.header? (jar : Jar) (url : Url) (now : Instant) : Option String :=
  match jar.filter fun cookie => cookie.fits url && !cookie.isExpired now with
  | [] => none
  | cookies => some ("; ".intercalate (cookies.map fun c => c.name ++ "=" ++ c.value))

end Http

end Scenario
