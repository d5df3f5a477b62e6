import HostRoster.Json.Reader

/-!
# Absolute URLs

Whether a text is an absolute URL, by the rules of the URL Standard. A scheme comes
first. The schemes of the web need a host, which is a domain, or an address of version
four or six; other schemes may go without one.
-/
namespace HostRoster.Url

/-- The text without surrounding controls and spaces, and without tabs and line ends. -/
def clean (text : List Char) : List Char :=
  let trimmed := ((text.dropWhile (· ≤ ' ')).reverse.dropWhile (· ≤ ' ')).reverse
  trimmed.filter fun c => c ≠ '\t' ∧ c ≠ '\n' ∧ c ≠ '\r'

/-- How the rest of a URL is read after its scheme. -/
inductive SchemeKind where
  | web
  | file
  | other
deriving DecidableEq, Repr

def SchemeKind.of (scheme : String) : SchemeKind :=
  if ["http", "https", "ws", "wss", "ftp"].contains scheme then .web
  else if scheme = "file" then .file
  else .other

/-- The scheme in lower case, and what comes after its colon. -/
def readScheme (text : List Char) : Option (String × List Char) := do
  let c :: _ := text | none
  let (scheme, rest) := text.span fun c => c.isAlphanum || c == '+' || c == '-' || c == '.'
  let ':' :: rest := rest | none
  if c.isAlpha then return (.ofList (scheme.map Char.toLower), rest) else none

/-- Whether a character ends the authority of a URL. -/
def endsAuthority (kind : SchemeKind) (c : Char) : Bool :=
  c == '/' || c == '?' || c == '#' || (kind != .other && c == '\\')

/-- A number of an address: hexadecimal or octal behind a mark, else decimal. -/
def addressNumber (text : List Char) : Option Nat :=
  let numeral (base : Nat) (digits : List Char) : Option Nat :=
    digits.foldlM (fun n c => (Json.hexValue c).bind fun d =>
      if d < base then some (base * n + d) else none) 0
  match text with
  | [] => none
  | '0' :: 'x' :: digits => numeral 16 digits
  | '0' :: 'X' :: digits => numeral 16 digits
  | '0' :: d :: digits => numeral 8 (d :: digits)
  | digits => numeral 10 digits

def splitDots : List Char → List (List Char)
  | [] => [[]]
  | c :: rest =>
    if c = '.' then [] :: splitDots rest
    else
      match splitDots rest with
      | part :: parts => (c :: part) :: parts
      | [] => [[c]]

/-- The parts of a domain, without an empty last one. -/
def domainParts (domain : List Char) : List (List Char) :=
  let parts := splitDots domain
  if parts.getLast? = some [] then parts.dropLast else parts

/-- Whether a domain has to be an address, since its last part is a number. -/
def endsInNumber (domain : List Char) : Bool :=
  (domainParts domain).getLast?.any fun last =>
    !last.isEmpty && (last.all Char.isDigit || (addressNumber last).isSome)

/-- Whether up to four numbers make an address: the last one fills the bytes that the
others leave. -/
def isAddress4 (domain : List Char) : Bool :=
  match (domainParts domain).mapM addressNumber with
  | none => false
  | some numbers =>
    numbers.length ≤ 4 && numbers.dropLast.all (· ≤ 255) &&
      numbers.getLast?.any (· < Nat.pow 256 (5 - numbers.length))

/-- Whether a text spells four decimal bytes without leading zeros. -/
def isDottedQuad (text : List Char) : Bool :=
  let parts := splitDots text
  parts.length == 4 && parts.all fun p =>
    !p.isEmpty && p.length ≤ 3 && p.all Char.isDigit && (p.length == 1 || p.head? != some '0') &&
      p.foldl (fun n c => 10 * n + (c.toNat - '0'.toNat)) 0 ≤ 255

/-- Counts the groups of an address of version six. Two colons stand once for groups that
are left out; four decimal bytes at the end make two groups. -/
def addressGroups : Nat → List Char → Nat → Bool → Option (Nat × Bool)
  | 0, _, _, _ => none
  | fuel + 1, text, count, shortened =>
    let (digits, rest) := text.span fun c => (Json.hexValue c).isSome
    match rest with
    | '.' :: _ => if isDottedQuad text then some (count + 2, shortened) else none
    | _ =>
      if digits.isEmpty ∨ digits.length > 4 then none
      else
        match rest with
        | [] => some (count + 1, shortened)
        | [':', ':'] => if shortened then none else some (count + 1, true)
        | ':' :: ':' :: rest =>
          if shortened then none else addressGroups fuel rest (count + 1) true
        | ':' :: rest => addressGroups fuel rest (count + 1) shortened
        | _ => none

def isAddress6 (text : List Char) : Bool :=
  let groups := match text with
    | [':', ':'] => some (0, true)
    | ':' :: ':' :: rest => addressGroups (rest.length + 1) rest 0 true
    | _ => addressGroups (text.length + 1) text 0 false
  groups.any fun g => if g.2 then g.1 < 8 else g.1 == 8

/-- The bytes that a text stands for; an escape that is not complete stands for itself. -/
def percentDecode : List UInt8 → List UInt8
  | a :: b :: c :: rest =>
    match Json.hexValue (.ofNat b.toNat), Json.hexValue (.ofNat c.toNat) with
    | some high, some low =>
      if a = 0x25 then .ofNat (16 * high + low) :: percentDecode rest
      else a :: percentDecode (b :: c :: rest)
    | _, _ => a :: percentDecode (b :: c :: rest)
  | bytes => bytes

/-- What a character of a domain counts as: nothing, or a simpler character. -/
def foldDomainChar (c : Char) : List Char :=
  let n := c.toNat
  if n == 0xAD || n == 0x200B || n == 0x2060 || n == 0x2064 || n == 0xFEFF ||
      (0xFE00 ≤ n && n ≤ 0xFE0F) then []
  else if n == 0x3002 || n == 0xFF0E || n == 0xFF61 then ['.']
  else if 0xFF01 ≤ n && n ≤ 0xFF5E then [(Char.ofNat (n - 0xFEE0)).toLower]
  else [c.toLower]

def isForbidden (c : Char) : Bool :=
  c ≤ ' ' || c == '\x7f' || "#/:<>?@[\\]^|%".contains c

/-- Whether a text may stand as the host of a web scheme. -/
def isWebHost (text : List Char) : Bool :=
  match text with
  | '[' :: rest => rest.getLast? == some ']' && isAddress6 rest.dropLast
  | _ =>
    let bytes := percentDecode (String.ofList text).toUTF8.toList
    match String.fromUTF8? (ByteArray.mk bytes.toArray) with
    | none => false
    | some decoded =>
      let domain := decoded.toList.flatMap foldDomainChar
      !domain.isEmpty && !domain.any isForbidden && (!endsInNumber domain || isAddress4 domain)

/-- Whether a text may stand as the host of any other scheme. -/
def isOpaqueHost (text : List Char) : Bool :=
  match text with
  | '[' :: rest => rest.getLast? == some ']' && isAddress6 rest.dropLast
  | _ => !text.any fun c => c == '\x00' || " #/:<>?@[\\]^|".contains c

/-- The host of an authority and what comes after it. Colons count only outside of
brackets. -/
def spanHost (inBrackets : Bool) : List Char → List Char × List Char
  | [] => ([], [])
  | c :: rest =>
    if c = ':' ∧ !inBrackets then ([], c :: rest)
    else
      let (host, rest) := spanHost (if c = '[' then true else if c = ']' then false else inBrackets)
        rest
      (c :: host, rest)

/-- Whether what follows a host is nothing or a port. -/
def isPortPart (text : List Char) : Bool :=
  match text with
  | [] => true
  | ':' :: port =>
    let digits := port.takeWhile Char.isDigit
    (digits.length == port.length || port[digits.length]? == some '\\') &&
      digits.foldl (fun n c => 10 * n + (c.toNat - '0'.toNat)) 0 ≤ 65535
  | _ => false

/-- The part of an authority after its last at sign, and whether there is something
before it. -/
def dropUserInfo (text : List Char) : Option (Bool × List Char) :=
  let reversed := text.reverse
  let host := (reversed.takeWhile (· ≠ '@')).reverse
  if host.length = text.length then none else some (host.length + 1 < text.length, host)

/-- Whether a text is a valid authority: user information, host and port. -/
def isAuthority (kind : SchemeKind) (text : List Char) : Bool :=
  let (user, rest) := match dropUserInfo text with
    | some (user, rest) => (some user, rest)
    | none => (none, text)
  let (host, port) := spanHost false rest
  if user == some false && rest.isEmpty then false
  else if kind == .other then
    isOpaqueHost host && isPortPart port &&
      !(host.isEmpty && (!port.isEmpty || user == some true))
  else !host.isEmpty && isWebHost host && isPortPart port

/-- Whether a host of a file may stand for a drive. -/
def isDrive (host : List Char) : Bool :=
  match host with
  | [letter, mark] => letter.isAlpha && (mark == ':' || mark == '|')
  | _ => false

/-- Whether what follows the scheme of a file is valid. -/
def isFilePart (text : List Char) : Bool :=
  let slash (c : Char) : Bool := c == '/' || c == '\\'
  match text with
  | a :: b :: rest =>
    if slash a && slash b then
      let host := rest.takeWhile fun c => !endsAuthority .file c
      host.isEmpty || isDrive host || isWebHost host
    else true
  | _ => true

def isAbsolute (text : String) : Bool :=
  match readScheme (clean text.toList) with
  | none => false
  | some (scheme, rest) =>
    let authority (kind : SchemeKind) (text : List Char) : Bool :=
      isAuthority kind (text.takeWhile fun c => !endsAuthority kind c)
    match SchemeKind.of scheme with
    | .web => authority .web (rest.dropWhile fun c => c == '/' || c == '\\')
    | .file => isFilePart rest
    | .other =>
      match rest with
      | '/' :: '/' :: rest => authority .other rest
      | _ => true

end HostRoster.Url
