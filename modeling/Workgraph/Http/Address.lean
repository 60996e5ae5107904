import Workgraph.Fault
/-!
# Addresses

The addresses of calls: a scheme, a host with perhaps user information and a port, a path, a query
and a fragment. Reading an address brings it into one form: scheme and host are in lower case, a
port that the scheme implies is left out, steps to the same or the upper folder are taken, and
characters that cannot stand for themselves are escaped by octets.
-/

namespace Workgraph.Http

/-- An address. A missing scheme, user information, host or path is empty. -/
structure Address where
  scheme : String
  userInfo : String
  host : String
  port : Option Nat
  path : String
  query : Option String
  fragment : Option String
deriving DecidableEq, Repr

/-- The most characters of an address. -/
def maxAddressLength : Nat := 65536

/-! ## Escaping -/

/-- The escape of an octet. -/
def escapeOctet (n : Nat) : List Char :=
  let digit (d : Nat) : Char := if d < 10 then Char.ofNat (48 + d) else Char.ofNat (55 + d)
  ['%', digit (n / 16), digit (n % 16)]

/-- The escapes of the octets of a character. -/
def escapeChar (c : Char) : List Char :=
  (String.singleton c).toUTF8.toList.flatMap fun b => escapeOctet b.toNat

/-- Whether a character is a digit of base sixteen. -/
def isHexDigit (c : Char) : Bool :=
  c.isDigit || ('a' ≤ c && c ≤ 'f') || ('A' ≤ c && c ≤ 'F')

/-- Escapes the characters that may not stand in a part. What is an escape already is kept. -/
def escapePart (allowed : Char → Bool) : List Char → List Char
  | '%' :: a :: b :: rest =>
    if isHexDigit a && isHexDigit b then '%' :: a :: b :: escapePart allowed rest
    else
      (if allowed '%' then ['%'] else escapeChar '%') ++ escapePart allowed (a :: b :: rest)
  | c :: rest => (if allowed c then [c] else escapeChar c) ++ escapePart allowed rest
  | [] => []

/-- Whether a character is visible and not one of a list. -/
def isVisibleBut (others : List Char) (c : Char) : Bool :=
  0x20 < c.toNat && c.toNat < 0x7F && !others.contains c

/-- The characters of queries. -/
def isQueryChar : Char → Bool := isVisibleBut ['"', '#', '<', '>']

/-- The characters of fragments. -/
def isFragmentChar : Char → Bool := isVisibleBut ['"', '<', '>', '`']

/-- The characters of paths. -/
def isPathChar : Char → Bool := isVisibleBut ['"', '#', '<', '>', '?', '`', '\x7b', '\x7d']

/-- The characters of user information. -/
def isUserChar (c : Char) : Bool :=
  isPathChar c && !(['/', ';', '=', '@', '[', '\\', ']', '^', '|'].contains c)

/-- The characters of names of hosts. -/
def isHostChar (c : Char) : Bool :=
  c.isAlphanum || (c.toNat < 128 && "-._~!$&'()*+,;=\"`\x7b\x7d%|\\".toList.contains c)

/-! ## Hosts and ports -/

/-- Whether a text looks like four numbers: so many more runs of digits follow, each after one
character of any kind. -/
def looksNumeric : Nat → List Char → Bool
  | n, c :: d :: rest =>
    c.isDigit && (looksNumeric n (d :: rest) ||
      match n with
      | 0 => false
      | m + 1 => looksNumeric m rest)
  | n, [c] => n = 0 && c.isDigit
  | _, [] => false

/-- Whether a text is a number of an address of four numbers. -/
def isSmallNumber (s : String) : Bool :=
  let cs := s.toList
  !cs.isEmpty && cs.length ≤ 3 && cs.all Char.isDigit &&
    (cs.length = 1 || cs.head? ≠ some '0') && s.toNat?.getD 256 ≤ 255

/-- Whether a text is four numbers with points between them. -/
def isFourNumbers (s : String) : Bool :=
  let parts := s.splitOn "."
  parts.length = 4 && parts.all isSmallNumber

/-- The number of groups that texts between colons stand for; the last one may be four numbers. -/
def groupCount? : List String → Option Nat
  | [] => some 0
  | [last] =>
    if isFourNumbers last then some 2
    else if isGroup last then some 1
    else none
  | g :: rest => if isGroup g then (groupCount? rest).map (· + 1) else none
where
  /-- Whether a text is one to four digits of base sixteen. -/
  isGroup (g : String) : Bool := g ≠ "" && g.length ≤ 4 && g.toList.all isHexDigit

/-- Whether a text is eight groups with colons between them, of which one run may be left out. -/
def isEightGroups (s : String) : Bool :=
  let count (part : String) : Option Nat :=
    if part = "" then some 0 else groupCount? (part.splitOn ":")
  match s.splitOn "::" with
  | [all] => count all = some 8
  | [before, after] =>
    match count before, count after with
    | some m, some n => m + n ≤ 7 && !isFourNumbers ((before.splitOn ":").getLastD "")
    | _, _ => false
  | _ => false

/-- A host in its one form. -/
def readHost (host : String) : Except Defect String :=
  let cs := host.toList
  if host = "" then .ok ""
  else if looksNumeric 3 cs then
    if isFourNumbers host then .ok host
    else .error (.address ("Invalid IPv4 address: " ++ Text.quoted host))
  else if cs.head? = some '[' && cs.getLast? = some ']' then
    let inner := String.ofList (cs.drop 1).dropLast
    if isEightGroups ((inner.splitOn "%").headD "") then .ok inner
    else .error (.address ("Invalid IPv6 address: " ++ Text.quoted host))
  else if cs.all fun c => c.toNat < 128 then
    .ok (String.ofList (escapePart isHostChar (cs.map Char.toLower)))
  else .error (.address ("Invalid IDNA hostname: " ++ Text.quoted host))

/-- The port that a scheme implies. -/
def impliedPort? (scheme : String) : Option Nat :=
  match scheme with
  | "ftp" => some 21
  | "http" | "ws" => some 80
  | "https" | "wss" => some 443
  | _ => none

/-- A port, unless the scheme implies it. -/
def readPort (scheme port : String) : Except Defect (Option Nat) :=
  if port = "" then .ok none
  else
    match port.toNat? with
    | some n => .ok (if impliedPort? scheme = some n then none else some n)
    | none => .error (.address ("Invalid port: " ++ Text.quoted port))

/-! ## Paths -/

/-- Takes the steps to the same and to the upper folder; the steps before are given last first. -/
def takeSteps (before : List String) : List String → List String
  | [] => before.reverse
  | "." :: rest => takeSteps before rest
  | ".." :: rest => takeSteps (if before = [] ∨ before = [""] then before else before.tail) rest
  | step :: rest => takeSteps (step :: before) rest

/-- A path without steps to the same or the upper folder. -/
def normalPath (path : String) : String :=
  let steps := path.splitOn "/"
  if steps.contains "." || steps.contains ".." then "/".intercalate (takeSteps [] steps)
  else path

/-! ## Reading -/

/-- The parts of an address as they are written. -/
structure RawAddress where
  scheme : String
  authority : String
  path : String
  query : Option String
  fragment : Option String

/-- Cuts a text at the first character of a kind. The character belongs to neither part. -/
def cutAt (c : Char) (cs : List Char) : List Char × Option (List Char) :=
  match cs.dropWhile (· ≠ c) with
  | [] => (cs, none)
  | _ :: rest => (cs.takeWhile (· ≠ c), some rest)

/-- The scheme at the start of a text, and the rest after its colon. -/
def cutScheme (cs : List Char) : List Char × List Char :=
  let isPart (c : Char) : Bool := c.isAlphanum || c = '+' || c = '.' || c = '-'
  let name := cs.takeWhile isPart
  match cs.dropWhile isPart with
  | ':' :: rest => if name.isEmpty || (name.headD ':').isAlpha then (name, rest) else ([], cs)
  | _ => ([], cs)

/-- The parts of an address. -/
def RawAddress.ofText (text : String) : RawAddress :=
  let (scheme, cs) := cutScheme text.toList
  let (cs, fragment) := cutAt '#' cs
  let (cs, query) := cutAt '?' cs
  let (authority, path) := match cs with
    | '/' :: '/' :: rest => (rest.takeWhile (· ≠ '/'), rest.dropWhile (· ≠ '/'))
    | _ => ([], cs)
  ⟨String.ofList scheme, String.ofList authority, String.ofList path,
    query.map String.ofList, fragment.map String.ofList⟩

/-- The user information, host and port of an authority. -/
def cutAuthority (authority : String) : String × String × String :=
  let cs := authority.toList
  let back := cs.reverse
  let (user, place) :=
    if cs.contains '@' then
      (((back.dropWhile (· ≠ '@')).drop 1).reverse, (back.takeWhile (· ≠ '@')).reverse)
    else ([], cs)
  let bracketed := (place.reverse.dropWhile (· ≠ ']')).reverse
  let host :=
    if place.head? = some '[' && !bracketed.isEmpty then bracketed
    else place.takeWhile (· ≠ ':')
  let port := match place.drop host.length with
    | ':' :: rest => rest
    | rest => rest
  (String.ofList user, String.ofList host, String.ofList port)

/-- What is wrong with a path, if anything. -/
def pathFault? (hasScheme hasAuthority : Bool) (path : String) : Option String :=
  let cs := path.toList
  if hasAuthority then
    if path ≠ "" && cs.head? ≠ some '/' then
      some "For absolute URLs, path must be empty or begin with '/'"
    else none
  else if hasScheme then none
  else if ['/', '/'].isPrefixOf cs then
    some "Relative URLs cannot have a path starting with '//'"
  else if cs.head? = some ':' then some "Relative URLs cannot have a path starting with ':'"
  else none

/-- An address from its parts. -/
def RawAddress.read (raw : RawAddress) : Except Defect Address := do
  let (user, host, port) := cutAuthority raw.authority
  let user := String.ofList (escapePart isUserChar user.toList)
  let host ← readHost host
  let port ← readPort raw.scheme port
  let scheme := String.ofList (raw.scheme.toList.map Char.toLower)
  let hasScheme := scheme ≠ ""
  let hasAuthority := user ≠ "" || host ≠ "" || port.isSome
  if let some words := pathFault? hasScheme hasAuthority raw.path then throw (.address words)
  let path := if hasScheme || hasAuthority then normalPath raw.path else raw.path
  let part (allowed : Char → Bool) (s : String) : String :=
    String.ofList (escapePart allowed s.toList)
  return ⟨scheme, user, host, port, part isPathChar path, raw.query.map (part isQueryChar),
    raw.fragment.map (part isFragmentChar)⟩

/-- Whether a character cannot be printed and is ASCII. -/
def isControl (c : Char) : Bool := c.toNat < 0x20 || c.toNat = 0x7F

/-- The address that a text spells. -/
def Address.read (text : String) : Except Defect Address :=
  let cs := text.toList
  if cs.length > maxAddressLength then .error (.address "URL too long")
  else
    match cs.find? isControl with
    | some c =>
      .error (.address ("Invalid non-printable ASCII character in URL, " ++
        Text.quoted (String.singleton c) ++ " at position " ++
        digitsText (cs.takeWhile (· ≠ c)).length ++ "."))
    | none => (RawAddress.ofText text).read

/-! ## Writing -/

namespace Address

/-- The host with its port. -/
def place (a : Address) : String :=
  (if a.host.toList.contains ':' then "[" ++ a.host ++ "]" else a.host) ++
    (a.port.elim "" fun n => ":" ++ digitsText n)

/-- The text of an address. -/
def text (a : Address) : String :=
  let authority := (if a.userInfo = "" then "" else a.userInfo ++ "@") ++ a.place
  (if a.scheme = "" then "" else a.scheme ++ ":") ++
    (if authority = "" then "" else "//" ++ authority) ++ a.path ++
    (a.query.elim "" ("?" ++ ·)) ++ (a.fragment.elim "" ("#" ++ ·))

/-- Whether an address says by itself where to call. -/
def isAbsolute (a : Address) : Bool := a.scheme ≠ "" && a.host ≠ ""

/-- The address that is called for an address without scheme or host: only its path and query are
left. -/
def detached (a : Address) : Except Defect Address :=
  let path := "/" ++ String.ofList (a.path.toList.dropWhile (· = '/'))
  RawAddress.read ⟨"", "", path, a.query, none⟩

/-- The steps that a relative path leads through from a path. Empty steps between others are left
out. -/
def stepsFrom (base path : String) : List String :=
  let folder := base.splitOn "/"
  let folder := if folder.getLast? = some "" then folder else folder.dropLast
  match folder ++ path.splitOn "/" with
  | [] => []
  | first :: rest => first :: rest.dropLast.filter (· ≠ "") ++ rest.getLast?.toList

/-- The path that a path leads to from another. -/
def joinPaths (base path : String) : String :=
  let steps := if path.toList.head? = some '/' then path.splitOn "/" else stepsFrom base path
  let take (taken : List String) (step : String) : List String :=
    if step = ".." then taken.dropLast else if step = "." then taken else taken ++ [step]
  let taken := steps.foldl take []
  let last := steps.getLastD ""
  let joined := "/".intercalate (if last = "." ∨ last = ".." then taken ++ [""] else taken)
  if joined.toList.head? = some '/' then joined else "/" ++ joined

/-- The address that an address without scheme or host leads to from another. -/
def join (base a : Address) : Address :=
  let shown (s : Option String) : Option String := if s = some "" then none else s
  if a.scheme ≠ "" && a.scheme ≠ base.scheme then a
  else if a.host ≠ "" then { a with scheme := base.scheme }
  else
    let query := shown a.query
    let (path, query) :=
      if a.path = "" then (base.path, if query.isSome then query else shown base.query)
      else (joinPaths base.path a.path, query)
    { base with path, query, fragment := shown a.fragment }

end Address

end Workgraph.Http
