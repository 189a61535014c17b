import NzbNntp.Connection.Basic

/-! The pure helpers of `connection.rs`: message-ids and response parsers. -/

namespace NzbNntp

def normalizeMessageId (mid : String) : String :=
  if mid.toList.head? = some '<' ∧ mid.toList.getLast? = some '>' then mid
  else s!"<{mid}>"

inductive ArticleRange where
  | range (start stop : Nat)
  | messageId (mid : String)

def ArticleRange.toCommandArg : ArticleRange → String
  | .range start stop => s!"{start}-{stop}"
  | .messageId mid => normalizeMessageId mid

/-- The body of an article: what follows the first blank line. The arguments
are the bytes from the current index on. -/
def stripArticleHeaders : Bytes → Bytes
  | a :: b :: rest =>
      if a = cr ∧ b = lf then
        match rest with
        | c :: d :: body =>
            if c = cr ∧ d = lf then body else stripArticleHeaders (b :: rest)
        | _ => stripArticleHeaders (b :: rest)
      else if a = lf ∧ b = lf then rest
      else stripArticleHeaders (b :: rest)
  | _ => []

def parseXoverLine (line : String) : Option XoverEntry :=
  match Text.splitChar '\t' line with
  | number :: subject :: from_ :: date :: messageId :: references :: bytes :: lines :: _ =>
      some {
        articleNum := (Text.parseU64 number).getD 0
        subject, from_, date
        messageId := Text.trimAngles messageId
        references
        bytes := (Text.parseU64 bytes).getD 0
        lines := (Text.parseU64 (Text.trim lines)).getD 0 }
  | _ => none

def parseXoverData (data : Bytes) : List XoverEntry :=
  (Text.lines (Text.fromUtf8Lossy data)).filterMap parseXoverLine

def parseHeaderLine (line : String) : Option HeaderEntry :=
  let trimmed := (Text.trim line).toList
  let separator : Char → Bool := fun c => c = ' ' || c = '\t'
  -- `find` finds no separator in an empty line either.
  if trimmed.any separator then
    let number := String.ofList (trimmed.takeWhile fun c => !separator c)
    let value := Text.trimStartChars (trimmed.dropWhile fun c => !separator c)
    (Text.parseU64 number).map fun articleNum => { articleNum, value := .ofList value }
  else none

def parseHeaderData (data : Bytes) : List HeaderEntry :=
  (Text.lines (Text.fromUtf8Lossy data)).filterMap parseHeaderLine

def parseListActiveLine (line : String) : Option ListActiveEntry :=
  match Text.splitWhitespace (Text.trim line) with
  | name :: high :: low :: status :: _ =>
      some {
        name
        high := (Text.parseU64 high).getD 0
        low := (Text.parseU64 low).getD 0
        status }
  | _ => none

def parseListActiveData (data : Bytes) : List ListActiveEntry :=
  (Text.lines (Text.fromUtf8Lossy data)).filterMap parseListActiveLine

/-- The `211` branch of `group`. -/
def parseGroup (name message : String) : NntpResult GroupResponse :=
  match Text.splitWhitespace message with
  | count :: first :: last :: more =>
      .ok {
        count := (Text.parseU64 count).getD 0
        first := (Text.parseU64 first).getD 0
        last := (Text.parseU64 last).getD 0
        name := more.headD name }
  | _ => .error (.protocol s!"Malformed GROUP response: {message}")

structure Socks5Proxy where
  addr : String
  auth : Option (String × String)
  deriving DecidableEq

/-- `str::split_once(c)` on characters -/
def splitOnce (c : Char) (cs : List Char) : Option (List Char × List Char) :=
  if c ∈ cs then some (cs.takeWhile (· ≠ c), (cs.dropWhile (· ≠ c)).tail) else none

def splitAtLast (c : Char) (cs : List Char) : Option (List Char × List Char) :=
  (splitOnce c cs.reverse).map fun p => (p.2.reverse, p.1.reverse)

def parseSocks5Url (url : String) : Except String Socks5Proxy :=
  let scheme := "socks5://".toList
  if !scheme.isPrefixOf url.toList then
    .error s!"proxy URL must start with socks5://, got: {url}"
  else
    let rest := url.toList.drop scheme.length
    let proxy (auth : Option (String × String)) (hostPort : List Char) :=
      if hostPort.isEmpty then Except.error "proxy URL must contain host:port"
      else .ok { addr := String.ofList hostPort, auth : Socks5Proxy }
    match splitAtLast '@' rest with
    | none => proxy none rest
    | some (authPart, hostPart) =>
        match splitOnce ':' authPart with
        | none => .error "proxy auth must be username:password"
        | some (user, pass) => proxy (some (.ofList user, .ofList pass)) hostPart

def hexDigit (b : UInt8) : Option Nat :=
  if 48 ≤ b ∧ b ≤ 57 then some (b.toNat - 48)
  else if 97 ≤ b ∧ b ≤ 102 then some (b.toNat - 87)
  else if 65 ≤ b ∧ b ≤ 70 then some (b.toNat - 55)
  else none

/-- `u8::from_str_radix(_, 16)` on at most two bytes: a leading `+` is a sign. -/
def u8FromHex (chunk : Bytes) : Option UInt8 :=
  match chunk with
  | [a] => (hexDigit a).map UInt8.ofNat
  | [a, b] =>
      if a = 43 then (hexDigit b).map UInt8.ofNat
      else do return UInt8.ofNat (16 * (← hexDigit a) + (← hexDigit b))
  | _ => none

def hexPairs : Bytes → Option Bytes
  | [] => some []
  | [_] => none
  | a :: b :: rest => do
      let hex ← Text.fromUtf8 [a, b]
      return (← u8FromHex (Text.utf8 hex)) :: (← hexPairs rest)

/-- Parse a hex SHA-256 fingerprint (optional colons, any case) into 32 bytes. -/
def parseFingerprint (s : String) : Option Bytes :=
  let cleaned := String.ofList (s.toList.filter fun c => !Text.isWhitespace c && c ≠ ':')
  if (Text.utf8 cleaned).length ≠ 64 then none else hexPairs (Text.utf8 cleaned)

end NzbNntp
