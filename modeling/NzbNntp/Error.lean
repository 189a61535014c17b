import NzbNntp.Text

/-! Error types of the NNTP subsystem (`error.rs`). -/

namespace NzbNntp

/-- `std::io::ErrorKind`, as far as the crate itself names kinds; `other` is
any kind the operating system or the TLS layer reports. -/
inductive IoErrorKind where
  | timedOut
  | invalidData
  | other (kind : String)
  deriving DecidableEq

structure IoError where
  kind : IoErrorKind
  text : String
  deriving DecidableEq

inductive NntpError where
  | connection (text : String)
  | tls (text : String)
  | auth (text : String)
  | authRequired (text : String)
  | permissionDenied (text : String)
  | serviceUnavailable (text : String)
  | articleNotFound (text : String)
  | noSuchGroup (text : String)
  | noArticleSelected (text : String)
  | protocol (text : String)
  | unsupportedCommand (text : String)
  | responseTooLarge (text : String)
  | io (error : IoError)
  | noConnectionsAvailable (text : String)
  | timeout (text : String)
  | allServersExhausted (text : String)
  | shutdown
  deriving DecidableEq

abbrev NntpResult (α : Type) := Except NntpError α

/-- `Display for NntpError` -/
def NntpError.display : NntpError → String
  | .connection text => s!"Connection error: {text}"
  | .tls text => s!"TLS error: {text}"
  | .auth text => s!"Authentication failed: {text}"
  | .authRequired text => s!"Authentication required: {text}"
  | .permissionDenied text => s!"Permission denied: {text}"
  | .serviceUnavailable text => s!"Service unavailable: {text}"
  | .articleNotFound text => s!"Article not found: {text}"
  | .noSuchGroup text => s!"No such group: {text}"
  | .noArticleSelected text => s!"No article selected: {text}"
  | .protocol text => s!"Protocol error: {text}"
  | .unsupportedCommand text => s!"Unsupported command: {text}"
  | .responseTooLarge text => s!"Response too large: {text}"
  | .io error => s!"I/O error: {error.text}"
  | .noConnectionsAvailable text => s!"No connections available for server {text}"
  | .timeout text => s!"Timeout: {text}"
  | .allServersExhausted text => s!"All servers exhausted for article {text}"
  | .shutdown => "Downloader shut down"

def expiredSession (code : Nat) (message : String) : Bool :=
  let normalized := Text.toAsciiLowercase message
  code = 400 &&
    ((Text.contains normalized "idle" && Text.contains normalized "timeout") ||
      (Text.contains normalized "session" &&
        (Text.contains normalized "timeout" || Text.contains normalized "expired" ||
          Text.contains normalized "closed")))

def unexpectedArticleResponse (code : Nat) (message : String) : NntpError :=
  if expiredSession code message then
    .connection s!"NNTP session expired ({code}): {message}"
  else .protocol s!"Unexpected ARTICLE response {code}: {message}"

end NzbNntp
