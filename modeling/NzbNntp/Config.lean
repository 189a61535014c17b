import NzbNntp.Text

/-! Server and article configuration (`config.rs`). -/

namespace NzbNntp

structure ServerConfig where
  id : String := ""
  name : String := ""
  host : String := ""
  port : Nat := 563
  ssl : Bool := true
  sslVerify : Bool := true
  username : Option String := none
  password : Option String := none
  connections : Nat := 8
  priority : Nat := 0
  enabled : Bool := true
  compress : Bool := false
  rampUpDelayMs : Nat := 50
  proxyUrl : Option String := none
  trustedFingerprint : Option String := none
  connectTimeoutSecs : Nat := 30
  deriving DecidableEq

structure Article where
  messageId : String
  segmentNumber : Nat := 1
  bytes : Nat := 0
  downloaded : Bool := false
  dataBegin : Option Nat := none
  dataSize : Option Nat := none
  crc32 : Option Nat := none
  triedServers : List String := []
  tries : Nat := 0
  deriving DecidableEq

end NzbNntp
