import NzbNntp.Text

/-! Server capability detection (`capabilities.rs`). -/

namespace NzbNntp

structure NntpCapabilities where
  version : Option String := none
  implementation : Option String := none
  reader : Bool := false
  post : Bool := false
  ihave : Bool := false
  newnews : Bool := false
  hdr : Bool := false
  over_ : Bool := false
  overMsgid : Bool := false
  listKeywords : List String := []
  modeReaderRequired : Bool := false
  compress : Bool := false
  other : List String := []
  haveBody : Bool := false
  haveStat : Bool := false
  haveArticle : Bool := false
  haveHead : Bool := false
  probed : Bool := false
  deriving DecidableEq

namespace NntpCapabilities

def defaultAssumed : NntpCapabilities :=
  { haveArticle := true, haveBody := true, haveHead := true, haveStat := true,
    reader := true, probed := false }

def withContentCommands (caps : NntpCapabilities) (available : Bool) : NntpCapabilities :=
  { caps with
    haveArticle := available, haveBody := available,
    haveHead := available, haveStat := available }

def parseLine (caps : NntpCapabilities) (rawLine : String) : NntpCapabilities :=
  let line := Text.trim rawLine
  match Text.splitWhitespace line with
  | [] => caps
  | label :: args =>
      match Text.toAsciiUppercase label with
      | "VERSION" => { caps with version := args.head? }
      | "IMPLEMENTATION" => { caps with implementation := some (" ".intercalate args) }
      | "READER" => { caps with reader := true }
      | "POST" => { caps with post := true }
      | "IHAVE" => { caps with ihave := true }
      | "NEWNEWS" => { caps with newnews := true }
      | "HDR" => { caps with hdr := true }
      | "OVER" =>
          { caps with
            over_ := true
            overMsgid := args.any fun a => Text.eqIgnoreAsciiCase a "MSGID" }
      | "LIST" => { caps with listKeywords := args.map Text.toAsciiUppercase }
      | "MODE-READER" => { caps with modeReaderRequired := true }
      | "COMPRESS" | "XFEATURE-COMPRESS" => { caps with compress := true }
      | _ => { caps with other := caps.other ++ [line] }

def derive (caps : NntpCapabilities) : NntpCapabilities :=
  let readerActive := caps.reader || caps.modeReaderRequired
  let caps := caps.withContentCommands readerActive
  if !readerActive && (caps.over_ || caps.hdr || caps.post || caps.ihave) then
    caps.withContentCommands true
  else caps

def parse (body : Bytes) : NntpCapabilities :=
  let text := (Text.fromUtf8 body).getD ""
  derive ((Text.lines text).foldl parseLine { probed := true })

structure HasContent (caps : NntpCapabilities) : Prop where
  article : caps.haveArticle = true
  body : caps.haveBody = true
  head : caps.haveHead = true
  stat : caps.haveStat = true

theorem hasContent_defaultAssumed : HasContent defaultAssumed := ⟨rfl, rfl, rfl, rfl⟩

theorem hasContent_withContentCommands (caps : NntpCapabilities) :
    HasContent (caps.withContentCommands true) := ⟨rfl, rfl, rfl, rfl⟩

/-- What is derived enables all of them or none. -/
theorem derive_uniform (caps : NntpCapabilities) :
    ∃ available, (derive caps).withContentCommands available = derive caps := by
  unfold derive
  dsimp only
  split
  · exact ⟨true, rfl⟩
  · exact ⟨_, rfl⟩

end NntpCapabilities

end NzbNntp
