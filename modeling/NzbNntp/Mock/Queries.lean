import NzbNntp.Mock.News
import NzbNntp.Pipeline.Content

/-!
The single calls of a client, answered by a session that has news. For each it is said what the
session answers, which the client then reads.
-/

namespace NzbNntp

open Interruptible Delimited Trimming

/-! ### Commands -/

/-- A verb: upper-case ASCII without a blank. -/
def Text.IsVerb (verb : String) : Prop :=
  verb.toList ≠ [] ∧ ∀ c ∈ verb.toList, isWhitespace c = false ∧ c.toNat < 128 ∧ c.toUpper = c

instance : DecidablePred Text.IsVerb := fun _ =>
  @instDecidableAnd _ _ _ (List.decidableBAll _ _)

def Text.IsVerb.word {verb : String} (h : Text.IsVerb verb) : Text.Word :=
  ⟨verb, h.1, fun c hc => (h.2 c hc).1⟩

section Commands

variable (config : MockConfig) (state : MockState) {verb : String}

theorem answerTo_verb (h : Text.IsVerb verb) :
    config.answerTo state verb = config.answer state verb [verb] := by
  have hsplit : Text.splitn 3 ' ' verb = [verb] := Text.splitn_singleton h.word
  rw [MockConfig.answerTo, hsplit, MockConfig.verb, List.headD_cons,
    Text.toUppercase_of_upper fun c hc => (h.2 c hc).2]

theorem answerTo_word (h : Text.IsVerb verb) (w : Text.Word) :
    config.answerTo state (verb ++ " " ++ w.text) = config.answer state verb [verb, w.text] := by
  have hsplit : Text.splitn 3 ' ' (verb ++ " " ++ w.text) = [verb, w.text] := by
    have hcons := Text.splitn_cons (n := 1) h.word w.text
    rw [Text.splitn_singleton] at hcons
    exact hcons
  rw [MockConfig.answerTo, hsplit, MockConfig.verb, List.headD_cons,
    Text.toUppercase_of_upper fun c hc => (h.2 c hc).2]

omit config state

theorem Text.IsVerb.command (h : Text.IsVerb verb) (w : Text.Word) :
    Phrase (verb ++ " " ++ w.text) :=
  .cons h.word ⟨w.bare, w.nonempty, w.lf_not_mem⟩

theorem Text.IsVerb.alone (h : Text.IsVerb verb) : Phrase verb :=
  ⟨h.word.bare, h.1, h.word.lf_not_mem⟩

/-- Brackets around an id make a word, and the same id. -/
theorem exists_word_bracketed (id : Text.Word) :
    ∃ w : Text.Word, w.text = s!"<{id.text}>" ∧
      Text.trimAngles w.text = Text.trimAngles id.text := by
  have htext : (s!"<{id.text}>").toList = '<' :: (id.text.toList ++ ['>']) := by simp
  refine ⟨⟨s!"<{id.text}>", by rw [htext]; simp, ?_⟩, rfl, ?_⟩
  · intro c hc
    rw [htext, List.mem_cons, List.mem_append, List.mem_singleton] at hc
    rcases hc with rfl | hc | rfl
    · decide
    · exact id.solid c hc
    · decide
  · simp only [Text.trimAngles, htext]
    rw [List.dropWhile_cons_of_pos (by decide)]
    exact congrArg String.ofList (trim_append_ends (by simp) id.text.toList)

theorem exists_word_normalized (id : Text.Word) :
    ∃ w : Text.Word, w.text = normalizeMessageId id.text ∧
      Text.trimAngles w.text = Text.trimAngles id.text := by
  rw [normalizeMessageId]
  split
  · exact ⟨id, rfl, rfl⟩
  · exact exists_word_bracketed id

end Commands

/-! ### Articles -/

section Queries

variable {config : MockConfig} {state : MockState} {w : World MockSession} {gz : GzDecoder}

/-- An id in a message of the session. -/
theorem message_id (front : String) {text : String} (hfront : '\n' ∉ front.toList)
    (htext : '\n' ∉ text.toList) : Message s!"{front}<{text}>" := by
  have hlist : (s!"{front}<{text}>").toList = front.toList ++ ('<' :: text.toList) ++ ['>'] := by
    simp
  constructor
  · rw [hlist]
    simp [hfront, htext]
  · rw [hlist, List.getLast?_concat]
    decide

theorem lf_not_mem_trimAngles (id : Text.Word) : '\n' ∉ (Text.trimAngles id.text).toList := by
  intro h
  apply id.lf_not_mem
  rw [Text.trimAngles, String.toList_ofList, List.mem_reverse] at h
  have h' := (List.dropWhile_sublist _).subset h
  exact (List.dropWhile_sublist _).subset (List.mem_reverse.mp h')

def articleWrites (text : String) (data : Bytes) : List Bytes :=
  Text.utf8 text :: MockConfig.writeMultilineBody data

/-- The writes for an article, or those of the refusal. -/
def MockConfig.tellArticle (config : MockConfig) (id : Text.Word) (found : Bytes → List Bytes) :
    List Bytes :=
  match config.articles.lookup (Text.trimAngles id.text) with
  | some data => found data
  | none => [Text.utf8 s!"430 No article: <{Text.trimAngles id.text}>\r\n"]

theorem articleAnswer_steady (hsteady : Steady config state) (id : Text.Word)
    (found : Bytes → List Bytes) :
    (config.articleAnswer state (Text.trimAngles id.text) fun data =>
      { state, writes := found data }) = { state, writes := config.tellArticle id found } := by
  rw [MockConfig.articleAnswer, hsteady.overrides, List.lookup_nil, MockConfig.tellArticle]
  dsimp only
  cases config.articles.lookup (Text.trimAngles id.text) with
  | some data => rfl
  | none => rfl

section Tokens

variable {id token : Text.Word} (htrim : Text.trimAngles token.text = Text.trimAngles id.text)
  (hsteady : Steady config state)

include htrim hsteady

theorem answerTo_article : config.answerTo state s!"ARTICLE {token.text}" =
    { state, writes := config.tellArticle id
        (articleWrites s!"220 0 <{Text.trimAngles id.text}>\r\n") } := by
  refine (answerTo_word config state (show Text.IsVerb "ARTICLE" by decide) token).trans ?_
  rw [← articleAnswer_steady hsteady]
  simp [MockConfig.answer, MockConfig.onArticle, MockConfig.authorized, MockConfig.requestedId,
    hsteady.authenticated, hsteady.sequences, htrim, articleWrites]

theorem answerTo_body : config.answerTo state s!"BODY {token.text}" =
    { state, writes := config.tellArticle id
        (articleWrites s!"222 0 <{Text.trimAngles id.text}>\r\n") } := by
  refine (answerTo_word config state (show Text.IsVerb "BODY" by decide) token).trans ?_
  rw [← articleAnswer_steady hsteady]
  simp [MockConfig.answer, MockConfig.onBody, MockConfig.authorized, MockConfig.requestedId,
    hsteady.authenticated, htrim, articleWrites]

theorem answerTo_stat : config.answerTo state s!"STAT {token.text}" =
    { state, writes := config.tellArticle id fun _ =>
        [Text.utf8 s!"223 0 <{Text.trimAngles id.text}>\r\n"] } := by
  refine (answerTo_word config state (show Text.IsVerb "STAT" by decide) token).trans ?_
  rw [← articleAnswer_steady hsteady]
  simp [MockConfig.answer, MockConfig.onStat, MockConfig.authorized, MockConfig.requestedId,
    MockConfig.reply, hsteady.authenticated, htrim]

end Tokens

/-- What is written to say that there is no such article. -/
theorem tellArticle_none {id : Text.Word} (found : Bytes → List Bytes)
    (h : config.articles.lookup (Text.trimAngles id.text) = none) :
    (config.tellArticle id found).flatten =
      statusBytes 430 s!"No article: <{Text.trimAngles id.text}>" := by
  rw [MockConfig.tellArticle, h]
  dsimp only
  rw [List.flatten_singleton]
  exact utf8_eq_statusBytes (by simp [threeDigits])

theorem tellArticle_some {id : Text.Word} {data : Bytes} (found : Bytes → List Bytes)
    (h : config.articles.lookup (Text.trimAngles id.text) = some data) :
    config.tellArticle id found = found data := by
  rw [MockConfig.tellArticle, h]

theorem flatten_articleWrites (code : Nat) {message text : String} (data : Bytes)
    (htext : text.toList = (threeDigits code ++ " " ++ message ++ "\r\n").toList) :
    (articleWrites text data).flatten =
      statusBytes code message ++ postedBytes (MockConfig.sentLines data) := by
  rw [articleWrites, List.flatten_cons, MockConfig.flatten_writeMultilineBody,
    utf8_eq_statusBytes htext]

/-- The exchange of one of the commands for an article, for one that the session has and for one
that it has not. -/
theorem wp_request_article {verb : String} (hverb : Text.IsVerb verb) (id : Text.Word)
    (hsteady : Steady config state) {code : Nat} (hcode : code ≤ 999) {rest : Bytes → Bytes}
    {found : Bytes → List Bytes}
    (hanswer : ∀ token : Text.Word, Text.trimAngles token.text = Text.trimAngles id.text →
      config.answerTo state s!"{verb} {token.text}" =
        { state, writes := config.tellArticle id found })
    (hfound : ∀ data, (found data).flatten =
      statusBytes code s!"0 <{Text.trimAngles id.text}>" ++ rest data)
    (h : Facing config state none .ready [] w) :
    wp (request s!"{verb} {normalizeMessageId id.text}")
      ⟨fun r w' =>
        (∃ data, config.articles.lookup (Text.trimAngles id.text) = some data ∧
          r = { code, message := s!"0 <{Text.trimAngles id.text}>" } ∧
          Facing config state none .busy (rest data) w') ∨
        (config.articles.lookup (Text.trimAngles id.text) = none ∧
          r = { code := 430, message := s!"No article: <{Text.trimAngles id.text}>" } ∧
          Facing config state none .busy [] w'),
        fun _ _ => False, fun _ => False⟩ w := by
  obtain ⟨token, htoken, htrim⟩ := exists_word_normalized id
  have hcmd : Phrase s!"{verb} {normalizeMessageId id.text}" := htoken ▸ hverb.command token
  have hanswerTo := hanswer token htrim
  rw [htoken] at hanswerTo
  have hlf := lf_not_mem_trimAngles id
  cases hlookup : config.articles.lookup (Text.trimAngles id.text) with
  | some data =>
      rw [tellArticle_some found hlookup] at hanswerTo
      refine wp_mono (wp_request_facing hcmd hsteady.faults hanswerTo
        (show AfterCommand.counts.reading = some none from rfl) hcode
        (message_id "0 " (by decide) hlf) (hfound data) h) ?_ (fun _ _ h => h) (fun _ h => h)
      rintro _ w' ⟨rfl, h'⟩
      exact .inl ⟨data, rfl, rfl, h'⟩
  | none =>
      have hwrites := (tellArticle_none found hlookup).trans (List.append_nil _).symm
      refine wp_mono (wp_request_facing hcmd hsteady.faults hanswerTo
        (show AfterCommand.counts.reading = some none from rfl) (by decide)
        (message_id "No article: " (by decide) hlf) hwrites h) ?_ (fun _ _ h => h) (fun _ h => h)
      rintro _ w' ⟨rfl, h'⟩
      exact .inr ⟨rfl, rfl, h'⟩

/-- A command of a call begins when the connection is ready. -/
theorem wp_ready_facing {α : Type} {operation : String} {x : Nntp MockSession α}
    {Q : Post NntpError (World MockSession) α} (h : Facing config state none .ready [] w)
    (hx : wp x Q w) : wp (requireReady operation >>= fun _ => x) Q w := by
  rw [wp_bind_of_ok (requireReady_of_ready h.status)]
  exact hx

theorem wp_returnReady_facing {α : Type} (a : α) {s : ConnectionState}
    (h : Facing config state none s [] w) :
    wp (returnReady a) (answers config (.ok a) state) w :=
  ⟨rfl, h.setState .ready⟩

theorem wp_failIn_facing {α : Type} (e : NntpError) {s : ConnectionState}
    (h : Facing config state none s [] w) :
    wp (failIn .ready e : Nntp MockSession α) (answers config (.error e) state) w :=
  ⟨rfl, h.setState .ready⟩

theorem lf_not_mem_sentLines {data line : Bytes} (h : line ∈ MockConfig.sentLines data) :
    lf ∉ line := by
  rw [MockConfig.sentLines] at h
  split at h
  · rw [List.mem_singleton.mp h]
    simp
  · exact not_mem_articleLines h

/-- The block of an article, after its status line. -/
theorem wp_article_block (data : Bytes) (status : NntpResponse)
    (h : Facing config state none .busy (postedBytes (MockConfig.sentLines data)) w) :
    wp (do
        let data ← orError (readMultilineBodyMaybeDecompress gz)
        returnReady { code := status.code, message := status.message, data := some data })
      (answers config (.ok (News.withData status (News.text data))) state) w := by
  rw [← List.append_nil (postedBytes _)] at h
  exact wp_gives_seq (wp_body_facing (fun _ => lf_not_mem_sentLines) h) fun w' h' =>
    wp_returnReady_facing _ h'

theorem tellsNews_article (id : Text.Word) (hsteady : Steady config state)
    (h : Facing config state none .ready [] w) : TellsNews gz config state (.article id) w := by
  refine ⟨state, hsteady, rfl, ?_⟩
  have hrequest := wp_request_article (show Text.IsVerb "ARTICLE" by decide) id hsteady (by decide)
    (fun _ htrim => answerTo_article htrim hsteady)
    (fun data => flatten_articleWrites 220 data (by simp [threeDigits])) h
  change wp (fetchArticle gz id.text) _ w
  rw [fetchArticle]
  refine wp_ready_facing h (wp_seq hrequest ?_ (fun _ _ h => h.elim) (fun _ h => h.elim))
  rintro _ w' (⟨data, hlookup, rfl, h'⟩ | ⟨hlookup, rfl, h'⟩)
  · rw [show ((config.news state).ask (.article id)).1 = .ok _ from News.lookup_of_some hlookup]
    exact wp_article_block data _ h'
  · rw [show ((config.news state).ask (.article id)).1 = .error _ from
      News.lookup_of_none hlookup]
    exact wp_failIn_facing _ h'

theorem tellsNews_body (id : Text.Word) (hsteady : Steady config state)
    (hcontent : ContentEnabled w) (h : Facing config state none .ready [] w) :
    TellsNews gz config state (.body id) w := by
  refine ⟨state, hsteady, rfl, ?_⟩
  have hrequest := wp_request_article (show Text.IsVerb "BODY" by decide) id hsteady (by decide)
    (fun _ htrim => answerTo_body htrim hsteady)
    (fun data => flatten_articleWrites 222 data (by simp [threeDigits])) h
  change wp (fetchBody gz id.text) _ w
  apply wp_congr ((hcontent.ungated gz).fetchBody id.text)
  rw [fetchBodyDirect]
  refine wp_ready_facing h (wp_seq hrequest ?_ (fun _ _ h => h.elim) (fun _ h => h.elim))
  rintro _ w' (⟨data, hlookup, rfl, h'⟩ | ⟨hlookup, rfl, h'⟩)
  · rw [show ((config.news state).ask (.body id)).1 = .ok _ from News.lookup_of_some hlookup]
    exact wp_article_block data _ h'
  · rw [show ((config.news state).ask (.body id)).1 = .error _ from News.lookup_of_none hlookup]
    exact wp_failIn_facing _ h'

theorem flatten_statWrites (id : Text.Word) :
    [Text.utf8 s!"223 0 <{Text.trimAngles id.text}>\r\n"].flatten =
      statusBytes 223 s!"0 <{Text.trimAngles id.text}>" := by
  rw [List.flatten_singleton]
  exact utf8_eq_statusBytes (by simp [threeDigits])

theorem tellsNews_stat (id : Text.Word) (hsteady : Steady config state)
    (hcontent : ContentEnabled w) (h : Facing config state none .ready [] w) :
    TellsNews gz config state (.stat id) w := by
  refine ⟨state, hsteady, rfl, ?_⟩
  have hrequest := wp_request_article (show Text.IsVerb "STAT" by decide) id hsteady (by decide)
    (fun _ htrim => answerTo_stat htrim hsteady)
    (fun _ => (flatten_statWrites id).trans (List.append_nil _).symm) h
  change wp (statArticle id.text) _ w
  apply wp_congr ((hcontent.ungated gz).statArticle id.text)
  rw [statArticleDirect]
  refine wp_ready_facing h (wp_seq hrequest ?_ (fun _ _ h => h.elim) (fun _ h => h.elim))
  rintro _ w' (⟨data, hlookup, rfl, h'⟩ | ⟨hlookup, rfl, h'⟩)
  · rw [show ((config.news state).ask (.stat id)).1 = .ok _ from News.lookup_of_some hlookup]
    exact wp_returnReady_facing _ h'
  · rw [show ((config.news state).ask (.stat id)).1 = .error _ from News.lookup_of_none hlookup]
    exact wp_failIn_facing _ h'

/-! ### Groups -/

theorem authorized_eq (hsteady : Steady config state) (answer : MockAnswer) :
    MockConfig.authorized state answer = answer := by
  rw [MockConfig.authorized, hsteady.authenticated]
  rfl

/-- A command that is answered with one line. -/
theorem wp_request_reply (code : Nat) {cmd text message : String} {state' : MockState}
    (hcmd : Phrase cmd) (hfaults : config.faults.Absent) (hcode : code ≤ 999)
    (hmessage : Message message)
    (hanswer : config.answerTo state cmd = MockConfig.reply state' text)
    (htext : text.toList = (threeDigits code ++ " " ++ message ++ "\r\n").toList)
    (h : Facing config state none .ready [] w) :
    wp (request cmd) (gives { code, message } (Facing config state' none .busy [])) w := by
  have hwrites : [Text.utf8 text].flatten = statusBytes code message ++ [] := by
    rw [List.flatten_singleton, List.append_nil, utf8_eq_statusBytes htext]
  exact wp_request_facing hcmd hfaults hanswer
    (show AfterCommand.counts.reading = some none from rfl) hcode hmessage hwrites h

theorem tellsNews_ping (hsteady : Steady config state)
    (h : Facing config state none .ready [] w) : TellsNews gz config state .ping w := by
  refine ⟨state, hsteady, rfl, ?_⟩
  have hverb : Text.IsVerb "DATE" := by decide
  have hanswer : config.answerTo state "DATE" =
      MockConfig.reply state "500 Unknown command: DATE\r\n" := by
    rw [answerTo_verb config state hverb]
    simp [MockConfig.answer]
  have hrequest := wp_request_reply 500 hverb.alone hsteady.faults (by decide)
    (show Message "Unknown command: DATE" from ⟨by decide, by decide⟩) hanswer (by decide) h
  change wp ping _ w
  rw [ping]
  exact wp_ready_facing h (wp_gives_seq hrequest fun w' h' => wp_returnReady_facing _ h')

theorem splitWhitespace_cons (word : Text.Word) (rest : String) :
    Text.splitWhitespace (word.text ++ " " ++ rest) = word.text :: Text.splitWhitespace rest := by
  have hsplit : (word.text ++ " " ++ rest).toList = word.text.toList ++ ([' '] ++ rest.toList) := by
    simp
  rw [Text.splitWhitespace, hsplit]
  exact Text.wordsFrom_word_gap word ⟨[' '], by simp, by simp⟩ rest.toList

/-- The client reads a group as the session writes it. -/
theorem parseGroup_written (count first last : UInt64) (name : Text.Word) :
    parseGroup name.text s!"{count.toNat} {first.toNat} {last.toNat} {name.text}" =
      .ok { count := count.toNat, first := first.toNat, last := last.toNat, name := name.text } := by
  have hwords : Text.splitWhitespace s!"{count.toNat} {first.toNat} {last.toNat} {name.text}" =
      [toString count.toNat, toString first.toNat, toString last.toNat, name.text] := by
    have hassoc : s!"{count.toNat} {first.toNat} {last.toNat} {name.text}" =
        toString count.toNat ++ " " ++ (toString first.toNat ++ " " ++
          (toString last.toNat ++ " " ++ name.text)) := by
      rw [← String.toList_inj]
      simp
    rw [hassoc]
    refine (splitWhitespace_cons (.number _) _).trans (congrArg _ ?_)
    refine (splitWhitespace_cons (.number _) _).trans (congrArg _ ?_)
    refine (splitWhitespace_cons (.number _) _).trans (congrArg _ ?_)
    exact Text.wordsFrom_word name
  rw [parseGroup, hwords]
  dsimp only
  rw [Text.parseU64_toString count.toNat_lt, Text.parseU64_toString first.toNat_lt,
    Text.parseU64_toString last.toNat_lt]
  rfl

theorem message_group (count first last : UInt64) (name : Text.Word) :
    Message s!"{count.toNat} {first.toNat} {last.toNat} {name.text}" := by
  have hlist : (s!"{count.toNat} {first.toNat} {last.toNat} {name.text}").toList =
      (toString count.toNat ++ " " ++ toString first.toNat ++ " " ++ toString last.toNat ++
        " ").toList ++ name.text.toList := by simp
  have hnumber : ∀ n : UInt64, '\n' ∉ (toString n.toNat).toList := fun n => oneLine_nat n.toNat
  constructor
  · rw [hlist]
    simp only [String.toList_append, List.mem_append, hnumber, name.lf_not_mem]
    decide
  · rw [hlist, List.getLast?_append_of_ne_nil _ name.nonempty]
    intro hlast
    exact absurd (name.solid _ (List.mem_of_getLast? hlast)) (by decide)

theorem tellsNews_group (name : Text.Word) (hsteady : Steady config state)
    (h : Facing config state none .ready [] w) : TellsNews gz config state (.group name) w := by
  have hverb : Text.IsVerb "GROUP" := by decide
  have hgroup : config.answer state "GROUP" ["GROUP", name.text] =
      config.onGroup state ["GROUP", name.text] := by
    simp [MockConfig.answer]
  cases hlookup : config.groups.lookup name.text with
  | some numbers =>
      obtain ⟨count, first, last⟩ := numbers
      have hanswer : config.answerTo state ("GROUP" ++ " " ++ name.text) =
          MockConfig.reply { state with selectedGroup := some name.text }
            s!"211 {count.toNat} {first.toNat} {last.toNat} {name.text}\r\n" := by
        rw [answerTo_word config state hverb name, hgroup, MockConfig.onGroup, authorized_eq hsteady]
        simp [hlookup]
      have hnews : (config.news state).ask (.group name) =
          (.ok { count := count.toNat, first := first.toNat, last := last.toNat, name := name.text },
            { config.news state with selected := some name.text }) := by
        simp only [News.ask, MockConfig.news, hlookup]
      refine ⟨{ state with selectedGroup := some name.text }, ?_, by rw [hnews]; rfl, ?_⟩
      · exact ⟨hsteady.faults, hsteady.overrides, hsteady.rawEntries, hsteady.entries,
          hsteady.authenticated, hsteady.sequences⟩
      · have hrequest := wp_request_reply 211 (hverb.command name) hsteady.faults (by decide)
          (message_group count first last name) hanswer (by simp [threeDigits]) h
        rw [hnews]
        change wp (group name.text) _ w
        rw [group]
        refine wp_ready_facing h (wp_gives_seq hrequest fun w' h' => ?_)
        dsimp only
        rw [parseGroup_written]
        exact ⟨rfl, h'.setState .ready⟩
  | none =>
      have hanswer : config.answerTo state ("GROUP" ++ " " ++ name.text) =
          MockConfig.reply state "411 No such group\r\n" := by
        rw [answerTo_word config state hverb name, hgroup, MockConfig.onGroup, authorized_eq hsteady]
        simp [hlookup]
      have hnews : (config.news state).ask (.group name) =
          (.error (.noSuchGroup name.text), config.news state) := by
        simp only [News.ask, MockConfig.news, hlookup]
      refine ⟨state, hsteady, by rw [hnews], ?_⟩
      have hrequest := wp_request_reply 411 (hverb.command name) hsteady.faults (by decide)
        (show Message "No such group" from ⟨by decide, by decide⟩) hanswer
        (by simp [threeDigits]) h
      rw [hnews]
      change wp (group name.text) _ w
      rw [group]
      exact wp_ready_facing h (wp_gives_seq hrequest fun w' h' => ⟨rfl, h'.setState .ready⟩)

/-! ### Overviews -/

/-- The argument of `XOVER` as a word. -/
theorem exists_word_range (start stop : Nat) :
    ∃ range : Text.Word, range.text = s!"{start}-{stop}" := by
  refine ⟨⟨s!"{start}-{stop}", by simp, ?_⟩, rfl⟩
  intro c hc
  have hlist : (s!"{start}-{stop}").toList =
      (toString start).toList ++ '-' :: (toString stop).toList := by simp
  rw [hlist, List.mem_append, List.mem_cons] at hc
  rcases hc with hc | rfl | hc
  · exact (Text.Word.number start).solid c hc
  · decide
  · exact (Text.Word.number stop).solid c hc

/-- Entries go out as the lines of a block do. -/
theorem flatten_entries {entries : List String} (h : ∀ entry ∈ entries, OverviewLine entry) :
    (MockConfig.entryWrites (entries.map Text.utf8) ++ [MockConfig.terminator]).flatten =
      postedBytes (entries.map Text.utf8) := by
  have hlines : (MockConfig.entryWrites (entries.map Text.utf8)).flatten =
      (entries.map Text.utf8).flatMap fun line => stuff line ++ crlf := by
    induction entries with
    | nil => rfl
    | cons entry entries ih =>
        have hdot : (Text.utf8 entry).head? ≠ some dot :=
          mt utf8_head_dot.mp (h entry (by simp)).dotless
        have hrest := ih fun e he => h e (by simp [he])
        rw [MockConfig.entryWrites] at hrest ⊢
        rw [List.map_cons, List.flatMap_cons, List.flatMap_cons, List.flatten_append, hrest, stuff,
          if_neg hdot]
        simp
  rw [List.flatten_append, hlines, postedBytes]
  simp [MockConfig.terminator]

/-- The client reads the entries off the block. -/
theorem parseXoverData_entries {entries : List String}
    (h : ∀ entry ∈ entries, OverviewLine entry) :
    parseXoverData (normalized (entries.map Text.utf8)) = entries.filterMap parseXoverLine := by
  have hlines : Text.lines (Text.fromUtf8Lossy (normalized (entries.map Text.utf8))) = entries := by
    induction entries with
    | nil => rfl
    | cons entry entries ih =>
        have hfree : lf ∉ Text.utf8 (entry ++ "\r") := by
          simp [Text.lf_mem_utf8, (h entry (by simp)).free]
        have hsplit : normalized ((entry :: entries).map Text.utf8) =
            Text.utf8 (entry ++ "\r") ++ lf :: normalized (entries.map Text.utf8) := by
          rw [Text.utf8_append, show Text.utf8 "\r" = [cr] by decide]
          simp [normalized]
        have htext : Text.lossyFrom [] (Text.utf8 (entry ++ "\r")) = entry.toList ++ ['\r'] := by
          have hlossy := Text.fromUtf8Lossy_utf8 (entry ++ "\r")
          rw [Text.fromUtf8Lossy, ← String.toList_inj, String.toList_ofList] at hlossy
          rw [hlossy]
          simp
        rw [hsplit, Text.lines_lossy_cons hfree, htext, Text.chopCr_concat, String.ofList_toList,
          ih fun e he => h e (by simp [he])]
  rw [parseXoverData, hlines]

/-- A range of which nothing is known. -/
theorem wp_xover_nothing {start stop code : Nat} {text message : String}
    (hcode : code = 420 ∨ code = 423) (hmessage : Message message) (hsteady : Steady config state)
    (hcmd : Phrase s!"XOVER {start}-{stop}")
    (hanswer : config.answerTo state s!"XOVER {start}-{stop}" = MockConfig.reply state text)
    (htext : text.toList = (threeDigits code ++ " " ++ message ++ "\r\n").toList)
    (h : Facing config state none .ready [] w) :
    wp (xover gz start stop) (answers config (.ok []) state) w := by
  have hfits : code ≤ 999 := by omega
  have hrequest := wp_request_reply code hcmd hsteady.faults hfits hmessage hanswer htext h
  rw [xover]
  refine wp_ready_facing h (wp_gives_seq hrequest fun w' h' => ?_)
  rcases hcode with rfl | rfl
  · exact wp_returnReady_facing _ h'
  · exact wp_returnReady_facing _ h'

theorem tellsNews_xover (start stop : Nat) (hsteady : Steady config state)
    (h : Facing config state none .ready [] w) :
    TellsNews gz config state (.xover start stop) w := by
  have hverb : Text.IsVerb "XOVER" := by decide
  obtain ⟨range, hrange⟩ := exists_word_range start stop
  have hcommand : "XOVER" ++ " " ++ range.text = s!"XOVER {start}-{stop}" := by
    rw [hrange, ← String.toList_inj]
    simp
  have hcmd : Phrase s!"XOVER {start}-{stop}" := hcommand ▸ hverb.command range
  have hon : config.answerTo state s!"XOVER {start}-{stop}" =
      config.onXover state ["XOVER", s!"{start}-{stop}"] := by
    rw [← hcommand, answerTo_word config state hverb range, ← hrange]
    simp [MockConfig.answer]
  rw [MockConfig.onXover, authorized_eq hsteady, hsteady.rawEntries] at hon
  simp only [List.getElem?_cons_succ, List.getElem?_cons_zero, List.isEmpty_nil, Bool.and_true,
    List.nil_append] at hon
  cases hselected : state.selectedGroup with
  | none =>
      have hnews : (config.news state).ask (.xover start stop) =
          (.error noNewsgroupSelected, config.news state) := by
        simp only [News.ask, MockConfig.news, hselected]
      refine ⟨state, hsteady, by rw [hnews], ?_⟩
      rw [hselected] at hon
      have hrequest := wp_request_reply 412 hcmd hsteady.faults (by decide)
        (show Message "No newsgroup selected" from ⟨by decide, by decide⟩) hon
        (by simp [threeDigits]) h
      rw [hnews]
      change wp (xover gz start stop) _ w
      rw [xover]
      exact wp_ready_facing h (wp_gives_seq hrequest fun w' h' => wp_failIn_facing _ h')
  | some name =>
      rw [hselected] at hon
      dsimp only at hon
      have hnews : ∀ entries, (config.news state).overview name start stop = entries →
          (config.news state).ask (.xover start stop) =
            (.ok (entries.filterMap parseXoverLine), config.news state) := by
        rintro _ rfl
        simp only [News.ask, show (config.news state).selected = some name from hselected]
      by_cases houtside : (config.xover423OutsideGroup &&
          MockConfig.xoverRangeOutsideGroup (some s!"{start}-{stop}")
            (config.groups.lookup name)) = true
      · rw [if_pos houtside] at hon
        have hnone := hnews [] (if_pos houtside)
        refine ⟨state, hsteady, by rw [hnone], ?_⟩
        rw [hnone]
        exact wp_xover_nothing (.inr rfl)
          (show Message "No articles in that range" from ⟨by decide, by decide⟩) hsteady hcmd hon
          (by simp [threeDigits]) h
      rw [if_neg houtside] at hon
      have hentries := hnews (MockConfig.entriesFor config.xoverEntriesByRange config.xoverEntries
        (some s!"{start}-{stop}")) (if_neg houtside)
      have hlines := hsteady.entries (some s!"{start}-{stop}")
      refine ⟨state, hsteady, by rw [hentries], ?_⟩
      rw [hentries]
      generalize MockConfig.entriesFor config.xoverEntriesByRange config.xoverEntries
        (some s!"{start}-{stop}") = entries at hon hlines
      cases hempty : entries.isEmpty with
      | true =>
          rw [hempty, if_pos rfl] at hon
          rw [List.isEmpty_iff.mp hempty]
          exact wp_xover_nothing (.inl rfl)
            (show Message "No articles in range" from ⟨by decide, by decide⟩) hsteady hcmd hon
            (by simp [threeDigits]) h
      | false =>
          rw [hempty, if_neg Bool.false_ne_true] at hon
          have hwrites : (Text.utf8 "224 Overview data follows\r\n" ::
              MockConfig.entryWrites (entries.map Text.utf8) ++ [MockConfig.terminator]).flatten =
              statusBytes 224 "Overview data follows" ++ postedBytes (entries.map Text.utf8) := by
            have hstatus : Text.utf8 "224 Overview data follows\r\n" =
                statusBytes 224 "Overview data follows" := utf8_eq_statusBytes (by decide)
            rw [List.cons_append, List.flatten_cons, flatten_entries hlines, hstatus]
          have hrequest := wp_request_facing hcmd hsteady.faults hon
            (show AfterCommand.counts.reading = some none from rfl) (by decide)
            (show Message "Overview data follows" from ⟨by decide, by decide⟩) hwrites h
          have hfree : ∀ line ∈ entries.map Text.utf8, lf ∉ line := by
            intro line hline
            obtain ⟨entry, hentry, rfl⟩ := List.mem_map.mp hline
            exact fun hlf => (hlines entry hentry).free (Text.lf_mem_utf8.mp hlf)
          change wp (xover gz start stop) _ w
          rw [xover]
          refine wp_ready_facing h (wp_gives_seq hrequest fun w₁ h₁ => ?_)
          rw [← List.append_nil (postedBytes _)] at h₁
          refine wp_gives_seq (wp_body_facing hfree h₁) fun w₂ h₂ => ?_
          rw [parseXoverData_entries hlines]
          exact wp_returnReady_facing _ h₂

/-! ### Postings -/

theorem wp_postWith_facing {lines : List Bytes} {writeLines : Nntp MockSession Unit}
    (hsends : Sends lines writeLines) (hfree : ∀ line ∈ lines, lf ∉ line)
    (hsteady : Steady config state) (h : Facing config state none .ready [] w) :
    ∃ state', Steady config state' ∧ config.news state' = ((config.news state).take lines).2 ∧
      wp (postWith writeLines) (answers config ((config.news state).take lines).1 state') w := by
  have hverb : Text.IsVerb "POST" := by decide
  have hon : config.answerTo state "POST" = config.onPost state := by
    rw [answerTo_verb config state hverb]
    simp [MockConfig.answer]
  rw [MockConfig.onPost, authorized_eq hsteady] at hon
  cases hpost : config.postNotPermitted with
  | true =>
      have hnews : (config.news state).take lines =
          (.ok { code := 440, message := "Posting not permitted" }, config.news state) := by
        simp [News.take, MockConfig.news, hpost]
      refine ⟨state, hsteady, by rw [hnews], ?_⟩
      rw [hpost, if_pos rfl] at hon
      have hrequest := wp_request_reply 440 hverb.alone hsteady.faults (by decide)
        (show Message "Posting not permitted" from ⟨by decide, by decide⟩) hon
        (by decide) h
      rw [hnews, postWith]
      exact wp_ready_facing h (wp_gives_seq hrequest fun w' h' => wp_returnReady_facing _ h')
  | false =>
      have hnews : (config.news state).take lines =
          (.ok { code := 240, message := "Article received OK" },
            config.news (state.received (normalized lines)).state) := by
        simp [News.take, MockConfig.news, hpost, MockState.received]
      refine ⟨(state.received (normalized lines)).state, ?_, by rw [hnews], ?_⟩
      · exact ⟨hsteady.faults, hsteady.overrides, hsteady.rawEntries, hsteady.entries,
          hsteady.authenticated, hsteady.sequences⟩
      rw [hpost, if_neg Bool.false_ne_true] at hon
      have hwrites : [Text.utf8 "340 Send article to be posted\r\n"].flatten =
          statusBytes 340 "Send article to be posted" ++ [] := by
        rw [List.flatten_singleton, List.append_nil]
        exact utf8_eq_statusBytes (by decide)
      have hreceived : (state.received (normalized lines)).writes.flatten =
          statusBytes 240 "Article received OK" ++ [] := by
        rw [MockState.received, List.flatten_singleton, List.append_nil]
        exact utf8_eq_statusBytes (by decide)
      have hrequest := wp_request_facing hverb.alone hsteady.faults hon
        (show AfterCommand.reads.reading = some (some []) from rfl) (by decide)
        (show Message "Send article to be posted" from ⟨by decide, by decide⟩) hwrites h
      rw [hnews, postWith]
      refine wp_ready_facing h (wp_gives_seq hrequest fun w₁ h₁ => ?_)
      have hlinked : requireTransport w₁ = .ok () w₁ := by
        obtain ⟨t, ht, -⟩ := h₁.linked
        show (if w₁.conn.transport.isNone then _ else _ : Nntp MockSession Unit) w₁ = _
        rw [ht]
        rfl
      change wp (sendArticle writeLines) _ w₁
      rw [sendArticle, wp_bind_of_ok hlinked, ← bind_assoc]
      refine wp_gives_seq (wp_article_facing hsends hfree hsteady.faults h₁) fun w₂ h₂ => ?_
      rw [hreceived] at h₂
      refine wp_gives_seq (wp_orError_gives (wp_statusLine_facing (by decide)
        (show Message "Article received OK" from ⟨by decide, by decide⟩) h₂)) fun w₃ h₃ => ?_
      exact wp_returnReady_facing _ h₃

end Queries

end NzbNntp
