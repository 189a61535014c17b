import NzbNntp.Library.Transducer
import NzbNntp.Mock.Batches
import NzbNntp.Mock.Login

/-!
Whole sessions. A client that has logged in asks one query after the other, and is told what a
client of the news themselves would be told.
-/

namespace NzbNntp

open Interruptible

/-! ### One query after the other -/

/-- A query with its result, which a caller has that waits for it. -/
structure Told where
  query : Query
  result : Option (NntpResult query.Result)

def World.tell {π : Type} [Peer π] (gz : GzDecoder) (w : World π) (q : Query) :
    World π × List Told :=
  ((q.run gz w).state, [{ query := q, result := (q.run gz w).result }])

def News.tell (news : News) (q : Query) : News × List Told :=
  ((news.ask q).2, [{ query := q, result := some (news.ask q).1 }])

def Query.op {π : Type} : Query → Op π
  | .article id => .call (.fetchArticle id.text)
  | .body id => .call (.fetchBody id.text)
  | .stat id => .call (.statArticle id.text)
  | .group name => .call (.group name.text)
  | .xover start stop => .call (.xover start stop)
  | .ping => .call .ping
  | .post data => .call (.postArticleBytes data)
  | .postText text => .call (.postArticle text)
  | .articles depth requests => .processAll (.submitted depth (requests.map request))
  | .stats ids => .execute { pending := ids.map (·.text) }

section Sessions

variable {mock : MockConfig} {state : MockState} {w : World MockSession} {gz : GzDecoder}

theorem Query.state_run (q : Query) (w : World MockSession) :
    (q.run gz w).state = q.op.run gz w := by
  cases q with
  | articles depth requests => exact Comp.state_withFst _ _ w
  | stats ids => exact Comp.state_withFst _ _ w
  | _ => rfl

/-- No query takes a command away. -/
theorem Query.keeps_content (q : Query) (h : ContentEnabled w) :
    ContentEnabled (q.run gz w).state := by
  rw [q.state_run]
  refine Op.keeps q.op ?_ ?_ (fun c => c.keeps_run fun _ _ _ => keeps_retireUnlessComplete) h
  · intro config dial hop
    cases q <;> cases hop
  · intro hop
    cases q <;> cases hop

theorem tellsNews (q : Query) (hsteady : Steady mock state) (hcontent : ContentEnabled w)
    (h : Facing mock state none .ready [] w) : TellsNews gz mock state q w := by
  cases q with
  | article id => exact tellsNews_article id hsteady h
  | body id => exact tellsNews_body id hsteady hcontent h
  | stat id => exact tellsNews_stat id hsteady hcontent h
  | group name => exact tellsNews_group name hsteady h
  | xover start stop => exact tellsNews_xover start stop hsteady h
  | ping => exact tellsNews_ping hsteady h
  | post data =>
      exact wp_postWith_facing (sends_postBytesLoop data) (fun _ h => not_mem_articleLines h)
        hsteady h
  | postText text =>
      refine wp_postWith_facing (sends_postLines (Text.lines text)) ?_ hsteady h
      intro line hline
      obtain ⟨l, hl, rfl⟩ := List.mem_map.mp hline
      exact fun hlf => Text.not_mem_lines hl (Text.lf_mem_utf8.mp hlf)
  | articles depth requests => exact tellsNews_articles depth requests hsteady h
  | stats ids => exact tellsNews_stats ids hsteady h

def HasNews (mock : MockConfig) (w : World MockSession) (news : News) : Prop :=
  ∃ state, Steady mock state ∧ mock.news state = news ∧ ContentEnabled w ∧
    Facing mock state none .ready [] w

/-- One query. -/
theorem HasNews.tell {news : News} (h : HasNews mock w news) (q : Query) :
    (w.tell gz q).2 = (news.tell q).2 ∧ HasNews mock (w.tell gz q).1 (news.tell q).1 := by
  obtain ⟨state, hsteady, rfl, hcontent, hfacing⟩ := h
  obtain ⟨state', hsteady', hnews, hrun⟩ := tellsNews q hsteady hcontent hfacing
  have hkept : ContentEnabled (q.run gz w).state := q.keeps_content hcontent
  rw [World.tell, News.tell]
  unfold wp at hrun
  cases hend : q.run gz w with
  | ok r w' =>
      rw [hend] at hrun hkept
      obtain ⟨hresult, hfacing'⟩ := hrun
      rw [hresult]
      exact ⟨rfl, state', hsteady', hnews, hkept, hfacing'⟩
  | err e w' =>
      rw [hend] at hrun hkept
      obtain ⟨hresult, hfacing'⟩ := hrun
      rw [hresult]
      exact ⟨rfl, state', hsteady', hnews, hkept, hfacing'⟩
  | dropped w' =>
      rw [hend] at hrun
      exact hrun.elim

theorem HasNews.result {news : News} (h : HasNews mock w news) (q : Query) :
    (q.run gz w).result = some (news.ask q).1 := by
  have htold : (w.tell gz q).2 = (news.tell q).2 := (h.tell q).1
  simpa [World.tell, News.tell] using htold

/-- Any number of queries. -/
theorem HasNews.run {news : News} (h : HasNews mock w news) (queries : List Query) :
    (Transducer.run (World.tell gz) w queries).2 = (Transducer.run News.tell news queries).2 ∧
      HasNews mock (Transducer.run (World.tell gz) w queries).1
        (Transducer.run News.tell news queries).1 :=
  Transducer.run_same (R := HasNews mock) (fun _ _ q h => h.tell q) h queries

/-! ### From the dial on -/

variable {config : ServerConfig} {dial : Dial MockSession}

/-- A client with any credentials is logged in, or told why it is not, as the server has
decided; the exchanges after a login leave nothing behind. -/
theorem connect_logs_in (hreaches : dial.Reaches config mock state)
    (hfaults : mock.faults.Absent) (hwelcomes : mock.Welcomes) (hlegible : config.Legible)
    (hcompress : config.compress = false) (hquiet : Quiet w) (hplain : Compresses false w) :
    let login := mock.login config (mock.opening state)
    (connect config dial w).result = some login.1 ∧
      ((connect config dial w).state.conn.state = .ready ↔ login.1 = .ok ()) ∧
      ∃ s, Facing mock login.2 none s [] (connect config dial w).state := by
  have hrun := wp_connect_facing hreaches hfaults hwelcomes hlegible hcompress hquiet hplain
  unfold wp at hrun
  dsimp only
  cases hend : connect config dial w with
  | ok _ w' =>
      rw [hend] at hrun
      obtain ⟨hlogin, hfacing⟩ := hrun
      rw [hlogin]
      exact ⟨rfl, iff_of_true hfacing.status rfl, .ready, hfacing⟩
  | err e w' =>
      rw [hend] at hrun
      obtain ⟨hlogin, s, hs, hfacing⟩ := hrun
      rw [hlogin]
      have hstate : ¬ w'.conn.state = .ready := fun h => hs (hfacing.status.symm.trans h)
      exact ⟨rfl, iff_of_false hstate (by simp), s, hfacing⟩
  | dropped w' =>
      rw [hend] at hrun
      exact hrun.elim

/-- A client that has been logged in has the news of the server before it. -/
theorem connect_hasNews (hreaches : dial.Reaches config mock state) (hwelcomes : mock.Welcomes)
    (hlegible : config.Legible) (hcompress : config.compress = false) (hquiet : Quiet w)
    (hplain : Compresses false w)
    (hlogin : (mock.login config (mock.opening state)).1 = .ok ())
    (hsteady : Steady mock (mock.login config (mock.opening state)).2) :
    ∃ w', connect config dial w = .ok () w' ∧
      HasNews mock w' (mock.news (mock.login config (mock.opening state)).2) := by
  have hrun := wp_and connect_content (wp_connect_facing hreaches hsteady.faults hwelcomes hlegible
    hcompress hquiet hplain)
  unfold wp at hrun
  cases hend : connect config dial w with
  | ok _ w' =>
      rw [hend] at hrun
      obtain ⟨hcontent, -, hfacing⟩ := hrun
      exact ⟨w', rfl, _, hsteady, rfl, hcontent, hfacing⟩
  | err e w' =>
      rw [hend] at hrun
      cases hlogin.symm.trans hrun.2.1
  | dropped w' =>
      rw [hend] at hrun
      exact hrun.2.elim

/-- A session from the dial to its last query: where the login succeeds, each query of the
client, whatever they are and in any order, is answered from the news of the server; in
the end nothing is left unread, and the server has what the queries have made of its news. -/
theorem session_tells_news (gz : GzDecoder) (hreaches : dial.Reaches config mock state)
    (hwelcomes : mock.Welcomes) (hlegible : config.Legible) (hcompress : config.compress = false)
    (hquiet : Quiet w) (hplain : Compresses false w)
    (hlogin : (mock.login config (mock.opening state)).1 = .ok ())
    (hsteady : Steady mock (mock.login config (mock.opening state)).2) (queries : List Query) :
    let news := mock.news (mock.login config (mock.opening state)).2
    ∃ w', connect config dial w = .ok () w' ∧
      (Transducer.run (World.tell gz) w' queries).2 = (Transducer.run News.tell news queries).2 ∧
      HasNews mock (Transducer.run (World.tell gz) w' queries).1
        (Transducer.run News.tell news queries).1 := by
  obtain ⟨w', hconnect, hnews⟩ :=
    connect_hasNews hreaches hwelcomes hlegible hcompress hquiet hplain hlogin hsteady
  exact ⟨w', hconnect, hnews.run queries⟩

end Sessions

/-! ### A reader with a password -/

def readerConfig : ServerConfig where
  ssl := false
  username := some "reader"
  password := some "secret"

def Dial.to (mock : MockConfig) : Dial MockSession where
  tcp := .ok ()
  serverName := .ok ()
  handshake := .ok ()
  peer := (MockSession.start mock { authenticated := false }).1
  greeting := (MockSession.start mock { authenticated := false }).2

theorem Dial.to_reaches (mock : MockConfig) {config : ServerConfig}
    (hproxy : proxyUrl config = none) (hplain : config.ssl = false) :
    (Dial.to mock).Reaches config mock { authenticated := false } where
  tcp := rfl
  proxy url hurl := by
    rw [hproxy] at hurl
    cases hurl
  plain := hplain
  session := rfl

theorem readerConfig_legible : readerConfig.Legible where
  username := by
    rintro _ ⟨⟩
    exact ⟨⟨by simp [Text.isWhitespace], by simp [Text.isWhitespace]⟩, by decide, by decide⟩
  password := by
    rintro _ ⟨⟩
    exact ⟨⟨by simp [Text.isWhitespace], by simp [Text.isWhitespace]⟩, by decide, by decide⟩

theorem oneArticleMock_welcomes : oneArticleMock.Welcomes :=
  ⟨rfl, .inl rfl, ⟨by decide, by decide⟩⟩

theorem oneArticleMock_steady :
    Steady oneArticleMock (oneArticleMock.login readerConfig
      (oneArticleMock.opening { authenticated := false })).2 where
  faults := ⟨rfl, rfl, rfl⟩
  overrides := rfl
  rawEntries := rfl
  entries := by
    intro argument entry hentry
    cases hentry
  authenticated := rfl
  sequences := rfl

theorem solid_id : ∀ c ∈ "a@b".toList, Text.isWhitespace c = false := by
  simp [Text.isWhitespace]

def articleId : Text.Word := ⟨"a@b", by simp, solid_id⟩

theorem connect_logs_in_reader :
    (connect readerConfig (.to oneArticleMock) { conn := .new "s" }).result = some (.ok ()) ∧
      ∃ s, Facing oneArticleMock { authenticated := true } none s []
        (connect readerConfig (.to oneArticleMock) { conn := .new "s" }).state := by
  obtain ⟨hresult, -, hfacing⟩ := connect_logs_in (Dial.to_reaches oneArticleMock rfl rfl)
    ⟨rfl, rfl, rfl⟩ oneArticleMock_welcomes readerConfig_legible rfl (w := { conn := .new "s" })
    (fun _ h => by cases h) rfl
  exact ⟨hresult, hfacing⟩

theorem session_tells_news_of_article :
    ∃ w', connect readerConfig (.to oneArticleMock) { conn := .new "s" } = .ok () w' ∧
      (Transducer.run (World.tell rawDecoder) w'
        [.stat articleId, .articles 4 [(articleId, 7)], .stats [articleId]]).2 =
        [{ query := .stat articleId, result := some (.ok { code := 223, message := "0 <a@b>" }) },
          { query := .articles 4 [(articleId, 7)]
            result := some (.ok [{
              request := { messageId := "a@b", tag := 7 }
              result := .ok {
                code := 220
                message := "0 <a@b>"
                data := some (Text.utf8 "Subject: a\r\n\r\n.b\r\n") } }]) },
          { query := .stats [articleId]
            result := some (.ok [{ messageId := "a@b", exists_ := true }]) }] := by
  obtain ⟨w', hconnect, htold, -⟩ := session_tells_news rawDecoder
    (Dial.to_reaches oneArticleMock rfl rfl) oneArticleMock_welcomes readerConfig_legible rfl
    (w := { conn := .new "s" }) (fun _ h => by cases h) rfl rfl oneArticleMock_steady
    [.stat articleId, .articles 4 [(articleId, 7)], .stats [articleId]]
  refine ⟨w', hconnect, htold.trans ?_⟩
  rfl

end NzbNntp
