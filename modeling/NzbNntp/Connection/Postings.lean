import NzbNntp.Connection.Lines
import NzbNntp.Connection.Posting
import NzbNntp.Connection.Replies
import NzbNntp.Overview.Wire
import NzbNntp.Text.Lines

/-!
The two ways to post an article. `post_article` takes its lines from `str::lines` and writes
each at once; `post_article_bytes` looks for the line ends itself, and writes a line in up to
three pieces. What the server gets is the same, except where the article ends in a CR that no
LF follows: `str::lines` keeps such a CR, the index loop drops it.
-/

namespace NzbNntp

open Interruptible Delimited Overview

/-! ### The lines -/

/-- The last line of the article is not closed, and ends in a CR. -/
def EndsInCr (article : String) : Prop := article.toList.getLast? = some '\r'

instance : DecidablePred EndsInCr := fun article =>
  inferInstanceAs (Decidable (article.toList.getLast? = some '\r'))

theorem utf8_ofList_append (cs ds : List Char) :
    Text.utf8 (.ofList (cs ++ ds)) = Text.utf8 (.ofList cs) ++ Text.utf8 (.ofList ds) := by
  simp [Text.utf8]

theorem utf8_cr : Text.utf8 (.ofList ['\r']) = [cr] := by decide

/-- A line does not end in the byte CR but with the character. -/
theorem stripCr_utf8 (line : List Char) :
    stripCr (Text.utf8 (.ofList line)) = Text.utf8 (.ofList (Text.chopCr line)) := by
  rcases List.eq_nil_or_concat' line with rfl | ⟨front, c, rfl⟩
  · rfl
  by_cases hc : c = '\r'
  · rw [hc, utf8_ofList_append, utf8_cr, stripCr_concat, Text.chopCr_concat]
  · have hlast : (Text.utf8 (.ofList (front ++ [c]))).getLast? ≠ some cr := by
      intro h
      have hbytes : Text.utf8 (.ofList [c]) = String.utf8EncodeChar c := by simp [Text.utf8]
      have hne : String.utf8EncodeChar c ≠ [] := String.utf8EncodeChar_ne_nil
      rw [utf8_ofList_append, hbytes, List.getLast?_append_of_ne_nil _ hne] at h
      have hmem := List.mem_of_getLast? h
      rw [Text.mem_utf8EncodeChar_ascii (by decide)] at hmem
      exact hc (Char.toNat_inj.mp hmem)
    rw [stripCr, if_neg hlast, Text.chopCr, if_neg (by simpa using hc)]

theorem lines_cons (q : Piece '\n') (rest : List Char) :
    Text.lines (.ofList (q.full ++ rest)) =
      .ofList (Text.chopCr q.text) :: Text.lines (.ofList rest) := by
  rw [Text.lines, String.toList_ofList, pieces_full, List.map_cons, Piece.full,
    Text.chopLineEnd_concat, Text.lines, String.toList_ofList]

theorem lines_last {line : List Char} (hfree : '\n' ∉ line) (hne : line ≠ []) :
    Text.lines (.ofList line) = [.ofList line] := by
  rw [Text.lines, String.toList_ofList, pieces_of_not_mem hfree hne, List.map_singleton,
    Text.chopLineEnd_of_not_mem hfree]

theorem lf_not_mem_utf8 {line : List Char} (h : '\n' ∉ line) : lf ∉ Text.utf8 (.ofList line) := by
  rwa [Text.lf_mem_utf8, String.toList_ofList]

theorem articleLines_cons (q : Piece '\n') (rest : List Char) :
    articleLines (Text.utf8 (.ofList (q.full ++ rest))) =
      Text.utf8 (.ofList (Text.chopCr q.text)) :: articleLines (Text.utf8 (.ofList rest)) := by
  have hfree := lf_not_mem_utf8 q.free
  have hbytes : Text.utf8 (.ofList (q.full ++ rest)) =
      Text.utf8 (.ofList q.text) ++ lf :: Text.utf8 (.ofList rest) := by
    rw [Piece.full, List.append_assoc, utf8_ofList_append, List.singleton_append]
    simp only [Text.utf8, String.toList_ofList, List.flatMap_cons]
    rfl
  rw [hbytes, articleLines, pieces_append hfree, List.map_cons, lineText,
    takeWhile_ne_lf hfree, stripCr_utf8, articleLines]

theorem articleLines_last {line : List Char} (hfree : '\n' ∉ line) (hne : line ≠ []) :
    articleLines (Text.utf8 (.ofList line)) = [Text.utf8 (.ofList (Text.chopCr line))] := by
  have hne' : Text.utf8 (.ofList line) ≠ [] := by
    obtain ⟨c, line, rfl⟩ := List.exists_cons_of_ne_nil hne
    have hc : String.utf8EncodeChar c ≠ [] := String.utf8EncodeChar_ne_nil
    simp [Text.utf8, hc]
  have hfree' := lf_not_mem_utf8 hfree
  rw [articleLines, pieces_of_not_mem hfree' hne', List.map_singleton, lineText_of_not_mem hfree',
    stripCr_utf8]

/-- What is sent of an article with these lines, short of the dot that ends it. -/
def articleBytes (lines : List Bytes) : Bytes := lines.flatMap fun line => stuff line ++ crlf

@[simp] theorem articleBytes_cons (line : Bytes) (rest : List Bytes) :
    articleBytes (line :: rest) = stuff line ++ crlf ++ articleBytes rest := List.flatMap_cons

theorem stuff_concat_cr (line : Bytes) : stuff (line ++ [cr]) = stuff line ++ [cr] := by
  cases line with
  | nil => rfl
  | cons b line =>
      by_cases hb : b = dot
      · simp [stuff, hb]
      · simp [stuff, hb]

theorem endsInCr_cons (q : Piece '\n') (rest : List Char) :
    EndsInCr (.ofList (q.full ++ rest)) ↔ EndsInCr (.ofList rest) := by
  rcases List.eq_nil_or_concat' rest with rfl | ⟨front, c, rfl⟩
  · simp [EndsInCr, Piece.full]
  · simp [EndsInCr, ← List.append_assoc]

def DropsCr (kept dropped : Bytes) : Prop :=
  ∃ front, kept = front ++ cr :: crlf ∧ dropped = front ++ crlf

theorem DropsCr.append {kept dropped : Bytes} (h : DropsCr kept dropped) (front : Bytes) :
    DropsCr (front ++ kept) (front ++ dropped) := by
  obtain ⟨front', rfl, rfl⟩ := h
  exact ⟨front ++ front', by rw [List.append_assoc], by rw [List.append_assoc]⟩

theorem DropsCr.ne {kept dropped : Bytes} (h : DropsCr kept dropped) : kept ≠ dropped := by
  obtain ⟨front, rfl, rfl⟩ := h
  simp

/-- A CR at the end of the article is in the lines of `str::lines` only; all else is the same. -/
theorem articleBytes_lines (article : String) :
    (EndsInCr article → DropsCr (articleBytes ((Text.lines article).map Text.utf8))
      (articleBytes (articleLines (Text.utf8 article)))) ∧
    (¬ EndsInCr article → (Text.lines article).map Text.utf8 = articleLines (Text.utf8 article)) := by
  rw [← String.ofList_toList (s := article)]
  induction article.toList using pieces_induction (d := '\n') with
  | nil => exact ⟨fun h => absurd h (by decide), fun _ => rfl⟩
  | last line hfree hne =>
      rw [lines_last hfree hne, articleLines_last hfree hne]
      refine ⟨fun h => ?_, fun h => ?_⟩
      · obtain ⟨front, hline⟩ := List.getLast?_eq_some_iff.mp h
        rw [String.toList_ofList] at hline
        subst hline
        refine ⟨stuff (Text.utf8 (.ofList front)), ?_, ?_⟩
        · rw [List.map_singleton, utf8_ofList_append, utf8_cr, articleBytes_cons, stuff_concat_cr]
          simp [articleBytes]
        · rw [Text.chopCr_concat, articleBytes_cons]
          simp [articleBytes]
      · rw [Text.chopCr, if_neg (by simpa [EndsInCr] using h), List.map_singleton]
  | cons q rest ih =>
      rw [endsInCr_cons, lines_cons, articleLines_cons, List.map_cons]
      refine ⟨fun h => ?_, fun h => by rw [ih.2 h]⟩
      rw [articleBytes_cons, articleBytes_cons]
      exact (ih.1 h).append _

/-! ### The writes -/

section Writes

variable {π : Type} [Peer π]

def World.calm (conn : NntpConnection π) (t : Transport π) : World π :=
  { conn := { conn with transport := some t } }

theorem deliver_append (t : Transport π) (front rest : Bytes) :
    (t.deliver front).deliver rest = t.deliver (front ++ rest) := by
  simp [Transport.deliver, Peer.hearAll_append]

def Puts (x : Nntp π Unit) (data : Bytes) : Prop :=
  ∀ conn t, x (.calm conn t) = .ok () (.calm conn (t.deliver data))

theorem puts_nil : Puts (pure () : Nntp π Unit) [] := by
  intro conn t
  rw [Transport.deliver_nil]
  rfl

theorem puts_write (data : Bytes) : Puts (orError (transportWriteAll data) : Nntp π Unit) data :=
  fun _ _ => rfl

theorem Puts.bind {x y : Nntp π Unit} {front rest : Bytes} (hx : Puts x front)
    (hy : Puts y rest) : Puts (x >>= fun _ => y) (front ++ rest) := by
  intro conn t
  rw [Comp.bind_of_ok (hx conn t), hy, deliver_append]

theorem puts_postLine (line : Bytes) : Puts (postLine line : Nntp π Unit) (stuff line ++ crlf) := by
  have hrest := (puts_write (π := π) line).bind (puts_write crlf)
  rw [postLine, stuff]
  split
  · exact (puts_write [dot]).bind hrest
  · exact hrest

theorem puts_postAll (lines : List Bytes) :
    Puts (postAll lines : Nntp π Unit) (articleBytes lines) := by
  induction lines with
  | nil => exact puts_nil
  | cons line rest ih =>
      rw [articleBytes_cons]
      exact (puts_postLine line).bind ih

theorem puts_postBytesLoop (article : Bytes) :
    Puts (postBytesLoop article article.length 0 : Nntp π Unit)
      (articleBytes (articleLines article)) := by
  rw [postBytesLoop_eq article article.length 0 (by omega)]
  exact puts_postAll _

theorem puts_postLines (lines : List String) :
    Puts (postLines lines : Nntp π Unit) (articleBytes (lines.map Text.utf8)) := by
  induction lines with
  | nil => exact puts_nil
  | cons line rest ih =>
      rw [postLines_cons, List.map_cons, articleBytes_cons]
      exact (puts_write _).bind ih

/-! ### Both ways -/

def Invited (w : World π) : Prop :=
  ∃ status w₁, Queried "POST" w status w₁ ∧ status.code = 340

/-- What the caller is given, the state of the connection and what the server has been sent
are the same. -/
structure SeenAlike {α : Type} (o o' : Outcome NntpError (World π) α) : Prop where
  result : o.result = o'.result
  state : o.state.conn.state = o'.state.conn.state
  wire : o.state.wire = o'.state.wire

variable {w : World π} {writeLines writeLines' : Nntp π Unit} {data data' : Bytes}

/-- The end of a posting: the dot is written and the reply is read. -/
def finishPost : Nntp π NntpResponse := do
  orError (transportWriteAll [dot, cr, lf])
  let result ← orError readResponseLine
  returnReady result

/-- An article that is invited is written, and what follows does not depend on how. -/
theorem postWith_of_invited (hready : w.conn.state = .ready) (hevents : w.events.length ≤ 3)
    (h : Invited w) : ∃ (conn : NntpConnection π) (t : Transport π),
      ∀ (writeLines : Nntp π Unit) (data : Bytes), Puts writeLines data →
        postWith writeLines w = finishPost (.calm conn (t.deliver data)) := by
  obtain ⟨status, w₁, hqueried, hcode⟩ := h
  have hrequest := request_of_ok (ask_eq_ok_iff.mpr hqueried)
  obtain ⟨w₀, t, ⟨_, _, _, _, _, _, rfl⟩, _, rfl⟩ := hqueried
  have hspent : w.events.tail.tail.tail = [] := by
    apply List.eq_nil_of_length_eq_zero
    simp only [List.length_tail]
    omega
  refine ⟨{ w.conn with state := .busy }, t, fun writeLines data hputs => ?_⟩
  have hcalm : request "POST" w = .ok status (.calm { w.conn with state := .busy } t) := by
    rw [hrequest]
    show Outcome.ok status ({ conn := _, events := w.events.tail.tail.tail } : World π) = _
    rw [hspent]
    rfl
  rw [postWith, Comp.bind_of_ok (requireReady_of_ready hready), Comp.bind_of_ok hcalm]
  simp only [hcode]
  rw [Comp.bind_of_ok (show requireTransport (.calm { w.conn with state := .busy } t) = .ok () _
    from rfl), Comp.bind_of_ok (hputs _ t)]
  rfl

/-- Without the invitation nothing of the article is written. -/
theorem postWith_of_not_invited (hready : w.conn.state = .ready) (h : ¬ Invited w)
    (writeLines writeLines' : Nntp π Unit) : postWith writeLines w = postWith writeLines' w := by
  have hgate : requireReady "POST" w = .ok () w := requireReady_of_ready hready
  rw [postWith, Comp.bind_of_ok hgate, postWith, Comp.bind_of_ok hgate]
  cases hask : ask "POST" w with
  | err e w₁ =>
      rw [Comp.bind_of_err (request_of_err hask), Comp.bind_of_err (request_of_err hask)]
  | dropped w₁ =>
      rw [Comp.bind_of_dropped (request_of_dropped hask),
        Comp.bind_of_dropped (request_of_dropped hask)]
  | ok status w₁ =>
      have hcode : status.code ≠ 340 := fun h340 => h ⟨status, w₁, ask_eq_ok_iff.mp hask, h340⟩
      rw [Comp.bind_of_ok (request_of_ok hask), Comp.bind_of_ok (request_of_ok hask)]
      apply congrFun
      split
      case h_1 h340 => exact absurd h340 hcode
      case h_2 | h_3 => rfl

/-- The reply to the article changes nothing of what has been sent. -/
theorem wire_finishPost (conn : NntpConnection π) (t : Transport π) :
    (finishPost (.calm conn t)).state.wire = some (t.wire ++ [dot, cr, lf]) := by
  have hstable : ReadStable fun w : World π => w.wire = some (t.wire ++ [dot, cr, lf]) := by
    refine .of_readsTo (fun w t₁ t₂ ht hreads h => ?_) (fun _ _ h => h) (fun _ _ h => h)
      (fun _ _ _ h => h)
    rw [World.wire, ht] at h
    rw [← h]
    exact congrArg some hreads.wire
  have hreads := preserves_bind (preserves_orError (preserves_readResponseLine
    (P := fun w : World π => w.wire = some (t.wire ++ [dot, cr, lf]))) fun _ h => h)
    fun result => preserves_bind (preserves_modify (f := World.setState .ready) fun _ h => h)
      fun _ => preserves_pure result
  rw [finishPost, Comp.bind_of_ok (puts_write [dot, cr, lf] conn t)]
  exact hreads.state rfl

/-- The two ways to post an article agree unless the article ends in a CR of its own and the
server invites it. -/
theorem posting_agrees_iff (article : String) (hready : w.conn.state = .ready)
    (hevents : w.events.length ≤ 3) :
    SeenAlike (postArticle article w) (postArticleBytes (Text.utf8 article) w) ↔
      ¬ (EndsInCr article ∧ Invited w) := by
  rw [postArticle, postArticleBytes]
  by_cases hinvited : Invited w
  · obtain ⟨conn, t, hpost⟩ := postWith_of_invited hready hevents hinvited
    rw [hpost _ _ (puts_postLines _), hpost _ _ (puts_postBytesLoop _)]
    by_cases hends : EndsInCr article
    · refine iff_of_false (fun hseen => ?_) (not_not_intro ⟨hends, hinvited⟩)
      have hwire := hseen.wire
      rw [wire_finishPost, wire_finishPost, Option.some.injEq] at hwire
      apply ((articleBytes_lines article).1 hends).ne
      exact List.append_cancel_left (List.append_cancel_right hwire)
    · rw [(articleBytes_lines article).2 hends]
      exact iff_of_true ⟨rfl, rfl, rfl⟩ fun h => hends h.1
  · rw [postWith_of_not_invited hready hinvited _ (postBytesLoop _ _ 0)]
    exact iff_of_true ⟨rfl, rfl, rfl⟩ fun h => hinvited h.2

end Writes

def acceptingServer : ReplyServer where
  answer lines :=
    if lines.length = 1 then .bare (Text.utf8 "340 go on\r") lf_not_mem_invitation
    else .bare (Text.utf8 "240 posted\r") (by decide)

theorem posting_agrees_iff_on_dots :
    SeenAlike (postArticle "Subject: a\r\n\n.\n..b\rc" (.readyTo acceptingServer))
      (postArticleBytes (Text.utf8 "Subject: a\r\n\n.\n..b\rc") (.readyTo acceptingServer)) :=
  (posting_agrees_iff _ rfl (by decide)).mpr fun h => absurd h.1 (by decide)

/-- An article that ends in a CR comes without it where `post_article_bytes` sends it. -/
theorem posting_can_differ :
    ¬ ∀ (article : String) (w : World ReplyServer), w.conn.state = .ready → w.events = [] →
      SeenAlike (postArticle article w) (postArticleBytes (Text.utf8 article) w) := by
  intro h
  have hseen := h "a\r" (.readyTo acceptingServer) rfl rfl
  exact absurd hseen.wire (by decide +kernel)

end NzbNntp
