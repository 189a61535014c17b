import NzbNntp.Connection.Calls
import NzbNntp.Connection.Quiet
import NzbNntp.Connection.Status
import NzbNntp.Overview.Rows
import NzbNntp.Text.Words

/-!
Overview rows over the wire. A row goes out as its number and its fields with a
TAB before each; the rows are the lines of a dot-stuffed block. Reading the block
back gives the same rows, whatever bytes their fields are made of.
-/

namespace NzbNntp

open Interruptible Delimited

namespace Overview

/-! ### Rows as lines -/

/-- A row as the server writes it, before the line end. -/
def rowLine (row : LosslessOverviewRow) : Bytes :=
  Text.utf8 (toString row.articleNumber) ++ tab :: [tab].intercalate row.fields

theorem utf8_toString_nat (n : Nat) :
    Text.utf8 (toString n) = (Nat.toDigits 10 n).map fun c => UInt8.ofNat c.toNat := by
  rw [Text.utf8, Nat.toString_eq_repr, Nat.toList_repr, List.map_eq_flatMap]
  refine List.flatMap_congr fun c hc => ?_
  have hdigit := Text.isDigit_bounds (Nat.isDigit_of_mem_toDigits (by decide) (by decide) hc)
  exact Text.utf8EncodeChar_ascii (by omega)

theorem asciiDigitsValue_toString (n : Nat) : asciiDigitsValue (Text.utf8 (toString n)) = n := by
  rw [utf8_toString_nat, asciiDigitsValue, List.foldl_map]
  have hfold : ∀ (cs : List Char) (init : Nat), (∀ c ∈ cs, c.isDigit = true) →
      cs.foldl (fun n c => 10 * n + ((UInt8.ofNat c.toNat).toNat - 48)) init =
        Nat.ofDigitChars 10 cs init := by
    intro cs
    induction cs with
    | nil => intros; rfl
    | cons c cs ih =>
        intro init hcs
        have hc := Text.isDigit_bounds (hcs c (by simp))
        have hbyte : (UInt8.ofNat c.toNat).toNat = c.toNat := by
          rw [UInt8.toNat_ofNat']
          omega
        rw [List.foldl_cons, Nat.ofDigitChars_cons, hbyte]
        exact ih _ fun d hd => hcs d (by simp [hd])
  rw [hfold _ _ fun c hc => Nat.isDigit_of_mem_toDigits (by decide) (by decide) hc]
  exact Nat.ofDigitChars_ten_toDigits

theorem denotes_toString {n : Nat} (h : n < 2 ^ 64) : Denotes (Text.utf8 (toString n)) n := by
  refine ⟨?_, ?_, ?_, h⟩
  · rw [utf8_toString_nat]
    simp
  · rw [utf8_toString_nat]
    intro b hb
    obtain ⟨c, hc, rfl⟩ := List.mem_map.mp hb
    have hdigit := Text.isDigit_bounds (Nat.isDigit_of_mem_toDigits (by decide) (by decide) hc)
    have hbyte : (UInt8.ofNat c.toNat).toNat = c.toNat := by
      rw [UInt8.toNat_ofNat']
      omega
    simp only [isAsciiDigit, Bool.decide_and, Bool.and_eq_true, decide_eq_true_eq,
      UInt8.le_iff_toNat_le, hbyte]
    exact hdigit
  · rw [← asciiDigitsValue_eq]
    exact asciiDigitsValue_toString n

theorem not_mem_toString {b : UInt8} (hb : isAsciiDigit b = false) (n : Nat) (h : n < 2 ^ 64) :
    b ∉ Text.utf8 (toString n) := by
  intro hmem
  have hdigit := (denotes_toString h).decimal b hmem
  rw [hb] at hdigit
  cases hdigit

/-- A row that can go over the wire: its fields hold no TAB and no LF. -/
structure Sendable (format : OverviewFormat) (startArticle endArticle : Nat)
    (row : LosslessOverviewRow) : Prop where
  inRange : startArticle ≤ row.articleNumber ∧ row.articleNumber ≤ endArticle
  count : row.fields.length = format.fields.length
  free : ∀ field ∈ row.fields, tab ∉ field ∧ lf ∉ field

section Rows

variable {format : OverviewFormat} {startArticle endArticle : Nat} {row : LosslessOverviewRow}

theorem Sendable.bounded (h : Sendable format startArticle endArticle row)
    (hend : endArticle < 2 ^ 64) : row.articleNumber < 2 ^ 64 :=
  Nat.lt_of_le_of_lt h.inRange.2 hend

theorem spells_rowLine (h : Sendable format startArticle endArticle row)
    (hformat : format.fields ≠ []) (hend : endArticle < 2 ^ 64) :
    Spells (rowLine row) (Text.utf8 (toString row.articleNumber)) row.fields := by
  have hfields : row.fields ≠ [] := by
    intro hnil
    have hcount := h.count
    rw [hnil] at hcount
    exact hformat (List.length_eq_zero_iff.mp hcount.symm)
  rw [spells_iff, rowLine,
    List.splitOn_append_cons_self_of_not_mem
      (not_mem_toString (by decide) _ (h.bounded hend)),
    List.splitOn_intercalate tab (fun field hfield => (h.free field hfield).1) hfields]

theorem accepts_rowLine (h : Sendable format startArticle endArticle row)
    (hformat : format.fields ≠ []) (hend : endArticle < 2 ^ 64) {earlier : List Nat}
    (hfresh : row.articleNumber ∉ earlier) :
    Accepts format startArticle endArticle earlier (rowLine row) row :=
  ⟨⟨_, spells_rowLine h hformat hend, denotes_toString (h.bounded hend)⟩, h.inRange, h.count,
    hfresh⟩

theorem not_mem_intercalate {fields : List Bytes} (h : ∀ field ∈ fields, lf ∉ field) :
    lf ∉ [tab].intercalate fields := by
  induction fields with
  | nil => simp
  | cons field fields ih =>
      have hfirst := h field (by simp)
      have hrest := ih fun f hf => h f (by simp [hf])
      cases fields with
      | nil => simpa using hfirst
      | cons next fields =>
          rw [List.intercalate_cons_cons]
          simp only [List.mem_append, List.mem_singleton, not_or]
          exact ⟨⟨hfirst, by decide⟩, hrest⟩

theorem lf_not_mem_rowLine (h : Sendable format startArticle endArticle row)
    (hend : endArticle < 2 ^ 64) : lf ∉ rowLine row := by
  simp only [rowLine, List.mem_append, List.mem_cons, not_or]
  exact ⟨not_mem_toString (by decide) _ (h.bounded hend), by decide,
    not_mem_intercalate fun field hfield => (h.free field hfield).2⟩

theorem rowLine_ne_nil (row : LosslessOverviewRow) : rowLine row ≠ [] := by
  simp [rowLine]

theorem stripCr_concat (line : Bytes) : stripCr (line ++ [cr]) = line := by
  simp [stripCr]

/-- Written lines are read again, and what follows them is read on its own. -/
theorem wireLines_append {lines : List Bytes} {rest : Bytes}
    (hfree : ∀ line ∈ lines, lf ∉ line) (hne : ∀ line ∈ lines, line ≠ []) :
    wireLines (normalized lines ++ rest) = lines ++ wireLines rest := by
  induction lines with
  | nil => rfl
  | cons line lines ih =>
      have hline : lf ∉ line ++ [cr] := by
        simp only [List.mem_append, List.mem_singleton, not_or]
        exact ⟨hfree line (by simp), by decide⟩
      have happend : normalized (line :: lines) ++ rest =
          (line ++ [cr]) ++ lf :: (normalized lines ++ rest) := by
        simp [normalized]
      have hkept : (!line.isEmpty) = true := by simpa using hne line (by simp)
      rw [happend, wireLines, List.splitOn_append_cons_self_of_not_mem hline, List.map_cons,
        stripCr_concat, List.filter_cons, if_pos hkept, List.cons_append,
        ← ih (fun l hl => hfree l (by simp [hl])) fun l hl => hne l (by simp [hl])]
      rfl

/-- The wire lines of a block are the lines that were put into it. -/
theorem wireLines_normalized {lines : List Bytes} (hfree : ∀ line ∈ lines, lf ∉ line)
    (hne : ∀ line ∈ lines, line ≠ []) : wireLines (normalized lines) = lines := by
  have happend : wireLines (normalized lines ++ []) = lines ++ wireLines [] :=
    wireLines_append hfree hne
  rw [List.append_nil] at happend
  rw [happend]
  simp [wireLines, stripCr]

/-- A line that the specification accepts is accepted by the loop. -/
theorem scanRow_accepts {scan : RowScan} {earlier : List Nat} {line : Bytes}
    (hseen : ∀ n, n ∈ scan.seen ↔ n ∈ earlier)
    (h : Accepts format startArticle endArticle earlier line row) :
    scanRow format startArticle endArticle scan line = scan.put (.accepted row) := by
  obtain ⟨verdict, hscan, hjudged⟩ : ∃ verdict,
      scanRow format startArticle endArticle scan line = scan.put verdict ∧
        Judged format startArticle endArticle earlier line verdict := scanRow_judged hseen line
  rw [hscan, (hjudged.iff.1 row).mpr h]

theorem foldl_scanRow_rowLines (rows : List LosslessOverviewRow) {scan : RowScan}
    (hformat : format.fields ≠ []) (hend : endArticle < 2 ^ 64)
    (hrows : ∀ row ∈ rows, Sendable format startArticle endArticle row)
    (hdistinct : (rows.map (·.articleNumber)).Nodup)
    (hfresh : ∀ row ∈ rows, row.articleNumber ∉ scan.seen) :
    ((rows.map rowLine).foldl (scanRow format startArticle endArticle) scan).rows =
        scan.rows ++ rows ∧
      ((rows.map rowLine).foldl (scanRow format startArticle endArticle) scan).defectiveRows =
        scan.defectiveRows := by
  induction rows generalizing scan with
  | nil => simp
  | cons row rows ih =>
      obtain ⟨hhead, htail⟩ := List.nodup_cons.mp hdistinct
      have haccepts := accepts_rowLine (hrows row (by simp)) hformat hend (hfresh row (by simp))
      rw [List.map_cons, List.foldl_cons, scanRow_accepts (fun n => Iff.rfl) haccepts]
      have hfresh' : ∀ r ∈ rows, r.articleNumber ∉ (scan.put (.accepted row)).seen := by
        intro r hr
        simp only [RowScan.put, List.mem_cons, not_or]
        refine ⟨fun heq => hhead ?_, hfresh r (by simp [hr])⟩
        show row.articleNumber ∈ rows.map (·.articleNumber)
        rw [← heq]
        exact List.mem_map_of_mem hr
      obtain ⟨hr, hd⟩ := ih (fun r hr => hrows r (by simp [hr])) htail hfresh'
      exact ⟨by rw [hr]; simp [RowScan.put], by rw [hd]; rfl⟩

end Rows

/-- Parsing undoes writing. -/
theorem parse_rowLines {format : OverviewFormat} {startArticle endArticle : Nat}
    {rows : List LosslessOverviewRow} (hformat : format.fields ≠ []) (hend : endArticle < 2 ^ 64)
    (hrows : ∀ row ∈ rows, Sendable format startArticle endArticle row)
    (hdistinct : (rows.map (·.articleNumber)).Nodup) :
    parseLosslessOverviewRows (normalized (rows.map rowLine)) format startArticle endArticle =
      { rows, defectiveRows := [] } := by
  have hfree : ∀ line ∈ rows.map rowLine, lf ∉ line := by
    intro line hline
    obtain ⟨row, hrow, rfl⟩ := List.mem_map.mp hline
    exact lf_not_mem_rowLine (hrows row hrow) hend
  have hne : ∀ line ∈ rows.map rowLine, line ≠ [] := by
    intro line hline
    obtain ⟨row, -, rfl⟩ := List.mem_map.mp hline
    exact rowLine_ne_nil row
  have hfresh : ∀ row ∈ rows, row.articleNumber ∉ ({} : RowScan).seen := fun _ _ =>
    List.not_mem_nil
  obtain ⟨hr, hd⟩ := foldl_scanRow_rowLines rows hformat hend hrows hdistinct hfresh
  rw [parseLosslessOverviewRows, wireLines_normalized hfree hne]
  simp only [hr, hd, List.nil_append]

end Overview

/-! ### The reply on the wire -/

section Wire

variable {π : Type}

variable [Peer π] {w : World π}

/-- A `Ready` connection with nothing unread, whose server answers the command `cmd`
with `reply`; all of it arrives. -/
structure Replies (cmd : String) (reply : Bytes) (t : Transport π) (w : World π) : Prop where
  ready : w.conn.state = .ready
  quiet : Quiet w
  transport : w.conn.transport = some t
  unread : t.unread = []
  answer : (Peer.hearAll t.peer (commandLine cmd)).2 = reply
  arrives : ∀ n, t.cut = some n → reply.length ≤ n

theorem Replies.available {cmd : String} {reply : Bytes} {t : Transport π}
    (h : Replies cmd reply t w) : (t.deliver (commandLine cmd)).available = reply := by
  have hunread : (t.deliver (commandLine cmd)).unread = reply := by
    change t.unread ++ (Peer.hearAll t.peer (commandLine cmd)).2 = reply
    rw [h.unread, h.answer]
    rfl
  rw [Transport.available, hunread, Transport.deliver_cut]
  cases hcut : t.cut with
  | none => rfl
  | some n => exact List.take_of_length_le (h.arrives n hcut)

/-- The command is written, and the status line of the reply is read. -/
theorem wp_request_replies {cmd : String} {l : WireLine} {rest : Bytes} {t : Transport π}
    {status : NntpResponse} (h : Replies cmd (l.full ++ rest) t w)
    (hstatus : statusOf l.full = .ok status) :
    wp (request cmd)
      ⟨fun r w' => r = status ∧ w'.conn.state = .busy ∧ Reading rest t.cut.isSome w',
        fun _ _ => False, fun _ => False⟩ w := by
  have havail := h.available
  have hfirst : firstLine (t.deliver (commandLine cmd)).available = l.full := by
    rw [havail, firstLine_full]
  have hline : lf ∈ (t.deliver (commandLine cmd)).available := by
    rw [havail]
    simp [Piece.full]
  rw [request, setState, wp_bind, wp_modify]
  refine wp_seq (wp_orError_quiet (wp_sendCommand_quiet (w := w.setState .busy) h.quiet h.transport)) ?_
    (fun _ _ h => h) (fun _ h => h)
  rintro _ w₁ ⟨hquiet, hs, ht⟩
  refine wp_mono (wp_statusLine_first hquiet hs ht (.inr hline)) ?_ ?_ (fun _ h => h)
  · rintro r w₂ ⟨hr, hquiet', hs', ht'⟩
    rw [hfirst, hstatus] at hr
    refine ⟨(Except.ok.inj hr).symm, hs', hquiet', _, ht', ?_, ?_⟩
    · rw [available_take, hfirst, havail, List.drop_left]
    · rw [Transport.take, Option.isSome_map]
      rfl
  · rintro e w₂ ⟨he, -⟩
    rw [hfirst, hstatus] at he
    cases he

omit [Peer π] in
/-- Where compression is off the block is returned as it was read. -/
theorem wp_readBlockWithLimit_plain (gz : GzDecoder) {limit : Option Nat} {stream : Bytes}
    {ends : Bool} (hterm : HasTerminator stream)
    (hfits : ∀ maximum, limit = some maximum → (blockBody stream).length ≤ maximum)
    (hplain : OfCompression (· = false) w) (hw : Reading stream ends w) :
    wp (readBlockWithLimit gz limit)
      ⟨fun b _ => b = blockBody stream, fun _ _ => False, fun _ => False⟩ w := by
  cases limit with
  | none =>
      have hkept := preserves_readMultilineBody w hplain
      rw [readBlockWithLimit, readMultilineBodyMaybeDecompress]
      refine wp_seq (wp_and (wp_readMultilineBody_reads (.inr hterm) hw) hkept) ?_
        (fun _ _ h => h.1.1 hterm) (fun _ h => h.1)
      rintro raw w₁ ⟨⟨-, rfl, -⟩, hplain₁ : w₁.conn.compressEnabled = false⟩
      simp [hplain₁]
  | some maximum =>
      have hkept : Preserves (OfCompression (· = false))
          (readMultilineBodyBounded maximum : Nntp π _) := preserves_readMultilineBodyBounded _
      rw [readBlockWithLimit, readMultilineBodyMaybeDecompressBounded]
      refine wp_seq (wp_and (wp_readMultilineBodyBounded_reads hterm (hfits maximum rfl) hw)
        (hkept w hplain)) ?_ (fun _ _ h => h.1) (fun _ h => h.1)
      rintro raw w₁ ⟨⟨rfl, -⟩, hplain₁ : w₁.conn.compressEnabled = false⟩
      simp [hplain₁]

variable {format : OverviewFormat} {start stop : Nat} {rows : List LosslessOverviewRow}
  {l : WireLine} {status : NntpResponse} {t : Transport π}

theorem wp_xoverLosslessWithLimit_rows (gz : GzDecoder) (limit : Option Nat)
    (hformat : format.fields ≠ []) (hstop : stop < 2 ^ 64)
    (hrows : ∀ row ∈ rows, Overview.Sendable format start stop row)
    (hdistinct : (rows.map (·.articleNumber)).Nodup)
    (hfits : ∀ maximum, limit = some maximum →
      (normalized (rows.map Overview.rowLine)).length ≤ maximum)
    (hstatus : statusOf l.full = .ok status) (hcode : status.code = 224)
    (hplain : w.conn.compressEnabled = false)
    (hserver : Replies s!"XOVER {start}-{stop}"
      (l.full ++ postedBytes (rows.map Overview.rowLine)) t w) :
    wp (xoverLosslessWithLimit gz start stop format limit)
      ⟨fun r w' =>
          r = ⟨{ rows, defectiveRows := [] }, (normalized (rows.map Overview.rowLine)).length⟩ ∧
            w'.conn.state = .ready,
        fun _ _ => False, fun _ => False⟩ w := by
  have hfree : ∀ line ∈ rows.map Overview.rowLine, lf ∉ line := by
    intro line hline
    obtain ⟨row, hrow, rfl⟩ := List.mem_map.mp hline
    exact Overview.lf_not_mem_rowLine (hrows row hrow) hstop
  obtain ⟨hterm, hbody, -⟩ := block_of_postedBytes _ hfree []
  rw [List.append_nil] at hterm hbody
  have hkept : Preserves (OfCompression (· = false)) (request s!"XOVER {start}-{stop}" : Nntp π _) :=
    preserves_bind (preserves_modify fun _ h => h) fun _ =>
      preserves_bind (preserves_orError (preserves_sendCommand _) fun _ h => h) fun _ =>
        preserves_orError preserves_readResponseLine fun _ h => h
  rw [xoverLosslessWithLimit, wp_bind]
  refine wp_requireReady hserver.ready ?_
  refine wp_seq (wp_and (wp_request_replies hserver hstatus) (hkept w hplain)) ?_
    (fun _ _ h => h.1) (fun _ h => h.1)
  rintro r w₁ ⟨⟨rfl, -, hreading⟩, hplain₁⟩
  rw [hcode]
  have hread := wp_readBlockWithLimit_plain gz hterm (by rwa [hbody]) hplain₁ hreading
  refine wp_seq (wp_orError_quiet hread) ?_ (fun _ _ h => h) (fun _ h => h)
  rintro data w₂ rfl
  rw [hbody, Overview.parse_rowLines hformat hstop hrows hdistinct]
  exact ⟨rfl, rfl⟩

/-- **Rows survive the wire.** If the server answers `XOVER` with `224` and the
block of the rows, then `xover_lossless` returns these rows in their order and no
defect, and so does `xover_lossless_bounded` under any admissible bound that the
decoded block keeps. The fields are arbitrary byte strings without TAB and LF. -/
theorem xoverLossless_returns_rows (gz : GzDecoder) (w : World π) (t : Transport π)
    (format : OverviewFormat) (start stop : UInt64) (rows : List LosslessOverviewRow)
    (l : WireLine) (status : NntpResponse) (hformat : format.fields ≠ [])
    (hrows : ∀ row ∈ rows, Overview.Sendable format start.toNat stop.toNat row)
    (hdistinct : (rows.map (·.articleNumber)).Nodup)
    (hstatus : statusOf l.full = .ok status) (hcode : status.code = 224)
    (hplain : w.conn.compressEnabled = false)
    (hserver : Replies s!"XOVER {start.toNat}-{stop.toNat}"
      (l.full ++ postedBytes (rows.map Overview.rowLine)) t w) :
    (∃ w', xoverLossless gz start.toNat stop.toNat format w = .ok { rows, defectiveRows := [] } w' ∧
      w'.conn.state = .ready) ∧
    ∀ maximum, 0 < maximum → maximum ≤ 8 * 1024 * 1024 →
      (normalized (rows.map Overview.rowLine)).length ≤ maximum →
      ∃ w', xoverLosslessBounded gz start.toNat stop.toNat format maximum w =
          .ok ⟨{ rows, defectiveRows := [] }, (normalized (rows.map Overview.rowLine)).length⟩ w' ∧
        w'.conn.state = .ready := by
  have hstop : stop.toNat < 2 ^ 64 := stop.toNat_lt
  constructor
  · have hrun := wp_xoverLosslessWithLimit_rows gz none hformat hstop hrows
      hdistinct (fun _ h => by cases h) hstatus hcode hplain hserver
    have hvalue : wp (xoverLossless gz start.toNat stop.toNat format)
        ⟨fun r w' => r = { rows, defectiveRows := [] } ∧ w'.conn.state = .ready,
          fun _ _ => False, fun _ => False⟩ w := by
      rw [xoverLossless, wp_map]
      refine wp_mono hrun ?_ (fun _ _ h => h) (fun _ h => h)
      rintro r w' ⟨rfl, hready⟩
      exact ⟨rfl, hready⟩
    obtain ⟨r, w', hr, rfl, hready⟩ := exists_ok_of_wp hvalue
    exact ⟨w', hr, hready⟩
  · intro maximum hpos hmax hfits
    have hrun := wp_xoverLosslessWithLimit_rows gz (some maximum) hformat hstop
      hrows hdistinct (fun m h => by cases h; exact hfits) hstatus hcode hplain hserver
    rw [xoverLosslessBounded, if_neg (by omega)]
    obtain ⟨r, w', hr, rfl, hready⟩ := exists_ok_of_wp hrun
    exact ⟨w', hr, hready⟩

end Wire

/-- Two rows: with a field that begins with a dot, an empty one, and one of bytes
that end in CR and are no text. -/
def twoRows : List LosslessOverviewRow :=
  [⟨3, [Text.utf8 ".subject", []]⟩, ⟨2, [[], [0xff, cr]]⟩]

def twoFields : OverviewFormat := ⟨[Text.utf8 "Subject:", Text.utf8 "From:"]⟩

def listingServer : ReplyServer where
  answer _ := {
    status := ⟨Text.utf8 "224 follows\r", by decide⟩
    block := [⟨Text.utf8 "3\t.subject\t\r", by decide⟩, ⟨Text.utf8 "2\t\t" ++ [0xff, cr, cr], by decide⟩]
    terminator := [dot, cr, lf]
    proper := by decide
    terminates := isTerminator_dotCrLf }

theorem xoverLossless_returns_rows_on_two :
    (∃ w', xoverLossless rawDecoder 1 5 twoFields (.readyTo listingServer) =
        .ok { rows := twoRows, defectiveRows := [] } w' ∧ w'.conn.state = .ready) ∧
    ∀ maximum, 0 < maximum → maximum ≤ 8 * 1024 * 1024 →
      (normalized (twoRows.map Overview.rowLine)).length ≤ maximum →
      ∃ w', xoverLosslessBounded rawDecoder 1 5 twoFields maximum (.readyTo listingServer) =
          .ok ⟨{ rows := twoRows, defectiveRows := [] },
            (normalized (twoRows.map Overview.rowLine)).length⟩ w' ∧
        w'.conn.state = .ready :=
  xoverLossless_returns_rows rawDecoder (.readyTo listingServer) _ twoFields 1 5 twoRows
    ⟨Text.utf8 "224 follows\r", by decide⟩ { code := 224, message := "follows" }
    (by decide)
    (by
      intro row hrow
      obtain rfl | rfl : row = ⟨3, _⟩ ∨ row = ⟨2, _⟩ := by simpa [twoRows] using hrow
      · exact ⟨by decide, by decide, by decide +kernel⟩
      · exact ⟨by decide, by decide, by decide +kernel⟩)
    (by decide) (by rfl) rfl rfl
    ⟨rfl, by simp [Quiet, World.readyTo], rfl, rfl, by decide +kernel, by simp⟩

end NzbNntp
