import NzbNntp.Connection.Fallback
import NzbNntp.Connection.Quiet

/-!
`fetch_body_prefix` on a whole block. The loop keeps the text it has read so far, cut at the
bound, and stops as soon as the bound is reached; so it comes to the terminator exactly if
the whole text stays under the bound.
-/

namespace NzbNntp

open Interruptible

section Prefix

variable {π : Type} {t t' : Transport π} {events events' : List IoEvent} {lines : List Bytes}
  {maxBytes : Nat}

/-- What is read of a line, after `data`. -/
theorem extend_eq_take {data text : Bytes} (hdata : data.length ≤ maxBytes) :
    data ++ text.take (maxBytes - data.length) = (data ++ text).take maxBytes := by
  rw [List.take_append, List.take_of_length_le hdata]

/-- The prefix of the whole text, given after `data` and `lines`. -/
def PrefixOf (maxBytes : Nat) (body : Bytes) (r : BodyPrefixResponse) : Prop :=
  r.data = body.take maxBytes ∧ (r.complete = true ↔ body.length < maxBytes)

/-- The loop, by induction along the lines of the block: what has been read so far is
shorter than the bound. -/
theorem wp_prefixLoop_lines (h : BlockLines t events lines t' events') :
    ∀ {w : World π} (fuel : Nat) (data : Bytes), w.conn.transport = some t → w.events = events →
      lines.length < fuel → data.length < maxBytes → (∀ line ∈ lines, line.length ≤ 16 * 1024) →
      wp (prefixLoop maxBytes fuel data)
        ⟨fun r w' => PrefixOf maxBytes (data ++ blockText lines) r ∧
            (r.complete = true → w'.conn.transport = some t'),
          fun _ _ => False, fun _ => False⟩ w := by
  induction h with
  | @terminator t t' events line hread hterm =>
      intro w fuel data ht hevents hfuel hdata _
      obtain ⟨fuel, rfl⟩ : ∃ k, fuel = k + 1 := ⟨fuel - 1, by omega⟩
      subst hevents
      rw [prefixLoop, wp_bind_of_ok (readBodyLine_of_read ht hread),
        if_neg (by simpa using isTerminator_ne_nil hterm), if_pos hterm, blockText_nil,
        List.append_nil]
      exact ⟨⟨(List.take_of_length_le hdata.le).symm, iff_of_true rfl hdata⟩, fun _ => rfl⟩
  | @line t t' t'' events events' line lines hread hne hterm _ ih =>
      intro w fuel data ht hevents hfuel hdata hshort
      obtain ⟨fuel, rfl⟩ : ∃ k, fuel = k + 1 := ⟨fuel - 1, by omega⟩
      subst hevents
      have hline : line.length ≤ 16 * 1024 := hshort line (by simp)
      rw [prefixLoop, wp_bind_of_ok (readBodyLine_of_read ht hread), if_neg (by simpa using hne),
        hterm, if_neg Bool.false_ne_true, if_neg (by omega)]
      dsimp only
      rw [extend_eq_take hdata.le, blockText_cons, ← List.append_assoc]
      split
      -- The bound is reached: what follows does not change the text up to it.
      · rename_i hstop
        have hlong : maxBytes ≤ (data ++ unstuff line).length := by
          rw [List.length_take] at hstop
          rw [List.length_append] at hstop ⊢
          omega
        refine ⟨⟨?_, iff_of_false Bool.false_ne_true ?_⟩, fun h => absurd h Bool.false_ne_true⟩
        · exact (List.take_append_of_le_length hlong).symm
        · rw [List.length_append]
          omega
      · rename_i hgoes
        have hfits : (data ++ unstuff line).length < maxBytes := by
          rw [List.length_take] at hgoes
          rw [List.length_append] at hgoes ⊢
          omega
        rw [List.take_of_length_le hfits.le]
        exact ih fuel _ rfl rfl (by simpa using hfuel) hfits fun l hl => hshort l (by simp [hl])

variable [Peer π]

/-- **The prefix is exact, and the connection is retired exactly when it must be.** -/
theorem fetchBodyPrefix_exact (mid : String) (maxBytes : Nat) {w w₁ : World π}
    {status : NntpResponse} (hready : w.conn.state = .ready)
    (hplain : w.conn.compressEnabled = false) (hbody : w.conn.capabilities.haveBody = true)
    (hbound : 0 < maxBytes ∧ maxBytes ≤ 256 * 1024)
    (hquery : Queried s!"BODY {normalizeMessageId mid}" w status w₁) (h222 : status.code = 222)
    (ht : w₁.conn.transport = some t) (hblock : BlockLines t w₁.events lines t' events')
    (hshort : ∀ line ∈ lines, line.length ≤ 16 * 1024) :
    ∃ body w₂ r w', readMultilineBody w₁ = .ok body w₂ ∧ fetchBodyPrefix mid maxBytes w = .ok r w' ∧
      r.data = body.take (min maxBytes body.length) ∧
      (r.complete = true ↔ body.length < maxBytes) ∧
      (r.complete = true → w'.conn.state = .ready ∧
        ∃ t'' terminator, w'.conn.transport = some t'' ∧ isTerminator terminator = true ∧
          lines.flatten ++ terminator ++ t''.unread = t.unread) ∧
      (r.complete = false → w'.conn.transport = none ∧ w'.conn.state = .disconnected) := by
  obtain ⟨w₂, hread, -, -⟩ := readMultilineBody_of_lines hblock ht rfl
  obtain ⟨terminator, hterm, hstream⟩ := hblock.stream
  have hbegin : wp (readMultilineBodyPrefix maxBytes)
      ⟨fun r w' => PrefixOf maxBytes (blockText lines) r ∧
          (r.complete = true → w'.conn.transport = some t'),
        fun _ _ => False, fun _ => False⟩ (w₁.setState .busy) := by
    have hfuel := hblock.length_lt_lineFuel (w := w₁.setState .busy) ht
    exact wp_prefixLoop_lines hblock _ [] ht rfl hfuel hbound.1 hshort
  have hrun : wp (fetchBodyPrefix mid maxBytes)
      ⟨fun r w' => PrefixOf maxBytes (blockText lines) r ∧
          (r.complete = true → w'.conn.state = .ready ∧ w'.conn.transport = some t') ∧
          (r.complete = false → w'.conn.transport = none ∧ w'.conn.state = .disconnected),
        fun _ _ => False, fun _ => False⟩ w := by
    rw [fetchBodyPrefix, wp_bind, wp_get]
    dsimp only
    rw [if_neg (by omega), hplain, if_neg Bool.false_ne_true, hbody, if_neg (by simp),
      wp_bind_of_ok (requireReady_of_ready hready)]
    refine (wp_bind_of_ok (request_of_ok (ask_eq_ok_iff.mpr hquery))).mpr ?_
    simp only [h222]
    refine wp_seq (wp_orError_quiet hbegin) ?_ (fun _ _ h => h) (fun _ h => h)
    rintro r w' ⟨hr, hwhole⟩
    rw [retireUnlessComplete]
    split
    · rename_i hcomplete
      exact ⟨hr, fun _ => ⟨rfl, hwhole hcomplete⟩, fun h => absurd h (by simp [hcomplete])⟩
    · rename_i hpart
      exact ⟨hr, fun h => absurd h hpart, fun _ => ⟨rfl, rfl⟩⟩
  obtain ⟨r, w', hrun, ⟨hdata, hcomplete⟩, hwhole, hpart⟩ := exists_ok_of_wp hrun
  refine ⟨_, w₂, r, w', hread, hrun, ?_, hcomplete, fun h => ?_, hpart⟩
  · rw [hdata, List.take_eq_take_iff]
    simp
  · exact ⟨(hwhole h).1, t', terminator, (hwhole h).2, hterm, hstream⟩

end Prefix

theorem fetchBodyPrefix_exact_on_blank :
    ∃ (body : Bytes) (r : BodyPrefixResponse) (w' : World ReplyServer),
      fetchBodyPrefix "<a@b>" 1 (.readyTo articleServer) = .ok r w' ∧
      r.data = body.take (min 1 body.length) ∧ (r.complete = true ↔ body.length < 1) ∧
      (r.complete = false → w'.conn.transport = none ∧ w'.conn.state = .disconnected) := by
  obtain ⟨status, w₁, t, t', events', hquery, hcode, ht, hblock⟩ := answersWith_articleServer
  obtain ⟨body, -, r, w', -, hrun, hdata, hcomplete, -, hpart⟩ :=
    fetchBodyPrefix_exact "<a@b>" 1 rfl rfl rfl (by decide) hquery hcode ht hblock (by decide)
  exact ⟨body, r, w', hrun, hdata, hcomplete, hpart⟩

end NzbNntp
