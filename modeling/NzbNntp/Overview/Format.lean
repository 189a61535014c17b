import NzbNntp.Overview.Wire

/-!
Overview formats. `parse_overview_format` accepts the lists of field descriptors that
one grammar describes, and keeps them as they are; written back, a format is read
again as the same format.
-/

namespace NzbNntp

open Delimited

namespace Overview

/-! ### Indexing -/

/-- The test of the fields after the header fields, with the indexing that could panic:
`none` is an index out of range. -/
def metadataFieldsValidChecked (fields : List Bytes) : Option Bool :=
  let is (index : Nat) (name : String) : Option Bool :=
    fields[index]?.map fun field => eqIgnoreAsciiCase field (Text.utf8 name)
  do
    if ← (do if ← is 5 ":bytes" then is 6 ":lines" else return false) then return true
    if ← is 5 "Bytes:" then is 6 "Lines:" else return false

/-- `parse_overview_format`; `none` is a panic. -/
def parseOverviewFormatChecked (data : Bytes) : Option (NntpResult OverviewFormat) :=
  let fields := wireLines data
  if fields.length < requiredHeaderFields.length + 2 ∨ fields.length > maxOverviewFields then
    some (.error (.protocol "LIST OVERVIEW.FMT field count is invalid"))
  else do
    if !(← metadataFieldsValidChecked fields) then
      return .error (.protocol "LIST OVERVIEW.FMT metadata fields are invalid")
    return do
      checkDescriptors 0 fields
      return { fields }

theorem metadataFieldsValidChecked_eq {fields : List Bytes} (h : 6 < fields.length) :
    metadataFieldsValidChecked fields = some (metadataFieldsValid fields) := by
  obtain ⟨fifth, h5⟩ : ∃ fifth, fields[5]? = some fifth :=
    ⟨_, List.getElem?_eq_getElem (by omega)⟩
  obtain ⟨sixth, h6⟩ : ∃ sixth, fields[6]? = some sixth :=
    ⟨_, List.getElem?_eq_getElem h⟩
  simp only [metadataFieldsValidChecked, metadataFieldsValid, List.getD_eq_getElem?_getD, h5, h6,
    Option.map_some, Option.getD_some, Option.bind_eq_bind, Option.bind_some]
  cases eqIgnoreAsciiCase fifth (Text.utf8 ":bytes") with
  | false => cases eqIgnoreAsciiCase fifth (Text.utf8 "Bytes:") <;> rfl
  | true =>
      cases eqIgnoreAsciiCase sixth (Text.utf8 ":lines") with
      | false => cases eqIgnoreAsciiCase fifth (Text.utf8 "Bytes:") <;> rfl
      | true => rfl

/-- The two fields are looked at only once there are enough of them. -/
theorem parseOverviewFormatChecked_eq (data : Bytes) :
    parseOverviewFormatChecked data = some (parseOverviewFormat data) := by
  unfold parseOverviewFormatChecked parseOverviewFormat
  dsimp only
  split
  · rfl
  · rename_i hcount
    have hlong : 6 < (wireLines data).length := by
      simp only [not_or, Nat.not_lt] at hcount
      exact hcount.1
    rw [metadataFieldsValidChecked_eq hlong]
    cases hvalid : metadataFieldsValid (wireLines data) with
    | false => rfl
    | true => rfl

/-! ### The grammar -/

/-- The field at a place is `name`, but for the case of its letters. -/
def FieldIs (fields : List Bytes) (index : Nat) (name : Bytes) : Prop :=
  ∃ field, fields[index]? = some field ∧ eqIgnoreAsciiCase field name = true

structure FormatGrammar (fields : List Bytes) : Prop where
  count : 7 ≤ fields.length ∧ fields.length ≤ 64
  header : ∀ index name, requiredHeaderFields[index]? = some name → FieldIs fields index name
  metadata :
    (FieldIs fields 5 (Text.utf8 ":bytes") ∧ FieldIs fields 6 (Text.utf8 ":lines")) ∨
      (FieldIs fields 5 (Text.utf8 "Bytes:") ∧ FieldIs fields 6 (Text.utf8 "Lines:"))
  bounded : ∀ field ∈ fields, field.length ≤ 256 ∧ ∀ b ∈ field, b < 128

theorem fieldIs_iff {fields : List Bytes} {index : Nat} {name : Bytes} (h : index < fields.length) :
    FieldIs fields index name ↔ eqIgnoreAsciiCase (fields.getD index []) name = true := by
  rw [FieldIs, List.getD_eq_getElem?_getD, List.getElem?_eq_getElem h]
  simp

theorem metadataFieldsValid_iff {fields : List Bytes} (h : 6 < fields.length) :
    metadataFieldsValid fields = true ↔
      (FieldIs fields 5 (Text.utf8 ":bytes") ∧ FieldIs fields 6 (Text.utf8 ":lines")) ∨
        (FieldIs fields 5 (Text.utf8 "Bytes:") ∧ FieldIs fields 6 (Text.utf8 "Lines:")) := by
  simp only [metadataFieldsValid, Bool.or_eq_true, Bool.and_eq_true, fieldIs_iff h,
    fieldIs_iff (show 5 < fields.length by omega)]

/-- A descriptor that is not empty passes its check if it is short, is ASCII and is
the one that its place requires. -/
theorem checkDescriptor_eq_ok {index : Nat} {field : Bytes} (hne : field ≠ []) :
    checkDescriptor index field = .ok () ↔
      (field.length ≤ 256 ∧ ∀ b ∈ field, b < 128) ∧
        ∀ name, requiredHeaderFields[index]? = some name → eqIgnoreAsciiCase field name = true := by
  have hsize : (field.isEmpty || field.length > maxFieldDescriptorBytes ||
      !field.all (· < 128)) = true ↔ ¬ (field.length ≤ 256 ∧ ∀ b ∈ field, b < 128) := by
    rw [Bool.or_eq_true, Bool.or_eq_true, List.isEmpty_iff, or_iff_right hne,
      decide_eq_true_eq, Bool.not_eq_true', not_and_or, Nat.not_le, ← Bool.not_eq_true,
      List.all_eq_true]
    simp only [decide_eq_true_eq]
  by_cases hbounded : field.length ≤ 256 ∧ ∀ b ∈ field, b < 128
  · have hfits := mt hsize.mp (not_not_intro hbounded)
    cases hrequired : requiredHeaderFields[index]? with
    | none =>
        have hcheck : checkDescriptor index field = .ok () := by
          rw [checkDescriptor, if_neg hfits, hrequired]
          rfl
        simpa [hcheck] using hbounded
    | some required =>
        have hcheck : checkDescriptor index field =
            if !eqIgnoreAsciiCase field required then
              .error (.protocol "LIST OVERVIEW.FMT required field order is invalid")
            else .ok () := by
          rw [checkDescriptor, if_neg hfits, hrequired]
          rfl
        rw [hcheck]
        cases hname : eqIgnoreAsciiCase field required with
        | true => simpa [hname] using hbounded
        | false => simp [hname]
  · have hcheck : checkDescriptor index field =
        .error (.protocol "LIST OVERVIEW.FMT field descriptor is invalid") := by
      rw [checkDescriptor, if_pos (hsize.mpr hbounded)]
      rfl
    rw [hcheck]
    simp only [reduceCtorEq, false_iff, not_and]
    exact fun h => absurd h hbounded

theorem checkDescriptors_cons (index : Nat) (field : Bytes) (fields : List Bytes) :
    checkDescriptors index (field :: fields) = .ok () ↔
      checkDescriptor index field = .ok () ∧ checkDescriptors (index + 1) fields = .ok () := by
  rw [checkDescriptors]
  cases checkDescriptor index field with
  | error e => simp [bind, Except.bind]
  | ok u => simp [bind, Except.bind]

theorem checkDescriptors_eq_ok {fields : List Bytes} (index : Nat)
    (hne : ∀ field ∈ fields, field ≠ []) :
    checkDescriptors index fields = .ok () ↔
      (∀ field ∈ fields, field.length ≤ 256 ∧ ∀ b ∈ field, b < 128) ∧
        ∀ offset field name, fields[offset]? = some field →
          requiredHeaderFields[index + offset]? = some name →
          eqIgnoreAsciiCase field name = true := by
  induction fields generalizing index with
  | nil => simp [checkDescriptors, pure, Except.pure]
  | cons field fields ih =>
      rw [checkDescriptors_cons, checkDescriptor_eq_ok (hne field (by simp)),
        ih (index + 1) fun f hf => hne f (by simp [hf])]
      constructor
      · rintro ⟨⟨hfield, hplace⟩, hfields, hplaces⟩
        refine ⟨by simpa using ⟨hfield, hfields⟩, fun offset f name hf hname => ?_⟩
        cases offset with
        | zero =>
            obtain rfl : field = f := by simpa using hf
            exact hplace name hname
        | succ offset =>
            apply hplaces offset f name (by simpa using hf)
            rwa [Nat.add_right_comm]
      · rintro ⟨hfields, hplaces⟩
        obtain ⟨hfield, hfields⟩ := List.forall_mem_cons.mp hfields
        refine ⟨⟨hfield, fun name hname => hplaces 0 field name rfl hname⟩, hfields, ?_⟩
        intro offset f name hf hname
        apply hplaces (offset + 1) f name (by simpa using hf)
        rwa [Nat.add_right_comm] at hname

theorem ne_nil_of_mem_wireLines {data line : Bytes} (h : line ∈ wireLines data) : line ≠ [] := by
  have hkept := (List.mem_filter.mp h).2
  simpa using hkept

/-- The three checks, one after the other. -/
theorem parseOverviewFormat_eq (data : Bytes) :
    parseOverviewFormat data =
      if (wireLines data).length < 7 ∨ (wireLines data).length > 64 then
        .error (.protocol "LIST OVERVIEW.FMT field count is invalid")
      else if metadataFieldsValid (wireLines data) = false then
        .error (.protocol "LIST OVERVIEW.FMT metadata fields are invalid")
      else (checkDescriptors 0 (wireLines data)).map fun _ => { fields := wireLines data } := by
  unfold parseOverviewFormat
  dsimp only
  show (if (wireLines data).length < 7 ∨ (wireLines data).length > 64 then _ else _) = _
  split
  · rfl
  cases metadataFieldsValid (wireLines data) with
  | false => rfl
  | true => rfl

theorem parseOverviewFormat_eq_ok {data : Bytes} {format : OverviewFormat} :
    parseOverviewFormat data = .ok format ↔
      FormatGrammar (wireLines data) ∧ format.fields = wireLines data := by
  have hne : ∀ field ∈ wireLines data, field ≠ [] := fun _ h => ne_nil_of_mem_wireLines h
  have hchecks := checkDescriptors_eq_ok 0 hne
  rw [parseOverviewFormat_eq]
  constructor
  · intro h
    split at h
    · cases h
    rename_i hcount
    simp only [not_or, Nat.not_lt] at hcount
    split at h
    · cases h
    rename_i hvalid
    rw [Bool.not_eq_false, metadataFieldsValid_iff hcount.1] at hvalid
    cases hdescriptors : checkDescriptors 0 (wireLines data) with
    | error e =>
        rw [hdescriptors] at h
        cases h
    | ok _ =>
        rw [hdescriptors] at h
        obtain ⟨hbounded, hplaces⟩ := hchecks.mp hdescriptors
        obtain rfl := Except.ok.inj h
        refine ⟨⟨hcount, fun index name hname => ?_, hvalid, hbounded⟩, rfl⟩
        have hindex : index < 5 := (List.getElem?_eq_some_iff.mp hname).1
        have hfield := List.getElem?_eq_getElem (l := wireLines data)
          (show index < (wireLines data).length by omega)
        exact ⟨_, hfield, hplaces index _ name hfield (by rwa [Nat.zero_add])⟩
  · rintro ⟨⟨hcount, hheader, hmetadata, hbounded⟩, hfields⟩
    have hdescriptors : checkDescriptors 0 (wireLines data) = .ok () := by
      refine hchecks.mpr ⟨hbounded, fun offset field name hfield hname => ?_⟩
      rw [Nat.zero_add] at hname
      obtain ⟨field', hfield', hsame⟩ := hheader offset name hname
      rw [hfield, Option.some.injEq] at hfield'
      rwa [hfield']
    rw [if_neg (by omega), (metadataFieldsValid_iff hcount.1).mpr hmetadata, if_neg (by decide),
      hdescriptors, ← hfields]
    rfl

/-! ### Formats that are written -/

theorem lf_not_mem_wireLines {data line : Bytes} (h : line ∈ wireLines data) : lf ∉ line := by
  obtain ⟨piece, hpiece, rfl⟩ := List.mem_map.mp (List.mem_filter.mp h).1
  have hfree := not_mem_of_mem_splitOn hpiece
  unfold stripCr
  split
  · exact fun hmem => hfree (List.mem_of_mem_dropLast hmem)
  · exact hfree

theorem stripCr_eq_self {line : Bytes} : stripCr line = line ↔ line.getLast? ≠ some cr := by
  unfold stripCr
  constructor
  · intro h hcr
    rw [if_pos hcr] at h
    obtain ⟨front, rfl⟩ := List.getLast?_eq_some_iff.mp hcr
    rw [List.dropLast_concat] at h
    simpa using congrArg List.length h
  · exact fun h => if_neg h

/-- The join of lines lacks the end of the last one. -/
theorem intercalate_concat (lines : List Bytes) (last : Bytes) :
    crlf.intercalate (lines ++ [last]) = normalized lines ++ last := by
  induction lines with
  | nil => simp [normalized]
  | cons line lines ih =>
      obtain ⟨next, rest, hrest⟩ : ∃ next rest, lines ++ [last] = next :: rest :=
        List.exists_cons_of_ne_nil (by simp)
      rw [List.cons_append, hrest, List.intercalate_cons_cons, ← hrest, ih]
      simp [normalized]

/-- Joined lines are read back if the last one keeps its end. -/
theorem wireLines_intercalate {lines : List Bytes} {last : Bytes}
    (hfree : ∀ line ∈ lines ++ [last], lf ∉ line) (hne : ∀ line ∈ lines ++ [last], line ≠ []) :
    wireLines (crlf.intercalate (lines ++ [last])) = lines ++ [last] ↔
      last.getLast? ≠ some cr := by
  have hlast : wireLines last = [stripCr last].filter fun line => !line.isEmpty := by
    rw [wireLines, List.splitOn_eq_singleton (hfree last (by simp)), List.map_singleton]
  have hkept : (!last.isEmpty) = true := by simpa using hne last (by simp)
  rw [intercalate_concat, wireLines_append (fun l hl => hfree l (by simp [hl]))
    (fun l hl => hne l (by simp [hl])), List.append_cancel_left_eq, hlast, ← stripCr_eq_self]
  constructor
  · intro h
    have hmem : last ∈ [stripCr last] := by
      apply List.mem_of_mem_filter
      rw [h]
      exact List.mem_singleton_self last
    exact (List.mem_singleton.mp hmem).symm
  · intro h
    rw [h, List.filter_cons, if_pos hkept, List.filter_nil]

/-- **The format parser accepts exactly its grammar.** A field list is accepted if and
only if its non-empty lines keep the grammar, nothing is indexed out of range, and the
fields are these lines. The fields written as lines give the same format again; joined,
without an end after the last one, they do if the last field does not itself end in a
CR. -/
theorem parseOverviewFormat_exact (data : Bytes) :
    parseOverviewFormatChecked data = some (parseOverviewFormat data) ∧
    ((∃ format, parseOverviewFormat data = .ok format) ↔ FormatGrammar (wireLines data)) ∧
    ∀ format, parseOverviewFormat data = .ok format →
      format.fields = wireLines data ∧
      parseOverviewFormat (normalized format.fields) = .ok format ∧
      (parseOverviewFormat (crlf.intercalate format.fields) = .ok format ↔
        ∀ field, format.fields.getLast? = some field → field.getLast? ≠ some cr) := by
  refine ⟨parseOverviewFormatChecked_eq data, ⟨?_, ?_⟩, ?_⟩
  · rintro ⟨format, h⟩
    exact (parseOverviewFormat_eq_ok.mp h).1
  · exact fun h => ⟨_, parseOverviewFormat_eq_ok.mpr ⟨h, rfl⟩⟩
  intro format h
  obtain ⟨hgrammar, hfields⟩ := parseOverviewFormat_eq_ok.mp h
  have hfree : ∀ line ∈ format.fields, lf ∉ line := by
    rw [hfields]
    exact fun _ hline => lf_not_mem_wireLines hline
  have hne : ∀ line ∈ format.fields, line ≠ [] := by
    rw [hfields]
    exact fun _ hline => ne_nil_of_mem_wireLines hline
  rw [← hfields] at hgrammar
  have hagain : ∀ text, parseOverviewFormat text = .ok format ↔ wireLines text = format.fields := by
    intro text
    rw [parseOverviewFormat_eq_ok]
    exact ⟨fun h => h.2.symm, fun h => ⟨h ▸ hgrammar, h.symm⟩⟩
  refine ⟨hfields, (hagain _).mpr (wireLines_normalized hfree hne), ?_⟩
  obtain ⟨lines, last, hlast⟩ : ∃ lines last, format.fields = lines ++ [last] := by
    apply (List.eq_nil_or_concat' format.fields).resolve_left
    intro hnil
    have hcount := hgrammar.count.1
    rw [hnil] at hcount
    exact absurd hcount (by decide)
  rw [hagain, hlast]
  rw [hlast] at hfree hne
  rw [wireLines_intercalate hfree hne]
  simp

end Overview

def formatEndingInCr : Bytes :=
  Text.utf8 "SUBJECT:\r\nfrom:\nDate:\r\n\r\nMessage-ID:\r\nReferences:\r\nBytes:\r\nlines:\r\nX\r\r\n"

theorem parseOverviewFormat_not_of_join :
    ∃ format, Overview.parseOverviewFormat formatEndingInCr = .ok format ∧
      Overview.parseOverviewFormat (crlf.intercalate format.fields) ≠ .ok format :=
  ⟨⟨Overview.wireLines formatEndingInCr⟩, by decide +kernel, by decide +kernel⟩

theorem parseOverviewFormat_exact_on_eight :
    Overview.parseOverviewFormat
      (normalized (Overview.wireLines formatEndingInCr)) =
        .ok ⟨Overview.wireLines formatEndingInCr⟩ :=
  ((Overview.parseOverviewFormat_exact formatEndingInCr).2.2
    ⟨Overview.wireLines formatEndingInCr⟩ (by decide +kernel)).2.1

end NzbNntp
